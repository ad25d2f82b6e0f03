import ContainerArgs.CommandLine
import ContainerArgs.CommandLine.Help
import ContainerArgs.Component.Alertmanager
import ContainerArgs.Component.Basic
import ContainerArgs.Component.Compact
import ContainerArgs.Component.Kind
import ContainerArgs.Component.Log
import ContainerArgs.Component.Memcached
import ContainerArgs.Component.Query
import ContainerArgs.Component.Receive
import ContainerArgs.Component.Store
import ContainerArgs.Duration.Basic
import ContainerArgs.Duration.Clock
import ContainerArgs.Duration.Retention
import ContainerArgs.Duration.Spelled
import ContainerArgs.Flag.Argument
import ContainerArgs.Flag.Encode
import ContainerArgs.Flag.Extra
import ContainerArgs.Flag.Field
import ContainerArgs.Flag.Member
import ContainerArgs.Flag.Render
import ContainerArgs.Flag.Tag
import ContainerArgs.Flag.Value
import ContainerArgs.Main
import ContainerArgs.Manifest.Basic
import ContainerArgs.Manifest.Load
import ContainerArgs.Manifest.Text
import ContainerArgs.Net.Address
import ContainerArgs.Net.Ipv4
import ContainerArgs.Net.Ipv6
import ContainerArgs.Number.Binary
import ContainerArgs.Number.Digits
import ContainerArgs.Number.Shortest
import ContainerArgs.Output.Json
import ContainerArgs.Output.Render
import ContainerArgs.Proofs.Component.Agreement
import ContainerArgs.Proofs.Component.Checked
import ContainerArgs.Proofs.Component.Faithful
import ContainerArgs.Proofs.Component.Gossip
import ContainerArgs.Proofs.Component.Lawful
import ContainerArgs.Proofs.Component.Session
import ContainerArgs.Proofs.Duration.Canonical
import ContainerArgs.Proofs.Duration.Clock
import ContainerArgs.Proofs.Duration.ClockForm
import ContainerArgs.Proofs.Duration.FromEnd
import ContainerArgs.Proofs.Duration.Grammar
import ContainerArgs.Proofs.Duration.NormalForm
import ContainerArgs.Proofs.Duration.Spelled
import ContainerArgs.Proofs.Duration.Written
import ContainerArgs.Proofs.Flag.Independence
import ContainerArgs.Proofs.Flag.Inlining
import ContainerArgs.Proofs.Flag.Modifiers
import ContainerArgs.Proofs.Flag.Notes
import ContainerArgs.Proofs.Flag.Precedence
import ContainerArgs.Proofs.Flag.Tag
import ContainerArgs.Proofs.Flag.Tokens
import ContainerArgs.Proofs.Flag.Visibility
import ContainerArgs.Proofs.Flag.Wrappers
import ContainerArgs.Proofs.Manifest.Ignored
import ContainerArgs.Proofs.Manifest.Readers
import ContainerArgs.Proofs.Manifest.Saved
import ContainerArgs.Proofs.Manifest.Validation
import ContainerArgs.Proofs.Net.Address
import ContainerArgs.Proofs.Net.Ipv4
import ContainerArgs.Proofs.Net.Ipv6
import ContainerArgs.Proofs.Number.Decimal
import ContainerArgs.Proofs.Number.Hexadecimal
import ContainerArgs.Proofs.Output.Lines
import ContainerArgs.Proofs.Run.Selection
import ContainerArgs.Proofs.Settings.Arguments
import ContainerArgs.Proofs.Settings.Insertion
import ContainerArgs.Proofs.Settings.Lawful
import ContainerArgs.Proofs.Settings.Parts
import ContainerArgs.Proofs.Settings.Reordering
import ContainerArgs.Proofs.Settings.Stable
import ContainerArgs.Proofs.Text.Runs
import ContainerArgs.Proofs.Text.Split
import ContainerArgs.Proofs.Text.Trim
import ContainerArgs.Proofs.Text.Utf8
import ContainerArgs.Proofs.Yaml.Compose
import ContainerArgs.Run
import ContainerArgs.Settings.Error
import ContainerArgs.Settings.Schema
import ContainerArgs.Settings.Setting
import ContainerArgs.Text.Blank
import ContainerArgs.Text.Path
import ContainerArgs.Text.Quoted
import ContainerArgs.Text.Split
import ContainerArgs.Text.Utf8
import ContainerArgs.Text.Visible
import ContainerArgs.Yaml.Char
import ContainerArgs.Yaml.Compose
import ContainerArgs.Yaml.Cursor
import ContainerArgs.Yaml.Document
import ContainerArgs.Yaml.Error
import ContainerArgs.Yaml.Gap
import ContainerArgs.Yaml.Node
import ContainerArgs.Yaml.Plain
import ContainerArgs.Yaml.Printer
import ContainerArgs.Yaml.Tag
import ContainerArgs.Yaml.Token
import ContainerArgs.Yaml.Token.Scalar
import ContainerArgs.Yaml.Token.Scanner
import ContainerArgs.Yaml.Token.Tag
import ContainerArgs.Yaml.Value
