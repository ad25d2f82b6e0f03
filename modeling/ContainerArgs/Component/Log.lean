import ContainerArgs.Settings.Schema

/-!
# Logging options

The options for logging that several components share.
-/

namespace ContainerArgs.Component

open Settings

/-- How much is logged. -/
inductive LogLevel where
  | debug
  | info
  | warn
  | error
deriving DecidableEq, Repr

def LogLevel.names : List (String × LogLevel) :=
  [("debug", debug), ("info", info), ("warn", warn), ("error", error)]

def LogLevel.text : LogLevel → String
  | debug => "debug"
  | info => "info"
  | warn => "warn"
  | error => "error"

instance : Setting LogLevel where
  decode := decodeName LogLevel.names
  encode l := .text l.text
  flag l := .leaf (.shown l.text)

/-- The notation of log lines. -/
inductive LogFormat where
  | logfmt
  | json
deriving DecidableEq, Repr

def LogFormat.names : List (String × LogFormat) :=
  [("logfmt", logfmt), ("json", json)]

def LogFormat.text : LogFormat → String
  | logfmt => "logfmt"
  | json => "json"

instance : Setting LogFormat where
  decode := decodeName LogFormat.names
  encode f := .text f.text
  flag f := .leaf (.shown f.text)

/-- The options for logging. -/
structure LogOptions where
  level : Option LogLevel := none
  format : Option LogFormat := none
deriving DecidableEq, Repr

def LogOptions.schema : Schema LogOptions where
  name := "LogOpts"
  default := {}
  entries := [
    .option "level" "log.level" (·.level) fun a o => { o with level := a },
    .option "format" "log.format" (·.format) fun a o => { o with format := a }]

end ContainerArgs.Component
