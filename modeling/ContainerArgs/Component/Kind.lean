import ContainerArgs.Component.Alertmanager
import ContainerArgs.Component.Compact
import ContainerArgs.Component.Memcached
import ContainerArgs.Component.Query
import ContainerArgs.Component.Receive
import ContainerArgs.Component.Store

/-!
# Kinds of components

The components that a manifest can name, each with the type of its options, and
specifications: a kind together with options for it.
-/

namespace ContainerArgs

open Settings Component

/-- A kind of component. -/
inductive Kind where
  | compact
  | query
  | store
  | receive
  | alertmanager
  | memcached
deriving DecidableEq, Repr

namespace Kind

def text : Kind → String
  | compact => "thanos_compact"
  | query => "thanos_query"
  | store => "thanos_store"
  | receive => "thanos_receive"
  | alertmanager => "alertmanager"
  | memcached => "memcached"

def all : List Kind :=
  [compact, query, store, receive, alertmanager, memcached]

def names : List (String × Kind) :=
  all.map fun k => (k.text, k)

def decode (v : Yaml.Value) : Except DecodeError Kind :=
  decodeName names v

abbrev Options : Kind → Type
  | compact => CompactOptions
  | query => QueryOptions
  | store => StoreOptions
  | receive => ReceiveOptions
  | alertmanager => AlertmanagerOptions
  | memcached => MemcachedOptions

def component : (k : Kind) → Component k.Options
  | compact => Component.compact
  | query => Component.query
  | store => Component.store
  | receive => Component.receive
  | alertmanager => Component.alertmanager
  | memcached => Component.memcached

end Kind

/-- A kind with options for it. -/
structure Specification where
  kind : Kind
  options : kind.Options

namespace Specification

def default (k : Kind) : Specification :=
  ⟨k, k.component.schema.default⟩

def load (k : Kind) (v : Yaml.Value) : Except DecodeError Specification :=
  (k.component.schema.load v).map fun o => ⟨k, o⟩

/-- The options written as a free-form value. -/
def save (s : Specification) : Yaml.Value :=
  s.kind.component.schema.save s.options

def record (s : Specification) : Flag.Record :=
  s.kind.component.record s.options

/-- Whether the component can start with the options. -/
def validate (s : Specification) : Except ValidationError Unit :=
  s.kind.component.validate s.options

def args (s : Specification) : Except ValidationError (List String) :=
  s.kind.component.args s.options

def editExtra (e : Flag.Extra.Edit) (s : Specification) : Specification :=
  ⟨s.kind, s.kind.component.editExtra e s.options⟩

/-- The specification without gossip, for the kind that has it. -/
def disableClustering : Specification → Specification
  | ⟨.alertmanager, o⟩ =>
    ⟨.alertmanager, AlertmanagerOptions.disableClustering o⟩
  | s => s

end Specification

end ContainerArgs
