import ContainerArgs.CommandLine
import ContainerArgs.Manifest.Load

/-!
# Runs

A run loads a manifest, renders all of its components or the one that is asked
for, and puts them out in a format.  What happens on the way is a list of
events: reports, and at the end the output or the failure.
-/

namespace ContainerArgs

open Text

/-- Why a run fails. -/
inductive RunError where
  | load (fault : LoadError)
  | unknownComponent (name : String)
  | component (fault : ManifestError)
deriving Repr

def RunError.message : RunError → String
  | .load fault => fault.message
  | .unknownComponent name => "Component '" ++ name ++ "' not found in manifest"
  | .component fault => fault.message

/-- What is reported in the course of a run. -/
inductive RunNote where
  | manifestFile (path : FilePath)
  | load (n : LoadNote)
  | rendered (name : String) (kind : Kind) (count : Nat)
  | wrote (path : FilePath)
deriving DecidableEq, Repr

/-- The wording of a report, after its level. -/
def RunNote.message : RunNote → String
  | .manifestFile path => "INFO Manifest file: " ++ quote path.text
  | .load n => n.message
  | .rendered name kind count =>
    "INFO Rendered " ++ name ++ " (" ++ kind.text ++ ") with " ++
      Number.natText count ++ " argument(s)"
  | .wrote path => "INFO Wrote argument vectors to " ++ quote path.text

namespace Manifest

/-- The components that a run is about: all of them, or the one with a name. -/
def select (m : Manifest) : Option String → Except RunError (List Configuration)
  | none => .ok m.components
  | some name =>
    match m.component? name with
    | some c => .ok [c]
    | none => .error (.unknownComponent name)

end Manifest

namespace Configuration

/-- Several components with their arguments, and a report on each; the first
fault ends it. -/
def renderAll : List Configuration →
    List RunNote × Except ManifestError (List Output.Rendered)
  | [] => ([], .ok [])
  | c :: cs =>
    match c.args with
    | .error fault => ([], .error fault)
    | .ok args =>
      let rest := renderAll cs
      (.rendered c.name c.kind args.length :: rest.1,
        rest.2.map (⟨c.name, args⟩ :: ·))

end Configuration

namespace Run

/-- The components that an invocation asks for with their arguments, and the
reports on the way. -/
def rendered (inv : CommandLine.Invocation) (file : FileContent) :
    List RunNote × Except RunError (List Output.Rendered) :=
  let path := FilePath.ofText inv.config
  let loading := Manifest.load path file
  let notes := .manifestFile path :: loading.1.map .load
  match loading.2 with
  | .error fault => (notes, .error (.load fault))
  | .ok m =>
    match m.select inv.component with
    | .error fault => (notes, .error fault)
    | .ok cs =>
      let rendering := Configuration.renderAll cs
      (notes ++ rendering.1, rendering.2.mapError .component)

/-- What a run does to the outside. -/
inductive Event where
  | report (n : RunNote)
  | output (target : Option String) (text : String)
  | failure (fault : RunError)

/-- How a run ends: with the output for its target, or with a failure. -/
def ending (inv : CommandLine.Invocation) :
    Except RunError (List Output.Rendered) → Event
  | .ok rs => .output inv.output (Output.render inv.format rs)
  | .error fault => .failure fault

/-- All that a run does, in order. -/
def events (inv : CommandLine.Invocation) (file : FileContent) : List Event :=
  let run := rendered inv file
  run.1.map .report ++ [ending inv run.2]

end Run

end ContainerArgs
