import ContainerArgs.Output.Render

/-!
# The command line

Options may be given in any order, with one or two hyphens and with their values
attached or in the next argument.  An option that waits for its value takes the
next argument, unless that begins with a hyphen.  Every option stands at most
once, and there are no other arguments.
-/

namespace ContainerArgs.CommandLine

/-- What a run is asked to do. -/
structure Invocation where
  config : String
  component : Option String
  format : Output.Format
  output : Option String
deriving DecidableEq, Repr

/-- Why a command line is not run; help and version are asked for, all others
are faults. -/
inductive Refusal where
  | displayHelp
  | displayVersion
  | unknownArgument
  | missingRequiredArgument
  | invalidValue
  | argumentConflict
  | tooManyValues
deriving DecidableEq, Repr

def Refusal.isFault : Refusal → Bool
  | .displayHelp => false
  | .displayVersion => false
  | _ => true

/-- The options that take values. -/
inductive OptionName where
  | config
  | component
  | format
  | output
deriving DecidableEq, Repr

/-- What an argument can name: an option with a value, or a request for a
text. -/
inductive Target where
  | option (o : OptionName)
  | help
  | version
deriving DecidableEq, Repr

def longNames : List (String × Target) :=
  [("config", .option .config), ("component", .option .component),
    ("format", .option .format),
    ("output", .option .output), ("help", .help), ("version", .version)]

def shortNames : List (Char × Target) :=
  [('c', .option .config), ('f', .option .format), ('o', .option .output),
    ('h', .help), ('V', .version)]

/-- The values that were accepted so far, and the option named last, which waits
for its value or for the check of it. -/
structure Progress where
  values : List (OptionName × String)
  waiting : Option (OptionName × Option String)

def accepts (o : OptionName) (value : String) : Bool :=
  match o with
  | .config => !value.isEmpty
  | .component => true
  | .format => (Output.Format.ofText? value).isSome
  | .output => !value.isEmpty

/-- The progress with a value for an option, which has none yet and accepts
it. -/
def Progress.give (o : OptionName) (value : String) (p : Progress) :
    Except Refusal Progress :=
  if (p.values.lookup o).isSome then .error .argumentConflict
  else if !accepts o value then .error .invalidValue
  else .ok ⟨(o, value) :: p.values, none⟩

/-- The progress when nothing more can be the value of the option that waits. -/
def Progress.settle (p : Progress) : Except Refusal Progress :=
  match p.waiting with
  | none => .ok p
  | some (_, none) => .error .invalidValue
  | some (o, some value) => p.give o value

/-- The progress when a target is named, with a value or without one. -/
def Progress.name (t : Target) (value : Option String) (p : Progress) :
    Except Refusal Progress :=
  match t, value with
  | .option o, some v => do (← p.settle).give o v
  | .option o, none => do
    let p ← p.settle
    .ok { p with waiting := some (o, none) }
  | .help, none => do
    let _ ← p.settle
    .error .displayHelp
  | .version, none => do
    let _ ← p.settle
    .error .displayVersion
  | _, some _ => .error .tooManyValues

/-- The progress after an argument with two hyphens. -/
def Progress.takeLong (body : List Char) (p : Progress) :
    Except Refusal Progress :=
  let name := String.ofList (body.takeWhile (· ≠ '='))
  let value := match body.dropWhile (· ≠ '=') with
    | _ :: v => some (String.ofList v)
    | [] => none
  match longNames.lookup name with
  | some t => p.name t value
  | none => .error .unknownArgument

/-- The progress after an argument with one hyphen: a short name, and after it
the value, possibly behind an equals sign. -/
def Progress.takeShort (c : Char) (after : List Char) (p : Progress) :
    Except Refusal Progress :=
  match shortNames.lookup c, after with
  | some (.option o), '=' :: v => p.name (.option o) (some (String.ofList v))
  | some (.option o), d :: v =>
    p.name (.option o) (some (String.ofList (d :: v)))
  | some t, _ => p.name t none
  | none, _ => .error .unknownArgument

/-- The progress after an argument that is no option. -/
def Progress.takePlain (arg : String) (p : Progress) :
    Except Refusal Progress :=
  match p.waiting with
  | some (o, none) => .ok { p with waiting := some (o, some arg) }
  | _ => .error .unknownArgument

def Progress.take (arg : String) (p : Progress) : Except Refusal Progress :=
  match arg.toList with
  | '-' :: '-' :: body => p.takeLong body
  | '-' :: c :: after => p.takeShort c after
  | _ => p.takePlain arg

/-- The progress after several arguments.  After a lone pair of hyphens nothing
is an option. -/
def Progress.takeAll : List String → Progress → Except Refusal Progress
  | [], p => .ok p
  | arg :: args, p =>
    if arg = "--" then
      if args.isEmpty then .ok p else .error .unknownArgument
    else do takeAll args (← p.take arg)

def Progress.finish (p : Progress) : Except Refusal Invocation := do
  let p ← p.settle
  match p.values.lookup .config with
  | some config =>
    let format :=
      ((p.values.lookup .format).bind Output.Format.ofText?).getD .yaml
    .ok ⟨config, p.values.lookup .component, format, p.values.lookup .output⟩
  | none => .error .missingRequiredArgument

def parse (args : List String) : Except Refusal Invocation := do
  (← Progress.takeAll args ⟨[], none⟩).finish

end ContainerArgs.CommandLine
