import ContainerArgs.Manifest.Text
import ContainerArgs.Text.Path

/-!
# Loading manifests

A manifest file is read, checked and reported on.  Whatever is wrong with it,
nothing of it is used.
-/

namespace ContainerArgs

open Text

/-- What was found at a path: nothing, for a reason that the system gives,
something that cannot be read, or bytes. -/
inductive FileContent where
  | missing (cause : String)
  | unreadable
  | bytes (bs : List UInt8)

/-- What is reported while a manifest is loaded. -/
inductive LoadNote where
  | loading (path : FilePath)
  | noComponents (path : FilePath)
  | loaded (count : Nat)
deriving DecidableEq, Repr

/-- The wording of a report, after its level. -/
def LoadNote.message : LoadNote → String
  | .loading path => "INFO Loading manifest from: " ++ quote path.text
  | .noComponents path =>
    "WARN Manifest " ++ quote path.text ++ " declares no components"
  | .loaded count => "INFO Loaded " ++ Number.natText count ++ " component(s)"

/-- Why a manifest file is not used. -/
inductive LoadError where
  | notOpened (path : FilePath) (cause : String)
  | malformed (path : FilePath)
  | invalid (fault : ManifestError)
deriving Repr

def LoadError.message : LoadError → String
  | .notOpened path _ => "Failed to open manifest '" ++ path.text ++ "'"
  | .malformed path => "Failed to parse manifest '" ++ path.text ++ "'"
  | .invalid fault => fault.message

namespace Manifest

def read (path : FilePath) (file : FileContent) : Except LoadError Manifest :=
  match file with
  | .missing cause => .error (.notOpened path cause)
  | .unreadable => .error (.malformed path)
  | .bytes bs => (ofBytes bs).mapError fun _ => .malformed path

/-- The reports on a manifest that was read, and whether it is valid. -/
def reportOn (path : FilePath) (m : Manifest) :
    List LoadNote × Except LoadError Manifest :=
  let empty := if m.components.isEmpty then [.noComponents path] else []
  match m.validate with
  | .ok () => (empty ++ [.loaded m.components.length], .ok m)
  | .error fault => (empty, .error (.invalid fault))

/-- Loads the manifest in a file, with the reports on the way. -/
def load (path : FilePath) (file : FileContent) :
    List LoadNote × Except LoadError Manifest :=
  match read path file with
  | .error fault => ([.loading path], .error fault)
  | .ok m =>
    let report := reportOn path m
    (.loading path :: report.1, report.2)

end Manifest

end ContainerArgs
