import OverlayTunnel.Device.Setup

/-!
A host as its tools show it: programs can be run, and a configuration file can be written for a program
to read and removed again.
-/
namespace OverlayTunnel

/-- A file with the configuration of a device, private to its owner. Its name begins with `stem`; the
rest makes it unique. -/
structure ConfigFile where
  stem : String
  content : String
  deriving DecidableEq

namespace ConfigFile

/-- The name of a file, with a mark for the characters that make it unique. -/
def shownName (f : ConfigFile) : String :=
  f.stem ++ "XXXXXX.conf"

/-- The permissions of a file: only its owner may read and write it. -/
def mode : Nat := 0o600

end ConfigFile

inductive Program where
  | ip
  | wg
  | which
  deriving DecidableEq, Repr

def Program.name : Program → String
  | .ip => "ip"
  | .wg => "wg"
  | .which => "which"

/-- An argument of a program. The path of a configuration file is not known before it is written, so
such an argument shows as a mark. -/
inductive Argument where
  | text (s : String)
  | file (f : ConfigFile)
  deriving DecidableEq

namespace Argument

def shown : Argument → String
  | .text s => s
  | .file _ => "<conf>"

/-- Arguments are passed as texts that end at the first NUL character, so they hold none. -/
def isPassable : Argument → Bool
  | .text s => s.toList.all fun c => c.toNat ≠ 0
  | .file _ => true

def file? : Argument → Option ConfigFile
  | .text _ => none
  | .file f => some f

end Argument

structure Invocation where
  program : Program
  arguments : List Argument
  deriving DecidableEq

namespace Invocation

def shownArguments (i : Invocation) : String :=
  Text.join " " (i.arguments.map Argument.shown)

def isPassable (i : Invocation) : Bool :=
  i.arguments.all Argument.isPassable

end Invocation

inductive Outcome where
  | exited (code : Nat) (stdout stderr : List UInt8)
  | notStarted (reason : String)
  deriving DecidableEq, Repr

/-- A host with a state of type `τ`. Writing a file may fail for a reason. -/
structure Host (τ : Type) where
  run : Invocation → StateM τ Outcome
  writeFile : ConfigFile → StateM τ (Except String Unit)
  removeFile : ConfigFile → StateM τ Unit

end OverlayTunnel
