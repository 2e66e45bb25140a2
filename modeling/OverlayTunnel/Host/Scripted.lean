import OverlayTunnel.Host.Basic
import OverlayTunnel.Text.Utf8

/-!
A host that plays back given responses and keeps a record of what was done.
-/
namespace OverlayTunnel

structure Response where
  code : Nat
  stdout : List UInt8
  stderr : List UInt8
  deriving DecidableEq, Repr

def Response.silent : Response :=
  ⟨0, [], []⟩

inductive HostEvent where
  | ran (invocation : Invocation)
  | notFound (invocation : Invocation)
  | wrote (file : ConfigFile)
  | removed (file : ConfigFile)
  deriving DecidableEq

/-- The programs that are installed, the responses to come, and what was done so far. -/
structure Script where
  tools : List Program
  responses : List Response
  events : List HostEvent

namespace Script

def record (event : HostEvent) : StateM Script Unit :=
  modify fun s => { s with events := s.events ++ [event] }

/-- Every program that is installed yields the next response. -/
def run (i : Invocation) : StateM Script Outcome := do
  let s ← get
  if i.program ∈ s.tools then
    record (.ran i)
    let r := s.responses.headD .silent
    modify fun s => { s with responses := s.responses.tail }
    return .exited r.code r.stdout r.stderr
  else
    record (.notFound i)
    return .notStarted "No such file or directory (os error 2)"

def maxNameLength : Nat := 255

/-- Why a file cannot be written. A slash in its name would be that of a directory, and there is
none. -/
def refusal? (f : ConfigFile) : Option String :=
  let name := f.shownName.toList
  if name.any (·.toNat = 0) then some "file name contained an unexpected NUL byte"
  else if name.contains '/' then some "No such file or directory (os error 2)"
  else if maxNameLength < (Utf8.encode name).length then some "File name too long (os error 36)"
  else none

def writeFile (f : ConfigFile) : StateM Script (Except String Unit) := do
  match refusal? f with
  | some reason => return .error (reason ++ " at path \"<conf>\"")
  | none =>
    record (.wrote f)
    return .ok ()

def removeFile (f : ConfigFile) : StateM Script Unit :=
  record (.removed f)

def host : Host Script where
  run := run
  writeFile := writeFile
  removeFile := removeFile

/-- The same host with other responses to come and nothing on record. -/
def restart (s : Script) (responses : List Response) : Script :=
  { s with responses, events := [] }

def isRemoved (s : Script) (f : ConfigFile) : Bool :=
  s.events.contains (.removed f)

def invocations (s : Script) : List Invocation :=
  s.events.filterMap fun
    | .ran i => some i
    | _ => none

end Script

end OverlayTunnel
