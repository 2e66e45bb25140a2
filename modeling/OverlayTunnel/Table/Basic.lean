import OverlayTunnel.Config.Basic
import OverlayTunnel.Link.Request

/-!
A table of links in memory, which answers requests as a kernel would.
-/
namespace OverlayTunnel

/-- How far a link has come. Routes need an up link, so they have no stage of their own. -/
inductive Stage where
  | absent
  | created
  | configured
  | addressed
  | up
  deriving DecidableEq, Repr

def Stage.text : Stage → String
  | .absent => "Absent"
  | .created => "Created"
  | .configured => "Configured"
  | .addressed => "Addressed"
  | .up => "Up"

structure LinkState where
  index : UInt32
  device : Option Device
  addresses : List Network
  mtu : UInt32
  up : Bool
  routes : List Network
  deriving DecidableEq, Repr

namespace LinkState

def new (index : UInt32) : LinkState :=
  ⟨index, none, [], Config.defaultMtu, false, []⟩

def stage (l : LinkState) : Stage :=
  if l.device.isNone then .created
  else if l.addresses = [] then .configured
  else if l.up then .up
  else .addressed

end LinkState

abbrev Links := String → Option LinkState

namespace Links

def set (links : Links) (name : String) (link : Option LinkState) : Links :=
  fun other => if other = name then link else links other

@[simp] theorem set_self (links : Links) (name : String) (link : Option LinkState) :
    links.set name link name = link := by
  simp [set]

@[simp] theorem set_other (links : Links) {name other : String} (link : Option LinkState)
    (h : other ≠ name) : links.set name link other = links other := by
  simp [set, h]

end Links

/-- The links, the last index given out, the operations that are to fail once, and the operations asked
for so far. -/
structure LinkTable where
  links : Links
  lastIndex : UInt32
  pending : LinkOperation → Bool
  calls : List LinkOperation

namespace LinkTable

def empty : LinkTable :=
  ⟨fun _ => none, 0, fun _ => false, []⟩

/-- Lets the next request of a kind fail. -/
def failNext (t : LinkTable) (operation : LinkOperation) : LinkTable :=
  { t with pending := fun o => o = operation || t.pending o }

def clearCalls (t : LinkTable) : LinkTable :=
  { t with calls := [] }

def stage (t : LinkTable) (name : String) : Stage :=
  (t.links name).elim .absent LinkState.stage

end LinkTable

end OverlayTunnel
