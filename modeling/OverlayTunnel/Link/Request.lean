import OverlayTunnel.Device.Basic
import OverlayTunnel.Device.Setup
import OverlayTunnel.Link.Failure

/-!
The operations on links, as data, and what it takes to carry them out. A backend is any way to answer
requests.
-/
namespace OverlayTunnel

/-- A link that was looked up. The index tells it from later links of the same name. -/
structure LinkHandle where
  name : String
  index : UInt32
  deriving DecidableEq, Repr

inductive LinkRequest where
  | createWireguard (name : String)
  | device (name : String)
  | configureDevice (name : String) (setup : DeviceSetup)
  | linkByName (name : String)
  | replaceAddress (link : LinkHandle) (address : Network)
  | setMtu (link : LinkHandle) (mtu : UInt32)
  | setUp (link : LinkHandle)
  | addRoute (link : LinkHandle) (destination : Network)
  | deleteLink (link : LinkHandle)
  deriving DecidableEq

inductive LinkOperation where
  | createWireguard
  | device
  | configureDevice
  | linkByName
  | replaceAddress
  | setMtu
  | setUp
  | addRoute
  | deleteLink
  deriving DecidableEq, Repr

def LinkOperation.name : LinkOperation → String
  | .createWireguard => "CreateWireguard"
  | .device => "Device"
  | .configureDevice => "ConfigureDevice"
  | .linkByName => "LinkByName"
  | .replaceAddress => "ReplaceAddress"
  | .setMtu => "SetMtu"
  | .setUp => "SetUp"
  | .addRoute => "AddRoute"
  | .deleteLink => "DeleteLink"

namespace LinkRequest

def operation : LinkRequest → LinkOperation
  | .createWireguard _ => .createWireguard
  | .device _ => .device
  | .configureDevice .. => .configureDevice
  | .linkByName _ => .linkByName
  | .replaceAddress .. => .replaceAddress
  | .setMtu .. => .setMtu
  | .setUp _ => .setUp
  | .addRoute .. => .addRoute
  | .deleteLink _ => .deleteLink

def target : LinkRequest → String
  | .createWireguard name => name
  | .device name => name
  | .configureDevice name _ => name
  | .linkByName name => name
  | .replaceAddress link _ => link.name
  | .setMtu link _ => link.name
  | .setUp link => link.name
  | .addRoute link _ => link.name
  | .deleteLink link => link.name

/-- What a request asks for. Most only ask that something be done. -/
@[reducible] def Reply : LinkRequest → Type
  | .device _ => Device
  | .linkByName _ => LinkHandle
  | _ => Unit

end LinkRequest

/-- Operations that change a state of type `σ` and may fail. -/
abbrev LinkM (σ : Type) := ExceptT LinkFailure (StateM σ)

/-- A failure ends a sequence of operations and keeps what was done before it. -/
theorem LinkM.run_bind {σ α β : Type} (x : LinkM σ α) (f : α → LinkM σ β) (s : σ) :
    (x >>= f).run.run s =
      match x.run.run s with
      | (.ok a, s) => (f a).run.run s
      | (.error e, s) => (.error e, s) := by
  simp only [ExceptT.run_bind, StateT.run_bind]
  rcases x.run.run s with ⟨_ | _, _⟩ <;> rfl

/-- A way to carry out requests on a state of type `σ`. -/
structure Backend (σ : Type) where
  perform : (request : LinkRequest) → LinkM σ request.Reply

end OverlayTunnel
