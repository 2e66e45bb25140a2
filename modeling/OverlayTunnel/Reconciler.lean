import OverlayTunnel.Assignment
import OverlayTunnel.Config.Load
import OverlayTunnel.Link.Request

/-!
The reconciler of one overlay interface. Every call asserts the whole state that is wanted, so a call
that fails halfway is made good by the next one. It works over any backend.
-/
namespace OverlayTunnel

/-- What a node is on the overlay. -/
structure Identity where
  name : String
  overlayAddress : Address
  publicKey : PublicKey
  privateKey : PrivateKey
  deriving DecidableEq

/-- What a node tells the others. -/
def Identity.announcement (i : Identity) : Announcement :=
  ⟨i.overlayAddress, i.publicKey.text⟩

structure Reconciler where
  interface : String
  listenPort : UInt16
  mtu : UInt32
  network : Network
  identity : Identity
  deriving DecidableEq

namespace Reconciler

/-- The reconciler of a node with a given key, for a configuration that passes the check. -/
def create (c : Config) (name : String) (key : PrivateKey) : Except Failure Reconciler := do
  c.check
  let overlayAddress ← c.network.assign name c.address
  return {
    interface := c.interface
    listenPort := c.listenPort
    mtu := c.mtu
    network := c.network
    identity := { name, overlayAddress, publicKey := key.publicKey, privateKey := key } }

variable {σ : Type}

abbrev Action (σ α : Type) := ExceptT Failure (StateM σ) α

/-- A request as one step of the reconciler, whose failure is that of the step. -/
def request (b : Backend σ) (r : Reconciler) (phase : Phase) (q : LinkRequest) :
    Action σ q.Reply :=
  ExceptT.mk do
    return (← (b.perform q).run).mapError (.link phase r.interface)

/-- A request for something that may already be there. -/
def ensure (b : Backend σ) (r : Reconciler) (phase : Phase) (q : LinkRequest) : Action σ Unit :=
  ExceptT.mk do
    match ← (b.perform q).run with
    | .ok _ => return .ok ()
    | .error e => return if e.isAlreadyExists then .ok () else .error (.link phase r.interface e)

/-- How the device is to be configured for its members: with these peers and no others. -/
def setup (r : Reconciler) (members : List Member) : Except Failure DeviceSetup :=
  match Member.toPeers r.listenPort members with
  | .ok peers => .ok ⟨r.identity.privateKey, r.listenPort, true, peers⟩
  | .error e => .error (.peers r.interface (.ofKey e))

def routeTo (m : Member) : Network :=
  .host m.overlayAddress

/-- Brings the interface up with the given members as its peers, up to the first failure. -/
def bringUp (b : Backend σ) (r : Reconciler) (members : List Member) : Action σ Unit := do
  ensure b r .createLink (.createWireguard r.interface)
  let setup ← ExceptT.mk (pure (r.setup members))
  request b r .configureDevice (.configureDevice r.interface setup)
  let link ← request b r .lookupLink (.linkByName r.interface)
  request b r .replaceAddress (.replaceAddress link (.host r.identity.overlayAddress))
  request b r .setMtu (.setMtu link r.mtu)
  request b r .setUp (.setUp link)
  members.forM fun m => ensure b r (.addRoute (routeTo m)) (.addRoute link (routeTo m))

/-- The device as it is, none if there is no such link. -/
def status (b : Backend σ) (r : Reconciler) : Action σ (Option Device) :=
  ExceptT.mk do
    match ← (b.perform (.device r.interface)).run with
    | .ok device => return .ok (some device)
    | .error e =>
      return if e.isNotFound then .ok none else .error (.link .lookupDevice r.interface e)

/-- Removes the interface and all that is attached to it, if it is there. -/
def takeDown (b : Backend σ) (r : Reconciler) : Action σ Unit := do
  if (← status b r).isSome then
    let link ← request b r .lookupLink (.linkByName r.interface)
    request b r .deleteLink (.deleteLink link)

end Reconciler

end OverlayTunnel
