import OverlayTunnel.Endpoint
import OverlayTunnel.Key.Basic
import OverlayTunnel.Network

/-!
Tunnel devices as they are configured at the moment.
-/
namespace OverlayTunnel

structure DevicePeer where
  publicKey : PublicKey
  endpoint : Option Endpoint
  allowed : List Network
  deriving DecidableEq, Repr

structure Device where
  name : String
  /-- A device has a key once it has been configured. -/
  publicKey : Option PublicKey
  listenPort : UInt16
  peers : List DevicePeer
  deriving DecidableEq, Repr

/-- The device of a link that has not been configured. -/
def Device.unconfigured (name : String) : Device :=
  ⟨name, none, 0, []⟩

end OverlayTunnel
