import OverlayTunnel.Device.Basic
import OverlayTunnel.Device.Setup

/-!
What a configuration makes of a device.
-/
namespace OverlayTunnel

namespace DevicePeer

def ofTunnelPeer (p : TunnelPeer) : DevicePeer :=
  ⟨p.publicKey, some p.endpoint, p.allowed⟩

/-- Appends the networks that are not there yet. -/
def addAllowed (present : List Network) (networks : List Network) : List Network :=
  networks.foldl (fun present n => if n ∈ present then present else present ++ [n]) present

/-- What the configuration of a peer makes of the peer that has its key. -/
def update (old : DevicePeer) (p : TunnelPeer) : DevicePeer :=
  { old with
    endpoint := some p.endpoint
    allowed := addAllowed (if p.replacesAllowed then [] else old.allowed) p.allowed }

end DevicePeer

/-- Configures one peer among those of a device: the first with its key is updated, and one with a new
key comes last. -/
def mergePeer : List DevicePeer → TunnelPeer → List DevicePeer
  | [], p => [.ofTunnelPeer p]
  | old :: peers, p =>
    if old.publicKey = p.publicKey then old.update p :: peers else old :: mergePeer peers p

theorem mem_addAllowed {present networks : List Network} {n : Network} :
    n ∈ DevicePeer.addAllowed present networks ↔ n ∈ present ∨ n ∈ networks := by
  induction networks generalizing present with
  | nil => simp [DevicePeer.addAllowed]
  | cons m networks ih =>
    rw [DevicePeer.addAllowed, List.foldl_cons, ← DevicePeer.addAllowed, ih]
    split <;> grind

/-- Configuring a peer changes no other peer and keeps all in their places. -/
theorem publicKeys_mergePeer (peers : List DevicePeer) (p : TunnelPeer) :
    (mergePeer peers p).map DevicePeer.publicKey =
      if p.publicKey ∈ peers.map DevicePeer.publicKey then peers.map DevicePeer.publicKey
      else peers.map DevicePeer.publicKey ++ [p.publicKey] := by
  induction peers with
  | nil => simp [mergePeer, DevicePeer.ofTunnelPeer]
  | cons old peers ih =>
    by_cases h : old.publicKey = p.publicKey
    · simp [mergePeer, h, DevicePeer.update]
    · have h' : p.publicKey ≠ old.publicKey := fun e => h e.symm
      simp only [mergePeer, if_neg h, List.map_cons, ih, List.mem_cons, h', false_or]
      split <;> simp

namespace Device

/-- The device with a given name after a configuration, where `old` was before. -/
def configured (name : String) (old : Option Device) (d : DeviceSetup) : Device where
  name
  publicKey := some d.privateKey.publicKey
  listenPort := d.listenPort
  peers := d.peers.foldl mergePeer (if d.replacesPeers then [] else old.elim [] Device.peers)

end Device

end OverlayTunnel
