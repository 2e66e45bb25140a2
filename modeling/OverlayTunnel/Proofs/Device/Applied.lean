import OverlayTunnel.Proofs.Device.Merge
import OverlayTunnel.Proofs.Device.SetupText

/-!
What the configuration tool makes of a device. A file either says how the device is to be, or is added
to what it is; the networks of a single peer can be set on their own.
-/
namespace OverlayTunnel

/-- Puts a peer among others, in the place of the one that has its key. The networks of both are
joined. -/
def putPeer (join : List Network → List Network → List Network) :
    List DevicePeer → DevicePeer → List DevicePeer
  | [], p => [p]
  | old :: peers, p =>
    if old.publicKey = p.publicKey then { p with allowed := join old.allowed p.allowed } :: peers
    else old :: putPeer join peers p

namespace SetupText.Contents

/-- The device that is as a file says, where a later section overrides an earlier one of the same
key. -/
def replaced (c : Contents) (name : String) : Device :=
  ⟨name, some c.privateKey.publicKey, c.listenPort, c.peers.foldl (putPeer fun _ later => later) []⟩

/-- The device after the sections of a file have been added: peers that are missing are created, and
the others get further networks. -/
def added (c : Contents) (name : String) (old : Option Device) : Device :=
  ⟨name, some c.privateKey.publicKey, c.listenPort,
    c.peers.foldl (putPeer DevicePeer.addAllowed) (old.elim [] Device.peers)⟩

end SetupText.Contents

/-- The device whose peer with a key has exactly the given networks. -/
def Device.withAllowed (d : Device) (key : PublicKey) (networks : List Network) : Device :=
  { d with peers := d.peers.map fun p =>
      if p.publicKey = key then { p with allowed := networks } else p }

/-! ### Files that say how a device is to be -/

theorem mergePeer_eq_putPeer (peers : List DevicePeer) {p : TunnelPeer}
    (hp : p.replacesAllowed = true ∧ p.allowed.Nodup) :
    mergePeer peers p = putPeer (fun _ later => later) peers (.ofTunnelPeer p) := by
  induction peers with
  | nil => rfl
  | cons old peers ih =>
    unfold mergePeer putPeer
    rw [show (DevicePeer.ofTunnelPeer p).publicKey = p.publicKey from rfl]
    by_cases hk : old.publicKey = p.publicKey
    · rw [if_pos hk, if_pos hk, DevicePeer.update_eq_ofTunnelPeer hk hp.1 hp.2]
      rfl
    · rw [if_neg hk, if_neg hk, ih]

/-- The file of a configuration that drops all other peers says just what becomes of the device. -/
theorem SetupText.replaced_eq_configured {setup : DeviceSetup} (hr : setup.replacesPeers = true)
    (hps : ∀ p ∈ setup.peers, p.replacesAllowed = true ∧ p.allowed.Nodup) (name : String)
    (old : Option Device) :
    Contents.replaced ⟨setup.privateKey, setup.listenPort, setup.peers.map .ofTunnelPeer⟩ name =
      Device.configured name old setup := by
  have hpeers (peers : List DevicePeer) (ps : List TunnelPeer)
      (hps : ∀ p ∈ ps, p.replacesAllowed = true ∧ p.allowed.Nodup) :
      (ps.map DevicePeer.ofTunnelPeer).foldl (putPeer fun _ later => later) peers =
        ps.foldl mergePeer peers := by
    induction ps generalizing peers with
    | nil => rfl
    | cons p ps ih =>
      rw [List.map_cons, List.foldl_cons, List.foldl_cons,
        mergePeer_eq_putPeer peers (hps p List.mem_cons_self),
        ih _ fun q hq => hps q (List.mem_cons_of_mem _ hq)]
  unfold Contents.replaced Device.configured
  dsimp only
  rw [hpeers [] setup.peers hps, hr, if_pos rfl]

end OverlayTunnel
