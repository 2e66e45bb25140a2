import OverlayTunnel.Proofs.Device.MergeOrder
import OverlayTunnel.Proofs.Table.WellFormed

/-!
What a configuration leaves in a table. Its entries are merged one after another; of all entries with a
key the last one decides the endpoint, and the networks are those that were not replaced by a later
entry.
-/
namespace OverlayTunnel

variable {peers : List DevicePeer} {ps : List TunnelPeer} {key : PublicKey}

/-! ### Entries of one key -/

theorem mem_iff_peerOf? (h : (peers.map DevicePeer.publicKey).Nodup) {p : DevicePeer} :
    p ∈ peers ↔ peerOf? peers p.publicKey = some p :=
  ⟨find?_of_nodup h, List.mem_of_find?_eq_some⟩

/-- A key without entries keeps its peer. -/
theorem peerOf?_foldl_mergePeer_of_not_mem (h : key ∉ ps.map TunnelPeer.publicKey) :
    peerOf? (ps.foldl mergePeer peers) key = peerOf? peers key := by
  induction ps generalizing peers with
  | nil => rfl
  | cons p ps ih =>
    rw [List.map_cons, List.mem_cons, not_or] at h
    rw [List.foldl_cons, ih h.2, peerOf?_mergePeer, if_neg (Ne.symm h.1)]

/-- The last entry of a key. -/
structure LastEntry (key : PublicKey) (ps : List TunnelPeer) (p : TunnelPeer) : Prop where
  split : ∃ before later, ps = before ++ p :: later ∧ key ∉ later.map TunnelPeer.publicKey
  publicKey : p.publicKey = key

theorem exists_lastEntry (h : key ∈ ps.map TunnelPeer.publicKey) : ∃ p, LastEntry key ps p := by
  induction ps with
  | nil => cases h
  | cons p ps ih =>
    by_cases hlater : key ∈ ps.map TunnelPeer.publicKey
    · obtain ⟨q, ⟨before, later, hsplit, hlast⟩, hq⟩ := ih hlater
      exact ⟨q, ⟨p :: before, later, by rw [hsplit]; rfl, hlast⟩, hq⟩
    · have hp : p.publicKey = key := ((List.mem_cons.mp h).resolve_right hlater).symm
      exact ⟨p, ⟨[], ps, rfl, hlater⟩, hp⟩

theorem LastEntry.endpoint {p : TunnelPeer} (h : LastEntry key ps p) (peers : List DevicePeer) :
    (peerOf? (ps.foldl mergePeer peers) key).map DevicePeer.endpoint = some (some p.endpoint) := by
  obtain ⟨before, later, rfl, hlater⟩ := h.split
  rw [List.foldl_append, List.foldl_cons, peerOf?_foldl_mergePeer_of_not_mem hlater,
    endpoint_mergePeer, if_pos h.publicKey]

/-- What entries make of the networks of a key. From the last entry that replaces them on, the networks
are those of the entries; without one, the key keeps what it had as well. -/
def JoinsNetworks (peers : List DevicePeer) (ps : List TunnelPeer) (key : PublicKey)
    (networks : List Network) : Prop :=
  (∃ p later, LastReset key ps p later ∧ ∀ n, n ∈ networks ↔ IsGranted key (p :: later) n) ∨
    (NoneResets key ps ∧ ∀ n, n ∈ networks ↔ n ∈ allowedOf peers key ∨ IsGranted key ps n)

theorem joinsNetworks_foldl_mergePeer (peers : List DevicePeer) (ps : List TunnelPeer)
    (key : PublicKey) : JoinsNetworks peers ps key (allowedOf (ps.foldl mergePeer peers) key) := by
  rcases noneResets_or_exists_lastReset key ps with hnone | ⟨p, later, h⟩
  · exact .inr ⟨hnone, fun n => mem_allowedOf_of_noneResets hnone⟩
  · refine .inl ⟨p, later, h, fun n => ?_⟩
    rw [h.mem_allowedOf, isGranted_cons, and_iff_right h.publicKey]

/-! ### Devices -/

namespace DeviceSetup

/-- What is left of the peers `base` and of the entries of a configuration. -/
structure Leaves (setup : DeviceSetup) (base : List DevicePeer) (d : Device) : Prop where
  publicKey : d.publicKey = some setup.privateKey.publicKey
  listenPort : d.listenPort = setup.listenPort
  /-- The new keys follow in the order of their first entries. -/
  keys : d.peers.map DevicePeer.publicKey = base.map DevicePeer.publicKey ++
    ((setup.peers.map TunnelPeer.publicKey).removeAll (base.map DevicePeer.publicKey)).eraseDups
  distinct : (d.peers.map DevicePeer.publicKey).Nodup
  unlisted : ∀ p, p.publicKey ∉ setup.peers.map TunnelPeer.publicKey → (p ∈ d.peers ↔ p ∈ base)
  endpoint : ∀ p ∈ d.peers, p.publicKey ∈ setup.peers.map TunnelPeer.publicKey →
    ∃ entry, LastEntry p.publicKey setup.peers entry ∧ p.endpoint = some entry.endpoint
  allowed : ∀ p ∈ d.peers, JoinsNetworks base setup.peers p.publicKey p.allowed

variable {setup : DeviceSetup} {old : Option Device}

theorem leaves_configured (hbase : SoundPeers (setup.base old)) (name : String) :
    setup.Leaves (setup.base old) (.configured name old setup) := by
  have hdistinct := (hbase.mergeAll setup.peers).keys
  have hpeer {p : DevicePeer} (hp : p ∈ setup.peers.foldl mergePeer (setup.base old)) :
      peerOf? (setup.peers.foldl mergePeer (setup.base old)) p.publicKey = some p :=
    (mem_iff_peerOf? hdistinct).mp hp
  constructor
  case publicKey => rfl
  case listenPort => rfl
  case keys => rw [Device.peers_configured, publicKeys_foldl_mergePeer, appendNew_eq]
  case distinct => exact hdistinct
  case unlisted =>
    intro p hp
    rw [Device.peers_configured, mem_iff_peerOf? hdistinct, mem_iff_peerOf? hbase.keys,
      peerOf?_foldl_mergePeer_of_not_mem hp]
  case endpoint =>
    intro p hp hlisted
    obtain ⟨entry, hentry⟩ := exists_lastEntry hlisted
    have hendpoint := hentry.endpoint (setup.base old)
    rw [hpeer hp] at hendpoint
    exact ⟨entry, hentry, Option.some.inj hendpoint⟩
  case allowed =>
    intro p hp
    have hjoins := joinsNetworks_foldl_mergePeer (setup.base old) setup.peers p.publicKey
    rwa [allowedOf, hpeer hp] at hjoins

end DeviceSetup

/-! ### Tables -/

namespace LinkTable

/-- A configuration of a link that is there succeeds unless a failure is pending, and changes nothing but
the device of the link. The device has the key and the port of the configuration. Its peers are those it
had, unless they were to be replaced, and the entries merged into them: keys stay in their places and new
ones follow, peers without entries stay as they are, and of the entries of a key the last one decides the
endpoint and those after the last replacement decide the networks. -/
theorem configureDevice_leaves {t : LinkTable} {name : String} {l : LinkState} (ht : t.Reachable)
    (hl : t.links name = some l) (hidle : t.pending .configureDevice = false) (setup : DeviceSetup) :
    ∃ d : Device,
      (backend.perform (.configureDevice name setup)).run.run t =
        (.ok (), { t with
          links := t.links.set name (some { l with device := some d })
          calls := t.calls ++ [.configureDevice] }) ∧
      d.name = name ∧ setup.Leaves (setup.base l.device) d := by
  have hbase : SoundPeers (setup.base l.device) :=
    SoundPeers.base setup fun d hd => ((ht.sound name l hl).device d hd).peers
  have hrun : (backend.perform (.configureDevice name setup)).run.run t = _ := run_perform_eq hidle
  rw [LinkRequest.target, hl] at hrun
  exact ⟨.configured name l.device setup, hrun, rfl, setup.leaves_configured hbase name⟩

def sampleKeyOf (b : UInt8) : PublicKey :=
  ⟨List.replicate keySize b, List.length_replicate⟩

def sampleEntryOf (b : UInt8) (replacesAllowed : Bool) (overlayAddress : BitVec 32) : TunnelPeer :=
  ⟨sampleKeyOf b, .ofAddress (.v4 overlayAddress) 51820, replacesAllowed, [.host (.v4 overlayAddress)]⟩

def sampleSetupOf (b : UInt8) (peers : List TunnelPeer) : DeviceSetup :=
  ⟨⟨List.replicate keySize b, List.length_replicate⟩, 51820, false, peers⟩

/-- One peer has no entry, one has its networks replaced between two additions, and one is new and listed
twice. -/
theorem configureDevice_leaves_mixed :
    let first := sampleSetupOf 7 [sampleEntryOf 0 true 1, sampleEntryOf 1 true 2]
    let second := sampleSetupOf 8 [sampleEntryOf 2 false 3, sampleEntryOf 1 false 4,
      sampleEntryOf 1 true 5, sampleEntryOf 1 false 6, sampleEntryOf 2 false 7]
    let t := after [.call (.request (.createWireguard "a")),
      .call (.request (.configureDevice "a" first))]
    ∃ l d, t.Reachable ∧ t.links "a" = some l ∧ t.pending .configureDevice = false ∧
      ((backend.perform (.configureDevice "a" second)).run.run t).1 = .ok () ∧
      second.Leaves (second.base l.device) d ∧
      d.peers.map DevicePeer.publicKey = [sampleKeyOf 0, sampleKeyOf 1, sampleKeyOf 2] := by
  intro first second t
  let l : LinkState := { LinkState.new 1 with device := some (.configured "a" none first) }
  have ht : t.Reachable := ⟨_, rfl⟩
  have hl : t.links "a" = some l := rfl
  obtain ⟨d, hrun, -, hleaves⟩ := configureDevice_leaves ht hl rfl second
  refine ⟨l, d, ht, hl, rfl, by rw [hrun], hleaves, ?_⟩
  rw [hleaves.keys]
  rfl

end LinkTable

end OverlayTunnel
