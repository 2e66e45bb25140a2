import OverlayTunnel.Proofs.Table.Creation

/-!
What is true of the links of a table at any time: nothing is listed twice, devices are complete, and
every link has an index of its own among those that were given out.
-/
namespace OverlayTunnel

/-! ### Devices -/

/-- Peers of which no two have the same key, each with an endpoint. -/
structure SoundPeers (peers : List DevicePeer) : Prop where
  keys : (peers.map DevicePeer.publicKey).Nodup
  endpoints : ∀ p ∈ peers, p.endpoint.isSome

theorem SoundPeers.nil : SoundPeers [] :=
  ⟨List.nodup_nil, nofun⟩

theorem endpoint_of_mem_mergePeer {peers : List DevicePeer} {q : TunnelPeer}
    (h : ∀ p ∈ peers, p.endpoint.isSome) : ∀ p ∈ mergePeer peers q, p.endpoint.isSome := by
  induction peers with
  | nil =>
    intro p hp
    obtain rfl := List.mem_singleton.mp hp
    rfl
  | cons old peers ih =>
    obtain ⟨hold, hpeers⟩ := List.forall_mem_cons.mp h
    intro p hp
    by_cases hk : old.publicKey = q.publicKey
    · rw [mergePeer, if_pos hk] at hp
      rcases List.mem_cons.mp hp with rfl | hp
      · rfl
      · exact hpeers p hp
    · rw [mergePeer, if_neg hk] at hp
      rcases List.mem_cons.mp hp with rfl | hp
      · exact hold
      · exact ih hpeers p hp

theorem SoundPeers.merge {peers : List DevicePeer} (h : SoundPeers peers) (q : TunnelPeer) :
    SoundPeers (mergePeer peers q) := by
  constructor
  · have hkeys := nodup_appendNew h.keys [q.publicKey]
    rwa [appendNew_cons, appendNew_nil, ← publicKeys_mergePeer] at hkeys
  · exact endpoint_of_mem_mergePeer h.endpoints

theorem SoundPeers.mergeAll {peers : List DevicePeer} (h : SoundPeers peers) (qs : List TunnelPeer) :
    SoundPeers (qs.foldl mergePeer peers) := by
  induction qs generalizing peers with
  | nil => exact h
  | cons q qs ih => exact ih (h.merge q)

theorem SoundPeers.base {old : Option Device} (setup : DeviceSetup)
    (h : ∀ d, old = some d → SoundPeers d.peers) : SoundPeers (setup.base old) := by
  unfold DeviceSetup.base
  split
  · exact SoundPeers.nil
  · cases old with
    | none => exact SoundPeers.nil
    | some d => exact h d rfl

/-- A device as the configuration of the link with this name leaves it. -/
structure Device.Sound (name : String) (d : Device) : Prop where
  name_eq : d.name = name
  publicKey : d.publicKey.isSome
  peers : SoundPeers d.peers

/-- A configuration makes a device sound, whether it keeps the peers that were there or not. -/
theorem Device.sound_configured {name : String} {old : Option Device} (setup : DeviceSetup)
    (h : ∀ d, old = some d → d.Sound name) : (Device.configured name old setup).Sound name := by
  have hbase : SoundPeers (setup.base old) := SoundPeers.base setup fun d hd => (h d hd).peers
  exact ⟨rfl, rfl, hbase.mergeAll setup.peers⟩

/-! ### Links -/

structure LinkState.Sound (name : String) (l : LinkState) : Prop where
  device : ∀ d, l.device = some d → d.Sound name
  addresses : l.addresses.Nodup
  routes : l.routes.Nodup
  up : l.routes ≠ [] → l.up = true

theorem LinkState.sound_new (name : String) (index : UInt32) : (new index).Sound name :=
  ⟨nofun, List.nodup_nil, List.nodup_nil, fun h => absurd rfl h⟩

theorem LinkState.nodup_addressed {l : LinkState} (h : l.addresses.Nodup) (address : Network) :
    (l.addressed address).addresses.Nodup :=
  nodup_append_singleton (h.filter _) (by simp)

theorem LinkState.sound_of_change (name : String) (l l' : LinkState) (h : l.Sound name)
    (hc : Change name l l') : l'.Sound name := by
  cases hc with
  | same => exact h
  | configured setup =>
    refine { h with device := ?_ }
    rintro d ⟨⟩
    exact Device.sound_configured setup h.device
  | addressed address => exact { h with addresses := l.nodup_addressed h.addresses address }
  | mtu mtu => exact ⟨h.device, h.addresses, h.routes, h.up⟩
  | up => exact ⟨h.device, h.addresses, h.routes, fun _ => rfl⟩
  | routed destination hup hfresh =>
    exact ⟨h.device, h.addresses, nodup_append_singleton h.routes hfresh, fun _ => hup⟩

/-! ### Tables -/

namespace LinkTable

structure WellFormed (t : LinkTable) : Prop where
  index : ∀ name l, t.links name = some l → 1 ≤ l.index ∧ l.index ≤ t.lastIndex
  distinct : ∀ name other l m, t.links name = some l → t.links other = some m →
    l.index = m.index → name = other
  sound : ∀ name l, t.links name = some l → l.Sound name

theorem Reachable.sound {t : LinkTable} (ht : t.Reachable) : t.AllLinks LinkState.Sound :=
  Reachable.allLinks LinkState.sound_new LinkState.sound_of_change ht

/-- Every table is well formed, whatever requests and failures came before it, as long as fewer links
were created than there are indices. -/
theorem wellFormed_after (events : List Event) (h : created events < 2 ^ (32 : Nat)) :
    (after events).WellFormed := by
  have hnumbered := numbered_after h
  have hsound : (after events).AllLinks LinkState.Sound := Reachable.sound ⟨events, rfl⟩
  constructor
  · intro name l hl
    have hbounds := hnumbered.bounds name l hl
    rw [← hnumbered.lastIndex] at hbounds
    exact ⟨UInt32.le_iff_toNat_le.mpr hbounds.1, UInt32.le_iff_toNat_le.mpr hbounds.2⟩
  · exact hnumbered.distinct
  · exact hsound

/-- A link with a device and a route is deleted and created again beside another one. -/
theorem wellFormed_after_recreated :
    let peer : TunnelPeer := ⟨⟨List.replicate keySize 0, rfl⟩, .ofAddress (.v4 0xC0A80102) 51820, true,
      [.host (.v4 0x0A010204)]⟩
    let setup : DeviceSetup := ⟨⟨List.replicate keySize 0, rfl⟩, 51820, false, [peer, peer]⟩
    let events : List Event := [
      .call (.request (.createWireguard "a")), .call (.request (.configureDevice "a" setup)),
      .call (.request (.setUp ⟨"a", 1⟩)), .call (.request (.addRoute ⟨"a", 1⟩ (.host (.v4 1)))),
      .call (.request (.addRoute ⟨"a", 1⟩ (.host (.v4 1)))),
      .call (.request (.createWireguard "b")), .failNext .deleteLink,
      .call (.request (.deleteLink ⟨"a", 1⟩)), .call (.request (.deleteLink ⟨"a", 1⟩)),
      .call (.request (.createWireguard "a")), .clearCalls]
    created events = 3 ∧ (after events).WellFormed := by
  intro peer setup events
  have hcreated : created events = 3 := by decide
  exact ⟨hcreated, wellFormed_after events (by rw [hcreated]; decide)⟩

end LinkTable

end OverlayTunnel
