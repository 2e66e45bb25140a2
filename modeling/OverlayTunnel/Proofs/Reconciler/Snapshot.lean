import OverlayTunnel.Proofs.Reconciler.BringUp
import OverlayTunnel.Proofs.Table.Reachable

/-!
What a call that succeeds asserts of its interface. All that was there before is overwritten, save the
routes and the addresses, which are only added to.
-/
namespace OverlayTunnel

/-- The peers of a device are those of the members in the order in which their keys first occur. Of
members with the same key the last one decides. -/
structure PeersOf (listenPort : UInt16) (ms : List Member) (peers : List DevicePeer) : Prop where
  keys : peers.map DevicePeer.publicKey = (ms.filterMap Member.key?).eraseDups
  last : ∀ p ∈ peers, ∃ before m later, ms = before ++ m :: later ∧
    m.key? = some p.publicKey ∧ (∀ m' ∈ later, m'.key? ≠ some p.publicKey) ∧
    p.endpoint = some (.ofAddress m.realAddress listenPort) ∧
    p.allowed = Member.routes m.overlayAddress

theorem peersOf_foldl_mergePeer {listenPort : UInt16} {ms : List Member} {ps : List TunnelPeer}
    (h : Member.toPeers listenPort ms = .ok ps) :
    PeersOf listenPort ms (ps.foldl mergePeer []) where
  keys := by
    rw [publicKeys_foldl_mergePeer, Member.publicKeys_toPeers h]
    exact appendNew_nil_left _
  last := by
    intro d hd
    obtain ⟨before, p, later, rfl, rfl, hlater⟩ :=
      mem_foldl_mergePeer (Member.replaces_of_mem_toPeers h) hd
    obtain ⟨msBefore, m, msLater, rfl, hm, hms⟩ := Member.toPeers_append h
    obtain ⟨key, hk, rfl⟩ := Member.toPeer_eq_ok_iff.mp hm
    refine ⟨msBefore, m, msLater, rfl, hk, ?_, rfl, rfl⟩
    intro m' hm' hk'
    have hkey : key ∈ later.map TunnelPeer.publicKey := by
      rw [Member.publicKeys_toPeers hms]
      exact List.mem_filterMap.mpr ⟨m', hm', hk'⟩
    obtain ⟨q, hq, he⟩ := List.mem_map.mp hkey
    exact hlater q hq he

namespace Reconciler

/-- The link of a node's interface as its configuration and the members want it. -/
structure Snapshot (c : Config) (identity : Identity) (ms : List Member) (l : LinkState) : Prop where
  stage : l.stage = .up
  device : ∃ d, l.device = some d ∧ d.name = c.interface ∧
    d.publicKey = some identity.publicKey ∧ d.listenPort = c.listenPort ∧
    PeersOf c.listenPort ms d.peers
  mtu : l.mtu = c.mtu
  address : l.addresses.count (.host identity.overlayAddress) = 1
  routes : ∀ m ∈ ms, l.routes.count (.host m.overlayAddress) = 1

variable {r : Reconciler} {setup : DeviceSetup} {ms : List Member}

theorem stage_brought (l : LinkState) : (r.brought setup ms l).stage = .up := by
  simp [LinkState.stage, brought, LinkState.addressed]

theorem count_addressed (l : LinkState) (address : Network) :
    (l.addressed address).addresses.count address = 1 := by
  have hrest : (l.addresses.filter (· ≠ address)).count address = 0 :=
    List.count_eq_zero.mpr (by simp)
  rw [LinkState.addressed, List.count_append, hrest]
  simp

theorem count_routes {l : LinkState} (hl : l.routes.Nodup) {m : Member} (hm : m ∈ ms) :
    (r.brought setup ms l).routes.count (routeTo m) = 1 := by
  have hmem : routeTo m ∈ appendNew l.routes (ms.map routeTo) :=
    mem_appendNew.mpr (.inr (List.mem_map_of_mem hm))
  exact (nodup_appendNew hl _).count.trans (if_pos hmem)

theorem snapshot_brought {c : Config} {name : String} {key : PrivateKey}
    (hr : create c name key = .ok r) (hs : r.setup ms = .ok setup) {l : LinkState}
    (hl : l.routes.Nodup) : Snapshot c r.identity ms (r.brought setup ms l) := by
  obtain ⟨-, address, -, rfl⟩ := create_eq_ok_iff.mp hr
  obtain ⟨ps, hps, rfl⟩ := setup_eq_ok_iff.mp hs
  exact {
    stage := stage_brought l
    device := ⟨_, rfl, rfl, rfl, rfl, peersOf_foldl_mergePeer hps⟩
    mtu := rfl
    address := count_addressed l _
    routes := fun _ hm => count_routes hl hm }

/-- Whatever happened to the table before, a call that succeeds leaves the interface as its
configuration and the members want it, and changes no other link. -/
theorem bringUp_snapshot {c : Config} {name : String} {key : PrivateKey}
    (hr : create c name key = .ok r) {t t' : LinkTable} (ht : t.Reachable)
    (h : (r.bringUp LinkTable.backend ms).run.run t = (.ok (), t')) :
    ∃ l, t'.links c.interface = some l ∧ Snapshot c r.identity ms l ∧
      (∀ old, t.links c.interface = some old → l.index = old.index) ∧
      ∀ other, other ≠ c.interface → t'.links other = t.links other := by
  obtain ⟨setup, hs, hg⟩ := outcome_of_bringUp h
  have hinterface : c.interface = r.interface := by
    obtain ⟨-, address, -, rfl⟩ := create_eq_ok_iff.mp hr
    rfl
  rw [hinterface]
  cases hl : t.links r.interface with
  | some old =>
    rw [outcome_of_some hl] at hg
    obtain ⟨hlinks, -⟩ := Prod.mk.inj hg
    refine ⟨r.brought setup ms old, by simp [hlinks], ?_, ?_, ?_⟩
    · exact snapshot_brought hr hs (ht.routes_nodup hl)
    · rintro _ ⟨⟩
      rfl
    · exact fun other ho => by simp [hlinks, ho]
  | none =>
    rw [outcome_of_none hl] at hg
    obtain ⟨hlinks, -⟩ := Prod.mk.inj hg
    refine ⟨r.brought setup ms (.new (t.lastIndex + 1)), by simp [hlinks], ?_, ?_, ?_⟩
    · exact snapshot_brought hr hs List.nodup_nil
    · rintro _ ⟨⟩
    · exact fun other ho => by simp [hlinks, ho]

/-- The sample node takes over a link that a node with another address had set up. -/
theorem bringUp_snapshot_taken_over :
    let c := sampleConfig "10.1.2.3"
    let r := sampleNode 0x0A010203 sampleKey
    let t := LinkTable.after [.call (.request (.createWireguard "eth0")),
      .call (.bringUp (sampleNode 0x0A010209 sampleKey) [sampleMember 0x0A010204])]
    let ms := [0x0A010205, 0x0A010206, 0x0A010205].map sampleMember
    ∃ t', (r.bringUp LinkTable.backend ms).run.run t = (.ok (), t') ∧
      ∃ l, t'.links c.interface = some l ∧ Snapshot c r.identity ms l ∧
        (∀ old, t.links c.interface = some old → l.index = old.index) ∧
        ∀ other, other ≠ c.interface → t'.links other = t.links other := by
  intro c r t ms
  have ht : LinkTable.after [.call (.request (.createWireguard "eth0")),
      .call (.bringUp (sampleNode 0x0A010209 sampleKey) [sampleMember 0x0A010204])] = t := rfl
  obtain ⟨setup, hs⟩ := setup_sampleMembers r [0x0A010205, 0x0A010206, 0x0A010205]
  have hp : firstPending (linkSteps ++ routeSteps ms) t = none :=
    firstPending_eq_none fun s _ => LinkTable.not_pending_of_history ht (by simp) s.operation
  obtain ⟨t', h, -⟩ := bringUp_eq_ok hs hp
  have hr : create c "a" sampleKey = .ok r := create_sampleNode sampleKey
  have hsnapshot := bringUp_snapshot hr ⟨_, ht⟩ h
  exact ⟨t', h, hsnapshot⟩

end Reconciler

end OverlayTunnel
