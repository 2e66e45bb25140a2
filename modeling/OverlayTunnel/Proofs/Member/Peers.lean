import OverlayTunnel.Member.Basic
import OverlayTunnel.Proofs.Traversal

/-!
The tunnel peers of a list of members: there is one for each member if all keys can be read, and none at
all otherwise.
-/
namespace OverlayTunnel

namespace Member

/-- The key of a member, if its text is one. -/
def key? (m : Member) : Option PublicKey :=
  (PublicKey.ofText m.publicKey).toOption

def peer (listenPort : UInt16) (m : Member) (key : PublicKey) : TunnelPeer :=
  ⟨key, .ofAddress m.realAddress listenPort, true, routes m.overlayAddress⟩

theorem key?_eq_some_iff {m : Member} {key : PublicKey} :
    m.key? = some key ↔ PublicKey.ofText m.publicKey = .ok key := by
  unfold key?
  cases PublicKey.ofText m.publicKey <;> simp [Except.toOption]

theorem toPeer_eq_ok_iff {listenPort : UInt16} {m : Member} {p : TunnelPeer} :
    toPeer listenPort m = .ok p ↔ ∃ key, m.key? = some key ∧ p = m.peer listenPort key := by
  simp only [key?_eq_some_iff]
  unfold toPeer peer
  cases PublicKey.ofText m.publicKey with
  | error e => simp [Except.map]
  | ok key =>
    simp only [Except.map, Except.ok.injEq, exists_eq_left']
    exact eq_comm

/-- The first key that cannot be read is the error. -/
theorem toPeers_eq_error {listenPort : UInt16} {before later : List Member} {m : Member}
    {cause : KeyError}
    (hbefore : ∀ m' ∈ before, ∃ key, PublicKey.ofText m'.publicKey = .ok key)
    (hm : PublicKey.ofText m.publicKey = .error cause) :
    toPeers listenPort (before ++ m :: later) = .error cause := by
  apply mapM_eq_error
  · intro m' hm'
    obtain ⟨key, hk⟩ := hbefore m' hm'
    exact ⟨m'.peer listenPort key, toPeer_eq_ok_iff.mpr ⟨key, key?_eq_some_iff.mpr hk, rfl⟩⟩
  · rw [toPeer, hm]
    rfl

theorem toPeer_isOk_iff {listenPort : UInt16} {m : Member} :
    (∃ p, toPeer listenPort m = .ok p) ↔ ∃ key, m.key? = some key := by
  simp only [toPeer_eq_ok_iff]
  constructor
  · rintro ⟨_, key, hkey, -⟩
    exact ⟨key, hkey⟩
  · rintro ⟨key, hkey⟩
    exact ⟨m.peer listenPort key, key, hkey, rfl⟩

/-- There are peers for all members exactly if all keys can be read. -/
theorem toPeers_isOk_iff {listenPort : UInt16} {ms : List Member} :
    (∃ ps, toPeers listenPort ms = .ok ps) ↔ ∀ m ∈ ms, ∃ key, m.key? = some key := by
  unfold toPeers
  simp only [mapM_isOk_iff, toPeer_isOk_iff]

/-- The peers have the keys of the members, in the same order. -/
theorem publicKeys_toPeers {listenPort : UInt16} {ms : List Member} {ps : List TunnelPeer}
    (h : toPeers listenPort ms = .ok ps) :
    ps.map TunnelPeer.publicKey = ms.filterMap key? := by
  replace h := mapM_eq_ok_iff.mp h
  induction ms generalizing ps with
  | nil => simpa using h
  | cons m ms ih =>
    cases ps with
    | nil => simp at h
    | cons p ps =>
      obtain ⟨hp, hps⟩ := List.cons.inj h
      obtain ⟨key, hk, rfl⟩ := toPeer_eq_ok_iff.mp hp
      simp [hk, ih hps, peer]

/-- A peer comes from the member at its place. -/
theorem toPeers_append {listenPort : UInt16} {ms : List Member} {before later : List TunnelPeer}
    {p : TunnelPeer} (h : toPeers listenPort ms = .ok (before ++ p :: later)) :
    ∃ msBefore m msLater, ms = msBefore ++ m :: msLater ∧
      toPeer listenPort m = .ok p ∧ toPeers listenPort msLater = .ok later := by
  have h := mapM_eq_ok_iff.mp h
  rw [List.map_append, List.map_cons] at h
  obtain ⟨msBefore, rest, rfl, -, hrest⟩ := List.map_eq_append_iff.mp h
  obtain ⟨m, msLater, rfl, hm, hlater⟩ := List.map_eq_cons_iff.mp hrest
  exact ⟨msBefore, m, msLater, rfl, hm, mapM_eq_ok_iff.mpr hlater⟩

/-- A peer stands at the place of its member. -/
theorem toPeers_append_cons {listenPort : UInt16} {before later : List Member} {m : Member}
    {psBefore psLater : List TunnelPeer} {p : TunnelPeer}
    (hbefore : toPeers listenPort before = .ok psBefore) (hm : toPeer listenPort m = .ok p)
    (hlater : toPeers listenPort later = .ok psLater) :
    toPeers listenPort (before ++ m :: later) = .ok (psBefore ++ p :: psLater) := by
  apply mapM_eq_ok_iff.mpr
  rw [List.map_append, List.map_cons, mapM_eq_ok_iff.mp hbefore, hm, mapM_eq_ok_iff.mp hlater,
    List.map_append, List.map_cons]

theorem routes_nodup (overlayAddress : Address) : (routes overlayAddress).Nodup := by
  have hranges : privateRanges.Nodup := by decide
  have hhost : Network.host overlayAddress ∉ privateRanges := by
    cases overlayAddress <;>
      simp [privateRanges, Network.host, Address.family, Family.width]
  exact List.nodup_cons.mpr ⟨hhost, hranges⟩

/-- Every peer of a member replaces its networks, and lists none twice. -/
theorem replaces_of_mem_toPeers {listenPort : UInt16} {ms : List Member} {ps : List TunnelPeer}
    (h : toPeers listenPort ms = .ok ps) :
    ∀ p ∈ ps, p.replacesAllowed = true ∧ p.allowed.Nodup := by
  intro p hp
  obtain ⟨before, later, rfl⟩ := List.append_of_mem hp
  obtain ⟨_, m, _, -, hm, -⟩ := toPeers_append h
  obtain ⟨key, -, rfl⟩ := toPeer_eq_ok_iff.mp hm
  exact ⟨rfl, routes_nodup m.overlayAddress⟩

end Member

end OverlayTunnel
