import OverlayTunnel.Device.Merge

/-!
What a list of peers makes of a device, in closed form. The keys come in the order of their first
occurrence, and where every peer replaces its networks the last one with a key decides.
-/
namespace OverlayTunnel

/-! ### Appending what is new -/

section AppendNew

variable {α : Type}

theorem nodup_append_singleton {present : List α} {a : α} (h : present.Nodup) (ha : a ∉ present) :
    (present ++ [a]).Nodup := by
  have hdisjoint : ∀ b ∈ present, b ≠ a := fun b hb he => ha (he ▸ hb)
  simpa [List.nodup_append, h] using hdisjoint

variable [DecidableEq α]

/-- Appends the values that are not there yet. -/
def appendNew (present added : List α) : List α :=
  added.foldl (fun present a => if a ∈ present then present else present ++ [a]) present

@[simp] theorem appendNew_nil (present : List α) : appendNew present [] = present :=
  rfl

theorem appendNew_cons (present added : List α) (a : α) :
    appendNew present (a :: added) =
      appendNew (if a ∈ present then present else present ++ [a]) added :=
  rfl

/-- Of equal values the first one counts. -/
theorem appendNew_eq (present added : List α) :
    appendNew present added = present ++ (added.removeAll present).eraseDups := by
  induction added generalizing present with
  | nil => simp [List.removeAll]
  | cons a added ih =>
    rw [appendNew_cons, ih]
    by_cases ha : a ∈ present
    · simp [List.removeAll, ha]
    · have hrest : added.removeAll (present ++ [a]) =
          (added.removeAll present).filter fun b => !b == a := by
        simp only [List.removeAll, List.filter_filter]
        apply List.filter_congr
        intro b _
        by_cases hb : b = a <;> simp [hb]
      have hfirst : (a :: added).removeAll present = a :: added.removeAll present := by
        simp [List.removeAll, ha]
      rw [if_neg ha, hrest, hfirst, List.eraseDups_cons, List.append_assoc]
      rfl

example : appendNew [1, 2] [3, 2, 3] = [1, 2, 3] := by decide

theorem mem_appendNew {present added : List α} {a : α} :
    a ∈ appendNew present added ↔ a ∈ present ∨ a ∈ added := by
  rw [appendNew_eq, List.mem_append, List.mem_eraseDups]
  by_cases ha : a ∈ present <;> simp [List.removeAll, ha]

theorem nodup_appendNew {present : List α} (h : present.Nodup) (added : List α) :
    (appendNew present added).Nodup := by
  induction added generalizing present with
  | nil => exact h
  | cons a added ih =>
    rw [appendNew_cons]
    split
    next => exact ih h
    next ha => exact ih (nodup_append_singleton h ha)

theorem appendNew_of_subset {present added : List α} (h : ∀ a ∈ added, a ∈ present) :
    appendNew present added = present := by
  induction added with
  | nil => rfl
  | cons a added ih =>
    rw [appendNew_cons, if_pos (h a (by simp))]
    exact ih fun b hb => h b (by simp [hb])

theorem appendNew_append_of_subset {present first : List α} (h : ∀ a ∈ first, a ∈ present)
    (later : List α) : appendNew present (first ++ later) = appendNew present later := by
  have hfirst := appendNew_of_subset h
  unfold appendNew at hfirst ⊢
  rw [List.foldl_append, hfirst]

/-- A new value may be appended in advance if all that come before it are there. Out of turn it would
change the order. -/
theorem appendNew_in_turn {present first : List α} {a : α} (h : ∀ b ∈ first, b ∈ present)
    (ha : a ∉ present) (later : List α) :
    appendNew (present ++ [a]) (first ++ a :: later) = appendNew present (first ++ a :: later) := by
  have h' : ∀ b ∈ first, b ∈ present ++ [a] := fun b hb => List.mem_append_left _ (h b hb)
  rw [appendNew_append_of_subset h, appendNew_append_of_subset h', appendNew_cons, appendNew_cons,
    if_neg ha, if_pos (by simp)]

theorem appendNew_of_nodup {present added : List α} (h : (present ++ added).Nodup) :
    appendNew present added = present ++ added := by
  induction added generalizing present with
  | nil => simp
  | cons a added ih =>
    have ha : a ∉ present := by
      intro hm
      exact (List.nodup_append.mp h).2.2 a hm a (by simp) rfl
    rw [appendNew_cons, if_neg ha, ih (by simpa using h)]
    simp

theorem appendNew_nil_left (added : List α) : appendNew [] added = added.eraseDups := by
  have hall : added.removeAll [] = added := List.filter_eq_self.mpr fun _ _ => rfl
  rw [appendNew_eq, hall, List.nil_append]

theorem appendNew_append (present first later : List α) :
    appendNew present (first ++ later) = appendNew (appendNew present first) later :=
  List.foldl_append

theorem eraseDups_eq_self_iff {l : List α} : l.eraseDups = l ↔ l.Nodup := by
  rw [← appendNew_nil_left]
  constructor
  · intro h
    rw [← h]
    exact nodup_appendNew List.nodup_nil l
  · intro h
    have hl : ([] ++ l).Nodup := h
    exact appendNew_of_nodup hl

/-- What is appended does not depend on how often values were there, so two lists of the same values stay
as different as they were. -/
theorem appendNew_eraseDups_eq_iff (present added : List α) :
    appendNew present.eraseDups added = appendNew present added ↔ present.Nodup := by
  have hadded : added.removeAll present.eraseDups = added.removeAll present := by
    apply List.filter_congr
    intro a _
    simp [List.mem_eraseDups]
  rw [appendNew_eq, appendNew_eq, hadded, List.append_cancel_right_eq, eraseDups_eq_self_iff]

end AppendNew

namespace DevicePeer

theorem addAllowed_eq_appendNew (present networks : List Network) :
    addAllowed present networks = appendNew present networks :=
  rfl

/-- A peer that replaces its networks is the same whatever was there before. -/
theorem update_eq_ofTunnelPeer {old : DevicePeer} {p : TunnelPeer}
    (hk : old.publicKey = p.publicKey) (hr : p.replacesAllowed = true) (hn : p.allowed.Nodup) :
    old.update p = ofTunnelPeer p := by
  have ha : addAllowed [] p.allowed = p.allowed := by
    rw [addAllowed_eq_appendNew, appendNew_of_nodup (by simpa using hn)]
    rfl
  simp [update, ofTunnelPeer, hk, hr, ha]

end DevicePeer

/-! ### The keys of a device -/

/-- The keys that were there stay in their places, and the new ones follow in the order of their first
occurrence. -/
theorem publicKeys_foldl_mergePeer (peers : List DevicePeer) (ps : List TunnelPeer) :
    (ps.foldl mergePeer peers).map DevicePeer.publicKey =
      appendNew (peers.map DevicePeer.publicKey) (ps.map TunnelPeer.publicKey) := by
  induction ps generalizing peers with
  | nil => rfl
  | cons p ps ih => rw [List.foldl_cons, ih, publicKeys_mergePeer, List.map_cons, appendNew_cons]

/-- Only the peer with the key of a configuration may change. -/
theorem find?_mergePeer (peers : List DevicePeer) (p : TunnelPeer) (key : PublicKey) :
    (mergePeer peers p).find? (fun d => d.publicKey = key) =
      if p.publicKey = key then
        some ((peers.find? fun d => d.publicKey = key).elim (.ofTunnelPeer p) (·.update p))
      else peers.find? fun d => d.publicKey = key := by
  induction peers with
  | nil => by_cases hk : p.publicKey = key <;> simp [mergePeer, DevicePeer.ofTunnelPeer, hk]
  | cons old peers ih =>
    by_cases ho : old.publicKey = p.publicKey
    · by_cases hk : p.publicKey = key <;> simp [mergePeer, DevicePeer.update, ho, hk]
    · by_cases hk : old.publicKey = key
      · have hp : p.publicKey ≠ key := fun h => ho (hk.trans h.symm)
        simp only [mergePeer, if_neg ho]
        simp [hk, hp]
      · simp only [mergePeer, if_neg ho]
        simp [hk, ih]

/-- Where every peer replaces its networks, the last one with a key decides. -/
theorem find?_foldl_mergePeer {ps : List TunnelPeer}
    (hps : ∀ p ∈ ps, p.replacesAllowed = true ∧ p.allowed.Nodup) (peers : List DevicePeer)
    (key : PublicKey) :
    (ps.foldl mergePeer peers).find? (fun d => d.publicKey = key) =
      ((ps.reverse.find? fun p => p.publicKey = key).map DevicePeer.ofTunnelPeer).or
        (peers.find? fun d => d.publicKey = key) := by
  induction ps generalizing peers with
  | nil => simp
  | cons p ps ih =>
    have hp := hps p (by simp)
    rw [List.foldl_cons, ih (fun q hq => hps q (by simp [hq])), find?_mergePeer,
      List.reverse_cons, List.find?_append]
    cases hlater : ps.reverse.find? fun q => q.publicKey = key with
    | some q => simp
    | none =>
      by_cases hk : p.publicKey = key
      · cases hold : peers.find? fun d => d.publicKey = key with
        | none => simp [hk]
        | some old =>
          have hkey : old.publicKey = p.publicKey := by
            have h := List.find?_some hold
            simpa [hk] using h
          simp [hk, DevicePeer.update_eq_ofTunnelPeer hkey hp.1 hp.2]
      · simp [hk]

theorem find?_of_nodup {peers : List DevicePeer} (h : (peers.map DevicePeer.publicKey).Nodup)
    {d : DevicePeer} (hd : d ∈ peers) :
    peers.find? (fun e => e.publicKey = d.publicKey) = some d := by
  induction peers with
  | nil => simp at hd
  | cons e peers ih =>
    obtain ⟨he, h⟩ := List.nodup_cons.mp h
    rcases List.mem_cons.mp hd with rfl | hd
    · simp
    · have hne : e.publicKey ≠ d.publicKey := by
        intro heq
        exact he (heq ▸ List.mem_map_of_mem hd)
      simp [hne, ih h hd]

/-- A peer of a device that has been set up anew is the last one configured with its key. -/
theorem mem_foldl_mergePeer {ps : List TunnelPeer}
    (hps : ∀ p ∈ ps, p.replacesAllowed = true ∧ p.allowed.Nodup) {d : DevicePeer}
    (hd : d ∈ ps.foldl mergePeer []) :
    ∃ before p later, ps = before ++ p :: later ∧ d = .ofTunnelPeer p ∧
      ∀ q ∈ later, q.publicKey ≠ p.publicKey := by
  have hkeys : ((ps.foldl mergePeer []).map DevicePeer.publicKey).Nodup := by
    rw [publicKeys_foldl_mergePeer]
    exact nodup_appendNew List.nodup_nil _
  have hfind := find?_of_nodup hkeys hd
  rw [find?_foldl_mergePeer hps, List.find?_nil, Option.or_none, Option.map_eq_some_iff] at hfind
  obtain ⟨p, hp, rfl⟩ := hfind
  obtain ⟨-, later, before, hsplit, hlater⟩ := List.find?_eq_some_iff_append.mp hp
  refine ⟨before.reverse, p, later.reverse, ?_, rfl, ?_⟩
  · simpa using congrArg List.reverse hsplit
  · intro q hq hk
    have h := hlater q (List.mem_reverse.mp hq)
    simp [DevicePeer.ofTunnelPeer, hk] at h

/-- The peers that a configuration starts from. -/
def DeviceSetup.base (setup : DeviceSetup) (old : Option Device) : List DevicePeer :=
  if setup.replacesPeers then [] else old.elim [] Device.peers

theorem Device.peers_configured (name : String) (old : Option Device) (setup : DeviceSetup) :
    (configured name old setup).peers = setup.peers.foldl mergePeer (setup.base old) :=
  rfl

/-- What was configured before does not matter where peers that are not listed are dropped. -/
theorem configured_of_replaces {d : DeviceSetup} (h : d.replacesPeers = true) (name : String)
    (old : Option Device) : Device.configured name old d = Device.configured name none d := by
  simp [Device.configured, h]

end OverlayTunnel
