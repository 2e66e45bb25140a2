import Mathlib.Order.Lattice
import OverlayTunnel.Proofs.Table.Incarnation

/-!
The stages of a link are in order, and no request takes a link back. The stage is read off three fields
that different requests set in any order, and each of the three stays once it is set.
-/
namespace OverlayTunnel

namespace Stage

def rank : Stage → Nat
  | .absent => 0
  | .created => 1
  | .configured => 2
  | .addressed => 3
  | .up => 4

theorem rank_injective : Function.Injective rank := by
  intro a b h
  cases a <;> cases b <;> first | rfl | cases h

instance : LinearOrder Stage :=
  LinearOrder.lift' rank rank_injective

theorem absent_le (s : Stage) : .absent ≤ s :=
  Nat.zero_le s.rank

theorem le_up (s : Stage) : s ≤ .up := by
  cases s <;> decide

end Stage

namespace LinkState

variable {l l' : LinkState} {name : String}

theorem stage_ne_absent (l : LinkState) : l.stage ≠ .absent := by
  unfold stage
  split_ifs <;> decide

theorem created_le_stage (l : LinkState) : .created ≤ l.stage := by
  unfold stage
  split_ifs <;> decide

theorem configured_le_stage_iff : .configured ≤ l.stage ↔ l.device.isSome = true := by
  constructor
  · intro h
    cases hd : l.device with
    | some d => rfl
    | none =>
      have hs : l.stage = .created := by simp [stage, hd]
      rw [hs] at h
      exact absurd h (by decide)
  · intro hd
    have hnone : l.device.isNone = false := Option.isNone_eq_false_iff.mpr hd
    simp only [stage, hnone, Bool.false_eq_true, if_false]
    split_ifs <;> decide

theorem addressed_le_stage_iff :
    .addressed ≤ l.stage ↔ l.device.isSome = true ∧ l.addresses ≠ [] := by
  constructor
  · intro h
    have hconfigured : .configured ≤ l.stage := le_trans (by decide) h
    refine ⟨configured_le_stage_iff.mp hconfigured, fun ha => ?_⟩
    have hs : l.stage ≤ .configured := by
      simp only [stage, ha, if_true]
      split_ifs <;> decide
    exact absurd (le_trans h hs) (by decide)
  · rintro ⟨hd, ha⟩
    have hnone : l.device.isNone = false := Option.isNone_eq_false_iff.mpr hd
    simp only [stage, hnone, ha, Bool.false_eq_true, if_false]
    split_ifs <;> decide

theorem stage_eq_up_iff :
    l.stage = .up ↔ l.device.isSome = true ∧ l.addresses ≠ [] ∧ l.up = true := by
  unfold stage
  cases l.device with
  | none => simp
  | some d => by_cases ha : l.addresses = [] <;> simp [ha]

/-- A link that has all that another one has is at least as far. -/
theorem stage_le_stage (hdevice : l.device.isSome = true → l'.device.isSome = true)
    (haddresses : l.addresses ≠ [] → l'.addresses ≠ []) (hup : l.up = true → l'.up = true) :
    l.stage ≤ l'.stage := by
  cases hs : l.stage with
  | absent => exact Stage.absent_le _
  | created => exact created_le_stage l'
  | configured => exact configured_le_stage_iff.mpr (hdevice (configured_le_stage_iff.mp hs.ge))
  | addressed =>
    obtain ⟨hd, ha⟩ := addressed_le_stage_iff.mp hs.ge
    exact addressed_le_stage_iff.mpr ⟨hdevice hd, haddresses ha⟩
  | up =>
    obtain ⟨hd, ha, hu⟩ := stage_eq_up_iff.mp hs
    exact (stage_eq_up_iff.mpr ⟨hdevice hd, haddresses ha, hup hu⟩).ge

theorem addresses_addressed_ne_nil (l : LinkState) (address : Network) :
    (l.addressed address).addresses ≠ [] := by
  simp [addressed]

theorem Change.stage_le (h : Change name l l') : l.stage ≤ l'.stage := by
  cases h with
  | same => exact le_rfl
  | configured setup => exact stage_le_stage (fun _ => rfl) id id
  | addressed address => exact stage_le_stage id (fun _ => l.addresses_addressed_ne_nil address) id
  | mtu mtu => exact stage_le_stage id id id
  | up => exact stage_le_stage id id (fun _ => rfl)
  | routed destination _ _ => exact stage_le_stage id id id

end LinkState

namespace LinkTable

variable {t u : LinkTable} {log : List Exchange} {q : LinkRequest} {name : String} {l : LinkState}

theorem stage_of_links_eq (h : u.links name = t.links name) : u.stage name = t.stage name := by
  simp [stage, h]

theorem stage_of_some (h : t.links name = some l) : t.stage name = l.stage := by
  simp [stage, h]

theorem stage_of_none (h : t.links name = none) : t.stage name = .absent := by
  simp [stage, h]

/-! ### One request -/

/-- What a request may do to the stage of a name. -/
structure Advances (q : LinkRequest) (name : String) (before after : Stage) : Prop where
  forward : after ≠ .absent → before ≤ after
  created : before = .absent → after ≠ .absent → q = .createWireguard name ∧ after = .created
  deleted : before ≠ .absent → after = .absent → ∃ handle, q = .deleteLink handle ∧ handle.name = name

theorem Advances.of_le {before after : Stage} (hle : before ≤ after) (hsome : before ≠ .absent) :
    Advances q name before after where
  forward _ := hle
  created hbefore _ := absurd hbefore hsome
  deleted _ hafter := absurd (le_antisymm (hafter ▸ hle) (Stage.absent_le before)) hsome

theorem Advances.of_eq (s : Stage) : Advances q name s s where
  forward _ := le_rfl
  created hbefore hafter := absurd hbefore hafter
  deleted hbefore hafter := absurd hafter hbefore

theorem eq_createWireguard (hq : q.operation = .createWireguard) :
    q = .createWireguard q.target := by
  cases q with
  | createWireguard name => rfl
  | _ => cases hq

theorem eq_deleteLink (hq : q.operation = .deleteLink) :
    ∃ handle, q = .deleteLink handle ∧ handle.name = q.target := by
  cases q with
  | deleteLink handle => exact ⟨handle, rfl, rfl⟩
  | _ => cases hq

/-- No request takes a link back that stays. Only a creation leads away from where there is no link, and
only a deletion leads there. -/
theorem advances_of_perform (q : LinkRequest) (t : LinkTable) (name : String) :
    Advances q name (t.stage name) (((backend.perform q).run.run t).2.stage name) := by
  by_cases hname : name = q.target
  · subst hname
    cases hrun : (backend.perform q).run.run t with
    | mk reply u =>
      cases transition_of_perform hrun with
      | refused links _ => simpa [stage, links] using Advances.of_eq (t.stage q.target)
      | read _ links _ => simpa [stage, links] using Advances.of_eq (t.stage q.target)
      | created operation absent links _ =>
        have hu : u.stage q.target = .created := by simp [stage, links]; rfl
        have ht : t.stage q.target = .absent := stage_of_none absent
        rw [hu, ht]
        exact ⟨fun _ => Stage.absent_le _, fun _ _ => ⟨eq_createWireguard operation, rfl⟩,
          fun h => absurd rfl h⟩
      | @changed _ _ l l' _ _ present change links _ =>
        have ht : t.stage q.target = l.stage := stage_of_some present
        have hu : u.stage q.target = l'.stage := by simp [stage, links]
        rw [ht, hu]
        exact .of_le change.stage_le l.stage_ne_absent
      | deleted operation present links _ =>
        have hu : u.stage q.target = .absent := by simp [stage, links]
        rw [hu]
        exact ⟨fun h => absurd rfl h, fun _ h => absurd rfl h, fun _ _ => eq_deleteLink operation⟩
  · rw [stage_of_links_eq (links_perform_of_ne q t hname)]
    exact .of_eq _

/-- Only a deletion takes the stage of a name down. -/
theorem stage_le_of_ne_delete (hq : q.operation ≠ .deleteLink) (t : LinkTable) (name : String) :
    t.stage name ≤ ((backend.perform q).run.run t).2.stage name := by
  have hadvances := advances_of_perform q t name
  by_cases hbefore : t.stage name = .absent
  · rw [hbefore]
    exact Stage.absent_le _
  · by_cases hafter : ((backend.perform q).run.run t).2.stage name = .absent
    · obtain ⟨handle, rfl, -⟩ := hadvances.deleted hbefore hafter
      exact absurd rfl hq
    · exact hadvances.forward hafter

theorem stage_le_perform {reply : Except LinkFailure q.Reply}
    (hrun : (backend.perform q).run.run t = (reply, u))
    (hkept : (Exchange.mk q reply).deletes name = false) : t.stage name ≤ u.stage name := by
  cases hl : t.links name with
  | none => simpa [stage_of_none hl] using Stage.absent_le (u.stage name)
  | some l =>
    have hstays := kept_unless_deleted hrun hl
    rw [hkept, if_neg (by simp)] at hstays
    obtain ⟨l', hl', -⟩ := hstays
    have hforward := (advances_of_perform q t name).forward
    rw [hrun, stage_of_some hl'] at hforward
    simpa [stage_of_some hl'] using hforward l'.stage_ne_absent

/-! ### Runs -/

/-- As long as the link of a name is not deleted, its stage only goes up. -/
theorem Run.stage_le (h : Run t log u) (hkept : ∀ e ∈ log, e.deletes name = false) :
    t.stage name ≤ u.stage name := by
  induction h with
  | start => exact le_rfl
  | @request log u _ q ih =>
    obtain ⟨hbefore, hlast⟩ := List.forall_mem_append.mp hkept
    exact le_trans (ih hbefore) (stage_le_perform rfl (hlast _ (List.mem_singleton_self _)))
  | failNext _ _ ih => exact ih hkept
  | clearCalls _ ih => exact ih hkept

theorem Run.stage_eq_absent (h : Run t log u) (hbefore : t.stage name = .absent)
    (hcreated : ∀ e ∈ log, e.request ≠ .createWireguard name) : u.stage name = .absent := by
  induction h with
  | start => exact hbefore
  | @request log u _ q ih =>
    obtain ⟨hearlier, hlast⟩ := List.forall_mem_append.mp hcreated
    apply Classical.byContradiction
    intro hafter
    obtain ⟨hcreates, -⟩ := (advances_of_perform q u name).created (ih hearlier) hafter
    exact hlast _ (List.mem_singleton_self _) hcreates
  | failNext _ _ ih => exact ih hcreated
  | clearCalls _ ih => exact ih hcreated

end LinkTable

end OverlayTunnel
