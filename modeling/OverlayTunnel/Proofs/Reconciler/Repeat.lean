import OverlayTunnel.Proofs.Reconciler.BringUp
import OverlayTunnel.Proofs.Table.Reachable

/-!
Calls that are repeated at once. A link that has been brought up is as wanted already, so the next call
with the same members finds nothing to change.
-/
namespace OverlayTunnel.Reconciler

open LinkTable

variable {r : Reconciler} {setup : DeviceSetup} {ms : List Member} {t t' : LinkTable}

theorem brought_brought (l : LinkState) :
    r.brought setup ms (r.brought setup ms l) = r.brought setup ms l := by
  have haddresses : ((r.brought setup ms l).addressed r.ownNetwork).addresses =
      (r.brought setup ms l).addresses := by
    have hl := congrArg LinkState.addresses (l.addressed_addressed r.ownNetwork)
    exact hl
  have hroutes : appendNew (r.brought setup ms l).routes (ms.map routeTo) =
      (r.brought setup ms l).routes := by
    apply appendNew_of_subset
    intro n hn
    exact mem_appendNew.mpr (.inr hn)
  rw [brought, haddresses, hroutes]
  rfl

/-- A table that is an outcome has itself as its outcome. -/
theorem outcome_of_eq_outcome (h : (t'.links, t'.lastIndex) = r.outcome setup ms t) :
    r.outcome setup ms t' = (t'.links, t'.lastIndex) := by
  obtain ⟨l, hl⟩ : ∃ l, t'.links r.interface = some (r.brought setup ms l) := by
    cases ht : t.links r.interface with
    | some old =>
      rw [outcome_of_some ht] at h
      exact ⟨old, by simp [(Prod.mk.inj h).1]⟩
    | none =>
      rw [outcome_of_none ht] at h
      exact ⟨.new (t.lastIndex + 1), by simp [(Prod.mk.inj h).1]⟩
  exact outcome_eq_self hl (brought_brought l)

/-- A call succeeds only if none of its steps is to fail, and uses up no failure of another. -/
theorem firstPending_of_bringUp (h : (r.bringUp backend ms).run.run t = (.ok (), t')) :
    firstPending (linkSteps ++ routeSteps ms) t = none ∧ t'.pending = t.pending := by
  obtain ⟨setup, hs⟩ := setup_of_bringUp h
  rcases performs_bringUp hs t rfl with ⟨s, t₁, -, hrun, -⟩ | ⟨_, t₁, hfirst, hrun, hpending, -⟩
  · rw [hrun] at h
    cases h
  · rw [hrun] at h
    cases h
    exact ⟨hfirst, hpending⟩

/-- Whatever the table was and whichever failures are pending, after a call that succeeds the next one
succeeds too and leaves every link and the last index as they are. -/
theorem bringUp_idempotent (h : (r.bringUp backend ms).run.run t = (.ok (), t')) :
    ∃ t'', (r.bringUp backend ms).run.run t' = (.ok (), t'') ∧ t''.links = t'.links ∧
      t''.lastIndex = t'.lastIndex ∧ t''.pending = t.pending := by
  obtain ⟨setup, hs, hg⟩ := outcome_of_bringUp h
  obtain ⟨hfirst, hpending⟩ := firstPending_of_bringUp h
  have hfirst' : firstPending (linkSteps ++ routeSteps ms) t' = none := by
    rw [firstPending_congr hpending, hfirst]
  obtain ⟨t'', hrun, hpending', hg'⟩ := bringUp_eq_ok hs hfirst'
  rw [outcome_of_eq_outcome hg] at hg'
  obtain ⟨hlinks, hindex⟩ := Prod.mk.inj hg'
  exact ⟨t'', hrun, hlinks, hindex, hpending'.trans hpending⟩

/-- A link with another address and an old route is taken over for two members at one address, while a
failure is pending that the call does not meet. -/
theorem bringUp_idempotent_taken_over :
    let r := sampleNode 0x0A010203 sampleKey
    let ms := [0x0A010205, 0x0A010206, 0x0A010205].map sampleMember
    let t := LinkTable.after [
      .call (.bringUp (sampleNode 0x0A010209 sampleKey) [sampleMember 0x0A010204]),
      .failNext .deleteLink]
    ∃ t', (r.bringUp backend ms).run.run t = (.ok (), t') ∧
      ∃ t'', (r.bringUp backend ms).run.run t' = (.ok (), t'') ∧ t''.links = t'.links ∧
        t''.lastIndex = t'.lastIndex ∧ t''.pending = t.pending := by
  intro r ms t
  have ht : LinkTable.after [
      .call (.bringUp (sampleNode 0x0A010209 sampleKey) [sampleMember 0x0A010204]),
      .failNext .deleteLink] = t := rfl
  have hfirst : firstPending (linkSteps ++ routeSteps ms) t = none := by
    apply firstPending_eq_none
    intro s hs
    have hdelete : s.operation ≠ .deleteLink := by
      revert s
      decide
    apply Bool.eq_false_iff.mpr
    intro hp
    have hmem := failNext_mem_of_pending ht hp
    simp [hdelete] at hmem
  obtain ⟨setup, hs⟩ := setup_sampleMembers r [0x0A010205, 0x0A010206, 0x0A010205]
  obtain ⟨t', h, -⟩ := bringUp_eq_ok hs hfirst
  have hagain := bringUp_idempotent h
  exact ⟨t', h, hagain⟩

end OverlayTunnel.Reconciler
