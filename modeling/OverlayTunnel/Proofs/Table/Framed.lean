import OverlayTunnel.Proofs.Table.Incarnation

/-!
What a request leaves alone. A request that fails changes no link, and one that succeeds changes none but
the link that it is about. Whatever comes of it, a request is recorded once, and it uses up no pending
failure but its own.
-/
namespace OverlayTunnel

/-- Whether an exchange may have changed the link of a name. -/
def Exchange.writes (name : String) (e : Exchange) : Bool :=
  e.request.target = name && !e.request.reads && e.reply.isOk

namespace LinkTable

variable {q : LinkRequest} {t u : LinkTable} {reply : Except LinkFailure q.Reply}
  {log : List Exchange} {name : String}

/-! ### One request -/

theorem calls_of_perform (h : (backend.perform q).run.run t = (reply, u)) :
    u.calls = t.calls ++ [q.operation] := by
  cases outcome_of_perform h <;> rfl

theorem injected_of_pending (hp : t.pending q.operation = true)
    (h : (backend.perform q).run.run t = (reply, u)) :
    reply = .error (.injected q.operation.name) ∧
      ∀ o, u.pending o = true ↔ t.pending o = true ∧ o ≠ q.operation := by
  cases outcome_of_perform h with
  | injected _ =>
    refine ⟨rfl, fun o => ?_⟩
    simp only [relieved, recorded, Bool.and_eq_true, decide_eq_true_eq]
    exact and_comm
  | refused hidle _ => simp [hidle] at hp
  | granted hidle _ => simp [hidle] at hp

theorem pending_of_idle (hp : t.pending q.operation = false)
    (h : (backend.perform q).run.run t = (reply, u)) : u.pending = t.pending := by
  cases outcome_of_perform h with
  | injected hpending => simp [hp] at hpending
  | refused _ _ => rfl
  | granted _ _ => rfl

theorem links_of_error {e : LinkFailure} (h : (backend.perform q).run.run t = (.error e, u)) :
    u.links = t.links ∧ u.lastIndex = t.lastIndex := by
  cases outcome_of_perform h <;> exact ⟨rfl, rfl⟩

theorem lastIndex_of_ok {a : q.Reply} (h : (backend.perform q).run.run t = (.ok a, u)) :
    u.lastIndex = if q.operation = .createWireguard then t.lastIndex + 1 else t.lastIndex := by
  cases outcome_of_perform h
  rfl

/-- What becomes of the link that a request is about when it succeeds. Only a creation adds it and only a
deletion removes it, and nothing else gives it another index. -/
def Affects (q : LinkRequest) (t u : LinkTable) : Prop :=
  match q.operation with
  | .createWireguard => t.links q.target = none ∧ u.links q.target = some (.new u.lastIndex)
  | .deleteLink => (∃ l, t.links q.target = some l) ∧ u.links q.target = none
  | _ => ∃ l l', t.links q.target = some l ∧ u.links q.target = some l' ∧ l'.index = l.index

theorem affects_of_ok {a : q.Reply} (h : (backend.perform q).run.run t = (.ok a, u)) :
    Affects q t u := by
  obtain ⟨link, heffect, hlinks⟩ := effect_of_perform h
  have hafter : u.links q.target = link := by rw [hlinks, Links.set_self]
  cases link with
  | none =>
    obtain ⟨hdelete, l, hl⟩ := LinkRequest.effect_eq_none heffect
    rw [Affects, hdelete]
    exact ⟨⟨l, hl⟩, hafter⟩
  | some l' =>
    rcases LinkRequest.effect_eq_ok heffect with ⟨habsent, hcreate, rfl⟩ | ⟨l, hl, hchange⟩
    · have hlast := lastIndex_of_ok h
      rw [if_pos hcreate] at hlast
      rw [Affects, hcreate]
      exact ⟨habsent, by rw [hafter, hlast]⟩
    · have hdelete := operation_ne_of_changed h hafter
      rw [hl] at heffect
      have hcreate := LinkRequest.operation_ne_of_effect heffect
      unfold Affects
      split
      next => contradiction
      next => contradiction
      next => exact ⟨l, l', hl, hafter, hchange.index_eq⟩

/-- All that may differ between a table and the table after a request. -/
structure Framed (q : LinkRequest) (t : LinkTable) (reply : Except LinkFailure q.Reply)
    (u : LinkTable) : Prop where
  calls : u.calls = t.calls ++ [q.operation]
  injected : t.pending q.operation = true → reply = .error (.injected q.operation.name) ∧
    ∀ o, u.pending o = true ↔ t.pending o = true ∧ o ≠ q.operation
  idle : t.pending q.operation = false → u.pending = t.pending
  failed : ∀ e, reply = .error e → u.links = t.links ∧ u.lastIndex = t.lastIndex
  others : ∀ other, other ≠ q.target → u.links other = t.links other
  reads : q.reads = true → u.links = t.links
  succeeded : ∀ a, reply = .ok a → Affects q t u ∧
    u.lastIndex = if q.operation = .createWireguard then t.lastIndex + 1 else t.lastIndex

/-- Every request is framed, on every table. It is recorded; a pending failure is its reply and is used
up, and no other pending failure is; if it fails, then no link and no index has changed; and if it
succeeds, then only the link that it is about, and only a creation takes an index. -/
theorem request_framed (q : LinkRequest) (t : LinkTable) :
    Framed q t ((backend.perform q).run.run t).1 ((backend.perform q).run.run t).2 where
  calls := calls_of_perform rfl
  injected hp := injected_of_pending hp rfl
  idle hp := pending_of_idle hp rfl
  failed _ he := links_of_error (Prod.ext he rfl)
  others _ hother := links_perform_of_ne q t hother
  reads hreads := links_perform_of_reads hreads t
  succeeded _ ha := ⟨affects_of_ok (Prod.ext ha rfl), lastIndex_of_ok (Prod.ext ha rfl)⟩

/-! ### Runs -/

theorem links_perform_of_not_writes (h : (backend.perform q).run.run t = (reply, u))
    (hwrites : (Exchange.mk q reply).writes name = false) : u.links name = t.links name := by
  cases reply with
  | error e => rw [(links_of_error h).1]
  | ok a =>
    have hu : u = ((backend.perform q).run.run t).2 := by rw [h]
    by_cases hname : name = q.target
    · have hreads : q.reads = true := by
        simpa [Exchange.writes, hname, Except.isOk, Except.toBool] using hwrites
      rw [hu, links_perform_of_reads hreads]
    · rw [hu, links_perform_of_ne q t hname]

/-- A run leaves the link of a name as it was unless a request of the run has changed it. -/
theorem Run.links_of_not_writes (h : Run t log u) (hlog : ∀ e ∈ log, e.writes name = false) :
    u.links name = t.links name := by
  induction h with
  | start => rfl
  | @request log u _ q ih =>
    obtain ⟨hbefore, hlast⟩ := List.forall_mem_append.mp hlog
    have hkept : ((backend.perform q).run.run u).2.links name = u.links name :=
      links_perform_of_not_writes rfl (hlast _ (List.mem_singleton_self _))
    rw [hkept, ih hbefore]
  | failNext _ _ ih => exact ih hlog
  | clearCalls _ ih => exact ih hlog

end LinkTable

end OverlayTunnel
