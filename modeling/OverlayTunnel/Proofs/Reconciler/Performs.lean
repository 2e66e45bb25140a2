import OverlayTunnel.Proofs.Reconciler.Actions
import OverlayTunnel.Proofs.Table.Effect

/-!
How pending failures cut a sequence of actions over a table. An action fails at the first of its steps
whose failure is pending and uses that failure up; where none is pending it succeeds.
-/
namespace OverlayTunnel.Reconciler

open LinkTable

variable {α β : Type}

/-- A step of an action: the operation that it asks for, and the phase that it belongs to. -/
structure Step where
  operation : LinkOperation
  phase : Phase
  deriving DecidableEq

def Step.failure (r : Reconciler) (s : Step) : Failure :=
  .link s.phase r.interface (.injected s.operation.name)

def firstPending (steps : List Step) (t : LinkTable) : Option Step :=
  steps.find? fun s => t.pending s.operation

theorem firstPending_congr {steps : List Step} {t t' : LinkTable} (h : t'.pending = t.pending) :
    firstPending steps t' = firstPending steps t := by
  simp only [firstPending, h]

theorem firstPending_eq_none {steps : List Step} {t : LinkTable}
    (h : ∀ s ∈ steps, t.pending s.operation = false) : firstPending steps t = none := by
  apply List.find?_eq_none.mpr
  intro s hs
  simp [h s hs]

/-- From a table with `Pre`, an action either fails at the first step whose failure is pending and
leaves `Kept`, or there is no such step, and it succeeds and leaves `Post`. -/
def Performs (r : Reconciler) (steps : List Step) (Pre Kept : LinkTable → Prop)
    (x : Action LinkTable α) (Post : α → LinkTable → Prop) : Prop :=
  ∀ t, Pre t →
    (∃ s t', firstPending steps t = some s ∧ x.run.run t = (.error (s.failure r), t') ∧
      t'.pending = (t.relieved s.operation).pending ∧ Kept t') ∨
    (∃ a t', firstPending steps t = none ∧ x.run.run t = (.ok a, t') ∧
      t'.pending = t.pending ∧ Post a t')

variable {r : Reconciler} {Pre Kept : LinkTable → Prop}

theorem Performs.pure : Performs r [] Pre Kept (Pure.pure () : Action LinkTable Unit) fun _ => Pre := by
  intro t ht
  exact .inr ⟨(), t, rfl, rfl, rfl, ht⟩

theorem Performs.pure_bind {steps : List Step} {Post : β → LinkTable → Prop} {a : α}
    {f : α → Action LinkTable β} (hf : Performs r steps Pre Kept (f a) Post) :
    Performs r steps Pre Kept (ExceptT.mk (Pure.pure (.ok a)) >>= f) Post :=
  hf

theorem Performs.bind {steps₁ steps₂ : List Step} {Mid : α → LinkTable → Prop}
    {Post : β → LinkTable → Prop} {x : Action LinkTable α} {f : α → Action LinkTable β}
    (hx : Performs r steps₁ Pre Kept x Mid) (hf : ∀ a, Performs r steps₂ (Mid a) Kept (f a) Post) :
    Performs r (steps₁ ++ steps₂) Pre Kept (x >>= f) Post := by
  intro t ht
  have hsplit : firstPending (steps₁ ++ steps₂) t =
      (firstPending steps₁ t).or (firstPending steps₂ t) := List.find?_append
  rcases hx t ht with ⟨s, t', hs, hrun, hp, hk⟩ | ⟨a, t', hs, hrun, hp, hmid⟩
  · refine .inl ⟨s, t', by simp [hsplit, hs], ?_, hp, hk⟩
    rw [Action.run_bind, hrun]
  · have hrun : (x >>= f).run.run t = (f a).run.run t' := by rw [Action.run_bind, hrun]
    have hfirst : firstPending (steps₁ ++ steps₂) t = firstPending steps₂ t' := by
      simp [hsplit, hs, firstPending_congr hp]
    rw [hrun, hfirst]
    rcases hf a t' hmid with ⟨s, t'', hs, hrun, hp', hk⟩ | ⟨b, t'', hs, hrun, hp', hpost⟩
    · refine .inl ⟨s, t'', hs, hrun, ?_, hk⟩
      rw [hp']
      simp only [LinkTable.relieved, hp]
    · exact .inr ⟨b, t'', hs, hrun, hp'.trans hp, hpost⟩

theorem Performs.post {steps : List Step} {Post Post' : α → LinkTable → Prop}
    {x : Action LinkTable α} (hx : Performs r steps Pre Kept x Post)
    (h : ∀ a t, Post a t → Post' a t) : Performs r steps Pre Kept x Post' := by
  intro t ht
  rcases hx t ht with hfailed | ⟨a, t', hs, hrun, hp, hpost⟩
  · exact .inl hfailed
  · exact .inr ⟨a, t', hs, hrun, hp, h a t' hpost⟩

theorem Performs.pre {steps : List Step} {Pre' : LinkTable → Prop} {Post : α → LinkTable → Prop}
    {x : Action LinkTable α} (hx : Performs r steps Pre Kept x Post) (h : ∀ t, Pre' t → Pre t) :
    Performs r steps Pre' Kept x Post :=
  fun t ht => hx t (h t ht)

/-! ### Single requests -/

/-- A request that a table with `Pre` grants. -/
theorem performs_request {phase : Phase} (q : LinkRequest) {Post : q.Reply → LinkTable → Prop}
    (hkept : ∀ t, Pre t → Kept ((t.recorded q.operation).relieved q.operation))
    (hgranted : ∀ t, Pre t → ∃ reply link,
      q.effect (t.lastIndex + 1) (t.links q.target) = .ok (reply, link) ∧
        Post reply ((t.recorded q.operation).updated q link)) :
    Performs r [⟨q.operation, phase⟩] Pre Kept (request backend r phase q) Post := by
  intro t ht
  by_cases hp : t.pending q.operation = true
  · refine .inl ⟨⟨q.operation, phase⟩, (t.recorded q.operation).relieved q.operation,
      by simp [firstPending, hp], ?_, rfl, hkept t ht⟩
    rw [run_request, run_perform_of_pending hp]
    rfl
  · obtain ⟨reply, link, he, hpost⟩ := hgranted t ht
    refine .inr ⟨reply, (t.recorded q.operation).updated q link,
      by simp [firstPending, hp], ?_, rfl, hpost⟩
    rw [run_request, run_perform_eq (by simpa using hp), he]
    rfl

/-- A request that a table with `Pre` grants, or that fails because the wanted thing is there. -/
theorem performs_ensure {phase : Phase} (q : LinkRequest) {Post : Unit → LinkTable → Prop}
    (hkept : ∀ t, Pre t → Kept ((t.recorded q.operation).relieved q.operation))
    (hgranted : ∀ t, Pre t →
      (∃ reply link, q.effect (t.lastIndex + 1) (t.links q.target) = .ok (reply, link) ∧
        Post () ((t.recorded q.operation).updated q link)) ∨
      (∃ e, q.effect (t.lastIndex + 1) (t.links q.target) = .error e ∧
        e.isAlreadyExists = true ∧ Post () (t.recorded q.operation))) :
    Performs r [⟨q.operation, phase⟩] Pre Kept (ensure backend r phase q) Post := by
  intro t ht
  by_cases hp : t.pending q.operation = true
  · refine .inl ⟨⟨q.operation, phase⟩, (t.recorded q.operation).relieved q.operation,
      by simp [firstPending, hp], ?_, rfl, hkept t ht⟩
    rw [run_ensure, run_perform_of_pending hp]
    rfl
  · have hrun := run_perform_eq (by simpa using hp)
    rcases hgranted t ht with ⟨reply, link, he, hpost⟩ | ⟨e, he, hexists, hpost⟩
    · refine .inr ⟨(), (t.recorded q.operation).updated q link,
        by simp [firstPending, hp], ?_, rfl, hpost⟩
      rw [run_ensure, hrun, he]
    · refine .inr ⟨(), t.recorded q.operation, by simp [firstPending, hp], ?_, rfl, hpost⟩
      rw [run_ensure, hrun, he]
      simp [hexists]

end OverlayTunnel.Reconciler
