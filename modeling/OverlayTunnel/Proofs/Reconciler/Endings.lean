import OverlayTunnel.Proofs.Reconciler.Actions

/-!
How operations that may fail end, with the states that they leave. One judgement serves the requests of a
backend and the actions of the reconciler, and a rule for each kind of step joins the two.
-/
namespace OverlayTunnel

variable {ε σ α β : Type}

/-- From every state with `P`, an operation ends with a failure as `E` says or with a value as `Q` says. -/
def Ends (P : σ → Prop) (x : ExceptT ε (StateM σ) α) (E : ε → σ → Prop) (Q : α → σ → Prop) : Prop :=
  ∀ s, P s → (∃ e s', x.run.run s = (.error e, s') ∧ E e s') ∨
    ∃ a s', x.run.run s = (.ok a, s') ∧ Q a s'

namespace Ends

variable {P P' : σ → Prop} {E E' : ε → σ → Prop} {x : ExceptT ε (StateM σ) α}

theorem pure {Q : α → σ → Prop} (a : α) (h : ∀ s, P s → Q a s) :
    Ends P (ExceptT.mk (Pure.pure (.ok a)) : ExceptT ε (StateM σ) α) E Q :=
  fun s hs => .inr ⟨a, s, rfl, h s hs⟩

theorem throw {Q : α → σ → Prop} (e : ε) (h : ∀ s, P s → E e s) :
    Ends P (ExceptT.mk (Pure.pure (.error e)) : ExceptT ε (StateM σ) α) E Q :=
  fun s hs => .inl ⟨e, s, rfl, h s hs⟩

/-- Every operation ends. -/
theorem trivial (x : ExceptT ε (StateM σ) α) : Ends P x (fun _ _ => True) fun _ _ => True := by
  intro s _
  rcases hrun : x.run.run s with ⟨e | a, s'⟩
  · exact .inl ⟨e, s', rfl, True.intro⟩
  · exact .inr ⟨a, s', rfl, True.intro⟩

theorem mono {Q Q' : α → σ → Prop} (hx : Ends P x E Q) (hP : ∀ s, P' s → P s)
    (hE : ∀ e s, E e s → E' e s) (hQ : ∀ a s, Q a s → Q' a s) : Ends P' x E' Q' := by
  intro s hs
  rcases hx s (hP s hs) with ⟨e, s', hrun, h⟩ | ⟨a, s', hrun, h⟩
  · exact .inl ⟨e, s', hrun, hE e s' h⟩
  · exact .inr ⟨a, s', hrun, hQ a s' h⟩

theorem bind {R : α → σ → Prop} {Q : β → σ → Prop} {f : α → ExceptT ε (StateM σ) β}
    (hx : Ends P x E R) (hf : ∀ a, Ends (R a) (f a) E Q) : Ends P (x >>= f) E Q := by
  intro s hs
  simp only [ExceptT.run_bind, StateT.run_bind]
  rcases hx s hs with ⟨e, s', hrun, h⟩ | ⟨a, s', hrun, h⟩
  · rw [hrun]
    exact .inl ⟨e, s', rfl, h⟩
  · rw [hrun]
    exact hf a s' h

theorem pure_bind {Q : β → σ → Prop} {a : α} {f : α → ExceptT ε (StateM σ) β} (hf : Ends P (f a) E Q) :
    Ends P (ExceptT.mk (Pure.pure (.ok a)) >>= f) E Q :=
  hf

theorem throw_bind {Q : β → σ → Prop} {e : ε} {f : α → ExceptT ε (StateM σ) β} (h : ∀ s, P s → E e s) :
    Ends P (ExceptT.mk (Pure.pure (.error e)) >>= f) E Q :=
  fun s hs => .inl ⟨e, s, rfl, h s hs⟩

/-- What does not depend on the state is a fact about the whole operation. -/
theorem of_and {φ : Prop} {Q : α → σ → Prop} (h : φ → Ends P x E Q) :
    Ends (fun s => φ ∧ P s) x E Q :=
  fun s hs => h hs.1 s hs.2

theorem forM {ι : Type} {f : ι → ExceptT ε (StateM σ) Unit} {is : List ι}
    (hf : ∀ i ∈ is, Ends P (f i) E fun _ => P) : Ends P (is.forM f) E fun _ => P := by
  induction is with
  | nil => exact .pure () fun _ hs => hs
  | cons i is ih =>
    exact (hf i List.mem_cons_self).bind fun _ => ih fun j hj => hf j (List.mem_cons_of_mem i hj)

/-! ### Steps of the reconciler -/

variable {b : Backend σ} {r : Reconciler} {phase : Phase} {q : LinkRequest} {F : LinkFailure → σ → Prop}

theorem request {Q : q.Reply → σ → Prop} (h : Ends P (b.perform q) F Q) :
    Ends P (r.request b phase q) (fun f s => ∃ e, f = .link phase r.interface e ∧ F e s) Q := by
  intro s hs
  rw [Reconciler.run_request]
  rcases h s hs with ⟨e, s', hrun, he⟩ | ⟨a, s', hrun, ha⟩
  · rw [hrun]
    exact .inl ⟨_, s', rfl, e, rfl, he⟩
  · rw [hrun]
    exact .inr ⟨a, s', rfl, ha⟩

theorem request_of_granted {Q : q.Reply → σ → Prop} (h : Ends P (b.perform q) (fun _ _ => False) Q) :
    Ends P (r.request b phase q) (fun _ _ => False) Q := by
  refine h.request.mono (fun _ hs => hs) ?_ fun _ _ hs => hs
  rintro f s ⟨e, -, hfalse⟩
  exact hfalse

/-- A step for something that may already be there goes well also if it is. -/
theorem ensure {Q : σ → Prop} (h : Ends P (b.perform q) F fun _ => Q)
    (hexists : ∀ e s, e.isAlreadyExists = true → F e s → Q s) :
    Ends P (r.ensure b phase q)
      (fun f s => ∃ e, f = .link phase r.interface e ∧ e.isAlreadyExists = false ∧ F e s)
      fun _ => Q := by
  intro s hs
  rw [Reconciler.run_ensure]
  rcases h s hs with ⟨e, s', hrun, he⟩ | ⟨a, s', hrun, ha⟩
  · rw [hrun]
    cases hthere : e.isAlreadyExists with
    | true => exact .inr ⟨(), s', by simp [hthere], hexists e s' hthere he⟩
    | false => exact .inl ⟨_, s', by simp [hthere], e, rfl, hthere, he⟩
  · rw [hrun]
    exact .inr ⟨(), s', rfl, ha⟩

/-- A step that looks a device up goes well also if there is none. -/
theorem status {Q : σ → Prop} (h : Ends P (b.perform (.device r.interface)) F fun _ => Q)
    (habsent : ∀ e s, e.isNotFound = true → F e s → Q s) :
    Ends P (r.status b)
      (fun f s => ∃ e, f = .link .lookupDevice r.interface e ∧ e.isNotFound = false ∧ F e s)
      fun _ => Q := by
  intro s hs
  rw [Reconciler.run_status]
  rcases h s hs with ⟨e, s', hrun, he⟩ | ⟨d, s', hrun, hd⟩
  · rw [hrun]
    cases hgone : e.isNotFound with
    | true => exact .inr ⟨none, s', by simp [hgone], habsent e s' hgone he⟩
    | false => exact .inl ⟨_, s', by simp [hgone], e, rfl, hgone, he⟩
  · rw [hrun]
    exact .inr ⟨some d, s', rfl, hd⟩

end Ends

end OverlayTunnel
