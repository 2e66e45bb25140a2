import OverlayTunnel.Proofs.Reconciler.Conversation

/-!
Whole calls over a backend that logs. They do what they do without the log, and only add to it.
-/
namespace OverlayTunnel

variable {σ α β : Type}

namespace Reconciler

/-- An action over a backend that logs does what it does over the backend itself. -/
def Logs (x : Action (σ × List Exchange) α) (y : Action σ α) : Prop :=
  Conducts x y fun _ _ => True

theorem Conducts.logs {x : Action (σ × List Exchange) α} {y : Action σ α}
    {Q : List Exchange → Except Failure α → Prop} (h : Conducts x y Q) : Logs x y := by
  intro s log
  obtain ⟨new, hrun, -⟩ := h s log
  exact ⟨new, hrun, trivial⟩

theorem Logs.bind {x : Action (σ × List Exchange) α} {y : Action σ α}
    {f : α → Action (σ × List Exchange) β} {g : α → Action σ β} (hx : Logs x y)
    (hf : ∀ a, Logs (f a) (g a)) : Logs (x >>= f) (y >>= g) :=
  Conducts.bind hx hf (fun _ _ _ => trivial) fun _ _ _ _ _ _ => trivial

theorem logs_bringUp (b : Backend σ) (r : Reconciler) (ms : List Member) :
    Logs (r.bringUp b.logging ms) (r.bringUp b ms) := by
  cases hpeers : Member.toPeers r.listenPort ms with
  | ok peers => exact (conducts_bringUp b hpeers).logs
  | error cause => exact (conducts_bringUp_unreadable b hpeers).logs

theorem logs_status (b : Backend σ) (r : Reconciler) : Logs (r.status b.logging) (r.status b) := by
  intro s log
  refine ⟨[⟨.device r.interface, ((b.perform (.device r.interface)).run.run s).1⟩], ?_, trivial⟩
  rw [run_status, run_status, Backend.run_logging]
  rcases (b.perform (.device r.interface)).run.run s with ⟨_ | _, _⟩ <;> rfl

theorem logs_takeDown (b : Backend σ) (r : Reconciler) :
    Logs (r.takeDown b.logging) (r.takeDown b) := by
  unfold takeDown
  refine (logs_status b r).bind fun device => ?_
  cases device with
  | none => exact Conducts.pure (.ok ()) trivial
  | some d =>
    refine (conducts_step b (.linkByName r.interface) rfl).logs.bind fun link => ?_
    exact (conducts_step b (.deleteLink link) rfl).logs

end Reconciler

/-- A call of any kind has the same answer with a log and without, and leaves the same state. -/
theorem Call.run_logging (b : Backend σ) (c : Call) (s : σ) (log : List Exchange) :
    ∃ new, (c.run b.logging).run (s, log) =
      (((c.run b).run s).1, ((c.run b).run s).2, log ++ new) := by
  have hlogs : ∀ {α : Type} {x : Reconciler.Action (σ × List Exchange) α}
      {y : Reconciler.Action σ α} (f : α → Answer), Reconciler.Logs x y →
      ∃ new, (Answer.ofResult f (x.run.run (s, log)).1, (x.run.run (s, log)).2) =
        (Answer.ofResult f (y.run.run s).1, (y.run.run s).2, log ++ new) := by
    intro α x y f h
    obtain ⟨new, hrun, -⟩ := h s log
    exact ⟨new, by rw [hrun]⟩
  cases c with
  | bringUp r ms => exact hlogs (fun _ => .done) (Reconciler.logs_bringUp b r ms)
  | takeDown r => exact hlogs (fun _ => .done) (Reconciler.logs_takeDown b r)
  | status r => exact hlogs .status (Reconciler.logs_status b r)
  | request q =>
    refine ⟨[⟨q, ((b.perform q).run.run s).1⟩], ?_⟩
    rw [run_request, run_request, Backend.run_logging]
    rcases (b.perform q).run.run s with ⟨_ | _, _⟩ <;> rfl

end OverlayTunnel
