import OverlayTunnel.Session

/-!
Actions of the reconciler in sequence, over any backend. What every request of a backend leaves true is
still true after a call, however far the call came.
-/
namespace OverlayTunnel

variable {σ α β : Type}

/-- A property of states that no request changes, whether it succeeds or not. -/
def Backend.Keeps (b : Backend σ) (P : σ → Prop) : Prop :=
  ∀ request s, P s → P ((b.perform request).run.run s).2

namespace Reconciler

/-! ### Single steps -/

/-- A failure ends a sequence of actions and keeps what was done before it. -/
theorem Action.run_bind (x : Action σ α) (f : α → Action σ β) (s : σ) :
    (x >>= f).run.run s =
      match x.run.run s with
      | (.ok a, s) => (f a).run.run s
      | (.error e, s) => (.error e, s) := by
  simp only [ExceptT.run_bind, StateT.run_bind]
  rcases x.run.run s with ⟨_ | _, _⟩ <;> rfl

theorem run_request (b : Backend σ) (r : Reconciler) (phase : Phase) (q : LinkRequest) (s : σ) :
    (request b r phase q).run.run s =
      (((b.perform q).run.run s).1.mapError (.link phase r.interface),
        ((b.perform q).run.run s).2) :=
  rfl

theorem run_ensure (b : Backend σ) (r : Reconciler) (phase : Phase) (q : LinkRequest) (s : σ) :
    (ensure b r phase q).run.run s =
      match (b.perform q).run.run s with
      | (.ok _, s) => (.ok (), s)
      | (.error e, s) =>
        (if e.isAlreadyExists then .ok () else .error (.link phase r.interface e), s) := by
  unfold ensure
  simp only [ExceptT.run_mk, StateT.run_bind]
  rcases (b.perform q).run.run s with ⟨_ | _, _⟩ <;> rfl

theorem run_status (b : Backend σ) (r : Reconciler) (s : σ) :
    (r.status b).run.run s =
      match (b.perform (.device r.interface)).run.run s with
      | (.ok device, s) => (.ok (some device), s)
      | (.error e, s) =>
        (if e.isNotFound then .ok none else .error (.link .lookupDevice r.interface e), s) := by
  unfold status
  simp only [ExceptT.run_mk, StateT.run_bind]
  rcases (b.perform (.device r.interface)).run.run s with ⟨_ | _, _⟩ <;> rfl

/-- However its request ends, the state is the one that the request leaves. -/
theorem state_ensure (b : Backend σ) (r : Reconciler) (phase : Phase) (q : LinkRequest) (s : σ) :
    ((ensure b r phase q).run.run s).2 = ((b.perform q).run.run s).2 := by
  rw [run_ensure]
  rcases (b.perform q).run.run s with ⟨_ | _, _⟩ <;> rfl

theorem state_status (b : Backend σ) (r : Reconciler) (s : σ) :
    ((r.status b).run.run s).2 = ((b.perform (.device r.interface)).run.run s).2 := by
  rw [run_status]
  rcases (b.perform (.device r.interface)).run.run s with ⟨_ | _, _⟩ <;> rfl

/-! ### What actions keep -/

def Action.Keeps (P : σ → Prop) (x : Action σ α) : Prop :=
  ∀ s, P s → P (x.run.run s).2

variable {P : σ → Prop} {b : Backend σ}

theorem Action.Keeps.pure (result : Except Failure α) :
    Action.Keeps P (ExceptT.mk (Pure.pure result) : Action σ α) := by
  intro s hs
  exact hs

theorem Action.Keeps.bind {x : Action σ α} {f : α → Action σ β} (hx : Action.Keeps P x)
    (hf : ∀ a, Action.Keeps P (f a)) : Action.Keeps P (x >>= f) := by
  intro s hs
  have hx := hx s hs
  rw [Action.run_bind]
  rcases h : x.run.run s with ⟨_ | a, s'⟩
  · simpa [h] using hx
  · exact hf a s' (by simpa [h] using hx)

theorem Action.Keeps.forM {ι : Type} {f : ι → Action σ Unit} (hf : ∀ i, Action.Keeps P (f i))
    (is : List ι) : Action.Keeps P (is.forM f) := by
  induction is with
  | nil => exact Action.Keeps.pure (.ok ())
  | cons i is ih => exact (hf i).bind fun _ => ih

theorem keeps_request (hb : b.Keeps P) (r : Reconciler) (phase : Phase) (q : LinkRequest) :
    Action.Keeps P (request b r phase q) := by
  intro s hs
  rw [run_request]
  exact hb q s hs

theorem keeps_ensure (hb : b.Keeps P) (r : Reconciler) (phase : Phase) (q : LinkRequest) :
    Action.Keeps P (ensure b r phase q) := by
  intro s hs
  have hq := hb q s hs
  rw [run_ensure]
  rcases h : (b.perform q).run.run s with ⟨_ | _, _⟩ <;> simpa [h] using hq

theorem keeps_status (hb : b.Keeps P) (r : Reconciler) : Action.Keeps P (r.status b) := by
  intro s hs
  have hq := hb (.device r.interface) s hs
  rw [run_status]
  rcases h : (b.perform (.device r.interface)).run.run s with ⟨_ | _, _⟩ <;> simpa [h] using hq

theorem keeps_bringUp (hb : b.Keeps P) (r : Reconciler) (members : List Member) :
    Action.Keeps P (r.bringUp b members) := by
  unfold bringUp
  refine (keeps_ensure hb r _ _).bind fun _ => ?_
  refine (Action.Keeps.pure _).bind fun setup => ?_
  refine (keeps_request hb r _ _).bind fun _ => ?_
  refine (keeps_request hb r _ _).bind fun link => ?_
  refine (keeps_request hb r _ _).bind fun _ => ?_
  refine (keeps_request hb r _ _).bind fun _ => ?_
  refine (keeps_request hb r _ _).bind fun _ => ?_
  exact Action.Keeps.forM (fun _ => keeps_ensure hb r _ _) members

theorem keeps_takeDown (hb : b.Keeps P) (r : Reconciler) : Action.Keeps P (r.takeDown b) := by
  unfold takeDown
  refine (keeps_status hb r).bind fun device => ?_
  split
  · refine (keeps_request hb r _ _).bind fun link => ?_
    exact keeps_request hb r _ _
  · exact Action.Keeps.pure (.ok ())

end Reconciler

theorem Call.run_bringUp (b : Backend σ) (r : Reconciler) (ms : List Member) (s : σ) :
    ((Call.bringUp r ms).run b).run s =
      (.ofResult (fun _ => .done) ((r.bringUp b ms).run.run s).1, ((r.bringUp b ms).run.run s).2) :=
  rfl

theorem Call.run_takeDown (b : Backend σ) (r : Reconciler) (s : σ) :
    ((Call.takeDown r).run b).run s =
      (.ofResult (fun _ => .done) ((r.takeDown b).run.run s).1, ((r.takeDown b).run.run s).2) :=
  rfl

theorem Call.run_status (b : Backend σ) (r : Reconciler) (s : σ) :
    ((Call.status r).run b).run s =
      (.ofResult .status ((r.status b).run.run s).1, ((r.status b).run.run s).2) :=
  rfl

theorem Call.run_request (b : Backend σ) (q : LinkRequest) (s : σ) :
    ((Call.request q).run b).run s =
      match (b.perform q).run.run s with
      | (.ok reply, s) => (.ofReply q reply, s)
      | (.error e, s) => (.linkFailed e, s) := by
  unfold Call.run
  simp only [StateT.run_bind]
  rcases (b.perform q).run.run s with ⟨_ | _, _⟩ <;> rfl

theorem Call.state_request (b : Backend σ) (q : LinkRequest) (s : σ) :
    (((Call.request q).run b).run s).2 = ((b.perform q).run.run s).2 := by
  rw [Call.run_request]
  rcases (b.perform q).run.run s with ⟨_ | _, _⟩ <;> rfl

theorem Call.runAll_cons (b : Backend σ) (call : Call) (calls : List Call) (s : σ) :
    (runAll b (call :: calls)).run s =
      (((call.run b).run s).1 :: ((runAll b calls).run ((call.run b).run s).2).1,
        ((runAll b calls).run ((call.run b).run s).2).2) := by
  unfold runAll
  rw [List.mapM_cons]
  rfl

/-- What every request leaves true, every call does. -/
theorem Call.keeps_run {P : σ → Prop} {b : Backend σ} (hb : b.Keeps P) (c : Call) (s : σ)
    (hs : P s) : P ((c.run b).run s).2 := by
  cases c with
  | bringUp r members => exact Reconciler.keeps_bringUp hb r members s hs
  | takeDown r => exact Reconciler.keeps_takeDown hb r s hs
  | status r => exact Reconciler.keeps_status hb r s hs
  | request q =>
    have hq := hb q s hs
    rw [Call.run_request]
    rcases h : (b.perform q).run.run s with ⟨_ | _, _⟩ <;> simpa [h] using hq

theorem Call.keeps_runAll {P : σ → Prop} {b : Backend σ} (hb : b.Keeps P) (calls : List Call) (s : σ)
    (hs : P s) : P ((runAll b calls).run s).2 := by
  induction calls generalizing s with
  | nil => exact hs
  | cons call calls ih =>
    rw [Call.runAll_cons]
    exact ih _ (call.keeps_run hb s hs)

end OverlayTunnel
