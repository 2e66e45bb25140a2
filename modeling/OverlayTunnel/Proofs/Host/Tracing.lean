import OverlayTunnel.Proofs.Host.Resemblance
import OverlayTunnel.Proofs.Reconciler.Conversation

/-!
Hosts that keep account of what is done on them. The account changes nothing, and operations on such a
host can be told by the steps that they take.
-/
namespace OverlayTunnel

variable {τ α β : Type}

/-! ### A host that keeps account -/

/-- Something that was done on a host, and what came of it. -/
inductive HostStep where
  | ran (i : Invocation) (outcome : Outcome)
  | wrote (f : ConfigFile) (result : Except String Unit)
  | removed (f : ConfigFile)

/-- A request with its reply and with what was done for it. -/
structure Deed extends Exchange where
  steps : List HostStep

/-- A host that also keeps what was done on it, in order. -/
def Host.logging (h : Host τ) : Host (τ × List HostStep) where
  run i := fun (s, log) =>
    let (outcome, s) := (h.run i).run s
    (outcome, s, log ++ [.ran i outcome])
  writeFile f := fun (s, log) =>
    let (result, s) := (h.writeFile f).run s
    (result, s, log ++ [.wrote f result])
  removeFile f := fun (s, log) =>
    let (_, s) := (h.removeFile f).run s
    ((), s, log ++ [.removed f])

/-- Links of a host, with an account of the requests. -/
def HostLinks.accounted (h : Host τ) : Backend (HostLinks τ × List Deed) where
  perform request := ExceptT.mk fun (s, deeds) =>
    let (reply, t) := ((backend h.logging).perform request).run.run ⟨(s.host, []), s.toolCheck⟩
    (reply, ⟨t.host.1, t.toolCheck⟩, deeds ++ [⟨⟨request, reply⟩, t.host.2⟩])

theorem Argument.eq_of_alike {as bs : List Argument} (h : List.Forall₂ (Argument.Alike Eq) as bs) :
    as = bs := by
  induction h with
  | nil => rfl
  | cons hab _ ih =>
    rw [ih]
    cases hab with
    | text s => rfl
    | file hfile => rw [hfile]

theorem Host.resembles_logging (h : Host τ) : h.logging.Resembles h Eq fun s t => s.1 = t where
  run := by
    rintro ⟨program, as⟩ ⟨program', bs⟩ ⟨s, log⟩ t hi rfl
    obtain rfl : program = program' := hi.program
    obtain rfl := Argument.eq_of_alike hi.arguments
    exact ⟨rfl, rfl⟩
  writeFile := by
    rintro f g ⟨s, log⟩ t rfl rfl
    exact ⟨rfl, rfl⟩
  removeFile := by
    rintro f g ⟨s, log⟩ t rfl rfl
    rfl

namespace HostLinks

theorem run_accounted (h : Host τ) (q : LinkRequest) (s : HostLinks τ) (deeds : List Deed) :
    ((accounted h).perform q).run.run (s, deeds) =
      ((((backend h.logging).perform q).run.run ⟨(s.host, []), s.toolCheck⟩).1,
        ⟨(((backend h.logging).perform q).run.run ⟨(s.host, []), s.toolCheck⟩).2.host.1,
          (((backend h.logging).perform q).run.run ⟨(s.host, []), s.toolCheck⟩).2.toolCheck⟩,
        deeds ++ [⟨⟨q, (((backend h.logging).perform q).run.run ⟨(s.host, []), s.toolCheck⟩).1⟩,
          (((backend h.logging).perform q).run.run ⟨(s.host, []), s.toolCheck⟩).2.host.2⟩]) :=
  rfl

theorem resemble_accounted (h : Host τ) (q : LinkRequest) :
    Resemble (fun t s => t.1 = s) ((accounted h).perform q) ((backend h).perform q) := by
  rintro ⟨s, deeds⟩ t rfl
  have hbackend := resembles_backend h.resembles_logging fun _ _ => rfl
  obtain ⟨hreply, hhost, hcheck⟩ := hbackend.same q ⟨(s.host, []), s.toolCheck⟩ s ⟨rfl, rfl⟩
  exact ⟨hreply, congrArg₂ HostLinks.mk hhost hcheck⟩

theorem resembles_accounted (h : Host τ) :
    (accounted h).Resembles (backend h) (fun t s => t.1 = s) Eq where
  same q := resemble_accounted h q
  configure := by
    rintro name d d' rfl
    exact resemble_accounted h (.configureDevice name d)

/-- With an account or without one, calls have the same answers and leave the same state. -/
theorem runAll_accounted (h : Host τ) (calls : List Call) (s : HostLinks τ) (deeds : List Deed) :
    ((Call.runAll (accounted h) calls).run (s, deeds)).1 =
        ((Call.runAll (backend h) calls).run s).1 ∧
      ((Call.runAll (accounted h) calls).run (s, deeds)).2.1 =
        ((Call.runAll (backend h) calls).run s).2 :=
  Call.runAll_alike (resembles_accounted h)
    (List.forall₂_same.mpr fun c _ => Call.alike_self (fun _ => rfl) c) rfl

/-! ### Tracing operations -/

/-- What an operation does on a host that keeps account: how its result, its steps and the answer of the
tool check before and after it are related. -/
def Traces (x : LinkM (HostLinks (τ × List HostStep)) α)
    (Q : Option Bool → Except LinkFailure α → List HostStep → Option Bool → Prop) : Prop :=
  ∀ s log c, ∃ result s' steps c',
    x.run.run ⟨(s, log), c⟩ = (result, ⟨(s', log ++ steps), c'⟩) ∧ Q c result steps c'

namespace Traces

variable {x : LinkM (HostLinks (τ × List HostStep)) α}
  {f : α → LinkM (HostLinks (τ × List HostStep)) β}
  {P : Option Bool → Except LinkFailure α → List HostStep → Option Bool → Prop}
  {R : α → Option Bool → Except LinkFailure β → List HostStep → Option Bool → Prop}
  {Q : Option Bool → Except LinkFailure β → List HostStep → Option Bool → Prop}

theorem pure (result : Except LinkFailure β) (h : ∀ c, Q c result [] c) :
    Traces (ExceptT.mk (Pure.pure result) : LinkM (HostLinks (τ × List HostStep)) β) Q := by
  intro s log c
  exact ⟨result, s, [], c, by rw [List.append_nil]; rfl, h c⟩

theorem bind (hx : Traces x P) (hf : ∀ a, Traces (f a) (R a))
    (herror : ∀ c e steps c', P c (.error e) steps c' → Q c (.error e) steps c')
    (hok : ∀ c a steps c₁ result later c₂, P c (.ok a) steps c₁ → R a c₁ result later c₂ →
      Q c result (steps ++ later) c₂) : Traces (x >>= f) Q := by
  intro s log c
  obtain ⟨result, s₁, steps, c₁, hrun, hP⟩ := hx s log c
  rw [LinkM.run_bind, hrun]
  cases result with
  | error e => exact ⟨.error e, s₁, steps, c₁, rfl, herror c e steps c₁ hP⟩
  | ok a =>
    obtain ⟨result, s₂, later, c₂, hrun', hR⟩ := hf a s₁ (log ++ steps) c₁
    refine ⟨result, s₂, steps ++ later, c₂, ?_, hok c a steps c₁ result later c₂ hP hR⟩
    rw [← List.append_assoc]
    exact hrun'

theorem mono (hx : Traces x P) {P₂} (h : ∀ c result steps c', P c result steps c' → P₂ c result steps c') :
    Traces x P₂ := by
  intro s log c
  obtain ⟨result, s', steps, c', hrun, hP⟩ := hx s log c
  exact ⟨result, s', steps, c', hrun, h _ _ _ _ hP⟩

end Traces

end HostLinks

end OverlayTunnel
