import Mathlib.Data.List.Forall2
import OverlayTunnel.Proofs.Reconciler.Setup
import OverlayTunnel.Proofs.Reconciler.Actions

/-!
Backends that reply alike. Calls over them have the same answers, even if the setups that they ask for
differ, as long as the backends reply alike to setups that differ so.
-/
namespace OverlayTunnel

variable {ε σ υ α β : Type}

/-! ### Operations with the same result -/

/-- From related states, two operations have the same result and leave related states. -/
def Resemble (R : σ → υ → Prop) (x : ExceptT ε (StateM σ) α) (y : ExceptT ε (StateM υ) α) : Prop :=
  ∀ s t, R s t → (x.run.run s).1 = (y.run.run t).1 ∧ R (x.run.run s).2 (y.run.run t).2

namespace Resemble

variable {R : σ → υ → Prop}

theorem exists_run {x : ExceptT ε (StateM σ) α} {y : ExceptT ε (StateM υ) α} (hxy : Resemble R x y)
    {s : σ} {t : υ} (h : R s t) : ∃ result s' t',
      x.run.run s = (result, s') ∧ y.run.run t = (result, t') ∧ R s' t' := by
  obtain ⟨hresult, hstate⟩ := hxy s t h
  exact ⟨_, _, _, rfl, Prod.ext hresult.symm rfl, hstate⟩

theorem pure (result : Except ε α) :
    Resemble R (ExceptT.mk (Pure.pure result) : ExceptT ε (StateM σ) α)
      (ExceptT.mk (Pure.pure result)) :=
  fun _ _ h => ⟨rfl, h⟩

theorem bind {x : ExceptT ε (StateM σ) α} {y : ExceptT ε (StateM υ) α}
    {f : α → ExceptT ε (StateM σ) β} {g : α → ExceptT ε (StateM υ) β} (hx : Resemble R x y)
    (hf : ∀ a, Resemble R (f a) (g a)) : Resemble R (x >>= f) (y >>= g) := by
  intro s t h
  obtain ⟨result, s', t', hs, ht, hstate⟩ := hx.exists_run h
  simp only [ExceptT.run_bind, StateT.run_bind]
  rw [hs, ht]
  cases result with
  | error e => exact ⟨rfl, hstate⟩
  | ok a => exact hf a s' t' hstate

theorem get_bind {f : σ → ExceptT ε (StateM σ) β} {g : υ → ExceptT ε (StateM υ) β}
    (hf : ∀ s t, R s t → Resemble R (f s) (g t)) : Resemble R (get >>= f) (get >>= g) :=
  fun s t h => hf s t h s t h

theorem forM {ι : Type} {f : ι → ExceptT ε (StateM σ) Unit} {g : ι → ExceptT ε (StateM υ) Unit}
    (hf : ∀ i, Resemble R (f i) (g i)) (is : List ι) : Resemble R (is.forM f) (is.forM g) := by
  induction is with
  | nil => exact Resemble.pure (.ok ())
  | cons i is ih => exact (hf i).bind fun _ => ih

end Resemble

/-! ### Backends -/

/-- Backends that reply alike to every request, also where one is to configure a device in one way and the
other in a way that `D` relates to it. -/
structure Backend.Resembles (b : Backend σ) (b' : Backend υ) (R : σ → υ → Prop)
    (D : DeviceSetup → DeviceSetup → Prop) : Prop where
  same : ∀ q, Resemble R (b.perform q) (b'.perform q)
  configure : ∀ name setup setup', D setup setup' →
    Resemble R (b.perform (.configureDevice name setup)) (b'.perform (.configureDevice name setup'))

variable {b : Backend σ} {b' : Backend υ} {R : σ → υ → Prop} {D : DeviceSetup → DeviceSetup → Prop}

namespace Reconciler

/-- Reconcilers of the same interface that differ at most in how they want its device configured. -/
structure Alike (D : DeviceSetup → DeviceSetup → Prop) (r r' : Reconciler) : Prop where
  interface : r'.interface = r.interface
  mtu : r'.mtu = r.mtu
  overlayAddress : r'.identity.overlayAddress = r.identity.overlayAddress
  setup : ∀ ms, (∃ e, r.setup ms = .error e ∧ r'.setup ms = .error e) ∨
    ∃ d d', r.setup ms = .ok d ∧ r'.setup ms = .ok d' ∧ D d d'

variable {r r' : Reconciler}

theorem resemble_request (hr : r.Alike D r') (phase : Phase) {q : LinkRequest}
    (hq : Resemble R (b.perform q) (b'.perform q)) :
    Resemble R (request b r phase q) (request b' r' phase q) := by
  intro s t h
  obtain ⟨hresult, hstate⟩ := hq s t h
  rw [run_request, run_request, hresult, hr.interface]
  exact ⟨rfl, hstate⟩

theorem resemble_configure (hb : b.Resembles b' R D) (hr : r.Alike D r') (phase : Phase)
    (name : String) {d d' : DeviceSetup} (hd : D d d') :
    Resemble R (request b r phase (.configureDevice name d))
      (request b' r' phase (.configureDevice name d')) := by
  intro s t h
  obtain ⟨hresult, hstate⟩ := hb.configure name d d' hd s t h
  rw [run_request, run_request, hresult, hr.interface]
  exact ⟨rfl, hstate⟩

theorem resemble_ensure (hr : r.Alike D r') (phase : Phase) {q : LinkRequest}
    (hq : Resemble R (b.perform q) (b'.perform q)) :
    Resemble R (ensure b r phase q) (ensure b' r' phase q) := by
  intro s t h
  obtain ⟨result, s', t', hs, ht, hstate⟩ := hq.exists_run h
  rw [run_ensure, run_ensure, hr.interface, hs, ht]
  cases result with
  | error e => exact ⟨rfl, hstate⟩
  | ok a => exact ⟨rfl, hstate⟩

theorem resemble_status (hb : b.Resembles b' R D) (hr : r.Alike D r') :
    Resemble R (r.status b) (r'.status b') := by
  intro s t h
  obtain ⟨result, s', t', hs, ht, hstate⟩ := (hb.same (.device r.interface)).exists_run h
  rw [run_status, run_status, hr.interface, hs, ht]
  cases result with
  | error e => exact ⟨rfl, hstate⟩
  | ok a => exact ⟨rfl, hstate⟩

theorem resemble_takeDown (hb : b.Resembles b' R D) (hr : r.Alike D r') :
    Resemble R (r.takeDown b) (r'.takeDown b') := by
  unfold takeDown
  refine (resemble_status hb hr).bind fun device => ?_
  split
  · rw [hr.interface]
    refine (resemble_request hr _ (hb.same _)).bind fun link => ?_
    exact resemble_request hr _ (hb.same _)
  · exact Resemble.pure (.ok ())

/-- The setups may differ, but what comes before and after them does not. -/
theorem resemble_bringUp (hb : b.Resembles b' R D) (hr : r.Alike D r') (ms : List Member) :
    Resemble R (r.bringUp b ms) (r'.bringUp b' ms) := by
  unfold bringUp
  rw [hr.interface, hr.mtu, hr.overlayAddress]
  refine (resemble_ensure hr _ (hb.same _)).bind fun _ => ?_
  rcases hr.setup ms with ⟨e, he, he'⟩ | ⟨d, d', hd, hd', h⟩
  · rw [he, he']
    exact Resemble.pure (.error e)
  · rw [hd, hd']
    refine (resemble_configure hb hr _ r.interface h).bind fun _ => ?_
    refine (resemble_request hr _ (hb.same _)).bind fun link => ?_
    refine (resemble_request hr _ (hb.same _)).bind fun _ => ?_
    refine (resemble_request hr _ (hb.same _)).bind fun _ => ?_
    refine (resemble_request hr _ (hb.same _)).bind fun _ => ?_
    exact Resemble.forM (fun m => resemble_ensure hr _ (hb.same _)) ms

end Reconciler

/-! ### Calls -/

/-- Calls that differ at most in how devices are to be configured. -/
inductive Call.Alike (D : DeviceSetup → DeviceSetup → Prop) : Call → Call → Prop
  | bringUp {r r' : Reconciler} (hr : r.Alike D r') (ms : List Member) :
    Alike D (.bringUp r ms) (.bringUp r' ms)
  | takeDown {r r' : Reconciler} (hr : r.Alike D r') : Alike D (.takeDown r) (.takeDown r')
  | status {r r' : Reconciler} (hr : r.Alike D r') : Alike D (.status r) (.status r')
  | request (q : LinkRequest) : Alike D (.request q) (.request q)
  | configure (name : String) {d d' : DeviceSetup} (hd : D d d') :
    Alike D (.request (.configureDevice name d)) (.request (.configureDevice name d'))

namespace Call

theorem answer_of_resemble {x : Reconciler.Action σ α} {y : Reconciler.Action υ α} (f : α → Answer)
    (hxy : Resemble R x y) {s : σ} {t : υ} (h : R s t) :
    Answer.ofResult f (x.run.run s).1 = Answer.ofResult f (y.run.run t).1 ∧
      R (x.run.run s).2 (y.run.run t).2 := by
  obtain ⟨hresult, hstate⟩ := hxy s t h
  exact ⟨by rw [hresult], hstate⟩

theorem run_alike (hb : b.Resembles b' R D) {c c' : Call} (hc : c.Alike D c') {s : σ} {t : υ}
    (h : R s t) :
    ((c.run b).run s).1 = ((c'.run b').run t).1 ∧ R ((c.run b).run s).2 ((c'.run b').run t).2 := by
  cases hc with
  | bringUp hr ms =>
    exact answer_of_resemble (fun _ => .done) (Reconciler.resemble_bringUp hb hr ms) h
  | takeDown hr => exact answer_of_resemble (fun _ => .done) (Reconciler.resemble_takeDown hb hr) h
  | status hr => exact answer_of_resemble .status (Reconciler.resemble_status hb hr) h
  | request q =>
    obtain ⟨result, s', t', hs, ht, hstate⟩ := (hb.same q).exists_run h
    rw [run_request, run_request, hs, ht]
    cases result <;> exact ⟨rfl, hstate⟩
  | configure name hd =>
    obtain ⟨result, s', t', hs, ht, hstate⟩ := (hb.configure name _ _ hd).exists_run h
    rw [run_request, run_request, hs, ht]
    cases result <;> exact ⟨rfl, hstate⟩

theorem runAll_alike (hb : b.Resembles b' R D) {cs cs' : List Call}
    (hcs : List.Forall₂ (Call.Alike D) cs cs') {s : σ} {t : υ} (h : R s t) :
    ((runAll b cs).run s).1 = ((runAll b' cs').run t).1 ∧
      R ((runAll b cs).run s).2 ((runAll b' cs').run t).2 := by
  induction hcs generalizing s t with
  | nil => exact ⟨rfl, h⟩
  | cons hc _ ih =>
    obtain ⟨hanswer, hstate⟩ := run_alike hb hc h
    obtain ⟨hanswers, hend⟩ := ih hstate
    rw [runAll_cons, runAll_cons, hanswer, hanswers]
    exact ⟨rfl, hend⟩

theorem alike_self (hD : ∀ d, D d d) (c : Call) : c.Alike D c := by
  have hr (r : Reconciler) : r.Alike D r := by
    refine ⟨rfl, rfl, rfl, fun ms => ?_⟩
    cases r.setup ms with
    | error e => exact .inl ⟨e, rfl, rfl⟩
    | ok d => exact .inr ⟨d, d, rfl, rfl, hD d⟩
  cases c with
  | bringUp r ms => exact .bringUp (hr r) ms
  | takeDown r => exact .takeDown (hr r)
  | status r => exact .status (hr r)
  | request q => exact .request q

end Call

end OverlayTunnel
