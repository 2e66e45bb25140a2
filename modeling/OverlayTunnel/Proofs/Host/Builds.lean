import OverlayTunnel.Proofs.Host.InOrder
import OverlayTunnel.Proofs.Host.Remembered

/-!
What requests build for the host and what they give to it. Every request builds its programs and files from the
name of its link, and the host is given no others.
-/
namespace OverlayTunnel

open HostLinks (texts lookup probe creation application configFile peersToReset resetArguments Traces
  backend)

variable {τ α β : Type}

/-! ### What requests build -/

namespace LinkRequest

/-- The programs that are run for a request if all goes well. -/
def invocations : LinkRequest → List Invocation
  | .createWireguard name => [creation name]
  | .device name => [lookup name, probe, ⟨.wg, texts ["show", name, "dump"]⟩]
  | .configureDevice name setup =>
    probe :: application name setup ::
      (peersToReset setup).map fun p => ⟨.wg, resetArguments name p⟩
  | .linkByName name => [lookup name]
  | .replaceAddress link address =>
    [⟨.ip, texts ["addr", "replace", address.text, "dev", link.name]⟩]
  | .setMtu link mtu =>
    [⟨.ip, texts ["link", "set", "dev", link.name, "mtu", Numeral.decimal mtu.toNat]⟩]
  | .setUp link => [⟨.ip, texts ["link", "set", "dev", link.name, "up"]⟩]
  | .addRoute link destination =>
    [⟨.ip, texts ["route", "add", destination.text, "dev", link.name, "scope", "link"]⟩]
  | .deleteLink link => [⟨.ip, texts ["link", "delete", "dev", link.name]⟩]

/-- The files that are written for a request. -/
def files : LinkRequest → List ConfigFile
  | .configureDevice name setup => [configFile name setup]
  | _ => []

end LinkRequest

theorem isPassable_probe : probe.isPassable = true := by
  decide

theorem isPassable_show {name : String} (hname : IsPassable name) :
    ∀ a ∈ ["show", name, "dump"], IsPassable a := by
  simp only [List.forall_mem_cons]
  exact ⟨by decide, hname, by decide, by simp⟩

theorem LinkRequest.isPassable_of_target {q : LinkRequest} (hname : IsPassable q.target) :
    ∀ i ∈ q.invocations, i.isPassable = true := by
  cases q with
  | createWireguard name =>
    exact List.forall_mem_singleton.mpr (isPassable_texts .ip (isPassable_add hname))
  | device name =>
    simp only [invocations, List.forall_mem_cons]
    exact ⟨isPassable_texts .ip (isPassable_describe hname), isPassable_probe,
      isPassable_texts .wg (isPassable_show hname), by simp⟩
  | configureDevice name setup =>
    simp only [invocations, List.forall_mem_cons, List.forall_mem_map]
    exact ⟨isPassable_probe, HostLinks.isPassable_application hname, fun p _ =>
      isPassable_resetArguments hname p⟩
  | linkByName name =>
    exact List.forall_mem_singleton.mpr (isPassable_texts .ip (isPassable_describe hname))
  | replaceAddress link address =>
    exact List.forall_mem_singleton.mpr (isPassable_texts .ip (isPassable_replaceAddress hname address))
  | setMtu link mtu =>
    exact List.forall_mem_singleton.mpr (isPassable_texts .ip (isPassable_setMtu hname mtu))
  | setUp link =>
    exact List.forall_mem_singleton.mpr (isPassable_texts .ip (isPassable_setUp hname))
  | addRoute link destination =>
    exact List.forall_mem_singleton.mpr (isPassable_texts .ip (isPassable_addRoute hname destination))
  | deleteLink link =>
    exact List.forall_mem_singleton.mpr (isPassable_texts .ip (isPassable_delete hname))

/-- Every request has a program with the name of its link among the arguments. -/
theorem LinkRequest.exists_invocation (q : LinkRequest) :
    ∃ i ∈ q.invocations, Argument.text q.target ∈ i.arguments := by
  cases q <;> simp [invocations, target, creation, lookup, application, texts]

/-- The programs of a request can be run exactly if the name of its link can be passed on. -/
theorem LinkRequest.isPassable_iff (q : LinkRequest) :
    (∀ i ∈ q.invocations, i.isPassable = true) ↔ IsPassable q.target := by
  constructor
  · intro hall
    obtain ⟨i, hi, hs⟩ := q.exists_invocation
    exact Invocation.isPassable_of_mem (hall i hi) hs
  · exact isPassable_of_target

/-! ### What operations run and write -/

/-- Why the host did not do what it was asked for, if it did not. -/
def HostStep.refusal? : HostStep → Option String
  | .ran _ (.notStarted reason) => some reason
  | .wrote _ (.error reason) => some reason
  | _ => none

def nulFound : LinkFailure :=
  .io "nul byte found in provided data"

/-- What was done for an operation, where `is` are the programs and `fs` the files that it builds. -/
structure Hands (is : List Invocation) (fs : List ConfigFile) (reply : Except LinkFailure α)
    (steps : List HostStep) : Prop where
  ran : ∀ i outcome, .ran i outcome ∈ steps → i ∈ is ∧ i.isPassable = true
  wrote : ∀ f written, .wrote f written ∈ steps → f ∈ fs
  /-- The host may refuse what it is given, and is not given what cannot be passed. -/
  io : ∀ reason, reply = .error (.io reason) → (∃ step ∈ steps, step.refusal? = some reason) ∨
    LinkFailure.io reason = nulFound ∧ ∃ i ∈ is, i.isPassable = false

namespace Hands

variable {is : List Invocation} {fs : List ConfigFile} {reply : Except LinkFailure α}
  {steps later : List HostStep}

theorem nil (h : ∀ reason, reply ≠ .error (.io reason)) : Hands is fs reply [] where
  ran := nofun
  wrote := nofun
  io reason hreply := absurd hreply (h reason)

theorem append {a : β} (h : Hands is fs (.ok a : Except LinkFailure β) steps)
    (hlater : Hands is fs reply later) : Hands is fs reply (steps ++ later) where
  ran i outcome hmem := by
    rcases List.mem_append.mp hmem with hmem | hmem
    · exact h.ran i outcome hmem
    · exact hlater.ran i outcome hmem
  wrote f written hmem := by
    rcases List.mem_append.mp hmem with hmem | hmem
    · exact h.wrote f written hmem
    · exact hlater.wrote f written hmem
  io reason hreply := by
    rcases hlater.io reason hreply with ⟨step, hmem, hrefusal⟩ | hnul
    · exact .inl ⟨step, List.mem_append_right _ hmem, hrefusal⟩
    · exact .inr hnul

theorem removed (h : Hands is fs reply steps) (f : ConfigFile) :
    Hands is fs reply (steps ++ [.removed f]) where
  ran i outcome hmem := h.ran i outcome (by simpa using hmem)
  wrote g written hmem := h.wrote g written (by simpa using hmem)
  io reason hreply := by
    rcases h.io reason hreply with ⟨step, hmem, hrefusal⟩ | hnul
    · exact .inl ⟨step, List.mem_append_left _ hmem, hrefusal⟩
    · exact .inr hnul

theorem of_wrote {f : ConfigFile} {written : Except String Unit} (hf : f ∈ fs)
    (h : ∀ reason, reply = .error (.io reason) → written = .error reason) :
    Hands is fs reply [.wrote f written] := by
  constructor
  case ran =>
    intro i outcome hmem
    cases List.mem_singleton.mp hmem
  case wrote =>
    intro g written' hmem
    cases List.mem_singleton.mp hmem
    exact hf
  case io =>
    intro reason hreply
    rw [h reason hreply]
    exact .inl ⟨_, List.mem_singleton_self _, rfl⟩

theorem of_ran {i : Invocation} {output : Except LinkFailure String} (hi : i ∈ is)
    (h : HostLinks.Ran i output steps) : Hands is fs output steps := by
  cases h with
  | unpassable hpass =>
    refine ⟨nofun, nofun, ?_⟩
    rintro reason ⟨⟩
    exact .inr ⟨rfl, i, hi, hpass⟩
  | ended hpass o =>
    constructor
    case ran =>
      intro j outcome hmem
      cases List.mem_singleton.mp hmem
      exact ⟨hi, hpass⟩
    case wrote =>
      intro f written hmem
      cases List.mem_singleton.mp hmem
    case io =>
      intro reason hreply
      refine .inl ⟨_, List.mem_singleton_self _, ?_⟩
      cases o with
      | notStarted why =>
        cases hreply
        rfl
      | exited code stdout stderr =>
        unfold HostLinks.reading at hreply
        dsimp only at hreply
        split at hreply
        · exact absurd (Except.error.inj hreply) (HostLinks.failureOf_ne_io i stderr reason)
        · cases hreply

end Hands

/-- An operation that runs and writes no more than it builds. -/
abbrev Builds (is : List Invocation) (fs : List ConfigFile)
    (x : LinkM (HostLinks (τ × List HostStep)) α) : Prop :=
  Traces x fun _ reply steps _ => Hands is fs reply steps

namespace Builds

variable {h : Host τ} {is : List Invocation} {fs : List ConfigFile} {name : String}
  {setup : DeviceSetup}

theorem pure (a : α) : Builds is fs (ExceptT.mk (Pure.pure (.ok a)) :
    LinkM (HostLinks (τ × List HostStep)) α) :=
  Traces.pure _ fun _ => .nil nofun

theorem throw {e : LinkFailure} (he : ∀ reason, e ≠ .io reason) :
    Builds is fs (ExceptT.mk (Pure.pure (.error e)) : LinkM (HostLinks (τ × List HostStep)) α) :=
  Traces.pure _ fun _ => .nil fun reason hreply => he reason (Except.error.inj hreply)

theorem bind {x : LinkM (HostLinks (τ × List HostStep)) α}
    {f : α → LinkM (HostLinks (τ × List HostStep)) β} (hx : Builds is fs x)
    (hf : ∀ a, Builds is fs (f a)) : Builds is fs (x >>= f) := by
  refine Traces.bind hx hf ?_ ?_
  · intro c e steps c' h
    refine ⟨h.ran, h.wrote, fun reason hreply => h.io reason ?_⟩
    rw [Except.error.inj hreply]
  · intro c a steps c₁ reply later c₂ h hlater
    exact h.append hlater

theorem run {program : Program} {arguments : List Argument} (hi : ⟨program, arguments⟩ ∈ is) :
    Builds is fs (HostLinks.run h.logging program arguments) :=
  (HostLinks.traces_run program arguments).mono fun _ _ _ _ hran => .of_ran hi hran.2

theorem ip {arguments : List String} (hi : ⟨.ip, texts arguments⟩ ∈ is) :
    Builds is fs (HostLinks.ip h.logging arguments) :=
  (run hi).bind fun _ => pure ()

theorem linkByName (hi : lookup name ∈ is) : Builds is fs (HostLinks.linkByName h.logging name) := by
  refine (run hi).bind fun output => ?_
  cases HostLinks.indexOf? output.toList with
  | none => exact throw nofun
  | some index => exact pure _

theorem requireTool (hi : probe ∈ is) : Builds is fs (HostLinks.requireTool h.logging) := by
  refine HostLinks.traces_requireTool.mono ?_
  rintro c reply steps c' ⟨answer, hcheck, -, rfl⟩
  have hok : ∀ reason,
      (if answer then Except.ok () else .error HostLinks.lacksTool) ≠ .error (.io reason) := by
    cases answer <;> simp [HostLinks.lacksTool]
  cases hcheck with
  | known _ => exact .nil hok
  | asked o =>
    refine ⟨?_, ?_, fun reason hreply => absurd hreply (hok reason)⟩
    · intro i outcome hmem
      cases List.mem_singleton.mp hmem
      exact ⟨hi, isPassable_probe⟩
    · intro f written hmem
      cases List.mem_singleton.mp hmem

theorem device (hlink : lookup name ∈ is) (hprobe : probe ∈ is)
    (hshow : ⟨.wg, texts ["show", name, "dump"]⟩ ∈ is) :
    Builds is fs (HostLinks.device h.logging name) := by
  refine (linkByName hlink).bind fun _ => (requireTool hprobe).bind fun _ => (run hshow).bind fun dump => ?_
  cases Device.ofDump name dump with
  | error e => exact throw nofun
  | ok d => exact pure d

theorem forM {ι : Type} {f : ι → LinkM (HostLinks (τ × List HostStep)) Unit} {xs : List ι}
    (hf : ∀ x ∈ xs, Builds is fs (f x)) : Builds is fs (xs.forM f) := by
  induction xs with
  | nil => exact pure ()
  | cons x xs ih =>
    exact (hf x List.mem_cons_self).bind fun _ => ih fun y hy => hf y (List.mem_cons_of_mem x hy)

theorem removeFile {act : LinkM (HostLinks (τ × List HostStep)) α} (hact : Builds is fs act)
    (f : ConfigFile) : Builds is fs (HostLinks.andThen act (h.logging.removeFile f)) := by
  refine (HostLinks.Traces.andThen_removeFile hact).mono ?_
  rintro c reply steps c' ⟨earlier, hands, rfl⟩
  exact hands.removed f

theorem applyFile (hi : ∀ i ∈ (LinkRequest.configureDevice name setup).invocations, i ∈ is) :
    Builds is fs (HostLinks.applyFile h.logging name setup) := by
  simp only [LinkRequest.invocations, List.forall_mem_cons, List.forall_mem_map] at hi
  exact (run hi.2.1).bind fun _ => forM fun p hp => (run (hi.2.2 p hp)).bind fun _ => pure ()

theorem configureDevice (hi : ∀ i ∈ (LinkRequest.configureDevice name setup).invocations, i ∈ is)
    (hf : configFile name setup ∈ fs) :
    Builds is fs (HostLinks.configureDevice h.logging name setup) := by
  have hprobe : probe ∈ is := hi _ List.mem_cons_self
  -- Only here does a failure come from a file, so what follows the attempt to write it is told apart.
  refine (requireTool hprobe).bind fun _ => Traces.bind (HostLinks.traces_onHost_write _)
    (R := fun written _ reply steps _ =>
      (∃ reason, written = .error reason ∧ reply = .error (.io reason) ∧ steps = []) ∨
        Hands is fs reply steps) (fun written => ?_) ?_ ?_
  · cases written with
    | error reason => exact Traces.pure _ fun _ => .inl ⟨reason, rfl, rfl, rfl⟩
    | ok _ => exact ((applyFile hi).removeFile _).mono fun _ _ _ _ hands => .inr hands
  · rintro c e steps c' ⟨-, written, hresult, -⟩
    cases hresult
  · rintro c written steps c₁ reply later c₂ ⟨-, _, hresult, rfl⟩ hlater
    cases hresult
    rcases hlater with ⟨reason, rfl, rfl, rfl⟩ | hands
    · exact .of_wrote hf fun _ hreply => by rw [LinkFailure.io.inj (Except.error.inj hreply)]
    · have hwrote : Hands is fs (.ok () : Except LinkFailure Unit) [.wrote (configFile name setup) written] :=
        .of_wrote hf nofun
      exact hwrote.append hands

theorem perform (q : LinkRequest) : Builds q.invocations q.files ((backend h.logging).perform q) := by
  cases q with
  | device name =>
    apply device
    all_goals simp [LinkRequest.invocations]
  | configureDevice name setup => exact configureDevice (fun _ hi => hi) (List.mem_singleton_self _)
  | linkByName name => exact linkByName (List.mem_singleton_self _)
  | _ => exact ip (List.mem_singleton_self _)

end Builds

end OverlayTunnel
