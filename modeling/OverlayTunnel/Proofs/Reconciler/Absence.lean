import OverlayTunnel.Proofs.Reconciler.Logging
import OverlayTunnel.Proofs.Table.Reachable

/-!
Interfaces that are gone when they are to be taken down. A call asks for the device, for the link and for its
removal, and each of the three may find nothing there. Only the first report of this kind is taken for what the
call is to achieve; after that it is the failure of the call.
-/
namespace OverlayTunnel

variable {σ : Type}

/-- Whether the device of an interface was looked up and there was none. -/
def Failure.foundGone : Failure → Bool
  | .link .lookupDevice _ e => e.isNotFound
  | _ => false

@[simp] theorem Failure.foundGone_link {phase : Phase} {interface : String} {e : LinkFailure} :
    Failure.foundGone (.link phase interface e) = true ↔
      phase = .lookupDevice ∧ e.isNotFound = true := by
  cases phase <;> simp [Failure.foundGone]

@[simp] theorem LinkFailure.isNotFound_notFound (what : String) :
    (LinkFailure.notFound what).isNotFound = true :=
  rfl

theorem Follows.fault_of_failure {interface : String} {plan : List LinkRequest} {log : List Exchange}
    {f : Failure} (h : Follows interface plan log (some f)) :
    ∃ e ∈ log, ∃ fault, e.fault? = some fault ∧ f = .link e.request.phase interface fault := by
  generalize hsome : some f = ended at h
  induction h with
  | done => cases hsome
  | past _ _ ih =>
    obtain ⟨e, he, hfault⟩ := ih hsome
    exact ⟨e, List.mem_cons_of_mem _ he, hfault⟩
  | @stop e fault _ hfault =>
    cases hsome
    exact ⟨e, List.mem_singleton_self e, fault, hfault, rfl⟩

namespace Reconciler

variable {r : Reconciler} {log : List Exchange} {result : Except Failure Unit}

/-! ### The conversation -/

/-- What a call to take an interface down asks for, where `link` is the handle that the lookup returns. -/
def removalPlan (r : Reconciler) (link : LinkHandle) : List LinkRequest :=
  [.device r.interface, .linkByName r.interface, .deleteLink link]

/-- A device that is not there ends the plan without being a failure. -/
def LooksUp (r : Reconciler) (new : List Exchange) (result : Except Failure (Option Device)) : Prop :=
  ∃ ended, Follows r.interface [.device r.interface] new ended ∧
    match result with
    | .ok (some _) => ended = none
    | .ok none => ∃ f, ended = some f ∧ f.foundGone = true
    | .error f => ended = some f ∧ f.foundGone = false

theorem conducts_status (b : Backend σ) (r : Reconciler) :
    Conducts (r.status b.logging) (r.status b) r.LooksUp := by
  intro s log
  refine ⟨[⟨.device r.interface, ((b.perform (.device r.interface)).run.run s).1⟩], ?_, ?_⟩
  · rw [run_status, run_status, Backend.run_logging]
    rcases (b.perform (.device r.interface)).run.run s with ⟨_ | _, _⟩ <;> rfl
  · rw [run_status]
    rcases (b.perform (.device r.interface)).run.run s with ⟨e | d, s'⟩
    · refine ⟨some (.link .lookupDevice r.interface e), .stop (e := ⟨_, .error e⟩) [] rfl, ?_⟩
      cases hgone : e.isNotFound <;> simp [hgone, Failure.foundGone]
    · exact ⟨none, .past (e := ⟨_, .ok d⟩) rfl .done, rfl⟩

/-- The exchanges follow the plan, and the call fails as the plan does unless the device was gone. -/
def TakesDown (r : Reconciler) (new : List Exchange) (result : Except Failure Unit) : Prop :=
  ∃ link ended, r.LookedUp new link ∧ Follows r.interface (r.removalPlan link) new ended ∧
    failure? result = ended.filter fun f => !f.foundGone

theorem lookedUp_of_device {ended : Option Failure} (link : LinkHandle)
    (h : Follows r.interface [.device r.interface] log ended) : r.LookedUp log link :=
  lookedUp_of_follows h (by simp [LinkRequest.operation])

theorem TakesDown.of_device {f : Failure} (h : Follows r.interface [.device r.interface] log (some f))
    (hresult : failure? result = if f.foundGone then none else some f) : r.TakesDown log result := by
  refine ⟨⟨r.interface, 0⟩, some f, lookedUp_of_device _ h, h.append_of_failed _, ?_⟩
  rw [hresult]
  cases hgone : f.foundGone <;> simp [Option.filter, hgone]

/-- Nothing after the lookup of the device finds it gone. -/
theorem filter_foundGone_of_follows {qs : List LinkRequest} {ended : Option Failure}
    (h : Follows r.interface qs log ended) (hqs : ∀ q ∈ qs, q.phase ≠ .lookupDevice) :
    ended.filter (fun f => !f.foundGone) = ended := by
  cases ended with
  | none => rfl
  | some f =>
    obtain ⟨e, he, fault, -, rfl⟩ := h.fault_of_failure
    have hphase := hqs _ (h.requests_isPrefix.subset (List.mem_map_of_mem he))
    have hthere : ¬ Failure.foundGone (.link e.request.phase r.interface fault) = true := by
      simp [hphase]
    simp [Option.filter, hthere]

theorem conducts_takeDown (b : Backend σ) (r : Reconciler) :
    Conducts (r.takeDown b.logging) (r.takeDown b) r.TakesDown := by
  unfold takeDown
  refine (conducts_status b r).bind
    (R := fun d new result => if d.isSome then
      Planned r (fun link => [.linkByName r.interface, .deleteLink link]) new result
      else new = [] ∧ result = .ok ()) ?_ ?_ ?_
  · intro d
    cases d with
    | none => exact Conducts.pure (.ok ()) ⟨rfl, rfl⟩
    | some d =>
      refine Conducts.lookup b ?_ fun link => ?_
      · simp [LinkRequest.operation]
      · exact conducts_step b (.deleteLink link) rfl
  · rintro new f ⟨ended, hfollows, rfl, hf⟩
    exact TakesDown.of_device hfollows (by simp [failure?, hf])
  · rintro new (_ | d) new' result ⟨ended, hfollows, hended⟩ hrest
    · obtain ⟨f, rfl, hf⟩ := hended
      obtain ⟨rfl, rfl⟩ := hrest
      rw [List.append_nil]
      exact TakesDown.of_device hfollows (by simp [failure?, hf])
    · obtain rfl : ended = none := hended
      obtain ⟨link, hlink, hplan⟩ := hrest
      have hfilter := filter_foundGone_of_follows hplan (by simp [LinkRequest.phase])
      exact ⟨link, _, (lookedUp_of_device link hfollows).append hlink, hfollows.append hplan, hfilter.symm⟩

/-! ### Reports of absence -/

/-- What becomes of reports that there is nothing to take down. -/
structure AbsorbsFirst (r : Reconciler) (log : List Exchange) (result : Except Failure Unit) : Prop where
  /-- The requests are the first ones of the plan for the handle that was looked up. -/
  planned : ∃ link, r.LookedUp log link ∧ log.map Exchange.request <+: r.removalPlan link
  /-- The call goes on only after replies that are no faults. -/
  passed : ∀ e ∈ log.dropLast, e.fault? = none
  /-- A report is taken for success if it is on the device, and only then. -/
  absorbed : ∀ e ∈ log, ∀ what, e.fault? = some (.notFound what) →
    (result = .ok () ↔ e.request.phase = .lookupDevice)
  /-- Reports on the link and on its removal are the failures of this kind, and there are no others. -/
  source : ∀ phase interface what, result = .error (.link phase interface (.notFound what)) ↔
    interface = r.interface ∧ phase ≠ .lookupDevice ∧
      ∃ e ∈ log, e.request.phase = phase ∧ e.fault? = some (.notFound what)

theorem failure?_eq_none_iff : failure? result = none ↔ result = .ok () := by
  cases result <;> simp [failure?]

theorem failure?_eq_some_iff {f : Failure} : failure? result = some f ↔ result = .error f := by
  cases result <;> simp [failure?]

theorem TakesDown.absorbsFirst (h : r.TakesDown log result) : r.AbsorbsFirst log result := by
  obtain ⟨link, ended, hlink, hfollows, hresult⟩ := h
  constructor
  case planned => exact ⟨link, hlink, hfollows.requests_isPrefix⟩
  case passed => exact hfollows.passed_of_mem_dropLast
  case absorbed =>
    intro e he what hfault
    have hended := hfollows.failure_of_fault he hfault
    rw [← failure?_eq_none_iff, hresult, hended]
    simp [Option.filter_eq_none_iff]
  case source =>
    intro phase interface what
    rw [← failure?_eq_some_iff, hresult, Option.filter_eq_some_iff]
    constructor
    · rintro ⟨rfl, hthere⟩
      obtain ⟨e, he, fault, hfault, heq⟩ := hfollows.fault_of_failure
      cases heq
      exact ⟨rfl, by simpa [← Bool.not_eq_true] using hthere, e, he, rfl, hfault⟩
    · rintro ⟨rfl, hphase, e, he, rfl, hfault⟩
      exact ⟨hfollows.failure_of_fault he hfault, by simpa [← Bool.not_eq_true] using hphase⟩

/-- Whatever a backend replies, a call to take an interface down asks for the device, the link and its removal
in turn. It succeeds if the first of them is reported to be missing, and fails, with that report as its
source, if one of the other two is. -/
theorem takeDown_absence (b : Backend σ) (r : Reconciler) (s : σ) :
    ∃ log, (r.takeDown b.logging).run.run (s, []) =
        (((r.takeDown b).run.run s).1, ((r.takeDown b).run.run s).2, log) ∧
      r.AbsorbsFirst log ((r.takeDown b).run.run s).1 := by
  obtain ⟨log, hrun, h⟩ := conducts_takeDown b r s []
  exact ⟨log, hrun, h.absorbsFirst⟩

end Reconciler

/-- A table whose links are removed by someone else as soon as their devices have been read. -/
def LinkTable.vanishing : Backend LinkTable where
  perform q := ExceptT.mk do
    let reply ← (LinkTable.backend.perform q).run
    if q.operation = .device then modify fun t => { t with links := t.links.set q.target none }
    return reply

namespace Reconciler

/-- A link that goes away after its device was found makes the call fail. -/
theorem not_takeDown_of_absence :
    ¬ ∀ (σ : Type) (b : Backend σ) (r : Reconciler) (s s' : σ) (log : List Exchange)
      (result : Except Failure Unit),
      (r.takeDown b.logging).run.run (s, []) = (result, s', log) →
      (∃ e ∈ log, ∃ what, e.fault? = some (.notFound what)) → result = .ok () := by
  intro hall
  let r := sampleNode 0x0A010203 sampleKey
  let t := LinkTable.after [.call (.request (.createWireguard r.interface))]
  let lookup : Exchange := ⟨.linkByName r.interface, .error (.notFound "Cannot find device \"wgoverlay\"")⟩
  have hlog : ∃ t' log, (r.takeDown LinkTable.vanishing.logging).run.run (t, []) =
      (.error (.link .lookupLink r.interface (.notFound "Cannot find device \"wgoverlay\"")), t', log) ∧
        lookup ∈ log :=
    ⟨_, _, rfl, List.mem_cons_of_mem _ (List.mem_singleton_self _)⟩
  obtain ⟨t', log, hrun, hmem⟩ := hlog
  have hok := hall _ _ _ _ _ _ _ hrun ⟨lookup, hmem, _, rfl⟩
  cases hok

end Reconciler

end OverlayTunnel
