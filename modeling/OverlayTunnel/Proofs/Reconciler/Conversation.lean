import OverlayTunnel.Proofs.Member.Peers
import OverlayTunnel.Proofs.Reconciler.Actions
import OverlayTunnel.Proofs.Reconciler.Setup

/-!
What a call asks of a backend, whatever the backend replies. The requests follow a plan up to the first
reply that is a fault, and that fault is the failure of the call.
-/
namespace OverlayTunnel

/-- A request with the reply that it got. -/
structure Exchange where
  request : LinkRequest
  reply : Except LinkFailure request.Reply

/-- Whether a request is for something that may already be there. -/
def LinkRequest.mayExist : LinkRequest → Bool
  | .createWireguard _ => true
  | .addRoute .. => true
  | _ => false

/-- The phase of a call that a request belongs to. -/
def LinkRequest.phase : LinkRequest → Phase
  | .createWireguard _ => .createLink
  | .device _ => .lookupDevice
  | .configureDevice .. => .configureDevice
  | .linkByName _ => .lookupLink
  | .replaceAddress .. => .replaceAddress
  | .setMtu .. => .setMtu
  | .setUp _ => .setUp
  | .addRoute _ destination => .addRoute destination
  | .deleteLink _ => .deleteLink

/-- The failure that a reply brings, if the call is not to go on after it. -/
def Exchange.fault? (e : Exchange) : Option LinkFailure :=
  match e.reply with
  | .ok _ => none
  | .error f => if e.request.mayExist && f.isAlreadyExists then none else some f

variable {σ α β : Type}

/-- A backend that also keeps the requests and their replies, in order. -/
def Backend.logging (b : Backend σ) : Backend (σ × List Exchange) where
  perform request := ExceptT.mk fun (s, log) =>
    let (reply, s) := (b.perform request).run.run s
    (reply, s, log ++ [⟨request, reply⟩])

/-- Logging changes neither the reply nor the state. -/
theorem Backend.run_logging (b : Backend σ) (request : LinkRequest) (s : σ) (log : List Exchange) :
    (b.logging.perform request).run.run (s, log) =
      (((b.perform request).run.run s).1, ((b.perform request).run.run s).2,
        log ++ [⟨request, ((b.perform request).run.run s).1⟩]) :=
  rfl

/-! ### Following a plan -/

/-- Exchanges that follow a plan of requests up to the first fault, and the failure that this makes of a
call for an interface. -/
inductive Follows (interface : String) :
    List LinkRequest → List Exchange → Option Failure → Prop
  | done : Follows interface [] [] none
  | past {e : Exchange} {plan : List LinkRequest} {log : List Exchange} {failure : Option Failure}
    (passed : e.fault? = none) (rest : Follows interface plan log failure) :
    Follows interface (e.request :: plan) (e :: log) failure
  | stop {e : Exchange} {fault : LinkFailure} (plan : List LinkRequest) (h : e.fault? = some fault) :
    Follows interface (e.request :: plan) [e] (some (.link e.request.phase interface fault))

namespace Follows

variable {interface : String} {plan later : List LinkRequest} {log log' : List Exchange}
  {failure : Option Failure} {f : Failure}

theorem append (h : Follows interface plan log none) (h' : Follows interface later log' failure) :
    Follows interface (plan ++ later) (log ++ log') failure := by
  generalize hnone : (none : Option Failure) = ended at h
  induction h with
  | done => exact h'
  | past passed _ ih => exact .past passed (ih hnone)
  | stop _ _ => cases hnone

/-- A call that has failed asks for nothing more. -/
theorem append_of_failed (h : Follows interface plan log (some f)) (later : List LinkRequest) :
    Follows interface (plan ++ later) log (some f) := by
  generalize hsome : some f = ended at h ⊢
  induction h with
  | done => cases hsome
  | past passed _ ih => exact .past passed (ih hsome)
  | stop plan hfault => exact .stop (plan ++ later) hfault

theorem requests_isPrefix (h : Follows interface plan log failure) :
    log.map Exchange.request <+: plan := by
  induction h with
  | done => exact List.prefix_rfl
  | past _ _ ih => simpa using ih
  | stop plan _ => simp

theorem passed_of_mem_dropLast (h : Follows interface plan log failure) :
    ∀ e ∈ log.dropLast, e.fault? = none := by
  induction h with
  | done => simp
  | @past e plan log _ passed _ ih =>
    intro e' he'
    cases log with
    | nil => simp at he'
    | cons next log =>
      rw [List.dropLast_cons_of_ne_nil (by simp)] at he'
      rcases List.mem_cons.mp he' with rfl | he'
      · exact passed
      · exact ih e' he'
  | stop _ _ => simp

theorem failure_of_fault (h : Follows interface plan log failure) {e : Exchange} (he : e ∈ log)
    {fault : LinkFailure} (hfault : e.fault? = some fault) :
    failure = some (.link e.request.phase interface fault) := by
  induction h with
  | done => simp at he
  | past passed _ ih =>
    rcases List.mem_cons.mp he with rfl | he
    · rw [passed] at hfault
      cases hfault
    · exact ih he
  | stop _ h =>
    obtain rfl := List.mem_singleton.mp he
    rw [h] at hfault
    cases hfault
    rfl

/-- A plan of one request is carried out in any case. -/
theorem requests_of_single {q : LinkRequest} (h : Follows interface [q] log failure) :
    log.map Exchange.request = [q] := by
  generalize hplan : [q] = plan at h ⊢
  cases h with
  | done => cases hplan
  | past _ rest =>
    obtain ⟨-, rfl⟩ := List.cons.inj hplan
    rw [List.map_cons, List.prefix_nil.mp rest.requests_isPrefix]
  | stop plan _ =>
    obtain ⟨-, rfl⟩ := List.cons.inj hplan
    rfl

/-- Where no reply is a fault the whole plan is carried out. -/
theorem requests_of_passed (h : Follows interface plan log failure)
    (hall : ∀ e ∈ log, e.fault? = none) :
    log.map Exchange.request = plan ∧ failure = none := by
  induction h with
  | done => exact ⟨rfl, rfl⟩
  | past _ _ ih =>
    obtain ⟨hrequests, hnone⟩ := ih fun e he => hall e (List.mem_cons_of_mem _ he)
    exact ⟨by rw [List.map_cons, hrequests], hnone⟩
  | stop _ h =>
    rw [hall _ List.mem_cons_self] at h
    cases h

theorem passed_of_succeeded (h : Follows interface plan log none) :
    ∀ e ∈ log, e.fault? = none := by
  intro e he
  cases hfault : e.fault? with
  | none => rfl
  | some fault =>
    have hfailed := h.failure_of_fault he hfault
    cases hfailed

end Follows

namespace Reconciler

/-! ### What actions ask for -/

def failure? : Except Failure α → Option Failure
  | .ok _ => none
  | .error f => some f

/-- An action over a backend that logs does what it does over the backend itself, and its exchanges and
result are as `Q` says. -/
def Conducts (x : Action (σ × List Exchange) α) (y : Action σ α)
    (Q : List Exchange → Except Failure α → Prop) : Prop :=
  ∀ s log, ∃ new, x.run.run (s, log) = ((y.run.run s).1, (y.run.run s).2, log ++ new) ∧
    Q new (y.run.run s).1

theorem Conducts.pure (result : Except Failure α) {Q : List Exchange → Except Failure α → Prop}
    (h : Q [] result) :
    Conducts (ExceptT.mk (Pure.pure result)) (ExceptT.mk (Pure.pure result) : Action σ α) Q := by
  intro s log
  refine ⟨[], ?_, h⟩
  rw [List.append_nil]
  rfl

theorem Conducts.bind {x : Action (σ × List Exchange) α} {y : Action σ α}
    {f : α → Action (σ × List Exchange) β} {g : α → Action σ β}
    {P : List Exchange → Except Failure α → Prop} {Q : List Exchange → Except Failure β → Prop}
    {R : α → List Exchange → Except Failure β → Prop} (hx : Conducts x y P)
    (hf : ∀ a, Conducts (f a) (g a) (R a)) (herror : ∀ new e, P new (.error e) → Q new (.error e))
    (hok : ∀ new a new' result, P new (.ok a) → R a new' result → Q (new ++ new') result) :
    Conducts (x >>= f) (y >>= g) Q := by
  intro s log
  obtain ⟨new, hrun, hp⟩ := hx s log
  rw [Action.run_bind, Action.run_bind, hrun]
  rcases hy : y.run.run s with ⟨e | a, s'⟩
  · rw [hy] at hp
    exact ⟨new, rfl, herror new e hp⟩
  · rw [hy] at hp
    obtain ⟨new', hrun', hr⟩ := hf a s' (log ++ new)
    refine ⟨new ++ new', ?_, hok new a new' _ hp hr⟩
    rw [← List.append_assoc]
    exact hrun'

theorem Conducts.pure_bind {a : α} {f : α → Action (σ × List Exchange) β} {g : α → Action σ β}
    {Q : List Exchange → Except Failure β → Prop} (hf : Conducts (f a) (g a) Q) :
    Conducts (ExceptT.mk (Pure.pure (.ok a)) >>= f) (ExceptT.mk (Pure.pure (.ok a)) >>= g) Q :=
  hf

/-- The exchanges follow a plan, and its failure is that of the action. -/
def Keeping (r : Reconciler) (plan : List LinkRequest) (new : List Exchange)
    (result : Except Failure α) : Prop :=
  Follows r.interface plan new (failure? result)

theorem Conducts.follow {r : Reconciler} {plan later : List LinkRequest}
    {x : Action (σ × List Exchange) α} {y : Action σ α} {f : α → Action (σ × List Exchange) β}
    {g : α → Action σ β} (hx : Conducts x y (Keeping r plan))
    (hf : ∀ a, Conducts (f a) (g a) (Keeping r later)) :
    Conducts (x >>= f) (y >>= g) (Keeping r (plan ++ later)) :=
  hx.bind hf (fun _ _ h => h.append_of_failed later) fun _ _ _ _ h h' => h.append h'

theorem Conducts.forM {ι : Type} {r : Reconciler} {q : ι → LinkRequest}
    {f : ι → Action (σ × List Exchange) Unit} {g : ι → Action σ Unit}
    (hf : ∀ i, Conducts (f i) (g i) (Keeping r [q i])) (is : List ι) :
    Conducts (is.forM f) (is.forM g) (Keeping r (is.map q)) := by
  induction is with
  | nil => exact Conducts.pure (.ok ()) .done
  | cons i is ih => exact (hf i).follow fun _ => ih

/-- A request, whose reply is the value of the action. -/
theorem conducts_request (b : Backend σ) (r : Reconciler) (q : LinkRequest)
    (hq : q.mayExist = false) :
    Conducts (request b.logging r q.phase q) (request b r q.phase q) fun new result =>
      Keeping r [q] new result ∧ ∀ reply, ⟨q, .ok reply⟩ ∈ new → result = .ok reply := by
  intro s log
  refine ⟨[⟨q, ((b.perform q).run.run s).1⟩], rfl, ?_⟩
  rw [run_request]
  cases hreply : ((b.perform q).run.run s).1 with
  | ok reply =>
    refine ⟨.past (e := ⟨q, .ok reply⟩) rfl .done, ?_⟩
    intro reply' hmem
    cases List.mem_singleton.mp hmem
    rfl
  | error fault =>
    refine ⟨.stop (e := ⟨q, .error fault⟩) [] ?_, ?_⟩
    · simp [Exchange.fault?, hq]
    · intro reply hmem
      cases List.mem_singleton.mp hmem

theorem conducts_ensure (b : Backend σ) (r : Reconciler) (q : LinkRequest)
    (hq : q.mayExist = true) :
    Conducts (ensure b.logging r q.phase q) (ensure b r q.phase q) (Keeping r [q]) := by
  intro s log
  refine ⟨[⟨q, ((b.perform q).run.run s).1⟩], ?_, ?_⟩
  · rw [run_ensure, run_ensure, Backend.run_logging]
    rcases (b.perform q).run.run s with ⟨_ | _, _⟩ <;> rfl
  · rw [run_ensure]
    rcases (b.perform q).run.run s with ⟨fault | reply, s'⟩
    · by_cases hexists : fault.isAlreadyExists = true
      · have hpassed : Exchange.fault? ⟨q, .error fault⟩ = none := by
          simp [Exchange.fault?, hq, hexists]
        dsimp only
        rw [if_pos hexists]
        exact .past hpassed .done
      · have hfault : Exchange.fault? ⟨q, .error fault⟩ = some fault := by
          simp [Exchange.fault?, hexists]
        dsimp only
        rw [if_neg hexists]
        exact .stop [] hfault
    · exact .past (e := ⟨q, .ok reply⟩) rfl .done

/-! ### The whole call -/

/-- What a call asks for if nothing fails, where `peers` are those of the members and `link` is the handle
that the lookup returns. -/
def plan (r : Reconciler) (peers : List TunnelPeer) (link : LinkHandle) (ms : List Member) :
    List LinkRequest :=
  .createWireguard r.interface ::
    .configureDevice r.interface ⟨r.identity.privateKey, r.listenPort, true, peers⟩ ::
    .linkByName r.interface ::
    .replaceAddress link (.host r.identity.overlayAddress) ::
    .setMtu link r.mtu ::
    .setUp link ::
    ms.map fun m => .addRoute link (.host m.overlayAddress)

/-- Where the handle that a call works with comes from. -/
def LookedUp (r : Reconciler) (log : List Exchange) (link : LinkHandle) : Prop :=
  ∀ reply, ⟨.linkByName r.interface, .ok reply⟩ ∈ log → reply = link

variable {r : Reconciler} {ms : List Member} {peers : List TunnelPeer} {link : LinkHandle}
  {log log' : List Exchange}

theorem LookedUp.append (h : r.LookedUp log link) (h' : r.LookedUp log' link) :
    r.LookedUp (log ++ log') link := by
  intro reply hreply
  rcases List.mem_append.mp hreply with hreply | hreply
  · exact h reply hreply
  · exact h' reply hreply

theorem lookedUp_of_follows {qs : List LinkRequest} {failure : Option Failure}
    (h : Follows r.interface qs log failure) (hqs : ∀ q ∈ qs, q.operation ≠ .linkByName) :
    r.LookedUp log link := by
  intro reply hreply
  have hq := h.requests_isPrefix.subset (List.mem_map_of_mem hreply)
  exact absurd rfl (hqs _ hq)

/-- The exchanges follow a plan for the handle that was looked up. -/
def Planned (r : Reconciler) (qs : LinkHandle → List LinkRequest) (new : List Exchange)
    (result : Except Failure α) : Prop :=
  ∃ link, r.LookedUp new link ∧ Keeping r (qs link) new result

theorem Conducts.follow_planned {q : LinkRequest} {qs : LinkHandle → List LinkRequest}
    {x : Action (σ × List Exchange) α} {y : Action σ α} {f : α → Action (σ × List Exchange) β}
    {g : α → Action σ β} (hq : q.operation ≠ .linkByName) (hx : Conducts x y (Keeping r [q]))
    (hf : ∀ a, Conducts (f a) (g a) (Planned r qs)) :
    Conducts (x >>= f) (y >>= g) (Planned r fun link => q :: qs link) := by
  have hother : ∀ p ∈ [q], p.operation ≠ .linkByName := by simpa using hq
  refine hx.bind hf ?_ ?_
  · intro new e h
    exact ⟨⟨r.interface, 0⟩, lookedUp_of_follows h hother, h.append_of_failed (qs ⟨r.interface, 0⟩)⟩
  · rintro new a new' result h ⟨link, hlink, hrest⟩
    exact ⟨link, (lookedUp_of_follows h hother).append hlink, h.append hrest⟩

/-- The lookup settles the handle for what comes after it. -/
theorem Conducts.lookup (b : Backend σ) {qs : LinkHandle → List LinkRequest}
    {f : LinkHandle → Action (σ × List Exchange) β} {g : LinkHandle → Action σ β}
    (hqs : ∀ link, ∀ q ∈ qs link, q.operation ≠ .linkByName)
    (hf : ∀ link, Conducts (f link) (g link) (Keeping r (qs link))) :
    Conducts (request b.logging r .lookupLink (.linkByName r.interface) >>= f)
      (request b r .lookupLink (.linkByName r.interface) >>= g)
      (Planned r fun link => .linkByName r.interface :: qs link) := by
  refine (conducts_request b r (.linkByName r.interface) rfl).bind hf ?_ ?_
  · rintro new e ⟨h, hreply⟩
    refine ⟨⟨r.interface, 0⟩, ?_, h.append_of_failed (qs ⟨r.interface, 0⟩)⟩
    intro reply hmem
    cases hreply reply hmem
  · rintro new link new' result ⟨h, hreply⟩ hrest
    refine ⟨link, LookedUp.append ?_ (lookedUp_of_follows hrest (hqs link)), h.append hrest⟩
    intro reply hmem
    exact (Except.ok.inj (hreply reply hmem)).symm

theorem conducts_step (b : Backend σ) (q : LinkRequest) (hq : q.mayExist = false) :
    Conducts (request b.logging r q.phase q) (request b r q.phase q) (Keeping r [q]) := by
  intro s log
  obtain ⟨new, hrun, h, -⟩ := conducts_request b r q hq s log
  exact ⟨new, hrun, h⟩

theorem conducts_bringUp (b : Backend σ) (hpeers : Member.toPeers r.listenPort ms = .ok peers) :
    Conducts (r.bringUp b.logging ms) (r.bringUp b ms)
      (Planned r fun link => r.plan peers link ms) := by
  have hsetup : r.setup ms = .ok ⟨r.identity.privateKey, r.listenPort, true, peers⟩ :=
    setup_eq_ok_iff.mpr ⟨peers, hpeers, rfl⟩
  unfold bringUp
  rw [hsetup]
  refine (conducts_ensure b r (.createWireguard r.interface) rfl).follow_planned nofun fun _ => ?_
  apply Conducts.pure_bind
  refine (conducts_step b (.configureDevice r.interface _) rfl).follow_planned nofun fun _ => ?_
  refine Conducts.lookup b ?_ fun link => ?_
  · intro link q hq
    simp only [List.mem_cons, List.mem_map] at hq
    rcases hq with rfl | rfl | rfl | ⟨m, -, rfl⟩ <;> nofun
  refine (conducts_step b (.replaceAddress link _) rfl).follow fun _ => ?_
  refine (conducts_step b (.setMtu link r.mtu) rfl).follow fun _ => ?_
  refine (conducts_step b (.setUp link) rfl).follow fun _ => ?_
  exact Conducts.forM (fun m => conducts_ensure b r (.addRoute link (routeTo m)) rfl) ms

/-- With a key that cannot be read, only the link is asked for. -/
theorem conducts_bringUp_unreadable (b : Backend σ) {cause : KeyError}
    (hpeers : Member.toPeers r.listenPort ms = .error cause) :
    Conducts (r.bringUp b.logging ms) (r.bringUp b ms) fun new result =>
      ∃ ended, Follows r.interface [.createWireguard r.interface] new ended ∧
        failure? result = some (ended.getD (.peers r.interface (.ofKey cause))) := by
  have hsetup : r.setup ms = .error (.peers r.interface (.ofKey cause)) := by
    simp only [setup, hpeers]
  unfold bringUp
  rw [hsetup]
  refine (conducts_ensure b r (.createWireguard r.interface) rfl).bind
    (R := fun _ new result => new = [] ∧ result = .error (.peers r.interface (.ofKey cause))) ?_ ?_ ?_
  · intro _
    exact Conducts.pure _ ⟨rfl, rfl⟩
  · exact fun new e h => ⟨some e, h, rfl⟩
  · rintro new _ _ _ h ⟨rfl, rfl⟩
    exact ⟨none, by simpa [Keeping, failure?] using h, rfl⟩

/-- How a call talks to its backend. -/
structure Conversation (r : Reconciler) (ms : List Member) (log : List Exchange)
    (result : Except Failure Unit) : Prop where
  /-- Every reply but the last lets the call go on. -/
  passed : ∀ e ∈ log.dropLast, e.fault? = none
  /-- A fault is the failure of the call. -/
  fault : ∀ e ∈ log, ∀ f, e.fault? = some f →
    result = .error (.link e.request.phase r.interface f)
  /-- The requests are the first ones of the plan, and all of it unless there is a fault. -/
  planned : ∀ peers, Member.toPeers r.listenPort ms = .ok peers → ∃ link, r.LookedUp log link ∧
    log.map Exchange.request <+: r.plan peers link ms ∧
    ((∀ e ∈ log, e.fault? = none) → log.map Exchange.request = r.plan peers link ms)
  /-- The first key that cannot be read ends the call after its first request. -/
  unreadable : ∀ before m later cause, ms = before ++ m :: later →
    (∀ m' ∈ before, ∃ key, PublicKey.ofText m'.publicKey = .ok key) →
    PublicKey.ofText m.publicKey = .error cause →
    log.map Exchange.request = [.createWireguard r.interface] ∧
    ((∀ e ∈ log, e.fault? = none) → result = .error (.peers r.interface (.ofKey cause)))
  /-- The call succeeds exactly if it went past every request of the plan. -/
  succeeded : result = .ok () ↔ ∃ peers link, Member.toPeers r.listenPort ms = .ok peers ∧
    r.LookedUp log link ∧ log.map Exchange.request = r.plan peers link ms ∧
    ∀ e ∈ log, e.fault? = none

theorem conversation_of_planned {new : List Exchange} {result : Except Failure Unit}
    (hpeers : Member.toPeers r.listenPort ms = .ok peers)
    (h : r.Planned (fun link => r.plan peers link ms) new result) : Conversation r ms new result := by
  obtain ⟨link, hlink, hfollows⟩ := h
  refine ⟨hfollows.passed_of_mem_dropLast, ?_, ?_, ?_, ?_⟩
  · intro e he f hf
    have hfailure := hfollows.failure_of_fault he hf
    cases result with
    | ok _ => cases hfailure
    | error _ => exact congrArg Except.error (Option.some.inj hfailure)
  · intro peers' hpeers'
    obtain rfl := Except.ok.inj (hpeers.symm.trans hpeers')
    exact ⟨link, hlink, hfollows.requests_isPrefix, fun hall => (hfollows.requests_of_passed hall).1⟩
  · rintro before m later cause rfl hbefore hm
    rw [Member.toPeers_eq_error hbefore hm] at hpeers
    cases hpeers
  · constructor
    · rintro rfl
      have hall := Follows.passed_of_succeeded hfollows
      exact ⟨peers, link, hpeers, hlink, (hfollows.requests_of_passed hall).1, hall⟩
    · rintro ⟨_, _, _, _, _, hall⟩
      have hnone := (hfollows.requests_of_passed hall).2
      cases result with
      | ok _ => rfl
      | error _ => cases hnone

theorem conversation_of_unreadable {new : List Exchange} {result : Except Failure Unit}
    {cause : KeyError} {ended : Option Failure}
    (hpeers : Member.toPeers r.listenPort ms = .error cause)
    (hfollows : Follows r.interface [.createWireguard r.interface] new ended)
    (hresult : failure? result = some (ended.getD (.peers r.interface (.ofKey cause)))) :
    Conversation r ms new result := by
  obtain rfl : result = .error (ended.getD (.peers r.interface (.ofKey cause))) := by
    cases result with
    | ok _ => cases hresult
    | error _ => exact congrArg Except.error (Option.some.inj hresult)
  refine ⟨hfollows.passed_of_mem_dropLast, ?_, ?_, ?_, ?_⟩
  · intro e he f hf
    rw [hfollows.failure_of_fault he hf]
    rfl
  · intro peers hpeers'
    cases hpeers.symm.trans hpeers'
  · rintro before m later cause' rfl hbefore hm
    have hcause := hpeers.symm.trans (Member.toPeers_eq_error hbefore hm)
    obtain rfl := Except.error.inj hcause
    refine ⟨?_, ?_⟩
    · exact hfollows.requests_of_single
    · intro hall
      rw [(hfollows.requests_of_passed hall).2]
      rfl
  · constructor
    · intro hok
      cases hok
    · rintro ⟨peers, _, hpeers', _⟩
      cases hpeers.symm.trans hpeers'

/-- Whatever the backend replies, and however its replies depend on what was before, a call asks for what
is planned, in order, and ends at the first fault with the failure that this is. -/
theorem bringUp_conversation (b : Backend σ) (r : Reconciler) (ms : List Member) (s : σ) :
    ∃ log, (r.bringUp b.logging ms).run.run (s, []) =
        (((r.bringUp b ms).run.run s).1, ((r.bringUp b ms).run.run s).2, log) ∧
      Conversation r ms log ((r.bringUp b ms).run.run s).1 := by
  cases hpeers : Member.toPeers r.listenPort ms with
  | ok peers =>
    obtain ⟨log, hrun, hplanned⟩ := conducts_bringUp b hpeers s []
    exact ⟨log, hrun, conversation_of_planned hpeers hplanned⟩
  | error cause =>
    obtain ⟨log, hrun, ended, hfollows, hresult⟩ := conducts_bringUp_unreadable b hpeers s []
    exact ⟨log, hrun, conversation_of_unreadable hpeers hfollows hresult⟩

end Reconciler

end OverlayTunnel
