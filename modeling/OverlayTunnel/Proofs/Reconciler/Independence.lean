import OverlayTunnel.Proofs.Reconciler.Backends
import OverlayTunnel.Proofs.Reconciler.TakeDown

/-!
Interfaces that share a table. A call answers by what is known of its own interface and changes nothing
else, except for the index that the next link gets. So what one interface goes through is the same with
the others and without.
-/
namespace OverlayTunnel

open LinkTable

/-- A link without its index, which depends on how many links there were before it. -/
def LinkState.unnumbered (l : LinkState) : LinkState :=
  { l with index := 0 }

/-- What a table has for an interface, apart from an index. -/
def LinkTable.seen (t : LinkTable) (interface : String) : Option LinkState :=
  (t.links interface).map LinkState.unnumbered

namespace Reconciler

variable {r : Reconciler} {ms : List Member} {t : LinkTable}

/-! ### Calls with no failure pending -/

/-- The link that a call leaves, where `l` is there or has just been created. -/
def built (r : Reconciler) (ms : List Member) (l : LinkState) : LinkState :=
  match r.setup ms with
  | .ok setup => r.brought setup ms l
  | .error _ => l

theorem built_of_ok {setup : DeviceSetup} (hs : r.setup ms = .ok setup) (l : LinkState) :
    r.built ms l = r.brought setup ms l := by
  rw [built, hs]

theorem built_of_error {e : Failure} (hs : r.setup ms = .error e) (l : LinkState) :
    r.built ms l = l := by
  rw [built, hs]

/-- The index of a link has no part in what a call makes of it. -/
theorem unnumbered_built (r : Reconciler) (ms : List Member) (l : LinkState) :
    (r.built ms l).unnumbered = r.built ms l.unnumbered := by
  cases hs : r.setup ms with
  | ok setup =>
    rw [built_of_ok hs, built_of_ok hs]
    rfl
  | error e => rw [built_of_error hs, built_of_error hs]

theorem ensure_create (r : Reconciler) (hp : t.pending .createWireguard = false) :
    ∃ t', (ensure backend r .createLink (.createWireguard r.interface)).run.run t = (.ok (), t') ∧
      t'.links r.interface = some ((t.links r.interface).getD (.new (t.lastIndex + 1))) := by
  cases hl : t.links r.interface with
  | some l =>
    have heffect : (LinkRequest.createWireguard r.interface).effect (t.lastIndex + 1)
        (t.links r.interface) = .error (.alreadyExists ("link " ++ r.interface)) := by
      rw [hl]
      rfl
    have hrun := run_perform_of_refused (q := .createWireguard r.interface) hp heffect
    refine ⟨t.recorded .createWireguard, ?_, hl⟩
    rw [run_ensure, hrun]
    rfl
  | none =>
    have heffect : (LinkRequest.createWireguard r.interface).effect (t.lastIndex + 1)
        (t.links r.interface) = .ok ((), some (.new (t.lastIndex + 1))) := by
      rw [hl]
      rfl
    have hrun := run_perform_of_granted (q := .createWireguard r.interface) hp heffect
    have hlinks : ((t.recorded .createWireguard).updated (.createWireguard r.interface)
        (some (.new (t.lastIndex + 1)))).links r.interface = some (.new (t.lastIndex + 1)) :=
      Links.set_self _ _ _
    refine ⟨_, ?_, hlinks⟩
    rw [run_ensure, hrun]
    rfl

/-- Where no failure is pending, only the members of a call can make it fail, and what it leaves does not
depend on how its link is numbered. -/
theorem bringUp_of_idle (r : Reconciler) (ms : List Member)
    (hidle : ∀ operation, t.pending operation = false) :
    ∃ t', (r.bringUp backend ms).run.run t = ((r.setup ms).map fun _ => (), t') ∧
      t'.seen r.interface = some (r.built ms ((t.seen r.interface).getD (.new 0))) := by
  have hseen : ∀ l, (r.built ms ((t.links r.interface).getD l)).unnumbered =
      r.built ms (((t.links r.interface).map LinkState.unnumbered).getD l.unnumbered) := by
    intro l
    rw [unnumbered_built]
    cases t.links r.interface <;> rfl
  cases hs : r.setup ms with
  | ok setup =>
    obtain ⟨t', hrun, -, hg⟩ := bringUp_eq_ok hs (firstPending_eq_none fun s _ => hidle s.operation)
    refine ⟨t', hrun, ?_⟩
    have hlink : t'.links r.interface =
        some (r.built ms ((t.links r.interface).getD (.new (t.lastIndex + 1)))) := by
      have hlinks : t'.links = (r.outcome setup ms t).1 := congrArg Prod.fst hg
      rw [hlinks, built_of_ok hs]
      cases hl : t.links r.interface with
      | some l =>
        rw [outcome_of_some hl]
        exact Links.set_self _ _ _
      | none =>
        rw [outcome_of_none hl]
        exact Links.set_self _ _ _
    rw [seen, hlink, Option.map_some, hseen]
    rfl
  | error e =>
    obtain ⟨t', hcreate, hlink⟩ := ensure_create r (hidle .createWireguard)
    refine ⟨t', ?_, ?_⟩
    · unfold bringUp
      rw [hs, Action.run_bind, hcreate]
      rfl
    · have hkept := hseen (.new (t.lastIndex + 1))
      rw [built_of_error hs] at hkept
      rw [seen, hlink, Option.map_some, hkept]
      rfl

theorem takeDown_of_idle (r : Reconciler) (hidle : ∀ operation, t.pending operation = false) :
    ∃ t', (r.takeDown backend).run.run t = (.ok (), t') ∧
      t'.seen r.interface = none := by
  rcases takeDown_cases r t with ⟨-, t', hrun, hlinks, -⟩ | ⟨hremovable, -⟩
  · exact ⟨t', hrun, by rw [seen, hlinks, Links.set_self, Option.map_none]⟩
  · exact absurd ⟨hidle _, .inr ⟨hidle _, hidle _⟩⟩ hremovable

theorem seen_status (r : Reconciler) (t : LinkTable) (interface : String) :
    ((r.status backend).run.run t).2.seen interface = t.seen interface := by
  rw [seen, links_status, seen]

theorem status_of_idle (r : Reconciler) (hp : t.pending .device = false) :
    ((r.status backend).run.run t).1 =
      .ok ((t.seen r.interface).map fun l => l.device.getD (.unconfigured r.interface)) := by
  rw [run_status_of_idle r hp, seen]
  cases t.links r.interface <;> rfl

end Reconciler

namespace Call

variable {c : Call} {interface : String} {t u : LinkTable}

theorem idle_run (c : Call) (hidle : ∀ operation, t.pending operation = false) :
    ∀ operation, ((c.run backend).run t).2.pending operation = false :=
  fun operation => c.keeps_run (keeps_not_pending operation) t (hidle operation)

/-- A call does not change what another interface has. -/
theorem seen_run_of_ne (hc : c.reconciler?.isSome) (hother : c.target ≠ interface) (t : LinkTable) :
    ((c.run backend).run t).2.seen interface = t.seen interface := by
  have hlinks : ((c.run backend).run t).2.links interface = t.links interface := by
    cases c with
    | bringUp r ms => exact Reconciler.links_bringUp_of_ne (Ne.symm hother) ms t
    | takeDown r =>
      have hother : interface ≠ r.interface := Ne.symm hother
      change ((r.takeDown backend).run.run t).2.links interface = t.links interface
      rcases r.takeDown_cases t with ⟨-, t', hrun, hlinks, -⟩ | ⟨-, s, t', -, hrun, hlinks, -⟩
      · rw [hrun, hlinks, Links.set_other _ _ hother]
      · rw [hrun, hlinks]
    | status r => exact congrFun (r.links_status t) interface
    | request q => cases hc
  rw [seen, hlinks, seen]

/-- A call answers and changes its interface by what the interface has. -/
theorem run_of_seen_eq (hc : c.reconciler?.isSome)
    (ht : ∀ operation, t.pending operation = false) (hu : ∀ operation, u.pending operation = false)
    (hseen : t.seen c.target = u.seen c.target) :
    ((c.run backend).run t).1 = ((c.run backend).run u).1 ∧
      ((c.run backend).run t).2.seen c.target = ((c.run backend).run u).2.seen c.target := by
  cases c with
  | bringUp r ms =>
    have hseen : t.seen r.interface = u.seen r.interface := hseen
    obtain ⟨t', hrun, ht'⟩ := r.bringUp_of_idle ms ht
    obtain ⟨u', hrun', hu'⟩ := r.bringUp_of_idle ms hu
    change Answer.ofResult _ ((r.bringUp backend ms).run.run t).1 =
        Answer.ofResult _ ((r.bringUp backend ms).run.run u).1 ∧
      ((r.bringUp backend ms).run.run t).2.seen r.interface =
        ((r.bringUp backend ms).run.run u).2.seen r.interface
    rw [hrun, hrun', ht', hu', hseen]
    exact ⟨rfl, rfl⟩
  | takeDown r =>
    obtain ⟨t', hrun, ht'⟩ := r.takeDown_of_idle ht
    obtain ⟨u', hrun', hu'⟩ := r.takeDown_of_idle hu
    change Answer.ofResult _ ((r.takeDown backend).run.run t).1 =
        Answer.ofResult _ ((r.takeDown backend).run.run u).1 ∧
      ((r.takeDown backend).run.run t).2.seen r.interface =
        ((r.takeDown backend).run.run u).2.seen r.interface
    rw [hrun, hrun', ht', hu']
    exact ⟨rfl, rfl⟩
  | status r =>
    have hseen : t.seen r.interface = u.seen r.interface := hseen
    change Answer.ofResult _ ((r.status backend).run.run t).1 =
        Answer.ofResult _ ((r.status backend).run.run u).1 ∧
      ((r.status backend).run.run t).2.seen r.interface =
        ((r.status backend).run.run u).2.seen r.interface
    rw [r.status_of_idle (ht .device), r.status_of_idle (hu .device), r.seen_status, r.seen_status, hseen]
    exact ⟨rfl, rfl⟩
  | request q => cases hc

/-! ### Runs -/

/-- The answers to the calls for one interface, in order. -/
def answersFor (interface : String) (calls : List Call) (answers : List Answer) : List Answer :=
  ((calls.zip answers).filter fun p => p.1.target = interface).map Prod.snd

theorem answersFor_cons (interface : String) (c : Call) (calls : List Call) (a : Answer)
    (answers : List Answer) :
    answersFor interface (c :: calls) (a :: answers) =
      if c.target = interface then a :: answersFor interface calls answers
      else answersFor interface calls answers := by
  unfold answersFor
  rw [List.zip_cons_cons, List.filter_cons]
  split <;> simp_all

/-- A run beside other interfaces and one without them, from tables where the interface has the same. -/
theorem runAll_of_seen_eq {calls : List Call} (hcalls : ∀ c ∈ calls, c.reconciler?.isSome)
    (ht : ∀ operation, t.pending operation = false) (hu : ∀ operation, u.pending operation = false)
    (hseen : t.seen interface = u.seen interface) :
    answersFor interface calls ((runAll backend calls).run t).1 =
        ((runAll backend (calls.filter fun c => c.target = interface)).run u).1 ∧
      ((runAll backend calls).run t).2.seen interface =
        ((runAll backend (calls.filter fun c => c.target = interface)).run u).2.seen interface := by
  induction calls generalizing t u with
  | nil => exact ⟨rfl, hseen⟩
  | cons c calls ih =>
    have hc := hcalls c List.mem_cons_self
    have hrest : ∀ d ∈ calls, d.reconciler?.isSome := fun d hd => hcalls d (List.mem_cons_of_mem _ hd)
    rw [runAll_cons, answersFor_cons]
    by_cases htarget : c.target = interface
    · subst htarget
      obtain ⟨hanswer, hstep⟩ := run_of_seen_eq hc ht hu hseen
      obtain ⟨hanswers, hfinal⟩ := ih hrest (c.idle_run ht) (c.idle_run hu) hstep
      rw [if_pos rfl, List.filter_cons_of_pos (by simp), runAll_cons, hanswer, hanswers]
      exact ⟨rfl, hfinal⟩
    · have hstep := seen_run_of_ne hc htarget t
      rw [if_neg htarget, List.filter_cons_of_neg (by simpa using htarget)]
      exact ih hrest (c.idle_run ht) hu (hstep.trans hseen)

/-- Interfaces that share a table are independent. Whichever reconcilers take turns on it, those of one
interface have the answers that they would have on a table of their own, and apart from its index they
leave the same link. -/
theorem runAll_interface_independent {calls : List Call}
    (hcalls : ∀ c ∈ calls, c.reconciler?.isSome) (interface : String) :
    let shared := (runAll backend calls).run .empty
    let alone := (runAll backend (calls.filter fun c => c.target = interface)).run .empty
    answersFor interface calls shared.1 = alone.1 ∧
      (shared.2.links interface).map LinkState.unnumbered =
        (alone.2.links interface).map LinkState.unnumbered :=
  runAll_of_seen_eq hcalls (fun _ => rfl) (fun _ => rfl) rfl

/-- Another interface comes and goes beside one that is brought up twice, the second time with a key
that cannot be read. -/
theorem runAll_interface_independent_sample :
    let a := Reconciler.sampleNode 0x0A010203 Reconciler.sampleKey
    let b := { Reconciler.sampleNode 0x0A010209 Reconciler.sampleKey with interface := "wg1" }
    let members := [0x0A010205, 0x0A010206, 0x0A010205].map Reconciler.sampleMember
    let unreadable : Member := ⟨"", .v4 0x0A010205, .v4 0xC0A80102⟩
    let calls : List Call := [.bringUp b members, .status a, .bringUp a members, .takeDown b,
      .bringUp a [unreadable], .bringUp b [], .status a]
    let own : List Call := [.status a, .bringUp a members, .bringUp a [unreadable], .status a]
    (∀ c ∈ calls, c.reconciler?.isSome) ∧
      answersFor a.interface calls ((runAll backend calls).run .empty).1 =
        ((runAll backend own).run .empty).1 ∧
      (((runAll backend calls).run .empty).2.links a.interface).map LinkState.unnumbered =
        (((runAll backend own).run .empty).2.links a.interface).map LinkState.unnumbered := by
  -- What the key is does not matter, and its public key is not to be computed.
  generalize Reconciler.sampleKey = key
  intro a b members unreadable calls own
  have hcalls : ∀ c ∈ calls, c.reconciler?.isSome := by simp [calls, reconciler?]
  have hown : (calls.filter fun c => c.target = a.interface) = own := rfl
  have hindependent := runAll_interface_independent hcalls a.interface
  rw [hown] at hindependent
  exact ⟨hcalls, hindependent⟩

end Call

end OverlayTunnel
