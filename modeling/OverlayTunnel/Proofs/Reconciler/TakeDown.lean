import OverlayTunnel.Proofs.Reconciler.BringUp
import OverlayTunnel.Proofs.Table.Creation

/-!
Taking an interface down. It fails at the first of its steps whose failure is pending, and else leaves
nothing of the link, so an interface that is brought up afterwards starts anew.
-/
namespace OverlayTunnel

open LinkTable

namespace Reconciler

variable {r : Reconciler} {ms : List Member} {t t' : LinkTable} {g : Links × UInt32} {l : LinkState}

/-! ### The steps -/

def takeDownSteps : List Step :=
  [⟨.device, .lookupDevice⟩, ⟨.linkByName, .lookupLink⟩, ⟨.deleteLink, .deleteLink⟩]

/-- A table with given links and a given last index. -/
def Holding (g : Links × UInt32) (t : LinkTable) : Prop :=
  (t.links, t.lastIndex) = g

theorem holding_updated {q : LinkRequest} (h : Holding g t) (hl : g.1 q.target = some l)
    (hq : q.operation ≠ .createWireguard) :
    Holding g ((t.recorded q.operation).updated q (some l)) := by
  subst h
  change t.links q.target = some l at hl
  simp [Holding, updated, recorded, hq, ← hl]

/-- Asking for the device fails only if it is made to, and a link that is not there is no failure. -/
theorem run_status_of_idle (r : Reconciler) (hp : t.pending .device = false) :
    (r.status backend).run.run t =
      (.ok ((t.links r.interface).map fun l => l.device.getD (.unconfigured r.interface)),
        t.recorded .device) := by
  rw [run_status]
  cases hl : t.links r.interface with
  | some l =>
    have heffect : (LinkRequest.device r.interface).effect (t.lastIndex + 1)
        (t.links r.interface) = .ok (l.device.getD (.unconfigured r.interface), t.links r.interface) := by
      rw [hl]
      rfl
    have hsame : (t.recorded .device).updated (.device r.interface) (t.links r.interface) =
        t.recorded .device := updated_self (LinkRequest.operation_ne_of_reads rfl).1 _
    have hrun := run_perform_of_granted (q := .device r.interface) hp heffect
    rw [hrun]
    exact congrArg _ hsame
  | none =>
    have heffect : (LinkRequest.device r.interface).effect (t.lastIndex + 1)
        (t.links r.interface) =
          .error (.notFound ("Cannot find device \"" ++ r.interface ++ "\"")) := by
      rw [hl]
      rfl
    have hrun := run_perform_of_refused (q := .device r.interface) hp heffect
    rw [hrun]
    rfl

theorem performs_status (hl : g.1 r.interface = some l) :
    Performs r [⟨.device, .lookupDevice⟩] (Holding g) (Holding g) (r.status backend)
      fun device t => device.isSome ∧ Holding g t := by
  intro t ht
  cases hp : t.pending .device with
  | true =>
    left
    refine ⟨⟨.device, .lookupDevice⟩, (t.recorded .device).relieved .device,
      by simp [firstPending, hp], ?_, rfl, ht⟩
    rw [run_status, run_perform_of_pending hp]
    rfl
  | false =>
    right
    have hlink : t.links r.interface = some l := by rw [← hl, ← ht]
    refine ⟨some (l.device.getD (.unconfigured r.interface)), t.recorded .device,
      by simp [firstPending, hp], ?_, rfl, rfl, ht⟩
    rw [run_status_of_idle r hp, hlink]
    rfl

theorem performs_lookup_present (hl : g.1 r.interface = some l) :
    Performs r [⟨.linkByName, .lookupLink⟩] (Holding g) (Holding g)
      (request backend r .lookupLink (.linkByName r.interface))
      fun link t => link = ⟨r.interface, l.index⟩ ∧ Holding g t := by
  refine performs_request (.linkByName r.interface) (fun _ ht => ht) ?_
  intro t ht
  have hlink : t.links r.interface = some l := by rw [← hl, ← ht]
  have hother : LinkOperation.linkByName ≠ .createWireguard := by decide
  refine ⟨⟨r.interface, l.index⟩, some l, ?_, rfl,
    holding_updated (q := .linkByName r.interface) ht hl hother⟩
  rw [LinkRequest.target, hlink]
  rfl

theorem performs_delete (hl : g.1 r.interface = some l) :
    Performs r [⟨.deleteLink, .deleteLink⟩] (Holding g) (Holding g)
      (request backend r .deleteLink (.deleteLink ⟨r.interface, l.index⟩))
      fun _ => Holding (g.1.set r.interface none, g.2) := by
  refine performs_request (.deleteLink ⟨r.interface, l.index⟩) (fun _ ht => ht) ?_
  intro t ht
  have hlink : t.links r.interface = some l := by rw [← hl, ← ht]
  refine ⟨(), none, ?_, ?_⟩
  · rw [LinkRequest.target, hlink]
    simp [LinkRequest.effect, LinkState.held, Except.map]
  · subst ht
    rfl

/-- Where the link is there, all three steps are taken. -/
theorem performs_takeDown (hl : g.1 r.interface = some l) :
    Performs r takeDownSteps (Holding g) (Holding g) (r.takeDown backend)
      fun _ => Holding (g.1.set r.interface none, g.2) := by
  unfold takeDown
  change Performs r ([_] ++ ([_] ++ [_])) _ _ _ _
  refine (performs_status hl).bind fun device => ?_
  cases device with
  | none =>
    rintro t ⟨hsome, -⟩
    cases hsome
  | some d =>
    refine ((performs_lookup_present hl).bind fun link => ?_).pre fun _ ht => ht.2
    rintro t ⟨rfl, ht⟩
    exact performs_delete hl t ht

/-- Where there is no link, only the device is asked for. -/
theorem takeDown_of_absent (hl : t.links r.interface = none) (hp : t.pending .device = false) :
    (r.takeDown backend).run.run t = (.ok (), t.recorded .device) := by
  unfold takeDown
  rw [Action.run_bind, run_status_of_idle r hp, hl]
  rfl

theorem takeDown_of_pending_device (hp : t.pending .device = true) :
    (r.takeDown backend).run.run t =
      (.error (.link .lookupDevice r.interface (.injected "Device")),
        (t.recorded .device).relieved .device) := by
  unfold takeDown
  rw [Action.run_bind, run_status, run_perform_of_pending hp]
  rfl

/-- Nothing keeps the interface from being gone. -/
def Removable (r : Reconciler) (t : LinkTable) : Prop :=
  t.pending .device = false ∧ (t.links r.interface = none ∨
    t.pending .linkByName = false ∧ t.pending .deleteLink = false)

theorem firstPending_takeDownSteps :
    firstPending takeDownSteps t = none ↔ t.pending .device = false ∧
      t.pending .linkByName = false ∧ t.pending .deleteLink = false := by
  simp [firstPending, takeDownSteps]

/-- Taking an interface down either removes its link or leaves every link as it is. -/
theorem takeDown_cases (r : Reconciler) (t : LinkTable) :
    (Removable r t ∧ ∃ t', (r.takeDown backend).run.run t = (.ok (), t') ∧
      t'.links = t.links.set r.interface none ∧ t'.lastIndex = t.lastIndex) ∨
    (¬ Removable r t ∧ ∃ s t', firstPending takeDownSteps t = some s ∧
      (r.takeDown backend).run.run t = (.error (s.failure r), t') ∧ t'.links = t.links ∧
      t'.lastIndex = t.lastIndex) := by
  cases hl : t.links r.interface with
  | some l =>
    rcases performs_takeDown hl t (rfl : Holding (t.links, t.lastIndex) t) with
      ⟨s, t', hfirst, hrun, -, hkept⟩ | ⟨_, t', hfirst, hrun, -, hpost⟩
    · right
      obtain ⟨hlinks, hlast⟩ := Prod.mk.inj hkept
      refine ⟨?_, s, t', hfirst, hrun, hlinks, hlast⟩
      rintro ⟨hdevice, habsent | ⟨hlookup, hdelete⟩⟩
      · rw [hl] at habsent
        cases habsent
      · rw [firstPending_takeDownSteps.mpr ⟨hdevice, hlookup, hdelete⟩] at hfirst
        cases hfirst
    · left
      obtain ⟨hlinks, hlast⟩ := Prod.mk.inj hpost
      obtain ⟨hdevice, hlookup, hdelete⟩ := firstPending_takeDownSteps.mp hfirst
      exact ⟨⟨hdevice, .inr ⟨hlookup, hdelete⟩⟩, t', hrun, hlinks, hlast⟩
  | none =>
    cases hp : t.pending .device with
    | false =>
      left
      refine ⟨⟨hp, .inl hl⟩, t.recorded .device, takeDown_of_absent hl hp, ?_, rfl⟩
      rw [← hl, Links.set_get]
      rfl
    | true =>
      right
      refine ⟨?_, ⟨.device, .lookupDevice⟩, _, ?_, takeDown_of_pending_device hp, rfl, rfl⟩
      · rintro ⟨hdevice, -⟩
        rw [hp] at hdevice
        cases hdevice
      · simp [firstPending, takeDownSteps, hp]

/-! ### What happens in between -/

theorem outcome_other {setup : DeviceSetup} {other : String} (h : other ≠ r.interface) :
    (r.outcome setup ms t).1 other = t.links other := by
  cases hl : t.links r.interface with
  | some l =>
    rw [outcome_of_some hl]
    exact Links.set_other _ _ h
  | none =>
    rw [outcome_of_none hl]
    exact Links.set_other _ _ h

/-- However far a call comes, it leaves the links of other interfaces alone. -/
theorem links_bringUp_of_ne {other : String} (h : other ≠ r.interface) (ms : List Member)
    (t : LinkTable) : ((r.bringUp backend ms).run.run t).2.links other = t.links other := by
  cases hs : r.setup ms with
  | ok setup =>
    rcases performs_bringUp hs t rfl with ⟨s, t', -, hrun, -, hg⟩ | ⟨_, t', -, hrun, -, hg⟩
    · have hother : (r.outcome setup ms t').1 other = t'.links other := outcome_other h
      rw [hrun, ← hother, hg, outcome_other h]
    · have hlinks : t'.links = (r.outcome setup ms t).1 := congrArg Prod.fst hg
      rw [hrun, hlinks, outcome_other h]
  | error e =>
    -- The call ends with its first request.
    have hcreate := links_perform_of_ne (.createWireguard r.interface) t h
    rw [← state_ensure backend r .createLink] at hcreate
    unfold bringUp
    rw [hs, Action.run_bind]
    rcases hrun : (ensure backend r .createLink (.createWireguard r.interface)).run.run t with
      ⟨_ | _, t'⟩
    · rw [hrun] at hcreate
      exact hcreate
    · rw [hrun] at hcreate
      exact hcreate

/-- Asking for the device changes no link. -/
theorem links_status (r : Reconciler) (t : LinkTable) :
    ((r.status backend).run.run t).2.links = t.links := by
  rw [state_status]
  exact links_perform_of_reads rfl t

end Reconciler

/-- A call that creates no link of this name. -/
def Call.Avoids (name : String) : Call → Prop
  | .bringUp r _ => r.interface ≠ name
  | .request q => q.target ≠ name
  | .takeDown _ => True
  | .status _ => True

/-- Where there is no link, none appears unless a call creates it. -/
theorem Call.absent_run {c : Call} {name : String} {t : LinkTable} (hc : c.Avoids name)
    (h : t.links name = none) : ((c.run backend).run t).2.links name = none := by
  cases c with
  | bringUp r ms =>
    have hother := Reconciler.links_bringUp_of_ne (fun he => hc he.symm) ms t
    exact hother.trans h
  | takeDown r =>
    change ((r.takeDown backend).run.run t).2.links name = none
    rcases r.takeDown_cases t with ⟨-, t', hrun, hlinks, -⟩ | ⟨-, s, t', -, hrun, hlinks, -⟩
    · rw [hrun, hlinks]
      by_cases hname : name = r.interface
      · rw [hname, Links.set_self]
      · rw [Links.set_other _ _ hname, h]
    · rw [hrun, hlinks, h]
  | status r => exact (congrFun (r.links_status t) name).trans h
  | request q =>
    have hother := links_perform_of_ne q t (fun he => hc he.symm)
    rw [state_request, hother, h]

theorem LinkTable.absent_foldl_step {events : List Event} {name : String} {t : LinkTable}
    (hevents : ∀ c, .call c ∈ events → c.Avoids name) (h : t.links name = none) :
    (events.foldl step t).links name = none := by
  induction events generalizing t with
  | nil => exact h
  | cons event events ih =>
    apply ih (fun c hc => hevents c (List.mem_cons_of_mem _ hc))
    cases event with
    | call c => exact c.absent_run (hevents c List.mem_cons_self) h
    | failNext operation => exact h
    | clearCalls => exact h

namespace Reconciler

variable {r : Reconciler} {ms : List Member} {t t' : LinkTable}

/-! ### Nothing is left -/

/-- A link with nothing of those that a history had before it, not even an index. -/
structure Rebuilt (r : Reconciler) (ms : List Member) (events : List Event) (l : LinkState) :
    Prop where
  fresh : ∀ earlier, earlier <+: events → ∀ name old, (after earlier).links name = some old →
    old.index < l.index
  addresses : l.addresses = [.host r.identity.overlayAddress]
  routes : l.routes = (ms.map fun m => Network.host m.overlayAddress).eraseDups

theorem rebuilt_of_bringUp {events : List Event} (ht : after events = t)
    (hn : created events < 2 ^ (32 : Nat) - 1) (hl : t.links r.interface = none)
    (h : (r.bringUp backend ms).run.run t = (.ok (), t')) :
    ∃ l, t'.links r.interface = some l ∧ Rebuilt r ms events l := by
  obtain ⟨setup, -, hg⟩ := outcome_of_bringUp h
  rw [outcome_of_none hl] at hg
  refine ⟨r.brought setup ms (.new (t.lastIndex + 1)), by simp [(Prod.mk.inj hg).1], ?_, rfl, ?_⟩
  · intro earlier hearlier name old hold
    have hle := created_le_of_isPrefix hearlier
    have hn' : created events < 2 ^ (32 : Nat) := by omega
    have hbounds := (numbered_after (Nat.lt_of_le_of_lt hle hn')).bounds name old hold
    have hlast := (numbered_after hn').lastIndex
    have hfresh : (t.lastIndex + 1).toNat = created events + 1 := by
      rw [← ht, UInt32.toNat_add, hlast]
      exact Nat.mod_eq_of_lt (by change _ + 1 < _; omega)
    apply UInt32.lt_iff_toNat_lt.mpr
    change old.index.toNat < (t.lastIndex + 1).toNat
    omega
  · exact appendNew_nil_left _

/-- Taking an interface down succeeds exactly if no failure is pending that it meets, and fails for the
first one that it does. It leaves no trace: to do it again takes one look, and a link that comes up later
has only what belongs to it. -/
theorem takeDown_leaves_no_trace (r : Reconciler) {events : List Event} (ht : after events = t) :
    ((∃ t', (r.takeDown backend).run.run t = (.ok (), t')) ↔
      t.pending .device = false ∧ (t.links r.interface = none ∨
        t.pending .linkByName = false ∧ t.pending .deleteLink = false)) ∧
    (∀ e t', (r.takeDown backend).run.run t = (.error e, t') → t'.links = t.links ∧
      ∃ s, firstPending takeDownSteps t = some s ∧
        e = .link s.phase r.interface (.injected s.operation.name)) ∧
    (∀ t', (r.takeDown backend).run.run t = (.ok (), t') →
      t'.links = t.links.set r.interface none ∧ t'.lastIndex = t.lastIndex ∧
      ∀ later u, (∀ c, .call c ∈ later → c.Avoids r.interface) → later.foldl step t' = u →
        (u.pending .device = false →
          (r.takeDown backend).run.run u = (.ok (), u.recorded .device)) ∧
        (created (events ++ .call (.takeDown r) :: later) < 2 ^ (32 : Nat) - 1 →
          ∀ (r' : Reconciler) (ms : List Member) (u' : LinkTable), r'.interface = r.interface →
            (r'.bringUp backend ms).run.run u = (.ok (), u') →
            ∃ l, u'.links r.interface = some l ∧
              Rebuilt r' ms (events ++ .call (.takeDown r) :: later) l)) := by
  rcases takeDown_cases r t with
    ⟨hremovable, t₁, hrun, hlinks, hlast⟩ | ⟨hremovable, s, t₁, hfirst, hrun, hlinks, -⟩
  · refine ⟨⟨fun _ => hremovable, fun _ => ⟨t₁, hrun⟩⟩, ?_, ?_⟩
    · intro e t' h
      rw [hrun] at h
      cases h
    · intro t' h
      obtain rfl : t₁ = t' := congrArg Prod.snd (hrun.symm.trans h)
      refine ⟨hlinks, hlast, ?_⟩
      intro later u havoid hu
      have habsent : u.links r.interface = none := by
        rw [← hu]
        exact absent_foldl_step havoid (by rw [hlinks, Links.set_self])
      constructor
      · exact takeDown_of_absent habsent
      · intro hn r' ms u' hsame hup
        have hstep : t.step (.call (.takeDown r)) = t₁ := congrArg Prod.snd hrun
        have hhistory : after (events ++ .call (.takeDown r) :: later) = u := by
          rw [after, List.foldl_append, ← after, ht, List.foldl_cons, hstep, hu]
        rw [← hsame] at habsent ⊢
        exact rebuilt_of_bringUp hhistory hn habsent hup
  · refine ⟨⟨?_, fun h => absurd h hremovable⟩, ?_, ?_⟩
    · rintro ⟨t', h⟩
      rw [hrun] at h
      cases h
    · intro e t' h
      rw [hrun] at h
      cases h
      exact ⟨hlinks, s, hfirst, rfl⟩
    · intro t' h
      rw [hrun] at h
      cases h

/-- The first attempt fails at the lookup. Then the link goes with its address and its route, another
link is created, and the interface comes up with members of which two share an address. -/
theorem takeDown_leaves_no_trace_sample :
    let r := sampleNode 0x0A010203 sampleKey
    let events : List Event := [
      .call (.request (.createWireguard "eth0")), .call (.request (.createWireguard r.interface)),
      .call (.request (.replaceAddress ⟨r.interface, 2⟩ (.host (.v4 0x0A010209)))),
      .call (.request (.setUp ⟨r.interface, 2⟩)),
      .call (.request (.addRoute ⟨r.interface, 2⟩ (.host (.v4 0x0A010204)))),
      .failNext .linkByName, .call (.takeDown r)]
    let later : List Event := [.call (.request (.createWireguard "eth1")), .call (.status r)]
    let ms := [0x0A010205, 0x0A010206, 0x0A010205].map sampleMember
    let t := after events
    ∃ t' u', (r.takeDown backend).run.run t = (.ok (), t') ∧
      t'.links = t.links.set r.interface none ∧
      (r.bringUp backend ms).run.run (later.foldl step t') = (.ok (), u') ∧
      ∃ l, u'.links r.interface = some l ∧
        Rebuilt r ms (events ++ .call (.takeDown r) :: later) l := by
  intro r events later ms t
  obtain ⟨hiff, -, hok⟩ := takeDown_leaves_no_trace r (rfl : after events = t)
  have hpending : ∀ operation, t.pending operation = false := by
    intro operation
    cases operation <;> rfl
  obtain ⟨t', h⟩ := hiff.mpr ⟨hpending _, .inr ⟨hpending _, hpending _⟩⟩
  obtain ⟨hlinks, -, hlater⟩ := hok t' h
  have havoid : ∀ c, .call c ∈ later → c.Avoids r.interface := by
    intro c hc
    simp only [later, List.mem_cons, Event.call.injEq, List.not_mem_nil, or_false] at hc
    rcases hc with rfl | rfl
    · change "eth1" ≠ "wgoverlay"
      decide
    · trivial
  obtain ⟨-, hrebuilt⟩ := hlater later _ havoid rfl
  have hcreated : created (events ++ .call (.takeDown r) :: later) = 3 := by decide
  have hstep : t.step (.call (.takeDown r)) = t' := congrArg Prod.snd h
  have hidle : ∀ operation, (later.foldl step t').pending operation = false := by
    intro operation
    have hrun : ((.call (.takeDown r) :: later).foldl step t).pending operation = false :=
      not_pending_foldl_step (hpending operation) (by simp [later])
    rwa [List.foldl_cons, hstep] at hrun
  obtain ⟨setup, hs⟩ := setup_sampleMembers r [0x0A010205, 0x0A010206, 0x0A010205]
  obtain ⟨u', hup, -⟩ := bringUp_eq_ok hs (firstPending_eq_none fun s _ => hidle s.operation)
  have hlink := hrebuilt (by rw [hcreated]; decide) r ms u' rfl hup
  exact ⟨t', u', h, hlinks, hup, hlink⟩

end Reconciler

end OverlayTunnel
