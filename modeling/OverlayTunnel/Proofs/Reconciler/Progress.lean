import OverlayTunnel.Proofs.Reconciler.BringUp
import OverlayTunnel.Proofs.Reconciler.Endings
import OverlayTunnel.Proofs.Table.Stages

/-!
How far a call that brings an interface up has come when it fails. Each step that succeeds brings the
link to a stage, no step takes it back, and so the phase of the failure tells the stage.
-/
namespace OverlayTunnel

/-- What a failure in a phase tells about the stage of the link, given the stage before the call. -/
def Phase.Tells (before after : Stage) : Phase → Prop
  | .createLink => after = before
  | .buildPeers | .configureDevice => .created ≤ after
  | .lookupLink | .replaceAddress => .configured ≤ after
  | .setMtu | .setUp => .addressed ≤ after
  | .addRoute _ => after = .up
  | .lookupDevice | .deleteLink => False

namespace Reconciler

open LinkTable

variable {r : Reconciler} {s before : Stage} {ms : List Member} {handle : LinkHandle}

def AtLeast (r : Reconciler) (s : Stage) (t : LinkTable) : Prop :=
  s ≤ t.stage r.interface

/-- The failure names a phase that tells the stage. -/
def Blames (r : Reconciler) (before : Stage) (f : Failure) (t : LinkTable) : Prop :=
  ∃ phase, f.phase? = some phase ∧ phase.Tells before (t.stage r.interface)

variable {t u : LinkTable} {l : LinkState}

theorem atLeast_of_some (hl : t.links r.interface = some l) : r.AtLeast s t ↔ s ≤ l.stage := by
  rw [AtLeast, stage_of_some hl]

theorem atLeast_up_iff : r.AtLeast .up t ↔ t.stage r.interface = .up :=
  ⟨fun h => le_antisymm (Stage.le_up _) h, fun h => h.ge⟩

/-! ### Single steps -/

/-- Whatever comes of a request that deletes nothing, it leaves the link at its stage or at a later one. -/
theorem ends_atLeast (q : LinkRequest) {Q : q.Reply → LinkTable → Prop}
    (hq : q.operation ≠ .deleteLink)
    (hgranted : ∀ t u fresh reply, r.AtLeast s t → r.AtLeast s u →
      q.effect fresh (t.links q.target) = .ok (reply, u.links q.target) → Q reply u) :
    Ends (r.AtLeast s) (backend.perform q) (fun _ => r.AtLeast s) Q := by
  intro t ht
  have hkept := stage_le_of_ne_delete hq t r.interface
  cases hrun : (backend.perform q).run.run t with
  | mk reply u =>
    rw [hrun] at hkept
    have hu : r.AtLeast s u := le_trans ht hkept
    cases reply with
    | error e => exact .inl ⟨e, u, rfl, hu⟩
    | ok reply =>
      obtain ⟨link, heffect, hlinks⟩ := effect_of_perform hrun
      have hlink : u.links q.target = link := by rw [hlinks, Links.set_self]
      exact .inr ⟨reply, u, rfl, hgranted t u _ reply ht hu (hlink ▸ heffect)⟩

theorem ends_create :
    Ends (fun t => t.stage r.interface = before) (backend.perform (.createWireguard r.interface))
      (fun e t => t.stage r.interface = before ∧ (e.isAlreadyExists = true → r.AtLeast .created t))
      (fun _ => r.AtLeast .created) := by
  intro t ht
  cases hrun : (backend.perform (.createWireguard r.interface)).run.run t with
  | mk reply u =>
    cases outcome_of_perform hrun with
    | injected _ => exact .inl ⟨_, _, rfl, ht, nofun⟩
    | refused _ he =>
      refine .inl ⟨_, _, rfl, ht, fun _ => ?_⟩
      cases hl : t.links r.interface with
      | none => simp [LinkRequest.effect, LinkRequest.target, hl, LinkState.created, Except.map] at he
      | some l => exact (atLeast_of_some hl).mpr l.created_le_stage
    | granted _ he =>
      obtain ⟨l, -, hl⟩ := map_eq_ok he
      cases hl
      exact .inr ⟨_, _, rfl, (atLeast_of_some (Links.set_self _ _ _)).mpr l.created_le_stage⟩

theorem ends_configure (setup : DeviceSetup) :
    Ends (r.AtLeast .created) (backend.perform (.configureDevice r.interface setup))
      (fun _ => r.AtLeast .created) (fun _ => r.AtLeast .configured) := by
  apply ends_atLeast _ (by simp [LinkRequest.operation])
  intro t u fresh reply _ _ he
  obtain ⟨l, -, hl⟩ := map_eq_ok he
  obtain ⟨-, hu⟩ := Prod.mk.inj hl
  exact (atLeast_of_some hu.symm).mpr (LinkState.configured_le_stage_iff.mpr rfl)

theorem ends_lookup :
    Ends (r.AtLeast s) (backend.perform (.linkByName r.interface)) (fun _ => r.AtLeast s)
      (fun handle t => handle.name = r.interface ∧ r.AtLeast s t) := by
  apply ends_atLeast _ (by simp [LinkRequest.operation])
  intro t u fresh reply _ hu he
  obtain ⟨l, -, hl⟩ := map_eq_ok he
  obtain ⟨rfl, -⟩ := Prod.mk.inj hl
  exact ⟨rfl, hu⟩

theorem ends_replaceAddress (hname : handle.name = r.interface) (address : Network) :
    Ends (r.AtLeast .configured) (backend.perform (.replaceAddress handle address))
      (fun _ => r.AtLeast .configured) (fun _ => r.AtLeast .addressed) := by
  apply ends_atLeast _ (by simp [LinkRequest.operation])
  intro t u fresh reply ht _ he
  simp only [LinkRequest.target, hname] at he
  obtain ⟨l, hheld, hl⟩ := map_eq_ok he
  obtain ⟨-, hu⟩ := Prod.mk.inj hl
  have hconfigured := (atLeast_of_some (LinkState.held_eq_ok hheld).1).mp ht
  have hdevice : l.device.isSome = true := LinkState.configured_le_stage_iff.mp hconfigured
  have haddressed : .addressed ≤ (l.addressed address).stage :=
    LinkState.addressed_le_stage_iff.mpr ⟨hdevice, l.addresses_addressed_ne_nil address⟩
  exact (atLeast_of_some hu.symm).mpr haddressed

theorem ends_setUp (hname : handle.name = r.interface) :
    Ends (r.AtLeast .addressed) (backend.perform (.setUp handle))
      (fun _ => r.AtLeast .addressed) (fun _ => r.AtLeast .up) := by
  apply ends_atLeast _ (by simp [LinkRequest.operation])
  intro t u fresh reply ht _ he
  simp only [LinkRequest.target, hname] at he
  obtain ⟨l, hheld, hl⟩ := map_eq_ok he
  obtain ⟨-, hu⟩ := Prod.mk.inj hl
  have haddressed := (atLeast_of_some (LinkState.held_eq_ok hheld).1).mp ht
  obtain ⟨hdevice, haddresses⟩ := LinkState.addressed_le_stage_iff.mp haddressed
  have hup : LinkState.stage { l with up := true } = .up :=
    LinkState.stage_eq_up_iff.mpr ⟨hdevice, haddresses, rfl⟩
  exact (atLeast_of_some hu.symm).mpr hup.ge

/-! ### The whole call -/

/-- A step of a phase that tells as much as the step keeps. -/
theorem blames_request (phase : Phase) {q : LinkRequest} {P K : LinkTable → Prop}
    {Q : q.Reply → LinkTable → Prop} (h : Ends P (backend.perform q) (fun _ => K) Q)
    (htells : ∀ t, K t → phase.Tells before (t.stage r.interface)) :
    Ends P (r.request backend phase q) (r.Blames before) Q := by
  refine h.request.mono (fun _ ht => ht) ?_ fun _ _ ht => ht
  rintro f t ⟨e, rfl, ht⟩
  exact ⟨phase, rfl, htells t ht⟩

theorem blames_create :
    Ends (fun t => t.stage r.interface = before)
      (r.ensure backend .createLink (.createWireguard r.interface)) (r.Blames before)
      (fun _ => r.AtLeast .created) := by
  refine (ends_create.ensure fun e t hexists h => h.2 hexists).mono (fun _ ht => ht) ?_ fun _ _ ht => ht
  rintro f t ⟨e, rfl, -, ht, -⟩
  exact ⟨.createLink, rfl, ht⟩

theorem blames_setup :
    Ends (r.AtLeast .created) (ExceptT.mk (pure (r.setup ms))) (r.Blames before)
      (fun _ => r.AtLeast .created) := by
  unfold setup
  split
  · exact .pure _ fun _ ht => ht
  · exact .throw _ fun t ht => ⟨.buildPeers, rfl, ht⟩

theorem blames_route (destination : Network) :
    Ends (r.AtLeast .up) (r.ensure backend (.addRoute destination) (.addRoute handle destination))
      (r.Blames before) (fun _ => r.AtLeast .up) := by
  have hroute : Ends (r.AtLeast .up) (backend.perform (.addRoute handle destination))
      (fun _ => r.AtLeast .up) (fun _ => r.AtLeast .up) :=
    ends_atLeast _ (by simp [LinkRequest.operation]) fun t u fresh reply _ hu _ => hu
  refine (hroute.ensure fun e t _ ht => ht).mono (fun _ ht => ht) ?_ fun _ _ ht => ht
  rintro f t ⟨e, rfl, -, ht⟩
  exact ⟨.addRoute destination, rfl, atLeast_up_iff.mp ht⟩

theorem blames_bringUp (r : Reconciler) (ms : List Member) (before : Stage) :
    Ends (fun t => t.stage r.interface = before) (r.bringUp backend ms) (r.Blames before)
      (fun _ => r.AtLeast .up) := by
  unfold bringUp
  refine blames_create.bind fun _ => ?_
  refine blames_setup.bind fun setup => ?_
  refine (blames_request .configureDevice (ends_configure setup) fun _ ht => ht).bind fun _ => ?_
  refine (blames_request .lookupLink ends_lookup fun _ ht => ht).bind fun handle => ?_
  apply Ends.of_and
  intro hname
  refine (blames_request .replaceAddress (ends_replaceAddress hname _) fun _ ht => ht).bind fun _ => ?_
  have hmtu : Ends (r.AtLeast .addressed) (backend.perform (.setMtu handle r.mtu))
      (fun _ => r.AtLeast .addressed) (fun _ => r.AtLeast .addressed) :=
    ends_atLeast _ (by simp [LinkRequest.operation]) fun t u fresh reply _ hu _ => hu
  refine (blames_request .setMtu hmtu fun _ ht => ht).bind fun _ => ?_
  refine (blames_request .setUp (ends_setUp hname) fun _ ht => ht).bind fun _ => ?_
  exact Ends.forM fun m _ => blames_route (routeTo m)

/-- No request takes a link back to an earlier stage; only a creation leads away from where there is no
link, and only a deletion leads there. So in every run a link that is not deleted goes forward, and when
a call fails to bring an interface up, the phase of the failure tells the stage that its link is at. -/
theorem stage_never_goes_back :
    (∀ (q : LinkRequest) (t : LinkTable) (name : String),
      Advances q name (t.stage name) (((backend.perform q).run.run t).2.stage name)) ∧
    (∀ (t u : LinkTable) (log : List Exchange) (name : String), Run t log u →
      ((∀ e ∈ log, e.deletes name = false) → t.stage name ≤ u.stage name) ∧
      (t.stage name = .absent → (∀ e ∈ log, e.request ≠ .createWireguard name) →
        u.stage name = .absent)) ∧
    ∀ (r : Reconciler) (ms : List Member) (t u : LinkTable) (f : Failure),
      (r.bringUp backend ms).run.run t = (.error f, u) →
      ∃ phase, f.phase? = some phase ∧ phase.Tells (t.stage r.interface) (u.stage r.interface) := by
  refine ⟨advances_of_perform, ?_, ?_⟩
  · intro t u log name h
    exact ⟨h.stage_le, h.stage_eq_absent⟩
  · intro r ms t u f hrun
    rcases blames_bringUp r ms (t.stage r.interface) t rfl with ⟨e, t', hrun', hblames⟩ | ⟨a, t', hrun', -⟩
    · rw [hrun] at hrun'
      cases hrun'
      exact hblames
    · rw [hrun] at hrun'
      cases hrun'

/-- A link that is up before it has been configured is at the first stage. A call that fails to set its
MTU has brought it to the last one, and its stage has not gone down in between. -/
theorem stage_never_goes_back_sample :
    let r := sampleNode 0x0A010203 sampleKey
    let events : List Event := [.call (.request (.createWireguard r.interface)),
      .call (.request (.setUp ⟨r.interface, 1⟩)), .failNext .setMtu]
    let t := after events
    t.stage r.interface = .created ∧ .absent ≤ t.stage r.interface ∧
      t.stage "other" = .absent ∧
      ∃ u, (r.bringUp backend [sampleMember 0x0A010204]).run.run t =
        (.error (.link .setMtu r.interface (.injected "SetMtu")), u) ∧
        .addressed ≤ u.stage r.interface := by
  intro r events t
  obtain ⟨-, hruns, hfailures⟩ := stage_never_goes_back
  have hrun : Run empty (exchanges events) t := run_after events
  have hkept : ∀ e ∈ exchanges events, e.deletes r.interface = false := by
    decide
  have hother : ∀ e ∈ exchanges events, e.request ≠ .createWireguard "other" := by
    decide
  obtain ⟨setup, hsetup⟩ := setup_sampleMembers r [0x0A010204]
  obtain ⟨u, hfails, -⟩ := bringUp_eq_error hsetup (t := t) (s := ⟨.setMtu, .setMtu⟩) rfl
  obtain ⟨phase, hphase, htells⟩ := hfailures r _ t u _ hfails
  cases hphase
  exact ⟨by decide, (hruns _ _ _ _ hrun).1 hkept, (hruns _ _ _ _ hrun).2 rfl hother, u, hfails, htells⟩

end Reconciler

end OverlayTunnel
