import OverlayTunnel.Proofs.Host.InOrder
import OverlayTunnel.Proofs.Host.Remembered

/-!
Which failures are cured by trying again. On a host that is in order a call comes to the end unless something
that it brings along stands in its way, and the process may bring along that the tool was missed once.
-/
namespace OverlayTunnel

open HostLinks (backend lacksTool Remembers)

variable {τ : Type}

namespace Reconciler

variable {r : Reconciler} {ms : List Member} {c : Option Bool} {f : Failure} {h : Host τ}
  {good : τ → Prop}

/-- What a call needs that no host can give: an interface that can be passed on, members whose keys can be
read, and a process that has not missed the tool. -/
structure CanComeUp (r : Reconciler) (ms : List Member) (c : Option Bool) : Prop where
  interface : IsPassable r.interface
  keys : ∀ m ∈ ms, ∃ key, m.key? = some key
  tool : c ≠ some false

/-- Whether a failure that is worth trying again can be cured so. The later the phase that failed, the more
is known to be in order. -/
def IsCurable (r : Reconciler) (ms : List Member) (c : Option Bool) : Failure → Prop
  | .link .createLink _ _ => r.CanComeUp ms c
  | .link .configureDevice _ e => e ≠ lacksTool
  | _ => True

/-! ### How far a call came -/

/-- A failure tells what is left to stand in the way of the next call. -/
def Tells (r : Reconciler) (ms : List Member) (f : Failure) (s : HostLinks τ) : Prop :=
  f.isRetryable = true → (r.CanComeUp ms s.toolCheck ↔ r.IsCurable ms s.toolCheck f)

/-- Past the configuration of the device everything is known to be in order. -/
theorem tells_of_configured (hr : r.CanComeUp ms (some true)) {phase : Phase} {e : LinkFailure}
    {s : HostLinks τ} (hs : Remembers (some true) s) (hcreate : phase ≠ .createLink)
    (hconfigure : phase ≠ .configureDevice) : r.Tells ms (.link phase r.interface e) s := by
  intro _
  have hready : r.CanComeUp ms s.toolCheck := by
    rw [hs]
    exact hr
  refine iff_of_true hready ?_
  unfold IsCurable
  split
  next heq =>
    cases heq
    exact absurd rfl hcreate
  next heq =>
    cases heq
    exact absurd rfl hconfigure
  next => trivial

theorem tells_of_configure (hpass : IsPassable r.interface) (hkeys : ∀ m ∈ ms, ∃ key, m.key? = some key)
    {e : LinkFailure} {s : HostLinks τ} (hs : Remembers (some (decide (e ≠ lacksTool))) s) :
    r.Tells ms (.link .configureDevice r.interface e) s := by
  intro _
  have hanswer : s.toolCheck = some (decide (e ≠ lacksTool)) := hs
  rw [hanswer]
  constructor
  · rintro ⟨-, -, htool⟩ rfl
    exact htool (by simp)
  · intro hcurable
    have htool : e ≠ lacksTool := hcurable
    exact ⟨hpass, hkeys, by simpa using htool⟩

theorem ends_ensure_create (h : Host τ) (r : Reconciler) (ms : List Member) (c : Option Bool) :
    Ends (Remembers c) (r.ensure (backend h) .createLink (.createWireguard r.interface)) (r.Tells ms)
      fun _ s => IsPassable r.interface ∧ Remembers c s := by
  have hcreate : Ends (Remembers c) ((backend h).perform (.createWireguard r.interface))
      (fun e s => Remembers c s ∧ (e.isAlreadyExists = true → IsPassable r.interface))
      fun _ s => IsPassable r.interface ∧ Remembers c s :=
    (HostLinks.ends_ip ["link", "add", "dev", r.interface, "type", "wireguard"]).mono (fun _ hs => hs)
      (fun _ _ hs => ⟨hs.1, fun he => hs.2 he _ (by simp)⟩) fun _ _ hs => ⟨hs.2 _ (by simp), hs.1⟩
  refine (Ends.ensure hcreate fun e s he hs => ⟨hs.2 he, hs.1⟩).mono (fun _ hs => hs) ?_ fun _ _ hs => hs
  rintro f s ⟨e, rfl, -, -⟩ -
  exact Iff.rfl

section Configured

variable (hr : r.CanComeUp ms (some true)) {phase : Phase} {q : LinkRequest}
  (hq : q.operation ∉ [.device, .configureDevice]) (hcreate : phase ≠ .createLink)
  (hconfigure : phase ≠ .configureDevice)
include hr hq hcreate hconfigure

theorem ends_request_of_configured :
    Ends (Remembers (some true)) (r.request (backend h) phase q) (r.Tells ms)
      fun _ => Remembers (some true) := by
  refine (Ends.request (HostLinks.ends_perform q hq)).mono (fun _ hs => hs) ?_ fun _ _ hs => hs
  rintro f s ⟨e, rfl, hs⟩
  exact tells_of_configured hr hs hcreate hconfigure

theorem ends_ensure_of_configured :
    Ends (Remembers (some true)) (r.ensure (backend h) phase q) (r.Tells ms)
      fun _ => Remembers (some true) := by
  refine (Ends.ensure (HostLinks.ends_perform q hq) fun _ _ _ hs => hs).mono (fun _ hs => hs) ?_
    fun _ _ hs => hs
  rintro f s ⟨e, rfl, -, hs⟩
  exact tells_of_configured hr hs hcreate hconfigure

end Configured

/-- A call that fails tells what is left to stand in the way of the next one, and one that succeeds that
nothing did. -/
theorem ends_bringUp (h : Host τ) (r : Reconciler) (ms : List Member) (c : Option Bool) :
    Ends (Remembers c) (r.bringUp (backend h) ms) (r.Tells ms) fun _ _ => r.CanComeUp ms c := by
  unfold bringUp
  refine (ends_ensure_create h r ms c).bind fun _ => .of_and fun hpass => ?_
  cases hsetup : r.setup ms with
  | error f =>
    refine .throw_bind fun s hs hretry => ?_
    rw [isRetryable_of_setup hsetup] at hretry
    cases hretry
  | ok setup =>
  have hkeys := setup_isOk_iff.mp ⟨setup, hsetup⟩
  have hr : r.CanComeUp ms (some true) := ⟨hpass, hkeys, by simp⟩
  refine .pure_bind (Ends.bind ((Ends.request (HostLinks.ends_configureDevice r.interface setup)).mono
    (fun _ hs => hs) ?_ fun _ _ hs => hs) fun _ => .of_and fun hc => ?_)
  · rintro f s ⟨e, rfl, hs⟩
    exact tells_of_configure hpass hkeys hs
  -- From here on the tool is known to be there, and each step may only fail in a phase of its own.
  refine (ends_request_of_configured hr (by simp [LinkRequest.operation]) (by simp) (by simp)).bind
    fun link => ?_
  refine (ends_request_of_configured hr (by simp [LinkRequest.operation]) (by simp) (by simp)).bind
    fun _ => ?_
  refine (ends_request_of_configured hr (by simp [LinkRequest.operation]) (by simp) (by simp)).bind
    fun _ => ?_
  refine (ends_request_of_configured hr (by simp [LinkRequest.operation]) (by simp) (by simp)).bind
    fun _ => ?_
  refine (Ends.forM fun m _ => ?_).mono (fun _ hs => hs) (fun _ _ hs => hs)
    fun _ _ _ => ⟨hpass, hkeys, hc⟩
  exact ends_ensure_of_configured hr (by simp [LinkRequest.operation]) (by simp) (by simp)

/-! ### Trying again -/

theorem canComeUp_of_bringUp {s : HostLinks τ} (hok : ((r.bringUp (backend h) ms).run.run s).1 = .ok ()) :
    r.CanComeUp ms s.toolCheck := by
  rcases ends_bringUp h r ms s.toolCheck s rfl with ⟨e, s', hrun, -⟩ | ⟨_, s', -, hcan⟩
  · rw [hrun] at hok
    cases hok
  · exact hcan

/-- On a host that is in order a call succeeds exactly if nothing that it brings along is in its way. -/
theorem bringUp_eq_ok_iff (hgood : h.InOrder good) {config : Config} {name : String} {key : PrivateKey}
    (hr : create config name key = .ok r) {t : τ} (ht : good t) :
    ((r.bringUp (backend h) ms).run.run ⟨t, c⟩).1 = .ok () ↔ r.CanComeUp ms c := by
  constructor
  · intro hok
    exact canComeUp_of_bringUp (s := ⟨t, c⟩) hok
  · intro hcan
    obtain ⟨hcheck, address, -, hfields⟩ := create_eq_ok_iff.mp hr
    obtain ⟨setup, hsetup⟩ := setup_isOk_iff.mpr hcan.keys
    have hname : IsInterface r.interface := by
      have hnul := hcan.interface
      rw [hfields] at hnul ⊢
      exact Config.isInterface_of_check hcheck hnul
    rcases HostLinks.goesWell_bringUp hgood hname hsetup ⟨t, c⟩ ⟨ht, hcan.tool⟩ with
      ⟨-, -, -, hfalse⟩ | ⟨_, s', hrun, -⟩
    · cases hfalse
    · rw [hrun]

/-- What stands in the way of a call now does so after all that the process may still do, whatever happens on
the host. -/
theorem bringUp_ne_ok_of_not_canComeUp {s : HostLinks τ} (hcan : ¬ r.CanComeUp ms s.toolCheck)
    (calls : List Call) (t : τ) :
    let later := ((Call.runAll (backend h) calls).run s).2
    ((r.bringUp (backend h) ms).run.run ⟨t, later.toolCheck⟩).1 ≠ .ok () := by
  intro later hok
  have hlater := canComeUp_of_bringUp (s := ⟨t, later.toolCheck⟩) hok
  refine hcan ⟨hlater.interface, hlater.keys, fun hmissed => hlater.tool ?_⟩
  exact Call.keeps_runAll (HostLinks.keeps_answer h false) calls s hmissed

/-- Whatever a process did before, a call of it that failed so that it is worth trying again succeeds on a
host that is in order again, exactly if the failure is curable. -/
theorem bringUp_retried_iff (hgood : h.InOrder good) {config : Config} {name : String} {key : PrivateKey}
    (hr : create config name key = .ok r) (calls : List Call) (s : τ) {s' : HostLinks τ}
    (hfailed : (r.bringUp (backend h) ms).run.run ((Call.runAll (backend h) calls).run ⟨s, none⟩).2 =
      (.error f, s'))
    (hretry : f.isRetryable = true) {t : τ} (ht : good t) :
    ((r.bringUp (backend h) ms).run.run ⟨t, s'.toolCheck⟩).1 = .ok () ↔
      r.IsCurable ms s'.toolCheck f := by
  rw [bringUp_eq_ok_iff hgood hr ht]
  rcases ends_bringUp h r ms _ ((Call.runAll (backend h) calls).run ⟨s, none⟩).2 rfl with
    ⟨e, s₁, hrun, htells⟩ | ⟨_, s₁, hrun, -⟩
  · rw [hfailed] at hrun
    cases hrun
    exact htells hretry
  · rw [hfailed] at hrun
    cases hrun

end Reconciler

/-! ### A host with a program out of order -/

namespace HostLinks

/-- How a program ends that is in order. -/
def orderlyOutcome : Invocation → Outcome
  | ⟨.ip, [.text "-o", .text "link", .text "show", .text "dev", .text name]⟩ =>
    .exited 0 (Utf8.encode (lineStart name 7)) []
  | _ => .exited 0 [] []

/-- A host with at most one program out of order. -/
def faultyHost : Host (Option Program) where
  run i := fun fault => (if fault = some i.program then .exited 1 [] [] else orderlyOutcome i, fault)
  writeFile _ := fun fault => (.ok (), fault)
  removeFile _ := fun fault => ((), fault)

theorem succeeds_orderlyOutcome (i : Invocation) : (orderlyOutcome i).Succeeds := by
  unfold orderlyOutcome
  split
  · exact ⟨_, _, rfl⟩
  · exact ⟨_, _, rfl⟩

theorem inOrder_faultyHost : faultyHost.InOrder (· = none) where
  run _ _ ht := ht
  creates name t ht := by
    subst ht
    exact .inl (succeeds_orderlyOutcome (creation name))
  shows name t ht := by
    subst ht
    exact ⟨7, [], [], by rw [List.append_nil]; rfl⟩
  succeeds i t ht _ := by
    subst ht
    exact succeeds_orderlyOutcome i
  write _ _ ht := ⟨ht, fun _ => rfl⟩
  remove _ _ ht := ht

end HostLinks

namespace Reconciler

open HostLinks (faultyHost inOrder_faultyHost failureOf creation)

/-- A call that failed because one of the programs did, and the next one once that is mended. -/
theorem bringUp_retried_sample :
    let r := sampleNode 0x0A010203 sampleKey
    let ms := [sampleMember 0x0A010205]
    let calls : List Call := [.request (.linkByName "wg0"), .request (.device "wg0")]
    let f : Failure := .link .createLink "wgoverlay" (failureOf (creation "wgoverlay") [])
    faultyHost.InOrder (· = none) ∧ create (sampleConfig "10.1.2.3") "a" sampleKey = .ok r ∧
      (r.bringUp (backend faultyHost) ms).run.run
        ((Call.runAll (backend faultyHost) calls).run ⟨some .ip, none⟩).2 = (.error f, ⟨some .ip, none⟩) ∧
      f.isRetryable = true ∧
      ((r.bringUp (backend faultyHost) ms).run.run ⟨none, none⟩).1 = .ok () := by
  intro r ms calls f
  have hr := create_sampleNode sampleKey
  have hstate : ((Call.runAll (backend faultyHost) calls).run ⟨some .ip, none⟩).2 = ⟨some .ip, none⟩ := rfl
  have hcreate : (r.ensure (backend faultyHost) .createLink (.createWireguard r.interface)).run.run
      ⟨some .ip, none⟩ = (.error f, ⟨some .ip, none⟩) := by
    change (r.ensure (backend faultyHost) .createLink (.createWireguard "wgoverlay")).run.run _ = _
    rfl
  have hfailed : (r.bringUp (backend faultyHost) ms).run.run
      ((Call.runAll (backend faultyHost) calls).run ⟨some .ip, none⟩).2 =
        (.error f, ⟨some .ip, none⟩) := by
    unfold bringUp
    rw [hstate, Action.run_bind, hcreate]
  have hkeys : ∀ m ∈ ms, ∃ key, m.key? = some key := by
    intro m hm
    obtain rfl := List.mem_singleton.mp hm
    exact ⟨_, Member.key?_eq_some_iff.mpr ofText_sampleText⟩
  refine ⟨inOrder_faultyHost, hr, hfailed, rfl, ?_⟩
  exact (bringUp_retried_iff inOrder_faultyHost hr calls (some .ip) hfailed rfl rfl).mpr
    ⟨by decide, hkeys, by decide⟩

/-- A tool that was missed once is missed for good, although its lack is worth trying again. -/
theorem not_bringUp_of_retryable :
    ¬ ∀ (τ : Type) (h : Host τ) (good : τ → Prop) (config : Config) (name : String) (key : PrivateKey)
      (r : Reconciler) (calls : List Call) (s : τ) (ms : List Member) (f : Failure) (s' : HostLinks τ)
      (t : τ), h.InOrder good → create config name key = .ok r →
      (r.bringUp (backend h) ms).run.run ((Call.runAll (backend h) calls).run ⟨s, none⟩).2 =
        (.error f, s') →
      f.isRetryable = true → good t →
      ((r.bringUp (backend h) ms).run.run ⟨t, s'.toolCheck⟩).1 = .ok () := by
  intro hall
  let r := sampleNode 0x0A010203 sampleKey
  have hfailed : (r.bringUp (backend faultyHost) []).run.run
      ((Call.runAll (backend faultyHost) []).run ⟨some .which, none⟩).2 =
        (.error (.link .configureDevice "wgoverlay" lacksTool), ⟨some .which, some false⟩) := by
    have hcreate : (r.ensure (backend faultyHost) .createLink (.createWireguard r.interface)).run.run
        ⟨some .which, none⟩ = (.ok (), ⟨some .which, none⟩) := by
      change (r.ensure (backend faultyHost) .createLink (.createWireguard "wgoverlay")).run.run _ = _
      rfl
    unfold bringUp
    rw [show (Call.runAll (backend faultyHost) []).run ⟨some .which, none⟩ = ([], ⟨some .which, none⟩) from rfl,
      Action.run_bind, hcreate]
    rfl
  have hok := hall (Option Program) faultyHost (· = none) (sampleConfig "10.1.2.3") "a" sampleKey r []
    (some .which) [] _ _ none inOrder_faultyHost (create_sampleNode sampleKey) hfailed rfl rfl
  exact (canComeUp_of_bringUp hok).tool rfl

end Reconciler

end OverlayTunnel
