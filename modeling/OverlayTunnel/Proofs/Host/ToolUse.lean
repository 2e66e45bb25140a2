import OverlayTunnel.Proofs.Host.Pace

/-!
The configuration tool and its files over whole sessions. The tool is looked for once at most, it is used
only after it has been found, and the files made for it do not outlive the requests that they are for.
-/
namespace OverlayTunnel

open HostLinks (lookup lacksTool Accounts)

/-! ### Links that are not there -/

/-- The words of a failure that tell that a link is not there. -/
def ReportsAbsence (stderr : List UInt8) : Prop :=
  let said := Text.trim (Utf8.decodeLossy stderr).toList
  Text.contains "Cannot find device".toList said = true ∨
    Text.contains "does not exist".toList said = true ∨
    Text.contains "No such device".toList said = true

/-- The words of a failure that are taken to tell that something is there already. -/
def ReportsPresence (stderr : List UInt8) : Prop :=
  Text.contains "File exists".toList (Text.trim (Utf8.decodeLossy stderr).toList) = true

namespace HostLinks

variable {name : String} {c c' : Option Bool} {steps : List HostStep} {o : Outcome}

theorem failureOf_isNotFound_iff (i : Invocation) {stderr : List UInt8} (h : ReportsAbsence stderr) :
    (failureOf i stderr).isNotFound = true ↔ ¬ ReportsPresence stderr := by
  unfold ReportsAbsence at h
  unfold failureOf ReportsPresence
  dsimp only at h ⊢
  by_cases hexists : Text.contains "File exists".toList (Text.trim (Utf8.decodeLossy stderr).toList) = true
  · rw [if_pos hexists]
    exact ⟨fun hfound => absurd hfound Bool.false_ne_true, fun hnot => absurd hexists hnot⟩
  · rw [if_neg hexists, if_pos h]
    exact ⟨fun _ => hexists, fun _ => rfl⟩

theorem LookedUp.of_mem {reply : Except LinkFailure LinkHandle} (h : LookedUp name reply steps)
    (hmem : .ran (lookup name) o ∈ steps) :
    steps = [.ran (lookup name) o] ∧ reply = (reading (lookup name) o).bind (handleOf name) := by
  obtain ⟨output, hran, rfl⟩ := h
  cases hran with
  | unpassable => cases hmem
  | ended _ o' =>
    cases List.mem_singleton.mp hmem
    exact ⟨rfl, rfl⟩

/-- A look-up is not part of what follows it. -/
theorem not_mem_of_checked {answer : Bool} (h : Checked c answer steps) :
    .ran (lookup name) o ∉ steps := by
  cases h with
  | known => nofun
  | asked o' =>
    intro hmem
    cases List.mem_singleton.mp hmem

/-- What comes of the look-up decides whether the tool check is made at all. -/
theorem Reads.of_lookup {reply : Except LinkFailure Device} (h : Reads name c reply steps c')
    (hmem : .ran (lookup name) o ∈ steps) :
    match (reading (lookup name) o).bind (handleOf name) with
    | .error e => steps = [.ran (lookup name) o] ∧ reply = .error e
    | .ok _ => ∃ answer, c' = some answer ∧ (answer = false → reply = .error lacksTool) := by
  cases h with
  | absent hlink =>
    obtain ⟨hsteps, hreply⟩ := hlink.of_mem hmem
    rw [← hreply]
    exact ⟨hsteps, rfl⟩
  | lacking hlink hcheck =>
    rcases List.mem_append.mp hmem with hmem | hmem
    · rw [← (hlink.of_mem hmem).2]
      exact ⟨false, rfl, fun _ => rfl⟩
    · exact absurd hmem (not_mem_of_checked hcheck)
  | shown hlink hcheck hshown =>
    rcases List.mem_append.mp hmem with hmem | hmem
    · rw [← (hlink.of_mem hmem).2]
      exact ⟨true, rfl, nofun⟩
    · rcases List.mem_append.mp hmem with hmem | hmem
      · exact absurd hmem (not_mem_of_checked hcheck)
      · obtain ⟨o', ho'⟩ := hshown.exists_eq _ hmem
        cases ho'

end HostLinks

/-! ### Files -/

namespace HostStep

/-- The files that a step is about. -/
def files : HostStep → List ConfigFile
  | .ran i _ => i.arguments.filterMap Argument.file?
  | .wrote f _ => [f]
  | .removed f => [f]

theorem files_texts (program : Program) (arguments : List String) (o : Outcome) :
    (HostStep.ran ⟨program, HostLinks.texts arguments⟩ o).files = [] := by
  apply List.filterMap_eq_nil_iff.mpr
  intro a ha
  obtain ⟨s, -, rfl⟩ := List.mem_map.mp ha
  rfl

end HostStep

namespace HostLinks

variable {name : String} {c c' : Option Bool} {steps : List HostStep}

theorem Ran.files_eq_nil {program : Program} {arguments : List String}
    {output : Except LinkFailure String} (h : Ran ⟨program, texts arguments⟩ output steps) :
    ∀ step ∈ steps, step.files = [] := by
  intro step hstep
  obtain ⟨o, rfl⟩ := h.exists_eq step hstep
  exact HostStep.files_texts program arguments o

theorem Checked.files_eq_nil {answer : Bool} (h : Checked c answer steps) :
    ∀ step ∈ steps, step.files = [] := by
  cases h with
  | known => nofun
  | asked o =>
    intro step hstep
    cases List.mem_singleton.mp hstep
    rfl

theorem LookedUp.files_eq_nil {reply : Except LinkFailure LinkHandle}
    (h : LookedUp name reply steps) : ∀ step ∈ steps, step.files = [] := by
  obtain ⟨output, hran, -⟩ := h
  exact hran.files_eq_nil

theorem Reads.files_eq_nil {reply : Except LinkFailure Device} (h : Reads name c reply steps c') :
    ∀ step ∈ steps, step.files = [] := by
  cases h with
  | absent hlink => exact hlink.files_eq_nil
  | lacking hlink hcheck =>
    exact List.forall_mem_append.mpr ⟨hlink.files_eq_nil, hcheck.files_eq_nil⟩
  | shown hlink hcheck hshown =>
    exact List.forall_mem_append.mpr ⟨hlink.files_eq_nil,
      List.forall_mem_append.mpr ⟨hcheck.files_eq_nil, hshown.files_eq_nil⟩⟩

theorem Resets.files_eq_nil {ps : List TunnelPeer} {reply : Except LinkFailure Unit}
    (h : Resets name ps reply steps) : ∀ step ∈ steps, step.files = [] := by
  induction h with
  | done => nofun
  | past hran _ ih => exact List.forall_mem_append.mpr ⟨hran.files_eq_nil, ih⟩
  | stop hran => exact hran.files_eq_nil

variable {setup : DeviceSetup}

theorem isPassable_application (hname : IsPassable name) : (application name setup).isPassable = true := by
  have hcommand : IsPassable (applyCommand setup) := by
    unfold applyCommand
    split <;> decide
  exact isPassable_apply hname _ hcommand _

/-- A file is applied once, and what follows has to do with no file. -/
theorem Applied.exists_eq {reply : Except LinkFailure Unit} (h : Applied name setup reply steps)
    (hname : IsPassable name) : ∃ o resets, steps = .ran (application name setup) o :: resets ∧
      ∀ step ∈ resets, step.files = [] := by
  have hran {output : Except LinkFailure String} {steps : List HostStep}
      (h : Ran (application name setup) output steps) :
      ∃ o, steps = [.ran (application name setup) o] := by
    cases h with
    | unpassable hpass =>
      rw [isPassable_application hname] at hpass
      cases hpass
    | ended _ o => exact ⟨o, rfl⟩
  cases h with
  | refused happlied =>
    obtain ⟨o, rfl⟩ := hran happlied
    exact ⟨o, [], rfl, by simp⟩
  | taken happlied hresets =>
    obtain ⟨o, rfl⟩ := hran happlied
    exact ⟨o, _, rfl, hresets.files_eq_nil⟩

end HostLinks

/-- What becomes of a configuration file: it is written with the text of the setup, given to one program
that applies it, and removed at the end. No other step of the request has to do with a file. -/
def Deed.Uses (d : Deed) (f : ConfigFile) (name : String) (setup : DeviceSetup) : Prop :=
  f.content = setup.text ∧ ∃ check o resets,
    d.steps = check ++ .wrote f (.ok ()) ::
      .ran ⟨.wg, [.text (if setup.replacesPeers then "setconf" else "addconf"), .text name, .file f]⟩ o ::
        (resets ++ [.removed f]) ∧
    ∀ step ∈ check ++ resets, step.files = []

namespace HostLinks

variable {d : Deed} {c c' : Option Bool} {f : ConfigFile}

theorem Configures.uses {name : String} {setup : DeviceSetup} {reply : Except LinkFailure Unit}
    {steps : List HostStep} (h : Configures name setup c reply steps c')
    (hf : .wrote f (.ok ()) ∈ steps) :
    Deed.Uses ⟨⟨.configureDevice name setup, reply⟩, steps⟩ f name setup := by
  have hnot {steps : List HostStep} (hfiles : ∀ step ∈ steps, step.files = []) :
      .wrote f (.ok ()) ∉ steps := by
    intro hmem
    cases hfiles _ hmem
  cases h with
  | lacking hcheck => exact absurd hf (hnot hcheck.files_eq_nil)
  | unwritten hcheck reason =>
    rcases List.mem_append.mp hf with hf | hf
    · exact absurd hf (hnot hcheck.files_eq_nil)
    · cases List.mem_singleton.mp hf
  | written hcheck hname happlied =>
    obtain ⟨o, resets, rfl, hresets⟩ := happlied.exists_eq hname
    have heq : f = configFile name setup := by
      rcases List.mem_append.mp hf with hf | hf
      · exact absurd hf (hnot hcheck.files_eq_nil)
      · simpa [hnot hresets] using hf
    subst heq
    exact ⟨rfl, _, o, resets, rfl, List.forall_mem_append.mpr ⟨hcheck.files_eq_nil, hresets⟩⟩

/-- Only configurations write files. -/
theorem Does.exists_uses (h : Does d.request c d.reply d.steps c') (hf : .wrote f (.ok ()) ∈ d.steps) :
    ∃ name setup, d.request = .configureDevice name setup ∧ d.Uses f name setup := by
  obtain ⟨⟨q, reply⟩, steps⟩ := d
  have hnot (hfiles : ∀ step ∈ steps, step.files = []) : False := by
    cases hfiles _ hf
  cases q with
  | configureDevice name setup => exact ⟨name, setup, rfl, Configures.uses h hf⟩
  | device name => exact (hnot (Reads.files_eq_nil h)).elim
  | linkByName name => exact (hnot (LookedUp.files_eq_nil h.2)).elim
  | _ =>
    obtain ⟨-, arguments, output, hran⟩ := h
    exact (hnot hran.files_eq_nil).elim

end HostLinks

/-! ### Whole sessions -/

/-- Requests that come to the point where the tool is needed. -/
inductive Deed.NeedsTool (d : Deed) : Prop
  | configures {name : String} {setup : DeviceSetup} (h : d.request = .configureDevice name setup)
  | reads {name : String} {stdout stderr : List UInt8} {index : UInt32}
    (h : d.request = .device name)
    (hlookup : .ran (lookup name) (.exited 0 stdout stderr) ∈ d.steps)
    (hindex : HostLinks.indexOf? (Utf8.decodeLossy stdout).toList = some index)

/-- How the requests of a session treat the tool and the files that they make for it. -/
structure ToolDiscipline (deeds : List Deed) : Prop where
  /-- The tool is looked for once at most. -/
  probed : (deeds.flatMap Deed.steps).countP (·.runs .which) ≤ 1
  /-- It is used only after it was found. -/
  found : ∀ before step later, deeds.flatMap Deed.steps = before ++ step :: later →
    step.runs .wg = true → ∃ p ∈ before, p.Finds
  /-- If it was not found, it is never used, and what needs it fails for want of it. -/
  missed : ∀ p ∈ deeds.flatMap Deed.steps, p.Misses →
    (∀ step ∈ deeds.flatMap Deed.steps, step.runs .wg = false) ∧
      ∀ d ∈ deeds, d.NeedsTool → d.reply = .error lacksTool
  /-- That there is no link is found out without the tool check. The reply says so, unless the report that
  there is none also reads as one that something is there. -/
  absent : ∀ d ∈ deeds, ∀ name code stdout stderr, d.request = .device name →
    .ran (lookup name) (.exited code stdout stderr) ∈ d.steps → code ≠ 0 → ReportsAbsence stderr →
    d.steps = [.ran (lookup name) (.exited code stdout stderr)] ∧
      ((∃ text, d.reply = .error (.notFound text)) ↔ ¬ ReportsPresence stderr)
  /-- Files are written for configurations alone, and are gone when these are over. -/
  files : ∀ d ∈ deeds, ∀ f, .wrote f (.ok ()) ∈ d.steps →
    ∃ name setup, d.request = .configureDevice name setup ∧ d.Uses f name setup

namespace HostLinks

variable {d : Deed} {c c' : Option Bool} {deeds : List Deed}

theorem reading_bind_of_index {name : String} {stdout stderr : List UInt8} {index : UInt32}
    (h : indexOf? (Utf8.decodeLossy stdout).toList = some index) :
    (reading (lookup name) (.exited 0 stdout stderr)).bind (handleOf name) = .ok ⟨name, index⟩ := by
  change handleOf name (Utf8.decodeLossy stdout) = _
  unfold handleOf
  rw [h]

theorem reading_bind_of_failure {name : String} {code : Nat} (h : code ≠ 0)
    (stdout stderr : List UInt8) :
    (reading (lookup name) (.exited code stdout stderr)).bind (handleOf name) =
      .error (failureOf (lookup name) stderr) := by
  unfold reading
  dsimp only
  rw [if_pos h]
  rfl

/-- A request that needs the tool has asked for it. -/
theorem Does.answer_of_needsTool (h : Does d.request c d.reply d.steps c') (hneeds : d.NeedsTool) :
    ∃ answer, c' = some answer ∧ (answer = false → d.reply = .error lacksTool) := by
  obtain ⟨⟨q, reply⟩, steps⟩ := d
  cases hneeds with
  | configures hq =>
    cases hq
    cases h with
    | lacking => exact ⟨false, rfl, fun _ => rfl⟩
    | unwritten => exact ⟨true, rfl, fun hfalse => by cases hfalse⟩
    | written => exact ⟨true, rfl, fun hfalse => by cases hfalse⟩
  | reads hq hlookup hindex =>
    cases hq
    have hreads := Reads.of_lookup h hlookup
    rw [reading_bind_of_index hindex] at hreads
    exact hreads

theorem Accounts.toolDiscipline (h : Accounts deeds c) : ToolDiscipline deeds where
  probed := h.paced.countP_probes
  found before step later hsplit hruns := by
    have hpaced := h.paced
    rw [hsplit] at hpaced
    rcases hpaced.finds_before hruns with hnone | hfinds
    · cases hnone
    · exact hfinds
  missed p hp hmisses := by
    have hc := h.paced.eq_of_misses hp hmisses
    constructor
    · intro step hstep
      by_contra hruns
      have htrue := h.paced.eq_of_runs hstep (by simpa using hruns)
      rw [hc] at htrue
      cases htrue
    · intro d hd hneeds
      obtain ⟨c₁, c₂, hdoes, hc₂⟩ := h.exists_does hd
      obtain ⟨answer, rfl, hreply⟩ := hdoes.answer_of_needsTool hneeds
      rw [hc] at hc₂
      rcases hc₂ with hnone | hfalse
      · cases hnone
      · exact hreply (Option.some.inj hfalse)
  absent d hd name code stdout stderr hq hlookup hcode habsence := by
    obtain ⟨c₁, c₂, hdoes, -⟩ := h.exists_does hd
    obtain ⟨⟨q, reply⟩, steps⟩ := d
    cases hq
    have hreads := Reads.of_lookup hdoes hlookup
    rw [reading_bind_of_failure hcode] at hreads
    obtain ⟨hsteps, hreply⟩ := hreads
    refine ⟨hsteps, ?_⟩
    rw [← failureOf_isNotFound_iff (lookup name) habsence]
    dsimp only at hreply ⊢
    rw [hreply]
    cases failureOf (lookup name) stderr <;> simp [LinkFailure.isNotFound]
  files d hd f hf := by
    obtain ⟨c₁, c₂, hdoes, -⟩ := h.exists_does hd
    exact hdoes.exists_uses hf

end HostLinks

theorem Script.refusal?_of_not_isPassable {f : ConfigFile} (hnul : ¬ IsPassable f.stem) :
    Script.refusal? f = some "file name contained an unexpected NUL byte" := by
  have hany : f.shownName.toList.any (fun c => decide (c.toNat = 0)) = true := by
    unfold IsPassable at hnul
    push Not at hnul
    obtain ⟨c, hc, hzero⟩ := hnul
    refine List.any_eq_true.mpr ⟨c, ?_, decide_eq_true hzero⟩
    rw [ConfigFile.shownName, String.toList_append]
    exact List.mem_append_left _ hc
  unfold Script.refusal?
  exact if_pos hany

theorem Script.refusesNul_host : Script.host.RefusesNul := by
  intro f s hnul
  change ∃ reason, ((Script.writeFile f).run s).1 = .error reason
  unfold Script.writeFile
  rw [Script.refusal?_of_not_isPassable hnul]
  exact ⟨_, rfl⟩

/-- Whatever is called in one process, and whatever the host answers, the account of the session is of what
it does without an account, and its requests treat the tool and their files as they should. -/
theorem Call.runAll_toolDiscipline {τ : Type} {h : Host τ} (hnul : h.RefusesNul) (calls : List Call)
    (s : τ) :
    let accounted := (Call.runAll (HostLinks.accounted h) calls).run (⟨s, none⟩, [])
    let plain := (Call.runAll (HostLinks.backend h) calls).run ⟨s, none⟩
    accounted.1 = plain.1 ∧ accounted.2.1 = plain.2 ∧ ToolDiscipline accounted.2.2 := by
  intro accounted plain
  obtain ⟨hanswers, hstate⟩ := HostLinks.runAll_accounted h calls ⟨s, none⟩ []
  have haccounts : Accounts accounted.2.2 accounted.2.1.toolCheck :=
    HostLinks.accounts_runAll hnul calls .start
  exact ⟨hanswers, hstate, haccounts.toolDiscipline⟩

/-- A host without the tool, on which a link is there. -/
theorem Call.runAll_toolDiscipline_sample :
    let r := Reconciler.sampleNode 0x0A010203 Reconciler.sampleKey
    let calls : List Call := [.status r, .request (.device "wg0"), .bringUp r [], .takeDown r]
    let s : Script := ⟨[.ip, .which], [⟨0, Utf8.encode "7: wgoverlay".toList, []⟩, ⟨1, [], []⟩], []⟩
    let accounted := (Call.runAll (HostLinks.accounted Script.host) calls).run (⟨s, none⟩, [])
    let plain := (Call.runAll (HostLinks.backend Script.host) calls).run ⟨s, none⟩
    Script.host.RefusesNul ∧
      accounted.1 = plain.1 ∧ accounted.2.1 = plain.2 ∧ ToolDiscipline accounted.2.2 :=
  ⟨Script.refusesNul_host, Call.runAll_toolDiscipline Script.refusesNul_host _ _⟩

def misleadingReport : List UInt8 :=
  Utf8.encode "Device \"File exists\" does not exist.".toList

/-- A link that is not there is taken for one that is, for the sake of its name. -/
theorem not_device_notFound_of_absence :
    ¬ ∀ (τ : Type) (h : Host τ) (calls : List Call) (s : τ) (d : Deed) (name : String) (code : Nat)
      (stdout stderr : List UInt8), h.RefusesNul →
      d ∈ ((Call.runAll (HostLinks.accounted h) calls).run (⟨s, none⟩, [])).2.2 →
      d.request = .device name → .ran (lookup name) (.exited code stdout stderr) ∈ d.steps →
      code ≠ 0 → ReportsAbsence stderr → ∃ text, d.reply = .error (.notFound text) := by
  intro hall
  have hsaid : Text.trim (Utf8.decodeLossy misleadingReport).toList =
      "Device \"File exists\" does not exist.".toList := by
    rw [misleadingReport, HostLinks.toList_decodeLossy_encode]
    decide
  have habsence : ReportsAbsence misleadingReport := by
    unfold ReportsAbsence
    rw [hsaid]
    decide
  have hpresence : ReportsPresence misleadingReport := by
    unfold ReportsPresence
    rw [hsaid]
    decide
  -- The reply is what is made of the report, so the session need not be computed further.
  let d : Deed := ⟨⟨.device "File exists", .error (HostLinks.failureOf (lookup "File exists") misleadingReport)⟩,
    [.ran (lookup "File exists") (.exited 1 [] misleadingReport)]⟩
  obtain ⟨text, htext⟩ := hall Script Script.host [.request (.device "File exists")]
    ⟨[.ip, .wg, .which], [⟨1, [], misleadingReport⟩], []⟩ d "File exists" 1 [] misleadingReport
    Script.refusesNul_host (by exact List.mem_singleton_self d) rfl (List.mem_singleton_self _)
    (by decide) habsence
  have hfound := (HostLinks.failureOf_isNotFound_iff (lookup "File exists") habsence).mp
    (by rw [Except.error.inj htext]; rfl)
  exact hfound hpresence

end OverlayTunnel
