import OverlayTunnel.Proofs.Host.Account
import OverlayTunnel.Proofs.Reconciler.Endings

/-!
What a call leaves behind in the process that makes it. Of all that happens on the host only the answer of
the tool check is remembered, and how far the call came tells what that answer is.
-/
namespace OverlayTunnel

variable {τ α : Type}

namespace HostLinks

def Remembers (c : Option Bool) (s : HostLinks τ) : Prop :=
  s.toolCheck = c

variable {h : Host τ} {c : Option Bool} {name : String} {setup : DeviceSetup}

/-! ### Single programs -/

theorem ends_onHost (act : StateM τ α) {E : LinkFailure → HostLinks τ → Prop} :
    Ends (Remembers c) (onHost act) E fun _ => Remembers c :=
  fun s hs => .inr ⟨(act.run s.host).1, _, rfl, hs⟩

theorem failureOf_cases (i : Invocation) (stderr : List UInt8) :
    ∃ said, failureOf i stderr = .alreadyExists said ∨ failureOf i stderr = .notFound said ∨
      failureOf i stderr = .command i.program.name i.shownArguments said := by
  unfold failureOf
  dsimp only
  split
  · exact ⟨_, .inl rfl⟩
  split
  · exact ⟨_, .inr (.inl rfl)⟩
  · exact ⟨_, .inr (.inr rfl)⟩

theorem failureOf_ne_lacksTool (i : Invocation) (stderr : List UInt8) :
    failureOf i stderr ≠ lacksTool := by
  obtain ⟨said, h | h | h⟩ := failureOf_cases i stderr <;> simp [h, lacksTool]

/-- What a program says is never taken for a failure to run it. -/
theorem failureOf_ne_io (i : Invocation) (stderr : List UInt8) (reason : String) :
    failureOf i stderr ≠ .io reason := by
  obtain ⟨said, h | h | h⟩ := failureOf_cases i stderr <;> simp [h]

/-- A program changes no answer, and what comes of it is not that the tool is missing. It is not even run if
its arguments cannot be passed. -/
theorem ends_run (program : Program) (arguments : List Argument) :
    Ends (Remembers c) (run h program arguments)
      (fun e s => Remembers c s ∧ e ≠ lacksTool ∧
        (e.isAlreadyExists = true → (Invocation.mk program arguments).isPassable = true))
      (fun _ s => Remembers c s ∧ (Invocation.mk program arguments).isPassable = true) := by
  unfold run
  dsimp only
  split
  next => exact .throw _ fun s hs => ⟨hs, by simp [lacksTool], by simp [LinkFailure.isAlreadyExists]⟩
  next hpass =>
  rw [Bool.not_eq_false] at hpass
  refine (ends_onHost _).bind fun o => ?_
  cases o with
  | notStarted reason => exact .throw _ fun s hs => ⟨hs, by simp [lacksTool], fun _ => hpass⟩
  | exited code stdout stderr =>
    dsimp only
    split
    · exact .throw _ fun s hs => ⟨hs, failureOf_ne_lacksTool _ stderr, fun _ => hpass⟩
    · exact .pure _ fun s hs => ⟨hs, hpass⟩

theorem isPassable_of_texts {program : Program} {arguments : List String}
    (hpass : (Invocation.mk program (texts arguments)).isPassable = true) :
    ∀ a ∈ arguments, IsPassable a :=
  fun _ ha => Invocation.isPassable_of_mem hpass (List.mem_map_of_mem ha)

theorem ends_ip (arguments : List String) :
    Ends (Remembers c) (ip h arguments)
      (fun e s => Remembers c s ∧ (e.isAlreadyExists = true → ∀ a ∈ arguments, IsPassable a))
      (fun _ s => Remembers c s ∧ ∀ a ∈ arguments, IsPassable a) := by
  unfold ip
  refine Ends.bind ((ends_run .ip (texts arguments)).mono (fun _ hs => hs) ?_ fun _ _ h => h) ?_
  · rintro e s ⟨hs, -, hexists⟩
    exact ⟨hs, fun he => isPassable_of_texts (hexists he)⟩
  · exact fun _ => .pure () fun s hs => ⟨hs.1, isPassable_of_texts hs.2⟩

theorem ends_linkByName (name : String) :
    Ends (Remembers c) (linkByName h name) (fun _ => Remembers c) (fun _ => Remembers c) := by
  unfold linkByName
  refine Ends.bind ((ends_run .ip _).mono (fun _ hs => hs) (fun e s hs => hs.1) fun _ s hs => hs.1) ?_
  intro output
  cases indexOf? output.toList with
  | none => exact .throw _ fun s hs => hs
  | some index => exact .pure _ fun s hs => hs

/-! ### The tool check -/

theorem ends_hasTool {E : LinkFailure → HostLinks τ → Prop} :
    Ends (Remembers c) (hasTool h) E fun answer s =>
      Remembers (some answer) s ∧ (c = some false → answer = false) := by
  rintro ⟨s, c'⟩ rfl
  cases c' with
  | none => exact .inr ⟨_, _, rfl, rfl, nofun⟩
  | some answer => exact .inr ⟨answer, ⟨s, some answer⟩, rfl, rfl, Option.some.inj⟩

theorem ends_requireTool :
    Ends (Remembers c) (requireTool h)
      (fun e s => e = lacksTool ∧ Remembers (some false) s)
      (fun _ s => c ≠ some false ∧ Remembers (some true) s) := by
  unfold requireTool
  refine ends_hasTool.bind fun answer => ?_
  cases answer with
  | false => exact .throw _ fun s hs => ⟨rfl, hs.1⟩
  | true => exact .pure () fun s hs => ⟨fun hc => absurd (hs.2 hc) (by decide), hs.1⟩

/-! ### Configuring a device -/

theorem ends_andThen {act : LinkM (HostLinks τ) α} {last : StateM τ Unit} {F : LinkFailure → Prop}
    (hact : Ends (Remembers c) act (fun e s => Remembers c s ∧ F e) fun _ => Remembers c) :
    Ends (Remembers c) (andThen act last) (fun e s => Remembers c s ∧ F e) fun _ => Remembers c := by
  intro s hs
  rw [run_andThen]
  rcases hact s hs with ⟨e, s', hrun, he⟩ | ⟨a, s', hrun, ha⟩
  · rw [hrun]
    exact .inl ⟨e, _, rfl, he⟩
  · rw [hrun]
    exact .inr ⟨a, _, rfl, ha⟩

theorem ends_applyFile (name : String) (setup : DeviceSetup) :
    Ends (Remembers c) (applyFile h name setup) (fun e s => Remembers c s ∧ e ≠ lacksTool)
      fun _ => Remembers c := by
  have hrun (arguments : List Argument) : Ends (Remembers c) (run h .wg arguments)
      (fun e s => Remembers c s ∧ e ≠ lacksTool) fun _ => Remembers c :=
    (ends_run .wg arguments).mono (fun _ hs => hs) (fun e s hs => ⟨hs.1, hs.2.1⟩) fun _ s hs => hs.1
  unfold applyFile
  refine (hrun _).bind fun _ => .forM fun p _ => ?_
  exact (hrun _).bind fun _ => .pure () fun s hs => hs

/-- The answer is known once a device was to be configured. It is no exactly if the failure says so. -/
theorem ends_configureDevice (name : String) (setup : DeviceSetup) :
    Ends (Remembers c) (configureDevice h name setup)
      (fun e s => Remembers (some (decide (e ≠ lacksTool))) s)
      (fun _ s => c ≠ some false ∧ Remembers (some true) s) := by
  have hknown {e : LinkFailure} {s : HostLinks τ} (hs : Remembers (some true) s ∧ e ≠ lacksTool) :
      Remembers (some (decide (e ≠ lacksTool))) s := by
    rw [decide_eq_true hs.2]
    exact hs.1
  unfold configureDevice
  refine Ends.bind (ends_requireTool.mono (fun _ hs => hs) ?_ fun _ _ hs => hs) fun _ =>
    .of_and fun hc => ?_
  · rintro e s ⟨rfl, hs⟩
    rw [decide_eq_false (by simp)]
    exact hs
  · refine (ends_onHost _).bind fun written => ?_
    cases written with
    | error reason => exact .throw _ fun s hs => hknown ⟨hs, by simp [lacksTool]⟩
    | ok _ =>
      exact (ends_andThen (ends_applyFile name setup)).mono (fun _ hs => hs) (fun _ _ hs => hknown hs)
        fun _ s hs => ⟨hc, hs⟩

/-- The requests that do without the tool leave the answer as it is. -/
theorem ends_perform (q : LinkRequest) (hq : q.operation ∉ [.device, .configureDevice]) :
    Ends (Remembers c) ((backend h).perform q) (fun _ => Remembers c) fun _ => Remembers c := by
  have hip (arguments : List String) :
      Ends (Remembers c) (ip h arguments) (fun _ => Remembers c) fun _ => Remembers c :=
    (ends_ip arguments).mono (fun _ hs => hs) (fun _ _ hs => hs.1) fun _ _ hs => hs.1
  cases q with
  | device name => simp [LinkRequest.operation] at hq
  | configureDevice name setup => simp [LinkRequest.operation] at hq
  | linkByName name => exact ends_linkByName name
  | _ => exact hip _

/-! ### Answers for good -/

/-- An operation that keeps an answer of the tool check, whatever comes of it. -/
abbrev Heeds (answer : Bool) (x : LinkM (HostLinks τ) α) : Prop :=
  Ends (Remembers (some answer)) x (fun _ => Remembers (some answer)) fun _ => Remembers (some answer)

variable {answer : Bool}

theorem heeds_run (program : Program) (arguments : List Argument) :
    Heeds answer (run h program arguments) :=
  (ends_run program arguments).mono (fun _ hs => hs) (fun _ _ hs => hs.1) fun _ _ hs => hs.1

theorem heeds_requireTool : Heeds answer (requireTool h) := by
  have hcheck : Heeds answer (hasTool h) := by
    rintro ⟨s, c⟩ rfl
    exact .inr ⟨answer, ⟨s, some answer⟩, rfl, rfl⟩
  unfold requireTool
  refine hcheck.bind fun found => ?_
  cases found with
  | false => exact .throw _ fun _ hs => hs
  | true => exact .pure () fun _ hs => hs

theorem heeds_device (name : String) : Heeds answer (device h name) := by
  unfold device
  refine (ends_linkByName name).bind fun _ => heeds_requireTool.bind fun _ => ?_
  refine (heeds_run _ _).bind fun dump => ?_
  cases Device.ofDump name dump with
  | error e => exact .throw _ fun _ hs => hs
  | ok d => exact .pure d fun _ hs => hs

theorem heeds_configureDevice (name : String) (setup : DeviceSetup) :
    Heeds answer (configureDevice h name setup) := by
  unfold configureDevice
  refine heeds_requireTool.bind fun _ => (ends_onHost _).bind fun written => ?_
  cases written with
  | error reason => exact .throw _ fun _ hs => hs
  | ok _ =>
    exact (ends_andThen (ends_applyFile name setup)).mono (fun _ hs => hs) (fun _ _ hs => hs.1)
      fun _ _ hs => hs

/-- No request takes an answer of the tool check back. -/
theorem keeps_answer (h : Host τ) (answer : Bool) : (backend h).Keeps (Remembers (some answer)) := by
  have hheeds (q : LinkRequest) : Heeds answer ((backend h).perform q) := by
    cases q with
    | device name => exact heeds_device name
    | configureDevice name setup => exact heeds_configureDevice name setup
    | _ => exact ends_perform _ (by simp [LinkRequest.operation])
  intro q s hs
  rcases hheeds q s hs with ⟨e, s', hrun, hs'⟩ | ⟨a, s', hrun, hs'⟩
  · rw [hrun]
    exact hs'
  · rw [hrun]
    exact hs'

end HostLinks

end OverlayTunnel
