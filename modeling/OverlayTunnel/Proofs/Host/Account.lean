import OverlayTunnel.Proofs.Host.Arguments
import OverlayTunnel.Proofs.Host.Running
import OverlayTunnel.Proofs.Host.Tracing

/-!
What requests do on a host: the programs that each of them runs and the files that it writes, in order,
and the reply that it makes of what comes of them.
-/
namespace OverlayTunnel

variable {τ α : Type}

namespace HostLinks

/-! ### Programs -/

/-- What the outcome of a program means for the operation that runs it. -/
def reading (i : Invocation) : Outcome → Except LinkFailure String
  | .notStarted reason => .error (.io reason)
  | .exited code stdout stderr =>
    if code ≠ 0 then .error (failureOf i stderr) else .ok (Utf8.decodeLossy stdout)

/-- A program is run once, unless its arguments cannot be passed. -/
inductive Ran (i : Invocation) : Except LinkFailure String → List HostStep → Prop
  | unpassable (hpass : i.isPassable = false) :
    Ran i (.error (.io "nul byte found in provided data")) []
  | ended (hpass : i.isPassable = true) (o : Outcome) : Ran i (reading i o) [.ran i o]

end HostLinks

def Outcome.isSuccess : Outcome → Bool
  | .exited 0 _ _ => true
  | _ => false

theorem Outcome.isSuccess_iff {o : Outcome} : o.isSuccess = true ↔ o.Succeeds := by
  constructor
  · intro h
    unfold isSuccess at h
    split at h
    next stdout stderr => exact ⟨stdout, stderr, rfl⟩
    next => cases h
  · rintro ⟨stdout, stderr, rfl⟩
    rfl

namespace HostLinks

/-- The program that looks for the configuration tool. -/
def probe : Invocation :=
  ⟨.which, [.text "wg"]⟩

/-- The tool check and its answer. It is made if there is no answer yet. -/
inductive Checked : Option Bool → Bool → List HostStep → Prop
  | known (answer : Bool) : Checked (some answer) answer []
  | asked (o : Outcome) : Checked none o.isSuccess [.ran probe o]

variable {h : Host τ}

theorem traces_onHost_run (i : Invocation) :
    Traces (onHost (h.logging.run i)) fun c result steps c' =>
      c' = c ∧ ∃ o, result = .ok o ∧ steps = [.ran i o] :=
  fun _ _ _ => ⟨_, _, _, _, rfl, rfl, _, rfl, rfl⟩

theorem traces_run (program : Program) (arguments : List Argument) :
    Traces (run h.logging program arguments) fun c result steps c' =>
      c' = c ∧ Ran ⟨program, arguments⟩ result steps := by
  unfold run
  dsimp only
  split
  next hpass => exact .pure _ fun c => ⟨rfl, .unpassable hpass⟩
  next hpass =>
  rw [Bool.not_eq_false] at hpass
  refine .bind (traces_onHost_run _) (R := fun o c result steps c' =>
    c' = c ∧ result = reading ⟨program, arguments⟩ o ∧ steps = []) (fun o => ?_) ?_ ?_
  · cases o with
    | notStarted reason => exact .pure _ fun c => ⟨rfl, rfl, rfl⟩
    | exited code stdout stderr =>
      dsimp only
      split
      next hcode => exact .pure _ fun c => ⟨rfl, (if_pos hcode).symm, rfl⟩
      next hcode => exact .pure _ fun c => ⟨rfl, (if_neg hcode).symm, rfl⟩
  · rintro c e steps c' ⟨-, o, ho, -⟩
    cases ho
  · rintro c a steps c₁ result later c₂ ⟨rfl, o, ho, rfl⟩ ⟨rfl, rfl, rfl⟩
    cases ho
    exact ⟨rfl, .ended hpass a⟩

theorem traces_onHost_write (f : ConfigFile) :
    Traces (onHost (h.logging.writeFile f)) fun c result steps c' =>
      c' = c ∧ ∃ written, result = .ok written ∧ steps = [.wrote f written] :=
  fun _ _ _ => ⟨_, _, _, _, rfl, rfl, _, rfl, rfl⟩

theorem traces_hasTool :
    Traces (hasTool h.logging) fun c result steps c' =>
      ∃ answer, result = .ok answer ∧ Checked c answer steps ∧ c' = some answer := by
  intro s log c
  cases c with
  | some answer => exact ⟨.ok answer, s, [], some answer, by rw [List.append_nil]; rfl,
      answer, rfl, .known answer, rfl⟩
  | none => exact ⟨_, _, _, _, rfl, _, rfl, .asked _, rfl⟩

def lacksTool : LinkFailure :=
  .toolMissing "wg (install wireguard-tools)"

theorem traces_requireTool :
    Traces (requireTool h.logging) fun c result steps c' =>
      ∃ answer, Checked c answer steps ∧ c' = some answer ∧
        result = if answer then .ok () else .error lacksTool := by
  unfold requireTool
  refine .bind traces_hasTool (R := fun answer c result steps c' =>
    c' = c ∧ steps = [] ∧ result = if answer then .ok () else .error lacksTool)
    (fun answer => ?_) ?_ ?_
  · cases answer with
    | false => exact .pure _ fun c => ⟨rfl, rfl, rfl⟩
    | true => exact .pure _ fun c => ⟨rfl, rfl, rfl⟩
  · rintro c e steps c' ⟨answer, ho, -⟩
    cases ho
  · rintro c a steps c₁ result later c₂ ⟨answer, ho, hcheck, rfl⟩ ⟨rfl, rfl, rfl⟩
    cases ho
    exact ⟨a, by rwa [List.append_nil], rfl, rfl⟩

/-! ### Requests -/

/-- The program that looks a link up. -/
def lookup (name : String) : Invocation :=
  ⟨.ip, texts ["-o", "link", "show", "dev", name]⟩

def handleOf (name output : String) : Except LinkFailure LinkHandle :=
  match indexOf? output.toList with
  | some index => .ok ⟨name, index⟩
  | none => .error (.badOutput ("no link index in " ++ Text.quoted (Text.trimmed output)))

/-- A link is looked up by one program. -/
def LookedUp (name : String) (reply : Except LinkFailure LinkHandle) (steps : List HostStep) : Prop :=
  ∃ output, Ran (lookup name) output steps ∧ reply = output.bind (handleOf name)

def deviceOf (name dump : String) : Except LinkFailure Device :=
  match Device.ofDump name dump with
  | .ok d => .ok d
  | .error e => .error (.badOutput e.message)

/-- A device is read by the tool, once its link has been looked up and the tool is known to be there. -/
inductive Reads (name : String) :
    Option Bool → Except LinkFailure Device → List HostStep → Option Bool → Prop
  | absent {c : Option Bool} {e : LinkFailure} {steps : List HostStep}
    (hlink : LookedUp name (.error e) steps) : Reads name c (.error e) steps c
  | lacking {c : Option Bool} {link : LinkHandle} {steps check : List HostStep}
    (hlink : LookedUp name (.ok link) steps) (hcheck : Checked c false check) :
    Reads name c (.error lacksTool) (steps ++ check) (some false)
  | shown {c : Option Bool} {link : LinkHandle} {steps check shown : List HostStep}
    {output : Except LinkFailure String} (hlink : LookedUp name (.ok link) steps)
    (hcheck : Checked c true check) (hshown : Ran ⟨.wg, texts ["show", name, "dump"]⟩ output shown) :
    Reads name c (output.bind (deviceOf name)) (steps ++ (check ++ shown)) (some true)

/-- The program that applies a configuration file. -/
def application (name : String) (setup : DeviceSetup) : Invocation :=
  ⟨.wg, [.text (applyCommand setup), .text name, .file (configFile name setup)]⟩

/-- The networks of peers are set one after another, up to the first failure. -/
inductive Resets (name : String) : List TunnelPeer → Except LinkFailure Unit → List HostStep → Prop
  | done : Resets name [] (.ok ()) []
  | past {p : TunnelPeer} {ps : List TunnelPeer} {output : String} {steps later : List HostStep}
    {reply : Except LinkFailure Unit} (hran : Ran ⟨.wg, resetArguments name p⟩ (.ok output) steps)
    (hlater : Resets name ps reply later) : Resets name (p :: ps) reply (steps ++ later)
  | stop {p : TunnelPeer} {ps : List TunnelPeer} {e : LinkFailure} {steps : List HostStep}
    (hran : Ran ⟨.wg, resetArguments name p⟩ (.error e) steps) :
    Resets name (p :: ps) (.error e) steps

/-- A configuration file is applied, and then networks are set. -/
inductive Applied (name : String) (setup : DeviceSetup) :
    Except LinkFailure Unit → List HostStep → Prop
  | refused {e : LinkFailure} {steps : List HostStep}
    (hran : Ran (application name setup) (.error e) steps) : Applied name setup (.error e) steps
  | taken {output : String} {steps resets : List HostStep} {reply : Except LinkFailure Unit}
    (hran : Ran (application name setup) (.ok output) steps)
    (hresets : Resets name (peersToReset setup) reply resets) :
    Applied name setup reply (steps ++ resets)

/-- A device is configured by way of a file, once the tool is known to be there. -/
inductive Configures (name : String) (setup : DeviceSetup) :
    Option Bool → Except LinkFailure Unit → List HostStep → Option Bool → Prop
  | lacking {c : Option Bool} {check : List HostStep} (hcheck : Checked c false check) :
    Configures name setup c (.error lacksTool) check (some false)
  | unwritten {c : Option Bool} {check : List HostStep} (hcheck : Checked c true check)
    (reason : String) :
    Configures name setup c (.error (.io reason))
      (check ++ [.wrote (configFile name setup) (.error reason)]) (some true)
  | written {c : Option Bool} {check steps : List HostStep} {reply : Except LinkFailure Unit}
    (hcheck : Checked c true check) (hname : IsPassable name)
    (happlied : Applied name setup reply steps) :
    Configures name setup c reply
      (check ++ .wrote (configFile name setup) (.ok ()) ::
        (steps ++ [.removed (configFile name setup)])) (some true)

/-- What is done for a request. All but three of them are a matter of one program. -/
def Does : (q : LinkRequest) → Option Bool → Except LinkFailure q.Reply → List HostStep →
    Option Bool → Prop
  | .device name => Reads name
  | .configureDevice name setup => Configures name setup
  | .linkByName name => fun c reply steps c' => c' = c ∧ LookedUp name reply steps
  | _ => fun c _ steps c' => c' = c ∧ ∃ arguments output, Ran ⟨.ip, texts arguments⟩ output steps

end HostLinks

/-- The path of a file cannot hold a NUL character, so there is no such file. -/
def Host.RefusesNul (h : Host τ) : Prop :=
  ∀ f s, ¬ IsPassable f.stem → ∃ reason, ((h.writeFile f).run s).1 = .error reason

namespace HostLinks

variable {h : Host τ}

theorem traces_linkByName (name : String) :
    Traces (linkByName h.logging name) fun c reply steps c' => c' = c ∧ LookedUp name reply steps := by
  unfold linkByName
  refine .bind (traces_run _ _) (R := fun output c reply steps c' =>
    c' = c ∧ steps = [] ∧ reply = handleOf name output) (fun output => ?_) ?_ ?_
  · unfold handleOf
    cases indexOf? output.toList with
    | none => exact .pure _ fun c => ⟨rfl, rfl, rfl⟩
    | some index => exact .pure _ fun c => ⟨rfl, rfl, rfl⟩
  · rintro c e steps c' ⟨rfl, hran⟩
    exact ⟨rfl, .error e, hran, rfl⟩
  · rintro c output steps c₁ reply later c₂ ⟨rfl, hran⟩ ⟨rfl, rfl, rfl⟩
    exact ⟨rfl, .ok output, by rwa [List.append_nil], rfl⟩

theorem traces_ip (arguments : List String) :
    Traces (ip h.logging arguments) fun c _ steps c' =>
      c' = c ∧ ∃ arguments output, Ran ⟨.ip, texts arguments⟩ output steps := by
  unfold ip
  refine .bind (traces_run _ _) (R := fun _ c _ steps c' => c' = c ∧ steps = [])
    (fun _ => .pure _ fun c => ⟨rfl, rfl⟩) ?_ ?_
  · rintro c e steps c' ⟨rfl, hran⟩
    exact ⟨rfl, arguments, _, hran⟩
  · rintro c output steps c₁ reply later c₂ ⟨rfl, hran⟩ ⟨rfl, rfl⟩
    exact ⟨rfl, arguments, _, by rwa [List.append_nil]⟩

/-- What needs the tool is done if the check says that it is there, and else nothing is. -/
theorem Traces.requireTool_bind {f : Unit → LinkM (HostLinks (τ × List HostStep)) α}
    {P : Option Bool → Except LinkFailure α → List HostStep → Option Bool → Prop}
    (hf : Traces (f ()) P) :
    Traces (requireTool h.logging >>= f) fun c reply steps c' =>
      (Checked c false steps ∧ reply = .error lacksTool ∧ c' = some false) ∨
        ∃ check later, Checked c true check ∧ P (some true) reply later c' ∧
          steps = check ++ later := by
  refine .bind traces_requireTool (R := fun _ => P) (fun _ => hf) ?_ ?_
  · rintro c e steps c' ⟨answer, hcheck, rfl, hreply⟩
    cases answer with
    | true => cases hreply
    | false =>
      cases hreply
      exact .inl ⟨hcheck, rfl, rfl⟩
  · rintro c _ steps c₁ reply later c₂ ⟨answer, hcheck, rfl, hreply⟩ hP
    cases answer with
    | false => cases hreply
    | true => exact .inr ⟨steps, later, hcheck, hP, rfl⟩

theorem traces_show (name : String) :
    Traces (do
      let dump ← run h.logging .wg (texts ["show", name, "dump"])
      match Device.ofDump name dump with
      | .ok d => return d
      | .error e => throw (.badOutput e.message)) fun c reply steps c' =>
        c' = c ∧ ∃ output, Ran ⟨.wg, texts ["show", name, "dump"]⟩ output steps ∧
          reply = output.bind (deviceOf name) := by
  refine .bind (traces_run _ _) (R := fun dump c reply steps c' =>
    c' = c ∧ steps = [] ∧ reply = deviceOf name dump) (fun dump => ?_) ?_ ?_
  · unfold deviceOf
    cases Device.ofDump name dump with
    | error e => exact .pure _ fun c => ⟨rfl, rfl, rfl⟩
    | ok d => exact .pure _ fun c => ⟨rfl, rfl, rfl⟩
  · rintro c e steps c' ⟨rfl, hran⟩
    exact ⟨rfl, .error e, hran, rfl⟩
  · rintro c dump steps c₁ reply later c₂ ⟨rfl, hran⟩ ⟨rfl, rfl, rfl⟩
    exact ⟨rfl, .ok dump, by rwa [List.append_nil], rfl⟩

theorem traces_device (name : String) : Traces (device h.logging name) (Reads name) := by
  unfold device
  refine .bind (traces_linkByName name) (fun _ => .requireTool_bind (traces_show name)) ?_ ?_
  · rintro c e steps c' ⟨rfl, hlink⟩
    exact .absent hlink
  · rintro c link steps c₁ reply later c₂ ⟨rfl, hlink⟩
      (⟨hcheck, rfl, rfl⟩ | ⟨check, shown, hcheck, ⟨rfl, output, hran, rfl⟩, rfl⟩)
    · exact .lacking hlink hcheck
    · exact .shown hlink hcheck hran

theorem traces_resets (name : String) (ps : List TunnelPeer) :
    Traces (ps.forM fun p => do
      let _ ← run h.logging .wg (resetArguments name p)) fun c reply steps c' =>
        c' = c ∧ Resets name ps reply steps := by
  induction ps with
  | nil => exact .pure _ fun c => ⟨rfl, .done⟩
  | cons p ps ih =>
    unfold List.forM
    simp only [bind_assoc, pure_bind]
    refine .bind (traces_run _ _) (fun _ => ih) ?_ ?_
    · rintro c e steps c' ⟨rfl, hran⟩
      exact ⟨rfl, .stop hran⟩
    · rintro c output steps c₁ reply later c₂ ⟨rfl, hran⟩ ⟨rfl, hlater⟩
      exact ⟨rfl, .past hran hlater⟩

theorem traces_applyFile (name : String) (setup : DeviceSetup) :
    Traces (applyFile h.logging name setup) fun c reply steps c' =>
      c' = c ∧ Applied name setup reply steps := by
  unfold applyFile
  refine .bind (traces_run _ _) (fun _ => traces_resets name (peersToReset setup)) ?_ ?_
  · rintro c e steps c' ⟨rfl, hran⟩
    exact ⟨rfl, .refused hran⟩
  · rintro c output steps c₁ reply later c₂ ⟨rfl, hran⟩ ⟨rfl, hresets⟩
    exact ⟨rfl, .taken hran hresets⟩

/-- The file is removed whatever came of the operation that needed it. -/
theorem Traces.andThen_removeFile {act : LinkM (HostLinks (τ × List HostStep)) α} {f : ConfigFile}
    {P : Option Bool → Except LinkFailure α → List HostStep → Option Bool → Prop} (hact : Traces act P) :
    Traces (andThen act (h.logging.removeFile f)) fun c reply steps c' =>
      ∃ earlier, P c reply earlier c' ∧ steps = earlier ++ [.removed f] := by
  intro s log c
  obtain ⟨reply, s', steps, c', hrun, hP⟩ := hact s log c
  refine ⟨reply, ((h.removeFile f).run s').2, steps ++ [.removed f], c', ?_, steps, hP, rfl⟩
  rw [run_andThen, hrun, ← List.append_assoc]
  rfl

theorem isPassable_of_writeFile (hnul : h.RefusesNul) {name : String} {setup : DeviceSetup} {s : τ}
    (hok : ((h.writeFile (configFile name setup)).run s).1 = .ok ()) : IsPassable name := by
  have hstem : IsPassable (name ++ "-") := by
    by_contra hnot
    obtain ⟨reason, herror⟩ := hnul (configFile name setup) s hnot
    rw [herror] at hok
    cases hok
  exact (isPassable_append.mp hstem).1

theorem traces_writeFile (hnul : h.RefusesNul) (name : String) (setup : DeviceSetup) :
    Traces (onHost (h.logging.writeFile (configFile name setup))) fun c result steps c' =>
      c' = c ∧ ∃ written, result = .ok written ∧ steps = [.wrote (configFile name setup) written] ∧
        (written = .ok () → IsPassable name) :=
  fun _ _ _ => ⟨_, _, _, _, rfl, rfl, _, rfl, rfl, isPassable_of_writeFile hnul⟩

theorem traces_configureDevice (hnul : h.RefusesNul) (name : String) (setup : DeviceSetup) :
    Traces (configureDevice h.logging name setup) (Configures name setup) := by
  have happly : Traces (andThen (applyFile h.logging name setup)
      (h.logging.removeFile (configFile name setup))) _ :=
    (traces_applyFile name setup).andThen_removeFile
  unfold configureDevice
  -- `R` is about what follows the attempt to write the file, `Q` about both together.
  refine (Traces.requireTool_bind (.bind (traces_writeFile hnul name setup)
    (R := fun written c reply steps c' => c' = c ∧
      ((∃ reason, written = .error reason ∧ reply = .error (.io reason) ∧ steps = []) ∨
        written = .ok () ∧ ∃ earlier, Applied name setup reply earlier ∧
          steps = earlier ++ [.removed (configFile name setup)]))
    (Q := fun c reply steps c' => c' = c ∧
      ((∃ reason, reply = .error (.io reason) ∧
          steps = [.wrote (configFile name setup) (.error reason)]) ∨
        IsPassable name ∧ ∃ earlier, Applied name setup reply earlier ∧
          steps = .wrote (configFile name setup) (.ok ()) ::
            (earlier ++ [.removed (configFile name setup)])))
    (fun written => ?_) ?_ ?_)).mono ?_
  · cases written with
    | error reason => exact .pure _ fun c => ⟨rfl, .inl ⟨reason, rfl, rfl, rfl⟩⟩
    | ok _ =>
      refine happly.mono ?_
      rintro c reply steps c' ⟨earlier, ⟨rfl, happlied⟩, rfl⟩
      exact ⟨rfl, .inr ⟨rfl, earlier, happlied, rfl⟩⟩
  · rintro c e steps c' ⟨-, written, hresult, -⟩
    cases hresult
  · rintro c written steps c₁ reply later c₂ ⟨rfl, _, hresult, rfl, hname⟩
      ⟨rfl, ⟨reason, rfl, rfl, rfl⟩ | ⟨rfl, earlier, happlied, rfl⟩⟩
    · cases hresult
      exact ⟨rfl, .inl ⟨reason, rfl, rfl⟩⟩
    · cases hresult
      exact ⟨rfl, .inr ⟨hname rfl, earlier, happlied, rfl⟩⟩
  · rintro c reply steps c' (⟨hcheck, rfl, rfl⟩ | ⟨check, later, hcheck, ⟨rfl, hlater⟩, rfl⟩)
    · exact .lacking hcheck
    · obtain ⟨reason, rfl, rfl⟩ | ⟨hname, earlier, happlied, rfl⟩ := hlater
      · exact .unwritten hcheck reason
      · exact .written hcheck hname happlied

theorem traces_perform (hnul : h.RefusesNul) (q : LinkRequest) :
    Traces ((backend h.logging).perform q) (Does q) := by
  cases q with
  | device name => exact traces_device name
  | configureDevice name setup => exact traces_configureDevice hnul name setup
  | linkByName name => exact traces_linkByName name
  | _ => exact traces_ip _

/-! ### Sessions -/

/-- The account of a session in one process: what each request did with the answer of the tool check that
the requests before it left behind. -/
inductive Accounts : List Deed → Option Bool → Prop
  | start : Accounts [] none
  | deed {deeds : List Deed} {c c' : Option Bool} {d : Deed} (earlier : Accounts deeds c)
    (hdoes : Does d.request c d.reply d.steps c') : Accounts (deeds ++ [d]) c'

theorem keeps_accounts (hnul : h.RefusesNul) :
    (accounted h).Keeps fun t => Accounts t.2 t.1.toolCheck := by
  rintro q ⟨s, deeds⟩ hs
  obtain ⟨reply, s', steps, c', hrun, hdoes⟩ := traces_perform hnul q s.host [] s.toolCheck
  rw [run_accounted, hrun]
  exact .deed hs hdoes

/-- Whatever is called, every request of the session is on account with what it did. -/
theorem accounts_runAll (hnul : h.RefusesNul) (calls : List Call) {s : HostLinks τ}
    {deeds : List Deed} (hs : Accounts deeds s.toolCheck) :
    Accounts ((Call.runAll (accounted h) calls).run (s, deeds)).2.2
      ((Call.runAll (accounted h) calls).run (s, deeds)).2.1.toolCheck :=
  Call.keeps_runAll (keeps_accounts hnul) calls (s, deeds) hs

end HostLinks

end OverlayTunnel
