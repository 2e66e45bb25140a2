import OverlayTunnel.Proofs.Host.Mirror
import OverlayTunnel.Proofs.Reconciler.Endings
import OverlayTunnel.Proofs.Host.ToolUse

/-!
A host that is in order: its programs are there and end well, and files can be written. On such a host
every request for an interface that can be passed on is granted, unless the tool was missed before.
-/
namespace OverlayTunnel

variable {τ : Type}

namespace HostLinks

/-- The program that makes a link. -/
def creation (name : String) : Invocation :=
  ⟨.ip, texts ["link", "add", "dev", name, "type", "wireguard"]⟩

/-- How the line begins that describes a link. -/
def lineStart (name : String) (index : UInt32) : List Char :=
  Nat.toDigits 10 index.toNat ++ ':' :: ' ' :: (name.toList ++ [':'])

end HostLinks

open HostLinks (creation lookup lineStart)

/-- A program that is run for its effect on a link that is there, or to look for the tool. -/
def Invocation.IsRoutine (i : Invocation) : Prop :=
  ∀ name, i ≠ creation name ∧ i ≠ lookup name

/-- A host that is in order in the states with `good`, and stays so. A link that is to be made may be there
already. -/
structure Host.InOrder (h : Host τ) (good : τ → Prop) : Prop where
  run (i : Invocation) (t : τ) : good t → good ((h.run i).run t).2
  creates (name : String) (t : τ) : good t →
    ((h.run (creation name)).run t).1.Succeeds ∨
      ∃ code stdout stderr, ((h.run (creation name)).run t).1 = .exited code stdout stderr ∧
        ReportsPresence stderr
  shows (name : String) (t : τ) : good t →
    ∃ index more stderr,
      ((h.run (lookup name)).run t).1 = .exited 0 (Utf8.encode (lineStart name index) ++ more) stderr
  succeeds (i : Invocation) (t : τ) : good t → i.IsRoutine → ((h.run i).run t).1.Succeeds
  write (file : ConfigFile) (t : τ) : good t →
    good ((h.writeFile file).run t).2 ∧
      (Script.refusal? file = none → ((h.writeFile file).run t).1 = .ok ())
  remove (file : ConfigFile) (t : τ) : good t → good ((h.removeFile file).run t).2

namespace HostLinks

/-- The host is in order, and the tool was not missed by this process. -/
def Ready (good : τ → Prop) (s : HostLinks τ) : Prop :=
  good s.host ∧ s.toolCheck ≠ some false

variable {h : Host τ} {good : τ → Prop} {name : String} {setup : DeviceSetup}
  {program : Program} {arguments : List Argument}

/-- An operation that does not fail and leaves the host in order. -/
abbrev GoesWell {ε α : Type} (good : τ → Prop) (x : ExceptT ε (StateM (HostLinks τ)) α) : Prop :=
  Ends (Ready good) x (fun _ _ => False) fun _ => Ready good

/-! ### Single programs -/

/-- What a program comes to is read off its outcome. -/
theorem ends_run_of_reading (hgood : h.InOrder good)
    (hpass : (Invocation.mk program arguments).isPassable = true)
    {R : Except LinkFailure String → Prop}
    (hR : ∀ t, good t → R (reading ⟨program, arguments⟩ ((h.run ⟨program, arguments⟩).run t).1)) :
    Ends (Ready good) (run h program arguments) (fun e s => R (.error e) ∧ Ready good s)
      fun text s => R (.ok text) ∧ Ready good s := by
  intro s hs
  have hrun : (run h program arguments).run.run s =
      (reading ⟨program, arguments⟩ ((h.run ⟨program, arguments⟩).run s.host).1,
        afterRun h program arguments s) := by
    rw [run_run hpass]
    cases ((h.run ⟨program, arguments⟩).run s.host).1 <;> rfl
  have hready : Ready good (afterRun h program arguments s) := ⟨hgood.run _ _ hs.1, hs.2⟩
  have hread := hR s.host hs.1
  cases hreading : reading ⟨program, arguments⟩ ((h.run ⟨program, arguments⟩).run s.host).1 with
  | error e =>
    rw [hreading] at hrun hread
    exact .inl ⟨e, _, hrun, hread, hready⟩
  | ok text =>
    rw [hreading] at hrun hread
    exact .inr ⟨text, _, hrun, hread, hready⟩

theorem goesWell_run (hgood : h.InOrder good) (hpass : (Invocation.mk program arguments).isPassable = true)
    (hroutine : (Invocation.mk program arguments).IsRoutine) : GoesWell good (run h program arguments) := by
  have hreading : ∀ t, good t →
      ∃ text, reading ⟨program, arguments⟩ ((h.run ⟨program, arguments⟩).run t).1 = .ok text := by
    intro t ht
    obtain ⟨stdout, stderr, ho⟩ := hgood.succeeds _ t ht hroutine
    exact ⟨_, by rw [ho]; rfl⟩
  refine (ends_run_of_reading hgood hpass (R := fun r => ∃ text, r = .ok text) hreading).mono
    (fun _ hs => hs) ?_ fun _ s hs => hs.2
  rintro e s ⟨⟨text, he⟩, -⟩
  cases he

theorem goesWell_ip (hgood : h.InOrder good) {arguments : List String}
    (hpass : ∀ a ∈ arguments, IsPassable a) (hroutine : (Invocation.mk .ip (texts arguments)).IsRoutine) :
    GoesWell good (ip h arguments) := by
  unfold ip
  exact (goesWell_run hgood (isPassable_texts .ip hpass) hroutine).bind fun _ => .pure () fun s hs => hs

theorem failureOf_isAlreadyExists (i : Invocation) {stderr : List UInt8} (hreport : ReportsPresence stderr) :
    (failureOf i stderr).isAlreadyExists = true := by
  unfold ReportsPresence at hreport
  unfold failureOf
  dsimp only
  rw [if_pos hreport]
  rfl

/-- A link is made, unless one is there. -/
theorem ends_create (hgood : h.InOrder good) (hname : IsPassable name) :
    Ends (Ready good) (ip h ["link", "add", "dev", name, "type", "wireguard"])
      (fun e s => e.isAlreadyExists = true ∧ Ready good s) fun _ => Ready good := by
  have hreading : ∀ t, good t → ∀ e,
      reading (creation name) ((h.run (creation name)).run t).1 = .error e → e.isAlreadyExists = true := by
    intro t ht e he
    rcases hgood.creates name t ht with ⟨stdout, stderr, ho⟩ | ⟨code, stdout, stderr, ho, hreport⟩
    · rw [ho] at he
      cases he
    · rw [ho] at he
      unfold reading at he
      dsimp only at he
      split at he
      · cases he
        exact failureOf_isAlreadyExists _ hreport
      · cases he
  unfold ip
  refine Ends.bind ((ends_run_of_reading hgood (isPassable_texts .ip (isPassable_add hname))
    (R := fun r => ∀ e, r = .error e → e.isAlreadyExists = true) hreading).mono (fun _ hs => hs) ?_
    fun _ s hs => hs.2) fun _ => .pure () fun s hs => hs
  exact fun e s hs => ⟨hs.1 e rfl, hs.2⟩

theorem decodeLossy_encode_append (s : List Char) (bytes : List UInt8) :
    (Utf8.decodeLossy (Utf8.encode s ++ bytes)).toList = s ++ (Utf8.decodeLossy bytes).toList := by
  have hscan : Utf8.scan .start (Utf8.encode s ++ bytes) = s.map some ++ Utf8.scan .start bytes := by
    induction s with
    | nil => rfl
    | cons c s ih =>
      have hencode : Utf8.encode (c :: s) = String.utf8EncodeChar c ++ Utf8.encode s := rfl
      rw [hencode, List.append_assoc, Utf8.scan_encodeChar, ih]
      rfl
  simp [Utf8.decodeLossy, hscan, Function.comp_def]

/-- A link is looked up under its own name, whatever is said about it after its name. -/
theorem ends_lookup (hgood : h.InOrder good) (hname : IsPassable name) :
    Ends (Ready good) (linkByName h name) (fun _ _ => False)
      fun link s => link.name = name ∧ Ready good s := by
  have hreading : ∀ t, good t → ∃ text index,
      reading (lookup name) ((h.run (lookup name)).run t).1 = .ok text ∧
        indexOf? text.toList = some index := by
    intro t ht
    obtain ⟨index, more, stderr, ho⟩ := hgood.shows name t ht
    refine ⟨_, index, by rw [ho]; rfl, ?_⟩
    rw [decodeLossy_encode_append, lineStart, List.append_assoc]
    exact indexOf?_append index _
  unfold linkByName
  refine Ends.bind ((ends_run_of_reading hgood (isPassable_texts .ip (isPassable_describe hname))
    (R := fun r => ∃ text index, r = .ok text ∧ indexOf? text.toList = some index) hreading).mono
    (fun _ hs => hs) ?_ fun _ _ hs => hs) fun output => .of_and ?_
  · rintro e s ⟨⟨text, index, he, -⟩, -⟩
    cases he
  · rintro ⟨text, index, ⟨⟩, hindex⟩
    rw [hindex]
    exact .pure _ fun s hs => ⟨rfl, hs⟩

/-! ### Requests -/

theorem isRoutine_probe : probe.IsRoutine :=
  fun name => by simp [probe, creation, lookup]

theorem goesWell_requireTool (hgood : h.InOrder good) : GoesWell good (requireTool h) := by
  rintro ⟨t, c⟩ ⟨ht, hc⟩
  cases c with
  | none =>
    obtain ⟨stdout, stderr, ho⟩ := hgood.succeeds probe t ht isRoutine_probe
    have hcheck : (hasTool h).run.run ⟨t, none⟩ = (.ok true, _) := run_hasTool_of_none rfl ho
    exact .inr ⟨(), _, run_requireTool_of_hasTool hcheck, hgood.run _ _ ht, by simp⟩
  | some answer =>
    cases answer with
    | false => exact absurd rfl hc
    | true => exact .inr ⟨(), _, run_requireTool_of_hasTool (run_hasTool_of_some rfl), ht, hc⟩

theorem goesWell_wg (hgood : h.InOrder good) (hpass : (Invocation.mk .wg arguments).isPassable = true) :
    GoesWell good (run h .wg arguments) :=
  goesWell_run hgood hpass fun name => by simp [creation, lookup]

theorem goesWell_applyFile (hgood : h.InOrder good) (hname : IsInterface name) :
    GoesWell good (applyFile h name setup) := by
  unfold applyFile
  refine (goesWell_wg hgood (isPassable_application hname.nul)).bind fun _ => .forM fun p _ => ?_
  exact (goesWell_wg hgood (isPassable_resetArguments hname.nul p)).bind fun _ => .pure () fun s hs => hs

theorem goesWell_andThen {α : Type} {act : LinkM (HostLinks τ) α} {last : StateM τ Unit}
    (hact : GoesWell good act) (hlast : ∀ t, good t → good (last.run t).2) :
    GoesWell good (andThen act last) := by
  intro s hs
  rcases hact s hs with ⟨-, -, -, h⟩ | ⟨a, s', hrun, hs'⟩
  · cases h
  · rw [run_andThen, hrun]
    exact .inr ⟨a, _, rfl, hlast _ hs'.1, hs'.2⟩

theorem goesWell_configureDevice (hgood : h.InOrder good) (hname : IsInterface name) :
    GoesWell good (configureDevice h name setup) := by
  unfold configureDevice
  refine (goesWell_requireTool hgood).bind fun _ => ?_
  refine Ends.bind (R := fun written s => written = .ok () ∧ Ready good s) ?_ fun written => .of_and ?_
  · intro s hs
    obtain ⟨hstate, hwritten⟩ := hgood.write (configFile name setup) s.host hs.1
    exact .inr ⟨_, _, rfl, hwritten (hname.refusal?_eq_none setup), hstate, hs.2⟩
  · rintro rfl
    exact goesWell_andThen (goesWell_applyFile hgood hname) fun t ht => hgood.remove _ t ht

/-- Requests of which nothing but success matters. -/
theorem goesWell_perform (hgood : h.InOrder good) (q : LinkRequest) (hname : IsInterface q.target)
    (hq : q.operation ∉ [.createWireguard, .device, .linkByName]) :
    GoesWell good ((backend h).perform q) := by
  cases q with
  | createWireguard name => simp [LinkRequest.operation] at hq
  | device name => simp [LinkRequest.operation] at hq
  | linkByName name => simp [LinkRequest.operation] at hq
  | configureDevice name setup => exact goesWell_configureDevice hgood hname
  | replaceAddress link address =>
    exact goesWell_ip hgood (isPassable_replaceAddress hname.nul address) fun n => by
      simp [creation, lookup, texts]
  | setMtu link mtu =>
    exact goesWell_ip hgood (isPassable_setMtu hname.nul mtu) fun n => by simp [creation, lookup, texts]
  | setUp link =>
    exact goesWell_ip hgood (isPassable_setUp hname.nul) fun n => by simp [creation, lookup, texts]
  | addRoute link destination =>
    exact goesWell_ip hgood (isPassable_addRoute hname.nul destination) fun n => by
      simp [creation, lookup, texts]
  | deleteLink link =>
    exact goesWell_ip hgood (isPassable_delete hname.nul) fun n => by simp [creation, lookup, texts]

/-! ### Calls -/

variable {r : Reconciler} {ms : List Member} {phase : Phase} {q : LinkRequest}

theorem goesWell_request (hgood : h.InOrder good) (q : LinkRequest) (hname : IsInterface q.target)
    (hq : q.operation ∉ [.createWireguard, .device, .linkByName]) :
    GoesWell good (r.request (backend h) phase q) :=
  .request_of_granted (goesWell_perform hgood q hname hq)

/-- A step that may find what it is for there already goes well in any case. -/
theorem goesWell_ensure (hq : Ends (Ready good) ((backend h).perform q)
    (fun e s => e.isAlreadyExists = true ∧ Ready good s) fun _ => Ready good) :
    GoesWell good (r.ensure (backend h) phase q) := by
  refine (Ends.ensure hq fun e s _ hs => hs.2).mono (fun _ hs => hs) ?_ fun _ _ hs => hs
  rintro f s ⟨e, -, hnot, hthere, -⟩
  rw [hthere] at hnot
  cases hnot

/-- An interface that can be passed on comes up with members whose keys can be read. -/
theorem goesWell_bringUp (hgood : h.InOrder good) (hname : IsInterface r.interface)
    (hsetup : r.setup ms = .ok setup) : GoesWell good (r.bringUp (backend h) ms) := by
  unfold Reconciler.bringUp
  rw [hsetup]
  refine (goesWell_ensure (ends_create hgood hname.nul)).bind fun _ => .pure_bind ?_
  refine (goesWell_request hgood (.configureDevice _ setup) hname (by simp [LinkRequest.operation])).bind
    fun _ => ?_
  refine (Ends.request_of_granted (ends_lookup hgood hname.nul)).bind fun link => .of_and fun hlink => ?_
  have hname : IsInterface link.name := hlink ▸ hname
  refine (goesWell_request hgood (.replaceAddress link _) hname (by simp [LinkRequest.operation])).bind
    fun _ => ?_
  refine (goesWell_request hgood (.setMtu link _) hname (by simp [LinkRequest.operation])).bind fun _ => ?_
  refine (goesWell_request hgood (.setUp link) hname (by simp [LinkRequest.operation])).bind fun _ => ?_
  refine .forM fun m _ => goesWell_ensure ?_
  exact (goesWell_perform hgood (.addRoute link _) hname (by simp [LinkRequest.operation])).mono
    (fun _ hs => hs) (fun _ _ hfalse => hfalse.elim) fun _ _ hs => hs

end HostLinks

end OverlayTunnel
