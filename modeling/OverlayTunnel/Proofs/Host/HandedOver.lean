import OverlayTunnel.Proofs.Host.Builds
import OverlayTunnel.Proofs.Reconciler.Backends

/-!
What the calls of a reconciler hand over to the host. The check of a configuration keeps out of the name of the
interface what programs and files cannot have in theirs, with one exception: a NUL character.
-/
namespace OverlayTunnel

open HostLinks (configFile backend accounted run_accounted)

variable {τ : Type}

/-- The host is given for a request what the request builds. -/
def Deed.Handed (d : Deed) : Prop :=
  Hands d.request.invocations d.request.files d.reply d.steps

namespace HostLinks

variable {h : Host τ} {name : String} {q : LinkRequest}

/-! ### Requests on account -/

theorem keeps_handed (h : Host τ) : (accounted h).Keeps fun t => ∀ d ∈ t.2, d.Handed := by
  rintro q ⟨s, deeds⟩ hs
  obtain ⟨reply, s', steps, c', hrun, hands⟩ := Builds.perform q s.host [] s.toolCheck
  rw [run_accounted, hrun]
  intro d hd
  rcases List.mem_append.mp hd with hd | hd
  · exact hs d hd
  · obtain rfl := List.mem_singleton.mp hd
    exact hands

/-- All requests so far were for one link. -/
def AllFor (name : String) (t : HostLinks τ × List Deed) : Prop :=
  ∀ d ∈ t.2, d.request.target = name

/-- There was a request, and all of them were for one link. -/
def Begun (name : String) (t : HostLinks τ × List Deed) : Prop :=
  t.2 ≠ [] ∧ AllFor name t

/-- A failure to run a program or to write a file is that of a request on account. -/
def Blamed (f : Failure) (t : HostLinks τ × List Deed) : Prop :=
  ∀ phase interface reason, f = .link phase interface (.io reason) →
    ∃ d ∈ t.2, d.reply = .error (.io reason)

/-- A request for a link is put on account with its reply. -/
theorem ends_accounted_of (hq : q.target = name) {Q : q.Reply → Prop}
    (hQ : Ends (fun _ => True) ((backend h.logging).perform q) (fun _ _ => True) fun reply _ => Q reply) :
    Ends (AllFor name) ((accounted h).perform q)
      (fun e t => Begun name t ∧ ∃ d ∈ t.2, d.reply = .error e)
      fun reply t => Q reply ∧ Begun name t := by
  rintro ⟨s, deeds⟩ hs
  have hbegun (d : Deed) (hd : d.request = q) (s' : HostLinks τ) : Begun name (s', deeds ++ [d]) := by
    refine ⟨by simp, fun d' hd' => ?_⟩
    rcases List.mem_append.mp hd' with hd' | hd'
    · exact hs d' hd'
    · obtain rfl := List.mem_singleton.mp hd'
      rw [hd, hq]
  rcases hQ ⟨(s.host, []), s.toolCheck⟩ trivial with ⟨e, s', hrun, -⟩ | ⟨reply, s', hrun, hreply⟩
  · rw [run_accounted, hrun]
    exact .inl ⟨e, _, rfl, hbegun _ rfl _, _, List.mem_append_right _ (List.mem_singleton_self _), rfl⟩
  · rw [run_accounted, hrun]
    exact .inr ⟨reply, _, rfl, hreply, hbegun _ rfl _⟩

theorem ends_accounted (hq : q.target = name) :
    Ends (AllFor name) ((accounted h).perform q)
      (fun e t => Begun name t ∧ ∃ d ∈ t.2, d.reply = .error e) fun _ => Begun name :=
  (ends_accounted_of hq (.trivial _)).mono (fun _ ht => ht) (fun _ _ he => he) fun _ _ ht => ht.2

/-- A link is looked up under its own name. -/
theorem ends_linkByName_name (h : Host τ) (name : String) :
    Ends (fun _ => True) (linkByName h name) (fun _ _ => True) fun link _ => link.name = name := by
  unfold linkByName
  refine (Ends.trivial _).bind fun output => ?_
  cases indexOf? output.toList with
  | none => exact .throw _ fun _ _ => trivial
  | some index => exact .pure _ fun _ _ => rfl

end HostLinks

/-! ### Steps of a reconciler -/

namespace Reconciler

open HostLinks (Begun AllFor Blamed ends_accounted ends_accounted_of ends_linkByName_name)

variable {α : Type} {h : Host τ} {r : Reconciler} {phase : Phase}

theorem blamed_of_reply {e : LinkFailure} {t : HostLinks τ × List Deed}
    (he : ∃ d ∈ t.2, d.reply = .error e) : Blamed (.link phase r.interface e) t := by
  rintro phase' interface reason ⟨⟩
  exact he

/-- The first steps of a call, which ask for nothing but the interface. -/
abbrev Starts (r : Reconciler) (x : Action (HostLinks τ × List Deed) α) : Prop :=
  Ends (AllFor r.interface) x (fun f t => Begun r.interface t ∧ Blamed f t) fun _ => Begun r.interface

/-- Steps that ask for nothing but the interface, or for nothing at all. -/
abbrev Stays (r : Reconciler) (x : Action (HostLinks τ × List Deed) α) : Prop :=
  Ends (Begun r.interface) x (fun f t => Begun r.interface t ∧ Blamed f t) fun _ => Begun r.interface

theorem Starts.stays {x : Action (HostLinks τ × List Deed) α} (hx : Starts r x) : Stays r x :=
  hx.mono (fun _ ht => ht.2) (fun _ _ hf => hf) fun _ _ ht => ht

theorem starts_request (q : LinkRequest) (hq : q.target = r.interface) :
    Starts r (r.request (accounted h) phase q) := by
  refine (ends_accounted hq).request.mono (fun _ ht => ht) ?_ fun _ _ ht => ht
  rintro f t ⟨e, rfl, hbegun, he⟩
  exact ⟨hbegun, blamed_of_reply he⟩

theorem starts_ensure (q : LinkRequest) (hq : q.target = r.interface) :
    Starts r (r.ensure (accounted h) phase q) := by
  refine (Ends.ensure (ends_accounted hq) fun _ _ _ he => he.1).mono (fun _ ht => ht) ?_ fun _ _ ht => ht
  rintro f t ⟨e, rfl, -, hbegun, he⟩
  exact ⟨hbegun, blamed_of_reply he⟩

theorem starts_status : Starts r (r.status (accounted h)) := by
  refine (Ends.status (ends_accounted rfl) fun _ _ _ he => he.1).mono (fun _ ht => ht) ?_ fun _ _ ht => ht
  rintro f t ⟨e, rfl, -, hbegun, he⟩
  exact ⟨hbegun, blamed_of_reply he⟩

/-- What comes after the lookup works with a handle for the interface. -/
theorem stays_lookup {f : LinkHandle → Action (HostLinks τ × List Deed) α}
    (hf : ∀ link : LinkHandle, link.name = r.interface → Stays r (f link)) :
    Stays r (r.request (accounted h) phase (.linkByName r.interface) >>= f) := by
  have hlookup := ends_accounted_of (q := .linkByName r.interface) rfl
    (ends_linkByName_name h.logging r.interface)
  refine (hlookup.request.mono (fun _ ht => ht.2) ?_ fun _ _ ht => ht).bind fun link => .of_and (hf link)
  rintro f t ⟨e, rfl, hbegun, he⟩
  exact ⟨hbegun, blamed_of_reply he⟩

theorem starts_takeDown : Starts r (r.takeDown (accounted h)) := by
  unfold takeDown
  refine starts_status.bind fun device => ?_
  cases device with
  | none => exact .pure () fun _ ht => ht
  | some d => exact stays_lookup fun link hlink => (starts_request (.deleteLink link) hlink).stays

theorem starts_bringUp (ms : List Member) : Starts r (r.bringUp (accounted h) ms) := by
  unfold bringUp
  refine (starts_ensure (.createWireguard r.interface) rfl).bind fun _ => ?_
  cases hsetup : r.setup ms with
  | error f =>
    refine .throw_bind fun t ht => ⟨ht, ?_⟩
    rintro phase interface reason rfl
    cases isRetryable_of_setup hsetup
  | ok setup =>
    refine .pure_bind ((starts_request (.configureDevice r.interface setup) rfl).stays.bind fun _ => ?_)
    refine stays_lookup fun link hlink => ?_
    refine (starts_request (.replaceAddress link _) hlink).stays.bind fun _ => ?_
    refine (starts_request (.setMtu link r.mtu) hlink).stays.bind fun _ => ?_
    refine (starts_request (.setUp link) hlink).stays.bind fun _ => ?_
    exact .forM fun m _ => (starts_ensure (.addRoute link (routeTo m)) hlink).stays

end Reconciler

/-! ### Names that cannot be passed on -/

namespace HostLinks

variable {h : Host τ} {name : String} {q : LinkRequest}

theorem run_of_unpassable {program : Program} {arguments : List Argument} (s : HostLinks τ)
    (hpass : (Invocation.mk program arguments).isPassable = false) :
    (run h program arguments).run.run s = (.error nulFound, s) := by
  unfold run
  dsimp only
  rw [if_pos hpass]
  rfl

theorem run_texts_of_unpassable {program : Program} {arguments : List String} (hname : ¬ IsPassable name)
    (hmem : name ∈ arguments) (s : HostLinks τ) :
    (run h program (texts arguments)).run.run s = (.error nulFound, s) := by
  apply run_of_unpassable
  rw [← Bool.not_eq_true]
  exact fun hpass => hname (isPassable_of_texts hpass name hmem)

/-- The first request of a call does not reach the host. -/
theorem run_perform_of_unpassable (hname : ¬ IsPassable q.target)
    (hq : q.operation = .createWireguard ∨ q.operation = .device) (s : HostLinks τ) :
    ((backend h).perform q).run.run s = (.error nulFound, s) := by
  cases q with
  | createWireguard name =>
    have hmem : name ∈ ["link", "add", "dev", name, "type", "wireguard"] := by simp
    change (ip h _).run.run s = _
    rw [ip, LinkM.run_bind, run_texts_of_unpassable hname hmem]
  | device name =>
    have hmem : name ∈ ["-o", "link", "show", "dev", name] := by simp
    change (device h name).run.run s = _
    rw [device, LinkM.run_bind, linkByName, LinkM.run_bind, run_texts_of_unpassable hname hmem]
  | _ => simp [LinkRequest.operation] at hq

theorem run_accounted_of_unpassable (hname : ¬ IsPassable q.target)
    (hq : q.operation = .createWireguard ∨ q.operation = .device) (s : HostLinks τ) :
    ((accounted h).perform q).run.run (s, []) =
      (.error nulFound, s, [⟨⟨q, .error nulFound⟩, []⟩]) := by
  rw [run_accounted, run_perform_of_unpassable hname hq]
  rfl

end HostLinks

open HostLinks (run_accounted_of_unpassable AllFor Begun Blamed)

variable {r : Reconciler} {call : Call}

namespace Call

/-- A call for an interface whose name cannot be passed on fails at once. -/
theorem run_of_unpassable (hcall : call.reconciler? = some r) (hname : ¬ IsPassable r.interface) (h : Host τ)
    (s : HostLinks τ) : ∃ q : LinkRequest, (call.run (accounted h)).run (s, []) =
      (.failed (.link q.phase r.interface nulFound), s, [⟨⟨q, .error nulFound⟩, []⟩]) := by
  have hcreate := run_accounted_of_unpassable (h := h) (q := .createWireguard r.interface) hname (.inl rfl) s
  have hdevice := run_accounted_of_unpassable (h := h) (q := .device r.interface) hname (.inr rfl) s
  have hstatus : (r.status (accounted h)).run.run (s, []) =
      (.error (.link .lookupDevice r.interface nulFound), s,
        [⟨⟨.device r.interface, .error nulFound⟩, []⟩]) := by
    rw [Reconciler.run_status, hdevice]
    rfl
  cases call with
  | bringUp r' ms =>
    cases hcall
    have hrun : (r.bringUp (accounted h) ms).run.run (s, []) =
        (.error (.link .createLink r.interface nulFound), s,
          [⟨⟨.createWireguard r.interface, .error nulFound⟩, []⟩]) := by
      rw [Reconciler.bringUp, Reconciler.Action.run_bind, Reconciler.run_ensure, hcreate]
      rfl
    exact ⟨.createWireguard r.interface, by rw [run_bringUp, hrun]; rfl⟩
  | takeDown r' =>
    cases hcall
    have hrun : (r.takeDown (accounted h)).run.run (s, []) =
        (.error (.link .lookupDevice r.interface nulFound), s,
          [⟨⟨.device r.interface, .error nulFound⟩, []⟩]) := by
      rw [Reconciler.takeDown, Reconciler.Action.run_bind, hstatus]
    exact ⟨.device r.interface, by rw [run_takeDown, hrun]; rfl⟩
  | status r' =>
    cases hcall
    exact ⟨.device r.interface, by rw [run_status, hstatus]; rfl⟩
  | request q => cases hcall

theorem begun_of_starts {α : Type} {x : Reconciler.Action (HostLinks τ × List Deed) α} {g : α → Answer}
    (hx : Reconciler.Starts r x) (hg : ∀ a f, g a ≠ .failed f) (s : HostLinks τ) :
    Begun r.interface (x.run.run (s, [])).2 ∧
      ∀ f, Answer.ofResult g (x.run.run (s, [])).1 = .failed f → Blamed f (x.run.run (s, [])).2 := by
  rcases hx (s, []) nofun with ⟨e, t, hrun, hbegun, hblamed⟩ | ⟨a, t, hrun, hbegun⟩
  · rw [hrun]
    refine ⟨hbegun, ?_⟩
    rintro f ⟨⟩
    exact hblamed
  · rw [hrun]
    exact ⟨hbegun, fun f hf => absurd hf (hg a f)⟩

/-- Every call asks for its interface, and fails for no reason of its own. -/
theorem begun (hcall : call.reconciler? = some r) (h : Host τ) (s : HostLinks τ) :
    Begun r.interface ((call.run (accounted h)).run (s, [])).2 ∧
      ∀ f, ((call.run (accounted h)).run (s, [])).1 = .failed f →
        Blamed f ((call.run (accounted h)).run (s, [])).2 := by
  cases call with
  | bringUp r' ms =>
    cases hcall
    rw [run_bringUp]
    exact begun_of_starts (Reconciler.starts_bringUp ms) (by simp) s
  | takeDown r' =>
    cases hcall
    rw [run_takeDown]
    exact begun_of_starts Reconciler.starts_takeDown (by simp) s
  | status r' =>
    cases hcall
    rw [run_status]
    exact begun_of_starts Reconciler.starts_status (by simp) s
  | request q => cases hcall

end Call

/-! ### Files -/

theorem LinkRequest.eq_of_mem_files {q : LinkRequest} {f : ConfigFile} (hf : f ∈ q.files) :
    ∃ setup, f = configFile q.target setup := by
  cases q with
  | configureDevice name setup => exact ⟨setup, List.mem_singleton.mp hf⟩
  | _ => cases hf

theorem isPassable_stem (name : String) (setup : DeviceSetup) :
    IsPassable (configFile name setup).stem ↔ IsPassable name := by
  have hdash : IsPassable "-" := by decide
  change IsPassable (name ++ "-") ↔ _
  rw [isPassable_append, and_iff_left hdash]

/-- For a configuration that passes the check nothing but a NUL character keeps its file from being
written. -/
theorem Config.refusal?_eq_none_iff {c : Config} (hc : c.check = .ok ()) (setup : DeviceSetup) :
    Script.refusal? (configFile c.interface setup) = none ↔ IsPassable c.interface := by
  constructor
  · intro hnone
    by_contra hnul
    rw [← isPassable_stem c.interface setup] at hnul
    rw [Script.refusal?_of_not_isPassable hnul] at hnone
    cases hnone
  · intro hnul
    exact (isInterface_of_check hc hnul).refusal?_eq_none setup

/-! ### Calls -/

/-- What is handed over for a call on the interface `name`. -/
structure HandedOver (name : String) (answer : Answer) (deeds : List Deed) : Prop where
  /-- For every request the host is given what it builds. -/
  handed : ∀ d ∈ deeds, d.request.target = name ∧ d.Handed
  /-- The programs can be run exactly if the name can be passed on. -/
  passable : (∀ d ∈ deeds, ∀ i ∈ d.request.invocations, i.isPassable = true) ↔ IsPassable name
  /-- The same goes for the files, and their names never lead into a directory. -/
  stems : ∀ d ∈ deeds, ∀ f ∈ d.request.files,
    '/' ∉ f.stem.toList ∧ (IsPassable f.stem ↔ IsPassable name) ∧
      (Script.refusal? f = none ↔ IsPassable name)
  /-- Exactly then the only programs that are not run and files that are not written are those that the
  host refuses. -/
  refused : (∀ phase interface reason, answer = .failed (.link phase interface (.io reason)) →
    ∃ d ∈ deeds, ∃ step ∈ d.steps, step.refusal? = some reason) ↔ IsPassable name
  /-- Else the call fails at once, and the host is given nothing. -/
  unpassable : ¬ IsPassable name → ∃ d, deeds = [d] ∧ d.steps = [] ∧
    answer = .failed (.link d.request.phase name nulFound)

theorem handedOver_of_begun {c : Config} {answer : Answer} {t : HostLinks τ × List Deed}
    (hcheck : c.check = .ok ()) (hbegun : Begun c.interface t) (hhanded : ∀ d ∈ t.2, d.Handed)
    (hblamed : ∀ f, answer = .failed f → Blamed f t)
    (hunpassable : ¬ IsPassable c.interface → ∃ d, t.2 = [d] ∧ d.steps = [] ∧
      answer = .failed (.link d.request.phase c.interface nulFound)) :
    HandedOver c.interface answer t.2 := by
  obtain ⟨hsome, htarget⟩ := hbegun
  have hpassable (hname : IsPassable c.interface) (d : Deed) (hd : d ∈ t.2) :
      ∀ i ∈ d.request.invocations, i.isPassable = true :=
    d.request.isPassable_iff.mpr (by rwa [htarget d hd])
  constructor
  case handed => exact fun d hd => ⟨htarget d hd, hhanded d hd⟩
  case passable =>
    constructor
    · intro hall
      obtain ⟨d, hd⟩ := List.exists_mem_of_ne_nil _ hsome
      rw [← htarget d hd]
      exact d.request.isPassable_iff.mp (hall d hd)
    · exact hpassable
  case stems =>
    intro d hd f hf
    obtain ⟨setup, rfl⟩ := LinkRequest.eq_of_mem_files hf
    rw [htarget d hd]
    refine ⟨?_, isPassable_stem _ setup, Config.refusal?_eq_none_iff hcheck setup⟩
    have hslash : '/' ∉ c.interface.toList := fun hs => ((Config.interface_of_check hcheck).2 '/' hs).2 rfl
    simpa [configFile] using hslash
  case refused =>
    constructor
    · intro hall
      by_contra hname
      obtain ⟨d, hdeeds, hsteps, hanswer⟩ := hunpassable hname
      obtain ⟨d', hd', step, hstep, -⟩ := hall _ _ _ hanswer
      rw [hdeeds] at hd'
      obtain rfl := List.mem_singleton.mp hd'
      rw [hsteps] at hstep
      cases hstep
    · intro hname phase interface reason hanswer
      obtain ⟨d, hd, hreply⟩ := hblamed _ hanswer phase interface reason rfl
      rcases (hhanded d hd).io reason hreply with hrefusal | ⟨-, i, hi, hpass⟩
      · exact ⟨d, hd, hrefusal⟩
      · rw [hpassable hname d hd i hi] at hpass
        cases hpass
  case unpassable => exact hunpassable

namespace Call

/-- A call of a reconciler whose configuration passes the check, on any host. All programs that are built for
it can be run, and its file can be written, exactly if the name of the interface holds no NUL character.
Then no program stays unrun and no file unwritten unless the host refuses it; and else the call fails before
it has run anything. -/
theorem handedOver {c : Config} {node : String} {key : PrivateKey}
    (hr : Reconciler.create c node key = .ok r) (hcall : call.reconciler? = some r) (h : Host τ) (s : HostLinks τ) :
    let accounted := (call.run (accounted h)).run (s, [])
    (accounted.1, accounted.2.1) = (call.run (backend h)).run s ∧
      HandedOver r.interface accounted.1 accounted.2.2 := by
  intro accounted
  obtain ⟨hcheck, address, -, hfields⟩ := Reconciler.create_eq_ok_iff.mp hr
  have hinterface : r.interface = c.interface := by rw [hfields]
  obtain ⟨hanswer, hstate⟩ := Call.run_alike (HostLinks.resembles_accounted h)
    (Call.alike_self (fun _ => rfl) call) (rfl : (s, ([] : List Deed)).1 = s)
  have hhanded : ∀ d ∈ accounted.2.2, d.Handed :=
    Call.keeps_run (HostLinks.keeps_handed h) call (s, []) nofun
  obtain ⟨hbegun, hblamed⟩ := begun hcall h s
  have hunpassable : ¬ IsPassable r.interface → ∃ d, accounted.2.2 = [d] ∧ d.steps = [] ∧
      accounted.1 = .failed (.link d.request.phase r.interface nulFound) := by
    intro hname
    obtain ⟨q, hrun⟩ := run_of_unpassable hcall hname h s
    have haccounted : accounted = _ := hrun
    rw [haccounted]
    exact ⟨_, rfl, rfl, rfl⟩
  rw [hinterface] at hbegun hunpassable ⊢
  exact ⟨Prod.ext hanswer hstate, handedOver_of_begun hcheck hbegun hhanded hblamed hunpassable⟩

/-- A node that brings its interface up with one member, on a host where the tool is missing. -/
theorem handedOver_sample :
    let r := Reconciler.sampleNode 0x0A010203 Reconciler.sampleKey
    let call : Call := .bringUp r [Reconciler.sampleMember 0x0A010205]
    let s : HostLinks Script := ⟨⟨[.ip, .which], [], []⟩, none⟩
    let accounted := (call.run (accounted Script.host)).run (s, [])
    Reconciler.create (Reconciler.sampleConfig "10.1.2.3") "a" Reconciler.sampleKey = .ok r ∧
      call.reconciler? = some r ∧
      (accounted.1, accounted.2.1) = (call.run (backend Script.host)).run s ∧
      HandedOver r.interface accounted.1 accounted.2.2 ∧
      ∀ d ∈ accounted.2.2, ∀ i ∈ d.request.invocations, i.isPassable = true := by
  intro r call s accounted
  have hr : Reconciler.create _ _ _ = .ok r := Reconciler.create_sampleNode Reconciler.sampleKey
  have hcall : call.reconciler? = some r := rfl
  obtain ⟨hsame, hhanded⟩ := handedOver hr hcall Script.host s
  have hname : IsPassable r.interface := (by decide : IsPassable "wgoverlay")
  exact ⟨hr, hcall, hsame, hhanded, hhanded.passable.mpr hname⟩

def configWithNul : Config :=
  { Reconciler.sampleConfig "10.1.2.3" with interface := "wg\x00" }

theorem create_configWithNul (key : PrivateKey) :
    Reconciler.create configWithNul "a" key =
      .ok { Reconciler.sampleNode 0x0A010203 key with interface := "wg\x00" } := by
  rfl

/-- A NUL character passes the check, and then nothing is run at all. -/
theorem not_handedOver_of_check :
    ¬ ∀ (τ : Type) (h : Host τ) (s : HostLinks τ) (c : Config) (node : String) (key : PrivateKey)
      (r : Reconciler) (call : Call), Reconciler.create c node key = .ok r → call.reconciler? = some r →
      let accounted := (call.run (accounted h)).run (s, [])
      (∀ d ∈ accounted.2.2, ∀ i ∈ d.request.invocations, i.isPassable = true) ∧
        ∀ phase interface reason, accounted.1 = .failed (.link phase interface (.io reason)) →
          ∃ d ∈ accounted.2.2, ∃ step ∈ d.steps, step.refusal? = some reason := by
  intro hall
  let r := { Reconciler.sampleNode 0x0A010203 Reconciler.sampleKey with interface := "wg\x00" }
  let s : HostLinks Script := ⟨⟨[.ip, .wg, .which], [], []⟩, none⟩
  have hname : ¬ IsPassable r.interface := (by decide : ¬ IsPassable "wg\x00")
  obtain ⟨q, hrun⟩ := run_of_unpassable (rfl : (Call.status r).reconciler? = some r) hname Script.host s
  obtain ⟨-, hrefused⟩ := hall Script Script.host s configWithNul "a" Reconciler.sampleKey r (.status r)
    (create_configWithNul _) rfl
  rw [hrun] at hrefused
  obtain ⟨d, hd, step, hstep, -⟩ := hrefused _ _ _ rfl
  obtain rfl := List.mem_singleton.mp hd
  cases hstep

end Call

end OverlayTunnel
