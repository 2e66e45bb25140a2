import Mathlib.Data.List.Forall2
import OverlayTunnel.Host.Backend
import OverlayTunnel.Proofs.Reconciler.Resemblance

/-!
Hosts that answer alike. Where the files that two hosts are given differ in a way that shows in none of
their answers, it shows in no reply to a request either.
-/
namespace OverlayTunnel

variable {τ υ α β : Type}

/-! ### Programs -/

/-- The same text, or files that `F` relates. -/
inductive Argument.Alike (F : ConfigFile → ConfigFile → Prop) : Argument → Argument → Prop
  | text (s : String) : Alike F (.text s) (.text s)
  | file {f g : ConfigFile} (hfile : F f g) : Alike F (.file f) (.file g)

/-- The same program with the same arguments, up to the contents of files. -/
structure Invocation.Alike (F : ConfigFile → ConfigFile → Prop) (i j : Invocation) : Prop where
  program : i.program = j.program
  arguments : List.Forall₂ (Argument.Alike F) i.arguments j.arguments

variable {F : ConfigFile → ConfigFile → Prop}

theorem Argument.map_shown_of_alike {as bs : List Argument}
    (h : List.Forall₂ (Argument.Alike F) as bs) : as.map shown = bs.map shown := by
  induction h with
  | nil => rfl
  | cons hab _ ih =>
    rw [List.map_cons, List.map_cons, ih]
    cases hab <;> rfl

theorem Argument.all_isPassable_of_alike {as bs : List Argument}
    (h : List.Forall₂ (Argument.Alike F) as bs) : as.all isPassable = bs.all isPassable := by
  induction h with
  | nil => rfl
  | cons hab _ ih =>
    rw [List.all_cons, List.all_cons, ih]
    cases hab <;> rfl

namespace Invocation

theorem Alike.isPassable_eq {i j : Invocation} (h : i.Alike F j) : i.isPassable = j.isPassable :=
  Argument.all_isPassable_of_alike h.arguments

theorem Alike.failureOf_eq {i j : Invocation} (h : i.Alike F j) (stderr : List UInt8) :
    HostLinks.failureOf i stderr = HostLinks.failureOf j stderr := by
  unfold HostLinks.failureOf
  rw [h.program, shownArguments, Argument.map_shown_of_alike h.arguments, shownArguments]

theorem alike_texts (program : Program) (arguments : List String) :
    Alike F ⟨program, HostLinks.texts arguments⟩ ⟨program, HostLinks.texts arguments⟩ := by
  refine ⟨rfl, ?_⟩
  induction arguments with
  | nil => exact .nil
  | cons s arguments ih => exact .cons (.text s) ih

end Invocation

/-! ### Hosts -/

/-- Hosts that give the same answers to the same programs, where the files that they are given may differ
as `F` says. -/
structure Host.Resembles (h : Host τ) (h' : Host υ) (F : ConfigFile → ConfigFile → Prop)
    (R : τ → υ → Prop) : Prop where
  run : ∀ i j s t, i.Alike F j → R s t →
    ((h.run i).run s).1 = ((h'.run j).run t).1 ∧ R ((h.run i).run s).2 ((h'.run j).run t).2
  writeFile : ∀ f g s t, F f g → R s t →
    ((h.writeFile f).run s).1 = ((h'.writeFile g).run t).1 ∧
      R ((h.writeFile f).run s).2 ((h'.writeFile g).run t).2
  removeFile : ∀ f g s t, F f g → R s t →
    R ((h.removeFile f).run s).2 ((h'.removeFile g).run t).2

namespace HostLinks

variable {h : Host τ} {h' : Host υ} {R : τ → υ → Prop}

/-- Links on related hosts, where the tool check has had the same answer. -/
structure Alike (R : τ → υ → Prop) (s : HostLinks τ) (t : HostLinks υ) : Prop where
  host : R s.host t.host
  toolCheck : s.toolCheck = t.toolCheck

theorem resemble_onHost {x : StateM τ α} {y : StateM υ α}
    (hxy : ∀ s t, R s t → (x.run s).1 = (y.run t).1 ∧ R (x.run s).2 (y.run t).2) :
    Resemble (Alike R) (onHost x) (onHost y) := by
  intro s t hst
  obtain ⟨hresult, hhost⟩ := hxy s.host t.host hst.host
  exact ⟨congrArg Except.ok hresult, hhost, hst.toolCheck⟩

theorem resemble_run (hh : h.Resembles h' F R) {program : Program} {as bs : List Argument}
    (hi : Invocation.Alike F ⟨program, as⟩ ⟨program, bs⟩) :
    Resemble (Alike R) (run h program as) (run h' program bs) := by
  unfold run
  dsimp only
  rw [hi.isPassable_eq]
  split
  · exact Resemble.pure (.error _)
  · refine (resemble_onHost fun s t => hh.run _ _ s t hi).bind fun outcome => ?_
    cases outcome with
    | notStarted reason => exact Resemble.pure (.error _)
    | exited code stdout stderr =>
      dsimp only
      rw [hi.failureOf_eq]
      split
      · exact Resemble.pure (.error _)
      · exact Resemble.pure (.ok _)

theorem resemble_texts (hh : h.Resembles h' F R) (program : Program) (arguments : List String) :
    Resemble (Alike R) (run h program (texts arguments)) (run h' program (texts arguments)) :=
  resemble_run hh (Invocation.alike_texts program arguments)

theorem resemble_hasTool (hh : h.Resembles h' F R) :
    Resemble (Alike R) (hasTool h) (hasTool h') := by
  unfold hasTool
  refine Resemble.get_bind fun s t hst => ?_
  rw [hst.toolCheck]
  cases t.toolCheck with
  | some answer => exact Resemble.pure (.ok answer)
  | none =>
    have hprobe := Invocation.alike_texts (F := F) .which ["wg"]
    refine (resemble_onHost fun s t => hh.run _ _ s t hprobe).bind fun outcome => ?_
    intro s t hst
    exact ⟨rfl, hst.host, rfl⟩

theorem resemble_requireTool (hh : h.Resembles h' F R) :
    Resemble (Alike R) (requireTool h) (requireTool h') := by
  unfold requireTool
  refine (resemble_hasTool hh).bind fun answer => ?_
  split
  · exact Resemble.pure (.error _)
  · exact Resemble.pure (.ok ())

theorem resemble_linkByName (hh : h.Resembles h' F R) (name : String) :
    Resemble (Alike R) (linkByName h name) (linkByName h' name) := by
  unfold linkByName
  refine (resemble_texts hh .ip _).bind fun output => ?_
  split
  · exact Resemble.pure (.ok _)
  · exact Resemble.pure (.error _)

theorem resemble_device (hh : h.Resembles h' F R) (name : String) :
    Resemble (Alike R) (device h name) (device h' name) := by
  unfold device
  refine (resemble_linkByName hh name).bind fun _ => ?_
  refine (resemble_requireTool hh).bind fun _ => ?_
  refine (resemble_texts hh .wg _).bind fun dump => ?_
  split
  · exact Resemble.pure (.ok _)
  · exact Resemble.pure (.error _)

theorem resemble_ip (hh : h.Resembles h' F R) (arguments : List String) :
    Resemble (Alike R) (ip h arguments) (ip h' arguments) := by
  unfold ip
  exact (resemble_texts hh .ip arguments).bind fun _ => Resemble.pure (.ok ())

theorem resemble_andThen {x : LinkM (HostLinks τ) α} {y : LinkM (HostLinks υ) α}
    {u : StateM τ Unit} {v : StateM υ Unit} (hxy : Resemble (Alike R) x y)
    (huv : ∀ s t, R s t → R (u.run s).2 (v.run t).2) :
    Resemble (Alike R) (andThen x u) (andThen y v) := by
  intro s t hst
  obtain ⟨hresult, hhost, hcheck⟩ := hxy s t hst
  exact ⟨hresult, huv _ _ hhost, hcheck⟩

/-- Setups that differ in the text of their file alone. -/
structure AlikeSetups (F : ConfigFile → ConfigFile → Prop) (d d' : DeviceSetup) : Prop where
  file : ∀ name, F (configFile name d) (configFile name d')
  replacesPeers : d.replacesPeers = d'.replacesPeers
  peers : d.peers = d'.peers

theorem resemble_applyFile (hh : h.Resembles h' F R) (name : String) {d d' : DeviceSetup}
    (hd : AlikeSetups F d d') : Resemble (Alike R) (applyFile h name d) (applyFile h' name d') := by
  have hcommand : applyCommand d = applyCommand d' := by
    rw [applyCommand, hd.replacesPeers, applyCommand]
  have hresets : peersToReset d = peersToReset d' := by
    rw [peersToReset, hd.replacesPeers, hd.peers, peersToReset]
  have hi : Invocation.Alike F
      ⟨.wg, [.text (applyCommand d), .text name, .file (configFile name d)]⟩
      ⟨.wg, [.text (applyCommand d'), .text name, .file (configFile name d')]⟩ := by
    rw [hcommand]
    exact ⟨rfl, .cons (.text _) (.cons (.text _) (.cons (.file (hd.file name)) .nil))⟩
  unfold applyFile
  rw [hresets]
  refine (resemble_run hh hi).bind fun _ => ?_
  refine Resemble.forM (fun p => ?_) _
  exact (resemble_texts hh .wg _).bind fun _ => Resemble.pure (.ok ())

theorem resemble_configureDevice (hh : h.Resembles h' F R) (name : String) {d d' : DeviceSetup}
    (hd : AlikeSetups F d d') :
    Resemble (Alike R) (configureDevice h name d) (configureDevice h' name d') := by
  unfold configureDevice
  refine (resemble_requireTool hh).bind fun _ => ?_
  refine (resemble_onHost fun s t => hh.writeFile _ _ s t (hd.file name)).bind fun written => ?_
  cases written with
  | error reason => exact Resemble.pure (.error _)
  | ok _ =>
    exact resemble_andThen (resemble_applyFile hh name hd) fun s t =>
      hh.removeFile _ _ s t (hd.file name)

/-- Links on hosts that answer alike reply alike. -/
theorem resembles_backend (hh : h.Resembles h' F R)
    (hrefl : ∀ name d, F (configFile name d) (configFile name d)) :
    (backend h).Resembles (backend h') (Alike R) (AlikeSetups F) where
  same q := by
    cases q with
    | device name => exact resemble_device hh name
    | configureDevice name d =>
      exact resemble_configureDevice hh name ⟨fun name => hrefl name d, rfl, rfl⟩
    | linkByName name => exact resemble_linkByName hh name
    | _ => exact resemble_ip hh _
  configure name d d' hd := resemble_configureDevice hh name hd

end HostLinks

end OverlayTunnel
