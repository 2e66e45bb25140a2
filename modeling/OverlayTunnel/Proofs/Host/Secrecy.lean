import OverlayTunnel.Host.Scripted
import OverlayTunnel.Proofs.Host.Resemblance
import OverlayTunnel.Proofs.Key.Text

/-!
What a private key can be seen in. Sessions that differ in private keys alone run the same programs and
have the same answers, and their configuration files differ in one line.
-/
namespace OverlayTunnel

/-! ### What may differ -/

/-- Files of the same name whose contents are the same up to the value on the line of the private key. -/
def ConfigFile.AlikeButKey (f g : ConfigFile) : Prop :=
  f.stem = g.stem ∧ ∃ key key' rest : String, '\n' ∉ key.toList ∧ '\n' ∉ key'.toList ∧
    f.content = "[Interface]\n" ++ settingLine "PrivateKey" key ++ rest ∧
    g.content = "[Interface]\n" ++ settingLine "PrivateKey" key' ++ rest

/-- The same event, up to the private keys in files. -/
inductive HostEvent.AlikeButKey : HostEvent → HostEvent → Prop
  | ran {i j : Invocation} (h : i.Alike ConfigFile.AlikeButKey j) : AlikeButKey (.ran i) (.ran j)
  | notFound {i j : Invocation} (h : i.Alike ConfigFile.AlikeButKey j) :
    AlikeButKey (.notFound i) (.notFound j)
  | wrote {f g : ConfigFile} (h : f.AlikeButKey g) : AlikeButKey (.wrote f) (.wrote g)
  | removed {f g : ConfigFile} (h : f.AlikeButKey g) : AlikeButKey (.removed f) (.removed g)

/-- Setups that are the same up to the private key. -/
structure DeviceSetup.AlikeButKey (d d' : DeviceSetup) : Prop where
  listenPort : d.listenPort = d'.listenPort
  replacesPeers : d.replacesPeers = d'.replacesPeers
  peers : d.peers = d'.peers

/-- Reconcilers that are the same up to the private key and, what comes of it, the public one. -/
structure Reconciler.AlikeButKey (r r' : Reconciler) : Prop where
  interface : r.interface = r'.interface
  listenPort : r.listenPort = r'.listenPort
  mtu : r.mtu = r'.mtu
  network : r.network = r'.network
  name : r.identity.name = r'.identity.name
  overlayAddress : r.identity.overlayAddress = r'.identity.overlayAddress

/-- The same call, up to the private keys that it brings. -/
inductive Call.AlikeButKey : Call → Call → Prop
  | bringUp {r r' : Reconciler} (hr : r.AlikeButKey r') (ms : List Member) :
    AlikeButKey (.bringUp r ms) (.bringUp r' ms)
  | takeDown {r r' : Reconciler} (hr : r.AlikeButKey r') : AlikeButKey (.takeDown r) (.takeDown r')
  | status {r r' : Reconciler} (hr : r.AlikeButKey r') : AlikeButKey (.status r) (.status r')
  | configure (name : String) {d d' : DeviceSetup} (hd : d.AlikeButKey d') :
    AlikeButKey (.request (.configureDevice name d)) (.request (.configureDevice name d'))
  | request (q : LinkRequest) : AlikeButKey (.request q) (.request q)

/-! ### What is made of a key -/

theorem PrivateKey.lineFeed_not_mem_text (key : PrivateKey) : '\n' ∉ key.text.toList := by
  rw [PrivateKey.text, String.toList_ofList]
  exact Text.not_mem_of_isVisible key.isVisible_of_mem_chars (by decide)

/-- The line of the private key is the second one of a configuration. -/
theorem ConfigFile.alikeButKey_configFile (name : String) {d d' : DeviceSetup}
    (hd : d.AlikeButKey d') :
    (HostLinks.configFile name d).AlikeButKey (HostLinks.configFile name d') := by
  refine ⟨rfl, d.privateKey.text, d'.privateKey.text,
    settingLine "ListenPort" (Numeral.decimal d.listenPort.toNat) ++
      Text.join "" (d.peers.map fun p => "\n" ++ p.setupText),
    d.privateKey.lineFeed_not_mem_text, d'.privateKey.lineFeed_not_mem_text, ?_, ?_⟩
  · simp only [HostLinks.configFile, DeviceSetup.text, String.append_assoc]
  · simp only [HostLinks.configFile, DeviceSetup.text, String.append_assoc, hd.listenPort, hd.peers]

theorem HostLinks.alikeSetups_of_alikeButKey {d d' : DeviceSetup} (hd : d.AlikeButKey d') :
    AlikeSetups ConfigFile.AlikeButKey d d' :=
  ⟨fun name => ConfigFile.alikeButKey_configFile name hd, hd.replacesPeers, hd.peers⟩

namespace Reconciler

variable {r r' : Reconciler}

theorem sampleNode_alikeButKey (overlayAddress : BitVec 32) (key key' : PrivateKey) :
    (sampleNode overlayAddress key).AlikeButKey (sampleNode overlayAddress key') := by
  unfold sampleNode
  exact ⟨rfl, rfl, rfl, rfl, rfl, rfl⟩

theorem AlikeButKey.alike (h : r.AlikeButKey r') :
    r.Alike (HostLinks.AlikeSetups ConfigFile.AlikeButKey) r' where
  interface := h.interface.symm
  mtu := h.mtu.symm
  overlayAddress := h.overlayAddress.symm
  setup ms := by
    unfold Reconciler.setup
    rw [← h.listenPort, ← h.interface]
    cases Member.toPeers r.listenPort ms with
    | error e => exact .inl ⟨_, rfl, rfl⟩
    | ok peers =>
      exact .inr ⟨_, _, rfl, rfl, HostLinks.alikeSetups_of_alikeButKey ⟨rfl, rfl, rfl⟩⟩

end Reconciler

theorem Call.AlikeButKey.alike {c c' : Call} (h : c.AlikeButKey c') :
    c.Alike (HostLinks.AlikeSetups ConfigFile.AlikeButKey) c' := by
  cases h with
  | bringUp hr ms => exact .bringUp hr.alike ms
  | takeDown hr => exact .takeDown hr.alike
  | status hr => exact .status hr.alike
  | configure name hd => exact .configure name (HostLinks.alikeSetups_of_alikeButKey hd)
  | request q => exact .request q

/-! ### Scripted sessions -/

namespace Script

/-- Scripts with the same programs and responses, after the same events up to the keys in files. -/
structure AlikeButKey (s t : Script) : Prop where
  tools : s.tools = t.tools
  responses : s.responses = t.responses
  events : List.Forall₂ HostEvent.AlikeButKey s.events t.events

theorem run_run (i : Invocation) (s : Script) :
    (run i).run s =
      if i.program ∈ s.tools then
        let r := s.responses.headD .silent
        (.exited r.code r.stdout r.stderr,
          { s with events := s.events ++ [.ran i], responses := s.responses.tail })
      else
        (.notStarted "No such file or directory (os error 2)",
          { s with events := s.events ++ [.notFound i] }) := by
  change StateT.run (if i.program ∈ s.tools then _ else _) s = _
  split <;> rfl

theorem run_writeFile (f : ConfigFile) (s : Script) :
    (writeFile f).run s =
      match refusal? f with
      | some reason => (.error (reason ++ " at path \"<conf>\""), s)
      | none => (.ok (), { s with events := s.events ++ [.wrote f] }) := by
  unfold writeFile
  cases refusal? f <;> rfl

theorem refusal?_of_stem_eq {f g : ConfigFile} (h : f.stem = g.stem) : refusal? f = refusal? g := by
  unfold refusal? ConfigFile.shownName
  rw [h]

theorem forall₂_concat {R : HostEvent → HostEvent → Prop} {es es' : List HostEvent}
    {e e' : HostEvent} (hes : List.Forall₂ R es es') (he : R e e') :
    List.Forall₂ R (es ++ [e]) (es' ++ [e']) :=
  List.rel_append hes (.cons he .nil)

/-- A script answers without looking into the files. -/
theorem resembles_host : host.Resembles host ConfigFile.AlikeButKey AlikeButKey where
  run i j s t hi hst := by
    change ((run i).run s).1 = ((run j).run t).1 ∧
      AlikeButKey ((run i).run s).2 ((run j).run t).2
    rw [run_run, run_run, hi.program, hst.tools, hst.responses]
    split
    · exact ⟨rfl, rfl, rfl, forall₂_concat hst.events (.ran hi)⟩
    · exact ⟨rfl, rfl, rfl, forall₂_concat hst.events (.notFound hi)⟩
  writeFile f g s t hf hst := by
    change ((writeFile f).run s).1 = ((writeFile g).run t).1 ∧
      AlikeButKey ((writeFile f).run s).2 ((writeFile g).run t).2
    rw [run_writeFile, run_writeFile, refusal?_of_stem_eq hf.1]
    cases refusal? g with
    | some reason => exact ⟨rfl, hst⟩
    | none =>
      exact ⟨rfl, hst.tools, hst.responses, forall₂_concat hst.events (.wrote hf)⟩
  removeFile f g s t hf hst :=
    ⟨hst.tools, hst.responses, forall₂_concat hst.events (.removed hf)⟩

/-! ### Sessions -/

/-- A call, and the responses of the programs that are run in it. -/
structure Step where
  responses : List Response
  call : Call

/-- What can be seen of a step: the answer, and what was done on the host. -/
structure Trace where
  answer : Answer
  events : List HostEvent

def play (step : Step) : StateM (HostLinks Script) Trace := fun s =>
  let (answer, s) :=
    (step.call.run (HostLinks.backend host)).run { s with host := s.host.restart step.responses }
  (⟨answer, s.host.events⟩, s)

/-- A session of one process, step by step. -/
def playAll (steps : List Step) : StateM (HostLinks Script) (List Trace) :=
  steps.mapM play

/-- Steps that differ at most in the private keys of the call. -/
structure Step.AlikeButKey (step step' : Step) : Prop where
  responses : step.responses = step'.responses
  call : step.call.AlikeButKey step'.call

/-- Traces that differ at most in the private keys in files. -/
structure Trace.AlikeButKey (trace trace' : Trace) : Prop where
  answer : trace.answer = trace'.answer
  events : List.Forall₂ HostEvent.AlikeButKey trace.events trace'.events

theorem playAll_cons (step : Step) (steps : List Step) (s : HostLinks Script) :
    (playAll (step :: steps)).run s =
      (((play step).run s).1 :: ((playAll steps).run ((play step).run s).2).1,
        ((playAll steps).run ((play step).run s).2).2) := by
  unfold playAll
  rw [List.mapM_cons]
  rfl

theorem play_alikeButKey {step step' : Step} (h : step.AlikeButKey step') {s t : HostLinks Script}
    (hst : HostLinks.Alike AlikeButKey s t) :
    ((play step).run s).1.AlikeButKey ((play step').run t).1 ∧
      HostLinks.Alike AlikeButKey ((play step).run s).2 ((play step').run t).2 := by
  have hbackend := HostLinks.resembles_backend resembles_host
    fun name d => ConfigFile.alikeButKey_configFile name ⟨rfl, rfl, rfl⟩
  have hstart : HostLinks.Alike AlikeButKey { s with host := s.host.restart step.responses }
      { t with host := t.host.restart step'.responses } :=
    ⟨⟨hst.host.tools, h.responses, .nil⟩, hst.toolCheck⟩
  obtain ⟨hanswer, hafter⟩ := Call.run_alike hbackend h.call.alike hstart
  exact ⟨⟨hanswer, hafter.host.events⟩, hafter⟩

theorem playAll_alikeButKey_of_alike {steps steps' : List Step}
    (h : List.Forall₂ Step.AlikeButKey steps steps') {s t : HostLinks Script}
    (hst : HostLinks.Alike AlikeButKey s t) :
    List.Forall₂ Trace.AlikeButKey ((playAll steps).run s).1 ((playAll steps').run t).1 := by
  induction h generalizing s t with
  | nil => exact .nil
  | cons hstep _ ih =>
    obtain ⟨htrace, hafter⟩ := play_alikeButKey hstep hst
    rw [playAll_cons, playAll_cons]
    exact .cons htrace (ih hafter)

/-- A private key reaches the configuration files alone, and there no more than the value on its line:
whatever the programs on the host and their responses are, sessions that differ in private keys alone have,
step by step, the same answers, and run the same programs with the same arguments up to such files. -/
theorem playAll_alikeButKey {steps steps' : List Step}
    (h : List.Forall₂ Step.AlikeButKey steps steps') (tools : List Program)
    (toolCheck : Option Bool) :
    List.Forall₂ Trace.AlikeButKey
      ((playAll steps).run ⟨⟨tools, [], []⟩, toolCheck⟩).1
      ((playAll steps').run ⟨⟨tools, [], []⟩, toolCheck⟩).1 :=
  playAll_alikeButKey_of_alike h ⟨⟨rfl, rfl, .nil⟩, rfl⟩

/-- A session of a node whose link is not there at first. -/
def sampleSession (key : PrivateKey) : List Step :=
  let r := Reconciler.sampleNode 0x0A010203 key
  let absent := Utf8.encode "Cannot find device".toList
  [⟨[⟨1, [], absent⟩], .status r⟩,
    ⟨[], .bringUp r ([0x0A010205, 0x0A010206].map Reconciler.sampleMember)⟩,
    ⟨[], .request (.configureDevice "wgoverlay" ⟨key, 51820, false, []⟩)⟩,
    ⟨[⟨2, [], absent⟩], .request (.linkByName "wgoverlay")⟩,
    ⟨[], .takeDown r⟩]

theorem sampleSession_alikeButKey (key key' : PrivateKey) :
    List.Forall₂ Step.AlikeButKey (sampleSession key) (sampleSession key') := by
  have hr := Reconciler.sampleNode_alikeButKey 0x0A010203 key key'
  exact .cons ⟨rfl, .status hr⟩ (.cons ⟨rfl, .bringUp hr _⟩
    (.cons ⟨rfl, .configure _ ⟨rfl, rfl, rfl⟩⟩ (.cons ⟨rfl, .request _⟩
      (.cons ⟨rfl, .takeDown hr⟩ .nil))))

theorem playAll_alikeButKey_sample :
    let key' : PrivateKey := ⟨List.replicate keySize 1, rfl⟩
    List.Forall₂ Step.AlikeButKey (sampleSession Reconciler.sampleKey) (sampleSession key') ∧
      List.Forall₂ Trace.AlikeButKey
        ((playAll (sampleSession Reconciler.sampleKey)).run ⟨⟨[.ip, .wg, .which], [], []⟩, none⟩).1
        ((playAll (sampleSession key')).run ⟨⟨[.ip, .wg, .which], [], []⟩, none⟩).1 := by
  intro key'
  have h := sampleSession_alikeButKey Reconciler.sampleKey key'
  exact ⟨h, playAll_alikeButKey h [.ip, .wg, .which] none⟩

end Script

end OverlayTunnel
