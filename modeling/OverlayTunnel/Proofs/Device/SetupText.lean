import OverlayTunnel.Device.Merge
import OverlayTunnel.Proofs.Address.Notation
import OverlayTunnel.Proofs.Key.Text
import OverlayTunnel.Proofs.Member.Peers

/-!
What the text of a configuration says. A configuration tool reads it line by line: two lines open
sections, and any other line sets something in the section that is open. It finds the configuration
that was written, whatever keys, endpoints and networks are in it.
-/
namespace OverlayTunnel

namespace SetupText

/-! ### Sections and their settings -/

/-- A section: the line that opens it, and its settings in order. -/
structure Part where
  title : List Char
  settings : List (List Char × List Char)

def interfaceTitle : List Char := "[Interface]".toList

def peerTitle : List Char := "[Peer]".toList

/-- A line split at the first equals sign that has blanks around it. -/
def setting? : List Char → Option (List Char × List Char)
  | [] => none
  | c :: cs =>
    if " = ".toList.isPrefixOf (c :: cs) then some ([], cs.drop 2)
    else (setting? cs).map fun (name, value) => (c :: name, value)

/-- One line more; the section that is open comes first. -/
def addLine (parts : List Part) (line : List Char) : Option (List Part) :=
  if line = [] then some parts
  else if line = interfaceTitle ∨ line = peerTitle then some (⟨line, []⟩ :: parts)
  else
    match parts, setting? line with
    | part :: parts, some setting =>
      some ({ part with settings := part.settings ++ [setting] } :: parts)
    | _, _ => none

def parts? (content : List Char) : Option (List Part) :=
  ((Text.lines content).foldlM addLine []).map List.reverse

/-- The value of a setting, the first one with its name. -/
def Part.value? (part : Part) (name : String) : Option (List Char) :=
  (part.settings.find? fun setting => setting.1 = name.toList).map Prod.snd

/-! ### What the settings say -/

/-- The pieces of a text between commas that a blank follows. -/
def pieces : List Char → List (List Char)
  | [] => [[]]
  | [c] => [[c]]
  | c :: d :: cs =>
    if c = ',' ∧ d = ' ' then [] :: pieces cs else (pieces (d :: cs)).modifyHead (c :: ·)

def networks? (text : List Char) : Option (List Network) :=
  if text = [] then some [] else (pieces text).mapM Network.ofChars?

def peer? (part : Part) : Option DevicePeer :=
  if part.title = peerTitle then do
    let key ← (PublicKey.ofText (String.ofList (← part.value? "PublicKey"))).toOption
    let endpoint ← Endpoint.ofChars? (← part.value? "Endpoint")
    let allowed ← networks? (← part.value? "AllowedIPs")
    return ⟨key, some endpoint, allowed⟩
  else none

/-- What a configuration file says. -/
structure Contents where
  privateKey : PrivateKey
  listenPort : UInt16
  peers : List DevicePeer

def contentsOfParts? : List Part → Option Contents
  | [] => none
  | interface :: peers =>
    if interface.title = interfaceTitle then do
      let key ← (PrivateKey.ofText (String.ofList (← interface.value? "PrivateKey"))).toOption
      let port ← (Numeral.readNat 65535 (← interface.value? "ListenPort")).toOption
      let peers ← peers.mapM peer?
      return ⟨key, UInt16.ofNat port, peers⟩
    else none

def contents? (content : String) : Option Contents := do
  contentsOfParts? (← parts? content.toList)

/-! ### Reading lines -/

/-- Lines of a configuration have visible characters and single blanks in them. -/
def IsPlain (s : List Char) : Prop :=
  ∀ c ∈ s, Text.isVisible c = true ∨ c = ' '

instance (s : List Char) : Decidable (IsPlain s) :=
  List.decidableBAll (fun c => Text.isVisible c = true ∨ c = ' ') s

theorem isPlain_of_isVisible {s : List Char} (h : ∀ c ∈ s, Text.isVisible c = true) : IsPlain s :=
  fun c hc => .inl (h c hc)

theorem IsPlain.append {s t : List Char} (hs : IsPlain s) (ht : IsPlain t) : IsPlain (s ++ t) := by
  intro c hc
  rcases List.mem_append.mp hc with hc | hc
  · exact hs c hc
  · exact ht c hc

theorem IsPlain.not_mem {s : List Char} (hs : IsPlain s) {c : Char} (hc : Text.isVisible c = false)
    (hblank : c ≠ ' ') : c ∉ s := by
  intro hm
  rcases hs c hm with h | h
  · rw [hc] at h
    cases h
  · exact hblank h

theorem lines_of_isPlain {line : List Char} (h : IsPlain line) (rest : List Char) :
    Text.lines (line ++ '\n' :: rest) = line :: Text.lines rest := by
  have hfeed : '\n' ∉ line := h.not_mem (by decide) (by decide)
  have hreturn : '\r' ∉ line := h.not_mem (by decide) (by decide)
  have hchomp : Text.chomp line = line := by
    unfold Text.chomp
    rw [if_neg fun hlast => hreturn (List.mem_of_getLast? hlast)]
  rw [Text.lines_append_lineFeed hfeed, hchomp]

/-- The line of a setting, without its line break. -/
def settingChars (name : String) (value : List Char) : List Char :=
  name.toList ++ (" = ".toList ++ value)

theorem toList_settingLine (name value : String) :
    (settingLine name value).toList = settingChars name value.toList ++ ['\n'] := by
  simp [settingLine, settingChars]

theorem setting?_settingChars {name : List Char} (hname : ' ' ∉ name) (value : List Char) :
    setting? (name ++ (" = ".toList ++ value)) = some (name, value) := by
  induction name with
  | nil => rfl
  | cons c name ih =>
    have hc : c ≠ ' ' := fun h => hname (h ▸ List.mem_cons_self)
    have hrest := ih fun h => hname (List.mem_cons_of_mem _ h)
    have hprefix : ¬ " = ".toList.isPrefixOf (c :: (name ++ (" = ".toList ++ value))) = true := by
      simp [List.isPrefixOf, Ne.symm hc]
    rw [List.cons_append, setting?, if_neg hprefix, hrest]
    rfl

/-- A line that begins like a name sets something. -/
theorem addLine_settingChars (name : String) {first : Char} {others : List Char}
    (hname : name.toList = first :: others) (hfirst : first ≠ '[') (hblank : ' ' ∉ name.toList)
    (value : List Char) (part : Part) (parts : List Part) :
    addLine (part :: parts) (settingChars name value) =
      some ({ part with settings := part.settings ++ [(name.toList, value)] } :: parts) := by
  have hline : settingChars name value = first :: (others ++ (" = ".toList ++ value)) := by
    rw [settingChars, hname]
    rfl
  have hempty : settingChars name value ≠ [] := by
    rw [hline]
    exact List.cons_ne_nil _ _
  have htitle : ¬ (settingChars name value = interfaceTitle ∨ settingChars name value = peerTitle) := by
    rw [hline]
    rintro (h | h) <;> exact hfirst (List.cons.inj h).1
  unfold addLine
  rw [if_neg hempty, if_neg htitle, settingChars, setting?_settingChars hblank]

/-! ### Reading values -/

theorem pieces_append {piece : List Char} (h : ',' ∉ piece) (rest : List Char) :
    pieces (piece ++ (", ".toList ++ rest)) = piece :: pieces rest := by
  induction piece with
  | nil => rfl
  | cons c piece ih =>
    have hc : c ≠ ',' := fun e => h (e ▸ List.mem_cons_self)
    have hrest := ih fun hm => h (List.mem_cons_of_mem _ hm)
    obtain ⟨d, cs, hcs⟩ : ∃ d cs, piece ++ (", ".toList ++ rest) = d :: cs := by
      cases piece with
      | nil => exact ⟨',', ' ' :: rest, rfl⟩
      | cons d piece => exact ⟨d, _, rfl⟩
    rw [List.cons_append, hcs, pieces, if_neg fun e => hc e.1, ← hcs, hrest]
    rfl

theorem pieces_of_not_mem {piece : List Char} (h : ',' ∉ piece) : pieces piece = [piece] := by
  induction piece with
  | nil => rfl
  | cons c piece ih =>
    have hc : c ≠ ',' := fun e => h (e ▸ List.mem_cons_self)
    have hrest := ih fun hm => h (List.mem_cons_of_mem _ hm)
    cases piece with
    | nil => rfl
    | cons d piece =>
      rw [pieces, if_neg fun e => hc e.1, hrest]
      rfl

theorem pieces_intercalate {parts : List (List Char)} (hne : parts ≠ [])
    (h : ∀ part ∈ parts, ',' ∉ part) : pieces (", ".toList.intercalate parts) = parts := by
  induction parts with
  | nil => exact absurd rfl hne
  | cons part parts ih =>
    have hpart := h part List.mem_cons_self
    cases parts with
    | nil => rw [List.intercalate_singleton, pieces_of_not_mem hpart]
    | cons next parts =>
      have hrest := ih (List.cons_ne_nil _ _) fun q hq => h q (List.mem_cons_of_mem _ hq)
      rw [List.intercalate_cons_cons, List.append_assoc, pieces_append hpart, hrest]

/-- The networks of a peer, as its section lists them. -/
def allowedChars (networks : List Network) : List Char :=
  ", ".toList.intercalate (networks.map Network.chars)

theorem networks?_allowedChars (networks : List Network) :
    networks? (allowedChars networks) = some networks := by
  cases networks with
  | nil => rfl
  | cons n networks =>
    have hpieces : pieces (allowedChars (n :: networks)) = (n :: networks).map Network.chars := by
      apply pieces_intercalate (by simp)
      intro part hpart
      obtain ⟨m, -, rfl⟩ := List.mem_map.mp hpart
      exact m.comma_not_mem_chars
    have hne : allowedChars (n :: networks) ≠ [] :=
      Network.intercalate_ne_nil ", ".toList n networks
    unfold networks?
    rw [if_neg hne, hpieces, Network.mapM_ofChars?]

theorem isPlain_allowedChars (networks : List Network) : IsPlain (allowedChars networks) := by
  apply Text.forall_mem_intercalate
  · exact (by decide : IsPlain ", ".toList)
  · intro part hpart c hc
    obtain ⟨n, -, rfl⟩ := List.mem_map.mp hpart
    exact .inl (n.isVisible_of_mem_chars c hc).1

/-! ### The section of a peer -/

/-- The section that a peer is written as. -/
def peerPart (p : TunnelPeer) : Part :=
  ⟨peerTitle, [("PublicKey".toList, p.publicKey.chars), ("Endpoint".toList, p.endpoint.chars),
    ("AllowedIPs".toList, allowedChars p.allowed)]⟩

theorem peer?_peerPart (p : TunnelPeer) : peer? (peerPart p) = some (.ofTunnelPeer p) := by
  have hkey : PublicKey.ofText (String.ofList p.publicKey.chars) = .ok p.publicKey :=
    p.publicKey.ofText_text
  have hkeyChars : (peerPart p).value? "PublicKey" = some p.publicKey.chars := rfl
  have hendpointChars : (peerPart p).value? "Endpoint" = some p.endpoint.chars := rfl
  have hallowedChars : (peerPart p).value? "AllowedIPs" = some (allowedChars p.allowed) := rfl
  have htitle : (peerPart p).title = peerTitle := rfl
  unfold peer?
  rw [hkeyChars, hendpointChars, hallowedChars, if_pos htitle]
  simp [hkey, p.endpoint.ofChars?_chars, networks?_allowedChars, DevicePeer.ofTunnelPeer,
    Except.toOption]

/-- The lines of a peer, an empty one first. -/
def peerLines (p : TunnelPeer) : List (List Char) :=
  [[], peerTitle, settingChars "PublicKey" p.publicKey.chars,
    settingChars "Endpoint" p.endpoint.chars, settingChars "AllowedIPs" (allowedChars p.allowed)]

theorem foldlM_peerLines (p : TunnelPeer) (parts : List Part) :
    (peerLines p).foldlM addLine parts = some (peerPart p :: parts) := by
  have hempty : addLine parts [] = some parts := rfl
  have htitle : addLine parts peerTitle = some (⟨peerTitle, []⟩ :: parts) := rfl
  have hkey (part : Part) (value : List Char) :=
    addLine_settingChars "PublicKey" rfl (by decide) (by decide) value part parts
  have hendpoint (part : Part) (value : List Char) :=
    addLine_settingChars "Endpoint" rfl (by decide) (by decide) value part parts
  have hallowed (part : Part) (value : List Char) :=
    addLine_settingChars "AllowedIPs" rfl (by decide) (by decide) value part parts
  simp only [peerLines, List.foldlM_cons, List.foldlM_nil, hempty, htitle, hkey, hendpoint, hallowed,
    Option.bind_eq_bind, Option.bind_some]
  rfl

theorem foldlM_flatMap_peerLines (ps : List TunnelPeer) (parts : List Part) :
    (ps.flatMap peerLines).foldlM addLine parts = some ((ps.map peerPart).reverse ++ parts) := by
  induction ps generalizing parts with
  | nil => rfl
  | cons p ps ih =>
    rw [List.flatMap_cons, List.foldlM_append, foldlM_peerLines]
    simp [ih]

/-! ### Whole texts -/

def interfacePart (d : DeviceSetup) : Part :=
  ⟨interfaceTitle, [("PrivateKey".toList, d.privateKey.chars),
    ("ListenPort".toList, Nat.toDigits 10 d.listenPort.toNat)]⟩

def interfaceLines (d : DeviceSetup) : List (List Char) :=
  [interfaceTitle, settingChars "PrivateKey" d.privateKey.chars,
    settingChars "ListenPort" (Nat.toDigits 10 d.listenPort.toNat)]

theorem foldlM_interfaceLines (d : DeviceSetup) :
    (interfaceLines d).foldlM addLine [] = some [interfacePart d] := by
  have htitle : addLine [] interfaceTitle = some [⟨interfaceTitle, []⟩] := rfl
  have hkey (part : Part) (value : List Char) :=
    addLine_settingChars "PrivateKey" rfl (by decide) (by decide) value part []
  have hport (part : Part) (value : List Char) :=
    addLine_settingChars "ListenPort" rfl (by decide) (by decide) value part []
  simp only [interfaceLines, List.foldlM_cons, List.foldlM_nil, htitle, hkey, hport,
    Option.bind_eq_bind, Option.bind_some]
  rfl

/-- Lines with their line breaks. -/
def written (lines : List (List Char)) : List Char :=
  lines.flatMap fun line => line ++ ['\n']

theorem lines_written {lines : List (List Char)} (h : ∀ line ∈ lines, IsPlain line) :
    Text.lines (written lines) = lines := by
  induction lines with
  | nil => rfl
  | cons line lines ih =>
    have hsplit : written (line :: lines) = line ++ '\n' :: written lines := by simp [written]
    rw [hsplit, lines_of_isPlain (h line List.mem_cons_self),
      ih fun l hl => h l (List.mem_cons_of_mem _ hl)]

theorem isPlain_settingChars {name : String} {value : List Char} (hname : IsPlain name.toList)
    (hvalue : IsPlain value) : IsPlain (settingChars name value) :=
  hname.append (IsPlain.append (by decide) hvalue)

theorem isPlain_of_mem_interfaceLines (d : DeviceSetup) : ∀ line ∈ interfaceLines d, IsPlain line := by
  have hport := Numeral.isVisible_of_mem_toDigits (n := d.listenPort.toNat) (by decide : 1 < 10)
    (by decide)
  simp only [interfaceLines, List.forall_mem_cons, List.not_mem_nil, false_implies, implies_true,
    and_true]
  refine ⟨by decide, ?_, ?_⟩
  · exact isPlain_settingChars (by decide) (isPlain_of_isVisible d.privateKey.isVisible_of_mem_chars)
  · exact isPlain_settingChars (by decide) (isPlain_of_isVisible hport)

theorem isPlain_of_mem_peerLines (p : TunnelPeer) : ∀ line ∈ peerLines p, IsPlain line := by
  simp only [peerLines, List.forall_mem_cons, List.not_mem_nil, false_implies, implies_true, and_true]
  refine ⟨by decide, by decide, ?_, ?_, ?_⟩
  · exact isPlain_settingChars (by decide) (isPlain_of_isVisible p.publicKey.isVisible_of_mem_chars)
  · exact isPlain_settingChars (by decide) (isPlain_of_isVisible p.endpoint.isVisible_of_mem_chars)
  · exact isPlain_settingChars (by decide) (isPlain_allowedChars p.allowed)

theorem written_append (before later : List (List Char)) :
    written (before ++ later) = written before ++ written later :=
  List.flatMap_append

theorem toList_setupText (p : TunnelPeer) :
    ("\n" ++ p.setupText).toList = written (peerLines p) := by
  have hkey : p.publicKey.text.toList = p.publicKey.chars := String.toList_ofList
  have hendpoint : p.endpoint.text.toList = p.endpoint.chars := String.toList_ofList
  unfold TunnelPeer.setupText
  simp only [String.toList_append, toList_settingLine, hkey, hendpoint, Network.toList_join, written,
    peerLines, allowedChars, List.flatMap_cons, List.flatMap_nil, List.append_assoc]
  rfl

theorem intercalate_nil_eq_flatten (parts : List (List Char)) :
    List.intercalate [] parts = parts.flatten := by
  induction parts with
  | nil => rfl
  | cons part parts ih =>
    cases parts with
    | nil => simp
    | cons next parts =>
      rw [List.intercalate_cons_cons, ih, List.append_nil]
      rfl

theorem toList_text (d : DeviceSetup) :
    d.text.toList = written (interfaceLines d ++ d.peers.flatMap peerLines) := by
  have hkey : d.privateKey.text.toList = d.privateKey.chars := String.toList_ofList
  have hpeers : (Text.join "" (d.peers.map fun p => "\n" ++ p.setupText)).toList =
      written (d.peers.flatMap peerLines) := by
    rw [Text.toList_join, String.toList_empty, intercalate_nil_eq_flatten, List.map_map]
    induction d.peers with
    | nil => rfl
    | cons p ps ih =>
      rw [List.map_cons, List.flatten_cons, ih, Function.comp_apply, toList_setupText,
        ← written_append, List.flatMap_cons]
  unfold DeviceSetup.text
  simp only [String.toList_append, toList_settingLine, hkey, hpeers, written_append,
    Numeral.toList_decimal, List.append_assoc]
  simp only [written, interfaceLines, List.flatMap_cons, List.flatMap_nil, List.append_assoc]
  rfl

theorem lines_text (d : DeviceSetup) :
    Text.lines d.text.toList = interfaceLines d ++ d.peers.flatMap peerLines := by
  rw [toList_text, lines_written]
  intro line hline
  rcases List.mem_append.mp hline with hline | hline
  · exact isPlain_of_mem_interfaceLines d line hline
  · obtain ⟨p, -, hp⟩ := List.mem_flatMap.mp hline
    exact isPlain_of_mem_peerLines p line hp

theorem parts?_text (d : DeviceSetup) :
    parts? d.text.toList = some (interfacePart d :: d.peers.map peerPart) := by
  unfold parts?
  rw [lines_text, List.foldlM_append, foldlM_interfaceLines, Option.bind_eq_bind, Option.bind_some,
    foldlM_flatMap_peerLines]
  simp

/-- A configuration is read back from its text. -/
theorem contents?_text (d : DeviceSetup) :
    contents? d.text =
      some ⟨d.privateKey, d.listenPort, d.peers.map DevicePeer.ofTunnelPeer⟩ := by
  have hkey : PrivateKey.ofText (String.ofList d.privateKey.chars) = .ok d.privateKey :=
    d.privateKey.ofText_text
  have hport : Numeral.readNat 65535 (Nat.toDigits 10 d.listenPort.toNat) = .ok d.listenPort.toNat :=
    Numeral.readNat_toDigits (Nat.le_of_lt_succ d.listenPort.toNat_lt)
  have hpeers : (d.peers.map peerPart).mapM peer? = some (d.peers.map DevicePeer.ofTunnelPeer) := by
    induction d.peers with
    | nil => rfl
    | cons p ps ih => simp [peer?_peerPart, ih]
  have hkeyChars : (interfacePart d).value? "PrivateKey" = some d.privateKey.chars := rfl
  have hportChars :
      (interfacePart d).value? "ListenPort" = some (Nat.toDigits 10 d.listenPort.toNat) := rfl
  have htitle : (interfacePart d).title = interfaceTitle := rfl
  unfold contents?
  rw [parts?_text, Option.bind_eq_bind, Option.bind_some, contentsOfParts?, if_pos htitle, hkeyChars,
    hportChars]
  simp [hkey, hport, hpeers, Except.toOption]

end SetupText

end OverlayTunnel
