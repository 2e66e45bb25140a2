import Mathlib.Data.List.TakeWhile
import OverlayTunnel.Device.Dump
import OverlayTunnel.Proofs.Address.Notation
import OverlayTunnel.Proofs.Key.Text

/-!
What a dump of a device looks like, and that the device is read back from it. The columns that do not
matter may hold anything, and blank lines may stand between the others.
-/
namespace OverlayTunnel

/-! ### Lines and columns -/

namespace Text

theorem chomp_concat (front : List Char) (c : Char) :
    chomp (front ++ [c]) = if c = '\r' then front else front ++ [c] := by
  simp [chomp]

/-- Only the end of a line is changed. -/
theorem chomp_append_cons (front : List Char) {c : Char} (hc : c ≠ '\r') (back : List Char) :
    chomp (front ++ c :: back) = front ++ c :: chomp back := by
  rcases List.eq_nil_or_concat back with rfl | ⟨back, d, rfl⟩
  · rw [chomp_concat, if_neg hc]
    rfl
  · have hsplit : front ++ c :: (back.concat d) = (front ++ c :: back) ++ [d] := by simp
    rw [hsplit, List.concat_eq_append, chomp_concat, chomp_concat]
    by_cases hd : d = '\r' <;> simp [hd]

theorem isBlank_of_mem_chomp {line : List Char} (h : ∀ c ∈ line, isBlank c = true) :
    ∀ c ∈ chomp line, isBlank c = true := by
  intro c hc
  unfold chomp at hc
  split at hc
  · exact h c ((List.dropLast_sublist line).subset hc)
  · exact h c hc

theorem trim_eq_nil_iff {s : List Char} : trim s = [] ↔ ∀ c ∈ s, isBlank c = true := by
  constructor
  · intro h
    have hback : ∀ c ∈ trimStart s, isBlank c = true := by
      simpa [trim, trimEnd, List.dropWhile_eq_nil_iff] using h
    have hsplit : s = s.takeWhile isBlank ++ trimStart s := List.takeWhile_append_dropWhile.symm
    intro c hc
    rw [hsplit, List.mem_append] at hc
    rcases hc with hc | hc
    · exact List.mem_takeWhile_imp hc
    · exact hback c hc
  · intro h
    have hs := trimStart_append_of_blank (t := []) h
    rw [List.append_nil] at hs
    rw [trim, hs]
    rfl

end Text

/-- What reads nothing from the mark of an empty column, nor from no text at all, reads every column. -/
theorem optionalColumn_eq {α : Type} {read? : List Char → Option α} {column : List Char}
    (hnone : read? "(none)".toList = none) (hnil : read? [] = none) :
    optionalColumn read? column = read? column := by
  unfold optionalColumn
  split
  next h =>
    rcases h with rfl | rfl
    · exact hnone.symm
    · exact hnil.symm
  next => rfl

/-- No network is read from an empty column. -/
theorem networksOfColumn_eq (column : List Char) :
    networksOfColumn column =
      (column.splitOn ',').filterMap fun entry => Network.ofChars? (Text.trim entry) := by
  unfold networksOfColumn optionalColumn
  split
  next h =>
    rcases h with rfl | rfl <;> decide +kernel
  next => simp

/-- No key is read from an empty column. -/
theorem optionalColumn_keyOfColumn? (column : List Char) :
    optionalColumn keyOfColumn? column = keyOfColumn? column :=
  optionalColumn_eq (by decide +kernel) (by decide +kernel)

/-- No endpoint is read from an empty column. -/
theorem optionalColumn_endpoint (column : List Char) :
    optionalColumn Endpoint.ofChars? column = Endpoint.ofChars? column :=
  optionalColumn_eq (by decide) (by decide)

namespace Dump

def markOf (text : Option (List Char)) : List Char :=
  text.getD "(none)".toList

def keyColumn (key : Option PublicKey) : List Char :=
  markOf (key.map PublicKey.chars)

def endpointColumn (endpoint : Option Endpoint) : List Char :=
  markOf (endpoint.map Endpoint.chars)

/-- The networks of a peer, with a comma in between. -/
def allowedColumn (networks : List Network) : List Char :=
  markOf (if networks = [] then none else some ([','].intercalate (networks.map Network.chars)))

theorem readKey_keyColumn (key : Option PublicKey) :
    optionalColumn keyOfColumn? (keyColumn key) = key := by
  cases key with
  | none => rfl
  | some key =>
    have hread : keyOfColumn? (keyColumn (some key)) = some key := by
      change (PublicKey.ofText key.text).toOption = some key
      rw [key.ofText_text]
      rfl
    rw [optionalColumn_keyOfColumn?, hread]

theorem readEndpoint_endpointColumn (endpoint : Option Endpoint) :
    optionalColumn Endpoint.ofChars? (endpointColumn endpoint) = endpoint := by
  cases endpoint with
  | none => rfl
  | some e =>
    rw [optionalColumn_endpoint]
    exact e.ofChars?_chars

theorem ofChars?_trim_chars (n : Network) : Network.ofChars? (Text.trim n.chars) = some n := by
  rw [Text.trim_of_isVisible fun c hc => (n.isVisible_of_mem_chars c hc).1, n.ofChars?_chars]

theorem readAllowed_allowedColumn (networks : List Network) :
    networksOfColumn (allowedColumn networks) = networks := by
  rw [networksOfColumn_eq]
  cases networks with
  | nil => decide +kernel
  | cons n networks =>
    have hcolumn : allowedColumn (n :: networks) =
        [','].intercalate ((n :: networks).map Network.chars) := by
      simp [allowedColumn, markOf]
    have hread : (fun entry => Network.ofChars? (Text.trim entry)) ∘ Network.chars = some :=
      funext ofChars?_trim_chars
    rw [hcolumn, Network.splitOn_intercalate, List.filterMap_map, hread, List.filterMap_some]

theorem isVisible_of_mem_markOf {text : Option (List Char)}
    (h : ∀ s, text = some s → ∀ c ∈ s, Text.isVisible c = true) :
    ∀ c ∈ markOf text, Text.isVisible c = true := by
  cases text with
  | none => exact List.all_eq_true.mp (by decide)
  | some s => exact h s rfl

theorem isVisible_of_mem_keyColumn (key : Option PublicKey) :
    ∀ c ∈ keyColumn key, Text.isVisible c = true := by
  apply isVisible_of_mem_markOf
  intro s hs
  obtain ⟨k, -, rfl⟩ := Option.map_eq_some_iff.mp hs
  exact k.isVisible_of_mem_chars

theorem isVisible_of_mem_endpointColumn (endpoint : Option Endpoint) :
    ∀ c ∈ endpointColumn endpoint, Text.isVisible c = true := by
  apply isVisible_of_mem_markOf
  intro s hs
  obtain ⟨e, -, rfl⟩ := Option.map_eq_some_iff.mp hs
  exact e.isVisible_of_mem_chars

theorem isVisible_of_mem_allowedColumn (networks : List Network) :
    ∀ c ∈ allowedColumn networks, Text.isVisible c = true := by
  apply isVisible_of_mem_markOf
  intro s hs
  split at hs
  · cases hs
  · cases hs
    apply Text.forall_mem_intercalate
    · exact List.all_eq_true.mp (by decide)
    · intro part hpart c hc
      obtain ⟨n, -, rfl⟩ := List.mem_map.mp hpart
      exact (n.isVisible_of_mem_chars c hc).1

/-! ### Whole dumps -/

/-- The line of an interface; the private key in front and what follows the port do not matter. -/
inductive IsHeader (d : Device) : List Char → Prop
  | intro {secret more : List Char} (hsecret : '\t' ∉ secret ∧ '\n' ∉ secret) (hmore : '\n' ∉ more) :
    IsHeader d (secret ++ '\t' :: (keyColumn d.publicKey ++ '\t' ::
      (Nat.toDigits 10 d.listenPort.toNat ++ '\t' :: more)))

/-- The line of a peer; the preshared key and what follows the networks do not matter. -/
inductive IsPeer (p : DevicePeer) : List Char → Prop
  | intro {preshared more : List Char} (hpreshared : '\t' ∉ preshared ∧ '\n' ∉ preshared)
    (hmore : '\n' ∉ more) :
    IsPeer p (p.publicKey.chars ++ '\t' :: (preshared ++ '\t' :: (endpointColumn p.endpoint ++
      '\t' :: (allowedColumn p.allowed ++ '\t' :: more))))

/-- Lines of peers, each with its line break, and blank lines. -/
inductive ArePeers : List DevicePeer → List Char → Prop
  | nil : ArePeers [] []
  | blank {ps : List DevicePeer} {line rest : List Char} (hline : '\n' ∉ line)
    (hblank : ∀ c ∈ line, Text.isBlank c = true) (hrest : ArePeers ps rest) :
    ArePeers ps (line ++ '\n' :: rest)
  | peer {p : DevicePeer} {ps : List DevicePeer} {line rest : List Char} (hline : IsPeer p line)
    (hrest : ArePeers ps rest) : ArePeers (p :: ps) (line ++ '\n' :: rest)

/-- A dump of a device: the line of its interface, and those of its peers in order. -/
inductive IsDump (d : Device) : List Char → Prop
  | blank {line rest : List Char} (hline : '\n' ∉ line)
    (hblank : ∀ c ∈ line, Text.isBlank c = true) (hrest : IsDump d rest) :
    IsDump d (line ++ '\n' :: rest)
  | header {line rest : List Char} (hline : IsHeader d line) (hrest : ArePeers d.peers rest) :
    IsDump d (line ++ '\n' :: rest)

/-! ### Reading -/

theorem tab_not_mem {column : List Char} (h : ∀ c ∈ column, Text.isVisible c = true) :
    '\t' ∉ column :=
  Text.not_mem_of_isVisible h (by decide)

theorem lineFeed_not_mem {column : List Char} (h : ∀ c ∈ column, Text.isVisible c = true) :
    '\n' ∉ column :=
  Text.not_mem_of_isVisible h (by decide)

theorem lineFeed_not_mem_columns {column more : List Char} (h : '\n' ∉ column) (hmore : '\n' ∉ more) :
    '\n' ∉ column ++ '\t' :: more := by
  simp [h, hmore]

theorem chomp_columns (column more : List Char) :
    Text.chomp (column ++ '\t' :: more) = column ++ '\t' :: Text.chomp more :=
  Text.chomp_append_cons column (by decide) more

theorem splitOn_columns {column : List Char} (h : '\t' ∉ column) (more : List Char) :
    (column ++ '\t' :: more).splitOn '\t' = column :: more.splitOn '\t' :=
  List.splitOn_append_cons_self_of_not_mem h more

variable {d : Device} {p : DevicePeer} {ps : List DevicePeer} {line rest : List Char}

theorem ofDumpHeader_chomp (h : IsHeader d line) :
    Device.ofDumpHeader d.name (Text.chomp line) = .ok { d with peers := [] } := by
  cases h with
  | @intro secret more hsecret hmore =>
    have hkey := tab_not_mem (isVisible_of_mem_keyColumn d.publicKey)
    have hport := tab_not_mem
      (Numeral.isVisible_of_mem_toDigits (n := d.listenPort.toNat) (by decide : 1 < 10) (by decide))
    have hread : Numeral.readNat 65535 (Nat.toDigits 10 d.listenPort.toNat) =
        .ok d.listenPort.toNat :=
      Numeral.readNat_toDigits (Nat.le_of_lt_succ d.listenPort.toNat_lt)
    unfold Device.ofDumpHeader
    rw [chomp_columns, chomp_columns, chomp_columns, splitOn_columns hsecret.1, splitOn_columns hkey,
      splitOn_columns hport]
    dsimp only
    rw [hread, readKey_keyColumn]
    simp

theorem ofDumpLine_chomp (h : IsPeer p line) :
    DevicePeer.ofDumpLine (Text.chomp line) = .ok p := by
  cases h with
  | @intro preshared more hpreshared hmore =>
    have hkey := tab_not_mem p.publicKey.isVisible_of_mem_chars
    have hendpoint := tab_not_mem (isVisible_of_mem_endpointColumn p.endpoint)
    have hallowed := tab_not_mem (isVisible_of_mem_allowedColumn p.allowed)
    have hread : PublicKey.ofText (String.ofList p.publicKey.chars) = .ok p.publicKey :=
      p.publicKey.ofText_text
    unfold DevicePeer.ofDumpLine
    rw [chomp_columns, chomp_columns, chomp_columns, chomp_columns, splitOn_columns hkey,
      splitOn_columns hpreshared.1, splitOn_columns hendpoint, splitOn_columns hallowed]
    dsimp only
    rw [hread, readEndpoint_endpointColumn, readAllowed_allowedColumn]

theorem lineFeed_not_mem_header (h : IsHeader d line) : '\n' ∉ line := by
  cases h with
  | intro hsecret hmore =>
    have hkey := lineFeed_not_mem (isVisible_of_mem_keyColumn d.publicKey)
    have hport := lineFeed_not_mem
      (Numeral.isVisible_of_mem_toDigits (n := d.listenPort.toNat) (by decide : 1 < 10) (by decide))
    exact lineFeed_not_mem_columns hsecret.2
      (lineFeed_not_mem_columns hkey (lineFeed_not_mem_columns hport hmore))

theorem lineFeed_not_mem_peer (h : IsPeer p line) : '\n' ∉ line := by
  cases h with
  | intro hpreshared hmore =>
    have hkey := lineFeed_not_mem p.publicKey.isVisible_of_mem_chars
    have hendpoint := lineFeed_not_mem (isVisible_of_mem_endpointColumn p.endpoint)
    have hallowed := lineFeed_not_mem (isVisible_of_mem_allowedColumn p.allowed)
    exact lineFeed_not_mem_columns hkey (lineFeed_not_mem_columns hpreshared.2
      (lineFeed_not_mem_columns hendpoint (lineFeed_not_mem_columns hallowed hmore)))

theorem dumpLines_blank (hline : '\n' ∉ line) (hblank : ∀ c ∈ line, Text.isBlank c = true) :
    Device.dumpLines (line ++ '\n' :: rest) = Device.dumpLines rest := by
  have htrim : Text.trim (Text.chomp line) = [] :=
    Text.trim_eq_nil_iff.mpr (Text.isBlank_of_mem_chomp hblank)
  unfold Device.dumpLines
  rw [Text.lines_append_lineFeed hline, List.filter_cons_of_neg (by simp [htrim])]

theorem dumpLines_cons {c : Char} (hline : '\n' ∉ line) (hc : c ∈ Text.chomp line)
    (hvisible : Text.isVisible c = true) :
    Device.dumpLines (line ++ '\n' :: rest) = Text.chomp line :: Device.dumpLines rest := by
  have htrim : Text.trim (Text.chomp line) ≠ [] := by
    intro h
    have hblank := Text.trim_eq_nil_iff.mp h c hc
    rw [Text.isBlank_of_isVisible hvisible] at hblank
    cases hblank
  unfold Device.dumpLines
  rw [Text.lines_append_lineFeed hline, List.filter_cons_of_pos (by simpa using htrim)]

theorem dumpLines_header (h : IsHeader d line) :
    Device.dumpLines (line ++ '\n' :: rest) = Text.chomp line :: Device.dumpLines rest := by
  have hline := lineFeed_not_mem_header h
  cases h with
  | intro _ _ =>
    -- The port is the one column that is certain to have a visible character.
    obtain ⟨c, hc⟩ :=
      List.exists_mem_of_ne_nil _ (Nat.toDigits_ne_nil (b := 10) (n := d.listenPort.toNat))
    apply dumpLines_cons (c := c) hline
    · rw [chomp_columns, chomp_columns, chomp_columns]
      simp [hc]
    · exact Numeral.isVisible_of_mem_toDigits (by decide) (by decide) c hc

theorem dumpLines_peer (h : IsPeer p line) :
    Device.dumpLines (line ++ '\n' :: rest) = Text.chomp line :: Device.dumpLines rest := by
  have hline := lineFeed_not_mem_peer h
  cases h with
  | intro _ _ =>
    obtain ⟨c, hc⟩ := List.exists_mem_of_ne_nil _ p.publicKey.chars_ne_nil
    apply dumpLines_cons (c := c) hline
    · rw [chomp_columns]
      simp [hc]
    · exact p.publicKey.isVisible_of_mem_chars c hc

theorem mapM_ofDumpLine (h : ArePeers ps rest) :
    (Device.dumpLines rest).mapM DevicePeer.ofDumpLine = .ok ps := by
  induction h with
  | nil => rfl
  | blank hline hblank _ ih => rw [dumpLines_blank hline hblank, ih]
  | @peer p ps line rest hline _ ih =>
    rw [dumpLines_peer hline, List.mapM_cons, ofDumpLine_chomp hline, ih]
    rfl

/-- A device is read back from any dump of it. -/
theorem ofDump_eq_ok {dump : List Char} (h : IsDump d dump) :
    Device.ofDump d.name (String.ofList dump) = .ok d := by
  unfold Device.ofDump
  rw [String.toList_ofList]
  induction h with
  | blank hline hblank _ ih => rwa [dumpLines_blank hline hblank]
  | header hline hrest =>
    rw [dumpLines_header hline]
    dsimp only
    rw [ofDumpHeader_chomp hline, mapM_ofDumpLine hrest]
    rfl

end Dump

end OverlayTunnel
