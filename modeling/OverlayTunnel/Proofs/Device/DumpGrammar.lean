import OverlayTunnel.Proofs.Device.DumpText
import OverlayTunnel.Proofs.Key.Canonical
import OverlayTunnel.Proofs.Traversal

/-!
The grammar of dumps, line by line and column by column. A text is read exactly if it keeps to the
grammar, and each of its lines becomes a peer; otherwise the first line that breaks a rule is the error.
-/
namespace OverlayTunnel

namespace Dump

/-- The lines of a text that have more than blanks in them. -/
def contentLines (text : List Char) : List (List Char) :=
  (Text.lines text).filter fun line => line.any fun c => !Text.isBlank c

def columns (line : List Char) : List (List Char) :=
  line.splitOn '\t'

/-! ### The grammar -/

/-- The line of an interface has three columns at least, and the third is a port. -/
structure IsInterfaceLine (line : List Char) : Prop where
  enough : 3 ≤ (columns line).length
  port : ∃ column port, (columns line)[2]? = some column ∧ Numeral.Denotes column port ∧ port ≤ 65535

/-- The line of a peer has four columns at least, and the first is a key. -/
structure IsPeerLine (line : List Char) : Prop where
  enough : 4 ≤ (columns line).length
  key : ∃ (column : List Char) (key : PublicKey),
    (columns line)[0]? = some column ∧ Text.trim column = key.chars

/-! ### What the lines tell -/

structure TellsInterface (line : List Char) (key : Option PublicKey) (port : UInt16) : Prop where
  enough : 3 ≤ (columns line).length
  /-- A column that is no key stands for none. -/
  key : ∃ column, (columns line)[1]? = some column ∧ ∀ k, key = some k ↔ Text.trim column = k.chars
  port : ∃ column, (columns line)[2]? = some column ∧ Numeral.Denotes column port.toNat

structure TellsPeer (line : List Char) (p : DevicePeer) : Prop where
  enough : 4 ≤ (columns line).length
  key : ∃ column, (columns line)[0]? = some column ∧ Text.trim column = p.publicKey.chars
  /-- A column that is no endpoint stands for none. -/
  endpoint : ∃ column, (columns line)[2]? = some column ∧ p.endpoint = Endpoint.ofChars? column
  /-- An entry that is no network is left out, and the others stay as they are. -/
  allowed : ∃ column, (columns line)[3]? = some column ∧
    p.allowed = (column.splitOn ',').filterMap fun entry => Network.ofChars? (Text.trim entry)

/-! ### Faults -/

inductive InterfaceFault (line : List Char) : DumpError → Prop
  | short (h : (columns line).length < 3) :
    InterfaceFault line (.badInterfaceLine (String.ofList line))
  | port {column : List Char} {cause : Numeral.ReadError} (hcolumn : (columns line)[2]? = some column)
    (hcause : Numeral.readNat 65535 column = .error cause) :
    InterfaceFault line (.badListenPort (String.ofList column) cause)

inductive PeerFault (line : List Char) : DumpError → Prop
  | short (h : (columns line).length < 4) : PeerFault line (.badPeerLine (String.ofList line))
  | key {column : List Char} {cause : KeyError} (henough : 4 ≤ (columns line).length)
    (hcolumn : (columns line)[0]? = some column)
    (hcause : PublicKey.ofText (String.ofList column) = .error cause) :
    PeerFault line (.badPeerKey cause)

/-- The first fault in the lines of a dump: those before it are as they must be. -/
inductive FirstFault : List (List Char) → DumpError → Prop
  | empty : FirstFault [] .empty
  | interface {header : List Char} {lines : List (List Char)} {e : DumpError}
    (h : InterfaceFault header e) : FirstFault (header :: lines) e
  | peer {header line : List Char} {before later : List (List Char)} {e : DumpError}
    (hheader : IsInterfaceLine header) (hbefore : ∀ l ∈ before, IsPeerLine l)
    (h : PeerFault line e) : FirstFault (header :: (before ++ line :: later)) e

/-! ### Columns -/

theorem dumpLines_eq_contentLines (text : List Char) : Device.dumpLines text = contentLines text := by
  unfold Device.dumpLines contentLines
  congr 1
  funext line
  rw [Bool.eq_iff_iff]
  simp [Text.trim_eq_nil_iff]

theorem ofText_column_eq_ok_iff {column : List Char} {key : PublicKey} :
    PublicKey.ofText (String.ofList column) = .ok key ↔ Text.trim column = key.chars := by
  rw [PublicKey.ofText_eq_ok_iff, PublicKey.text, Text.trimmed_eq_iff, String.toList_ofList]

theorem keyOfColumn?_eq_some_iff {column : List Char} {key : PublicKey} :
    keyOfColumn? column = some key ↔ Text.trim column = key.chars := by
  rw [← ofText_column_eq_ok_iff, keyOfColumn?]
  cases PublicKey.ofText (String.ofList column) <;> simp [Except.toOption]

/-! ### The line of a peer -/

variable {line : List Char} {p : DevicePeer} {e : DumpError}

theorem ofDumpLine_of_short (h : (columns line).length < 4) :
    DevicePeer.ofDumpLine line = .error (.badPeerLine (String.ofList line)) := by
  unfold DevicePeer.ofDumpLine
  split
  next hcolumns =>
    rw [columns, hcolumns] at h
    simp at h
    omega
  next => rfl

theorem exists_columns (h : 4 ≤ (columns line).length) :
    ∃ key preshared endpoint allowed more,
      columns line = key :: preshared :: endpoint :: allowed :: more := by
  match hcolumns : columns line with
  | key :: preshared :: endpoint :: allowed :: more =>
    exact ⟨key, preshared, endpoint, allowed, more, rfl⟩
  | [] | [_] | [_, _] | [_, _, _] =>
    rw [hcolumns] at h
    simp at h

section

variable {key preshared endpoint allowed : List Char} {more : List (List Char)}

theorem ofDumpLine_of_columns
    (h : columns line = key :: preshared :: endpoint :: allowed :: more) :
    DevicePeer.ofDumpLine line =
      match PublicKey.ofText (String.ofList key) with
      | .error cause => .error (.badPeerKey cause)
      | .ok key => .ok ⟨key, Endpoint.ofChars? endpoint, networksOfColumn allowed⟩ := by
  unfold columns at h
  unfold DevicePeer.ofDumpLine
  rw [h]
  dsimp only
  cases PublicKey.ofText (String.ofList key) with
  | error cause => rfl
  | ok k =>
    dsimp only
    rw [optionalColumn_endpoint]

theorem tellsPeer_iff (h : columns line = key :: preshared :: endpoint :: allowed :: more) :
    TellsPeer line p ↔ Text.trim key = p.publicKey.chars ∧
      p.endpoint = Endpoint.ofChars? endpoint ∧ p.allowed = networksOfColumn allowed := by
  rw [networksOfColumn_eq]
  constructor
  · rintro ⟨-, ⟨_, hfirst, hkey⟩, ⟨_, hthird, hendpoint⟩, ⟨_, hfourth, hallowed⟩⟩
    obtain rfl : key = _ := by simpa [h] using hfirst
    obtain rfl : endpoint = _ := by simpa [h] using hthird
    obtain rfl : allowed = _ := by simpa [h] using hfourth
    exact ⟨hkey, hendpoint, hallowed⟩
  · rintro ⟨hkey, hendpoint, hallowed⟩
    exact
      { enough := by simp [h]
        key := ⟨key, by simp [h], hkey⟩
        endpoint := ⟨endpoint, by simp [h], hendpoint⟩
        allowed := ⟨allowed, by simp [h], hallowed⟩ }

end

theorem ofDumpLine_eq_ok_iff : DevicePeer.ofDumpLine line = .ok p ↔ TellsPeer line p := by
  rcases Nat.lt_or_ge (columns line).length 4 with hshort | henough
  · rw [ofDumpLine_of_short hshort]
    constructor
    · intro h
      cases h
    · intro h
      exact absurd h.enough (by omega)
  · obtain ⟨key, preshared, endpoint, allowed, more, hcolumns⟩ := exists_columns henough
    rw [ofDumpLine_of_columns hcolumns, tellsPeer_iff hcolumns, ← ofText_column_eq_ok_iff]
    cases PublicKey.ofText (String.ofList key) with
    | error cause => simp
    | ok k =>
      obtain ⟨publicKey, pEndpoint, pAllowed⟩ := p
      simp [eq_comm]

theorem ofDumpLine_eq_error_iff : DevicePeer.ofDumpLine line = .error e ↔ PeerFault line e := by
  rcases Nat.lt_or_ge (columns line).length 4 with hshort | henough
  · rw [ofDumpLine_of_short hshort]
    constructor
    · intro h
      cases h
      exact .short hshort
    · intro h
      cases h with
      | short _ => rfl
      | key henough _ _ => omega
  · obtain ⟨key, preshared, endpoint, allowed, more, hcolumns⟩ := exists_columns henough
    rw [ofDumpLine_of_columns hcolumns]
    constructor
    · intro h
      cases hkey : PublicKey.ofText (String.ofList key) with
      | error cause =>
        rw [hkey] at h
        cases h
        exact .key henough (by simp [hcolumns]) hkey
      | ok k =>
        rw [hkey] at h
        cases h
    · intro h
      cases h with
      | short hshort => omega
      | @key column cause _ hcolumn hcause =>
        obtain rfl : key = column := by simpa [hcolumns] using hcolumn
        rw [hcause]

theorem ofDumpLine_isOk_iff : (∃ p, DevicePeer.ofDumpLine line = .ok p) ↔ IsPeerLine line := by
  simp only [ofDumpLine_eq_ok_iff]
  constructor
  · rintro ⟨p, h⟩
    obtain ⟨column, hcolumn, hkey⟩ := h.key
    exact ⟨h.enough, column, p.publicKey, hcolumn, hkey⟩
  · rintro ⟨henough, column, key, hcolumn, hkey⟩
    obtain ⟨_, preshared, endpoint, allowed, more, hcolumns⟩ := exists_columns henough
    obtain rfl : _ = column := by simpa [hcolumns] using hcolumn
    exact ⟨⟨key, Endpoint.ofChars? endpoint, networksOfColumn allowed⟩,
      (tellsPeer_iff hcolumns).mpr ⟨hkey, rfl, rfl⟩⟩

/-! ### The line of an interface -/

variable {name : String} {d : Device}

theorem ofDumpHeader_of_short (h : (columns line).length < 3) :
    Device.ofDumpHeader name line = .error (.badInterfaceLine (String.ofList line)) := by
  unfold Device.ofDumpHeader
  split
  next hcolumns =>
    rw [columns, hcolumns] at h
    simp at h
    omega
  next => rfl

theorem exists_headerColumns (h : 3 ≤ (columns line).length) :
    ∃ secret key listenPort more, columns line = secret :: key :: listenPort :: more := by
  match hcolumns : columns line with
  | secret :: key :: listenPort :: more => exact ⟨secret, key, listenPort, more, rfl⟩
  | [] | [_] | [_, _] =>
    rw [hcolumns] at h
    simp at h

section

variable {secret key listenPort : List Char} {more : List (List Char)}

theorem ofDumpHeader_of_columns (h : columns line = secret :: key :: listenPort :: more) :
    Device.ofDumpHeader name line =
      match Numeral.readNat 65535 listenPort with
      | .error cause => .error (.badListenPort (String.ofList listenPort) cause)
      | .ok port => .ok ⟨name, keyOfColumn? key, UInt16.ofNat port, []⟩ := by
  unfold columns at h
  unfold Device.ofDumpHeader
  rw [h]
  dsimp only
  cases Numeral.readNat 65535 listenPort with
  | error cause => rfl
  | ok port =>
    dsimp only
    rw [optionalColumn_keyOfColumn?]

theorem tellsInterface_iff (h : columns line = secret :: key :: listenPort :: more)
    {k : Option PublicKey} {port : UInt16} :
    TellsInterface line k port ↔
      k = keyOfColumn? key ∧ Numeral.readNat 65535 listenPort = .ok port.toNat := by
  have hport := Nat.le_of_lt_succ port.toNat_lt
  rw [Numeral.readNat_eq_ok_iff, and_iff_left hport, Option.ext_iff]
  simp only [keyOfColumn?_eq_some_iff]
  constructor
  · rintro ⟨-, ⟨_, hsecond, hkey⟩, ⟨_, hthird, hport⟩⟩
    obtain rfl : key = _ := by simpa [h] using hsecond
    obtain rfl : listenPort = _ := by simpa [h] using hthird
    exact ⟨hkey, hport⟩
  · rintro ⟨hkey, hport⟩
    exact
      { enough := by simp [h]
        key := ⟨key, by simp [h], hkey⟩
        port := ⟨listenPort, by simp [h], hport⟩ }

end

theorem ofDumpHeader_eq_ok_iff :
    Device.ofDumpHeader name line = .ok d ↔
      d.name = name ∧ TellsInterface line d.publicKey d.listenPort ∧ d.peers = [] := by
  rcases Nat.lt_or_ge (columns line).length 3 with hshort | henough
  · rw [ofDumpHeader_of_short hshort]
    constructor
    · intro h
      cases h
    · intro h
      exact absurd h.2.1.enough (by omega)
  · obtain ⟨secret, key, listenPort, more, hcolumns⟩ := exists_headerColumns henough
    rw [ofDumpHeader_of_columns hcolumns, tellsInterface_iff hcolumns]
    obtain ⟨dName, publicKey, port, peers⟩ := d
    cases hread : Numeral.readNat 65535 listenPort with
    | error cause => simp
    | ok n =>
      have hn : n < 65536 := Nat.lt_succ_of_le (Numeral.readNat_eq_ok_iff.mp hread).2
      have hport : UInt16.ofNat n = port ↔ n = port.toNat := by
        rw [← UInt16.toNat_inj, UInt16.toNat_ofNat_of_lt' hn]
      simp [hport, eq_comm, and_assoc]

theorem ofDumpHeader_eq_error_iff :
    Device.ofDumpHeader name line = .error e ↔ InterfaceFault line e := by
  rcases Nat.lt_or_ge (columns line).length 3 with hshort | henough
  · rw [ofDumpHeader_of_short hshort]
    constructor
    · intro h
      cases h
      exact .short hshort
    · intro h
      cases h with
      | short _ => rfl
      | port hcolumn _ =>
        rw [List.getElem?_eq_none (by omega)] at hcolumn
        cases hcolumn
  · obtain ⟨secret, key, listenPort, more, hcolumns⟩ := exists_headerColumns henough
    rw [ofDumpHeader_of_columns hcolumns]
    constructor
    · intro h
      cases hread : Numeral.readNat 65535 listenPort with
      | error cause =>
        rw [hread] at h
        cases h
        exact .port (by simp [hcolumns]) hread
      | ok n =>
        rw [hread] at h
        cases h
    · intro h
      cases h with
      | short hshort => omega
      | @port column cause hcolumn hcause =>
        obtain rfl : listenPort = column := by simpa [hcolumns] using hcolumn
        rw [hcause]

theorem ofDumpHeader_isOk_iff (name : String) :
    (∃ d, Device.ofDumpHeader name line = .ok d) ↔ IsInterfaceLine line := by
  constructor
  · rintro ⟨d, h⟩
    obtain ⟨-, hline, -⟩ := ofDumpHeader_eq_ok_iff.mp h
    obtain ⟨column, hcolumn, hport⟩ := hline.port
    exact ⟨hline.enough, column, d.listenPort.toNat, hcolumn, hport,
      Nat.le_of_lt_succ d.listenPort.toNat_lt⟩
  · rintro ⟨henough, column, port, hcolumn, hport⟩
    obtain ⟨secret, key, _, more, hcolumns⟩ := exists_headerColumns henough
    obtain rfl : _ = column := by simpa [hcolumns] using hcolumn
    rw [ofDumpHeader_of_columns hcolumns, Numeral.readNat_eq_ok_iff.mpr hport]
    exact ⟨_, rfl⟩

/-! ### Whole dumps -/

variable {dump : String} {header : List Char} {lines : List (List Char)}

theorem mapM_ofDumpLine_isOk_iff :
    (∃ ps, lines.mapM DevicePeer.ofDumpLine = .ok ps) ↔ ∀ line ∈ lines, IsPeerLine line := by
  simp only [mapM_isOk_iff, ofDumpLine_isOk_iff]

theorem mapM_ofDumpLine_eq_ok_iff {ps : List DevicePeer} :
    lines.mapM DevicePeer.ofDumpLine = .ok ps ↔ List.Forall₂ TellsPeer lines ps := by
  simp only [mapM_eq_ok_iff_forall₂, ofDumpLine_eq_ok_iff]

theorem mapM_ofDumpLine_eq_error_iff :
    lines.mapM DevicePeer.ofDumpLine = .error e ↔ ∃ before line later,
      lines = before ++ line :: later ∧ (∀ l ∈ before, IsPeerLine l) ∧ PeerFault line e := by
  simp only [mapM_eq_error_iff, ofDumpLine_isOk_iff, ofDumpLine_eq_error_iff]

theorem ofDump_of_nil (h : contentLines dump.toList = []) :
    Device.ofDump name dump = .error .empty := by
  unfold Device.ofDump
  rw [dumpLines_eq_contentLines, h]

theorem ofDump_of_cons (h : contentLines dump.toList = header :: lines) :
    Device.ofDump name dump = do
      let device ← Device.ofDumpHeader name header
      let peers ← lines.mapM DevicePeer.ofDumpLine
      return { device with peers } := by
  unfold Device.ofDump
  rw [dumpLines_eq_contentLines, h]

theorem ofDump_isOk_iff :
    (∃ d, Device.ofDump name dump = .ok d) ↔
      ∃ header lines, contentLines dump.toList = header :: lines ∧ IsInterfaceLine header ∧
        ∀ line ∈ lines, IsPeerLine line := by
  simp only [← ofDumpHeader_isOk_iff name, ← mapM_ofDumpLine_isOk_iff]
  constructor
  · rintro ⟨d, h⟩
    cases hcontent : contentLines dump.toList with
    | nil =>
      rw [ofDump_of_nil hcontent] at h
      cases h
    | cons header lines =>
      rw [ofDump_of_cons hcontent] at h
      obtain ⟨device, hdevice, h⟩ := bind_eq_ok h
      obtain ⟨peers, hpeers, -⟩ := bind_eq_ok h
      exact ⟨header, lines, rfl, ⟨device, hdevice⟩, peers, hpeers⟩
  · rintro ⟨header, lines, hcontent, ⟨device, hdevice⟩, peers, hpeers⟩
    rw [ofDump_of_cons hcontent, hdevice, hpeers]
    exact ⟨_, rfl⟩

theorem ofDump_eq_ok_iff_tells :
    Device.ofDump name dump = .ok d ↔
      d.name = name ∧ ∃ header lines, contentLines dump.toList = header :: lines ∧
        TellsInterface header d.publicKey d.listenPort ∧ List.Forall₂ TellsPeer lines d.peers := by
  simp only [← mapM_ofDumpLine_eq_ok_iff]
  constructor
  · intro h
    cases hcontent : contentLines dump.toList with
    | nil =>
      rw [ofDump_of_nil hcontent] at h
      cases h
    | cons header lines =>
      rw [ofDump_of_cons hcontent] at h
      obtain ⟨device, hdevice, h⟩ := bind_eq_ok h
      obtain ⟨peers, hpeers, h⟩ := bind_eq_ok h
      cases h
      obtain ⟨hname, hheader, -⟩ := ofDumpHeader_eq_ok_iff.mp hdevice
      exact ⟨hname, header, lines, rfl, hheader, hpeers⟩
  · rintro ⟨hname, header, lines, hcontent, hheader, hpeers⟩
    have hdevice : Device.ofDumpHeader name header = .ok { d with peers := [] } :=
      ofDumpHeader_eq_ok_iff.mpr ⟨hname, hheader, rfl⟩
    rw [ofDump_of_cons hcontent, hdevice, hpeers]
    rfl

theorem ofDump_eq_error_iff :
    Device.ofDump name dump = .error e ↔ FirstFault (contentLines dump.toList) e := by
  constructor
  · intro h
    cases hcontent : contentLines dump.toList with
    | nil =>
      rw [ofDump_of_nil hcontent] at h
      cases h
      exact .empty
    | cons header lines =>
      rw [ofDump_of_cons hcontent] at h
      rcases bind_eq_error h with hheader | ⟨device, hdevice, h⟩
      · exact .interface (ofDumpHeader_eq_error_iff.mp hheader)
      · have hheader : IsInterfaceLine header := (ofDumpHeader_isOk_iff name).mp ⟨device, hdevice⟩
        rcases bind_eq_error h with hlines | ⟨peers, -, h⟩
        · obtain ⟨before, line, later, rfl, hbefore, hline⟩ :=
            mapM_ofDumpLine_eq_error_iff.mp hlines
          exact .peer hheader hbefore hline
        · cases h
  · intro h
    cases hcontent : contentLines dump.toList with
    | nil =>
      rw [hcontent] at h
      cases h
      exact ofDump_of_nil hcontent
    | cons header lines =>
      rw [hcontent] at h
      rw [ofDump_of_cons hcontent]
      cases h with
      | interface hheader =>
        rw [ofDumpHeader_eq_error_iff.mpr hheader]
        rfl
      | peer hheader hbefore hline =>
        obtain ⟨device, hdevice⟩ := (ofDumpHeader_isOk_iff name).mpr hheader
        rw [hdevice, mapM_ofDumpLine_eq_error_iff.mpr ⟨_, _, _, rfl, hbefore, hline⟩]
        rfl

/-- A text is read as a dump exactly if the first of its lines that are not blank has three columns, the
third a port, and each further one has four, the first a key. The peers then are what these lines tell,
one for each and in their order. Otherwise there is no device, but an error about what comes first: the
missing line, that of the interface, or that of a peer. -/
theorem ofDump_grammar (name dump : String) :
    ((∃ d, Device.ofDump name dump = .ok d) ↔
      ∃ header lines, contentLines dump.toList = header :: lines ∧ IsInterfaceLine header ∧
        ∀ line ∈ lines, IsPeerLine line) ∧
    (∀ d, Device.ofDump name dump = .ok d ↔
      d.name = name ∧ ∃ header lines, contentLines dump.toList = header :: lines ∧
        TellsInterface header d.publicKey d.listenPort ∧ List.Forall₂ TellsPeer lines d.peers) ∧
    ∀ e, Device.ofDump name dump = .error e ↔ FirstFault (contentLines dump.toList) e :=
  ⟨ofDump_isOk_iff, fun _ => ofDump_eq_ok_iff_tells, fun _ => ofDump_eq_error_iff⟩

end Dump

end OverlayTunnel
