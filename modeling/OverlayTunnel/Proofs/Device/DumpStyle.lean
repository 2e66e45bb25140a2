import OverlayTunnel.Proofs.Device.DumpText

/-!
Dumps as they are written. The columns that do not describe the device, the line breaks and blank lines
make a style; the device is read back from its dump in every style.
-/
namespace OverlayTunnel

namespace Dump

/-! ### Styles -/

/-- The contents of a column that does not describe the device. -/
structure Column where
  chars : List Char
  tab_not_mem : '\t' ∉ chars
  lineFeed_not_mem : '\n' ∉ chars

inductive LineBreak where
  | lineFeed
  | carriageReturnLineFeed
  deriving DecidableEq, Repr

def LineBreak.chars : LineBreak → List Char
  | .lineFeed => ['\n']
  | .carriageReturnLineFeed => ['\r', '\n']

/-- A line with nothing to be seen in it. -/
structure BlankLine where
  chars : List Char
  isBlank : ∀ c ∈ chars, Text.isBlank c = true
  lineFeed_not_mem : '\n' ∉ chars
  lineBreak : LineBreak

/-- What goes with the columns of a line that describe the device: the blank lines before it, a column
that holds a secret, one or more columns behind, and the line break. -/
structure LineStyle where
  blankLines : List BlankLine
  secret : Column
  further : Column
  others : List Column
  lineBreak : LineBreak

structure Style where
  header : LineStyle
  /-- The style of the line of a peer, by its place. -/
  peer : Nat → LineStyle
  blankLines : List BlankLine

/-! ### Writing -/

def blankChars (lines : List BlankLine) : List Char :=
  lines.flatMap fun line => line.chars ++ line.lineBreak.chars

namespace LineStyle

/-- The columns behind those that describe the device. -/
def furtherChars (s : LineStyle) : List Char :=
  ['\t'].intercalate (s.further.chars :: s.others.map Column.chars)

/-- A line with the given columns in front, after its blank lines. -/
def write (s : LineStyle) (columns : List (List Char)) : List Char :=
  blankChars s.blankLines ++
    (['\t'].intercalate (columns ++ s.further.chars :: s.others.map Column.chars) ++ s.lineBreak.chars)

def writeHeader (s : LineStyle) (d : Device) : List Char :=
  s.write [s.secret.chars, keyColumn d.publicKey, Nat.toDigits 10 d.listenPort.toNat]

def writePeer (s : LineStyle) (p : DevicePeer) : List Char :=
  s.write [p.publicKey.chars, s.secret.chars, endpointColumn p.endpoint, allowedColumn p.allowed]

end LineStyle

namespace Style

/-- The lines of peers, the first of which has a given place. -/
def writePeers (s : Style) (place : Nat) : List DevicePeer → List Char
  | [] => blankChars s.blankLines
  | p :: ps => (s.peer place).writePeer p ++ s.writePeers (place + 1) ps

/-- The dump of a device: a line for the interface and one for each peer, columns set off by tabs. -/
def write (s : Style) (d : Device) : String :=
  String.ofList (s.header.writeHeader d ++ s.writePeers 0 d.peers)

end Style

/-! ### What is written is a dump -/

/-- A carriage return before the line feed counts as part of the line until it is read. -/
theorem exists_lineBreak (b : LineBreak) :
    ∃ ending, '\n' ∉ ending ∧ (∀ c ∈ ending, Text.isBlank c = true) ∧ b.chars = ending ++ ['\n'] := by
  cases b with
  | lineFeed => exact ⟨[], by decide, by simp, rfl⟩
  | carriageReturnLineFeed => exact ⟨['\r'], by decide, by simp; decide, rfl⟩

theorem lineFeed_not_mem_furtherChars (s : LineStyle) : '\n' ∉ s.furtherChars := by
  have hall : ∀ c ∈ s.furtherChars, c ≠ '\n' := by
    apply Text.forall_mem_intercalate
    · intro c hc
      rw [List.mem_singleton.mp hc]
      decide
    · intro part hpart c hc hfeed
      rw [← List.map_cons] at hpart
      obtain ⟨column, -, rfl⟩ := List.mem_map.mp hpart
      exact column.lineFeed_not_mem (hfeed ▸ hc)
  exact fun h => hall _ h rfl

/-- What follows the columns that describe the device, up to the line feed that ends the line. -/
theorem exists_lineEnd (s : LineStyle) :
    ∃ more, '\n' ∉ more ∧ ∀ rest, s.furtherChars ++ (s.lineBreak.chars ++ rest) = more ++ '\n' :: rest := by
  obtain ⟨ending, hfeed, -, hbreak⟩ := exists_lineBreak s.lineBreak
  refine ⟨s.furtherChars ++ ending, ?_, fun rest => by simp [hbreak]⟩
  rw [List.mem_append, not_or]
  exact ⟨lineFeed_not_mem_furtherChars s, hfeed⟩

theorem intercalate_columns (column next : List Char) (columns : List (List Char)) :
    ['\t'].intercalate (column :: next :: columns) =
      column ++ '\t' :: ['\t'].intercalate (next :: columns) := by
  rw [List.intercalate_cons_cons, List.append_assoc]
  rfl

/-- Blank lines may stand before anything that other blank lines may stand before. -/
theorem blankChars_append {P : List Char → Prop}
    (hblank : ∀ line rest, '\n' ∉ line → (∀ c ∈ line, Text.isBlank c = true) → P rest →
      P (line ++ '\n' :: rest)) (lines : List BlankLine) {rest : List Char} (hrest : P rest) :
    P (blankChars lines ++ rest) := by
  induction lines with
  | nil => exact hrest
  | cons line lines ih =>
    obtain ⟨ending, hfeed, hending, hbreak⟩ := exists_lineBreak line.lineBreak
    have hsplit : blankChars (line :: lines) ++ rest =
        (line.chars ++ ending) ++ '\n' :: (blankChars lines ++ rest) := by
      simp [blankChars, hbreak]
    rw [hsplit]
    apply hblank _ _ _ _ ih
    · rw [List.mem_append, not_or]
      exact ⟨line.lineFeed_not_mem, hfeed⟩
    · intro c hc
      rcases List.mem_append.mp hc with hc | hc
      · exact line.isBlank c hc
      · exact hending c hc

variable {d : Device} {p : DevicePeer} {ps : List DevicePeer} {rest : List Char}

theorem isDump_writeHeader (s : LineStyle) (hrest : ArePeers d.peers rest) :
    IsDump d (s.writeHeader d ++ rest) := by
  obtain ⟨more, hmore, hend⟩ := exists_lineEnd s
  have hsplit : s.writeHeader d ++ rest = blankChars s.blankLines ++
      ((s.secret.chars ++ '\t' :: (keyColumn d.publicKey ++ '\t' ::
        (Nat.toDigits 10 d.listenPort.toNat ++ '\t' :: more))) ++ '\n' :: rest) := by
    simp only [List.append_assoc, List.cons_append, ← hend]
    simp only [LineStyle.writeHeader, LineStyle.write, List.cons_append, List.nil_append,
      intercalate_columns, LineStyle.furtherChars, List.append_assoc]
  rw [hsplit]
  apply blankChars_append fun line rest hline hblank => .blank hline hblank
  exact .header (.intro ⟨s.secret.tab_not_mem, s.secret.lineFeed_not_mem⟩ hmore) hrest

theorem arePeers_writePeer (s : LineStyle) (hrest : ArePeers ps rest) :
    ArePeers (p :: ps) (s.writePeer p ++ rest) := by
  obtain ⟨more, hmore, hend⟩ := exists_lineEnd s
  have hsplit : s.writePeer p ++ rest = blankChars s.blankLines ++
      ((p.publicKey.chars ++ '\t' :: (s.secret.chars ++ '\t' :: (endpointColumn p.endpoint ++
        '\t' :: (allowedColumn p.allowed ++ '\t' :: more)))) ++ '\n' :: rest) := by
    simp only [List.append_assoc, List.cons_append, ← hend]
    simp only [LineStyle.writePeer, LineStyle.write, List.cons_append, List.nil_append,
      intercalate_columns, LineStyle.furtherChars, List.append_assoc]
  rw [hsplit]
  apply blankChars_append fun line rest hline hblank => .blank hline hblank
  exact .peer (.intro ⟨s.secret.tab_not_mem, s.secret.lineFeed_not_mem⟩ hmore) hrest

theorem arePeers_writePeers (s : Style) (place : Nat) (ps : List DevicePeer) :
    ArePeers ps (s.writePeers place ps) := by
  induction ps generalizing place with
  | nil =>
    have hblank := blankChars_append (fun line rest hline hblank => .blank hline hblank) s.blankLines
      ArePeers.nil
    rwa [List.append_nil] at hblank
  | cons p ps ih => exact arePeers_writePeer (s.peer place) (ih (place + 1))

/-- A device is read back from its dump, whatever the columns that do not describe it hold and wherever
blank lines stand. -/
theorem ofDump_write (s : Style) (d : Device) : Device.ofDump d.name (s.write d) = .ok d :=
  ofDump_eq_ok (isDump_writeHeader s.header (arePeers_writePeers s 0 d.peers))

end Dump

end OverlayTunnel
