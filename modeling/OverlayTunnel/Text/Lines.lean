/-!
Lines of a text, and whether one text occurs in another.
-/
namespace OverlayTunnel.Text

/-- A line without the carriage return that belongs to its line break. -/
def chomp (line : List Char) : List Char :=
  if line.getLast? = some '\r' then line.dropLast else line

/-- What the pieces between line feeds are as lines: every piece but the last ends in a
line break, and an empty last piece is no line. -/
def linesOfPieces : List (List Char) → List (List Char)
  | [] => []
  | [last] => if last = [] then [] else [last]
  | piece :: pieces => chomp piece :: linesOfPieces pieces

/-- The lines of a text, which end at a line feed or at a carriage return and a line feed. -/
def lines (s : List Char) : List (List Char) :=
  linesOfPieces (s.splitOn '\n')

theorem lines_append_lineFeed {line : List Char} (h : '\n' ∉ line) (rest : List Char) :
    lines (line ++ '\n' :: rest) = chomp line :: lines rest := by
  rw [lines, List.splitOn_append_cons_self_of_not_mem h, lines]
  cases hr : rest.splitOn '\n' with
  | nil => exact absurd hr (List.splitOn_ne_nil _ _)
  | cons piece pieces => rfl

/-- Whether `part` stands somewhere in `s`. -/
def contains (part : List Char) : List Char → Bool
  | [] => part.isEmpty
  | c :: s => part.isPrefixOf (c :: s) || contains part s

theorem contains_iff {part s : List Char} : contains part s = true ↔ part <:+: s := by
  induction s with
  | nil => simp [contains]
  | cons c s ih => simp [contains, ih, List.infix_cons_iff]

def join (separator : String) (parts : List String) : String :=
  String.ofList (separator.toList.intercalate (parts.map String.toList))

@[simp] theorem toList_join (separator : String) (parts : List String) :
    (join separator parts).toList = separator.toList.intercalate (parts.map String.toList) :=
  String.toList_ofList

end OverlayTunnel.Text
