/-!
Blank characters and the trimming of texts.
-/
namespace OverlayTunnel.Text

/-- The characters with the Unicode property `White_Space`. -/
def isBlank (c : Char) : Bool :=
  let n := c.toNat
  (9 ≤ n && n ≤ 13) || n == 0x20 || n == 0x85 || n == 0xA0 || n == 0x1680 ||
    (0x2000 ≤ n && n ≤ 0x200A) || n == 0x2028 || n == 0x2029 || n == 0x202F ||
    n == 0x205F || n == 0x3000

def trimStart (s : List Char) : List Char :=
  s.dropWhile isBlank

def trimEnd (s : List Char) : List Char :=
  (s.reverse.dropWhile isBlank).reverse

/-- A text without the blanks at its two ends. -/
def trim (s : List Char) : List Char :=
  trimEnd (trimStart s)

def trimmed (s : String) : String :=
  String.ofList (trim s.toList)

@[simp] theorem toList_trimmed (s : String) : (trimmed s).toList = trim s.toList :=
  String.toList_ofList

theorem trimStart_append_of_blank {s t : List Char} (h : ∀ c ∈ s, isBlank c = true) :
    trimStart (s ++ t) = trimStart t := by
  rw [trimStart, List.dropWhile_append_of_pos h, trimStart]

theorem trimEnd_append_of_blank {s t : List Char} (h : ∀ c ∈ t, isBlank c = true) :
    trimEnd (s ++ t) = trimEnd s := by
  rw [trimEnd, List.reverse_append,
    List.dropWhile_append_of_pos fun c hc => h c (List.mem_reverse.1 hc), trimEnd]

/-- A text that begins and ends with other characters has nothing to trim. -/
theorem trim_eq_self {s : List Char} (hfirst : ∀ c, s.head? = some c → isBlank c = false)
    (hlast : ∀ c, s.getLast? = some c → isBlank c = false) : trim s = s := by
  have hstart : trimStart s = s := by
    cases s with
    | nil => rfl
    | cons c s => simp [trimStart, hfirst c rfl]
  rw [trim, hstart, trimEnd]
  cases hr : s.reverse with
  | nil => simpa using hr.symm
  | cons c r =>
    have hc : isBlank c = false := hlast c (by rw [← List.head?_reverse, hr]; rfl)
    rw [List.dropWhile_cons, hc, if_neg (by decide), ← hr, List.reverse_reverse]

end OverlayTunnel.Text
