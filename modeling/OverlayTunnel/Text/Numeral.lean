/-!
Natural numbers in positional notation, read from digits.
-/
namespace OverlayTunnel.Numeral

/-- The value of a digit of base at most sixteen, in either case. -/
def digitValue? (base : Nat) (c : Char) : Option Nat :=
  let n := c.toNat
  let value :=
    if 48 ≤ n ∧ n ≤ 57 then n - 48
    else if 97 ≤ n ∧ n ≤ 102 then n - 87
    else if 65 ≤ n ∧ n ≤ 70 then n - 55
    else base
  if value < base then some value else none

def isDigit (base : Nat) (c : Char) : Bool :=
  (digitValue? base c).isSome

/-- The number that a list of digits stands for, continuing from `acc`. -/
def valueFrom (base : Nat) (acc : Nat) (digits : List Char) : Nat :=
  digits.foldl (fun n c => n * base + (digitValue? base c).getD 0) acc

def value (base : Nat) (digits : List Char) : Nat :=
  valueFrom base 0 digits

def decimal (n : Nat) : String :=
  String.ofList (Nat.toDigits 10 n)

@[simp] theorem toList_decimal (n : Nat) : (decimal n).toList = Nat.toDigits 10 n :=
  String.toList_ofList

/-! ### Digits -/

theorem digitValue?_digitChar {base d : Nat} (hb : base ≤ 16) (hd : d < base) :
    digitValue? base d.digitChar = some d := by
  have small : ∀ d < 16, ∀ base ≤ 16, d < base → digitValue? base d.digitChar = some d := by
    decide
  exact small d (by omega) base hb hd

theorem isDigit_of_mem_toDigits {base n : Nat} (h1 : 1 < base) (h16 : base ≤ 16) :
    ∀ c ∈ Nat.toDigits base n, isDigit base c = true := by
  induction n using Nat.strongRecOn with
  | ind n ih =>
    intro c hc
    rcases Nat.lt_or_ge n base with hn | hn
    · rw [Nat.toDigits_of_lt_base hn, List.mem_singleton] at hc
      simp [isDigit, hc, digitValue?_digitChar h16 hn]
    · rw [Nat.toDigits_of_base_le h1 hn, List.mem_append, List.mem_singleton] at hc
      rcases hc with hc | rfl
      · exact ih _ (Nat.div_lt_self (by omega) h1) c hc
      · simp [isDigit, digitValue?_digitChar h16 (Nat.mod_lt n (by omega))]

theorem valueFrom_append (base acc : Nat) (s t : List Char) :
    valueFrom base acc (s ++ t) = valueFrom base (valueFrom base acc s) t :=
  List.foldl_append

theorem value_toDigits {base n : Nat} (h1 : 1 < base) (h16 : base ≤ 16) :
    value base (Nat.toDigits base n) = n := by
  induction n using Nat.strongRecOn with
  | ind n ih =>
    rcases Nat.lt_or_ge n base with hn | hn
    · simp [Nat.toDigits_of_lt_base hn, value, valueFrom, digitValue?_digitChar h16 hn]
    · have hd := digitValue?_digitChar h16 (Nat.mod_lt n (by omega : 0 < base))
      rw [Nat.toDigits_of_base_le h1 hn, value, valueFrom_append,
        show valueFrom base 0 (Nat.toDigits base (n / base)) = n / base from
          ih _ (Nat.div_lt_self (by omega) h1)]
      simp [valueFrom, hd, Nat.mul_comm (n / base), Nat.div_add_mod]

/-- A number of several digits does not begin with zero. -/
theorem head?_toDigits {base n : Nat} (h1 : 1 < base) (hn : 0 < n) :
    (Nat.toDigits base n).head? ≠ some '0' := by
  induction n using Nat.strongRecOn with
  | ind n ih =>
    rcases Nat.lt_or_ge n base with hb | hb
    · simp [Nat.toDigits_of_lt_base hb]
      omega
    · have hq : 0 < n / base := Nat.div_pos hb (by omega)
      have hh := ih _ (Nat.div_lt_self hn h1) hq
      rw [Nat.toDigits_of_base_le h1 hb]
      cases hs : Nat.toDigits base (n / base) with
      | nil => exact absurd hs Nat.toDigits_ne_nil
      | cons c cs => simpa [hs] using hh

/-! ### Reading -/

/-- Why a text is no natural number of a given range. -/
inductive ReadError where
  | empty
  | invalidDigit
  | tooLarge
  deriving DecidableEq, Repr

def ReadError.message : ReadError → String
  | .empty => "cannot parse integer from empty string"
  | .invalidDigit => "invalid digit found in string"
  | .tooLarge => "number too large to fit in target type"

/-- Reads decimal digits onto `acc`; the first bad digit or the first value above `max` decides. -/
def readFrom (max : Nat) : Nat → List Char → Except ReadError Nat
  | acc, [] => .ok acc
  | acc, c :: cs =>
    match digitValue? 10 c with
    | none => .error .invalidDigit
    | some d => if acc * 10 + d ≤ max then readFrom max (acc * 10 + d) cs else .error .tooLarge

/-- Reads a natural number of at most `max`, after which nothing may follow. Leading zeros and one
plus sign are allowed. -/
def readNat (max : Nat) : List Char → Except ReadError Nat
  | [] => .error .empty
  | ['+'] => .error .invalidDigit
  | '+' :: cs => readFrom max 0 cs
  | cs => readFrom max 0 cs

/-- Takes the longest run of digits off a text. It may be no longer than `maxDigits`, has no leading
zero unless `padded`, and stands for a number below `bound`. -/
def scan (base : Nat) (maxDigits : Option Nat) (padded : Bool) (bound : Nat) (cs : List Char) :
    Option (Nat × List Char) :=
  let digits := cs.takeWhile (isDigit base)
  if digits = [] ∨ maxDigits.any (· < digits.length) ∨
      (padded = false ∧ digits.head? = some '0' ∧ 1 < digits.length) ∨
      bound ≤ value base digits then
    none
  else
    some (value base digits, cs.dropWhile (isDigit base))

/-- The digits of a small number are taken off any text that does not go on with a digit. -/
theorem scan_toDigits_append {base n bound : Nat} {maxDigits : Option Nat} {padded : Bool}
    {rest : List Char} (h1 : 1 < base) (h16 : base ≤ 16) (hn : n < bound)
    (hlen : ∀ k ∈ maxDigits, (Nat.toDigits base n).length ≤ k)
    (hrest : ∀ c, rest.head? = some c → isDigit base c = false) :
    scan base maxDigits padded bound (Nat.toDigits base n ++ rest) = some (n, rest) := by
  have hdigits := isDigit_of_mem_toDigits (n := n) h1 h16
  have htake : rest.takeWhile (isDigit base) = [] ∧ rest.dropWhile (isDigit base) = rest := by
    cases rest with
    | nil => simp
    | cons c cs => simp [hrest c rfl]
  have hmax : maxDigits.any (· < (Nat.toDigits base n).length) = false := by
    cases maxDigits with
    | none => rfl
    | some k => simpa using hlen k rfl
  have hpad : ¬((Nat.toDigits base n).head? = some '0' ∧ 1 < (Nat.toDigits base n).length) := by
    rintro ⟨hzero, hmany⟩
    rcases Nat.eq_zero_or_pos n with rfl | hp
    · simp [Nat.toDigits_zero] at hmany
    · exact head?_toDigits h1 hp hzero
  rw [scan, List.takeWhile_append_of_pos hdigits, List.dropWhile_append_of_pos hdigits, htake.1,
    htake.2, List.append_nil, value_toDigits h1 h16, if_neg]
  rintro (h | h | h | h)
  · exact Nat.toDigits_ne_nil h
  · exact absurd h (by simp [hmax])
  · exact hpad h.2
  · omega

end OverlayTunnel.Numeral
