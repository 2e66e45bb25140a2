/-!
Texts as bytes in UTF-8. Decoding goes byte by byte; what it yields is a character or the mark of one
ill-formed sequence, as long as possible. Decoding gives back every text that was encoded.
-/
namespace OverlayTunnel.Utf8

def encode (s : List Char) : List UInt8 :=
  s.flatMap String.utf8EncodeChar

/-- Where a decoder stands: between characters, or inside one whose bits so far are `value`, which
needs `more` further bytes, the next of them from `low` to `high`. -/
inductive State where
  | start
  | inside (value more low high : Nat)
  deriving DecidableEq, Repr

/-- How a byte begins a character. -/
def begin? (b : Nat) : Option (Char ⊕ State) :=
  if b < 0x80 then some (.inl (Char.ofNat b))
  else if b < 0xC2 then none
  else if b < 0xE0 then some (.inr (.inside (b - 0xC0) 1 0x80 0xBF))
  else if b = 0xE0 then some (.inr (.inside 0 2 0xA0 0xBF))
  else if b = 0xED then some (.inr (.inside 0xD 2 0x80 0x9F))
  else if b < 0xF0 then some (.inr (.inside (b - 0xE0) 2 0x80 0xBF))
  else if b = 0xF0 then some (.inr (.inside 0 3 0x90 0xBF))
  else if b < 0xF4 then some (.inr (.inside (b - 0xF0) 3 0x80 0xBF))
  else if b = 0xF4 then some (.inr (.inside 4 3 0x80 0x8F))
  else none

def stepStart (b : Nat) : List (Option Char) × State :=
  match begin? b with
  | some (.inl c) => ([some c], .start)
  | some (.inr s) => ([], s)
  | none => ([none], .start)

/-- One byte in any state. A byte that cannot continue a character ends an ill-formed sequence and is
looked at afresh. -/
def step (s : State) (b : Nat) : List (Option Char) × State :=
  match s with
  | .start => stepStart b
  | .inside value more low high =>
    if low ≤ b ∧ b ≤ high then
      let value := value * 64 + b % 64
      if more = 1 then ([some (Char.ofNat value)], .start)
      else ([], .inside value (more - 1) 0x80 0xBF)
    else
      let (out, s) := stepStart b
      (none :: out, s)

/-- The characters of a byte sequence, `none` for each ill-formed sequence. -/
def scan : State → List UInt8 → List (Option Char)
  | .start, [] => []
  | .inside .., [] => [none]
  | s, b :: bs => (step s b.toNat).1 ++ scan (step s b.toNat).2 bs

/-- Decodes well-formed bytes only. -/
def decode? (bytes : List UInt8) : Option String :=
  ((scan .start bytes).mapM id).map String.ofList

/-- Decodes any bytes, with a replacement character for each ill-formed sequence. -/
def decodeLossy (bytes : List UInt8) : String :=
  String.ofList ((scan .start bytes).map (·.getD '\uFFFD'))

/-! ### Decoding what was encoded -/

theorem scan_start_inside {b : Nat} (hb : b < 256) {s : State} (h : begin? b = some (.inr s))
    (bs : List UInt8) : scan .start (UInt8.ofNat b :: bs) = scan s bs := by
  simp [scan, step, stepStart, Nat.mod_eq_of_lt hb, h]

theorem scan_inside {b value more low high : Nat} (hl : low ≤ b) (hh : b ≤ high) (hb : b < 256)
    (hm : more ≠ 1) (bs : List UInt8) :
    scan (.inside value more low high) (UInt8.ofNat b :: bs) =
      scan (.inside (value * 64 + b % 64) (more - 1) 0x80 0xBF) bs := by
  simp [scan, step, Nat.mod_eq_of_lt hb, hl, hh, hm]

theorem scan_inside_one {b value low high : Nat} (hl : low ≤ b) (hh : b ≤ high) (hb : b < 256)
    (bs : List UInt8) :
    scan (.inside value 1 low high) (UInt8.ofNat b :: bs) =
      some (Char.ofNat (value * 64 + b % 64)) :: scan .start bs := by
  simp [scan, step, Nat.mod_eq_of_lt hb, hl, hh]

theorem begin?_two {v : Nat} (h : 0x7F < v) (hh : v ≤ 0x7FF) :
    begin? (v / 64 + 0xC0) = some (.inr (.inside (v / 64) 1 0x80 0xBF)) := by
  unfold begin?
  repeat rw [if_neg (by omega)]
  rw [if_pos (by omega)]
  simp

/-- A lead byte of three: the bounds for the next byte leave out overlong forms and surrogates. -/
theorem begin?_three {v : Nat} (h : 0x7FF < v) (hv : v < 0xD800 ∨ 0xDFFF < v) (hh : v ≤ 0xFFFF) :
    ∃ low high, begin? (v / 4096 + 0xE0) = some (.inr (.inside (v / 4096) 2 low high)) ∧
      low ≤ v / 64 % 64 + 0x80 ∧ v / 64 % 64 + 0x80 ≤ high := by
  by_cases h0 : v / 4096 = 0
  · exact ⟨0xA0, 0xBF, by rw [h0]; rfl, by omega, by omega⟩
  by_cases hd : v / 4096 = 13
  · exact ⟨0x80, 0x9F, by rw [hd]; rfl, by omega, by omega⟩
  · refine ⟨0x80, 0xBF, ?_, by omega, by omega⟩
    unfold begin?
    repeat rw [if_neg (by omega)]
    rw [if_pos (by omega)]
    simp

/-- A lead byte of four: no overlong forms, and nothing beyond the last code point. -/
theorem begin?_four {v : Nat} (h : 0xFFFF < v) (hh : v ≤ 0x10FFFF) :
    ∃ low high, begin? (v / 262144 + 0xF0) = some (.inr (.inside (v / 262144) 3 low high)) ∧
      low ≤ v / 4096 % 64 + 0x80 ∧ v / 4096 % 64 + 0x80 ≤ high := by
  by_cases h0 : v / 262144 = 0
  · exact ⟨0x90, 0xBF, by rw [h0]; rfl, by omega, by omega⟩
  by_cases hd : v / 262144 = 4
  · exact ⟨0x80, 0x8F, by rw [hd]; rfl, by omega, by omega⟩
  · refine ⟨0x80, 0xBF, ?_, by omega, by omega⟩
    unfold begin?
    repeat rw [if_neg (by omega)]
    rw [if_pos (by omega)]
    simp

theorem scan_encodeChar (c : Char) (bs : List UInt8) :
    scan .start (String.utf8EncodeChar c ++ bs) = some c :: scan .start bs := by
  have hv : c.val.toNat < 0xD800 ∨ 0xDFFF < c.val.toNat ∧ c.val.toNat < 0x110000 := c.valid
  have hc : Char.ofNat c.val.toNat = c := c.ofNat_toNat
  simp only [String.utf8EncodeChar]
  generalize c.val.toNat = v at hv hc
  split
  · have hm : v % 256 = v := by omega
    have hl : v < 128 := by omega
    simp [scan, step, stepStart, begin?, hm, hl, hc]
  split
  · have hm : v / 64 % 32 = v / 64 := by omega
    have he : v / 64 * 64 + (v % 64 + 128) % 64 = v := by omega
    simp only [List.cons_append, List.nil_append, hm]
    rw [scan_start_inside (by omega) (begin?_two (by omega) (by omega)),
      scan_inside_one (by omega) (by omega) (by omega), he, hc]
  split
  · obtain ⟨low, high, hb, hl, hh⟩ := begin?_three (v := v) (by omega) (by omega) (by omega)
    have hm : v / 4096 % 16 = v / 4096 := by omega
    have he : (v / 4096 * 64 + (v / 64 % 64 + 128) % 64) * 64 + (v % 64 + 128) % 64 = v := by omega
    simp only [List.cons_append, List.nil_append, hm]
    rw [scan_start_inside (by omega) hb, scan_inside hl hh (by omega) (by decide),
      scan_inside_one (by omega) (by omega) (by omega), he, hc]
  · obtain ⟨low, high, hb, hl, hh⟩ := begin?_four (v := v) (by omega) (by omega)
    have hm : v / 262144 % 8 = v / 262144 := by omega
    have he : ((v / 262144 * 64 + (v / 4096 % 64 + 128) % 64) * 64 +
        (v / 64 % 64 + 128) % 64) * 64 + (v % 64 + 128) % 64 = v := by omega
    simp only [List.cons_append, List.nil_append, hm]
    rw [scan_start_inside (by omega) hb, scan_inside hl hh (by omega) (by decide),
      scan_inside (by omega) (by omega) (by omega) (by decide),
      scan_inside_one (by omega) (by omega) (by omega), he, hc]

/-- Decoding gives back what was encoded. -/
theorem scan_encode (s : List Char) : scan .start (encode s) = s.map some := by
  induction s with
  | nil => rfl
  | cons c s ih =>
    rw [encode, List.flatMap_cons, scan_encodeChar]
    simpa [encode] using ih

theorem decode?_encode (s : String) : decode? (encode s.toList) = some s := by
  have h (l : List Char) : (l.map some).mapM id = some l := by
    induction l with
    | nil => rfl
    | cons c l ih => simp [ih]
  simp [decode?, scan_encode, h]

theorem decodeLossy_encode (s : String) : decodeLossy (encode s.toList) = s := by
  simp [decodeLossy, scan_encode, Function.comp_def]

end OverlayTunnel.Utf8
