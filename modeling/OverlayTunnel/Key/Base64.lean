import OverlayTunnel.Radix

/-!
Base64 with the standard alphabet. Every byte sequence has exactly one text: padding to a multiple
of four symbols is required, and the bits that a last symbol has to spare must be zero.
-/
namespace OverlayTunnel.Base64

def padByte : UInt8 := 61

/-- The symbol that stands for six bits. -/
def symbol (n : Nat) : Char :=
  if n < 26 then Char.ofNat (n + 65)
  else if n < 52 then Char.ofNat (n + 71)
  else if n < 62 then Char.ofNat (n - 4)
  else if n = 62 then '+'
  else '/'

/-- The six bits of a symbol. -/
def sextet? (b : UInt8) : Option Nat :=
  let n := b.toNat
  if 65 ≤ n ∧ n ≤ 90 then some (n - 65)
  else if 97 ≤ n ∧ n ≤ 122 then some (n - 71)
  else if 48 ≤ n ∧ n ≤ 57 then some (n + 4)
  else if n = 43 then some 62
  else if n = 47 then some 63
  else none

theorem sextet?_symbol {n : Nat} (h : n < 64) :
    sextet? (UInt8.ofNat (symbol n).toNat) = some n := by
  revert n
  decide

set_option maxRecDepth 2000 in
/-- Each symbol has six bits of its own. -/
theorem symbol_of_sextet? {b : UInt8} {n : Nat} (h : sextet? b = some n) :
    n < 64 ∧ symbol n = Char.ofNat b.toNat := by
  have all : ∀ m < 256, ∀ n ∈ sextet? (UInt8.ofNat m), n < 64 ∧ symbol n = Char.ofNat m := by
    decide
  exact all b.toNat b.toNat_lt n (by simpa using h)

def symbols (k n : Nat) : List Char :=
  (Radix.expand 64 k n).map symbol

/-- The text of a byte sequence. -/
def encode : List UInt8 → List Char
  | [] => []
  | [a] => symbols 2 (a.toNat * 16) ++ ['=', '=']
  | [a, b] => symbols 3 (Radix.value 256 [a.toNat, b.toNat] * 4) ++ ['=']
  | a :: b :: c :: rest => symbols 4 (Radix.value 256 [a.toNat, b.toNat, c.toNat]) ++ encode rest

/-- Why a byte sequence is no Base64 text. Offsets count bytes. -/
inductive DecodeError where
  | invalidSymbol (byte : UInt8) (offset : Nat)
  | invalidLength (length : Nat)
  | invalidLastSymbol (byte : UInt8) (offset : Nat)
  | invalidPadding
  deriving DecidableEq, Repr

def DecodeError.message : DecodeError → String
  | .invalidSymbol byte offset => s!"Invalid symbol {byte.toNat}, offset {offset}."
  | .invalidLength length => s!"Invalid input length: {length}"
  | .invalidLastSymbol byte offset => s!"Invalid last symbol {byte.toNat}, offset {offset}."
  | .invalidPadding => "Invalid padding"

/-- The length of the front part that must consist of symbols alone: all whole groups of four except
a last complete one. -/
def frontLength (n : Nat) : Nat :=
  if n % 4 = 0 then n - 4 else n - n % 4

/-- Six bits for each byte; `offset` is where the first byte stands. -/
def readSymbols (offset : Nat) : List UInt8 → Except DecodeError (List Nat)
  | [] => .ok []
  | b :: bs =>
    match sextet? b with
    | none => .error (.invalidSymbol b offset)
    | some n => (readSymbols (offset + 1) bs).map (n :: ·)

/-- Three bytes for every four symbols. -/
def joinGroups : List Nat → List UInt8
  | a :: b :: c :: d :: rest =>
    (Radix.expand 256 3 (Radix.value 64 [a, b, c, d])).map UInt8.ofNat ++ joinGroups rest
  | _ => []

/-- The last group: its symbols in order, and the place of the first pad among its bytes, if any. -/
structure LastGroup where
  sextets : List Nat
  lastSymbol : UInt8
  firstPad : Option Nat
  pads : Nat

/-- Reads the last group from index `i` on. Pads stand at its end, behind two symbols at least. -/
def readLast (offset : Nat) (group : LastGroup) (i : Nat) :
    List UInt8 → Except DecodeError LastGroup
  | [] => .ok group
  | b :: bs =>
    if b = padByte then
      if i < 2 then .error (.invalidSymbol b (offset + i))
      else
        readLast offset
          { group with firstPad := some (group.firstPad.getD i), pads := group.pads + 1 } (i + 1) bs
    else
      match group.firstPad with
      | some pad => .error (.invalidSymbol padByte (offset + pad))
      | none =>
        match sextet? b with
        | none => .error (.invalidSymbol b (offset + i))
        | some n =>
          readLast offset { group with sextets := group.sextets ++ [n], lastSymbol := b } (i + 1) bs

/-- The bytes of the last group, whose spare bits must be zero. -/
def joinLast (offset : Nat) (group : LastGroup) : Except DecodeError (List UInt8) :=
  let count := group.sextets.length
  let size := count * 6 / 8
  let spare := count * 6 - size * 8
  let bits := Radix.value 64 group.sextets
  if bits % 2 ^ spare ≠ 0 then
    .error (.invalidLastSymbol group.lastSymbol (offset + count - 1))
  else
    .ok ((Radix.expand 256 size (bits / 2 ^ spare)).map UInt8.ofNat)

/-- A single byte after whole groups of four that is no symbol at all, such as a line break. -/
def strayByte? (bytes : List UInt8) : Option UInt8 :=
  if bytes.length % 4 = 1 then
    bytes.getLast?.filter fun b => b ≠ padByte && (sextet? b).isNone
  else
    none

/-- Decodes the bytes of a Base64 text. -/
def decode (bytes : List UInt8) : Except DecodeError (List UInt8) := do
  if let some b := strayByte? bytes then
    throw (.invalidSymbol b (bytes.length - 1))
  let front := frontLength bytes.length
  let sextets ← readSymbols 0 (bytes.take front)
  let last ← readLast front ⟨[], 0, none, 0⟩ 0 (bytes.drop front)
  if bytes ≠ [] ∧ last.sextets.length < 2 then
    throw (.invalidLength (front + last.sextets.length))
  if (last.pads + last.sextets.length) % 4 ≠ 0 then
    throw .invalidPadding
  let ending ← joinLast front last
  return joinGroups sextets ++ ending

end OverlayTunnel.Base64
