import OverlayTunnel.Double.Shortest
import OverlayTunnel.Json.Error

/-!
Numbers in JSON texts. An integer of at most 64 bits is exact; every other number is a binary64 one,
whose digits beyond 64 bits do not count.
-/
namespace OverlayTunnel.Json

/-- A reader takes its value off the front of a text. -/
abbrev Reader (α : Type) := List Char → Except Error (α × List Char)

inductive Number where
  | natural (n : Nat)
  | negative (n : Nat)
  | double (isNegative : Bool) (magnitude : Double)
  deriving DecidableEq, Repr

namespace Number

/-- The number as a reader of something else meets it. -/
def found : Number → Found
  | .natural n => .integer n
  | .negative n => .integer (-n)
  | .double isNegative x => .number (String.ofList (if isNegative then '-' :: x.chars else x.chars))

def isDigit (c : Char) : Bool :=
  Numeral.isDigit 10 c

/-- What a reader that needs a digit says where there is none. -/
def missingDigit (rest : List Char) : Error :=
  if rest = [] then .endInValue else .invalidNumber

/-- Appends digits to a significand as long as it keeps below 64 bits; also gives the digits left. -/
def appendDigits : Nat → List Char → Nat × List Char
  | n, [] => (n, [])
  | n, c :: cs =>
    let next := Numeral.valueFrom 10 n [c]
    if next < 2 ^ (64 : Nat) then appendDigits next cs else (n, c :: cs)

/-- The power of ten with a small exponent. -/
def powerOfTen (k : Nat) : Double :=
  (Double.ofNat (10 ^ k)).getD .zero

/-- Divides by a power of ten, in steps that the range allows. -/
def scaleDown (x : Double) (k : Nat) : Double :=
  if k ≤ 308 then (x.div (powerOfTen k)).getD .zero
  else if x.significand = 0 then .zero
  else scaleDown ((x.div (powerOfTen 308)).getD .zero) (k - 308)
termination_by k

/-- The binary64 number for a significand and a decimal exponent. -/
def ofParts (significand : Nat) (exponent : Int) : Except Error Double :=
  let x := (Double.ofNat significand).getD .zero
  if exponent < 0 then .ok (scaleDown x exponent.natAbs)
  else if 308 < exponent then
    if x.significand = 0 then .ok .zero else .error .numberOutOfRange
  else
    match x.mul (powerOfTen exponent.natAbs) with
    | some y => .ok y
    | none => .error .numberOutOfRange

def signed (isNegative : Bool) (rest : List Char) (x : Except Error Double) :
    Except Error (Number × List Char) :=
  x.map fun x => (.double isNegative x, rest)

/-- Reads what follows the letter of an exponent. -/
def readExponent (isNegative : Bool) (significand : Nat) (exponent : Int) : Reader Number := fun cs =>
  let (down, cs) :=
    match cs with
    | '+' :: cs => (false, cs)
    | '-' :: cs => (true, cs)
    | _ => (false, cs)
  let digits := cs.takeWhile isDigit
  let rest := cs.dropWhile isDigit
  if digits = [] then .error (missingDigit rest)
  else
    let n := Numeral.value 10 digits
    if 2 ^ (31 : Nat) ≤ n then
      if significand ≠ 0 ∧ down = false then .error .numberOutOfRange
      else signed isNegative rest (.ok .zero)
    else
      signed isNegative rest (ofParts significand (if down then exponent - n else exponent + n))

def readScale (isNegative : Bool) (significand : Nat) (exponent : Int) : Reader Number
  | 'e' :: cs => readExponent isNegative significand exponent cs
  | 'E' :: cs => readExponent isNegative significand exponent cs
  | cs => signed isNegative cs (ofParts significand exponent)

def readFraction (isNegative : Bool) (significand : Nat) (exponent : Int) : Reader Number := fun cs =>
  let digits := cs.takeWhile isDigit
  let rest := cs.dropWhile isDigit
  if digits = [] then .error (missingDigit rest)
  else
    let (significand, left) := appendDigits significand digits
    readScale isNegative significand (exponent - (digits.length - left.length : Nat)) rest

/-- An integer of at most 64 bits; minus zero and what is too small are binary64 numbers. -/
def ofInteger (isNegative : Bool) (n : Nat) : Number :=
  if isNegative = false then .natural n
  else if 0 < n ∧ n ≤ 2 ^ (63 : Nat) then .negative n
  else .double true ((Double.ofNat n).getD .zero)

/-- Reads a number whose sign has been read. -/
def read (isNegative : Bool) : Reader Number := fun cs =>
  let digits := cs.takeWhile isDigit
  let rest := cs.dropWhile isDigit
  if digits = [] then .error (missingDigit rest)
  else if digits.head? = some '0' ∧ 1 < digits.length then .error .invalidNumber
  else
    let (significand, left) := appendDigits 0 digits
    match rest with
    | '.' :: rest => readFraction isNegative significand left.length rest
    | _ =>
      if left = [] ∧ rest.head? ≠ some 'e' ∧ rest.head? ≠ some 'E' then
        .ok (ofInteger isNegative significand, rest)
      else
        readScale isNegative significand left.length rest

/-- Passes over a number whose sign has been read. Nothing but its form counts. -/
def skip (cs : List Char) : Except Error (List Char) :=
  let digits := cs.takeWhile isDigit
  let rest := cs.dropWhile isDigit
  if digits = [] ∨ (digits.head? = some '0' ∧ 1 < digits.length) then .error .invalidNumber
  else
    match rest with
    | '.' :: fraction =>
      if (fraction.takeWhile isDigit) = [] then .error .invalidNumber
      else skipScale (fraction.dropWhile isDigit)
    | _ => skipScale rest
where
  skipScale (cs : List Char) : Except Error (List Char) :=
    match cs with
    | c :: rest =>
      if c = 'e' ∨ c = 'E' then
        let unsigned := if rest.head? = some '+' ∨ rest.head? = some '-' then rest.drop 1 else rest
        if unsigned.takeWhile isDigit = [] then .error .invalidNumber
        else .ok (unsigned.dropWhile isDigit)
      else .ok cs
    | [] => .ok []

end Number

end OverlayTunnel.Json
