import OverlayTunnel.Address.Basic
import OverlayTunnel.Text.Numeral

/-!
Addresses as text. Four numbers with dots, or hexadecimal groups with colons, where the longest run
of zero groups is left out. Two dialects are read: the strict one of single addresses, and the
lenient one of networks.
-/
namespace OverlayTunnel.Address

/-- What a reader of addresses lets pass: numbers with leading zeros between dots, and how few
groups a double colon may stand for. -/
structure Dialect where
  paddedOctets : Bool
  fewestElided : Nat

def Dialect.plain : Dialect := ⟨false, 1⟩

def Dialect.lenient : Dialect := ⟨true, 0⟩

/-! ### Writing -/

def dottedChars (n : Nat) : List Char :=
  ['.'].intercalate ((Radix.expand 256 4 n).map (Nat.toDigits 10))

def groupChars (groups : List Nat) : List Char :=
  [':'].intercalate (groups.map (Nat.toDigits 16))

def zeroRun (groups : List Nat) : Nat :=
  (groups.takeWhile (· == 0)).length

/-- Start and length of the first of the longest runs of zeros. -/
def longestZeroRun : List Nat → Nat × Nat
  | [] => (0, 0)
  | g :: gs =>
    let (start, length) := longestZeroRun gs
    if zeroRun (g :: gs) < length then (start + 1, length) else (0, zeroRun (g :: gs))

/-- Eight groups with the longest run of at least two zeros left out. -/
def colonChars (groups : List Nat) : List Char :=
  let (start, length) := longestZeroRun groups
  if 2 ≤ length then
    groupChars (groups.take start) ++ ':' :: ':' :: groupChars (groups.drop (start + length))
  else
    groupChars groups

/-- The text of an address; one that embeds a version 4 address after `::ffff:` shows it dotted. -/
def chars : Address → List Char
  | .v4 bits => dottedChars bits.toNat
  | .v6 bits =>
    if bits.toNat / 2 ^ (32 : Nat) = 0xFFFF then
      "::ffff:".toList ++ dottedChars (bits.toNat % 2 ^ (32 : Nat))
    else
      colonChars (Radix.expand 65536 8 bits.toNat)

def text (a : Address) : String :=
  String.ofList a.chars

/-! ### Reading -/

def skipChar (c : Char) : List Char → Option (List Char)
  | [] => none
  | d :: cs => if c = d then some cs else none

def scanOctet (d : Dialect) (cs : List Char) : Option (Nat × List Char) :=
  Numeral.scan 10 (some 3) d.paddedOctets 256 cs

/-- Takes four numbers with dots between them off a text. -/
def scanDotted (d : Dialect) (cs : List Char) : Option (Nat × List Char) := do
  let (a, cs) ← scanOctet d cs
  let (b, cs) ← scanOctet d (← skipChar '.' cs)
  let (c, cs) ← scanOctet d (← skipChar '.' cs)
  let (e, cs) ← scanOctet d (← skipChar '.' cs)
  return (Radix.value 256 [a, b, c, e], cs)

def scanGroup (cs : List Char) : Option (Nat × List Char) :=
  Numeral.scan 16 (some 4) true 65536 cs

/-- Takes up to `limit` groups off a text, colons between them; also tells whether the last two
groups were written as a dotted address. -/
def scanGroups (d : Dialect) : (limit : Nat) → (first : Bool) → List Char →
    List Nat × Bool × List Char
  | 0, _, cs => ([], false, cs)
  | limit + 1, first, cs =>
    match if first then some cs else skipChar ':' cs with
    | none => ([], false, cs)
    | some body =>
      match if limit = 0 then none else scanDotted d body with
      | some (n, rest) => ([n / 65536, n % 65536], true, rest)
      | none =>
        match scanGroup body with
        | none => ([], false, cs)
        | some (g, rest) =>
          let (gs, dotted, rest) := scanGroups d limit false rest
          (g :: gs, dotted, rest)

/-- Takes eight groups off a text, or fewer around one double colon. A dotted part may only come
last. -/
def scanColons (d : Dialect) (cs : List Char) : Option (Nat × List Char) :=
  let (head, dotted, rest) := scanGroups d 8 true cs
  if head.length = 8 then
    some (Radix.value 65536 head, rest)
  else if dotted then
    none
  else
    match rest with
    | ':' :: ':' :: rest =>
      let (tail, _, rest) := scanGroups d (8 - head.length - d.fewestElided) true rest
      some (Radix.value 65536
        (head ++ List.replicate (8 - head.length - tail.length) 0 ++ tail), rest)
    | _ => none

def ofChars? (cs : List Char) : Option Address :=
  match scanDotted .plain cs with
  | some (n, rest) => if rest = [] then some (ofValue .v4 n) else none
  | none =>
    match scanColons .plain cs with
    | some (n, []) => some (ofValue .v6 n)
    | _ => none

def ofText? (s : String) : Option Address :=
  ofChars? s.toList

end OverlayTunnel.Address
