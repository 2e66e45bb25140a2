import OverlayTunnel.Json.Number
import OverlayTunnel.Text.Utf8

/-!
Strings in JSON texts, written and read.
-/
namespace OverlayTunnel.Json

/-! ### Writing -/

def twoDigits (n : Nat) : List Char :=
  [Nat.digitChar (n / 16), Nat.digitChar (n % 16)]

/-- One character of a string. Only quotes, backslashes and controls are escaped. -/
def escape (c : Char) : List Char :=
  if c = '"' then ['\\', '"']
  else if c = '\\' then ['\\', '\\']
  else if c.toNat = 8 then ['\\', 'b']
  else if c.toNat = 12 then ['\\', 'f']
  else if c = '\n' then ['\\', 'n']
  else if c = '\r' then ['\\', 'r']
  else if c = '\t' then ['\\', 't']
  else if c.toNat < 32 then ['\\', 'u', '0', '0'] ++ twoDigits c.toNat
  else [c]

def quote (s : String) : List Char :=
  '"' :: s.toList.flatMap escape ++ ['"']

/-! ### Reading -/

/-- Reads four hexadecimal digits. At least four bytes must be left. -/
def readUnit : Reader Nat
  | a :: b :: c :: d :: rest =>
    if [a, b, c, d].all (Numeral.isDigit 16) then .ok (Numeral.value 16 [a, b, c, d], rest)
    else .error .invalidEscape
  | cs => if (Utf8.encode cs).length < 4 then .error .endInString else .error .invalidEscape

/-- What a reader that needs `c` says inside an escape where there is none. -/
def missingInEscape (cs : List Char) : Error :=
  if cs = [] then .endInString else .endOfEscape

/-- Reads the second half of a pair of surrogates, with its own escape. -/
def readTrailing (leading : Nat) : Reader Char
  | '\\' :: 'u' :: cs =>
    match readUnit cs with
    | .error e => .error e
    | .ok (n, rest) =>
      if 0xDC00 ≤ n ∧ n ≤ 0xDFFF then
        .ok (Char.ofNat ((leading - 0xD800) * 1024 + (n - 0xDC00) + 0x10000), rest)
      else .error .loneSurrogate
  | '\\' :: cs => .error (missingInEscape cs)
  | cs => .error (missingInEscape cs)

/-- Reads a character by its number in UTF-16. Without `strict`, a surrogate need not be part of a
pair and gives some character or other. -/
def readCodeUnits (strict : Bool) : Reader Char := fun cs =>
  match readUnit cs with
  | .error e => .error e
  | .ok (n, rest) =>
    if strict = true ∧ 0xD800 ≤ n ∧ n ≤ 0xDBFF then readTrailing n rest
    else if strict = true ∧ 0xDC00 ≤ n ∧ n ≤ 0xDFFF then .error .loneSurrogate
    else .ok (Char.ofNat n, rest)

/-- Reads what follows a backslash. -/
def readEscape (strict : Bool) : Reader Char
  | [] => .error .endInString
  | c :: cs =>
    if c = '"' ∨ c = '\\' ∨ c = '/' then .ok (c, cs)
    else if c = 'b' then .ok (Char.ofNat 8, cs)
    else if c = 'f' then .ok (Char.ofNat 12, cs)
    else if c = 'n' then .ok ('\n', cs)
    else if c = 'r' then .ok ('\r', cs)
    else if c = 't' then .ok ('\t', cs)
    else if c = 'u' then readCodeUnits strict cs
    else .error .invalidEscape

/-- Reads up to the closing quote. Every character takes one unit of fuel. -/
def readCharacters (strict : Bool) : Nat → Reader (List Char)
  | 0, _ => .error .endInString
  | _ + 1, [] => .error .endInString
  | fuel + 1, c :: cs =>
    if c = '"' then .ok ([], cs)
    else if c = '\\' then
      match readEscape strict cs with
      | .error e => .error e
      | .ok (d, rest) => (readCharacters strict fuel rest).map fun (ds, rest) => (d :: ds, rest)
    else if c.toNat < 32 then .error .controlCharacter
    else (readCharacters strict fuel cs).map fun (ds, rest) => (c :: ds, rest)

/-- Reads a string whose opening quote has been read. -/
def readString : Reader String := fun cs =>
  (readCharacters true (cs.length + 1) cs).map fun (s, rest) => (String.ofList s, rest)

/-- Passes over a string whose opening quote has been read. -/
def skipString (cs : List Char) : Except Error (List Char) :=
  (readCharacters false (cs.length + 1) cs).map (·.2)

end OverlayTunnel.Json
