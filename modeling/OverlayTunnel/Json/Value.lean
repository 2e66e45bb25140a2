import OverlayTunnel.Json.Skip
import OverlayTunnel.Text.Quoted

/-!
Readers for values of a known type, and the error for a value of another type.
-/
namespace OverlayTunnel.Json

/-- What a number is called where something else was expected. -/
def foundNumber (isNegative : Bool) (cs : List Char) : Except Error Found :=
  (Number.read isNegative cs).map fun (n, _) => n.found

/-- What stands at the front of a text. A malformed word, number or string is its own error. -/
def foundAt : List Char → Except Error Found
  | 'n' :: cs => (skipWord "ull".toList cs).map fun _ => .null
  | 't' :: cs => (skipWord "rue".toList cs).map fun _ => .boolean true
  | 'f' :: cs => (skipWord "alse".toList cs).map fun _ => .boolean false
  | '-' :: cs => foundNumber true cs
  | '"' :: cs => (readString cs).map fun (s, _) => .string (Text.quoted s)
  | '[' :: _ => .ok .sequence
  | '\x7b' :: _ => .ok .map
  | [] => .error .endInValue
  | c :: cs => if Number.isDigit c then foundNumber false (c :: cs) else .error .expectedValue

/-- The error where `expected` does not stand at the front of a text. -/
def mismatch (expected : String) (cs : List Char) : Error :=
  match foundAt cs with
  | .ok found => .wrongType found expected
  | .error e => e

def readText (expected : String) : Reader String := fun cs =>
  match skipSpace cs with
  | '"' :: cs => readString cs
  | cs => .error (mismatch expected cs)

/-- Reads a string that `parse?` understands. -/
def readParsed {α : Type} (expected : String) (parse? : String → Option α) : Reader α := fun cs =>
  match readText expected cs with
  | .error e => .error e
  | .ok (s, rest) =>
    match parse? s with
    | some a => .ok (a, rest)
    | none => .error .notAnAddress

/-- Reads a string or null. -/
def readOptionalText : Reader (Option String) := fun cs =>
  match skipSpace cs with
  | 'n' :: cs => (skipWord "ull".toList cs).map (none, ·)
  | cs => (readText "a string" cs).map fun (s, rest) => (some s, rest)

/-- The natural number of a JSON number, if it is at most `max`. -/
def ofNumber (expected : String) (max : Nat) : Number → Except Error Nat
  | .natural n => if n ≤ max then .ok n else .error (.wrongValue (.integer n) expected)
  | .negative n => .error (.wrongValue (.integer (-n)) expected)
  | .double s x => .error (.wrongType (Number.double s x).found expected)

def readNumber (expected : String) (max : Nat) (isNegative : Bool) : Reader Nat := fun cs =>
  match Number.read isNegative cs with
  | .error e => .error e
  | .ok (n, rest) => (ofNumber expected max n).map (·, rest)

/-- Reads a natural number of at most `max`. -/
def readNat (expected : String) (max : Nat) : Reader Nat := fun cs =>
  match skipSpace cs with
  | [] => .error .endInValue
  | '-' :: cs => readNumber expected max true cs
  | c :: cs =>
    if Number.isDigit c then readNumber expected max false (c :: cs)
    else .error (mismatch expected (c :: cs))

/-! ### Members of lists and objects -/

/-- Whether a list goes on; if so, the next element begins where the result begins. -/
def nextElement (first : Bool) : Reader Bool := fun cs =>
  match skipSpace cs with
  | [] => .error .endInList
  | ']' :: rest => .ok (false, rest)
  | ',' :: rest =>
    if first then .ok (true, ',' :: rest)
    else if (skipSpace rest).head? = some ']' then .error .trailingComma
    else .ok (true, rest)
  | cs => if first then .ok (true, cs) else .error .expectedCommaInList

/-- The end of a list all of whose elements have been read. -/
def endList (cs : List Char) : Except Error (List Char) :=
  match skipSpace cs with
  | [] => .error .endInList
  | ']' :: rest => .ok rest
  | ',' :: rest =>
    if (skipSpace rest).head? = some ']' then .error .trailingComma else .error .trailingCharacters
  | _ => .error .trailingCharacters

/-- The key of the next member of an object, or none at its end. -/
def nextKey (first : Bool) : Reader (Option String) := fun cs =>
  match skipSpace cs with
  | [] => .error .endInObject
  | '\x7d' :: rest => .ok (none, rest)
  | '"' :: rest => if first then key rest else .error .expectedCommaInObject
  | c :: rest =>
    if first then .error .keyNotString
    else if c = ',' then
      match skipSpace rest with
      | [] => .error .endInValue
      | '"' :: rest => key rest
      | '\x7d' :: _ => .error .trailingComma
      | _ => .error .keyNotString
    else .error .expectedCommaInObject
where
  key (cs : List Char) : Except Error (Option String × List Char) :=
    (readString cs).map fun (s, rest) => (some s, rest)

def readColon (cs : List Char) : Except Error (List Char) :=
  match skipSpace cs with
  | [] => .error .endInObject
  | ':' :: rest => .ok rest
  | _ => .error .expectedColon

/-- The elements of a list from the next one on. Every element takes one unit of fuel. -/
def readElements {α : Type} (element : Reader α) : Nat → (first : Bool) → Reader (List α)
  | 0, _, _ => .error .endInList
  | fuel + 1, first, cs => do
    let (more, cs) ← nextElement first cs
    if more then
      let (a, cs) ← element cs
      let (as, cs) ← readElements element fuel false cs
      return (a :: as, cs)
    else
      return ([], cs)

/-- Reads a list of any length. -/
def readList {α : Type} (element : Reader α) : Reader (List α) := fun cs =>
  match skipSpace cs with
  | '[' :: cs => readElements element (cs.length + 1) true cs
  | cs => .error (mismatch "a sequence" cs)

/-- The value of a whole text. -/
def readAll {α : Type} (reader : Reader α) (text : String) : Except Error α := do
  let (a, rest) ← reader text.toList
  if skipSpace rest = [] then return a else throw .trailingCharacters

end OverlayTunnel.Json
