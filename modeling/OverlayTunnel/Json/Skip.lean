import OverlayTunnel.Json.Quoted

/-!
Passing over a JSON value of any kind and depth.
-/
namespace OverlayTunnel.Json

def isSpace (c : Char) : Bool :=
  c == ' ' || c == '\n' || c == '\t' || c == '\r'

def skipSpace (cs : List Char) : List Char :=
  cs.dropWhile isSpace

/-- Takes the rest of a word off a text. -/
def skipWord (word : List Char) (cs : List Char) : Except Error (List Char) :=
  match word, cs with
  | [], cs => .ok cs
  | _ :: _, [] => .error .endInValue
  | w :: word, c :: cs => if w = c then skipWord word cs else .error .expectedWord

/-- What a reader is inside of. -/
inductive Enclosure where
  | list
  | object
  deriving DecidableEq, Repr

def Enclosure.closing : Enclosure → Char
  | .list => ']'
  | .object => '\x7d'

def Enclosure.ended : Enclosure → Error
  | .list => .endInList
  | .object => .endInObject

def Enclosure.expectedComma : Enclosure → Error
  | .list => .expectedCommaInList
  | .object => .expectedCommaInObject

/-- Passes over a key and its colon. -/
def skipKey (cs : List Char) : Except Error (List Char) :=
  match skipSpace cs with
  | [] => .error .endInObject
  | '"' :: cs => do
    let cs ← skipString cs
    match skipSpace cs with
    | [] => .error .endInObject
    | ':' :: cs => .ok cs
    | _ => .error .expectedColon
  | _ => .error .keyNotString

/-- The start of a value: a whole scalar, or the opening of a list or object. -/
def skipOpening (cs : List Char) : Except Error (Option Enclosure × List Char) :=
  match skipSpace cs with
  | [] => .error .endInValue
  | 'n' :: cs => (skipWord "ull".toList cs).map (none, ·)
  | 't' :: cs => (skipWord "rue".toList cs).map (none, ·)
  | 'f' :: cs => (skipWord "alse".toList cs).map (none, ·)
  | '-' :: cs => (Number.skip cs).map (none, ·)
  | '"' :: cs => (skipString cs).map (none, ·)
  | '[' :: cs => .ok (some .list, cs)
  | '\x7b' :: cs => .ok (some .object, cs)
  | c :: cs => if Number.isDigit c then (Number.skip (c :: cs)).map (none, ·) else .error .expectedValue

/-- Passes over closing brackets up to where the next value begins. `fresh` tells that the innermost
enclosure has no member yet. The result holds the enclosures that are still open. -/
def skipClosings : (fresh : Bool) → List Enclosure → List Char →
    Except Error (List Enclosure × List Char)
  | _, [], cs => .ok ([], cs)
  | fresh, e :: open_, cs =>
    match skipSpace cs with
    | [] => .error e.ended
    | c :: rest =>
      if c = e.closing then skipClosings false open_ rest
      else if fresh then .ok (e :: open_, c :: rest)
      else if c = ',' then .ok (e :: open_, rest)
      else .error e.expectedComma

/-- Passes over a value and the rest of the given enclosures. Every value takes one unit of fuel. -/
def skipValues : Nat → List Enclosure → List Char → Except Error (List Char)
  | 0, _, _ => .error .endInValue
  | fuel + 1, open_, cs => do
    let (opened, cs) ← skipOpening cs
    let (open_, cs) ← skipClosings opened.isSome (opened.toList ++ open_) cs
    match open_ with
    | [] => .ok cs
    | .list :: _ => skipValues fuel open_ cs
    | .object :: _ => do skipValues fuel open_ (← skipKey cs)

/-- Passes over one value. -/
def skipValue (cs : List Char) : Except Error (List Char) :=
  skipValues (cs.length + 1) [] cs

end OverlayTunnel.Json
