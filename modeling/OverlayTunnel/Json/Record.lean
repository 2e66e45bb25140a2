import OverlayTunnel.Json.Value

/-!
Records as JSON objects, with members in any order and others ignored, or as lists of their fields in
order.
-/
namespace OverlayTunnel.Json

/-- A field of a record of type `ρ`, which collects what has been read so far. -/
structure Field (ρ : Type) where
  name : String
  isRead : ρ → Bool
  read : ρ → Reader ρ

/-- How a record of type `α` is read: its title, its fields in order, and what becomes of the fields
that were read. -/
structure Layout (ρ α : Type) where
  title : String
  fields : List (Field ρ)
  blank : ρ
  ofObject : ρ → Except Error α
  ofList : ρ → Except Error α

/-- Reads the value of the member with a given key. -/
def readMember {ρ : Type} (fields : List (Field ρ)) (key : String) (r : ρ) : Reader ρ := fun cs =>
  match fields.find? (·.name == key) with
  | none => do
    let cs ← readColon cs
    return (r, ← skipValue cs)
  | some field =>
    if field.isRead r then .error (.duplicateField key)
    else do
      let cs ← readColon cs
      field.read r cs

/-- Reads the members of an object from the next one on. Every member takes one unit of fuel. -/
def readMembers {ρ : Type} (fields : List (Field ρ)) : Nat → (first : Bool) → ρ → Reader ρ
  | 0, _, _, _ => .error .endInObject
  | fuel + 1, first, r, cs => do
    let (key, cs) ← nextKey first cs
    match key with
    | none => return (r, cs)
    | some key =>
      let (r, cs) ← readMember fields key r cs
      readMembers fields fuel false r cs

/-- Reads the fields of a record from a list, which may end early. The result tells whether it has
ended. -/
def readFields {ρ : Type} : List (Field ρ) → (first : Bool) → ρ → Reader (ρ × Bool)
  | [], _, r, cs => .ok ((r, false), cs)
  | field :: fields, first, r, cs => do
    let (more, cs) ← nextElement first cs
    if more then
      let (r, cs) ← field.read r cs
      readFields fields false r cs
    else
      return ((r, true), cs)

/-- Reads a record. -/
def readRecord {ρ α : Type} (layout : Layout ρ α) : Reader α := fun cs =>
  match skipSpace cs with
  | '\x7b' :: cs => do
    let (r, cs) ← readMembers layout.fields (cs.length + 1) true layout.blank cs
    return (← layout.ofObject r, cs)
  | '[' :: cs => do
    let ((r, ended), cs) ← readFields layout.fields true layout.blank cs
    let a ← layout.ofList r
    return (a, ← if ended then pure cs else endList cs)
  | cs => .error (mismatch layout.title cs)

/-! ### Writing -/

/-- The compact form of an object. -/
def object (members : List (String × List Char)) : List Char :=
  '\x7b' :: [','].intercalate (members.map fun m => quote m.1 ++ ':' :: m.2) ++ ['\x7d']

/-- The compact form of a list. -/
def list (elements : List (List Char)) : List Char :=
  '[' :: [','].intercalate elements ++ [']']

end OverlayTunnel.Json
