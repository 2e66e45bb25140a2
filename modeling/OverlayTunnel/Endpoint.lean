import OverlayTunnel.Address.Text

/-!
Where a tunnel peer receives its packets: an address and a port.

A version 6 socket address also has a flow label. It is left out here: no text of an endpoint shows or
holds one, and an endpoint made of an address and a port has none, so it is zero in all that are met.
-/
namespace OverlayTunnel

/-- A version 6 endpoint may name the interface that its address belongs to, by number. -/
inductive Endpoint where
  | v4 (bits : BitVec 32) (port : UInt16)
  | v6 (bits : BitVec 128) (scope : UInt32) (port : UInt16)
  deriving DecidableEq, Repr

namespace Endpoint

def ofAddress : Address → UInt16 → Endpoint
  | .v4 bits, port => .v4 bits port
  | .v6 bits, port => .v6 bits 0 port

/-! ### Text -/

def chars : Endpoint → List Char
  | .v4 bits port => (Address.v4 bits).chars ++ ':' :: Nat.toDigits 10 port.toNat
  | .v6 bits scope port =>
    '[' :: (Address.v6 bits).chars ++
      (if scope = 0 then [] else '%' :: Nat.toDigits 10 scope.toNat) ++
      ']' :: ':' :: Nat.toDigits 10 port.toNat

def text (e : Endpoint) : String :=
  String.ofList e.chars

/-- Reads a colon and a port to the end of the text. -/
def readPort? (cs : List Char) : Option UInt16 := do
  let cs ← Address.skipChar ':' cs
  match Numeral.scan 10 none true 65536 cs with
  | some (port, []) => some (UInt16.ofNat port)
  | _ => none

/-- Takes a scope off a text, if there is one. -/
def scanScope (cs : List Char) : UInt32 × List Char :=
  match cs with
  | '%' :: digits =>
    match Numeral.scan 10 none true 4294967296 digits with
    | some (scope, rest) => (UInt32.ofNat scope, rest)
    | none => (0, cs)
  | _ => (0, cs)

def readV4? (cs : List Char) : Option Endpoint := do
  let (n, cs) ← Address.scanDotted .plain cs
  return .v4 (BitVec.ofNat 32 n) (← readPort? cs)

def readV6? (cs : List Char) : Option Endpoint := do
  let (n, cs) ← Address.scanColons .plain (← Address.skipChar '[' cs)
  let (scope, cs) := scanScope cs
  return .v6 (BitVec.ofNat 128 n) scope (← readPort? (← Address.skipChar ']' cs))

def ofChars? (cs : List Char) : Option Endpoint :=
  readV4? cs <|> readV6? cs

def ofText? (s : String) : Option Endpoint :=
  ofChars? s.toList

end Endpoint

end OverlayTunnel
