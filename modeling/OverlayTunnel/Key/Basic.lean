import OverlayTunnel.Key.Base64
import OverlayTunnel.Key.Curve
import OverlayTunnel.Text.Blank
import OverlayTunnel.Text.Quoted
import OverlayTunnel.Text.Utf8

/-!
Tunnel keys. A key is thirty-two bytes and is exchanged as Base64 text; a private key determines its
public key.
-/
namespace OverlayTunnel

def keySize : Nat := 32

/-- The key that peers know a node by. -/
structure PublicKey where
  bytes : List UInt8
  length_bytes : bytes.length = keySize
  deriving DecidableEq, Repr

/-- The key that a node keeps to itself. -/
structure PrivateKey where
  bytes : List UInt8
  length_bytes : bytes.length = keySize
  deriving DecidableEq

inductive KeyError where
  | notBase64 (text : String) (cause : Base64.DecodeError)
  | wrongSize (size : Nat)
  deriving DecidableEq, Repr

def KeyError.message : KeyError → String
  | .notBase64 text cause => Text.quoted text ++ ": " ++ cause.message
  | .wrongSize size => s!"expected {keySize} bytes, got {size}"

/-- The bytes of a key text, which may have blanks around it. -/
def decodeKey (text : String) : Except KeyError { bytes : List UInt8 // bytes.length = keySize } :=
  match Base64.decode (Utf8.encode (Text.trim text.toList)) with
  | .error cause => .error (.notBase64 text cause)
  | .ok bytes =>
    if h : bytes.length = keySize then .ok ⟨bytes, h⟩ else .error (.wrongSize bytes.length)

namespace PublicKey

def ofText (text : String) : Except KeyError PublicKey :=
  (decodeKey text).map fun key => ⟨key.1, key.2⟩

def ofBytes? (bytes : List UInt8) : Option PublicKey :=
  if h : bytes.length = keySize then some ⟨bytes, h⟩ else none

def chars (key : PublicKey) : List Char :=
  Base64.encode key.bytes

def text (key : PublicKey) : String :=
  String.ofList key.chars

/-- The text of a key in diagnostics. -/
def label (key : PublicKey) : String :=
  "PublicKey(" ++ key.text ++ ")"

def le (a b : PublicKey) : Bool :=
  decide (a.bytes ≤ b.bytes)

/-- Keys in ascending order, each once. -/
def sorted (keys : List PublicKey) : List PublicKey :=
  (keys.mergeSort le).eraseDups

end PublicKey

namespace PrivateKey

def ofText (text : String) : Except KeyError PrivateKey :=
  (decodeKey text).map fun key => ⟨key.1, key.2⟩

def ofBytes? (bytes : List UInt8) : Option PrivateKey :=
  if h : bytes.length = keySize then some ⟨bytes, h⟩ else none

def chars (key : PrivateKey) : List Char :=
  Base64.encode key.bytes

def text (key : PrivateKey) : String :=
  String.ofList key.chars

/-- The text of a key in diagnostics, which tells nothing about it. -/
def label (_ : PrivateKey) : String :=
  "PrivateKey(<redacted>)"

/-- The secret number of a key, whose first byte is the least significant. -/
def secret (key : PrivateKey) : Nat :=
  Radix.value 256 (key.bytes.reverse.map UInt8.toNat)

def publicKey (key : PrivateKey) : PublicKey :=
  ⟨((Radix.expand 256 keySize (Curve.publicCoordinate key.secret)).map UInt8.ofNat).reverse,
    by simp⟩

end PrivateKey

end OverlayTunnel
