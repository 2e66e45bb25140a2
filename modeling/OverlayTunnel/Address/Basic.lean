import OverlayTunnel.Radix

/-!
Internet addresses of both families, seen as numbers and as bytes. `ofValue` undoes `value`, and
`ofOctets?` undoes `octets`.
-/
namespace OverlayTunnel

inductive Family where
  | v4
  | v6
  deriving DecidableEq, Repr

def Family.width : Family → Nat
  | .v4 => 32
  | .v6 => 128

inductive Address where
  | v4 (bits : BitVec 32)
  | v6 (bits : BitVec 128)
  deriving DecidableEq, Repr

namespace Address

def family : Address → Family
  | .v4 _ => .v4
  | .v6 _ => .v6

def value : Address → Nat
  | .v4 bits => bits.toNat
  | .v6 bits => bits.toNat

def ofValue : Family → Nat → Address
  | .v4, n => .v4 (BitVec.ofNat 32 n)
  | .v6, n => .v6 (BitVec.ofNat 128 n)

@[simp] theorem family_ofValue (f : Family) (n : Nat) : (ofValue f n).family = f := by
  cases f <;> rfl

@[simp] theorem value_ofValue (f : Family) (n : Nat) : (ofValue f n).value = n % 2 ^ f.width := by
  cases f <;> simp [ofValue, value, Family.width]

@[simp] theorem ofValue_value (a : Address) : ofValue a.family a.value = a := by
  cases a <;> simp [ofValue, value, family]

theorem value_lt (a : Address) : a.value < 2 ^ a.family.width := by
  cases a with
  | v4 bits => exact bits.isLt
  | v6 bits => exact bits.isLt

/-- Whether an address is the one with no bit set, which names no host. -/
def isUnspecified (a : Address) : Bool :=
  a.value == 0

/-- The bytes of an address, most significant first. -/
def octets (a : Address) : List UInt8 :=
  (Radix.expand 256 (a.family.width / 8) a.value).map UInt8.ofNat

/-- The address with the given bytes; there are four or sixteen of them. -/
def ofOctets? (bytes : List UInt8) : Option Address :=
  if bytes.length = 4 then some (ofValue .v4 (Radix.value 256 (bytes.map UInt8.toNat)))
  else if bytes.length = 16 then some (ofValue .v6 (Radix.value 256 (bytes.map UInt8.toNat)))
  else none

@[simp] theorem length_octets (a : Address) : a.octets.length = a.family.width / 8 := by
  simp [octets]

theorem value_octets (a : Address) :
    Radix.value 256 (a.octets.map UInt8.toNat) = a.value := by
  rw [octets, Radix.toNat_bytes_expand, Radix.value_expand]
  apply Nat.mod_eq_of_lt
  have h := value_lt a
  cases a <;> simpa [family, Family.width] using h

theorem ofOctets?_octets (a : Address) : ofOctets? a.octets = some a := by
  rw [ofOctets?, value_octets, length_octets]
  cases hf : a.family with
  | v4 => simp [Family.width, ← hf]
  | v6 => simp [Family.width, ← hf]

end Address

end OverlayTunnel
