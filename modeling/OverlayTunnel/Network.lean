import OverlayTunnel.Address.Text

/-!
Networks: an address and how many of its leading bits all members share. The address keeps its other
bits too; `base` clears them.
-/
namespace OverlayTunnel

structure Network where
  address : Address
  length : Nat
  length_le : length ≤ address.family.width
  deriving DecidableEq, Repr

namespace Network

/-- The network that holds one address alone. -/
def host (a : Address) : Network :=
  ⟨a, a.family.width, Nat.le_refl _⟩

def family (n : Network) : Family :=
  n.address.family

/-- The number of bits in which members differ. -/
def hostBits (n : Network) : Nat :=
  n.family.width - n.length

/-- The address of the network itself, with all host bits clear. -/
def base (n : Network) : Address :=
  .ofValue n.family (n.address.value / 2 ^ n.hostBits * 2 ^ n.hostBits)

/-- An address is a member if it has the family and the leading bits of the network. -/
def contains (n : Network) (a : Address) : Bool :=
  a.family = n.family && a.value / 2 ^ n.hostBits = n.address.value / 2 ^ n.hostBits

@[simp] theorem family_base (n : Network) : n.base.family = n.family :=
  Address.family_ofValue ..

theorem value_base (n : Network) :
    n.base.value = n.address.value / 2 ^ n.hostBits * 2 ^ n.hostBits := by
  rw [base, Address.value_ofValue]
  exact Nat.mod_eq_of_lt (Nat.lt_of_le_of_lt (Nat.div_mul_le_self ..) n.address.value_lt)

theorem contains_iff (n : Network) (a : Address) :
    n.contains a = true ↔
      a.family = n.family ∧ a.value / 2 ^ n.hostBits = n.address.value / 2 ^ n.hostBits := by
  simp [contains]

/-- The network's own address is a member. -/
theorem contains_base (n : Network) : n.contains n.base = true := by
  rw [contains_iff, value_base, Nat.mul_div_cancel _ (Nat.two_pow_pos _)]
  exact ⟨n.family_base, rfl⟩

/-! ### Text -/

def chars (n : Network) : List Char :=
  n.address.chars ++ '/' :: Nat.toDigits 10 n.length

def text (n : Network) : String :=
  String.ofList n.chars

def ofLength? (a : Address) (length : Nat) : Option Network :=
  if h : length ≤ a.family.width then some ⟨a, length, h⟩ else none

/-- Reads the number of leading bits, of at most as many digits as the width has, to the end of the
text. -/
def readLength? (a : Address) (digits : Nat) (cs : List Char) : Option Network := do
  let cs ← Address.skipChar '/' cs
  match Numeral.scan 10 (some digits) true (a.family.width + 1) cs with
  | some (length, []) => ofLength? a length
  | _ => none

def ofChars? (cs : List Char) : Option Network :=
  (do
    let (n, rest) ← Address.scanDotted .lenient cs
    readLength? (.ofValue .v4 n) 2 rest) <|>
  (do
    let (n, rest) ← Address.scanColons .lenient cs
    readLength? (.ofValue .v6 n) 3 rest)

def ofText? (s : String) : Option Network :=
  ofChars? s.toList

end Network

end OverlayTunnel
