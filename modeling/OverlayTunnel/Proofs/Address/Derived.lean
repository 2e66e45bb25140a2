import OverlayTunnel.Assignment

/-!
The address that is derived from a name in closed form: the number of the network's address plus as much
of the digest as whole host bytes hold. It is a member of the network, and to write the digest over the
last bytes of the network's address one by one gives its bytes.
-/
namespace OverlayTunnel

/-! ### Leading bits -/

/-- The bits of an address, counted from its front. -/
def Address.bit (a : Address) (i : Nat) : Bool :=
  a.value.testBit (a.family.width - 1 - i)

namespace Network

variable (n : Network)

theorem length_add_hostBits : n.length + n.hostBits = n.family.width :=
  Nat.add_sub_cancel' n.length_le

/-- A member has the leading bits of the network, however many these are. -/
theorem contains_iff_bit (a : Address) :
    n.contains a = true ↔ a.family = n.family ∧ ∀ i < n.length, a.bit i = n.base.bit i := by
  have hwidth := n.length_add_hostBits
  rw [contains_iff, ← ((n.contains_iff _).mp n.contains_base).2]
  apply and_congr_right
  intro hf
  unfold Address.bit
  rw [hf, family_base]
  constructor
  · intro h i hi
    have hindex : n.family.width - 1 - i = n.length - 1 - i + n.hostBits := by omega
    rw [hindex, ← Nat.testBit_div_two_pow, h, Nat.testBit_div_two_pow]
  · intro h
    apply Nat.eq_of_testBit_eq
    intro j
    rw [Nat.testBit_div_two_pow, Nat.testBit_div_two_pow]
    by_cases hj : j < n.length
    · have hindex : n.family.width - 1 - (n.length - 1 - j) = j + n.hostBits := by omega
      have hbit := h (n.length - 1 - j) (by omega)
      rwa [hindex] at hbit
    · have hbeyond (b : Address) (hb : b.family = n.family) :
          b.value.testBit (j + n.hostBits) = false := by
        have hlt := b.value_lt
        rw [hb] at hlt
        apply Nat.testBit_lt_two_pow (Nat.lt_of_lt_of_le hlt _)
        exact Nat.pow_le_pow_right (by decide) (by omega)
      rw [hbeyond a hf, hbeyond _ n.family_base]

/-! ### Members as offsets -/

variable {n} in
theorem base_add_div {k : Nat} (hk : k < 2 ^ n.hostBits) :
    (n.base.value + k) / 2 ^ n.hostBits = n.address.value / 2 ^ n.hostBits := by
  rw [value_base, Nat.mul_comm, Nat.mul_add_div (Nat.two_pow_pos _), Nat.div_eq_of_lt hk,
    Nat.add_zero]

variable {n} in
theorem base_add_lt {k : Nat} (hk : k < 2 ^ n.hostBits) :
    n.base.value + k < 2 ^ n.family.width := by
  have hlt : n.address.value < 2 ^ n.hostBits * 2 ^ n.length := by
    rw [← Nat.pow_add, Nat.add_comm, n.length_add_hostBits]
    exact n.address.value_lt
  have hdiv := Nat.div_lt_of_lt_mul hlt
  rw [← base_add_div hk, Nat.div_lt_iff_lt_mul (Nat.two_pow_pos _), ← Nat.pow_add,
    n.length_add_hostBits] at hdiv
  exact hdiv

theorem pow_hostBytes : 256 ^ n.hostBytes = 2 ^ (8 * n.hostBytes) :=
  (Nat.pow_mul 2 8 n.hostBytes).symm

theorem pow_hostBytes_dvd : 256 ^ n.hostBytes ∣ 2 ^ n.hostBits := by
  rw [pow_hostBytes]
  exact Nat.pow_dvd_pow 2 (Nat.mul_div_le n.hostBits 8)

theorem pow_hostBytes_dvd_base : 256 ^ n.hostBytes ∣ n.base.value := by
  rw [value_base]
  exact Nat.dvd_mul_left_of_dvd n.pow_hostBytes_dvd _

theorem hostBytes_le : n.hostBytes ≤ n.family.width / 8 :=
  Nat.div_le_div_right (Nat.sub_le ..)

theorem hostBytes_le_sixteen : n.hostBytes ≤ 16 := by
  apply Nat.le_trans n.hostBytes_le
  cases n.family <;> decide

/-! ### The derived address -/

/-- The address for a name, as a number. -/
def derived (name : String) : Address :=
  .ofValue n.family
    (n.base.value + (Digest.fnv1a (Utf8.encode name.toList)).toNat % 256 ^ n.hostBytes)

@[simp] theorem family_derived (name : String) : (n.derived name).family = n.family :=
  Address.family_ofValue ..

theorem lt_pow_hostBits (k : Nat) : k % 256 ^ n.hostBytes < 2 ^ n.hostBits :=
  Nat.lt_of_lt_of_le (Nat.mod_lt _ (Nat.pow_pos (by decide)))
    (Nat.le_of_dvd (Nat.two_pow_pos _) n.pow_hostBytes_dvd)

/-- The sum does not overflow. -/
theorem value_derived (name : String) :
    (n.derived name).value =
      n.base.value + (Digest.fnv1a (Utf8.encode name.toList)).toNat % 256 ^ n.hostBytes := by
  rw [derived, Address.value_ofValue]
  exact Nat.mod_eq_of_lt (base_add_lt (n.lt_pow_hostBits _))

/-- Only the whole host bytes of the digest count. -/
theorem value_derived_mod (name : String) :
    (n.derived name).value % 256 ^ n.hostBytes =
      (Digest.fnv1a (Utf8.encode name.toList)).toNat % 256 ^ n.hostBytes := by
  obtain ⟨m, hm⟩ := n.pow_hostBytes_dvd_base
  rw [value_derived, hm, Nat.mul_add_mod, Nat.mod_mod]

theorem derived_eq_iff (name name' : String) :
    n.derived name = n.derived name' ↔
      (Digest.fnv1a (Utf8.encode name.toList)).toNat % 256 ^ n.hostBytes =
        (Digest.fnv1a (Utf8.encode name'.toList)).toNat % 256 ^ n.hostBytes := by
  constructor
  · intro h
    rw [← value_derived_mod, h, value_derived_mod]
  · intro h
    rw [derived, h, ← derived]

theorem contains_derived (name : String) : n.contains (n.derived name) = true := by
  rw [contains_iff, value_derived]
  exact ⟨n.family_derived name, base_add_div (n.lt_pow_hostBits _)⟩

/-- The bytes of the derived address: those of the network, and then the last ones of the digest. -/
theorem octets_derived (name : String) :
    (n.derived name).octets =
      n.base.octets.take (n.family.width / 8 - n.hostBytes) ++
        (Digest.bytes (Digest.fnv1a (Utf8.encode name.toList))).drop (16 - n.hostBytes) := by
  obtain ⟨front, hfront⟩ : ∃ front, n.family.width / 8 = front + n.hostBytes :=
    ⟨_, (Nat.sub_add_cancel n.hostBytes_le).symm⟩
  obtain ⟨spare, hspare⟩ : ∃ spare, 16 = spare + n.hostBytes :=
    ⟨_, (Nat.sub_add_cancel n.hostBytes_le_sixteen).symm⟩
  obtain ⟨m, hm⟩ := n.pow_hostBytes_dvd_base
  have hpow : 0 < 256 ^ n.hostBytes := Nat.pow_pos (by decide)
  have hhead : (n.derived name).value / 256 ^ n.hostBytes = n.base.value / 256 ^ n.hostBytes := by
    rw [value_derived, hm, Nat.mul_add_div hpow, Nat.mul_div_cancel_left _ hpow,
      Nat.div_eq_of_lt (Nat.mod_lt _ hpow), Nat.add_zero]
  have hdigits : Radix.expand 256 (front + n.hostBytes) (n.derived name).value =
      (Radix.expand 256 (front + n.hostBytes) n.base.value).take front ++
        (Radix.expand 256 (spare + n.hostBytes)
          (Digest.fnv1a (Utf8.encode name.toList)).toNat).drop spare := by
    rw [Radix.expand_add, Radix.expand_add, Radix.expand_add, List.take_left' (by simp),
      List.drop_left' (by simp), hhead, Radix.expand_congr (n.value_derived_mod name)]
  rw [Digest.bytes, hspare, Address.octets, Address.octets, family_derived, family_base, hfront,
    hdigits, List.map_append, List.map_take, List.map_drop, Nat.add_sub_cancel, Nat.add_sub_cancel]

/-- Deriving an address succeeds for every network and every name. -/
theorem derive_eq_ok (name : String) : n.derive name = .ok (n.derived name) := by
  simp only [derive, Address.length_octets, family_base, Digest.length_bytes, ← octets_derived,
    Address.ofOctets?_octets]

/-! ### Byte by byte -/

/-- Writes the last bytes of a digest over the last bytes of an address, the very last one first. It
gives up if an index is out of range. -/
def overwriteLast? (digest : List UInt8) : Nat → List UInt8 → Option (List UInt8)
  | 0, bytes => some bytes
  | i + 1, bytes => do
    let bytes ← overwriteLast? digest i bytes
    if i < bytes.length ∧ i < digest.length then
      let byte ← digest[digest.length - (i + 1)]?
      return bytes.set (bytes.length - (i + 1)) byte
    else none

theorem overwriteLast?_eq_some {digest bytes : List UInt8} {k : Nat} (hdigest : k ≤ digest.length)
    (hbytes : k ≤ bytes.length) :
    overwriteLast? digest k bytes =
      some (bytes.take (bytes.length - k) ++ digest.drop (digest.length - k)) := by
  induction k with
  | zero => simp [overwriteLast?]
  | succ i ih =>
    have hlength : (bytes.take (bytes.length - i) ++ digest.drop (digest.length - i)).length =
        bytes.length := by
      simp only [List.length_append, List.length_take, List.length_drop]
      omega
    have hindex : digest.length - (i + 1) < digest.length := by omega
    have hnext : digest.length - (i + 1) + 1 = digest.length - i := by omega
    have hnext' : bytes.length - (i + 1) + 1 = bytes.length - i := by omega
    -- The byte that is written closes the gap between what is kept and what has been written.
    have hset : (bytes.take (bytes.length - i) ++ digest.drop (digest.length - i)).set
        (bytes.length - (i + 1)) digest[digest.length - (i + 1)] =
        bytes.take (bytes.length - (i + 1)) ++ digest.drop (digest.length - (i + 1)) := by
      rw [List.set_eq_take_append_cons_drop, if_pos (by omega), hnext',
        List.drop_left' (by simp), List.take_append_of_le_length (by simp; omega), List.take_take,
        Nat.min_eq_left (by omega), List.drop_eq_getElem_cons hindex, hnext]
    rw [overwriteLast?, ih (by omega) (by omega), Option.bind_eq_bind, Option.bind_some, hlength,
      List.getElem?_eq_getElem hindex, if_pos ⟨hbytes, hdigest⟩, Option.bind_eq_bind,
      Option.bind_some, hset]
    rfl

/-- No index is out of range for any network. -/
theorem overwriteLast?_base (name : String) :
    overwriteLast? (Digest.bytes (Digest.fnv1a (Utf8.encode name.toList))) n.hostBytes
      n.base.octets = some (n.derived name).octets := by
  rw [overwriteLast?_eq_some, octets_derived, Address.length_octets, family_base,
    Digest.length_bytes]
  · rw [Digest.length_bytes]
    exact n.hostBytes_le_sixteen
  · rw [Address.length_octets, family_base]
    exact n.hostBytes_le

end Network

end OverlayTunnel
