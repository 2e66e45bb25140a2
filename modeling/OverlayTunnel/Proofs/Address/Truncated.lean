import Mathlib.Data.List.DropRight
import OverlayTunnel.Proofs.Address.Derived
import OverlayTunnel.Proofs.Digest.LowBits

/-!
The last bytes of the digest, computed with numbers of just that many bytes. An address that is derived
from a name takes no more of the digest than its last bytes, so it needs no wider numbers either.
-/
namespace OverlayTunnel

/-- The last digits of an expansion are the expansion to that many digits. -/
theorem Radix.rtake_map_expand {α : Type} (f : Nat → α) {base j k : Nat} (h : j ≤ k) (n : Nat) :
    ((expand base k n).map f).rtake j = (expand base j n).map f := by
  have hsplit := expand_add base (k - j) j n
  rw [Nat.sub_add_cancel h] at hsplit
  rw [List.rtake, List.length_map, length_expand, hsplit, List.map_append]
  exact List.drop_left' (by simp)

namespace Digest

/-- What absorbing a byte does in arithmetic modulo `m`. -/
def absorbMod (m hash : Nat) (byte : UInt8) : Nat :=
  (hash ^^^ byte.toNat) * (prime.toNat % m) % m

/-- The digest in arithmetic modulo `m` from the start on. -/
def fnv1aMod (m : Nat) (data : List UInt8) : Nat :=
  data.foldl (absorbMod m) (offsetBasis.toNat % m)

variable {w k : Nat}

/-- A byte may be wider than the digest: the product that follows is reduced in any case. -/
theorem toNat_absorbLow (low : BitVec w) (byte : UInt8) :
    (absorbLow w low byte).toNat = absorbMod (2 ^ w) low.toNat byte := by
  have hbyte : (low.toNat ^^^ byte.toNat % 2 ^ w) % 2 ^ w = (low.toNat ^^^ byte.toNat) % 2 ^ w := by
    rw [Nat.xor_mod_two_pow, Nat.mod_mod, ← Nat.xor_mod_two_pow]
  calc
    (absorbLow w low byte).toNat
        = (low.toNat ^^^ byte.toNat % 2 ^ w) * (prime.toNat % 2 ^ w) % 2 ^ w := by
      rw [absorbLow, BitVec.toNat_mul, BitVec.toNat_xor, BitVec.toNat_setWidth,
        BitVec.toNat_setWidth, UInt8.toNat_toBitVec]
    _ = absorbMod (2 ^ w) low.toNat byte := by
      rw [absorbMod, Nat.mul_mod, hbyte, ← Nat.mul_mod]

theorem toNat_foldl_absorbLow (low : BitVec w) (data : List UInt8) :
    (data.foldl (absorbLow w) low).toNat = data.foldl (absorbMod (2 ^ w)) low.toNat := by
  induction data generalizing low with
  | nil => rfl
  | cons byte data ih => rw [List.foldl_cons, List.foldl_cons, ih, toNat_absorbLow]

theorem toNat_fnv1a_mod (hw : w ≤ 128) (data : List UInt8) :
    (fnv1a data).toNat % 2 ^ w = fnv1aMod (2 ^ w) data := by
  rw [← BitVec.toNat_setWidth, fnv1a, setWidth_foldl_absorb hw, toNat_foldl_absorbLow,
    BitVec.toNat_setWidth, fnv1aMod]

theorem toNat_fnv1a_mod_bytes (hk : k ≤ 16) (data : List UInt8) :
    (fnv1a data).toNat % 256 ^ k = fnv1aMod (256 ^ k) data := by
  have hpow : 256 ^ k = 2 ^ (8 * k) := (Nat.pow_mul 2 8 k).symm
  rw [hpow]
  exact toNat_fnv1a_mod (by omega) data

theorem rtake_bytes (hk : k ≤ 16) (hash : BitVec 128) :
    (bytes hash).rtake k = (Radix.expand 256 k hash.toNat).map UInt8.ofNat :=
  Radix.rtake_map_expand UInt8.ofNat hk hash.toNat

/-- The last bytes of a digest as a number. -/
theorem value_rtake_bytes (hk : k ≤ 16) (hash : BitVec 128) :
    Radix.value 256 (((bytes hash).rtake k).map UInt8.toNat) = hash.toNat % 256 ^ k := by
  rw [rtake_bytes hk, Radix.toNat_bytes_expand, Radix.value_expand]

end Digest

namespace Network

/-- As far as whole host bytes reach, the last bytes of a derived address are those of the digest. -/
theorem rtake_octets_derived (n : Network) (name : String) {j : Nat} (hj : j ≤ n.hostBytes) :
    (n.derived name).octets.rtake j =
      (Digest.bytes (Digest.fnv1a (Utf8.encode name.toList))).rtake j := by
  have hwidth : j ≤ (n.derived name).family.width / 8 := by
    rw [family_derived]
    exact Nat.le_trans hj n.hostBytes_le
  have hsame : (n.derived name).value % 256 ^ j =
      (Digest.fnv1a (Utf8.encode name.toList)).toNat % 256 ^ j := by
    have hdvd : 256 ^ j ∣ 256 ^ n.hostBytes := Nat.pow_dvd_pow 256 hj
    rw [← Nat.mod_mod_of_dvd _ hdvd, value_derived_mod, Nat.mod_mod_of_dvd _ hdvd]
  rw [Digest.rtake_bytes (Nat.le_trans hj n.hostBytes_le_sixteen), Address.octets,
    Radix.rtake_map_expand UInt8.ofNat hwidth, Radix.expand_congr hsame]

/-- The last bytes of the digest are the digest in arithmetic of just that many bytes. This is what a
derived address adds to that of its network, and the addresses of one name in two networks end in as many
equal bytes as both networks leave to their members. -/
theorem derive_truncated {k : Nat} (hk : k ≤ 16) :
    (∀ data : List UInt8,
      Radix.value 256 (((Digest.bytes (Digest.fnv1a data)).rtake k).map UInt8.toNat) =
        Digest.fnv1aMod (256 ^ k) data) ∧
    (∀ (n : Network) (name : String), n.hostBytes = k →
      ∃ a, n.derive name = .ok a ∧ a.family = n.family ∧
        a.value = n.base.value + Digest.fnv1aMod (256 ^ k) (Utf8.encode name.toList)) ∧
    (∀ (n n' : Network) (name : String),
      ∃ a a', n.derive name = .ok a ∧ n'.derive name = .ok a' ∧
        a.octets.rtake (min n.hostBytes n'.hostBytes) =
          a'.octets.rtake (min n.hostBytes n'.hostBytes)) := by
  refine ⟨?_, ?_, ?_⟩
  · intro data
    rw [Digest.value_rtake_bytes hk, Digest.toNat_fnv1a_mod_bytes hk]
  · rintro n name rfl
    refine ⟨n.derived name, n.derive_eq_ok name, n.family_derived name, ?_⟩
    rw [value_derived, Digest.toNat_fnv1a_mod_bytes hk]
  · intro n n' name
    refine ⟨n.derived name, n'.derived name, n.derive_eq_ok name, n'.derive_eq_ok name, ?_⟩
    rw [n.rtake_octets_derived name (Nat.min_le_left ..),
      n'.rtake_octets_derived name (Nat.min_le_right ..)]

/-- One byte of the digest of a name, in a network of version 4 and in one of version 6. -/
theorem derive_truncated_node :
    1 ≤ 16 ∧ (⟨.v4 0x0A000000, 24, by decide⟩ : Network).hostBytes = 1 ∧
    (⟨.v6 0xFD000000000000000000000000000000, 64, by decide⟩ : Network).hostBytes = 8 ∧
    ∃ a a', (⟨.v4 0x0A000000, 24, by decide⟩ : Network).derive "node-1" = .ok a ∧
      (⟨.v6 0xFD000000000000000000000000000000, 64, by decide⟩ : Network).derive "node-1" = .ok a' ∧
      a.value = 0x0A0000D3 ∧ a'.octets.rtake 1 = [0xD3] := by
  have hone : 1 ≤ 16 := by decide
  obtain ⟨-, hadded, hcommon⟩ := derive_truncated hone
  obtain ⟨a, ha, -, hvalue⟩ := hadded ⟨.v4 0x0A000000, 24, by decide⟩ "node-1" (by decide)
  obtain ⟨b, a', hb, ha', hlast⟩ := hcommon ⟨.v4 0x0A000000, 24, by decide⟩
    ⟨.v6 0xFD000000000000000000000000000000, 64, by decide⟩ "node-1"
  obtain rfl : a = b := Except.ok.inj (ha.symm.trans hb)
  have hdigest : Digest.fnv1aMod (256 ^ 1) (Utf8.encode "node-1".toList) = 0xD3 := by decide
  have hbase : (⟨.v4 0x0A000000, 24, by decide⟩ : Network).base.value = 0x0A000000 := by decide
  rw [hdigest, hbase] at hvalue
  have hfamily : a.family = .v4 := by
    rw [derive_eq_ok] at ha
    rw [← Except.ok.inj ha, family_derived]
    rfl
  refine ⟨hone, by decide, by decide, a, a', ha, ha', hvalue, hlast.symm.trans ?_⟩
  change a.octets.rtake 1 = [0xD3]
  rw [Address.octets, hfamily, hvalue]
  decide

end Network

end OverlayTunnel
