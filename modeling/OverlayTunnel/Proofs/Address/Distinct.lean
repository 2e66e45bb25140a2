import OverlayTunnel.Proofs.Address.Derived
import OverlayTunnel.Proofs.Digest.LowBits

/-!
Which names are kept apart for certain: those that differ in one byte, wherever a network leaves a whole
byte to its members.
-/
namespace OverlayTunnel

/-- Bytes of the same number that differ in one place. -/
def OneByteApart (xs ys : List UInt8) : Prop :=
  xs.length = ys.length ∧ ∃ i : Nat, xs[i]? ≠ ys[i]? ∧ ∀ j : Nat, j ≠ i → xs[j]? = ys[j]?

theorem OneByteApart.split {xs ys : List UInt8} (h : OneByteApart xs ys) :
    ∃ head x y tail, xs = head ++ x :: tail ∧ ys = head ++ y :: tail ∧ x ≠ y := by
  obtain ⟨hlength, i, hne, hsame⟩ := h
  by_cases hi : i < xs.length
  · have hi' : i < ys.length := hlength ▸ hi
    have hhead : ys.take i = xs.take i := by
      apply List.ext_getElem?
      intro j
      rw [List.getElem?_take, List.getElem?_take]
      split
      · exact (hsame j (by omega)).symm
      · rfl
    have htail : ys.drop (i + 1) = xs.drop (i + 1) := by
      apply List.ext_getElem?
      intro j
      rw [List.getElem?_drop, List.getElem?_drop]
      exact (hsame _ (by omega)).symm
    refine ⟨xs.take i, xs[i], ys[i], xs.drop (i + 1), ?_, ?_, ?_⟩
    · rw [← List.drop_eq_getElem_cons, List.take_append_drop]
    · rw [← hhead, ← htail, ← List.drop_eq_getElem_cons, List.take_append_drop]
    · rintro he
      rw [List.getElem?_eq_getElem hi, List.getElem?_eq_getElem hi', he] at hne
      exact hne rfl
  · rw [List.getElem?_eq_none (by omega), List.getElem?_eq_none (by omega)] at hne
    exact absurd rfl hne

/-- One byte that differs makes the lowest byte of the digest differ. -/
theorem OneByteApart.fnv1a_mod_ne {xs ys : List UInt8} (h : OneByteApart xs ys) :
    (Digest.fnv1a xs).toNat % 256 ≠ (Digest.fnv1a ys).toNat % 256 := by
  obtain ⟨head, x, y, tail, rfl, rfl, hne⟩ := h.split
  intro hmod
  apply hne
  rw [← Digest.setWidth_fnv1a_inj head tail]
  exact BitVec.eq_of_toNat_eq (by rw [BitVec.toNat_setWidth, BitVec.toNat_setWidth]; exact hmod)

namespace Network

/-- Names that differ in one byte get different addresses exactly in networks that leave eight bits or
more to their members. -/
theorem derive_distinct_iff (n : Network) {name name' : String}
    (h : OneByteApart (Utf8.encode name.toList) (Utf8.encode name'.toList)) :
    ∃ a a', n.derive name = .ok a ∧ n.derive name' = .ok a' ∧
      (a ≠ a' ↔ 8 ≤ n.family.width - n.length) := by
  refine ⟨_, _, n.derive_eq_ok name, n.derive_eq_ok name', ?_⟩
  rw [Ne, derived_eq_iff]
  constructor
  · intro hne
    apply Nat.le_of_not_lt
    intro hbits
    have hbytes : n.hostBytes = 0 := Nat.div_eq_of_lt hbits
    rw [hbytes, Nat.pow_zero, Nat.mod_one, Nat.mod_one] at hne
    exact hne rfl
  · intro hbits heq
    have hbytes : 1 ≤ n.hostBytes := (Nat.le_div_iff_mul_le (by decide)).mpr hbits
    have hdvd : 256 ^ 1 ∣ 256 ^ n.hostBytes := Nat.pow_dvd_pow 256 hbytes
    apply h.fnv1a_mod_ne
    rw [Nat.pow_one] at hdvd
    rw [← Nat.mod_mod_of_dvd _ hdvd, heq, Nat.mod_mod_of_dvd _ hdvd]

/-- The last byte of two names, and an address of which a byte is left to members. -/
theorem derive_distinct_nodes :
    OneByteApart (Utf8.encode "node-1".toList) (Utf8.encode "node-2".toList) ∧
    ∃ a a', (⟨.v4 0x0A000000, 24, by decide⟩ : Network).derive "node-1" = .ok a ∧
      (⟨.v4 0x0A000000, 24, by decide⟩ : Network).derive "node-2" = .ok a' ∧ a ≠ a' := by
  have h : OneByteApart (Utf8.encode "node-1".toList) (Utf8.encode "node-2".toList) := by
    have hfirst : Utf8.encode "node-1".toList = [110, 111, 100, 101, 45, 49] := by decide +kernel
    have hsecond : Utf8.encode "node-2".toList = [110, 111, 100, 101, 45, 50] := by decide +kernel
    rw [hfirst, hsecond]
    refine ⟨rfl, 5, by decide, ?_⟩
    intro j hj
    match j with
    | 0 | 1 | 2 | 3 | 4 => rfl
    | 5 => exact absurd rfl hj
    | j + 6 => rfl
  obtain ⟨a, a', ha, ha', hiff⟩ := derive_distinct_iff ⟨.v4 0x0A000000, 24, by decide⟩ h
  exact ⟨h, a, a', ha, ha', hiff.mpr (by decide)⟩

end Network

end OverlayTunnel
