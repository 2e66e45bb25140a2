import OverlayTunnel.Proofs.Address.Derived
import OverlayTunnel.Proofs.Reconciler.Setup

/-!
Which address a node is assigned. Whatever the explicit text is, an address that is assigned is a member
of the network, so the address of every reconciler is.
-/
namespace OverlayTunnel.Network

/-- What follows from an explicit text without the blanks around it. -/
inductive Choice (n : Network) (name text : String) : Except Failure Address → Prop
  | blank (h : text = "") : Choice n name text (.ok (n.derived name))
  | invalid (h : text ≠ "") (ha : Address.ofText? text = none) :
    Choice n name text (.error (.invalidAddress text))
  | unspecified {a : Address} (ha : Address.ofText? text = some a)
    (hu : a.isUnspecified = true) : Choice n name text (.ok (n.derived name))
  | outside {a : Address} (ha : Address.ofText? text = some a) (hu : a.isUnspecified = false)
    (hn : n.contains a = false) : Choice n name text (.error (.addressOutside a n))
  | own {a : Address} (ha : Address.ofText? text = some a) (hu : a.isUnspecified = false)
    (hn : n.contains a = true) : Choice n name text (.ok a)

variable {n : Network} {name text : String} {explicit : Option String}
  {result : Except Failure Address}

/-- No address is written with no characters. -/
theorem ne_empty {a : Address} (ha : Address.ofText? text = some a) : text ≠ "" := by
  rintro rfl
  cases ha

theorem assign_eq_iff : n.assign name explicit = result ↔
    Choice n name (Text.trimmed (explicit.getD "")) result := by
  unfold assign
  rw [derive_eq_ok]
  generalize Text.trimmed (explicit.getD "") = text
  dsimp only
  constructor
  · rintro rfl
    by_cases hempty : text.toList = []
    · rw [if_pos hempty]
      exact .blank (String.toList_eq_nil_iff.mp hempty)
    · have h : text ≠ "" := fun h => hempty (String.toList_eq_nil_iff.mpr h)
      rw [if_neg hempty]
      cases ha : Address.ofText? text with
      | none => exact .invalid h ha
      | some a =>
        dsimp only
        cases hu : a.isUnspecified with
        | true => exact .unspecified ha hu
        | false =>
          cases hn : n.contains a with
          | true => exact .own ha hu hn
          | false => exact .outside ha hu hn
  · intro h
    cases h with
    | blank h => simp [h]
    | invalid h ha => simp [h, ha]
    | unspecified ha hu => simp [ne_empty ha, ha, hu]
    | outside ha hu hn => simp [ne_empty ha, ha, hu, hn]
    | own ha hu hn => simp [ne_empty ha, ha, hu, hn]

theorem assign_eq_invalid_iff {s : String} :
    n.assign name explicit = .error (.invalidAddress s) ↔
      s = Text.trimmed (explicit.getD "") ∧ Text.trimmed (explicit.getD "") ≠ "" ∧
        Address.ofText? (Text.trimmed (explicit.getD "")) = none := by
  rw [assign_eq_iff]
  constructor
  · intro h
    cases h with
    | invalid h ha => exact ⟨rfl, h, ha⟩
  · rintro ⟨rfl, h, ha⟩
    exact .invalid h ha

theorem assign_eq_outside_iff {a : Address} {m : Network} :
    n.assign name explicit = .error (.addressOutside a m) ↔
      m = n ∧ Address.ofText? (Text.trimmed (explicit.getD "")) = some a ∧
        a.isUnspecified = false ∧ n.contains a = false := by
  rw [assign_eq_iff]
  constructor
  · intro h
    cases h with
    | outside ha hu hn => exact ⟨rfl, ha, hu, hn⟩
  · rintro ⟨rfl, ha, hu, hn⟩
    exact .outside ha hu hn

theorem assign_ne_underivable (reason : String) :
    n.assign name explicit ≠ .error (.underivable reason) := by
  intro h
  cases assign_eq_iff.mp h

/-- Every address that is assigned is a member. -/
theorem contains_of_assign {a : Address} (h : n.assign name explicit = .ok a) :
    n.contains a = true := by
  cases assign_eq_iff.mp h with
  | blank => exact n.contains_derived name
  | unspecified => exact n.contains_derived name
  | own _ _ hn => exact hn

/-- An explicit address is assigned if it names a host of the network, or if it is the unspecified one and
the derivation leads to it as well. -/
theorem assign_eq_ok_iff {a : Address}
    (ha : Address.ofText? (Text.trimmed (explicit.getD "")) = some a) :
    n.assign name explicit = .ok a ↔ a.isUnspecified = false ∧ n.contains a = true ∨
      a.isUnspecified = true ∧ a = n.derived name := by
  rw [assign_eq_iff]
  constructor
  · intro h
    generalize hresult : Except.ok a = result at h
    cases h with
    | blank h =>
      rw [h] at ha
      cases ha
    | unspecified hb hu =>
      cases hresult
      rw [ha] at hb
      cases hb
      exact .inr ⟨hu, rfl⟩
    | own hb hu hn =>
      cases hresult
      exact .inl ⟨hu, hn⟩
    | invalid => cases hresult
    | outside => cases hresult
  · rintro (⟨hu, hn⟩ | ⟨hu, hderived⟩)
    · exact .own ha hu hn
    · rw [hderived]
      exact .unspecified ha hu

/-- Which address is assigned and which explicit texts are refused, for every network and every name. The
unspecified address stands for none, but the derived address may be the same one. -/
theorem assign_outcome (n : Network) (name : String) (explicit : Option String) :
    let text := Text.trimmed (explicit.getD "")
    let digest := Digest.fnv1a (Utf8.encode name.toList)
    (∀ s, n.assign name explicit = .error (.invalidAddress s) ↔
      s = text ∧ text ≠ "" ∧ Address.ofText? text = none) ∧
    (∀ a m, n.assign name explicit = .error (.addressOutside a m) ↔
      m = n ∧ Address.ofText? text = some a ∧ a.isUnspecified = false ∧ n.contains a = false) ∧
    (∀ a, Address.ofText? text = some a → (n.assign name explicit = .ok a ↔
      a.isUnspecified = false ∧ n.contains a = true ∨
        a.isUnspecified = true ∧ a = n.derived name)) ∧
    (text = "" ∨ (∃ a, Address.ofText? text = some a ∧ a.isUnspecified = true) →
      n.assign name explicit = .ok (n.derived name)) ∧
    (n.derived name).value =
      n.base.value + digest.toNat % 256 ^ ((n.family.width - n.length) / 8) ∧
    (∀ a, n.assign name explicit = .ok a →
      a.family = n.family ∧ ∀ i < n.length, a.bit i = n.base.bit i) ∧
    (∀ reason, n.assign name explicit ≠ .error (.underivable reason)) ∧
    (overwriteLast? (Digest.bytes digest) n.hostBytes n.base.octets =
        some (n.derived name).octets ∧
      Address.ofOctets? (n.derived name).octets = some (n.derived name) ∧
      n.derive name = .ok (n.derived name)) ∧
    ∀ (c : Config) (key : PrivateKey) (r : Reconciler), Reconciler.create c name key = .ok r →
      r.network.contains r.identity.overlayAddress = true := by
  intro text digest
  refine ⟨fun s => assign_eq_invalid_iff, fun a m => assign_eq_outside_iff,
    fun a => assign_eq_ok_iff, ?_, n.value_derived name, ?_, assign_ne_underivable, ?_, ?_⟩
  · rintro (hblank | ⟨a, ha, hu⟩)
    · exact assign_eq_iff.mpr (.blank hblank)
    · exact assign_eq_iff.mpr (.unspecified ha hu)
  · intro a ha
    exact (n.contains_iff_bit a).mp (contains_of_assign ha)
  · exact ⟨n.overwriteLast?_base name, Address.ofOctets?_octets _, n.derive_eq_ok name⟩
  · intro c key r h
    obtain ⟨-, a, ha, rfl⟩ := Reconciler.create_eq_ok_iff.mp h
    exact contains_of_assign ha

/-- A network with host bits and half a byte too many: one byte of the digest is used. -/
theorem assign_outcome_sample :
    let n : Network := ⟨.v4 0xAC140507, 20, by decide⟩
    n.assign "node-a" (some " :: ") = .ok (.v4 0xAC1400C3) ∧
    n.assign "node-a" (some "172.20.15.1") = .ok (.v4 0xAC140F01) ∧
    n.assign "node-a" (some "fd00::1") =
      .error (.addressOutside (.v6 0xFD000000000000000000000000000001) n) ∧
    n.assign "node-a" (some "172.20.0.300") = .error (.invalidAddress "172.20.0.300") := by
  intro n
  obtain ⟨-, -, -, hderived, -⟩ := assign_outcome n "node-a" (some " :: ")
  obtain ⟨-, -, hown, -⟩ := assign_outcome n "node-a" (some "172.20.15.1")
  obtain ⟨-, houtside, -⟩ := assign_outcome n "node-a" (some "fd00::1")
  obtain ⟨hinvalid, -⟩ := assign_outcome n "node-a" (some "172.20.0.300")
  have hvalue : n.derived "node-a" = .v4 0xAC1400C3 := by decide +kernel
  have hmember : n.contains (.v4 0xAC140F01) = true := by decide +kernel
  rw [hvalue] at hderived
  refine ⟨hderived (.inr ⟨.v6 0, by rfl, rfl⟩), ?_, ?_, ?_⟩
  · exact (hown _ (by rfl)).mpr (.inl ⟨rfl, hmember⟩)
  · exact (houtside _ n).mpr ⟨rfl, by rfl, rfl, rfl⟩
  · exact (hinvalid _).mpr ⟨by rfl, by decide, by rfl⟩

/-- An explicit address may be assigned though it is unspecified: a network without host bytes whose own
address is the unspecified one has no other derived address. -/
theorem not_assign_iff_specified :
    ¬ ∀ (n : Network) (name : String) (explicit : Option String) (a : Address),
      Address.ofText? (Text.trimmed (explicit.getD "")) = some a →
      (n.assign name explicit = .ok a ↔ a.isUnspecified = false ∧ n.contains a = true) := by
  intro hall
  have htext : Address.ofText? (Text.trimmed ((some "0.0.0.0").getD "")) = some (.v4 0) := by rfl
  have hderived : (⟨.v4 0, 32, by decide⟩ : Network).derived "node-a" = .v4 0 := by decide +kernel
  have hassigned : (⟨.v4 0, 32, by decide⟩ : Network).assign "node-a" (some "0.0.0.0") =
      .ok (.v4 0) :=
    (assign_eq_ok_iff htext).mpr (.inr ⟨rfl, hderived.symm⟩)
  obtain ⟨hspecified, -⟩ := (hall _ _ _ _ htext).mp hassigned
  cases hspecified

end OverlayTunnel.Network
