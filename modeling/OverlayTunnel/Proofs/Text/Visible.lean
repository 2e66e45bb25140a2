import OverlayTunnel.Text.Blank
import OverlayTunnel.Text.Numeral
import OverlayTunnel.Text.Utf8

/-!
Visible characters. Numerals, addresses and keys consist of them, so their texts can stand next to
blanks, tabs and line breaks without being torn apart or losing anything.
-/
namespace OverlayTunnel

namespace Text

/-- The characters of ASCII that leave a mark on paper. -/
def isVisible (c : Char) : Bool :=
  33 ≤ c.toNat && c.toNat ≤ 126

theorem isVisible_iff {c : Char} : isVisible c = true ↔ 33 ≤ c.toNat ∧ c.toNat ≤ 126 := by
  simp [isVisible]

theorem isBlank_of_isVisible {c : Char} (h : isVisible c = true) : isBlank c = false := by
  have hc := isVisible_iff.mp h
  simp only [isBlank, Bool.or_eq_false_iff, Bool.and_eq_false_iff, decide_eq_false_iff_not,
    beq_eq_false_iff_ne]
  omega

theorem ne_of_isVisible {c d : Char} (h : isVisible c = true) (hd : isVisible d = false) : c ≠ d := by
  rintro rfl
  rw [h] at hd
  cases hd

theorem not_mem_of_isVisible {s : List Char} {d : Char} (h : ∀ c ∈ s, isVisible c = true)
    (hd : isVisible d = false) : d ∉ s :=
  fun hm => ne_of_isVisible (h d hm) hd rfl

theorem forall_mem_intercalate {P : Char → Prop} {separator : List Char} {parts : List (List Char)}
    (hseparator : ∀ c ∈ separator, P c) (h : ∀ part ∈ parts, ∀ c ∈ part, P c) :
    ∀ c ∈ separator.intercalate parts, P c := by
  induction parts with
  | nil => simp
  | cons part parts ih =>
    have hpart := h part List.mem_cons_self
    have hparts := ih fun q hq => h q (List.mem_cons_of_mem _ hq)
    intro c hc
    cases parts with
    | nil => exact hpart c (by simpa using hc)
    | cons next parts =>
      rw [List.intercalate_cons_cons, List.append_assoc, List.mem_append, List.mem_append] at hc
      rcases hc with hc | hc | hc
      · exact hpart c hc
      · exact hseparator c hc
      · exact hparts c hc

theorem trim_append_of_blank (s : List Char) {after : List Char}
    (h : ∀ c ∈ after, isBlank c = true) : trim (s ++ after) = trim s := by
  have hafter : trimStart after = [] := by
    rw [← List.append_nil after, trimStart_append_of_blank h]
    rfl
  have hstart : trimStart (s ++ after) =
      if (trimStart s).isEmpty then trimStart after else trimStart s ++ after :=
    List.dropWhile_append
  rw [trim, trim, hstart]
  split
  next hs => rw [hafter, List.isEmpty_iff.mp hs]
  next => exact trimEnd_append_of_blank h

/-- Blanks at both ends of a text do not matter. -/
theorem trim_between_blanks {before after : List Char} (hbefore : ∀ c ∈ before, isBlank c = true)
    (s : List Char) (hafter : ∀ c ∈ after, isBlank c = true) :
    trim (before ++ s ++ after) = trim s := by
  rw [trim_append_of_blank _ hafter, trim, trimStart_append_of_blank hbefore, trim]

theorem trimmed_eq_iff {s : String} {cs : List Char} :
    trimmed s = String.ofList cs ↔ trim s.toList = cs := by
  rw [← toList_trimmed]
  constructor
  · intro h
    rw [h, String.toList_ofList]
  · rintro rfl
    rw [String.ofList_toList]

/-- There is nothing to trim from visible characters. -/
theorem trim_of_isVisible {s : List Char} (h : ∀ c ∈ s, isVisible c = true) : trim s = s := by
  apply trim_eq_self
  · intro c hc
    exact isBlank_of_isVisible (h c (List.mem_of_head? hc))
  · intro c hc
    exact isBlank_of_isVisible (h c (List.mem_of_getLast? hc))

end Text

/-- Visible characters are encoded as one byte each. -/
theorem Utf8.encode_of_isVisible {s : List Char} (h : ∀ c ∈ s, Text.isVisible c = true) :
    encode s = s.map fun c => UInt8.ofNat c.toNat := by
  induction s with
  | nil => rfl
  | cons c s ih =>
    have hc := (Text.isVisible_iff.mp (h c List.mem_cons_self)).2
    have hsize : c.utf8Size = 1 := by
      rw [Char.utf8Size_eq_one_iff, UInt32.le_iff_toNat_le]
      exact Nat.le_trans hc (by decide)
    have hbyte : String.utf8EncodeChar c = [UInt8.ofNat c.toNat] :=
      String.utf8EncodeChar_eq_singleton hsize
    rw [encode, List.flatMap_cons, hbyte, List.map_cons, ← ih fun d hd => h d (List.mem_cons_of_mem _ hd)]
    rfl

namespace Numeral

theorem isDigit_range {base : Nat} {c : Char} (h : isDigit base c = true) :
    (48 ≤ c.toNat ∧ c.toNat ≤ 57) ∨ (97 ≤ c.toNat ∧ c.toNat ≤ 102) ∨
      (65 ≤ c.toNat ∧ c.toNat ≤ 70) := by
  refine Decidable.byContradiction fun hno => ?_
  simp only [not_or] at hno
  simp [isDigit, digitValue?, hno] at h

theorem isVisible_of_isDigit {base : Nat} {c : Char} (h : isDigit base c = true) :
    Text.isVisible c = true := by
  have hc := isDigit_range h
  rw [Text.isVisible_iff]
  omega

theorem isVisible_of_mem_toDigits {base n : Nat} (h1 : 1 < base) (h16 : base ≤ 16) :
    ∀ c ∈ Nat.toDigits base n, Text.isVisible c = true :=
  fun c hc => isVisible_of_isDigit (isDigit_of_mem_toDigits h1 h16 c hc)

/-! ### Reading what was written -/

theorem le_valueFrom (acc : Nat) (cs : List Char) : acc ≤ valueFrom 10 acc cs := by
  induction cs generalizing acc with
  | nil => exact Nat.le_refl _
  | cons c cs ih =>
    have h := ih (acc * 10 + (digitValue? 10 c).getD 0)
    rw [valueFrom, List.foldl_cons, ← valueFrom]
    omega

theorem readFrom_eq {max : Nat} (acc : Nat) {cs : List Char} (hdigits : ∀ c ∈ cs, isDigit 10 c = true)
    (hmax : valueFrom 10 acc cs ≤ max) : readFrom max acc cs = .ok (valueFrom 10 acc cs) := by
  induction cs generalizing acc with
  | nil => rfl
  | cons c cs ih =>
    obtain ⟨d, hd⟩ := Option.isSome_iff_exists.mp (hdigits c List.mem_cons_self)
    have hcons : valueFrom 10 acc (c :: cs) = valueFrom 10 (acc * 10 + d) cs := by
      simp [valueFrom, hd]
    rw [hcons] at hmax ⊢
    have hle := le_valueFrom (acc * 10 + d) cs
    rw [readFrom, hd]
    dsimp only
    rw [if_pos (by omega), ih _ (fun c hc => hdigits c (List.mem_cons_of_mem _ hc)) hmax]

/-- A number within the range is read back from its digits. -/
theorem readNat_toDigits {max n : Nat} (h : n ≤ max) : readNat max (Nat.toDigits 10 n) = .ok n := by
  have hdigits := isDigit_of_mem_toDigits (n := n) (by decide : 1 < 10) (by decide)
  have hvalue : valueFrom 10 0 (Nat.toDigits 10 n) = n := value_toDigits (by decide) (by decide)
  have hread := readFrom_eq 0 hdigits (show valueFrom 10 0 (Nat.toDigits 10 n) ≤ max by omega)
  rw [hvalue] at hread
  rw [← hread]
  cases hs : Nat.toDigits 10 n with
  | nil => exact absurd hs Nat.toDigits_ne_nil
  | cons c cs =>
    have hplus : c ≠ '+' := by
      rintro rfl
      rw [hs] at hdigits
      exact absurd (hdigits '+' List.mem_cons_self) (by decide)
    unfold readNat
    split
    · next h => cases h
    · next h => exact absurd (List.cons.inj h).1 hplus
    · next h => exact absurd (List.cons.inj h).1 hplus
    · rfl

/-! ### What can be read -/

/-- The texts of a number: one or more decimal digits, with or without a plus sign in front. -/
def Denotes (s : List Char) (n : Nat) : Prop :=
  ∃ digits, digits ≠ [] ∧ (∀ c ∈ digits, isDigit 10 c = true) ∧ value 10 digits = n ∧
    (s = digits ∨ s = '+' :: digits)

theorem readFrom_eq_ok_iff {max acc n : Nat} {cs : List Char} (hacc : acc ≤ max) :
    readFrom max acc cs = .ok n ↔
      (∀ c ∈ cs, isDigit 10 c = true) ∧ valueFrom 10 acc cs = n ∧ n ≤ max := by
  constructor
  · intro h
    induction cs generalizing acc with
    | nil =>
      cases h
      exact ⟨by simp, rfl, hacc⟩
    | cons c cs ih =>
      rw [readFrom] at h
      cases hd : digitValue? 10 c with
      | none =>
        rw [hd] at h
        cases h
      | some d =>
        rw [hd] at h
        dsimp only at h
        split at h
        next hle =>
          obtain ⟨hdigits, hvalue, hmax⟩ := ih hle h
          refine ⟨List.forall_mem_cons.mpr ⟨by simp [isDigit, hd], hdigits⟩, ?_, hmax⟩
          rw [valueFrom, List.foldl_cons, hd]
          exact hvalue
        next => cases h
  · rintro ⟨hdigits, rfl, hmax⟩
    exact readFrom_eq acc hdigits hmax

theorem readNat_digits {max : Nat} {cs : List Char} (hne : cs ≠ [])
    (hdigits : ∀ c ∈ cs, isDigit 10 c = true) : readNat max cs = readFrom max 0 cs := by
  have hplus : '+' ∉ cs := fun h => absurd (hdigits '+' h) (by decide)
  unfold readNat
  split
  · exact absurd rfl hne
  · exact absurd List.mem_cons_self hplus
  · exact absurd List.mem_cons_self hplus
  · rfl

theorem readNat_plus {max : Nat} {cs : List Char} (hne : cs ≠ []) :
    readNat max ('+' :: cs) = readFrom max 0 cs := by
  cases cs with
  | nil => exact absurd rfl hne
  | cons c cs => rfl

/-- The texts of the numbers in range are read, and no others. -/
theorem readNat_eq_ok_iff {max n : Nat} {s : List Char} :
    readNat max s = .ok n ↔ Denotes s n ∧ n ≤ max := by
  constructor
  · intro h
    unfold readNat at h
    split at h
    next => cases h
    next => cases h
    next cs hmore =>
      obtain ⟨hdigits, hvalue, hmax⟩ := (readFrom_eq_ok_iff (Nat.zero_le _)).mp h
      refine ⟨⟨cs, ?_, hdigits, hvalue, .inr rfl⟩, hmax⟩
      rintro rfl
      exact hmore rfl
    next hne _ _ =>
      obtain ⟨hdigits, hvalue, hmax⟩ := (readFrom_eq_ok_iff (Nat.zero_le _)).mp h
      exact ⟨⟨s, hne, hdigits, hvalue, .inl rfl⟩, hmax⟩
  · rintro ⟨⟨digits, hne, hdigits, hvalue, rfl | rfl⟩, hmax⟩
    · rw [readNat_digits hne hdigits]
      exact (readFrom_eq_ok_iff (Nat.zero_le _)).mpr ⟨hdigits, hvalue, hmax⟩
    · rw [readNat_plus hne]
      exact (readFrom_eq_ok_iff (Nat.zero_le _)).mpr ⟨hdigits, hvalue, hmax⟩

end Numeral

end OverlayTunnel
