import OverlayTunnel.Address.Text
import OverlayTunnel.Proofs.Text.Visible

/-!
Addresses are read back from their texts, whatever stands behind them that does not go on with the
address. Both dialects read what is written.
-/
namespace OverlayTunnel.Address

open Numeral

/-- Texts that do not begin with a digit of a given base. -/
def NoDigit (base : Nat) (rest : List Char) : Prop :=
  ∀ c, rest.head? = some c → isDigit base c = false

theorem noDigit_cons {base : Nat} {c : Char} {rest : List Char} :
    NoDigit base (c :: rest) ↔ isDigit base c = false := by
  simp [NoDigit]

/-! ### Dotted numbers -/

theorem scanOctet_append (d : Dialect) {n : Nat} (hn : n < 256) {rest : List Char}
    (hrest : NoDigit 10 rest) : scanOctet d (Nat.toDigits 10 n ++ rest) = some (n, rest) := by
  apply scan_toDigits_append (by decide) (by decide) hn ?_ hrest
  rintro k ⟨⟩
  exact (Nat.length_toDigits_le_iff (by decide) (by decide)).mpr (by omega)

theorem octets_of_lt (n : Nat) :
    Radix.expand 256 4 n =
      [n / 256 / 256 / 256 % 256, n / 256 / 256 % 256, n / 256 % 256, n % 256] :=
  rfl

theorem dottedChars_append (n : Nat) (rest : List Char) :
    dottedChars n ++ rest =
      Nat.toDigits 10 (n / 256 / 256 / 256 % 256) ++ '.' :: (Nat.toDigits 10 (n / 256 / 256 % 256) ++
        '.' :: (Nat.toDigits 10 (n / 256 % 256) ++ '.' :: (Nat.toDigits 10 (n % 256) ++ rest))) := by
  rw [dottedChars, octets_of_lt]
  simp [List.intercalate]

theorem scanDotted_dottedChars (d : Dialect) {n : Nat} (hn : n < 2 ^ (32 : Nat)) {rest : List Char}
    (hrest : NoDigit 10 rest) : scanDotted d (dottedChars n ++ rest) = some (n, rest) := by
  have hdot (rest : List Char) : NoDigit 10 ('.' :: rest) := noDigit_cons.mpr (by decide)
  have hvalue : Radix.value 256
      [n / 256 / 256 / 256 % 256, n / 256 / 256 % 256, n / 256 % 256, n % 256] = n := by
    rw [← octets_of_lt, Radix.value_expand]
    exact Nat.mod_eq_of_lt hn
  rw [dottedChars_append, scanDotted]
  simp only [scanOctet_append d (Nat.mod_lt _ (by decide)) (hdot _), skipChar, Option.bind_eq_bind,
    Option.bind_some, if_true, scanOctet_append d (Nat.mod_lt _ (by decide)) hrest, hvalue]
  rfl

theorem scan_rest {base bound : Nat} {maxDigits : Option Nat} {padded : Bool} {cs rest : List Char}
    {n : Nat} (h : scan base maxDigits padded bound cs = some (n, rest)) :
    rest = cs.dropWhile (isDigit base) := by
  unfold scan at h
  dsimp only at h
  split at h
  · cases h
  · cases h
    rfl

/-- Without a dot behind the first digits there are no dotted numbers. -/
theorem scanDotted_eq_none (d : Dialect) {cs : List Char}
    (h : skipChar '.' (cs.dropWhile (isDigit 10)) = none) : scanDotted d cs = none := by
  unfold scanDotted
  cases hs : scanOctet d cs with
  | none => rfl
  | some result =>
    obtain ⟨n, rest⟩ := result
    rw [← scan_rest hs] at h
    simp [h]

theorem skipChar_eq_none {c : Char} {cs : List Char} (h : cs.head? ≠ some c) :
    skipChar c cs = none := by
  cases cs with
  | nil => rfl
  | cons d cs =>
    have hd : c ≠ d := fun he => h (by rw [he]; rfl)
    exact if_neg hd

/-! ### Groups -/

/-- Texts that end a group: they go on neither with a digit nor with a dot. -/
def EndsGroup (rest : List Char) : Prop :=
  ∀ c, rest.head? = some c → isDigit 16 c = false ∧ c ≠ '.'

theorem endsGroup_cons {c : Char} {rest : List Char} :
    EndsGroup (c :: rest) ↔ isDigit 16 c = false ∧ c ≠ '.' := by
  simp [EndsGroup]

theorem EndsGroup.noDigit {rest : List Char} (h : EndsGroup rest) : NoDigit 16 rest :=
  fun c hc => (h c hc).1

theorem isDigit_mono {base base' : Nat} (hb : base ≤ base') {c : Char}
    (h : isDigit base c = true) : isDigit base' c = true := by
  simp only [isDigit, digitValue?, Option.isSome_ite] at h ⊢
  split at h
  · rename_i hc
    simp only [if_pos hc]
    omega
  · rename_i hc
    simp only [if_neg hc]
    split at h
    · rename_i hc'
      simp only [if_pos hc']
      omega
    · rename_i hc'
      simp only [if_neg hc']
      split at h
      · rename_i hc''
        simp only [if_pos hc'']
        omega
      · omega

/-- A group does not begin with dotted numbers. -/
theorem scanDotted_group (d : Dialect) (g : Nat) {rest : List Char} (hrest : EndsGroup rest) :
    scanDotted d (Nat.toDigits 16 g ++ rest) = none := by
  apply scanDotted_eq_none
  apply skipChar_eq_none
  have hdigits := isDigit_of_mem_toDigits (n := g) (by decide : 1 < 16) (by decide)
  generalize Nat.toDigits 16 g = digits at hdigits
  induction digits with
  | nil =>
    cases rest with
    | nil => simp
    | cons c rest =>
      obtain ⟨hhex, hdot⟩ := hrest c rfl
      have hten : isDigit 10 c = false := by
        apply Bool.eq_false_iff.mpr
        intro hc
        rw [isDigit_mono (by decide) hc] at hhex
        cases hhex
      simpa [hten] using hdot
  | cons c digits ih =>
    by_cases hten : isDigit 10 c = true
    · have hrest := ih fun c' hc' => hdigits c' (List.mem_cons_of_mem _ hc')
      simpa [hten] using hrest
    · have hdot : c ≠ '.' := by
        rintro rfl
        exact absurd (hdigits '.' List.mem_cons_self) (by decide)
      simpa [hten] using hdot

theorem scanGroup_append {g : Nat} (hg : g < 65536) {rest : List Char} (hrest : NoDigit 16 rest) :
    scanGroup (Nat.toDigits 16 g ++ rest) = some (g, rest) := by
  apply scan_toDigits_append (by decide) (by decide) hg ?_ hrest
  rintro k ⟨⟩
  exact (Nat.length_toDigits_le_iff (by decide) (by decide)).mpr (by omega)

theorem scanGroup_eq_none {rest : List Char} (hrest : NoDigit 16 rest) : scanGroup rest = none := by
  unfold scanGroup scan
  have hnone : rest.takeWhile (isDigit 16) = [] := by
    cases rest with
    | nil => rfl
    | cons c rest => simp [hrest c rfl]
  simp [hnone]

theorem scanDotted_of_endsGroup (d : Dialect) {rest : List Char} (hrest : EndsGroup rest) :
    scanDotted d rest = none := by
  unfold scanDotted scanOctet scan
  have hnone : rest.takeWhile (isDigit 10) = [] := by
    cases rest with
    | nil => rfl
    | cons c rest =>
      have hten : isDigit 10 c = false := by
        apply Bool.eq_false_iff.mpr
        intro hc
        have hhex := (hrest c rfl).1
        rw [isDigit_mono (by decide) hc] at hhex
        cases hhex
      simp [hten]
  simp [hnone]

/-- Where no group begins none is read. -/
theorem scanGroups_first_stop (d : Dialect) (limit : Nat) {rest : List Char}
    (hrest : EndsGroup rest) : scanGroups d limit true rest = ([], false, rest) := by
  cases limit with
  | zero => rfl
  | succ limit =>
    simp only [scanGroups, if_true, scanDotted_of_endsGroup d hrest, ite_self,
      scanGroup_eq_none hrest.noDigit]

theorem scanGroups_later_stop (d : Dialect) (limit : Nat) {rest : List Char}
    (hrest : rest.head? ≠ some ':') : scanGroups d limit false rest = ([], false, rest) := by
  cases limit with
  | zero => rfl
  | succ limit => simp [scanGroups, skipChar_eq_none hrest]

theorem scanGroups_colons (d : Dialect) (limit : Nat) (rest : List Char) :
    scanGroups d limit false (':' :: ':' :: rest) = ([], false, ':' :: ':' :: rest) := by
  have hends : EndsGroup (':' :: rest) := endsGroup_cons.mpr ⟨by decide, by decide⟩
  cases limit with
  | zero => rfl
  | succ limit =>
    simp [scanGroups, skipChar, scanDotted_of_endsGroup d hends, scanGroup_eq_none hends.noDigit]

/-- A group is taken off, and the rest is read with one group fewer. -/
theorem scanGroups_append (d : Dialect) (limit : Nat) (first : Bool) {g : Nat} (hg : g < 65536)
    {rest : List Char} (hrest : EndsGroup rest) :
    scanGroups d (limit + 1) first ((if first then [] else [':']) ++ Nat.toDigits 16 g ++ rest) =
      (g :: (scanGroups d limit false rest).1, (scanGroups d limit false rest).2) := by
  have hbody : (if first = true then
      some ((if first then [] else [':']) ++ Nat.toDigits 16 g ++ rest)
      else skipChar ':' ((if first then [] else [':']) ++ Nat.toDigits 16 g ++ rest)) =
      some (Nat.toDigits 16 g ++ rest) := by
    cases first <;> simp [skipChar]
  rw [scanGroups, hbody]
  simp only [scanDotted_group d g hrest, ite_self, scanGroup_append hg hrest.noDigit]

def laterChars (groups : List Nat) : List Char :=
  groups.flatMap fun g => ':' :: Nat.toDigits 16 g

theorem groupChars_cons (g : Nat) (groups : List Nat) :
    groupChars (g :: groups) = Nat.toDigits 16 g ++ laterChars groups := by
  unfold groupChars
  induction groups generalizing g with
  | nil => simp [laterChars, List.intercalate]
  | cons g' groups ih =>
    rw [List.map_cons, List.map_cons, List.intercalate_cons_cons, ← List.map_cons, ih g']
    simp [laterChars]

theorem endsGroup_laterChars (groups : List Nat) {rest : List Char} (hrest : EndsGroup rest) :
    EndsGroup (laterChars groups ++ rest) := by
  cases groups with
  | nil => exact hrest
  | cons g groups => exact endsGroup_cons.mpr ⟨by decide, by decide⟩

theorem scanGroups_laterChars (d : Dialect) (limit : Nat) {groups : List Nat}
    (hlength : groups.length ≤ limit) (hgroups : ∀ g ∈ groups, g < 65536) {rest : List Char}
    (hrest : EndsGroup rest) (hstop : ∀ k, scanGroups d k false rest = ([], false, rest)) :
    scanGroups d limit false (laterChars groups ++ rest) = (groups, false, rest) := by
  induction groups generalizing limit with
  | nil => exact hstop limit
  | cons g groups ih =>
    obtain ⟨limit, rfl⟩ : ∃ k, limit = k + 1 := ⟨limit - 1, by simp at hlength; omega⟩
    have hg := hgroups g List.mem_cons_self
    have hlater := ih limit (by simpa using hlength) fun g' hg' =>
      hgroups g' (List.mem_cons_of_mem _ hg')
    have hcons := scanGroups_append d limit false hg (endsGroup_laterChars groups hrest)
    rw [hlater] at hcons
    simpa [laterChars] using hcons

/-- Groups are read back, up to what ends them. -/
theorem scanGroups_groupChars (d : Dialect) (limit : Nat) {groups : List Nat}
    (hlength : groups.length ≤ limit) (hgroups : ∀ g ∈ groups, g < 65536) {rest : List Char}
    (hrest : EndsGroup rest) (hstop : ∀ k, scanGroups d k false rest = ([], false, rest)) :
    scanGroups d limit true (groupChars groups ++ rest) = (groups, false, rest) := by
  cases groups with
  | nil => exact scanGroups_first_stop d limit hrest
  | cons g groups =>
    obtain ⟨limit, rfl⟩ : ∃ k, limit = k + 1 := ⟨limit - 1, by simp at hlength; omega⟩
    have hg := hgroups g List.mem_cons_self
    have hlater := scanGroups_laterChars d limit (by simpa using hlength)
      (fun g' hg' => hgroups g' (List.mem_cons_of_mem _ hg')) hrest hstop
    have hcons := scanGroups_append d limit true hg (endsGroup_laterChars groups hrest)
    rw [hlater] at hcons
    rw [groupChars_cons, List.append_assoc]
    simpa using hcons

/-! ### Runs of zeros -/

theorem take_zeroRun (groups : List Nat) :
    groups.take (zeroRun groups) = List.replicate (zeroRun groups) 0 := by
  induction groups with
  | nil => rfl
  | cons g groups ih =>
    by_cases hg : g = 0
    · subst hg
      simpa [zeroRun, List.replicate_succ] using ih
    · simp [zeroRun, hg]

theorem zeroRun_le_length (groups : List Nat) : zeroRun groups ≤ groups.length :=
  (List.takeWhile_prefix _).length_le

/-- What is left out are zeros, all within the groups. -/
theorem longestZeroRun_spec (groups : List Nat) :
    (longestZeroRun groups).1 + (longestZeroRun groups).2 ≤ groups.length ∧
      groups = groups.take (longestZeroRun groups).1 ++
        List.replicate (longestZeroRun groups).2 0 ++
        groups.drop ((longestZeroRun groups).1 + (longestZeroRun groups).2) := by
  induction groups with
  | nil => exact ⟨Nat.le_refl _, rfl⟩
  | cons g groups ih =>
    obtain ⟨hle, heq⟩ := ih
    rw [longestZeroRun]
    dsimp only
    split
    · refine ⟨by simp only [List.length_cons]; omega, ?_⟩
      rw [Nat.add_right_comm, List.take_succ_cons, List.drop_succ_cons, List.cons_append,
        List.cons_append, ← heq]
    · dsimp only
      rw [Nat.zero_add, List.take_zero, List.nil_append, ← take_zeroRun, List.take_append_drop]
      exact ⟨zeroRun_le_length _, rfl⟩

/-! ### Colons -/

/-- Texts that end an address with colons. -/
def EndsColons (rest : List Char) : Prop :=
  ∀ c, rest.head? = some c → isDigit 16 c = false ∧ c ≠ '.' ∧ c ≠ ':'

theorem EndsColons.endsGroup {rest : List Char} (h : EndsColons rest) : EndsGroup rest :=
  fun c hc => ⟨(h c hc).1, (h c hc).2.1⟩

theorem EndsColons.stop {rest : List Char} (h : EndsColons rest) (d : Dialect) (limit : Nat) :
    scanGroups d limit false rest = ([], false, rest) :=
  scanGroups_later_stop d limit fun hc => (h ':' hc).2.2 rfl

theorem endsGroup_colons (rest : List Char) : EndsGroup (':' :: rest) :=
  endsGroup_cons.mpr ⟨by decide, by decide⟩

/-- A double colon stands for the groups that are missing between the others. -/
theorem scanColons_elided (d : Dialect) {front back : List Nat} {dotted : Bool}
    {shown rest : List Char} (hfront : ∀ g ∈ front, g < 65536) (hlength : front.length < 8)
    (hback : scanGroups d (8 - front.length - d.fewestElided) true shown = (back, dotted, rest)) :
    scanColons d (groupChars front ++ ':' :: ':' :: shown) =
      some (Radix.value 65536
        (front ++ List.replicate (8 - front.length - back.length) 0 ++ back), rest) := by
  have hhead := scanGroups_groupChars d 8 (Nat.le_of_lt hlength) hfront
    (endsGroup_colons (':' :: shown)) fun k => scanGroups_colons d k shown
  have hne : front.length ≠ 8 := Nat.ne_of_lt hlength
  rw [scanColons, hhead]
  simp [hne, hback]

theorem scanColons_colonChars (d : Dialect) (hd : d.fewestElided ≤ 1) {groups : List Nat}
    (hlength : groups.length = 8) (hgroups : ∀ g ∈ groups, g < 65536) {rest : List Char}
    (hrest : EndsColons rest) :
    scanColons d (colonChars groups ++ rest) = some (Radix.value 65536 groups, rest) := by
  obtain ⟨hle, heq⟩ := longestZeroRun_spec groups
  rw [colonChars]
  -- That the run is a longest one does not matter for reading, only that it consists of zeros.
  generalize longestZeroRun groups = run at hle heq ⊢
  obtain ⟨start, length⟩ := run
  dsimp only at hle heq ⊢
  split
  · rename_i htwo
    have hfront : (groups.take start).length = start := by
      rw [List.length_take]
      omega
    have hback := scanGroups_groupChars d (8 - start - d.fewestElided)
      (show (groups.drop (start + length)).length ≤ 8 - start - d.fewestElided by
        rw [List.length_drop]
        omega)
      (fun g hg => hgroups g (List.mem_of_mem_drop hg)) hrest.endsGroup fun k => hrest.stop d k
    have hscan := scanColons_elided d
      (show ∀ g ∈ groups.take start, g < 65536 from fun g hg => hgroups g (List.mem_of_mem_take hg))
      (by omega) (by rw [hfront, hback])
    have hmissing : 8 - start - (groups.drop (start + length)).length = length := by
      rw [List.length_drop]
      omega
    rw [hfront, hmissing, ← heq] at hscan
    simpa using hscan
  · have hscan := scanGroups_groupChars d 8 (Nat.le_of_eq hlength) hgroups
      hrest.endsGroup fun k => hrest.stop d k
    rw [scanColons, hscan]
    simp [hlength]

/-- An embedded address of version 4 is written dotted and counts for two groups. -/
theorem scanGroups_embedded (d : Dialect) (limit : Nat) {n : Nat} (hn : n < 2 ^ (32 : Nat))
    {rest : List Char} (hrest : NoDigit 10 rest) :
    scanGroups d (limit + 3) true (Nat.toDigits 16 0xFFFF ++ ':' :: (dottedChars n ++ rest)) =
      ([0xFFFF, n / 65536, n % 65536], true, rest) := by
  have hdotted : scanGroups d (limit + 2) false (':' :: (dottedChars n ++ rest)) =
      ([n / 65536, n % 65536], true, rest) := by
    simp [scanGroups, skipChar, scanDotted_dottedChars d hn hrest]
  have hcons := scanGroups_append d (limit + 2) true (g := 0xFFFF) (by decide)
    (endsGroup_colons (dottedChars n ++ rest))
  rw [hdotted] at hcons
  simpa using hcons

theorem value_embedded {bits n : Nat} (h : bits / 2 ^ (32 : Nat) = 0xFFFF)
    (hn : n = bits % 2 ^ (32 : Nat)) :
    Radix.value 65536 (List.replicate 5 0 ++ [0xFFFF, n / 65536, n % 65536]) = bits := by
  simp [Radix.value, List.replicate]
  omega

theorem NoDigit.of_endsColons {rest : List Char} (h : EndsColons rest) : NoDigit 10 rest := by
  intro c hc
  apply Bool.eq_false_iff.mpr
  intro hten
  have hhex := (h c hc).1
  rw [isDigit_mono (by decide) hten] at hhex
  cases hhex

/-! ### Whole addresses -/

theorem scanDotted_chars (d : Dialect) (bits : BitVec 32) {rest : List Char}
    (hrest : NoDigit 10 rest) :
    scanDotted d ((Address.v4 bits).chars ++ rest) = some (bits.toNat, rest) :=
  scanDotted_dottedChars d bits.isLt hrest

theorem scanColons_chars (d : Dialect) (hd : d.fewestElided ≤ 1) (bits : BitVec 128)
    {rest : List Char} (hrest : EndsColons rest) :
    scanColons d ((Address.v6 bits).chars ++ rest) = some (bits.toNat, rest) := by
  rw [chars]
  split
  · rename_i hmapped
    have hback := scanGroups_embedded d (8 - d.fewestElided - 3)
      (n := bits.toNat % 2 ^ (32 : Nat)) (Nat.mod_lt _ (by decide)) (NoDigit.of_endsColons hrest)
    have hlimit : 8 - d.fewestElided - 3 + 3 = 8 - [].length (α := Nat) - d.fewestElided := by
      simp
      omega
    rw [hlimit] at hback
    have hscan := scanColons_elided d (show ∀ g ∈ [], g < 65536 by simp) (by simp) hback
    have hvalue := value_embedded hmapped rfl
    simp only [List.length_nil, List.length_cons, List.nil_append, Nat.sub_zero] at hscan
    rw [show 8 - (0 + 1 + 1 + 1) = 5 from rfl, hvalue] at hscan
    exact hscan
  · have hvalue : Radix.value 65536 (Radix.expand 65536 8 bits.toNat) = bits.toNat := by
      rw [Radix.value_expand]
      exact Nat.mod_eq_of_lt bits.isLt
    have hscan := scanColons_colonChars d hd (Radix.length_expand 65536 8 bits.toNat)
      (fun g hg => Radix.lt_of_mem_expand (by decide) hg) hrest
    rw [hvalue] at hscan
    exact hscan

theorem scanDotted_groupChars (d : Dialect) (groups : List Nat) {rest : List Char}
    (hrest : EndsGroup rest) : scanDotted d (groupChars groups ++ rest) = none := by
  cases groups with
  | nil => exact scanDotted_of_endsGroup d hrest
  | cons g groups =>
    rw [groupChars_cons, List.append_assoc]
    exact scanDotted_group d g (endsGroup_laterChars groups hrest)

/-- An address with colons does not begin with dotted numbers. -/
theorem scanDotted_colons (d : Dialect) (bits : BitVec 128) {rest : List Char}
    (hrest : EndsColons rest) : scanDotted d ((Address.v6 bits).chars ++ rest) = none := by
  rw [chars]
  split
  · exact scanDotted_of_endsGroup d (endsGroup_colons _)
  · rw [colonChars]
    dsimp only
    split
    · rw [List.append_assoc]
      exact scanDotted_groupChars d _ (endsGroup_colons _)
    · exact scanDotted_groupChars d _ hrest.endsGroup

/-- An address is read back from its text. -/
theorem ofChars?_chars (a : Address) : ofChars? a.chars = some a := by
  cases a with
  | v4 bits =>
    have hdotted : scanDotted .plain ((Address.v4 bits).chars ++ []) = some (bits.toNat, []) :=
      scanDotted_chars .plain bits nofun
    have hvalue : ofValue .v4 bits.toNat = .v4 bits := ofValue_value (.v4 bits)
    rw [List.append_nil] at hdotted
    simp [ofChars?, hdotted, hvalue]
  | v6 bits =>
    have hends : EndsColons [] := nofun
    have hdotted := scanDotted_colons .plain bits hends
    have hcolons := scanColons_chars .plain (by decide) bits hends
    have hvalue : ofValue .v6 bits.toNat = .v6 bits := ofValue_value (.v6 bits)
    rw [List.append_nil] at hdotted hcolons
    simp [ofChars?, hdotted, hcolons, hvalue]

theorem ofText?_text (a : Address) : ofText? a.text = some a := by
  rw [ofText?, text, String.toList_ofList, ofChars?_chars]

/-! ### The characters of an address -/

def isAddressChar (c : Char) : Bool :=
  isDigit 16 c || c == '.' || c == ':'

theorem isAddressChar_of_isDigit {base : Nat} (h16 : base ≤ 16) {c : Char}
    (h : isDigit base c = true) : isAddressChar c = true := by
  simp [isAddressChar, isDigit_mono h16 h]

theorem isAddressChar_of_mem_toDigits {base n : Nat} (h1 : 1 < base) (h16 : base ≤ 16) :
    ∀ c ∈ Nat.toDigits base n, isAddressChar c = true :=
  fun c hc => isAddressChar_of_isDigit h16 (isDigit_of_mem_toDigits h1 h16 c hc)

theorem isAddressChar_of_mem_dottedChars (n : Nat) : ∀ c ∈ dottedChars n, isAddressChar c = true := by
  have hdigits (n : Nat) := isAddressChar_of_mem_toDigits (n := n) (by decide : 1 < 10) (by decide)
  intro c hc
  rw [← List.append_nil (dottedChars n), dottedChars_append] at hc
  simp only [List.mem_append, List.mem_cons, List.not_mem_nil, or_false] at hc
  rcases hc with hc | rfl | hc | rfl | hc | rfl | hc
  · exact hdigits _ c hc
  · rfl
  · exact hdigits _ c hc
  · rfl
  · exact hdigits _ c hc
  · rfl
  · exact hdigits _ c hc

theorem isAddressChar_of_mem_groupChars (groups : List Nat) :
    ∀ c ∈ groupChars groups, isAddressChar c = true := by
  have hdigits (n : Nat) := isAddressChar_of_mem_toDigits (n := n) (by decide : 1 < 16) (by decide)
  intro c hc
  cases groups with
  | nil => cases hc
  | cons g groups =>
    rw [groupChars_cons] at hc
    rcases List.mem_append.mp hc with hc | hc
    · exact hdigits g c hc
    · obtain ⟨g', -, hc⟩ := List.mem_flatMap.mp hc
      rcases List.mem_cons.mp hc with rfl | hc
      · rfl
      · exact hdigits g' c hc

theorem isAddressChar_of_mem_colonChars (groups : List Nat) :
    ∀ c ∈ colonChars groups, isAddressChar c = true := by
  intro c hc
  rw [colonChars] at hc
  dsimp only at hc
  split at hc
  · rcases List.mem_append.mp hc with hc | hc
    · exact isAddressChar_of_mem_groupChars _ c hc
    · simp only [List.mem_cons] at hc
      rcases hc with rfl | rfl | hc
      · rfl
      · rfl
      · exact isAddressChar_of_mem_groupChars _ c hc
  · exact isAddressChar_of_mem_groupChars _ c hc

theorem isAddressChar_of_mem_chars (a : Address) : ∀ c ∈ a.chars, isAddressChar c = true := by
  intro c hc
  cases a with
  | v4 bits => exact isAddressChar_of_mem_dottedChars _ c hc
  | v6 bits =>
    rw [chars] at hc
    split at hc
    · have hmapped : ∀ c ∈ "::ffff:".toList, isAddressChar c = true :=
        List.all_eq_true.mp (by decide)
      rcases List.mem_append.mp hc with hc | hc
      · exact hmapped c hc
      · exact isAddressChar_of_mem_dottedChars _ c hc
    · exact isAddressChar_of_mem_colonChars _ c hc

theorem isVisible_of_isAddressChar {c : Char} (h : isAddressChar c = true) :
    Text.isVisible c = true ∧ c ≠ ',' := by
  simp only [isAddressChar, Bool.or_eq_true, beq_iff_eq] at h
  rcases h with (h | rfl) | rfl
  · refine ⟨isVisible_of_isDigit h, ?_⟩
    rintro rfl
    exact absurd h (by decide)
  · decide
  · decide

end OverlayTunnel.Address
