import Mathlib.Tactic.SplitIfs
import OverlayTunnel.Json.Record

/-!
What is written as JSON is read back in front of any text: strings with whatever characters are in them,
natural numbers, objects with their members in any order, and lists of any length.
-/
namespace OverlayTunnel.Json

variable {ρ α : Type}

theorem skipSpace_cons {c : Char} (hc : isSpace c = false) (cs : List Char) :
    skipSpace (c :: cs) = c :: cs := by
  rw [skipSpace, List.dropWhile_cons, hc, if_neg (by decide)]

/-! ### Strings -/

/-- The escape of a control has two zeros and two hexadecimal digits. -/
theorem readUnit_twoDigits {n : Nat} (hn : n < 32) (rest : List Char) :
    readUnit ('0' :: '0' :: (twoDigits n ++ rest)) = .ok (n, rest) := by
  have hdigits : ∀ n < 32, ('0' :: '0' :: twoDigits n).all (Numeral.isDigit 16) = true ∧
      Numeral.value 16 ('0' :: '0' :: twoDigits n) = n := by decide
  obtain ⟨hall, hvalue⟩ := hdigits n hn
  simp only [twoDigits] at hall hvalue ⊢
  rw [List.cons_append, List.cons_append, List.nil_append, readUnit, if_pos hall, hvalue]

theorem readCodeUnits_twoDigits {c : Char} (hc : c.toNat < 32) (rest : List Char) :
    readCodeUnits true ('0' :: '0' :: (twoDigits c.toNat ++ rest)) = .ok (c, rest) := by
  have hleading : ¬ (true = true ∧ 0xD800 ≤ c.toNat ∧ c.toNat ≤ 0xDBFF) := by omega
  have htrailing : ¬ (true = true ∧ 0xDC00 ≤ c.toNat ∧ c.toNat ≤ 0xDFFF) := by omega
  unfold readCodeUnits
  rw [readUnit_twoDigits hc]
  dsimp only
  rw [if_neg hleading, if_neg htrailing, c.ofNat_toNat]

/-- A character that is written with a backslash is read after it. -/
theorem readCharacters_escaped {c : Char} {cs rest : List Char} (h : readEscape true cs = .ok (c, rest))
    (fuel : Nat) :
    readCharacters true (fuel + 1) ('\\' :: cs) =
      (readCharacters true fuel rest).map fun (ds, rest) => (c :: ds, rest) := by
  rw [readCharacters, if_neg (by decide), if_pos rfl, h]

/-- Whatever a character is, one unit of fuel is enough to read it. -/
theorem readCharacters_escape (c : Char) (fuel : Nat) (rest : List Char) :
    readCharacters true (fuel + 1) (escape c ++ rest) =
      (readCharacters true fuel rest).map fun (ds, rest) => (c :: ds, rest) := by
  have hnumber {n : Nat} (h : c.toNat = n) : Char.ofNat n = c := by rw [← h, c.ofNat_toNat]
  unfold escape
  split_ifs with hquote hbackslash hbackspace hfeed hline hreturn htab hcontrol
  · subst hquote
    exact readCharacters_escaped rfl fuel
  · subst hbackslash
    exact readCharacters_escaped rfl fuel
  · rw [← hnumber hbackspace]
    exact readCharacters_escaped rfl fuel
  · rw [← hnumber hfeed]
    exact readCharacters_escaped rfl fuel
  · subst hline
    exact readCharacters_escaped rfl fuel
  · subst hreturn
    exact readCharacters_escaped rfl fuel
  · subst htab
    exact readCharacters_escaped rfl fuel
  · have hread : readEscape true ('u' :: '0' :: '0' :: (twoDigits c.toNat ++ rest)) = .ok (c, rest) :=
      readCodeUnits_twoDigits hcontrol rest
    exact readCharacters_escaped hread fuel
  · rw [List.cons_append, List.nil_append, readCharacters, if_neg hquote, if_neg hbackslash,
      if_neg hcontrol]

theorem escape_ne_nil (c : Char) : escape c ≠ [] := by
  unfold escape
  split_ifs <;> simp

theorem length_le_flatMap_escape (s : List Char) : s.length ≤ (s.flatMap escape).length := by
  induction s with
  | nil => exact Nat.zero_le _
  | cons c s ih =>
    have hc := List.length_pos_iff.mpr (escape_ne_nil c)
    rw [List.flatMap_cons, List.length_append, List.length_cons]
    omega

theorem readCharacters_flatMap_escape (s rest : List Char) {fuel : Nat} (hfuel : s.length < fuel) :
    readCharacters true fuel (s.flatMap escape ++ '"' :: rest) = .ok (s, rest) := by
  induction s generalizing fuel with
  | nil =>
    obtain ⟨fuel, rfl⟩ := Nat.exists_eq_succ_of_ne_zero (Nat.ne_of_gt hfuel)
    rfl
  | cons c s ih =>
    rw [List.length_cons] at hfuel
    obtain ⟨fuel, rfl⟩ := Nat.exists_eq_succ_of_ne_zero (Nat.ne_zero_of_lt hfuel)
    rw [List.flatMap_cons, List.append_assoc, readCharacters_escape, ih (by omega)]
    rfl

theorem readString_flatMap_escape (s : String) (rest : List Char) :
    readString (s.toList.flatMap escape ++ '"' :: rest) = .ok (s, rest) := by
  have hlength := length_le_flatMap_escape s.toList
  have hread : readCharacters true ((s.toList.flatMap escape ++ '"' :: rest).length + 1)
      (s.toList.flatMap escape ++ '"' :: rest) = .ok (s.toList, rest) := by
    apply readCharacters_flatMap_escape
    rw [List.length_append]
    omega
  rw [readString, hread]
  simp [Except.map]

theorem quote_append (s : String) (rest : List Char) :
    quote s ++ rest = '"' :: (s.toList.flatMap escape ++ '"' :: rest) := by
  simp [quote]

theorem readText_quote (expected s : String) (rest : List Char) :
    readText expected (quote s ++ rest) = .ok (s, rest) := by
  rw [quote_append, readText, skipSpace_cons (by decide)]
  exact readString_flatMap_escape s rest

theorem readParsed_quote {parse? : String → Option α} {s : String} {a : α} (h : parse? s = some a)
    (expected : String) (rest : List Char) :
    readParsed expected parse? (quote s ++ rest) = .ok (a, rest) := by
  rw [readParsed, readText_quote]
  dsimp only
  rw [h]

/-- A text that may be missing, as it is written. -/
theorem readOptionalText_elim (s : Option String) (rest : List Char) :
    readOptionalText (s.elim "null".toList quote ++ rest) = .ok (s, rest) := by
  cases s with
  | none => rfl
  | some s =>
    have hread := readText_quote "a string" s rest
    rw [quote_append] at hread
    rw [Option.elim_some, quote_append, readOptionalText, skipSpace_cons (by decide)]
    change (readText "a string" _).map _ = _
    rw [hread]
    rfl

/-! ### Numbers -/

/-- A text that does not continue a number. -/
def EndsNumber (rest : List Char) : Prop :=
  ∀ c, rest.head? = some c → Number.isDigit c = false ∧ c ≠ '.' ∧ c ≠ 'e' ∧ c ≠ 'E'

theorem le_valueFrom (acc : Nat) (digits : List Char) : acc ≤ Numeral.valueFrom 10 acc digits := by
  induction digits generalizing acc with
  | nil => exact Nat.le_refl acc
  | cons c digits ih =>
    have hnext := ih (Numeral.valueFrom 10 acc [c])
    have hacc : acc ≤ Numeral.valueFrom 10 acc [c] := by
      simp only [Numeral.valueFrom, List.foldl_cons, List.foldl_nil]
      omega
    exact Nat.le_trans hacc hnext

/-- No digit of a number of at most 64 bits is left out. -/
theorem appendDigits_of_lt {acc : Nat} {digits : List Char}
    (h : Numeral.valueFrom 10 acc digits < 2 ^ (64 : Nat)) :
    Number.appendDigits acc digits = (Numeral.valueFrom 10 acc digits, []) := by
  induction digits generalizing acc with
  | nil => rfl
  | cons c digits ih =>
    have hnext : Numeral.valueFrom 10 acc [c] < 2 ^ (64 : Nat) :=
      Nat.lt_of_le_of_lt (le_valueFrom _ digits) h
    rw [Number.appendDigits, if_pos hnext]
    exact ih h

theorem read_toDigits {n : Nat} {rest : List Char} (hn : n < 2 ^ (64 : Nat)) (hrest : EndsNumber rest) :
    Number.read false (Nat.toDigits 10 n ++ rest) = .ok (.natural n, rest) := by
  have hdigits : ∀ c ∈ Nat.toDigits 10 n, Number.isDigit c = true :=
    Numeral.isDigit_of_mem_toDigits (by decide) (by decide)
  have hvalue : Numeral.valueFrom 10 0 (Nat.toDigits 10 n) = n :=
    Numeral.value_toDigits (by decide) (by decide)
  have hstop : rest.takeWhile Number.isDigit = [] ∧ rest.dropWhile Number.isDigit = rest := by
    cases rest with
    | nil => simp
    | cons c cs => simp [(hrest c rfl).1]
  have hzero : ¬ ((Nat.toDigits 10 n).head? = some '0' ∧ 1 < (Nat.toDigits 10 n).length) := by
    rintro ⟨hhead, hlength⟩
    rcases Nat.eq_zero_or_pos n with rfl | hpos
    · simp at hlength
    · exact Numeral.head?_toDigits (by decide) hpos hhead
  have happend : Number.appendDigits 0 (Nat.toDigits 10 n) = _ := appendDigits_of_lt (by rwa [hvalue])
  unfold Number.read
  dsimp only
  rw [List.takeWhile_append_of_pos hdigits, List.dropWhile_append_of_pos hdigits, hstop.1, hstop.2,
    List.append_nil, if_neg Nat.toDigits_ne_nil, if_neg hzero, happend, hvalue]
  cases rest with
  | nil => rfl
  | cons c cs =>
    obtain ⟨-, hpoint, he, hE⟩ := hrest c rfl
    split
    next h => exact absurd (List.cons.inj h).1 hpoint
    next => simp [he, hE, Number.ofInteger]

theorem isSpace_of_isDigit {c : Char} (hc : Number.isDigit c = true) : isSpace c = false := by
  cases hspace : isSpace c with
  | false => rfl
  | true =>
    simp only [isSpace, Bool.or_eq_true, beq_iff_eq] at hspace
    rcases hspace with ((rfl | rfl) | rfl) | rfl <;> cases hc

theorem readNat_toDigits {n max : Nat} {rest : List Char} (expected : String) (hn : n ≤ max)
    (hmax : max < 2 ^ (64 : Nat)) (hrest : EndsNumber rest) :
    readNat expected max (Nat.toDigits 10 n ++ rest) = .ok (n, rest) := by
  have hread := read_toDigits (Nat.lt_of_le_of_lt hn hmax) hrest
  have hnumber : readNumber expected max false (Nat.toDigits 10 n ++ rest) = .ok (n, rest) := by
    rw [readNumber, hread]
    dsimp only [ofNumber]
    rw [if_pos hn]
    rfl
  obtain ⟨c, cs, hcs⟩ := List.exists_cons_of_ne_nil (Nat.toDigits_ne_nil (b := 10) (n := n))
  have hc : Number.isDigit c = true := by
    apply Numeral.isDigit_of_mem_toDigits (n := n) (by decide) (by decide)
    rw [hcs]
    exact List.mem_cons_self
  have hsign : c ≠ '-' := by
    rintro rfl
    revert hc
    decide
  rw [hcs] at hnumber ⊢
  unfold readNat
  rw [List.cons_append, skipSpace_cons (isSpace_of_isDigit hc)]
  split
  next h => cases h
  next h => exact absurd (List.cons.inj h).1 hsign
  next h =>
    obtain ⟨rfl, rfl⟩ := List.cons.inj h
    rw [if_pos hc]
    exact hnumber

/-! ### Enclosures -/

/-- Parts as they stand in an enclosure, each after a comma unless it is the first. -/
def partsChars : (first : Bool) → List (List Char) → List Char
  | _, [] => []
  | true, part :: parts => part ++ partsChars false parts
  | false, part :: parts => ',' :: (part ++ partsChars false parts)

theorem intercalate_parts (parts : List (List Char)) :
    [','].intercalate parts = partsChars true parts := by
  have hcons (part : List Char) (parts : List (List Char)) :
      [','].intercalate (part :: parts) = part ++ partsChars false parts := by
    induction parts generalizing part with
    | nil => simp [partsChars]
    | cons next parts ih =>
      rw [List.intercalate_cons_cons, ih, List.append_assoc]
      rfl
  cases parts with
  | nil => rfl
  | cons part parts => exact hcons part parts

theorem length_le_partsChars (parts : List (List Char)) :
    parts.length ≤ (partsChars false parts).length := by
  induction parts with
  | nil => exact Nat.zero_le _
  | cons part parts ih =>
    simp only [partsChars, List.length_cons, List.length_append]
    omega

/-! ### Objects -/

/-- What may follow the value of a member: the next member, or the end of the object. -/
def EndsMember (rest : List Char) : Prop :=
  rest.head? = some ',' ∨ rest.head? = some '\x7d'

theorem EndsMember.endsNumber {rest : List Char} (h : EndsMember rest) : EndsNumber rest := by
  intro c hc
  rcases h with h | h <;> rw [hc] at h <;> cases h <;> decide

/-- A field that has not been read takes a value, which makes one record of another. -/
structure Field.Takes (field : Field ρ) (r : ρ) (value : List Char) (r' : ρ) : Prop where
  unread : field.isRead r = false
  read : ∀ rest, EndsMember rest → field.read r (value ++ rest) = .ok (r', rest)

/-- Members that make one record of another, each of them the value of a field. -/
inductive Collects (fields : List (Field ρ)) : ρ → List (String × List Char) → ρ → Prop
  | done (r : ρ) : Collects fields r [] r
  | member {r r₁ r₂ : ρ} {field : Field ρ} {value : List Char} {members : List (String × List Char)}
    (hfind : fields.find? (·.name == field.name) = some field) (htakes : field.Takes r value r₁)
    (hlater : Collects fields r₁ members r₂) :
    Collects fields r ((field.name, value) :: members) r₂

variable {fields : List (Field ρ)} {field : Field ρ} {r r' : ρ} {value rest : List Char}
  {members : List (String × List Char)}

def memberChars (m : String × List Char) : List Char :=
  quote m.1 ++ ':' :: m.2

/-- Members as they stand in an object, each after a comma unless it is the first. -/
def membersChars : (first : Bool) → List (String × List Char) → List Char
  | _, [] => []
  | true, m :: members => memberChars m ++ membersChars false members
  | false, m :: members => ',' :: (memberChars m ++ membersChars false members)

theorem membersChars_eq (first : Bool) (members : List (String × List Char)) :
    membersChars first members = partsChars first (members.map memberChars) := by
  induction members generalizing first with
  | nil => cases first <;> rfl
  | cons m members ih => cases first <;> simp [membersChars, partsChars, ih]

theorem length_le_membersChars (first : Bool) (members : List (String × List Char)) :
    members.length ≤ (membersChars first members).length := by
  induction members generalizing first with
  | nil => exact Nat.zero_le _
  | cons m members ih =>
    have hlater := ih false
    cases first <;> simp only [membersChars, memberChars, List.length_cons, List.length_append] <;> omega

theorem endsMember_membersChars (members : List (String × List Char)) (rest : List Char) :
    EndsMember (membersChars false members ++ '\x7d' :: rest) := by
  cases members with
  | nil => exact .inr rfl
  | cons m members => exact .inl rfl

theorem nextKey_first (key : String) (rest : List Char) :
    nextKey true (quote key ++ rest) = .ok (some key, rest) := by
  rw [quote_append, nextKey, skipSpace_cons (by decide)]
  change nextKey.key _ = _
  rw [nextKey.key, readString_flatMap_escape]
  rfl

theorem nextKey_later (key : String) (rest : List Char) :
    nextKey false (',' :: (quote key ++ rest)) = .ok (some key, rest) := by
  rw [quote_append, nextKey, skipSpace_cons (by decide)]
  change nextKey.key _ = _
  rw [nextKey.key, readString_flatMap_escape]
  rfl

theorem readMember_of_takes (hfind : fields.find? (·.name == field.name) = some field)
    (htakes : field.Takes r value r') (hrest : EndsMember rest) :
    readMember fields field.name r (':' :: (value ++ rest)) = .ok (r', rest) := by
  unfold readMember
  rw [hfind]
  dsimp only
  rw [htakes.unread, if_neg (by decide), readColon, skipSpace_cons (by decide)]
  exact htakes.read rest hrest

/-- The members of an object are collected one after another. -/
theorem readMembers_membersChars (h : Collects fields r members r') (first : Bool) (rest : List Char)
    {fuel : Nat} (hfuel : members.length < fuel) :
    readMembers fields fuel first r (membersChars first members ++ '\x7d' :: rest) = .ok (r', rest) := by
  induction h generalizing first fuel with
  | done r =>
    obtain ⟨fuel, rfl⟩ := Nat.exists_eq_succ_of_ne_zero (Nat.ne_of_gt hfuel)
    cases first <;> rfl
  | @member r r₁ r₂ field value members hfind htakes _ ih =>
    rw [List.length_cons] at hfuel
    obtain ⟨fuel, rfl⟩ := Nat.exists_eq_succ_of_ne_zero (Nat.ne_zero_of_lt hfuel)
    have hkey : nextKey first (membersChars first ((field.name, value) :: members) ++ '\x7d' :: rest) =
        .ok (some field.name, ':' :: (value ++ (membersChars false members ++ '\x7d' :: rest))) := by
      cases first <;>
        simp [membersChars, memberChars, nextKey_first, nextKey_later]
    have hmember := readMember_of_takes hfind htakes (endsMember_membersChars members rest)
    rw [readMembers, hkey]
    change (readMember _ _ _ _ >>= _) = _
    rw [hmember]
    exact ih false (by omega)

/-- A record is read from an object of its members. -/
theorem readRecord_object {layout : Layout ρ α} {a : α}
    (hcollects : Collects layout.fields layout.blank members r) (ha : layout.ofObject r = .ok a)
    (rest : List Char) : readRecord layout (object members ++ rest) = .ok (a, rest) := by
  have hobject : object members ++ rest =
      '\x7b' :: (membersChars true members ++ '\x7d' :: rest) := by
    have hmembers : members.map (fun m => quote m.1 ++ ':' :: m.2) = members.map memberChars := rfl
    rw [membersChars_eq, ← intercalate_parts, object, hmembers]
    simp
  have hlength := length_le_membersChars true members
  have hread : readMembers layout.fields ((membersChars true members ++ '\x7d' :: rest).length + 1) true
      layout.blank (membersChars true members ++ '\x7d' :: rest) = .ok (r, rest) := by
    apply readMembers_membersChars hcollects
    rw [List.length_append]
    omega
  rw [hobject, readRecord, skipSpace_cons (by decide)]
  change (readMembers _ _ _ _ _ >>= _) = _
  rw [hread]
  change (layout.ofObject r >>= _) = _
  rw [ha]
  rfl

theorem readAll_object {layout : Layout ρ α} {a : α}
    (hcollects : Collects layout.fields layout.blank members r) (ha : layout.ofObject r = .ok a) :
    readAll (readRecord layout) (String.ofList (object members)) = .ok a := by
  have hread := readRecord_object hcollects ha []
  rw [List.append_nil] at hread
  rw [readAll, String.toList_ofList, hread]
  rfl

/-! ### Lists -/

/-- An element as it is written. It is not mistaken for a blank or for the end of a list. -/
structure ReadsBack (element : Reader α) (chars : List Char) (a : α) : Prop where
  begins : ∃ c cs, chars = c :: cs ∧ isSpace c = false ∧ c ≠ ']'
  read : ∀ rest, element (chars ++ rest) = .ok (a, rest)

variable {element : Reader α} {write : α → List Char} {chars : List Char} {a : α} {as : List α}

theorem ReadsBack.next_first (h : ReadsBack element chars a) (rest : List Char) :
    nextElement true (chars ++ rest) = .ok (true, chars ++ rest) := by
  obtain ⟨c, cs, rfl, hspace, hend⟩ := h.begins
  rw [nextElement, List.cons_append, skipSpace_cons hspace]
  split
  next hnil => cases hnil
  next hcons => exact absurd (List.cons.inj hcons).1 hend
  next hcons =>
    rw [if_pos rfl, hcons]
  next => rfl

theorem ReadsBack.next_later (h : ReadsBack element chars a) (rest : List Char) :
    nextElement false (',' :: (chars ++ rest)) = .ok (true, chars ++ rest) := by
  obtain ⟨c, cs, rfl, hspace, hend⟩ := h.begins
  have hlast : (skipSpace (c :: cs ++ rest)).head? ≠ some ']' := by
    rw [List.cons_append, skipSpace_cons hspace]
    simpa using hend
  rw [nextElement, skipSpace_cons (by decide)]
  change (if _ then _ else if _ then _ else _) = _
  rw [if_neg (by decide), if_neg hlast]

/-- The elements of a list are read one after another. -/
theorem readElements_partsChars (h : ∀ a ∈ as, ReadsBack element (write a) a) (first : Bool)
    (rest : List Char) {fuel : Nat} (hfuel : as.length < fuel) :
    readElements element fuel first (partsChars first (as.map write) ++ ']' :: rest) =
      .ok (as, rest) := by
  induction as generalizing first fuel with
  | nil =>
    obtain ⟨fuel, rfl⟩ := Nat.exists_eq_succ_of_ne_zero (Nat.ne_of_gt hfuel)
    cases first <;> rfl
  | cons a as ih =>
    rw [List.length_cons] at hfuel
    obtain ⟨fuel, rfl⟩ := Nat.exists_eq_succ_of_ne_zero (Nat.ne_zero_of_lt hfuel)
    obtain ⟨ha, has⟩ := List.forall_mem_cons.mp h
    have hnext : nextElement first (partsChars first ((a :: as).map write) ++ ']' :: rest) =
        .ok (true, write a ++ (partsChars false (as.map write) ++ ']' :: rest)) := by
      cases first <;> simp [partsChars, ha.next_first, ha.next_later]
    have hlater := ih has false (show as.length < fuel by omega)
    rw [readElements, hnext]
    change (element _ >>= _) = _
    rw [ha.read]
    change (readElements _ _ _ _ >>= _) = _
    rw [hlater]
    rfl

/-- A list is read from its elements. -/
theorem readList_list (h : ∀ a ∈ as, ReadsBack element (write a) a) (rest : List Char) :
    readList element (list (as.map write) ++ rest) = .ok (as, rest) := by
  have hlist : list (as.map write) ++ rest = '[' :: (partsChars true (as.map write) ++ ']' :: rest) := by
    rw [list, intercalate_parts]
    simp
  have hlength : as.length ≤ (partsChars true (as.map write) ++ ']' :: rest).length := by
    cases as with
    | nil => exact Nat.zero_le _
    | cons a as =>
      have hlater := length_le_partsChars (as.map write)
      simp only [List.map_cons, partsChars, List.length_append, List.length_cons, List.length_map]
        at hlater ⊢
      omega
  rw [hlist, readList, skipSpace_cons (by decide)]
  exact readElements_partsChars h true rest (by omega)

theorem readAll_list (h : ∀ a ∈ as, ReadsBack element (write a) a) :
    readAll (readList element) (String.ofList (list (as.map write))) = .ok as := by
  have hread := readList_list h []
  rw [List.append_nil] at hread
  rw [readAll, String.toList_ofList, hread]
  rfl

end OverlayTunnel.Json
