import Mathlib.Logic.ExistsUnique
import OverlayTunnel.Failure
import OverlayTunnel.Proofs.Key.Text
import OverlayTunnel.Proofs.Traversal

/-!
Every key has one text. What is decoded as Base64 is the text of the bytes that come of it: whole groups
of symbols, then a last one with its pads, in which no spare bit is set.
-/
namespace OverlayTunnel

namespace Base64

/-! ### What was read -/

theorem symbolByte_of_sextet? {b : UInt8} {n : Nat} (h : sextet? b = some n) :
    n < 64 ∧ symbolByte n = b := by
  obtain ⟨hn, hsymbol⟩ := symbol_of_sextet? h
  have hvalid : b.toNat.isValidChar := .inl (Nat.lt_trans b.toNat_lt (by decide))
  have hchar : (Char.ofNat b.toNat).toNat = b.toNat := by
    rw [Char.ofNat, dif_pos hvalid]
    rfl
  refine ⟨hn, ?_⟩
  rw [symbolByte, hsymbol, hchar, UInt8.ofNat_toNat]

theorem symbolBytes_of_readSymbols {offset : Nat} {bs : List UInt8} {ns : List Nat}
    (h : readSymbols offset bs = .ok ns) : bs = ns.map symbolByte ∧ ∀ n ∈ ns, n < 64 := by
  induction bs generalizing offset ns with
  | nil =>
    cases h
    exact ⟨rfl, nofun⟩
  | cons b bs ih =>
    rw [readSymbols] at h
    split at h
    next => cases h
    next n hn =>
      cases hread : readSymbols (offset + 1) bs with
      | error e =>
        rw [hread] at h
        cases h
      | ok ms =>
        rw [hread] at h
        cases h
        obtain ⟨hbs, hms⟩ := ih hread
        obtain ⟨hlt, hb⟩ := symbolByte_of_sextet? hn
        exact ⟨by rw [List.map_cons, hb, ← hbs], List.forall_mem_cons.mpr ⟨hlt, hms⟩⟩

/-- Behind a pad there are only pads. -/
theorem padBytes_of_readLast {offset i pad : Nat} {group group' : LastGroup} {bs : List UInt8}
    (hpad : group.firstPad = some pad) (h : readLast offset group i bs = .ok group') :
    ∃ n, bs = List.replicate n padByte ∧ group'.sextets = group.sextets ∧
      group'.pads = group.pads + n := by
  induction bs generalizing group i with
  | nil =>
    cases h
    exact ⟨0, rfl, rfl, rfl⟩
  | cons b bs ih =>
    rw [readLast] at h
    split at h
    next hb =>
      split at h
      next => cases h
      next =>
        obtain ⟨n, hbs, hsextets, hpads⟩ := ih (by rw [hpad, Option.getD_some]) h
        refine ⟨n + 1, by rw [List.replicate_succ, hb, ← hbs], hsextets, ?_⟩
        rw [hpads]
        dsimp only
        omega
    next =>
      rw [hpad] at h
      cases h

/-- The last group has its symbols first and its pads behind them. -/
theorem symbolBytes_of_readLast {offset i : Nat} {group group' : LastGroup} {bs : List UInt8}
    (hpad : group.firstPad = none) (h : readLast offset group i bs = .ok group') :
    ∃ ds n, bs = ds.map symbolByte ++ List.replicate n padByte ∧ (∀ d ∈ ds, d < 64) ∧
      group'.sextets = group.sextets ++ ds ∧ group'.pads = group.pads + n := by
  induction bs generalizing group i with
  | nil =>
    cases h
    exact ⟨[], 0, rfl, nofun, by simp, rfl⟩
  | cons b bs ih =>
    rw [readLast] at h
    split at h
    next hb =>
      split at h
      next => cases h
      next =>
        obtain ⟨n, hbs, hsextets, hpads⟩ := padBytes_of_readLast rfl h
        refine ⟨[], n + 1, ?_, nofun, by simpa using hsextets, ?_⟩
        · rw [List.map_nil, List.nil_append, List.replicate_succ, hb, ← hbs]
        · rw [hpads]
          dsimp only
          omega
    next =>
      rw [hpad] at h
      dsimp only at h
      split at h
      next => cases h
      next d hd =>
        obtain ⟨ds, n, hbs, hds, hsextets, hpads⟩ := ih rfl h
        obtain ⟨hlt, hb⟩ := symbolByte_of_sextet? hd
        refine ⟨d :: ds, n, ?_, List.forall_mem_cons.mpr ⟨hlt, hds⟩, ?_, hpads⟩
        · rw [List.map_cons, List.cons_append, hb, ← hbs]
        · rw [hsextets, List.append_assoc, List.singleton_append]

/-! ### What the bytes are written as -/

theorem value_bytes_expand {k n : Nat} (h : n < 256 ^ k) :
    Radix.value 256 (((Radix.expand 256 k n).map UInt8.ofNat).map UInt8.toNat) = n := by
  rw [Radix.toNat_bytes_expand, Radix.value_expand, Nat.mod_eq_of_lt h]

theorem symbols_value {ds : List Nat} {k : Nat} (hk : ds.length = k) (h : ∀ d ∈ ds, d < 64) :
    symbols k (Radix.value 64 ds) = ds.map symbol := by
  rw [symbols, Radix.expand_value 64 hk h]

theorem encode_append {group : List UInt8} (h : group.length = 3) (bytes : List UInt8) :
    encode (group ++ bytes) = symbols 4 (Radix.value 256 (group.map UInt8.toNat)) ++ encode bytes := by
  match group, h with
  | [_, _, _], _ => rfl

/-- Whole groups of symbols are the text of the bytes that they stand for. -/
theorem encode_joinGroups_append {ns : List Nat} (h : ∀ n ∈ ns, n < 64) (hlength : ns.length % 4 = 0)
    (bytes : List UInt8) : encode (joinGroups ns ++ bytes) = ns.map symbol ++ encode bytes := by
  induction ns using joinGroups.induct with
  | case1 a b c d rest ih =>
    have hsplit : a :: b :: c :: d :: rest = [a, b, c, d] ++ rest := rfl
    rw [hsplit] at h hlength ⊢
    have hgroup : ∀ n ∈ [a, b, c, d], n < 64 := fun n hn => h n (List.mem_append_left rest hn)
    have hlater : ∀ n ∈ rest, n < 64 := fun n hn => h n (List.mem_append_right _ hn)
    have hrest : rest.length % 4 = 0 := by
      rw [List.length_append] at hlength
      simp only [List.length_cons, List.length_nil] at hlength
      omega
    have hlt : Radix.value 64 [a, b, c, d] < 64 ^ 4 := Radix.value_lt (by decide) rfl hgroup
    rw [show (64 : Nat) ^ 4 = 256 ^ 3 by decide] at hlt
    have hsymbols : symbols 4 (Radix.value 64 [a, b, c, d]) = _ := symbols_value rfl hgroup
    rw [joinGroups_append rfl, List.append_assoc, encode_append (by simp), value_bytes_expand hlt,
      hsymbols, ih hlater hrest, List.map_append, List.append_assoc]
  | case2 ns hshort =>
    match ns, hlength with
    | [], _ => rfl
    | a :: b :: c :: d :: rest, _ => exact absurd rfl (hshort a b c d rest)

/-- One to three last bytes have a symbol more than they are, and as many pads as are left. -/
theorem encode_last {last : List UInt8} (hone : 1 ≤ last.length) (hthree : last.length ≤ 3) :
    encode last =
      symbols (last.length + 1) (Radix.value 256 (last.map UInt8.toNat) * 2 ^ (6 - 2 * last.length)) ++
        List.replicate (3 - last.length) '=' := by
  match last, hone, hthree with
  | [a], _, _ => simp [encode, Radix.value]
  | [a, b], _, _ => rfl
  | [a, b, c], _, _ => simp [encode]

theorem encode_of_joinLast {offset pads : Nat} {group : LastGroup} {last : List UInt8}
    (h : joinLast offset group = .ok last) (hsextets : ∀ d ∈ group.sextets, d < 64)
    (htwo : 2 ≤ group.sextets.length) (hfour : group.sextets.length + pads = 4) :
    encode last = group.sextets.map symbol ++ List.replicate pads '=' := by
  unfold joinLast at h
  dsimp only at h
  split at h
  next => cases h
  next hspare =>
    cases h
    have hlt := Radix.value_lt (by decide) rfl hsextets
    generalize hsize : group.sextets.length * 6 / 8 = size at hspare ⊢
    have hcount : group.sextets.length = size + 1 := by omega
    have hpower : group.sextets.length * 6 - size * 8 = 6 - 2 * size := by omega
    have hsizes : 1 ≤ size ∧ size ≤ 3 := by omega
    have hwidth : 64 ^ group.sextets.length = 256 ^ size * 2 ^ (6 - 2 * size) := by
      rw [hcount]
      obtain rfl | rfl | rfl : size = 1 ∨ size = 2 ∨ size = 3 := by omega
      all_goals rfl
    rw [hpower] at hspare ⊢
    have hzero : Radix.value 64 group.sextets % 2 ^ (6 - 2 * size) = 0 := Decidable.not_not.mp hspare
    have hquotient : Radix.value 64 group.sextets / 2 ^ (6 - 2 * size) < 256 ^ size := by
      rw [hwidth] at hlt
      exact Nat.div_lt_of_lt_mul (by rwa [Nat.mul_comm])
    have hlength : ((Radix.expand 256 size
        (Radix.value 64 group.sextets / 2 ^ (6 - 2 * size))).map UInt8.ofNat).length = size := by simp
    rw [encode_last (by omega) (by omega), value_bytes_expand hquotient, hlength,
      Nat.div_mul_cancel (Nat.dvd_of_mod_eq_zero hzero), symbols_value hcount hsextets,
      show 3 - size = pads by omega]

/-! ### Whole texts -/

theorem frontLength_le (n : Nat) : frontLength n ≤ n := by
  unfold frontLength
  split <;> omega

/-- Up to four bytes are left to the last group. -/
theorem frontLength_spec (n : Nat) : frontLength n % 4 = 0 ∧ n ≤ frontLength n + 4 := by
  unfold frontLength
  split <;> omega

theorem map_symbol_bytes (ns : List Nat) :
    (ns.map symbol).map (fun c => UInt8.ofNat c.toNat) = ns.map symbolByte := by
  rw [List.map_map]
  rfl

/-- The front of a text and its last group, which are read one after the other. -/
theorem exists_of_decode {bytes out : List UInt8} (h : decode bytes = .ok out) :
    ∃ ns group last,
      readSymbols 0 (bytes.take (frontLength bytes.length)) = .ok ns ∧
      readLast (frontLength bytes.length) ⟨[], 0, none, 0⟩ 0 (bytes.drop (frontLength bytes.length)) =
        .ok group ∧
      (bytes ≠ [] → 2 ≤ group.sextets.length) ∧ (group.pads + group.sextets.length) % 4 = 0 ∧
      joinLast (frontLength bytes.length) group = .ok last ∧ out = joinGroups ns ++ last := by
  unfold decode at h
  split at h
  next => cases h
  next =>
    obtain ⟨ns, hfront, h⟩ := bind_eq_ok h
    obtain ⟨group, hgroup, h⟩ := bind_eq_ok h
    dsimp only at h
    split at h
    next => cases h
    next hmany =>
      split at h
      next => cases h
      next hwhole =>
        obtain ⟨last, hlast, h⟩ := bind_eq_ok h
        cases h
        have htwo : bytes ≠ [] → 2 ≤ group.sextets.length :=
          fun hbytes => Nat.le_of_not_lt fun hlt => hmany ⟨hbytes, hlt⟩
        exact ⟨ns, group, last, hfront, hgroup, htwo, Decidable.not_not.mp hwhole, hlast, rfl⟩

/-- Only the text of a byte sequence is decoded to it. -/
theorem eq_encode_of_decode {bytes out : List UInt8} (h : decode bytes = .ok out) :
    bytes = Utf8.encode (encode out) := by
  by_cases hbytes : bytes = []
  · subst hbytes
    cases h
    rfl
  obtain ⟨ns, group, last, hfront, hgroup, htwo, hwhole, hlast, rfl⟩ := exists_of_decode h
  obtain ⟨hfront, hns⟩ := symbolBytes_of_readSymbols hfront
  obtain ⟨ds, n, hback, hds, hsextets, hpads⟩ := symbolBytes_of_readLast rfl hgroup
  rw [List.nil_append] at hsextets
  rw [← hsextets] at hds hback
  rw [Nat.zero_add] at hpads
  obtain ⟨hgroups, hrest⟩ := frontLength_spec bytes.length
  have hnsLength : frontLength bytes.length = ns.length := by
    have hlength := congrArg List.length hfront
    rwa [List.length_map, List.length_take_of_le (frontLength_le _)] at hlength
  have hbackLength : bytes.length - frontLength bytes.length = group.sextets.length + n := by
    have hlength := congrArg List.length hback
    rwa [List.length_append, List.length_map, List.length_replicate, List.length_drop] at hlength
  have htwo := htwo hbytes
  have hlast := encode_of_joinLast hlast hds htwo (show group.sextets.length + n = 4 by omega)
  rw [Utf8.encode_of_isVisible fun c hc => isVisible_of_mem_encode hc,
    encode_joinGroups_append hns (by omega), hlast, List.map_append, List.map_append,
    map_symbol_bytes, map_symbol_bytes, List.map_replicate, ← hfront]
  change bytes = _ ++ (_ ++ List.replicate n padByte)
  rw [← hback, List.take_append_drop]

theorem decode_eq_ok_iff {bytes out : List UInt8} :
    decode bytes = .ok out ↔ bytes = Utf8.encode (encode out) := by
  constructor
  · exact eq_encode_of_decode
  · rintro rfl
    exact decode_encode out

-- Two symbols stand for one byte and four bits to spare, of which this text sets the last.
example : decode [65, 66, 61, 61] = .error (.invalidLastSymbol 66 1) := rfl

theorem length_encode (bytes : List UInt8) : (encode bytes).length = (bytes.length + 2) / 3 * 4 := by
  induction bytes using encode.induct with
  | case1 => rfl
  | case2 a => simp [encode, symbols]
  | case3 a b => simp [encode, symbols]
  | case4 a b c rest ih =>
    rw [encode, List.length_append, ih, symbols, List.length_map, Radix.length_expand]
    simp only [List.length_cons]
    omega

end Base64

theorem Utf8.encode_inj {s t : List Char} : encode s = encode t ↔ s = t := by
  constructor
  · intro h
    have hscan := scan_encode s
    rw [h, scan_encode] at hscan
    exact (List.map_inj_right fun _ _ => Option.some.inj).mp hscan.symm
  · rintro rfl
    rfl

/-! ### Keys -/

theorem decodeKey_eq_ok_iff {s : String} {key : { bytes : List UInt8 // bytes.length = keySize }} :
    decodeKey s = .ok key ↔ Text.trim s.toList = Base64.encode key.1 := by
  rw [← Utf8.encode_inj, ← Base64.decode_eq_ok_iff]
  unfold decodeKey
  cases hdecode : Base64.decode (Utf8.encode (Text.trim s.toList)) with
  | error cause => simp
  | ok bytes =>
    dsimp only
    split
    next h => simp [Subtype.ext_iff]
    next h =>
      have hother : bytes ≠ key.1 := by
        rintro rfl
        exact h key.2
      simp [hother]

theorem PublicKey.ofText_eq_ok_iff {s : String} {key : PublicKey} :
    PublicKey.ofText s = .ok key ↔ Text.trimmed s = key.text := by
  obtain ⟨bytes, hbytes⟩ := key
  have hdecode : decodeKey s = .ok ⟨bytes, hbytes⟩ ↔ Text.trim s.toList = Base64.encode bytes :=
    decodeKey_eq_ok_iff
  rw [text, Text.trimmed_eq_iff, chars, ← hdecode, ofText]
  cases decodeKey s <;> simp [Except.map, Subtype.ext_iff]

theorem PrivateKey.ofText_eq_ok_iff {s : String} {key : PrivateKey} :
    PrivateKey.ofText s = .ok key ↔ Text.trimmed s = key.text := by
  obtain ⟨bytes, hbytes⟩ := key
  have hdecode : decodeKey s = .ok ⟨bytes, hbytes⟩ ↔ Text.trim s.toList = Base64.encode bytes :=
    decodeKey_eq_ok_iff
  rw [text, Text.trimmed_eq_iff, chars, ← hdecode, ofText]
  cases decodeKey s <;> simp [Except.map, Subtype.ext_iff]

theorem trimmed_ofList_encode (bytes : List UInt8) :
    Text.trimmed (String.ofList (Base64.encode bytes)) = String.ofList (Base64.encode bytes) := by
  rw [Text.trimmed_eq_iff, String.toList_ofList]
  exact Text.trim_of_isVisible fun c hc => Base64.isVisible_of_mem_encode hc

theorem length_ofList_encode {bytes : List UInt8} (h : bytes.length = keySize) :
    (String.ofList (Base64.encode bytes)).length = 44 := by
  rw [String.length_ofList, Base64.length_encode, h]
  rfl

theorem decodeKey_eq_error {s : String} (h : ∀ key : PublicKey, Text.trimmed s ≠ key.text) :
    ∃ cause, decodeKey s = .error cause := by
  cases hdecode : decodeKey s with
  | error cause => exact ⟨cause, rfl⟩
  | ok key =>
    have htext := decodeKey_eq_ok_iff.mp hdecode
    exact absurd (Text.trimmed_eq_iff.mpr htext) (h ⟨key.1, key.2⟩)

/-- A text is that of a key exactly if it is the Base64 text of the key once the blanks around it are
trimmed, and every other text is an invalid key, public or private. So a key has one trimmed text, which
has 44 characters and is read back, and what is read is written as it stood there. -/
theorem key_has_one_text (s : String) (key : PublicKey) (secret : PrivateKey) :
    (PublicKey.ofText s = .ok key ↔ Text.trimmed s = key.text) ∧
    (PrivateKey.ofText s = .ok secret ↔ Text.trimmed s = secret.text) ∧
    ((∀ k : PublicKey, Text.trimmed s ≠ k.text) → ∃ reason,
      (PublicKey.ofText s).mapError .ofKey = .error (Failure.invalidKey reason) ∧
      (PrivateKey.ofText s).mapError .ofKey = .error (Failure.invalidKey reason)) ∧
    (∃! text, Text.trimmed text = text ∧ PublicKey.ofText text = .ok key) ∧
    (∃! text, Text.trimmed text = text ∧ PrivateKey.ofText text = .ok secret) ∧
    key.text.length = 44 ∧ secret.text.length = 44 ∧
    PublicKey.ofText key.text = .ok key ∧ PrivateKey.ofText secret.text = .ok secret := by
  have hkey : Text.trimmed key.text = key.text := trimmed_ofList_encode key.bytes
  have hsecret : Text.trimmed secret.text = secret.text := trimmed_ofList_encode secret.bytes
  refine ⟨PublicKey.ofText_eq_ok_iff, PrivateKey.ofText_eq_ok_iff, ?_, ?_, ?_,
    length_ofList_encode key.length_bytes, length_ofList_encode secret.length_bytes, key.ofText_text,
    secret.ofText_text⟩
  · intro hother
    obtain ⟨cause, hcause⟩ := decodeKey_eq_error hother
    refine ⟨cause.message, ?_, ?_⟩
    · rw [PublicKey.ofText, hcause]
      rfl
    · rw [PrivateKey.ofText, hcause]
      rfl
  · refine ⟨key.text, ⟨hkey, key.ofText_text⟩, ?_⟩
    rintro text ⟨htrimmed, hread⟩
    rw [← htrimmed, PublicKey.ofText_eq_ok_iff.mp hread]
  · refine ⟨secret.text, ⟨hsecret, secret.ofText_text⟩, ?_⟩
    rintro text ⟨htrimmed, hread⟩
    rw [← htrimmed, PrivateKey.ofText_eq_ok_iff.mp hread]

end OverlayTunnel
