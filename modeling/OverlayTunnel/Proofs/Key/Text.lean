import OverlayTunnel.Key.Basic
import OverlayTunnel.Proofs.Text.Visible

/-!
Keys are read back from their texts. All whole groups of a Base64 text but the last are read one way and
the last one, which may be padded, another way.
-/
namespace OverlayTunnel

namespace Base64

/-- The byte of a symbol. -/
def symbolByte (n : Nat) : UInt8 :=
  UInt8.ofNat (symbol n).toNat

theorem isVisible_symbol {n : Nat} (h : n < 64) : Text.isVisible (symbol n) = true := by
  revert n
  decide

theorem symbolByte_ne_padByte {n : Nat} (h : n < 64) : symbolByte n ≠ padByte := by
  revert n
  decide

theorem sextet?_symbolByte {n : Nat} (h : n < 64) : sextet? (symbolByte n) = some n :=
  sextet?_symbol h

theorem readSymbols_symbolBytes (offset : Nat) {ns : List Nat} (h : ∀ n ∈ ns, n < 64) :
    readSymbols offset (ns.map symbolByte) = .ok ns := by
  induction ns generalizing offset with
  | nil => rfl
  | cons n ns ih =>
    have hn := sextet?_symbolByte (h n List.mem_cons_self)
    have hns := ih (offset + 1) fun m hm => h m (List.mem_cons_of_mem _ hm)
    rw [List.map_cons, readSymbols, hn]
    dsimp only
    rw [hns]
    rfl

theorem ofNat_toNat_bytes (bytes : List UInt8) : (bytes.map UInt8.toNat).map UInt8.ofNat = bytes := by
  simp [Function.comp_def]

theorem expand_value_bytes {bytes : List UInt8} {k : Nat} (hk : bytes.length = k) :
    (Radix.expand 256 k (Radix.value 256 (bytes.map UInt8.toNat))).map UInt8.ofNat = bytes := by
  rw [Radix.expand_value 256 (by simpa using hk), ofNat_toNat_bytes]
  intro d hd
  obtain ⟨b, -, rfl⟩ := List.mem_map.mp hd
  exact b.toNat_lt

theorem value_bytes_lt {bytes : List UInt8} {k : Nat} (hk : bytes.length = k) :
    Radix.value 256 (bytes.map UInt8.toNat) < 256 ^ k := by
  apply Radix.value_lt (by decide) (by simpa using hk)
  intro d hd
  obtain ⟨b, -, rfl⟩ := List.mem_map.mp hd
  exact b.toNat_lt

/-! ### The groups before the last -/

theorem joinGroups_append {ds : List Nat} (h : ds.length = 4) (ns : List Nat) :
    joinGroups (ds ++ ns) =
      (Radix.expand 256 3 (Radix.value 64 ds)).map UInt8.ofNat ++ joinGroups ns := by
  match ds, h with
  | [_, _, _, _], _ => rfl

theorem joinGroups_expand (a b c : UInt8) (ns : List Nat) :
    joinGroups (Radix.expand 64 4 (Radix.value 256 [a.toNat, b.toNat, c.toNat]) ++ ns) =
      [a, b, c] ++ joinGroups ns := by
  have hlength : [a, b, c].length = 3 := rfl
  have hlt := value_bytes_lt hlength
  have hbytes := expand_value_bytes hlength
  rw [show (256 : Nat) ^ 3 = 64 ^ 4 by decide] at hlt
  simp only [List.map_cons, List.map_nil] at hlt hbytes
  rw [joinGroups_append (Radix.length_expand 64 4 _), Radix.value_expand, Nat.mod_eq_of_lt hlt,
    hbytes]

/-- A text is that of whole groups, and then that of the last one to three bytes. -/
theorem encode_split {bytes : List UInt8} (h : bytes ≠ []) :
    ∃ (ns : List Nat) (last : List UInt8), bytes = joinGroups ns ++ last ∧
      encode bytes = ns.map symbol ++ encode last ∧ (∀ n ∈ ns, n < 64) ∧ ns.length % 4 = 0 ∧
      1 ≤ last.length ∧ last.length ≤ 3 := by
  induction bytes using encode.induct with
  | case1 => exact absurd rfl h
  | case2 a => exact ⟨[], [a], rfl, rfl, by simp, rfl, by simp, by simp⟩
  | case3 a b => exact ⟨[], [a, b], rfl, rfl, by simp, rfl, by simp, by simp⟩
  | case4 a b c rest ih =>
    cases rest with
    | nil => exact ⟨[], [a, b, c], rfl, rfl, by simp, rfl, by simp, by simp⟩
    | cons d rest =>
      -- More bytes follow, so the first three of them are a whole group and not the last one.
      obtain ⟨ns, last, hbytes, hencode, hns, hlength, hlast⟩ := ih (by simp)
      refine ⟨Radix.expand 64 4 (Radix.value 256 [a.toNat, b.toNat, c.toNat]) ++ ns, last, ?_, ?_,
        ?_, ?_, hlast⟩
      · rw [joinGroups_expand, hbytes]
        rfl
      · rw [encode, hencode, symbols, List.map_append, List.append_assoc]
      · intro n hn
        rcases List.mem_append.mp hn with hn | hn
        · exact Radix.lt_of_mem_expand (by decide) hn
        · exact hns n hn
      · rw [List.length_append, Radix.length_expand]
        omega

/-! ### The last group -/

theorem readLast_symbolBytes (offset : Nat) (sextets : List Nat) (lastSymbol : UInt8) (i : Nat)
    {ds : List Nat} (h : ∀ d ∈ ds, d < 64) (bs : List UInt8) :
    ∃ b, readLast offset ⟨sextets, lastSymbol, none, 0⟩ i (ds.map symbolByte ++ bs) =
      readLast offset ⟨sextets ++ ds, b, none, 0⟩ (i + ds.length) bs := by
  induction ds generalizing sextets lastSymbol i with
  | nil => exact ⟨lastSymbol, by simp⟩
  | cons d ds ih =>
    have hd : d < 64 := h d List.mem_cons_self
    have hds : ∀ e ∈ ds, e < 64 := fun e he => h e (List.mem_cons_of_mem _ he)
    obtain ⟨b, hb⟩ := ih (sextets ++ [d]) (symbolByte d) (i + 1) hds
    refine ⟨b, ?_⟩
    rw [List.map_cons, List.cons_append, readLast, if_neg (symbolByte_ne_padByte hd)]
    dsimp only
    rw [sextet?_symbolByte hd]
    dsimp only
    rw [hb, List.length_cons, List.append_assoc, List.singleton_append, Nat.add_assoc,
      Nat.add_comm 1]

theorem readLast_padBytes (offset : Nat) (group : LastGroup) {i : Nat} (hi : 2 ≤ i) (n : Nat) :
    ∃ group', readLast offset group i (List.replicate n padByte) = .ok group' ∧
      group'.sextets = group.sextets ∧ group'.pads = group.pads + n := by
  induction n generalizing group i with
  | zero => exact ⟨group, rfl, rfl, rfl⟩
  | succ n ih =>
    obtain ⟨group', hread, hsextets, hpads⟩ := ih
      { group with firstPad := some (group.firstPad.getD i), pads := group.pads + 1 }
      (show 2 ≤ i + 1 by omega)
    refine ⟨group', ?_, hsextets, ?_⟩
    · rw [List.replicate_succ, readLast, if_pos rfl, if_neg (by omega), hread]
    · rw [hpads]
      dsimp only
      omega

theorem readLast_eq_ok (offset : Nat) {ds : List Nat} (h : ∀ d ∈ ds, d < 64) (htwo : 2 ≤ ds.length)
    (n : Nat) :
    ∃ group, readLast offset ⟨[], 0, none, 0⟩ 0 (ds.map symbolByte ++ List.replicate n padByte) =
      .ok group ∧ group.sextets = ds ∧ group.pads = n := by
  obtain ⟨b, hb⟩ := readLast_symbolBytes offset [] 0 0 h (List.replicate n padByte)
  rw [hb]
  obtain ⟨group, hread, hsextets, hpads⟩ :=
    readLast_padBytes offset ⟨[] ++ ds, b, none, 0⟩ (show 2 ≤ 0 + ds.length by omega) n
  exact ⟨group, hread, by simpa using hsextets, by simpa using hpads⟩

/-- The last group holds its bytes in front of spare bits that are zero. -/
theorem joinLast_eq_ok (offset spare : Nat) {group : LastGroup} {last : List UInt8}
    (hsize : group.sextets.length * 6 / 8 = last.length)
    (hspare : group.sextets.length * 6 - last.length * 8 = spare)
    (hvalue : Radix.value 64 group.sextets = Radix.value 256 (last.map UInt8.toNat) * 2 ^ spare) :
    joinLast offset group = .ok last := by
  have hpos : 0 < 2 ^ spare := Nat.pow_pos (by decide)
  unfold joinLast
  dsimp only
  rw [hsize, hspare, hvalue, Nat.mul_mod_left, if_neg (by simp), Nat.mul_div_cancel _ hpos,
    expand_value_bytes rfl]

/-- The symbols of up to three last bytes: how many there are, and what they are worth. -/
theorem joinLast_expand (offset size count : Nat) {last : List UInt8} {spare : Nat}
    {group : LastGroup} (hlast : last.length = size) (hsize : count * 6 / 8 = size)
    (hspare : count * 6 - size * 8 = spare) (hcount : 256 ^ size * 2 ^ spare = 64 ^ count)
    (hgroup : group.sextets =
      Radix.expand 64 count (Radix.value 256 (last.map UInt8.toNat) * 2 ^ spare)) :
    joinLast offset group = .ok last := by
  have hlength : group.sextets.length = count := by rw [hgroup, Radix.length_expand]
  have hlt : Radix.value 256 (last.map UInt8.toNat) * 2 ^ spare < 64 ^ count := by
    rw [← hcount]
    exact Nat.mul_lt_mul_of_pos_right (value_bytes_lt hlast) (Nat.pow_pos (by decide))
  apply joinLast_eq_ok offset spare
  · rw [hlength, hsize, hlast]
  · rw [hlength, hlast, hspare]
  · rw [hgroup, Radix.value_expand, Nat.mod_eq_of_lt hlt]

/-- A text that ends with the last group: symbols and pads, four together. -/
structure EndsGroup (last : List UInt8) (ds : List Nat) (pads : Nat) : Prop where
  encode_eq : encode last = ds.map symbol ++ List.replicate pads '='
  lt : ∀ d ∈ ds, d < 64
  two_le : 2 ≤ ds.length
  four : ds.length + pads = 4
  joinLast_eq : ∀ (offset : Nat) (group : LastGroup), group.sextets = ds →
    joinLast offset group = .ok last

theorem exists_endsGroup {last : List UInt8} (hone : 1 ≤ last.length) (hthree : last.length ≤ 3) :
    ∃ ds pads, EndsGroup last ds pads := by
  have hlt (k v : Nat) : ∀ d ∈ Radix.expand 64 k v, d < 64 :=
    fun d hd => Radix.lt_of_mem_expand (by decide) hd
  match last, hone, hthree with
  | [a], _, _ =>
    refine ⟨_, 2, (rfl : encode [a] = _), hlt _ _, by simp, by simp, ?_⟩
    intro offset group hgroup
    refine joinLast_expand offset 1 2 rfl rfl rfl (by decide) ?_
    rw [hgroup]
    simp [Radix.value]
  | [a, b], _, _ =>
    refine ⟨_, 1, (rfl : encode [a, b] = _), hlt _ _, by simp, by simp, ?_⟩
    intro offset group hgroup
    refine joinLast_expand offset 2 3 rfl rfl rfl (by decide) ?_
    rw [hgroup]
    simp [Radix.value]
  | [a, b, c], _, _ =>
    refine ⟨_, 0, (rfl : encode [a, b, c] = _), hlt _ _, by simp, by simp, ?_⟩
    intro offset group hgroup
    refine joinLast_expand offset 3 4 rfl rfl rfl (by decide) ?_
    rw [hgroup]
    simp [Radix.value]

/-! ### Whole texts -/

/-- The bytes of a text: those of whole groups of symbols, and then those of the last group. -/
theorem decode_groups {ns ds : List Nat} {last : List UInt8} {pads : Nat} (hns : ∀ n ∈ ns, n < 64)
    (hlength : ns.length % 4 = 0) (hlast : EndsGroup last ds pads) :
    decode (ns.map symbolByte ++ (ds.map symbolByte ++ List.replicate pads padByte)) =
      .ok (joinGroups ns ++ last) := by
  have hfour := hlast.four
  have htwo := hlast.two_le
  have hstray : strayByte? (ns.map symbolByte ++ (ds.map symbolByte ++ List.replicate pads padByte)) =
      none := by
    unfold strayByte?
    rw [if_neg]
    simp only [List.length_append, List.length_map, List.length_replicate]
    omega
  have hfront : frontLength (ns.map symbolByte ++
      (ds.map symbolByte ++ List.replicate pads padByte)).length = (ns.map symbolByte).length := by
    unfold frontLength
    simp only [List.length_append, List.length_map, List.length_replicate]
    rw [if_pos (by omega)]
    omega
  obtain ⟨group, hread, hsextets, hpads⟩ :=
    readLast_eq_ok (ns.map symbolByte).length hlast.lt htwo pads
  have hjoin := hlast.joinLast_eq (ns.map symbolByte).length group hsextets
  unfold decode
  rw [hstray]
  dsimp only
  rw [hfront, List.take_left, List.drop_left, readSymbols_symbolBytes 0 hns, hread]
  have hmany : ¬ group.sextets.length < 2 := by rw [hsextets]; omega
  have hwhole : (group.pads + group.sextets.length) % 4 = 0 := by rw [hsextets, hpads]; omega
  simp only [bind, Except.bind, pure, Except.pure, hmany, hwhole, hjoin]
  simp

theorem encode_eq_groups {bytes : List UInt8} (h : bytes ≠ []) :
    ∃ ns last ds pads, bytes = joinGroups ns ++ last ∧ (∀ n ∈ ns, n < 64) ∧ ns.length % 4 = 0 ∧
      EndsGroup last ds pads ∧
      encode bytes = ns.map symbol ++ (ds.map symbol ++ List.replicate pads '=') := by
  obtain ⟨ns, last, hbytes, hencode, hns, hlength, hone, hthree⟩ := encode_split h
  obtain ⟨ds, pads, hlast⟩ := exists_endsGroup hone hthree
  exact ⟨ns, last, ds, pads, hbytes, hns, hlength, hlast, by rw [hencode, hlast.encode_eq]⟩

theorem isVisible_of_mem_encode {bytes : List UInt8} {c : Char} (h : c ∈ encode bytes) :
    Text.isVisible c = true := by
  have hbytes : bytes ≠ [] := by
    rintro rfl
    exact absurd h List.not_mem_nil
  obtain ⟨ns, last, ds, pads, -, hns, -, hlast, hencode⟩ := encode_eq_groups hbytes
  rw [hencode, List.mem_append, List.mem_append, List.mem_map, List.mem_map] at h
  obtain ⟨n, hn, rfl⟩ | ⟨d, hd, rfl⟩ | hpad := h
  · exact isVisible_symbol (hns n hn)
  · exact isVisible_symbol (hlast.lt d hd)
  · rw [List.eq_of_mem_replicate hpad]
    rfl

theorem decode_encode (bytes : List UInt8) : decode (Utf8.encode (encode bytes)) = .ok bytes := by
  rw [Utf8.encode_of_isVisible fun c hc => isVisible_of_mem_encode hc]
  by_cases hbytes : bytes = []
  · rw [hbytes]
    rfl
  · obtain ⟨ns, last, ds, pads, heq, hns, hlength, hlast, hencode⟩ := encode_eq_groups hbytes
    rw [hencode, List.map_append, List.map_append, List.map_replicate, List.map_map, List.map_map]
    rw [heq]
    exact decode_groups hns hlength hlast

theorem encode_ne_nil {bytes : List UInt8} (h : bytes ≠ []) : encode bytes ≠ [] := by
  intro hnil
  have hdecode := decode_encode bytes
  rw [hnil] at hdecode
  exact h (Except.ok.inj hdecode).symm

end Base64

theorem decodeKey_encode {bytes : List UInt8} (h : bytes.length = keySize) :
    decodeKey (String.ofList (Base64.encode bytes)) = .ok ⟨bytes, h⟩ := by
  unfold decodeKey
  rw [String.toList_ofList, Text.trim_of_isVisible fun c hc => Base64.isVisible_of_mem_encode hc,
    Base64.decode_encode]
  dsimp only
  rw [dif_pos h]

theorem PublicKey.isVisible_of_mem_chars (key : PublicKey) :
    ∀ c ∈ key.chars, Text.isVisible c = true :=
  fun _ hc => Base64.isVisible_of_mem_encode hc

theorem PublicKey.chars_ne_nil (key : PublicKey) : key.chars ≠ [] := by
  apply Base64.encode_ne_nil
  intro h
  have hlength := key.length_bytes
  rw [h] at hlength
  cases hlength

theorem PrivateKey.isVisible_of_mem_chars (key : PrivateKey) :
    ∀ c ∈ key.chars, Text.isVisible c = true :=
  fun _ hc => Base64.isVisible_of_mem_encode hc

theorem PublicKey.ofText_text (key : PublicKey) : PublicKey.ofText key.text = .ok key := by
  unfold PublicKey.ofText
  rw [show key.text = String.ofList (Base64.encode key.bytes) from rfl,
    decodeKey_encode key.length_bytes]
  rfl

theorem PrivateKey.ofText_text (key : PrivateKey) : PrivateKey.ofText key.text = .ok key := by
  unfold PrivateKey.ofText
  rw [show key.text = String.ofList (Base64.encode key.bytes) from rfl,
    decodeKey_encode key.length_bytes]
  rfl

end OverlayTunnel
