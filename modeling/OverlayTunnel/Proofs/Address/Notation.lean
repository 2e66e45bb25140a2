import OverlayTunnel.Endpoint
import OverlayTunnel.Network
import OverlayTunnel.Proofs.Address.Text
import OverlayTunnel.Text.Lines

/-!
Networks and endpoints are read back from their texts.
-/
namespace OverlayTunnel

open Numeral Address

theorem scan_toDigits {base n bound : Nat} {maxDigits : Option Nat} (h1 : 1 < base)
    (h16 : base ≤ 16) (hn : n < bound) (hlen : ∀ k ∈ maxDigits, (Nat.toDigits base n).length ≤ k) :
    scan base maxDigits true bound (Nat.toDigits base n) = some (n, []) := by
  have hscan : scan base maxDigits true bound (Nat.toDigits base n ++ []) = some (n, []) :=
    scan_toDigits_append h1 h16 hn hlen (by simp)
  rwa [List.append_nil] at hscan

namespace Network

theorem readLength?_append {a : Address} (digits : Nat) {length : Nat} (hdigits : 0 < digits)
    (hl : length ≤ a.family.width) (hwidth : a.family.width < 10 ^ digits) :
    readLength? a digits ('/' :: Nat.toDigits 10 length) = some ⟨a, length, hl⟩ := by
  have hscan : scan 10 (some digits) true (a.family.width + 1) (Nat.toDigits 10 length) =
      some (length, []) := by
    apply scan_toDigits (by decide) (by decide) (by omega)
    rintro k ⟨⟩
    exact (Nat.length_toDigits_le_iff (by decide) hdigits).mpr (by omega)
  simp [readLength?, skipChar, hscan, ofLength?, hl]

/-- A network is read back from its text. -/
theorem ofChars?_chars (n : Network) : ofChars? n.chars = some n := by
  obtain ⟨a, length, hl⟩ := n
  unfold ofChars? chars
  cases a with
  | v4 bits =>
    have hslash : NoDigit 10 ('/' :: Nat.toDigits 10 length) := noDigit_cons.mpr (by decide)
    have haddress := scanDotted_chars .lenient bits hslash
    have hlength := readLength?_append (a := .v4 bits) 2 (by decide) hl
      (by simp [Address.family, Family.width])
    have hvalue : Address.ofValue .v4 bits.toNat = .v4 bits := ofValue_value (.v4 bits)
    simp [haddress, hvalue, hlength]
  | v6 bits =>
    have hends : EndsColons ('/' :: Nat.toDigits 10 length) := by
      rintro c ⟨⟩
      decide
    have hdotted := scanDotted_colons .lenient bits hends
    have haddress := scanColons_chars .lenient (by decide) bits hends
    have hlength := readLength?_append (a := .v6 bits) 3 (by decide) hl
      (by simp [Address.family, Family.width])
    have hvalue : Address.ofValue .v6 bits.toNat = .v6 bits := ofValue_value (.v6 bits)
    simp [hdotted, haddress, hvalue, hlength]

theorem mapM_ofChars? (networks : List Network) :
    (networks.map chars).mapM ofChars? = some networks := by
  induction networks with
  | nil => rfl
  | cons n networks ih => simp [n.ofChars?_chars, ih]

theorem ofText?_text (n : Network) : ofText? n.text = some n := by
  rw [ofText?, text, String.toList_ofList, ofChars?_chars]

theorem isVisible_of_mem_chars (n : Network) :
    ∀ c ∈ n.chars, Text.isVisible c = true ∧ c ≠ ',' := by
  intro c hc
  rcases List.mem_append.mp hc with hc | hc
  · exact isVisible_of_isAddressChar (isAddressChar_of_mem_chars _ c hc)
  · rcases List.mem_cons.mp hc with rfl | hc
    · decide
    · exact isVisible_of_isAddressChar
        (isAddressChar_of_mem_toDigits (by decide) (by decide) c hc)

theorem comma_not_mem_chars (n : Network) : ',' ∉ n.chars :=
  fun hm => (n.isVisible_of_mem_chars _ hm).2 rfl

theorem slash_mem_chars (n : Network) : '/' ∈ n.chars := by
  simp [chars]

/-! ### Lists of networks -/

theorem toList_join (separator : String) (networks : List Network) :
    (Text.join separator (networks.map text)).toList =
      separator.toList.intercalate (networks.map chars) := by
  rw [Text.toList_join]
  simp [text, Function.comp_def]

theorem slash_mem_intercalate (separator : List Char) (n : Network) (networks : List Network) :
    '/' ∈ separator.intercalate ((n :: networks).map chars) := by
  cases networks with
  | nil => simpa using n.slash_mem_chars
  | cons m networks => simp [n.slash_mem_chars]

theorem intercalate_ne_nil (separator : List Char) (n : Network) (networks : List Network) :
    separator.intercalate ((n :: networks).map chars) ≠ [] := by
  intro h
  have hslash := slash_mem_intercalate separator n networks
  rw [h] at hslash
  cases hslash

theorem splitOn_intercalate (n : Network) (networks : List Network) :
    ([','].intercalate ((n :: networks).map chars)).splitOn ',' = (n :: networks).map chars := by
  apply List.splitOn_intercalate
  · intro piece hpiece
    obtain ⟨m, -, rfl⟩ := List.mem_map.mp hpiece
    exact m.comma_not_mem_chars
  · simp

end Network

namespace Endpoint

theorem readPort?_append (port : UInt16) :
    readPort? (':' :: Nat.toDigits 10 port.toNat) = some port := by
  have hscan : scan 10 none true 65536 (Nat.toDigits 10 port.toNat) = some (port.toNat, []) :=
    scan_toDigits (by decide) (by decide) port.toNat_lt (by simp)
  simp [readPort?, skipChar, hscan]

def scopeChars (scope : UInt32) : List Char :=
  if scope = 0 then [] else '%' :: Nat.toDigits 10 scope.toNat

theorem scanScope_append (scope : UInt32) (rest : List Char) :
    scanScope (scopeChars scope ++ ']' :: rest) = (scope, ']' :: rest) := by
  by_cases hs : scope = 0
  · simp [scopeChars, hs, scanScope]
  · have hscan : scan 10 none true 4294967296 (Nat.toDigits 10 scope.toNat ++ ']' :: rest) =
        some (scope.toNat, ']' :: rest) := by
      apply scan_toDigits_append (by decide) (by decide) scope.toNat_lt (by simp)
      rintro c ⟨⟩
      decide
    simp [scopeChars, hs, scanScope, hscan]

theorem endsColons_scopeChars (scope : UInt32) (rest : List Char) :
    EndsColons (scopeChars scope ++ ']' :: rest) := by
  intro c hc
  by_cases hs : scope = 0
  · simp only [scopeChars, hs, if_true, List.nil_append, List.head?_cons, Option.some.injEq] at hc
    subst hc
    decide
  · simp only [scopeChars, hs, if_false, List.cons_append, List.head?_cons, Option.some.injEq] at hc
    subst hc
    decide

/-- An endpoint is read back from its text, with its scope. -/
theorem ofChars?_chars (e : Endpoint) : ofChars? e.chars = some e := by
  cases e with
  | v4 bits port =>
    have hcolon : NoDigit 10 (':' :: Nat.toDigits 10 port.toNat) := noDigit_cons.mpr (by decide)
    have haddress := scanDotted_chars .plain bits hcolon
    simp [ofChars?, chars, readV4?, haddress, readPort?_append]
  | v6 bits scope port =>
    have hchars : (Endpoint.v6 bits scope port).chars =
        '[' :: ((Address.v6 bits).chars ++
          (scopeChars scope ++ ']' :: ':' :: Nat.toDigits 10 port.toNat)) := by
      simp [chars, scopeChars]
    have hends : EndsGroup ('[' :: ((Address.v6 bits).chars ++
        (scopeChars scope ++ ']' :: ':' :: Nat.toDigits 10 port.toNat))) :=
      endsGroup_cons.mpr (by decide)
    have hdotted := scanDotted_of_endsGroup .plain hends
    have haddress := scanColons_chars .plain (by decide) bits
      (endsColons_scopeChars scope (':' :: Nat.toDigits 10 port.toNat))
    rw [hchars, ofChars?, readV4?, hdotted]
    simp [readV6?, skipChar, haddress, scanScope_append, readPort?_append]

theorem isVisible_of_mem_chars (e : Endpoint) : ∀ c ∈ e.chars, Text.isVisible c = true := by
  have hdigits (n : Nat) := isVisible_of_mem_toDigits (n := n) (by decide : 1 < 10) (by decide)
  have haddress (a : Address) (c : Char) (hc : c ∈ a.chars) : Text.isVisible c = true :=
    (isVisible_of_isAddressChar (isAddressChar_of_mem_chars a c hc)).1
  intro c hc
  cases e with
  | v4 bits port =>
    simp only [chars, List.mem_append, List.mem_cons] at hc
    rcases hc with hc | rfl | hc
    · exact haddress _ c hc
    · decide
    · exact hdigits _ c hc
  | v6 bits scope port =>
    simp only [chars, List.cons_append, List.mem_append, List.mem_cons] at hc
    rcases hc with rfl | (hc | hc) | rfl | rfl | hc
    · decide
    · exact haddress _ c hc
    · split at hc
      · cases hc
      · rcases List.mem_cons.mp hc with rfl | hc
        · decide
        · exact hdigits _ c hc
    · decide
    · decide
    · exact hdigits _ c hc

end Endpoint

end OverlayTunnel
