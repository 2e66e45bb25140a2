import OverlayTunnel.Proofs.Address.Assigned
import OverlayTunnel.Proofs.Address.Notation

/-!
Assigned addresses as explicit ones. What a node was assigned under one name can be written down, and is
assigned again under any other name, also in a network that was itself written down and read back.
-/
namespace OverlayTunnel

theorem Address.trim_chars (a : Address) : Text.trim a.chars = a.chars :=
  Text.trim_of_isVisible fun c hc => (isVisible_of_isAddressChar (isAddressChar_of_mem_chars a c hc)).1

theorem Address.trimmed_text (a : Address) {before after : String}
    (hbefore : ∀ c ∈ before.toList, Text.isBlank c = true)
    (hafter : ∀ c ∈ after.toList, Text.isBlank c = true) :
    Text.trimmed (before ++ a.text ++ after) = a.text := by
  rw [Address.text, Text.trimmed_eq_iff, String.toList_append, String.toList_append, String.toList_ofList,
    Text.trim_between_blanks hbefore _ hafter, a.trim_chars]

namespace Network

theorem parse_text (n : Network) : parse n.text = .ok n := by
  rw [parse, n.ofText?_text]

variable {n : Network} {a : Address}

/-- The text of a member is assigned as it is, unless it stands for none. -/
theorem assign_text (ha : a.isUnspecified = false) (hn : n.contains a = true) (name : String)
    {before after : String} (hbefore : ∀ c ∈ before.toList, Text.isBlank c = true)
    (hafter : ∀ c ∈ after.toList, Text.isBlank c = true) :
    n.assign name (some (before ++ a.text ++ after)) = .ok a := by
  have htrimmed : Text.trimmed ((some (before ++ a.text ++ after)).getD "") = a.text :=
    a.trimmed_text hbefore hafter
  rw [assign_eq_iff, htrimmed]
  exact .own a.ofText?_text ha hn

/-- An address that was assigned to some name is assigned to every name that it is given to as a text, with
any blanks around it. The network may be the one that its own text is read as. -/
theorem assign_pinned {name : String} {explicit : Option String} (h : n.assign name explicit = .ok a)
    (ha : a.isUnspecified = false) (name' : String) {before after : String}
    (hbefore : ∀ c ∈ before.toList, Text.isBlank c = true)
    (hafter : ∀ c ∈ after.toList, Text.isBlank c = true) :
    n.assign name' (some (before ++ a.text ++ after)) = .ok a ∧
      ∃ m, parse n.text = .ok m ∧ m.assign name explicit = .ok a ∧
        m.assign name' (some (before ++ a.text ++ after)) = .ok a := by
  have hpinned := assign_text ha (contains_of_assign h) name' hbefore hafter
  exact ⟨hpinned, n, n.parse_text, h, hpinned⟩

/-- A derived address between blanks, in a network with host bits. -/
theorem assign_pinned_derived :
    let n : Network := ⟨.v6 0xFD000001000000000000000000000007, 64, by decide⟩
    let a : Address := .v6 0xFD000001000000006EF0E977A2E07CC3
    n.assign "node-a" none = .ok a ∧ a.isUnspecified = false ∧
      n.assign "node-b" (some "\t fd00:1::6ef0:e977:a2e0:7cc3\n") = .ok a ∧
      ∃ m, parse "fd00:1::7/64" = .ok m ∧
        m.assign "node-b" (some "\t fd00:1::6ef0:e977:a2e0:7cc3\n") = .ok a := by
  intro n a
  have hderived : n.derived "node-a" = a := by decide +kernel
  have h : n.assign "node-a" none = .ok a := by
    rw [← hderived]
    exact assign_eq_iff.mpr (.blank rfl)
  have ha : a.isUnspecified = false := rfl
  have htext : "\t " ++ a.text ++ "\n" = "\t fd00:1::6ef0:e977:a2e0:7cc3\n" := by rfl
  have hnetwork : n.text = "fd00:1::7/64" := by decide +kernel
  have hbefore : ∀ c ∈ "\t ".toList, Text.isBlank c = true := List.all_eq_true.mp (by decide)
  have hafter : ∀ c ∈ "\n".toList, Text.isBlank c = true := List.all_eq_true.mp (by decide)
  obtain ⟨hpinned, m, hm, -, hreread⟩ := assign_pinned h ha "node-b" hbefore hafter
  rw [htext] at hpinned hreread
  rw [hnetwork] at hm
  exact ⟨h, ha, hpinned, m, hm, hreread⟩

end Network

end OverlayTunnel
