import OverlayTunnel.Config.Load
import OverlayTunnel.Host.Backend
import OverlayTunnel.Host.Scripted
import OverlayTunnel.Proofs.Address.Notation
import OverlayTunnel.Proofs.Key.Text

/-!
Names of interfaces as arguments of programs and as parts of file names. What the check of a configuration
lets through can be passed on, except for the NUL character.
-/
namespace OverlayTunnel

/-! ### Names of interfaces -/

/-- A name that passes the check of a configuration, without a NUL character in it. -/
structure IsInterface (name : String) : Prop where
  blank : ∀ c ∈ name.toList, Text.isBlank c = false
  slash : '/' ∉ name.toList
  nul : ∀ c ∈ name.toList, c.toNat ≠ 0
  short : (Utf8.encode name.toList).length ≤ Config.maxInterfaceLength

/-- What the check of a configuration says about the name of its interface. -/
theorem Config.interface_of_check {c : Config} (h : c.check = .ok ()) :
    (Utf8.encode c.interface.toList).length ≤ maxInterfaceLength ∧
      ∀ ch ∈ c.interface.toList, Text.isBlank ch = false ∧ ch ≠ '/' := by
  have hvalid : c.validate = .ok () := by
    unfold check at h
    cases hv : c.validate with
    | ok _ => rfl
    | error e =>
      rw [hv] at h
      cases h
  unfold validate at hvalid
  split at hvalid
  · cases hvalid
  split at hvalid
  · cases hvalid
  next hshort =>
  split at hvalid
  · cases hvalid
  next hchars =>
  refine ⟨Nat.le_of_not_lt hshort, fun ch hch => ?_⟩
  simpa using fun hb => hchars (List.any_eq_true.mpr ⟨ch, hch, hb⟩)

theorem Config.isInterface_of_check {c : Config} (h : c.check = .ok ())
    (hnul : ∀ ch ∈ c.interface.toList, ch.toNat ≠ 0) : IsInterface c.interface := by
  obtain ⟨hshort, hchars⟩ := interface_of_check h
  exact {
    blank := fun ch hch => (hchars ch hch).1
    slash := fun hs => (hchars '/' hs).2 rfl
    nul := hnul
    short := hshort }

namespace IsInterface

variable {name : String}

theorem not_mem_blank (h : IsInterface name) : ' ' ∉ name.toList := by
  intro hm
  have hb := h.blank ' ' hm
  revert hb
  decide

/-- Nothing keeps the configuration file of an interface from being written. -/
theorem refusal?_eq_none (h : IsInterface name) (setup : DeviceSetup) :
    Script.refusal? (HostLinks.configFile name setup) = none := by
  have hchars : (HostLinks.configFile name setup).shownName.toList =
      name.toList ++ "-XXXXXX.conf".toList := by
    simp [HostLinks.configFile, ConfigFile.shownName]
  have hnul : ¬ (name.toList ++ "-XXXXXX.conf".toList).any (fun c => decide (c.toNat = 0)) = true := by
    rw [List.any_append, Bool.or_eq_true, not_or]
    constructor
    · intro hany
      obtain ⟨c, hc, hz⟩ := List.any_eq_true.mp hany
      exact h.nul c hc (of_decide_eq_true hz)
    · decide
  have hslash : ¬ (name.toList ++ "-XXXXXX.conf".toList).contains '/' = true := by
    rw [List.contains_iff_mem, List.mem_append, not_or]
    exact ⟨h.slash, by decide⟩
  have hlength : ¬ Script.maxNameLength <
      (Utf8.encode (name.toList ++ "-XXXXXX.conf".toList)).length := by
    have hsplit : (Utf8.encode (name.toList ++ "-XXXXXX.conf".toList)).length =
        (Utf8.encode name.toList).length + 12 := by
      simp [Utf8.encode]
      decide
    have hshort : (Utf8.encode name.toList).length ≤ 15 := h.short
    have hmax : Script.maxNameLength = 255 := rfl
    omega
  unfold Script.refusal?
  dsimp only
  rw [hchars, if_neg hnul, if_neg hslash, if_neg hlength]

end IsInterface

/-! ### Arguments -/

def IsPassable (s : String) : Prop :=
  ∀ c ∈ s.toList, c.toNat ≠ 0

instance (s : String) : Decidable (IsPassable s) :=
  List.decidableBAll (fun c : Char => c.toNat ≠ 0) s.toList

theorem isPassable_append {s t : String} : IsPassable (s ++ t) ↔ IsPassable s ∧ IsPassable t := by
  simp only [IsPassable, String.toList_append, List.forall_mem_append]

theorem isPassable_ofList {s : List Char} (h : ∀ c ∈ s, Text.isVisible c = true) :
    IsPassable (String.ofList s) := by
  intro c hc hz
  have hv := Text.isVisible_iff.mp (h c (by simpa using hc))
  omega

theorem Argument.isPassable_text {s : String} (h : IsPassable s) :
    (Argument.text s).isPassable = true := by
  unfold Argument.isPassable
  exact List.all_eq_true.mpr fun c hc => decide_eq_true (h c hc)

/-- The texts among arguments that can be passed can be passed. -/
theorem Invocation.isPassable_of_mem {i : Invocation} {s : String} (hi : i.isPassable = true)
    (hs : Argument.text s ∈ i.arguments) : IsPassable s := by
  intro c hc
  have hall := List.all_eq_true.mp hi (.text s) hs
  exact of_decide_eq_true (List.all_eq_true.mp hall c hc)

theorem isPassable_texts (program : Program) {arguments : List String}
    (h : ∀ s ∈ arguments, IsPassable s) :
    (Invocation.mk program (HostLinks.texts arguments)).isPassable = true := by
  apply List.all_eq_true.mpr
  intro a ha
  obtain ⟨s, hs, rfl⟩ := List.mem_map.mp ha
  exact Argument.isPassable_text (h s hs)

theorem Network.isPassable_text (n : Network) : IsPassable n.text :=
  isPassable_ofList fun c hc => (n.isVisible_of_mem_chars c hc).1

theorem Numeral.isPassable_decimal (n : Nat) : IsPassable (decimal n) :=
  isPassable_ofList (isVisible_of_mem_toDigits (by decide) (by decide))

/-! ### The arguments of `ip` -/

section

variable {name : String} (hname : IsPassable name)
include hname

theorem isPassable_add : ∀ a ∈ ["link", "add", "dev", name, "type", "wireguard"], IsPassable a := by
  simp only [List.forall_mem_cons]
  exact ⟨by decide, by decide, by decide, hname, by decide, by decide, by simp⟩

theorem isPassable_describe : ∀ a ∈ ["-o", "link", "show", "dev", name], IsPassable a := by
  simp only [List.forall_mem_cons]
  exact ⟨by decide, by decide, by decide, by decide, hname, by simp⟩

theorem isPassable_replaceAddress (address : Network) :
    ∀ a ∈ ["addr", "replace", address.text, "dev", name], IsPassable a := by
  simp only [List.forall_mem_cons]
  exact ⟨by decide, by decide, address.isPassable_text, by decide, hname, by simp⟩

theorem isPassable_setMtu (mtu : UInt32) :
    ∀ a ∈ ["link", "set", "dev", name, "mtu", Numeral.decimal mtu.toNat], IsPassable a := by
  simp only [List.forall_mem_cons]
  exact ⟨by decide, by decide, by decide, hname, by decide, Numeral.isPassable_decimal _, by simp⟩

theorem isPassable_setUp : ∀ a ∈ ["link", "set", "dev", name, "up"], IsPassable a := by
  simp only [List.forall_mem_cons]
  exact ⟨by decide, by decide, by decide, hname, by decide, by simp⟩

theorem isPassable_addRoute (destination : Network) :
    ∀ a ∈ ["route", "add", destination.text, "dev", name, "scope", "link"], IsPassable a := by
  simp only [List.forall_mem_cons]
  exact ⟨by decide, by decide, destination.isPassable_text, by decide, hname, by decide, by decide,
    by simp⟩

theorem isPassable_delete : ∀ a ∈ ["link", "delete", "dev", name], IsPassable a := by
  simp only [List.forall_mem_cons]
  exact ⟨by decide, by decide, by decide, hname, by simp⟩

end

/-! ### The arguments of `wg` -/

theorem isPassable_apply {name : String} (hname : IsPassable name) (command : String)
    (hcommand : IsPassable command) (file : ConfigFile) :
    (Invocation.mk .wg [.text command, .text name, .file file]).isPassable = true := by
  apply List.all_eq_true.mpr
  simp only [List.forall_mem_cons]
  exact ⟨Argument.isPassable_text hcommand, Argument.isPassable_text hname, rfl, by simp⟩

theorem isPassable_resetArguments {name : String} (hname : IsPassable name) (p : TunnelPeer) :
    (Invocation.mk .wg (HostLinks.resetArguments name p)).isPassable = true := by
  have hkey : IsPassable p.publicKey.text := by
    apply isPassable_ofList
    exact p.publicKey.isVisible_of_mem_chars
  have hnetworks : IsPassable (Text.join "," (p.allowed.map Network.text)) := by
    unfold IsPassable
    rw [Text.toList_join]
    apply Text.forall_mem_intercalate
    · exact (by decide : IsPassable ",")
    · simp only [List.forall_mem_map]
      exact fun n _ => n.isPassable_text
  apply isPassable_texts
  simp only [List.forall_mem_cons]
  exact ⟨by decide, hname, by decide, hkey, by decide, hnetworks, by simp⟩

end OverlayTunnel
