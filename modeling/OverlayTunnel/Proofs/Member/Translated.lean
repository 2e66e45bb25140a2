import OverlayTunnel.Proofs.Address.Notation
import OverlayTunnel.Proofs.Key.Canonical
import OverlayTunnel.Proofs.Member.Peers

/-!
The translation of members to tunnel peers: one to one or not at all. It is a homomorphism, so members
may be translated in one go or in parts.
-/
namespace OverlayTunnel

theorem Network.text_injective : Function.Injective Network.text := by
  intro n n' h
  have hchars : n.chars = n'.chars := String.ofList_injective h
  have hread := n.ofChars?_chars
  rw [hchars, n'.ofChars?_chars] at hread
  exact (Option.some.inj hread).symm

theorem text_privateRanges :
    privateRanges.map Network.text = ["10.0.0.0/8", "172.16.0.0/12", "192.168.0.0/16"] := by
  decide +kernel

namespace Member

/-- What a member becomes: a peer with its key, reached at its real address, behind which are its own
overlay address alone and the private ranges, each once. -/
structure Becomes (listenPort : UInt16) (m : Member) (p : TunnelPeer) : Prop where
  key : Text.trimmed m.publicKey = p.publicKey.text
  endpoint : p.endpoint = .ofAddress m.realAddress listenPort
  replaces : p.replacesAllowed = true
  allowed : ∃ own ranges, p.allowed = own :: ranges ∧
    own.address = m.overlayAddress ∧ own.length = m.overlayAddress.family.width ∧
    ranges.map Network.text = ["10.0.0.0/8", "172.16.0.0/12", "192.168.0.0/16"]
  nodup : p.allowed.Nodup

variable {listenPort : UInt16} {m : Member} {p : TunnelPeer}

theorem toPeer_eq_ok_iff_becomes : toPeer listenPort m = .ok p ↔ Becomes listenPort m p := by
  rw [toPeer_eq_ok_iff]
  simp only [key?_eq_some_iff, PublicKey.ofText_eq_ok_iff]
  constructor
  · rintro ⟨key, hkey, rfl⟩
    exact
      { key := hkey
        endpoint := rfl
        replaces := rfl
        allowed := ⟨Network.host m.overlayAddress, privateRanges, rfl, rfl, rfl, text_privateRanges⟩
        nodup := routes_nodup m.overlayAddress }
  · intro h
    obtain ⟨⟨address, length, hlength⟩, ranges, hallowed, rfl, rfl, hranges⟩ := h.allowed
    obtain rfl : ranges = privateRanges :=
      List.map_injective_iff.mpr Network.text_injective (hranges.trans text_privateRanges.symm)
    refine ⟨p.publicKey, h.key, ?_⟩
    calc
      p = ⟨p.publicKey, p.endpoint, p.replacesAllowed, p.allowed⟩ := rfl
      _ = m.peer listenPort p.publicKey := by
        rw [h.endpoint, h.replaces, hallowed]
        rfl

theorem toPeer_eq_error_iff {cause : KeyError} :
    toPeer listenPort m = .error cause ↔ PublicKey.ofText m.publicKey = .error cause := by
  unfold toPeer
  cases PublicKey.ofText m.publicKey <;> simp [Except.map]

theorem exists_key_iff :
    (∃ key, m.key? = some key) ↔ ∃ key : PublicKey, Text.trimmed m.publicKey = key.text := by
  simp only [key?_eq_some_iff, PublicKey.ofText_eq_ok_iff]

/-- Members become peers one to one and in order if the trimmed texts of their keys are the Base64 texts
of keys, and otherwise the first text that is none is the error. The members of two lists become the
peers of both, or the error of the first list that has one. -/
theorem toPeers_translates (listenPort : UInt16) (ms : List Member) :
    ((∃ ps, toPeers listenPort ms = .ok ps) ↔
      ∀ m ∈ ms, ∃ key : PublicKey, Text.trimmed m.publicKey = key.text) ∧
    (∀ ps, toPeers listenPort ms = .ok ps ↔ List.Forall₂ (Becomes listenPort) ms ps) ∧
    (∀ cause, toPeers listenPort ms = .error cause ↔
      ∃ before m later, ms = before ++ m :: later ∧
        (∀ m' ∈ before, ∃ key : PublicKey, Text.trimmed m'.publicKey = key.text) ∧
        PublicKey.ofText m.publicKey = .error cause) ∧
    ∀ ms', toPeers listenPort (ms ++ ms') =
      match toPeers listenPort ms, toPeers listenPort ms' with
      | .ok ps, .ok ps' => .ok (ps ++ ps')
      | .ok _, .error cause => .error cause
      | .error cause, _ => .error cause := by
  refine ⟨?_, ?_, ?_, ?_⟩
  · simp only [toPeers_isOk_iff, exists_key_iff]
  · intro ps
    unfold toPeers
    simp only [mapM_eq_ok_iff_forall₂, toPeer_eq_ok_iff_becomes]
  · intro cause
    unfold toPeers
    simp only [mapM_eq_error_iff, toPeer_isOk_iff, exists_key_iff, toPeer_eq_error_iff]
  · intro ms'
    unfold toPeers
    rw [List.mapM_append]
    cases ms.mapM (toPeer listenPort) with
    | error cause => rfl
    | ok ps => cases ms'.mapM (toPeer listenPort) <;> rfl

end Member

end OverlayTunnel
