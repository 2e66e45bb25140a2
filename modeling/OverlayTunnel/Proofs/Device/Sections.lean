import OverlayTunnel.Proofs.Device.SetupText

/-!
The lines and sections of a configuration text. Each peer adds five lines, one of which opens a section,
whatever its key, endpoint and networks are; so two configurations with the same text configure the same.
-/
namespace OverlayTunnel

namespace SetupText

/-! ### Lines that open sections -/

def opensSection (line : List Char) : Bool :=
  line = interfaceTitle || line = peerTitle

/-- No value makes a title of the line that it is set by. -/
theorem opensSection_settingChars (name : String) {first : Char} {others : List Char}
    (hname : name.toList = first :: others) (hfirst : first ≠ '[') (value : List Char) :
    opensSection (settingChars name value) = false := by
  have hline : settingChars name value = first :: (others ++ (" = ".toList ++ value)) := by
    rw [settingChars, hname]
    rfl
  have htitle (title : List Char) : settingChars name value ≠ '[' :: title := by
    rw [hline]
    exact fun h => hfirst (List.cons.inj h).1
  have hinterface : settingChars name value ≠ interfaceTitle := htitle _
  have hpeer : settingChars name value ≠ peerTitle := htitle _
  simp [opensSection, hinterface, hpeer]

theorem filter_interfaceLines (d : DeviceSetup) :
    (interfaceLines d).filter opensSection = [interfaceTitle] := by
  have htitle : opensSection interfaceTitle = true := by decide
  have hkey := opensSection_settingChars "PrivateKey" rfl (by decide) d.privateKey.chars
  have hport := opensSection_settingChars "ListenPort" rfl (by decide)
    (Nat.toDigits 10 d.listenPort.toNat)
  simp [interfaceLines, htitle, hkey, hport]

theorem filter_peerLines (p : TunnelPeer) : (peerLines p).filter opensSection = [peerTitle] := by
  have hempty : opensSection [] = false := by decide
  have htitle : opensSection peerTitle = true := by decide
  have hkey := opensSection_settingChars "PublicKey" rfl (by decide) p.publicKey.chars
  have hendpoint := opensSection_settingChars "Endpoint" rfl (by decide) p.endpoint.chars
  have hallowed := opensSection_settingChars "AllowedIPs" rfl (by decide)
    (allowedChars p.allowed)
  simp [peerLines, hempty, htitle, hkey, hendpoint, hallowed]

theorem filter_flatMap_peerLines (ps : List TunnelPeer) :
    (ps.flatMap peerLines).filter opensSection = List.replicate ps.length peerTitle := by
  induction ps with
  | nil => rfl
  | cons p ps ih =>
    rw [List.flatMap_cons, List.filter_append, filter_peerLines, ih, List.length_cons,
      List.replicate_succ]
    rfl

theorem length_flatMap_peerLines (ps : List TunnelPeer) :
    (ps.flatMap peerLines).length = 5 * ps.length := by
  induction ps with
  | nil => rfl
  | cons p ps ih =>
    have hp : (peerLines p).length = 5 := rfl
    rw [List.flatMap_cons, List.length_append, hp, ih, List.length_cons]
    omega

/-! ### What the text depends on -/

/-- The lines of a peer do not tell whether its networks replace those that it has. -/
theorem peerLines_congr {p q : TunnelPeer} (h : DevicePeer.ofTunnelPeer p = .ofTunnelPeer q) :
    peerLines p = peerLines q := by
  obtain ⟨hkey, hendpoint, hallowed⟩ := DevicePeer.mk.inj h
  rw [peerLines, peerLines, hkey, Option.some.inj hendpoint, hallowed]

theorem flatMap_peerLines_congr {ps qs : List TunnelPeer}
    (h : ps.map DevicePeer.ofTunnelPeer = qs.map .ofTunnelPeer) :
    ps.flatMap peerLines = qs.flatMap peerLines := by
  induction ps generalizing qs with
  | nil =>
    cases qs with
    | nil => rfl
    | cons q qs => cases h
  | cons p ps ih =>
    cases qs with
    | nil => cases h
    | cons q qs =>
      obtain ⟨hfirst, hlater⟩ := List.cons.inj h
      rw [List.flatMap_cons, List.flatMap_cons, peerLines_congr hfirst, ih hlater]

theorem text_eq_iff {d e : DeviceSetup} :
    d.text = e.text ↔ d.privateKey = e.privateKey ∧ d.listenPort = e.listenPort ∧
      d.peers.map DevicePeer.ofTunnelPeer = e.peers.map .ofTunnelPeer := by
  constructor
  · intro h
    have hcontents := contents?_text d
    rw [h, contents?_text e] at hcontents
    obtain ⟨hkey, hport, hpeers⟩ := Contents.mk.inj (Option.some.inj hcontents)
    exact ⟨hkey.symm, hport.symm, hpeers.symm⟩
  · rintro ⟨hkey, hport, hpeers⟩
    apply String.toList_inj.mp
    rw [toList_text, toList_text, interfaceLines, interfaceLines, hkey, hport,
      flatMap_peerLines_congr hpeers]

/-! ### The text as a whole -/

/-- A configuration is read back from its text, which two configurations share if they differ at most in
what is to be replaced. The text has no lines and no sections but its own. -/
theorem text_tells_setup (d : DeviceSetup) :
    contents? d.text = some ⟨d.privateKey, d.listenPort, d.peers.map DevicePeer.ofTunnelPeer⟩ ∧
    (∀ e : DeviceSetup, d.text = e.text ↔ d.privateKey = e.privateKey ∧ d.listenPort = e.listenPort ∧
      d.peers.map DevicePeer.ofTunnelPeer = e.peers.map .ofTunnelPeer) ∧
    (Text.lines d.text.toList).length = 3 + 5 * d.peers.length ∧
    (Text.lines d.text.toList).filter opensSection =
      interfaceTitle :: List.replicate d.peers.length peerTitle := by
  refine ⟨contents?_text d, fun e => text_eq_iff, ?_, ?_⟩
  · have hinterface : (interfaceLines d).length = 3 := rfl
    rw [lines_text, List.length_append, hinterface, length_flatMap_peerLines]
  · rw [lines_text, List.filter_append, filter_interfaceLines, filter_flatMap_peerLines]
    rfl

end SetupText

end OverlayTunnel
