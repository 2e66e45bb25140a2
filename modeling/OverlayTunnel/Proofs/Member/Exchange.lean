import OverlayTunnel.Member.Json
import OverlayTunnel.Proofs.Address.Text
import OverlayTunnel.Proofs.Json.Written
import OverlayTunnel.Proofs.Key.Text
import OverlayTunnel.Proofs.Reconciler.Setup

/-!
What nodes tell each other. Lists of members and announcements are read back from what is written of
them, and the announcement of a node becomes a peer with the node's own key and address.
-/
namespace OverlayTunnel

/-! ### Fields -/

namespace MemberDraft

variable {d : MemberDraft}

theorem readAddress_quote (a : Address) (rest : List Char) :
    readAddress (Json.quote a.text ++ rest) = .ok (a, rest) :=
  Json.readParsed_quote a.ofText?_text "IP address" rest

theorem takes_publicKey (s : String) (hd : d.publicKey = none) :
    publicKeyField.Takes d (Json.quote s) { d with publicKey := some s } where
  unread := by simp [publicKeyField, hd]
  read := by
    intro rest _
    simp [publicKeyField, Json.readText_quote, Except.map]

theorem takes_overlayAddress (a : Address) (hd : d.overlayAddress = none) :
    overlayAddressField.Takes d (Json.quote a.text) { d with overlayAddress := some a } where
  unread := by simp [overlayAddressField, hd]
  read := by
    intro rest _
    simp [overlayAddressField, readAddress_quote, Except.map]

theorem takes_realAddress (a : Address) (hd : d.realAddress = none) :
    realAddressField.Takes d (Json.quote a.text) { d with realAddress := some a } where
  unread := by simp [realAddressField, hd]
  read := by
    intro rest _
    simp [realAddressField, readAddress_quote, Except.map]

end MemberDraft

open MemberDraft

/-! ### Messages -/

namespace Member

theorem readRecord_jsonChars (m : Member) (rest : List Char) :
    Json.readRecord layout (m.jsonChars ++ rest) = .ok (m, rest) := by
  refine Json.readRecord_object (r := ⟨some m.publicKey, some m.overlayAddress, some m.realAddress⟩)
    ?_ rfl rest
  apply Json.Collects.member rfl (takes_publicKey m.publicKey rfl)
  apply Json.Collects.member rfl (takes_overlayAddress m.overlayAddress rfl)
  apply Json.Collects.member rfl (takes_realAddress m.realAddress rfl)
  exact .done _

theorem readsBack_jsonChars (m : Member) :
    Json.ReadsBack (Json.readRecord layout) m.jsonChars m where
  begins := ⟨'\x7b', _, rfl, rfl, by decide⟩
  read := m.readRecord_jsonChars

theorem listOfJson_jsonOfList (ms : List Member) : listOfJson (jsonOfList ms) = .ok ms :=
  Json.readAll_list fun m _ => m.readsBack_jsonChars

end Member

theorem Announcement.ofJson_json (a : Announcement) : ofJson a.json = .ok a := by
  refine Json.readAll_object (r := ⟨some a.publicKey, some a.overlayAddress, none⟩) ?_ rfl
  apply Json.Collects.member rfl (takes_overlayAddress a.overlayAddress rfl)
  apply Json.Collects.member rfl (takes_publicKey a.publicKey rfl)
  exact .done _

/-! ### Peers -/

/-- The key of an announcement can be read, and it is that of the node. -/
theorem Identity.toPeer_announcement (i : Identity) (realAddress : Address) (listenPort : UInt16) :
    Member.toPeer listenPort (i.announcement.toMember realAddress) =
      .ok ((i.announcement.toMember realAddress).peer listenPort i.publicKey) :=
  Member.toPeer_eq_ok_iff.mpr
    ⟨i.publicKey, Member.key?_eq_some_iff.mpr i.publicKey.ofText_text, rfl⟩

/-- What is sent arrives: a list of members, whatever their key texts and addresses are, and every
announcement. The announcement of a node that was created makes, together with the real address at which
the receiver meets it, a peer among any others: one with the public key of the sender and with the
sender's own address as the first of its networks. -/
theorem messages_arrive (ms : List Member) (a : Announcement) :
    Member.listOfJson (Member.jsonOfList ms) = .ok ms ∧
    Announcement.ofJson a.json = .ok a ∧
    ∀ (c : Config) (name : String) (key : PrivateKey) (r : Reconciler),
      Reconciler.create c name key = .ok r → ∀ (realAddress : Address) (listenPort : UInt16),
        ∃ m peer,
          (Announcement.ofJson r.identity.announcement.json).map (·.toMember realAddress) = .ok m ∧
          (∀ before later psBefore psLater, Member.toPeers listenPort before = .ok psBefore →
            Member.toPeers listenPort later = .ok psLater →
            Member.toPeers listenPort (before ++ m :: later) = .ok (psBefore ++ peer :: psLater)) ∧
          peer.publicKey = key.publicKey ∧
          peer.endpoint = .ofAddress realAddress listenPort ∧
          peer.allowed.head? = some (.host r.identity.overlayAddress) := by
  refine ⟨Member.listOfJson_jsonOfList ms, a.ofJson_json, ?_⟩
  intro c name key r hcreate realAddress listenPort
  obtain ⟨-, address, -, hr⟩ := Reconciler.create_eq_ok_iff.mp hcreate
  have hkey : r.identity.publicKey = key.publicKey := by rw [hr]
  let m := r.identity.announcement.toMember realAddress
  have hpeer : Member.toPeer listenPort m = .ok (m.peer listenPort r.identity.publicKey) :=
    r.identity.toPeer_announcement realAddress listenPort
  refine ⟨m, m.peer listenPort r.identity.publicKey, ?_, ?_, hkey, rfl, rfl⟩
  · rw [Announcement.ofJson_json]
    rfl
  · intro before later psBefore psLater hbefore hlater
    exact Member.toPeers_append_cons hbefore hpeer hlater

/-- Members with an embedded version 4 address and with key texts that are none. -/
def sampleMembers : List Member :=
  [⟨"\x00\"é\\\n", .v6 0xFFFF01020304, .v4 0⟩, ⟨"", .v6 0x20010DB8000000000001000000000001, .v6 1⟩]

theorem messages_arrive_sample :
    Reconciler.create (Reconciler.sampleConfig "10.1.2.3") "a" Reconciler.sampleKey =
      .ok (Reconciler.sampleNode 0x0A010203 Reconciler.sampleKey) ∧
    Member.listOfJson (Member.jsonOfList sampleMembers) = .ok sampleMembers ∧
    ∃ m peer, Member.toPeers 51820 [m] = .ok [peer] ∧
      peer.publicKey = Reconciler.sampleKey.publicKey ∧
      peer.allowed.head? = some (.host (.v4 0x0A010203)) := by
  have hcreate := Reconciler.create_sampleNode Reconciler.sampleKey
  obtain ⟨hlist, -, hnode⟩ := messages_arrive sampleMembers ⟨.v6 1, "\x1f"⟩
  obtain ⟨m, peer, -, hpeers, hkey, -, hhead⟩ := hnode _ _ _ _ hcreate (.v4 0xC0A80102) 51820
  exact ⟨hcreate, hlist, m, peer, hpeers [] [] [] [] rfl rfl, hkey, hhead⟩

end OverlayTunnel
