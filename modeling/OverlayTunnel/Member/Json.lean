import OverlayTunnel.Json.Record
import OverlayTunnel.Member.Basic

/-!
Members and announcements as JSON. All fields are required.
-/
namespace OverlayTunnel

/-- The fields that members and announcements are made of, as far as they have been read. -/
structure MemberDraft where
  publicKey : Option String
  overlayAddress : Option Address
  realAddress : Option Address

namespace MemberDraft

def empty : MemberDraft :=
  ⟨none, none, none⟩

def publicKeyField : Json.Field MemberDraft where
  name := "public_key"
  isRead d := d.publicKey.isSome
  read d cs := (Json.readText "a string" cs).map fun (s, rest) =>
    ({ d with publicKey := some s }, rest)

def readAddress : Json.Reader Address :=
  Json.readParsed "IP address" Address.ofText?

def overlayAddressField : Json.Field MemberDraft where
  name := "overlay_addr"
  isRead d := d.overlayAddress.isSome
  read d cs := (readAddress cs).map fun (a, rest) => ({ d with overlayAddress := some a }, rest)

def realAddressField : Json.Field MemberDraft where
  name := "real_addr"
  isRead d := d.realAddress.isSome
  read d cs := (readAddress cs).map fun (a, rest) => ({ d with realAddress := some a }, rest)

def required {α : Type} (field : Json.Field MemberDraft) (value : Option α) :
    Except Json.Error α :=
  match value with
  | some a => .ok a
  | none => .error (.missingField field.name)

/-- A field of a record written as a list, whose place is its number. -/
def element {α : Type} (place : Nat) (expected : String) (value : Option α) :
    Except Json.Error α :=
  match value with
  | some a => .ok a
  | none => .error (.wrongLength place expected)

end MemberDraft

open MemberDraft

namespace Member

def layout : Json.Layout MemberDraft Member where
  title := "struct PeerDescriptor"
  fields := [publicKeyField, overlayAddressField, realAddressField]
  blank := .empty
  ofObject d := do
    return ⟨← required publicKeyField d.publicKey, ← required overlayAddressField d.overlayAddress,
      ← required realAddressField d.realAddress⟩
  ofList d := do
    let expected := "struct PeerDescriptor with 3 elements"
    return ⟨← element 0 expected d.publicKey, ← element 1 expected d.overlayAddress,
      ← element 2 expected d.realAddress⟩

def ofJson (text : String) : Except Json.Error Member :=
  Json.readAll (Json.readRecord layout) text

def listOfJson (text : String) : Except Json.Error (List Member) :=
  Json.readAll (Json.readList (Json.readRecord layout)) text

def jsonChars (m : Member) : List Char :=
  Json.object
    [(publicKeyField.name, Json.quote m.publicKey),
      (overlayAddressField.name, Json.quote m.overlayAddress.text),
      (realAddressField.name, Json.quote m.realAddress.text)]

def json (m : Member) : String :=
  String.ofList m.jsonChars

def jsonOfList (ms : List Member) : String :=
  String.ofList (Json.list (ms.map jsonChars))

end Member

namespace Announcement

def layout : Json.Layout MemberDraft Announcement where
  title := "struct LocalNode"
  fields := [overlayAddressField, publicKeyField]
  blank := .empty
  ofObject d := do
    return ⟨← required overlayAddressField d.overlayAddress, ← required publicKeyField d.publicKey⟩
  ofList d := do
    let expected := "struct LocalNode with 2 elements"
    return ⟨← element 0 expected d.overlayAddress, ← element 1 expected d.publicKey⟩

def ofJson (text : String) : Except Json.Error Announcement :=
  Json.readAll (Json.readRecord layout) text

def json (a : Announcement) : String :=
  String.ofList (Json.object
    [(overlayAddressField.name, Json.quote a.overlayAddress.text),
      (publicKeyField.name, Json.quote a.publicKey)])

end Announcement

end OverlayTunnel
