import OverlayTunnel.Config.Basic
import OverlayTunnel.Json.Record

/-!
Configurations as JSON. A field that is left out has its default.
-/
namespace OverlayTunnel.Config

structure Draft where
  interface : Option String
  listenPort : Option UInt16
  mtu : Option UInt32
  network : Option Network
  address : Option (Option String)

def Draft.empty : Draft :=
  ⟨none, none, none, none, none⟩

def Draft.complete (d : Draft) : Config where
  interface := d.interface.getD defaultInterface
  listenPort := d.listenPort.getD defaultListenPort
  mtu := d.mtu.getD defaultMtu
  network := d.network.getD defaultNetwork
  address := d.address.getD none

def interfaceField : Json.Field Draft where
  name := "interface"
  isRead d := d.interface.isSome
  read d cs := (Json.readText "a string" cs).map fun (s, rest) =>
    ({ d with interface := some s }, rest)

def listenPortField : Json.Field Draft where
  name := "listen_port"
  isRead d := d.listenPort.isSome
  read d cs := (Json.readNat "u16" 65535 cs).map fun (n, rest) =>
    ({ d with listenPort := some (UInt16.ofNat n) }, rest)

def mtuField : Json.Field Draft where
  name := "mtu"
  isRead d := d.mtu.isSome
  read d cs := (Json.readNat "u32" 4294967295 cs).map fun (n, rest) =>
    ({ d with mtu := some (UInt32.ofNat n) }, rest)

def networkField : Json.Field Draft where
  name := "overlay_net"
  isRead d := d.network.isSome
  read d cs := (Json.readParsed "IPv4 or IPv6 network address" Network.ofText? cs).map
    fun (n, rest) => ({ d with network := some n }, rest)

def addressField : Json.Field Draft where
  name := "overlay_address"
  isRead d := d.address.isSome
  read d cs := (Json.readOptionalText cs).map fun (a, rest) =>
    ({ d with address := some a }, rest)

def layout : Json.Layout Draft Config where
  title := "struct OverlayConfig"
  fields := [interfaceField, listenPortField, mtuField, networkField, addressField]
  blank := .empty
  ofObject d := .ok d.complete
  ofList d := .ok d.complete

/-- Reads a configuration without checking it. -/
def ofJson (text : String) : Except Json.Error Config :=
  Json.readAll (Json.readRecord layout) text

/-- The members of the JSON form, in the order of the fields. -/
def members (c : Config) : List (String × List Char) :=
  [("interface", Json.quote c.interface),
    ("listen_port", Nat.toDigits 10 c.listenPort.toNat),
    ("mtu", Nat.toDigits 10 c.mtu.toNat),
    ("overlay_net", Json.quote c.network.text),
    ("overlay_address", c.address.elim "null".toList Json.quote)]

def json (c : Config) : String :=
  String.ofList (Json.object c.members)

end OverlayTunnel.Config
