import OverlayTunnel.Network
import OverlayTunnel.Text.Blank
import OverlayTunnel.Text.Utf8

/-!
The configuration of an overlay interface, and which configurations the system would take.
-/
namespace OverlayTunnel

structure Config where
  interface : String
  listenPort : UInt16
  mtu : UInt32
  network : Network
  /-- The overlay address, where it is not to be derived from the name of the node. -/
  address : Option String
  deriving DecidableEq, Repr

namespace Config

def defaultInterface : String := "wgoverlay"

def defaultListenPort : UInt16 := 51820

def defaultMtu : UInt32 := 1420

/-- All addresses that begin with 10. -/
def defaultNetwork : Network := ⟨.v4 0x0A000000, 8, by decide⟩

def default : Config :=
  ⟨defaultInterface, defaultListenPort, defaultMtu, defaultNetwork, none⟩

/-- The greatest number of bytes of an interface name. -/
def maxInterfaceLength : Nat := 15

/-- The least MTU that carries packets of a family. -/
def minMtu : Family → Nat
  | .v4 => 576
  | .v6 => 1280

def maxMtu : Nat := 65535

end Config

inductive ConfigError where
  | emptyInterface
  | longInterface (name : String)
  | badInterface (name : String)
  | zeroPort
  | mtuOutOfRange (mtu : Nat) (family : Family)
  deriving DecidableEq, Repr

def ConfigError.message : ConfigError → String
  | .emptyInterface => "interface name must not be empty"
  | .longInterface name =>
    "interface name '" ++ name ++ "' exceeds " ++ toString Config.maxInterfaceLength ++
      " character limit"
  | .badInterface name => "interface name '" ++ name ++ "' contains whitespace or '/'"
  | .zeroPort => "listen port must be non-zero"
  | .mtuOutOfRange mtu family =>
    "MTU " ++ toString mtu ++ " out of range " ++ toString (Config.minMtu family) ++ "..=" ++
      toString Config.maxMtu

/-- Checks a configuration; the first fault in the order of the fields decides. -/
def Config.validate (c : Config) : Except ConfigError Unit :=
  if c.interface.toList = [] then .error .emptyInterface
  else if maxInterfaceLength < (Utf8.encode c.interface.toList).length then
    .error (.longInterface c.interface)
  else if c.interface.toList.any (fun ch => Text.isBlank ch || ch == '/') then
    .error (.badInterface c.interface)
  else if c.listenPort = 0 then .error .zeroPort
  else if c.mtu.toNat < minMtu c.network.family ∨ maxMtu < c.mtu.toNat then
    .error (.mtuOutOfRange c.mtu.toNat c.network.family)
  else .ok ()

end OverlayTunnel
