import OverlayTunnel.Digest
import OverlayTunnel.Failure
import OverlayTunnel.Text.Blank
import OverlayTunnel.Text.Utf8

/-!
The overlay address of a node: the one that it is configured with, or one derived from its name, which
every node computes alike.
-/
namespace OverlayTunnel.Network

def parse (text : String) : Except Failure Network :=
  match ofText? text with
  | some n => .ok n
  | none => .error (.invalidNetwork (text ++ ": invalid IP address syntax"))

/-- The number of whole bytes in which members differ. -/
def hostBytes (n : Network) : Nat :=
  n.hostBits / 8

/-- The member for a name: the address of the network, its whole host bytes replaced by the last bytes
of the digest of the name. -/
def derive (n : Network) (name : String) : Except Failure Address :=
  let digest := Digest.bytes (Digest.fnv1a (Utf8.encode name.toList))
  let octets := n.base.octets
  let bytes := octets.take (octets.length - n.hostBytes) ++
    digest.drop (digest.length - n.hostBytes)
  match Address.ofOctets? bytes with
  | some a => .ok a
  | none => .error (.underivable (toString bytes.length ++ " bytes do not form an address"))

/-- The address for a name, where an explicit one comes first. Blanks around it do not count, and the
unspecified address stands for none. -/
def assign (n : Network) (name : String) (explicit : Option String) : Except Failure Address :=
  let text := Text.trimmed (explicit.getD "")
  if text.toList = [] then n.derive name
  else
    match Address.ofText? text with
    | none => .error (.invalidAddress text)
    | some a =>
      if a.isUnspecified then n.derive name
      else if n.contains a then .ok a
      else .error (.addressOutside a n)

end OverlayTunnel.Network
