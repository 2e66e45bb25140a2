import OverlayTunnel.Endpoint
import OverlayTunnel.Key.Basic
import OverlayTunnel.Network

/-!
The other nodes of the overlay, and the tunnel peers that they become.
-/
namespace OverlayTunnel

/-- A node as the membership service reports it. Its key is still a text. -/
structure Member where
  publicKey : String
  overlayAddress : Address
  realAddress : Address
  deriving DecidableEq, Repr

/-- What a node tells the others about itself. -/
structure Announcement where
  overlayAddress : Address
  publicKey : String
  deriving DecidableEq, Repr

structure TunnelPeer where
  publicKey : PublicKey
  endpoint : Endpoint
  /-- Whether the networks listed replace those that the peer has, or join them. -/
  replacesAllowed : Bool
  allowed : List Network
  deriving DecidableEq, Repr

/-- The private address ranges, which every peer may route to. -/
def privateRanges : List Network :=
  [⟨.v4 0x0A000000, 8, (by decide : 8 ≤ 32)⟩, ⟨.v4 0xAC100000, 12, (by decide : 12 ≤ 32)⟩,
    ⟨.v4 0xC0A80000, 16, (by decide : 16 ≤ 32)⟩]

namespace Member

/-- The networks behind a node: its own address, then the private ranges. -/
def routes (overlayAddress : Address) : List Network :=
  Network.host overlayAddress :: privateRanges

/-- The peer of a node; all nodes listen on the same port. -/
def toPeer (listenPort : UInt16) (m : Member) : Except KeyError TunnelPeer :=
  (PublicKey.ofText m.publicKey).map fun key =>
    ⟨key, .ofAddress m.realAddress listenPort, true, routes m.overlayAddress⟩

/-- The peers of all nodes in order; the first bad key decides. -/
def toPeers (listenPort : UInt16) (ms : List Member) : Except KeyError (List TunnelPeer) :=
  ms.mapM (toPeer listenPort)

end Member

/-- The node that made an announcement, as met at a real address. -/
def Announcement.toMember (a : Announcement) (realAddress : Address) : Member :=
  ⟨a.publicKey, a.overlayAddress, realAddress⟩

end OverlayTunnel
