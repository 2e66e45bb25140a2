import OverlayTunnel.Member.Basic
import OverlayTunnel.Text.Lines
import OverlayTunnel.Text.Numeral

/-!
How a tunnel device is to be configured, and the text that tells it to the configuration tool: one
section for the interface and one for each peer.
-/
namespace OverlayTunnel

structure DeviceSetup where
  privateKey : PrivateKey
  listenPort : UInt16
  /-- Whether peers that are not listed are dropped. -/
  replacesPeers : Bool
  peers : List TunnelPeer
  deriving DecidableEq

def settingLine (name value : String) : String :=
  name ++ " = " ++ value ++ "\n"

def TunnelPeer.setupText (p : TunnelPeer) : String :=
  "[Peer]\n" ++ settingLine "PublicKey" p.publicKey.text ++
    settingLine "Endpoint" p.endpoint.text ++
    settingLine "AllowedIPs" (Text.join ", " (p.allowed.map Network.text))

namespace DeviceSetup

/-- The text of a configuration, an empty line before each peer. -/
def text (d : DeviceSetup) : String :=
  "[Interface]\n" ++ settingLine "PrivateKey" d.privateKey.text ++
    settingLine "ListenPort" (Numeral.decimal d.listenPort.toNat) ++
    Text.join "" (d.peers.map fun p => "\n" ++ p.setupText)

end DeviceSetup

end OverlayTunnel
