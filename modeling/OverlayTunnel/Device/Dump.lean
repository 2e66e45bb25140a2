import OverlayTunnel.Device.Basic
import OverlayTunnel.Text.Blank
import OverlayTunnel.Text.Lines
import OverlayTunnel.Text.Numeral
import OverlayTunnel.Text.Quoted

/-!
Devices read from a dump: a line for the interface and a line for each peer, with columns separated
by tabs. A bad line is an error; a bad endpoint or network in a good line is left out.
-/
namespace OverlayTunnel

inductive DumpError where
  | empty
  | badInterfaceLine (line : String)
  | badListenPort (field : String) (cause : Numeral.ReadError)
  | badPeerLine (line : String)
  | badPeerKey (cause : KeyError)
  deriving DecidableEq, Repr

def DumpError.message : DumpError → String
  | .empty => "empty wg dump"
  | .badInterfaceLine line => "bad interface line " ++ Text.quoted line
  | .badListenPort field cause => "listen port " ++ Text.quoted field ++ ": " ++ cause.message
  | .badPeerLine line => "bad peer line " ++ Text.quoted line
  | .badPeerKey cause => "Invalid key format: " ++ cause.message

def optionalColumn {α : Type} (read? : List Char → Option α) (column : List Char) : Option α :=
  if column = "(none)".toList ∨ column = [] then none else read? column

/-- The networks of a column; what is no network is left out. -/
def networksOfColumn (column : List Char) : List Network :=
  (optionalColumn some column).toList.flatMap fun column =>
    (column.splitOn ',').filterMap fun entry => Network.ofChars? (Text.trim entry)

def keyOfColumn? (column : List Char) : Option PublicKey :=
  (PublicKey.ofText (String.ofList column)).toOption

namespace DevicePeer

/-- Reads the line of a peer: key, preshared key, endpoint, networks, and columns that do not
matter. -/
def ofDumpLine (line : List Char) : Except DumpError DevicePeer :=
  match line.splitOn '\t' with
  | key :: _ :: endpoint :: allowed :: _ =>
    match PublicKey.ofText (String.ofList key) with
    | .error cause => .error (.badPeerKey cause)
    | .ok key => .ok ⟨key, optionalColumn Endpoint.ofChars? endpoint, networksOfColumn allowed⟩
  | _ => .error (.badPeerLine (String.ofList line))

end DevicePeer

namespace Device

/-- Reads the line of an interface: private key, public key, port, and columns that do not matter. -/
def ofDumpHeader (name : String) (line : List Char) : Except DumpError Device :=
  match line.splitOn '\t' with
  | _ :: key :: listenPort :: _ =>
    match Numeral.readNat 65535 listenPort with
    | .error cause => .error (.badListenPort (String.ofList listenPort) cause)
    | .ok port => .ok ⟨name, optionalColumn keyOfColumn? key, UInt16.ofNat port, []⟩
  | _ => .error (.badInterfaceLine (String.ofList line))

def dumpLines (dump : List Char) : List (List Char) :=
  (Text.lines dump).filter fun line => !(Text.trim line).isEmpty

def ofDump (name : String) (dump : String) : Except DumpError Device :=
  match dumpLines dump.toList with
  | [] => .error .empty
  | header :: lines => do
    let device ← ofDumpHeader name header
    let peers ← lines.mapM DevicePeer.ofDumpLine
    return { device with peers }

end Device

end OverlayTunnel
