import OverlayTunnel.Json.Error
import OverlayTunnel.Key.Basic
import OverlayTunnel.Link.Failure
import OverlayTunnel.Network

/-!
How an operation of the overlay may fail, and whether it is worth trying again.
-/
namespace OverlayTunnel

inductive Phase where
  | createLink
  | buildPeers
  | configureDevice
  | lookupLink
  | replaceAddress
  | setMtu
  | setUp
  | addRoute (destination : Network)
  | lookupDevice
  | deleteLink
  deriving DecidableEq, Repr

def Phase.text : Phase → String
  | .createLink => "creating link"
  | .buildPeers => "converting peer configuration"
  | .configureDevice => "setting wireguard configuration"
  | .lookupLink => "getting link information"
  | .replaceAddress => "setting address"
  | .setMtu => "setting MTU"
  | .setUp => "enabling interface"
  | .addRoute destination => "adding route " ++ destination.text
  | .lookupDevice => "getting device"
  | .deleteLink => "deleting link"

inductive Failure where
  | invalidAddress (text : String)
  | addressOutside (address : Address) (network : Network)
  | underivable (reason : String)
  | invalidKey (reason : String)
  | invalidNetwork (reason : String)
  | config (reason : String)
  | link (phase : Phase) (interface : String) (source : LinkFailure)
  | peers (interface : String) (source : Failure)
  | io (reason : String)
  | json (category : Json.Category) (reason : String)
  deriving DecidableEq, Repr

namespace Failure

def message : Failure → String
  | .invalidAddress text => "Invalid overlay address: " ++ text
  | .addressOutside address network =>
    "Overlay address " ++ address.text ++ " is not part of the overlay network " ++ network.text
  | .underivable reason => "Could not derive overlay address: " ++ reason
  | .invalidKey reason => "Invalid key format: " ++ reason
  | .invalidNetwork reason => "Invalid CIDR notation: " ++ reason
  | .config reason => "Configuration error: " ++ reason
  | .link phase interface source =>
    phase.text ++ " for interface '" ++ interface ++ "': " ++ source.message
  | .peers interface source =>
    "converting peer configuration for interface '" ++ interface ++ "': " ++ source.message
  | .io reason => "IO error: " ++ reason
  | .json _ reason => "JSON error: " ++ reason

/-- Whose fault a failure is. -/
inductive Kind where
  /-- The input must change first. -/
  | configuration
  /-- The system refused; the whole call may be tried again. -/
  | resource
  deriving DecidableEq, Repr

def kind : Failure → Kind
  | .link .. => .resource
  | _ => .configuration

def isRetryable (f : Failure) : Bool :=
  f.kind = .resource

def phase? : Failure → Option Phase
  | .link phase _ _ => some phase
  | .peers _ _ => some .buildPeers
  | _ => none

/-- The interface that could not be brought up or down. -/
def interface? : Failure → Option String
  | .link _ interface _ => some interface
  | .peers interface _ => some interface
  | _ => none

def ofKey (e : KeyError) : Failure :=
  .invalidKey e.message

def ofJson (e : Json.Error) : Failure :=
  .json e.category e.message

end Failure

end OverlayTunnel
