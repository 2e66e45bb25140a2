import OverlayTunnel.Device.Dump
import OverlayTunnel.Host.Basic
import OverlayTunnel.Link.Request
import OverlayTunnel.Text.Utf8

/-!
Links of a host as a backend. Every request becomes one or a few invocations of `ip` and `wg`; whether
`wg` is there at all is looked up once and remembered.
-/
namespace OverlayTunnel

/-- The state of a host together with the answer of the tool check, once there is one. -/
structure HostLinks (τ : Type) where
  host : τ
  toolCheck : Option Bool

namespace HostLinks

variable {τ α : Type}

def onHost (act : StateM τ α) : LinkM (HostLinks τ) α := ExceptT.mk fun s =>
  let (a, host) := act.run s.host
  (.ok a, { s with host })

/-! ### Running programs -/

/-- What a failed program says about the link it was to work on. -/
def failureOf (i : Invocation) (stderr : List UInt8) : LinkFailure :=
  let said := Text.trim (Utf8.decodeLossy stderr).toList
  if Text.contains "File exists".toList said then .alreadyExists (String.ofList said)
  else if Text.contains "Cannot find device".toList said ∨
      Text.contains "does not exist".toList said ∨ Text.contains "No such device".toList said then
    .notFound (String.ofList said)
  else .command i.program.name i.shownArguments (String.ofList said)

def run (h : Host τ) (program : Program) (arguments : List Argument) :
    LinkM (HostLinks τ) String := do
  let i : Invocation := ⟨program, arguments⟩
  if i.isPassable = false then throw (.io "nul byte found in provided data")
  match ← onHost (h.run i) with
  | .notStarted reason => throw (.io reason)
  | .exited code stdout stderr =>
    if code ≠ 0 then throw (failureOf i stderr)
    return Utf8.decodeLossy stdout

def texts (arguments : List String) : List Argument :=
  arguments.map .text

/-- Whether the configuration tool is there. The first answer holds for good. -/
def hasTool (h : Host τ) : LinkM (HostLinks τ) Bool := do
  match (← get).toolCheck with
  | some answer => return answer
  | none =>
    let outcome ← onHost (h.run ⟨.which, [.text "wg"]⟩)
    let answer := outcome matches .exited 0 _ _
    modify fun s => { s with toolCheck := some answer }
    return answer

def requireTool (h : Host τ) : LinkM (HostLinks τ) Unit := do
  if (← hasTool h) = false then throw (.toolMissing "wg (install wireguard-tools)")

/-! ### Requests -/

/-- The index of a link in the line that describes it: the number before the first colon. -/
def indexOf? (output : List Char) : Option UInt32 :=
  match Text.lines output with
  | [] => none
  | line :: _ =>
    match Numeral.readNat 4294967295 (Text.trim (line.takeWhile (· ≠ ':'))) with
    | .ok n => some (UInt32.ofNat n)
    | .error _ => none

def linkByName (h : Host τ) (name : String) : LinkM (HostLinks τ) LinkHandle := do
  let output ← run h .ip (texts ["-o", "link", "show", "dev", name])
  match indexOf? output.toList with
  | some index => return ⟨name, index⟩
  | none => throw (.badOutput ("no link index in " ++ Text.quoted (Text.trimmed output)))

/-- The device of a link. An absent link is reported whether or not the tool is there. -/
def device (h : Host τ) (name : String) : LinkM (HostLinks τ) Device := do
  let _ ← linkByName h name
  requireTool h
  let dump ← run h .wg (texts ["show", name, "dump"])
  match Device.ofDump name dump with
  | .ok d => return d
  | .error e => throw (.badOutput e.message)

/-- The command that applies a configuration file: it replaces the device or adds to its peers. -/
def applyCommand (setup : DeviceSetup) : String :=
  if setup.replacesPeers then "setconf" else "addconf"

/-- The arguments that set the networks of a peer to those listed. -/
def resetArguments (name : String) (p : TunnelPeer) : List Argument :=
  texts ["set", name, "peer", p.publicKey.text, "allowed-ips",
    Text.join "," (p.allowed.map Network.text)]

/-- The peers whose networks must be set afterwards, because adding a configuration only ever appends
networks. -/
def peersToReset (setup : DeviceSetup) : List TunnelPeer :=
  if setup.replacesPeers then [] else setup.peers.filter (·.replacesAllowed)

def configFile (name : String) (setup : DeviceSetup) : ConfigFile :=
  ⟨name ++ "-", setup.text⟩

def applyFile (h : Host τ) (name : String) (setup : DeviceSetup) : LinkM (HostLinks τ) Unit := do
  let _ ← run h .wg [.text (applyCommand setup), .text name, .file (configFile name setup)]
  (peersToReset setup).forM fun p => do
    let _ ← run h .wg (resetArguments name p)

/-- Runs an operation and then, whatever came of it, another one that cannot fail. -/
def andThen (act : LinkM (HostLinks τ) α) (last : StateM τ Unit) : LinkM (HostLinks τ) α :=
  ExceptT.mk fun s =>
    let (a, s) := act.run.run s
    (a, { s with host := (last.run s.host).2 })

/-- Configures a device by way of a file, which is removed in any case. -/
def configureDevice (h : Host τ) (name : String) (setup : DeviceSetup) :
    LinkM (HostLinks τ) Unit := do
  requireTool h
  match ← onHost (h.writeFile (configFile name setup)) with
  | .error reason => throw (.io reason)
  | .ok () => andThen (applyFile h name setup) (h.removeFile (configFile name setup))

def ip (h : Host τ) (arguments : List String) : LinkM (HostLinks τ) Unit := do
  let _ ← run h .ip (texts arguments)

def backend (h : Host τ) : Backend (HostLinks τ) where
  perform
    | .createWireguard name => ip h ["link", "add", "dev", name, "type", "wireguard"]
    | .device name => device h name
    | .configureDevice name setup => configureDevice h name setup
    | .linkByName name => linkByName h name
    | .replaceAddress link address => ip h ["addr", "replace", address.text, "dev", link.name]
    | .setMtu link mtu =>
      ip h ["link", "set", "dev", link.name, "mtu", Numeral.decimal mtu.toNat]
    | .setUp link => ip h ["link", "set", "dev", link.name, "up"]
    | .addRoute link destination =>
      ip h ["route", "add", destination.text, "dev", link.name, "scope", "link"]
    | .deleteLink link => ip h ["link", "delete", "dev", link.name]

end HostLinks

end OverlayTunnel
