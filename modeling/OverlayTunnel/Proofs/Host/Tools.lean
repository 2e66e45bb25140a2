import OverlayTunnel.Host.Backend
import OverlayTunnel.Host.Scripted
import OverlayTunnel.Proofs.Device.Applied
import OverlayTunnel.Proofs.Device.DumpText
import OverlayTunnel.Proofs.Table.Effect

/-!
What the tools of a host do. The arguments of a program are an order, which acts on the links of the host
and is answered in words; beyond the words that matter, a program may print what it likes.
-/
namespace OverlayTunnel

/-- The links of a host, the last index given out, and the files that are there. -/
structure ToolState where
  links : Links
  lastIndex : UInt32
  files : List ConfigFile

def ToolState.withLink (s : ToolState) (name : String) (link : Option LinkState) : ToolState :=
  { s with links := s.links.set name link }

namespace ToolState

@[simp] theorem links_withLink (s : ToolState) (name : String) (link : Option LinkState) :
    (s.withLink name link).links name = link :=
  Links.set_self _ _ _

@[simp] theorem withLink_withLink (s : ToolState) (name : String) (first second : Option LinkState) :
    (s.withLink name first).withLink name second = s.withLink name second := by
  simp [withLink]

theorem withLink_of_eq {s : ToolState} {name : String} {link : Option LinkState}
    (h : s.links name = link) : s.withLink name link = s := by
  simp [withLink, ← h]

end ToolState

inductive Order where
  | probe
  | add (name : String)
  | describe (name : String)
  | replaceAddress (name : String) (address : Network)
  | setMtu (name : String) (mtu : UInt32)
  | setUp (name : String)
  | addRoute (name : String) (destination : Network)
  | delete (name : String)
  | setConfig (name : String) (file : ConfigFile)
  | addConfig (name : String) (file : ConfigFile)
  | setAllowed (name : String) (key : PublicKey) (networks : List Network)
  | dump (name : String)

namespace Order

/-! ### Orders in arguments -/

def mtu? (text : String) : Option UInt32 :=
  (Numeral.readNat 4294967295 text.toList).toOption.map UInt32.ofNat

def networks? (text : String) : Option (List Network) :=
  if text.toList = [] then some [] else (text.toList.splitOn ',').mapM Network.ofChars?

def ofArguments? : Program → List Argument → Option Order
  | .which, [.text "wg"] => some .probe
  | .ip, [.text "link", .text "add", .text "dev", .text name, .text "type", .text "wireguard"] =>
    some (.add name)
  | .ip, [.text "-o", .text "link", .text "show", .text "dev", .text name] =>
    some (.describe name)
  | .ip, [.text "addr", .text "replace", .text address, .text "dev", .text name] =>
    (Network.ofText? address).map (.replaceAddress name)
  | .ip, [.text "link", .text "set", .text "dev", .text name, .text "mtu", .text mtu] =>
    (mtu? mtu).map (.setMtu name)
  | .ip, [.text "link", .text "set", .text "dev", .text name, .text "up"] => some (.setUp name)
  | .ip, [.text "route", .text "add", .text destination, .text "dev", .text name, .text "scope",
      .text "link"] =>
    (Network.ofText? destination).map (.addRoute name)
  | .ip, [.text "link", .text "delete", .text "dev", .text name] => some (.delete name)
  | .wg, [.text "setconf", .text name, .file file] => some (.setConfig name file)
  | .wg, [.text "addconf", .text name, .file file] => some (.addConfig name file)
  | .wg, [.text "set", .text name, .text "peer", .text key, .text "allowed-ips",
      .text networks] => do
    return .setAllowed name (← (PublicKey.ofText key).toOption) (← networks? networks)
  | .wg, [.text "show", .text name, .text "dump"] => some (.dump name)
  | _, _ => none

open HostLinks (texts)

theorem ofArguments?_probe : ofArguments? .which [.text "wg"] = some .probe := rfl

theorem ofArguments?_add (name : String) :
    ofArguments? .ip (texts ["link", "add", "dev", name, "type", "wireguard"]) =
      some (.add name) :=
  rfl

theorem ofArguments?_describe (name : String) :
    ofArguments? .ip (texts ["-o", "link", "show", "dev", name]) = some (.describe name) :=
  rfl

theorem ofArguments?_replaceAddress (name : String) (address : Network) :
    ofArguments? .ip (texts ["addr", "replace", address.text, "dev", name]) =
      some (.replaceAddress name address) := by
  change (Network.ofText? address.text).map (Order.replaceAddress name) = _
  rw [address.ofText?_text]
  rfl

theorem ofArguments?_setMtu (name : String) (mtu : UInt32) :
    ofArguments? .ip (texts ["link", "set", "dev", name, "mtu", Numeral.decimal mtu.toNat]) =
      some (.setMtu name mtu) := by
  have hread : mtu? (Numeral.decimal mtu.toNat) = some mtu := by
    unfold mtu?
    rw [Numeral.toList_decimal, Numeral.readNat_toDigits (Nat.le_of_lt_succ mtu.toNat_lt)]
    simp [Except.toOption]
  change (mtu? (Numeral.decimal mtu.toNat)).map (Order.setMtu name) = _
  rw [hread]
  rfl

theorem ofArguments?_setUp (name : String) :
    ofArguments? .ip (texts ["link", "set", "dev", name, "up"]) = some (.setUp name) :=
  rfl

theorem ofArguments?_addRoute (name : String) (destination : Network) :
    ofArguments? .ip (texts ["route", "add", destination.text, "dev", name, "scope", "link"]) =
      some (.addRoute name destination) := by
  change (Network.ofText? destination.text).map (Order.addRoute name) = _
  rw [destination.ofText?_text]
  rfl

theorem ofArguments?_delete (name : String) :
    ofArguments? .ip (texts ["link", "delete", "dev", name]) = some (.delete name) :=
  rfl

theorem ofArguments?_setConfig (name : String) (file : ConfigFile) :
    ofArguments? .wg [.text "setconf", .text name, .file file] = some (.setConfig name file) :=
  rfl

theorem ofArguments?_addConfig (name : String) (file : ConfigFile) :
    ofArguments? .wg [.text "addconf", .text name, .file file] = some (.addConfig name file) :=
  rfl

theorem ofArguments?_dump (name : String) :
    ofArguments? .wg (texts ["show", name, "dump"]) = some (.dump name) :=
  rfl

theorem networks?_join (networks : List Network) :
    networks? (Text.join "," (networks.map Network.text)) = some networks := by
  have hjoin : (Text.join "," (networks.map Network.text)).toList =
      [','].intercalate (networks.map Network.chars) :=
    Network.toList_join "," networks
  unfold networks?
  rw [hjoin]
  cases networks with
  | nil => rfl
  | cons n networks =>
    rw [if_neg (Network.intercalate_ne_nil [','] n networks), Network.splitOn_intercalate,
      Network.mapM_ofChars?]

theorem ofArguments?_resetArguments (name : String) (p : TunnelPeer) :
    ofArguments? .wg (HostLinks.resetArguments name p) =
      some (.setAllowed name p.publicKey p.allowed) := by
  change ((PublicKey.ofText p.publicKey.text).toOption.bind fun key =>
    (networks? (Text.join "," (p.allowed.map Network.text))).bind fun networks =>
      some (Order.setAllowed name key networks)) = _
  rw [p.publicKey.ofText_text, networks?_join]
  rfl

end Order

/-! ### What programs answer -/

namespace Outcome

def Succeeds (o : Outcome) : Prop :=
  ∃ stdout stderr, o = .exited 0 stdout stderr

def Prints (o : Outcome) (text : List Char) : Prop :=
  ∃ stderr, o = .exited 0 (Utf8.encode text) stderr

/-- A failure with a message, after which blanks and line breaks may follow. -/
def Fails (o : Outcome) (message : String) : Prop :=
  ∃ code stdout ending, code ≠ 0 ∧ (∀ c ∈ ending, Text.isBlank c = true) ∧
    o = .exited code stdout (Utf8.encode (message.toList ++ ending))

end Outcome

def fileExists : String :=
  "RTNETLINK answers: File exists"

def doesNotExist (name : String) : String :=
  "Device \"" ++ name ++ "\" does not exist."

/-- The answer to an order that changes a link, where the link is there. -/
def Edits (name : String) (edit : LinkState → Option LinkState) (s : ToolState) (o : Outcome)
    (s' : ToolState) : Prop :=
  ∀ l, s.links name = some l → o.Succeeds ∧ s' = s.withLink name (edit l)

/-- The answer to an order, and the state after it. Nothing is said about orders for links and devices
that are not there, apart from those that are to find that out. -/
def Order.Answers : Order → ToolState → Outcome → ToolState → Prop
  | .probe, s, o, s' => o.Succeeds ∧ s' = s
  | .add name, s, o, s' =>
    match s.links name with
    | none =>
      o.Succeeds ∧ s' = { s.withLink name (some (.new (s.lastIndex + 1))) with
        lastIndex := s.lastIndex + 1 }
    | some _ => o.Fails fileExists ∧ s' = s
  | .describe name, s, o, s' =>
    s' = s ∧
    match s.links name with
    | some l =>
      ∃ more, o.Prints (Nat.toDigits 10 l.index.toNat ++ ':' :: ' ' :: (name.toList ++ ':' :: more))
    | none => o.Fails (doesNotExist name)
  | .replaceAddress name address, s, o, s' => Edits name (fun l => some (l.addressed address)) s o s'
  | .setMtu name mtu, s, o, s' => Edits name (fun l => some { l with mtu }) s o s'
  | .setUp name, s, o, s' => Edits name (fun l => some { l with up := true }) s o s'
  | .addRoute name destination, s, o, s' =>
    ∀ l, s.links name = some l → l.up = true →
      if destination ∈ l.routes then o.Fails fileExists ∧ s' = s
      else o.Succeeds ∧
        s' = s.withLink name (some { l with routes := l.routes ++ [destination] })
  | .delete name, s, o, s' => Edits name (fun _ => none) s o s'
  | .setConfig name file, s, o, s' =>
    ∀ c, file ∈ s.files → SetupText.contents? file.content = some c →
      Edits name (fun l => some { l with device := some (c.replaced name) }) s o s'
  | .addConfig name file, s, o, s' =>
    ∀ c, file ∈ s.files → SetupText.contents? file.content = some c →
      Edits name (fun l => some { l with device := some (c.added name l.device) }) s o s'
  | .setAllowed name key networks, s, o, s' =>
    ∀ l d, s.links name = some l → l.device = some d → key ∈ d.peers.map DevicePeer.publicKey →
      o.Succeeds ∧
        s' = s.withLink name (some { l with device := some (d.withAllowed key networks) })
  | .dump name, s, o, s' =>
    ∀ l, s.links name = some l →
      s' = s ∧ ∃ text, o.Prints text ∧ Dump.IsDump (l.device.getD (.unconfigured name)) text

/-- A host whose programs carry out the orders that they are given. What its state is beyond `view` does
not matter. -/
structure Host.Serves {τ : Type} (h : Host τ) (view : τ → ToolState) : Prop where
  run (program : Program) (arguments : List Argument) (order : Order) (s : τ) :
    Order.ofArguments? program arguments = some order →
      order.Answers (view s) ((h.run ⟨program, arguments⟩).run s).1
        (view ((h.run ⟨program, arguments⟩).run s).2)
  write (file : ConfigFile) (s : τ) :
    Script.refusal? file = none →
      ((h.writeFile file).run s).1 = .ok () ∧
        ∃ files, file ∈ files ∧ view ((h.writeFile file).run s).2 = { view s with files }
  remove (file : ConfigFile) (s : τ) :
    ∃ files, view ((h.removeFile file).run s).2 = { view s with files }

end OverlayTunnel
