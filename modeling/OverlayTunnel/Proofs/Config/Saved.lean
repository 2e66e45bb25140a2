import OverlayTunnel.Config.Load
import OverlayTunnel.Proofs.Address.Notation
import OverlayTunnel.Proofs.Json.Written

/-!
Saved configurations. A file may name the settings in any order and may leave out those that have their
default: what is loaded from it is the configuration that was saved, if that passes the check.
-/
namespace OverlayTunnel.Config

/-! ### Settings -/

inductive Setting where
  | interface
  | listenPort
  | mtu
  | network
  | address
  deriving DecidableEq

namespace Setting

/-- All settings, in the order in which they are saved. -/
def all : List Setting :=
  [.interface, .listenPort, .mtu, .network, .address]

def field : Setting → Json.Field Draft
  | .interface => interfaceField
  | .listenPort => listenPortField
  | .mtu => mtuField
  | .network => networkField
  | .address => addressField

/-- The value of a setting, as it is saved. -/
def chars (c : Config) : Setting → List Char
  | .interface => Json.quote c.interface
  | .listenPort => Nat.toDigits 10 c.listenPort.toNat
  | .mtu => Nat.toDigits 10 c.mtu.toNat
  | .network => Json.quote c.network.text
  | .address => c.address.elim "null".toList Json.quote

end Setting

/-- Whether a setting may be left out. -/
def HasDefault (c : Config) : Setting → Prop
  | .interface => c.interface = defaultInterface
  | .listenPort => c.listenPort = defaultListenPort
  | .mtu => c.mtu = defaultMtu
  | .network => c.network = defaultNetwork
  | .address => c.address = none

def member (c : Config) (s : Setting) : String × List Char :=
  (s.field.name, s.chars c)

/-- A configuration with the given settings only, in the given order. -/
def saved (c : Config) (kept : List Setting) : String :=
  String.ofList (Json.object (kept.map c.member))

theorem saved_all (c : Config) : c.saved Setting.all = c.json := rfl

/-! ### Reading settings -/

/-- What is known of a configuration once some of its settings have been read. -/
def known (c : Config) (read : List Setting) : Draft where
  interface := if .interface ∈ read then some c.interface else none
  listenPort := if .listenPort ∈ read then some c.listenPort else none
  mtu := if .mtu ∈ read then some c.mtu else none
  network := if .network ∈ read then some c.network else none
  address := if .address ∈ read then some c.address else none

theorem find?_field (s : Setting) : layout.fields.find? (·.name == s.field.name) = some s.field := by
  cases s <;> rfl

variable {c : Config} {s : Setting} {read kept : List Setting}

/-- A setting that has not been read takes its value. -/
theorem takes_chars (hs : s ∉ read) :
    s.field.Takes (c.known read) (s.chars c) (c.known (s :: read)) where
  unread := by cases s <;> simp [Setting.field, interfaceField, listenPortField, mtuField, networkField,
    addressField, known, hs]
  read := by
    intro rest hrest
    cases s with
    | interface =>
      have hread := Json.readText_quote "a string" c.interface rest
      simp [Setting.field, interfaceField, Setting.chars, hread, Except.map, known]
    | listenPort =>
      have hread := Json.readNat_toDigits "u16" (Nat.le_of_lt_succ c.listenPort.toNat_lt) (by decide)
        hrest.endsNumber
      simp [Setting.field, listenPortField, Setting.chars, hread, Except.map, known]
    | mtu =>
      have hread := Json.readNat_toDigits "u32" (Nat.le_of_lt_succ c.mtu.toNat_lt) (by decide)
        hrest.endsNumber
      simp [Setting.field, mtuField, Setting.chars, hread, Except.map, known]
    | network =>
      have hread := Json.readParsed_quote c.network.ofText?_text "IPv4 or IPv6 network address" rest
      simp [Setting.field, networkField, Setting.chars, hread, Except.map, known]
    | address =>
      have hread := Json.readOptionalText_elim c.address rest
      simp only [Setting.field, addressField, Setting.chars, hread]
      simp [Except.map, known]

theorem collects_members (hkept : kept.Nodup) (hread : ∀ s ∈ kept, s ∉ read) :
    Json.Collects layout.fields (c.known read) (kept.map c.member) (c.known (kept.reverse ++ read)) := by
  induction kept generalizing read with
  | nil => exact .done _
  | cons s kept ih =>
    obtain ⟨hs, hkept⟩ := List.nodup_cons.mp hkept
    have htakes : s.field.Takes (c.known read) (s.chars c) (c.known (s :: read)) :=
      takes_chars (hread s List.mem_cons_self)
    have hlater : ∀ t ∈ kept, t ∉ s :: read := by
      intro t ht
      rw [List.mem_cons, not_or]
      exact ⟨fun h => hs (h ▸ ht), hread t (List.mem_cons_of_mem s ht)⟩
    rw [List.reverse_cons, List.append_assoc]
    exact .member (find?_field s) htakes (ih hkept hlater)

/-- The defaults supply what was left out. -/
theorem complete_known (hdefault : ∀ s, s ∉ read → c.HasDefault s) : (c.known read).complete = c := by
  obtain ⟨interface, listenPort, mtu, network, address⟩ := c
  have hgetD {β : Type} {a b : β} {s : Setting} (h : s ∉ read → a = b) :
      (if s ∈ read then some a else none).getD b = a := by
    by_cases hs : s ∈ read
    · rw [if_pos hs, Option.getD_some]
    · rw [if_neg hs, Option.getD_none, h hs]
  simp only [Draft.complete, known, mk.injEq]
  exact ⟨hgetD (hdefault .interface), hgetD (hdefault .listenPort), hgetD (hdefault .mtu),
    hgetD (hdefault .network), hgetD (hdefault .address)⟩

theorem ofJson_saved (hkept : kept.Nodup) (hdefault : ∀ s, s ∉ kept → c.HasDefault s) :
    ofJson (c.saved kept) = .ok c := by
  have hcollects : Json.Collects layout.fields layout.blank (kept.map c.member)
      (c.known (kept.reverse ++ [])) :=
    collects_members hkept fun _ _ => List.not_mem_nil
  have hcomplete : (c.known (kept.reverse ++ [])).complete = c :=
    complete_known fun s hs => hdefault s (by simpa using hs)
  exact Json.readAll_object hcollects (congrArg Except.ok hcomplete)

/-! ### Loading -/

/-- A saved configuration is loaded if it passes the check, and otherwise the check's failure is all
that comes of it. With all settings in order, the file is the JSON form of the configuration. -/
theorem load_saved (c : Config) {kept : List Setting} (hkept : kept.Nodup)
    (hdefault : ∀ s, s ∉ kept → c.HasDefault s) :
    (load (some (Utf8.encode (c.saved kept).toList)) =
      match c.check with
      | .ok () => .ok c
      | .error e => .error e) ∧
    c.saved Setting.all = c.json := by
  refine ⟨?_, c.saved_all⟩
  have hread := ofJson_saved hkept hdefault
  simp only [load, Utf8.decode?_encode, hread]
  change (c.check >>= fun _ => .ok c) = _
  cases c.check <;> rfl

/-- A configuration with a control character, a quote, host bits and the default port. -/
def sampleConfig : Config :=
  ⟨"wg\x01\"é", defaultListenPort, 1280, ⟨.v6 0xFD00000000000000000000000000FFFF, 64, by decide⟩,
    some "\\\n"⟩

theorem load_saved_reordered :
    [Setting.address, .network, .mtu, .interface].Nodup ∧
    (∀ s, s ∉ [Setting.address, .network, .mtu, .interface] → sampleConfig.HasDefault s) ∧
    load (some (Utf8.encode (sampleConfig.saved [.address, .network, .mtu, .interface]).toList)) =
      .ok sampleConfig := by
  have hkept : [Setting.address, .network, .mtu, .interface].Nodup := by decide
  have hdefault : ∀ s, s ∉ [Setting.address, .network, .mtu, .interface] →
      sampleConfig.HasDefault s := by
    intro s hs
    cases s with
    | listenPort => rfl
    | _ => exact absurd (by decide) hs
  have hcheck : sampleConfig.check = .ok () := rfl
  refine ⟨hkept, hdefault, ?_⟩
  rw [(load_saved sampleConfig hkept hdefault).1, hcheck]

end OverlayTunnel.Config
