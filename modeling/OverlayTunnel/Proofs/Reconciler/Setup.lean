import OverlayTunnel.Proofs.Member.Peers
import OverlayTunnel.Reconciler

/-!
Which reconcilers there are, and how each wants its device to be configured.
-/
namespace OverlayTunnel.Reconciler

variable {r : Reconciler} {setup : DeviceSetup} {ms : List Member}

/-- A reconciler has its settings from a configuration that passes the check. -/
theorem create_eq_ok_iff {c : Config} {name : String} {key : PrivateKey} :
    create c name key = .ok r ↔ c.check = .ok () ∧
      ∃ address, c.network.assign name c.address = .ok address ∧
        r = ⟨c.interface, c.listenPort, c.mtu, c.network, ⟨name, address, key.publicKey, key⟩⟩ := by
  unfold create
  cases c.check with
  | error e => simp [bind, Except.bind]
  | ok _ =>
    cases c.network.assign name c.address with
    | error e => simp [bind, Except.bind]
    | ok address =>
      simp only [bind, Except.bind, pure, Except.pure, Except.ok.injEq, true_and, exists_eq_left']
      exact eq_comm

theorem setup_eq_ok_iff :
    r.setup ms = .ok setup ↔ ∃ peers, Member.toPeers r.listenPort ms = .ok peers ∧
      setup = ⟨r.identity.privateKey, r.listenPort, true, peers⟩ := by
  unfold Reconciler.setup
  cases Member.toPeers r.listenPort ms with
  | error e => simp
  | ok peers =>
    simp only [Except.ok.injEq, exists_eq_left']
    exact eq_comm

theorem replaces_of_setup (h : r.setup ms = .ok setup) : setup.replacesPeers = true := by
  obtain ⟨peers, -, rfl⟩ := setup_eq_ok_iff.mp h
  rfl

theorem setup_isOk_iff :
    (∃ setup, r.setup ms = .ok setup) ↔ ∀ m ∈ ms, ∃ key, m.key? = some key := by
  rw [← @Member.toPeers_isOk_iff r.listenPort]
  constructor
  · rintro ⟨setup, h⟩
    obtain ⟨peers, hpeers, -⟩ := setup_eq_ok_iff.mp h
    exact ⟨peers, hpeers⟩
  · rintro ⟨peers, h⟩
    exact ⟨_, setup_eq_ok_iff.mpr ⟨peers, h, rfl⟩⟩

theorem isRetryable_of_setup {f : Failure} (hsetup : r.setup ms = .error f) : f.isRetryable = false := by
  unfold Reconciler.setup at hsetup
  split at hsetup
  · cases hsetup
  · cases hsetup
    rfl

/-! ### A sample node and its members -/

def sampleConfig (address : String) : Config :=
  { Config.default with address := some address }

def sampleNode (overlayAddress : BitVec 32) (key : PrivateKey) : Reconciler :=
  ⟨"wgoverlay", 51820, 1420, Config.defaultNetwork,
    ⟨"a", .v4 overlayAddress, key.publicKey, key⟩⟩

def sampleKey : PrivateKey :=
  ⟨List.replicate keySize 0, rfl⟩

def sampleText : String :=
  "AAAAAAAAAAAAAAAAAAAAAAAAAAAAAAAAAAAAAAAAAAA="

def sampleMember (overlayAddress : BitVec 32) : Member :=
  ⟨sampleText, .v4 overlayAddress, .v4 0xC0A80102⟩

theorem create_sampleNode (key : PrivateKey) :
    create (sampleConfig "10.1.2.3") "a" key = .ok (sampleNode 0x0A010203 key) := by
  rfl

theorem create_sampleNode_moved (key : PrivateKey) :
    create (sampleConfig "10.1.2.9") "a" key = .ok (sampleNode 0x0A010209 key) := by
  rfl

theorem ofText_sampleText : PublicKey.ofText sampleText = .ok ⟨List.replicate keySize 0, rfl⟩ := by
  rfl

theorem toOption_ofText_empty : (PublicKey.ofText "").toOption = none := by
  decide +kernel

theorem setup_sampleMembers (r : Reconciler) (overlayAddresses : List (BitVec 32)) :
    ∃ setup, r.setup (overlayAddresses.map sampleMember) = .ok setup := by
  apply setup_isOk_iff.mpr
  intro m hm
  obtain ⟨overlayAddress, -, rfl⟩ := List.mem_map.mp hm
  exact ⟨_, Member.key?_eq_some_iff.mpr ofText_sampleText⟩

end OverlayTunnel.Reconciler
