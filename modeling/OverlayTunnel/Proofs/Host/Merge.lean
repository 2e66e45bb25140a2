import OverlayTunnel.Proofs.Device.MergeOrder
import OverlayTunnel.Proofs.Host.Simulated
import OverlayTunnel.Proofs.Host.Tunnel

/-!
Configurations that keep the other peers of a device. A host adds all peers and replaces networks
afterwards, a table does one after the other, and they do not always agree.
-/
namespace OverlayTunnel

variable {τ : Type} {h : Host τ} {view : τ → ToolState} {s : HostLinks τ} {name : String}
  {l : LinkState}

/-! ### Networks that are replaced -/

/-- The networks of peers that are there are replaced one after another. -/
theorem run_resets (hs : h.Serves view) (hname : IsInterface name) {d : Device}
    (hl : (view s.host).links name = some { l with device := some d }) {ps : List TunnelPeer}
    (hps : ∀ p ∈ ps, p.publicKey ∈ d.peers.map DevicePeer.publicKey) :
    ∃ s', (ps.forM fun p => do
        let _ ← HostLinks.run h .wg (HostLinks.resetArguments name p) :
          LinkM (HostLinks τ) Unit).run.run s = (.ok (), s') ∧
      view s'.host = (view s.host).withLink name (some { l with
        device := some (ps.foldl (fun d p => d.withAllowed p.publicKey p.allowed) d) }) ∧
      s'.toolCheck = s.toolCheck := by
  induction ps generalizing s d with
  | nil => exact ⟨s, rfl, (ToolState.withLink_of_eq hl).symm, rfl⟩
  | cons p ps ih =>
    obtain ⟨text, s₁, hrun, hview₁, htool₁⟩ := run_of_edited (isPassable_resetArguments hname.nul p)
      (hs.run _ _ _ s.host (Order.ofArguments?_resetArguments name p) _ d hl rfl
        (hps p List.mem_cons_self))
    have hl₁ : (view s₁.host).links name =
        some { l with device := some (d.withAllowed p.publicKey p.allowed) } := by
      rw [hview₁, ToolState.links_withLink]
    -- A reset leaves all peers where they are, so the rest of them can still be found.
    obtain ⟨s₂, hruns, hview₂, htool₂⟩ := ih hl₁ fun q hq => by
      rw [← isSome_peerOf?, isSome_peerOf?_withAllowed, isSome_peerOf?]
      exact hps q (List.mem_cons_of_mem p hq)
    refine ⟨s₂, ?_, by rw [hview₂, hview₁, ToolState.withLink_withLink, List.foldl_cons],
      htool₂.trans htool₁⟩
    unfold List.forM
    rw [LinkM.run_bind, LinkM.run_bind, hrun]
    exact hruns

/-! ### Whole configurations -/

theorem DeviceSetup.mem_keys_added (setup : DeviceSetup) (name : String) (old : Option Device)
    {p : TunnelPeer} (hp : p ∈ setup.peers) :
    p.publicKey ∈ (setup.added name old).peers.map DevicePeer.publicKey := by
  apply isSome_peerOf?.mp
  apply isSome_peerOf?_foldl_putPeer.mpr
  right
  rw [List.map_map]
  exact List.mem_map_of_mem hp

/-- A configuration that keeps the other peers is added, and then the networks of those that replace theirs
are set. -/
theorem run_configureDevice_of_keeps (hs : h.Serves view) (htool : s.toolCheck ≠ some false)
    (hname : IsInterface name) (hl : (view s.host).links name = some l) {setup : DeviceSetup}
    (hr : setup.replacesPeers = false) :
    ∃ s', (HostLinks.configureDevice h name setup).run.run s = (.ok (), s') ∧
      (view s'.host).links = (view s.host).links.set name
        (some { l with device := some (setup.addedThenReset name l.device) }) := by
  obtain ⟨s', hrun, hlinks, -⟩ := run_configureDevice hs htool hname hl fun s₁ hfile hl₁ => by
    obtain ⟨text, s₂, hadd, hview₂, htool₂⟩ := run_of_edited
      (isPassable_apply hname.nul "addconf" (by decide) (HostLinks.configFile name setup))
      (hs.run _ _ _ s₁.host (Order.ofArguments?_addConfig name (HostLinks.configFile name setup)) _
        hfile (SetupText.contents?_text setup) l hl₁)
    have hl₂ : (view s₂.host).links name =
        some { l with device := some (setup.added name l.device) } := by
      rw [hview₂, ToolState.links_withLink]
      rfl
    have hpresent : ∀ p ∈ setup.peers.filter (·.replacesAllowed),
        p.publicKey ∈ (setup.added name l.device).peers.map DevicePeer.publicKey :=
      fun p hp => setup.mem_keys_added name l.device (List.mem_filter.mp hp).1
    obtain ⟨s₃, hresets, hview₃, htool₃⟩ := run_resets hs hname hl₂ hpresent
    refine ⟨s₃, ?_, by rw [hview₃, hview₂, ToolState.withLink_withLink], htool₃.trans htool₂⟩
    unfold HostLinks.applyFile HostLinks.applyCommand HostLinks.peersToReset
    rw [hr, if_neg Bool.false_ne_true, if_neg Bool.false_ne_true, LinkM.run_bind, hadd]
    exact hresets
  exact ⟨s', hrun, hlinks⟩

/-- A table answers at once. -/
theorem LinkTable.run_configureDevice {t : LinkTable} (hidle : t.pending .configureDevice = false)
    (hl : t.links name = some l) (setup : DeviceSetup) :
    ∃ t', (LinkTable.backend.perform (.configureDevice name setup)).run.run t = (.ok (), t') ∧
      t'.links = t.links.set name
        (some { l with device := some (.configured name l.device setup) }) := by
  exact ⟨_, LinkTable.run_configureDevice_of_some hidle hl setup, rfl⟩

/-! ### A peer that is listed twice -/

def repeatedKey : PublicKey :=
  ⟨List.replicate keySize 0, List.length_replicate⟩

def sampleEntry (replacesAllowed : Bool) (overlayAddress : BitVec 32) : TunnelPeer :=
  ⟨repeatedKey, .v4 0xC0A80102 51820, replacesAllowed, [.host (.v4 overlayAddress)]⟩

/-- The second entry adds a network to that of the first one. -/
def sampleSetup : DeviceSetup :=
  ⟨⟨List.replicate keySize 0, List.length_replicate⟩, 51820, false,
    [sampleEntry true 0x0A010205, sampleEntry false 0x0A010206]⟩

def sampleLink : LinkState :=
  { LinkState.new 1 with device := some (.unconfigured "wgoverlay") }

def sampleTable : LinkTable :=
  { LinkTable.empty with links := Links.set (fun _ => none) "wgoverlay" (some sampleLink), lastIndex := 1 }

def sampleHost : HostLinks ToolState :=
  ⟨⟨sampleTable.links, sampleTable.lastIndex, []⟩, none⟩

theorem links_sampleTable : sampleTable.links "wgoverlay" = some sampleLink :=
  rfl

theorem isInterface_sample : IsInterface "wgoverlay" :=
  Config.isInterface_of_check (c := Config.default) rfl (by decide : IsPassable "wgoverlay")

/-! ### Hosts and tables -/

variable {t : LinkTable} {setup : DeviceSetup}

/-- A host whose programs carry out their orders and a table configure the same link. Every key has the
same endpoint afterwards, and no network on the host that it does not have in the table. It has the same
networks exactly if no entry adds one after the last entry that replaces them. -/
theorem configureDevice_host_eq_table_iff (hs : h.Serves view) (htool : s.toolCheck ≠ some false)
    (hidle : t.pending .configureDevice = false) (hname : IsInterface name)
    (hlinks : (view s.host).links name = some l) (hl : t.links name = some l)
    (hr : setup.replacesPeers = false) :
    ∃ s' t' d e,
      ((HostLinks.backend h).perform (.configureDevice name setup)).run.run s = (.ok (), s') ∧
      (LinkTable.backend.perform (.configureDevice name setup)).run.run t = (.ok (), t') ∧
      (view s'.host).links = (view s.host).links.set name (some { l with device := some d }) ∧
      t'.links = t.links.set name (some { l with device := some e }) ∧
      ∀ key, (peerOf? d.peers key).map DevicePeer.endpoint =
          (peerOf? e.peers key).map DevicePeer.endpoint ∧
        allowedOf d.peers key ⊆ allowedOf e.peers key ∧
        (allowedOf e.peers key ⊆ allowedOf d.peers key ↔ AddsNothingAfterReset key setup.peers) := by
  obtain ⟨s', hrun, hlinks'⟩ := run_configureDevice_of_keeps hs htool hname hlinks hr
  obtain ⟨t', hrun', hl'⟩ := LinkTable.run_configureDevice hidle hl setup
  refine ⟨s', t', _, _, hrun, hrun', hlinks', hl', fun key => ⟨?_, ?_, ?_⟩⟩
  · exact endpoint_addedThenReset hr name l.device key
  · exact allowedOf_addedThenReset_subset hr name l.device key
  · exact subset_allowedOf_addedThenReset_iff hr name l.device key

theorem configureDevice_host_eq_table_sample :
    ∃ s' t' d e,
      ((HostLinks.backend simulatedHost).perform (.configureDevice "wgoverlay" sampleSetup)).run.run
        sampleHost = (.ok (), s') ∧
      (LinkTable.backend.perform (.configureDevice "wgoverlay" sampleSetup)).run.run sampleTable =
        (.ok (), t') ∧
      s'.host.links = sampleHost.host.links.set "wgoverlay" (some { sampleLink with device := some d }) ∧
      t'.links = sampleTable.links.set "wgoverlay" (some { sampleLink with device := some e }) ∧
      ∀ key, (peerOf? d.peers key).map DevicePeer.endpoint =
          (peerOf? e.peers key).map DevicePeer.endpoint ∧
        allowedOf d.peers key ⊆ allowedOf e.peers key ∧
        (allowedOf e.peers key ⊆ allowedOf d.peers key ↔
          AddsNothingAfterReset key sampleSetup.peers) :=
  configureDevice_host_eq_table_iff simulatedHost_serves nofun rfl isInterface_sample
    links_sampleTable links_sampleTable rfl

/-- The host has lost the network of the second entry. -/
theorem not_configureDevice_host_eq_table :
    ¬ ∀ (τ : Type) (h : Host τ) (view : τ → ToolState) (s s' : HostLinks τ) (t t' : LinkTable)
      (name : String) (l : LinkState) (old d e : Device) (setup : DeviceSetup), h.Serves view →
      s.toolCheck ≠ some false → t.pending .configureDevice = false → IsInterface name →
      (view s.host).links name = some l → t.links name = some l → l.device = some old →
      (old.peers.map DevicePeer.publicKey).Nodup → setup.replacesPeers = false →
      ((HostLinks.backend h).perform (.configureDevice name setup)).run.run s = (.ok (), s') →
      (LinkTable.backend.perform (.configureDevice name setup)).run.run t = (.ok (), t') →
      (view s'.host).links name = some { l with device := some d } →
      t'.links name = some { l with device := some e } →
      ∀ key, (peerOf? d.peers key).map DevicePeer.endpoint =
          (peerOf? e.peers key).map DevicePeer.endpoint ∧
        ∀ n, n ∈ allowedOf d.peers key ↔ n ∈ allowedOf e.peers key := by
  intro hall
  obtain ⟨s', hrun, hlinks⟩ := run_configureDevice_of_keeps simulatedHost_serves
    (s := sampleHost) nofun isInterface_sample links_sampleTable
    (rfl : sampleSetup.replacesPeers = false)
  obtain ⟨t', hrun', hlinks'⟩ := LinkTable.run_configureDevice rfl links_sampleTable sampleSetup
  have hagree := hall _ _ _ sampleHost s' sampleTable t' "wgoverlay" sampleLink (.unconfigured "wgoverlay") _ _
    sampleSetup simulatedHost_serves nofun rfl isInterface_sample links_sampleTable links_sampleTable rfl
    List.nodup_nil rfl hrun hrun' (by rw [hlinks, Links.set_self]) (by rw [hlinks', Links.set_self])
    repeatedKey
  have hlast : LastReset repeatedKey sampleSetup.peers (sampleEntry true 0x0A010205)
      [sampleEntry false 0x0A010206] :=
    ⟨⟨[], rfl⟩, rfl, rfl, by simp [NoneResets, sampleEntry]⟩
  have hgranted : IsGranted repeatedKey [sampleEntry false 0x0A010206] (.host (.v4 0x0A010206)) :=
    ⟨_, List.mem_singleton_self _, rfl, List.mem_singleton_self _⟩
  have hsubset := (subset_allowedOf_addedThenReset_iff rfl "wgoverlay" sampleLink.device repeatedKey).mp
    fun n hn => (hagree.2 n).mpr hn
  have hin := hsubset _ _ hlast _ hgranted
  exact absurd hin (by decide)

end OverlayTunnel
