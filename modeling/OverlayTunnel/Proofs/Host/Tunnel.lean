import OverlayTunnel.Proofs.Host.Mirror

/-!
Tunnel devices of a host next to those of a table: what a dump shows, and what a configuration file does.
-/
namespace OverlayTunnel

variable {τ : Type} {h : Host τ} {view : τ → ToolState} {s : HostLinks τ} {t : LinkTable}

/-- The configuration tool is there: it was found before, or it is found now. -/
theorem run_requireTool (hs : h.Serves view) (htool : s.toolCheck ≠ some false) :
    ∃ s', (HostLinks.requireTool h).run.run s = (.ok (), s') ∧ view s'.host = view s.host ∧
      s'.toolCheck = some true := by
  cases hc : s.toolCheck with
  | some answer =>
    cases answer with
    | false => exact absurd hc htool
    | true =>
      exact ⟨s, HostLinks.run_requireTool_of_hasTool (HostLinks.run_hasTool_of_some hc), rfl, hc⟩
  | none =>
    obtain ⟨⟨stdout, stderr, ho⟩, hview⟩ := hs.run _ _ _ s.host Order.ofArguments?_probe
    exact ⟨_, HostLinks.run_requireTool_of_hasTool (HostLinks.run_hasTool_of_none hc ho), hview, rfl⟩

/-- The dump of a link that is there is read back. -/
theorem run_device (hs : h.Serves view) (htool : s.toolCheck ≠ some false) {name : String}
    (hname : IsInterface name) {l : LinkState} (hl : (view s.host).links name = some l)
    (hnamed : l.IsNamed name) :
    ∃ s', (HostLinks.device h name).run.run s = (.ok (l.device.getD (.unconfigured name)), s') ∧
      view s'.host = view s.host ∧ s'.toolCheck = some true := by
  obtain ⟨s₁, hlink, hview₁, htool₁⟩ := run_linkByName_of_some hs hname hl
  obtain ⟨s₂, hrequire, hview₂, htool₂⟩ := run_requireTool hs (htool₁ ▸ htool)
  obtain ⟨hview₃, text, ho, hdump⟩ :=
    hs.run _ _ _ s₂.host (Order.ofArguments?_dump name) l (by rw [hview₂, hview₁, hl])
  have hpass : ∀ a ∈ ["show", name, "dump"], IsPassable a := by
    simp only [List.forall_mem_cons]
    exact ⟨by decide, hname.nul, by decide, by simp⟩
  have hshow := HostLinks.run_of_prints (isPassable_texts .wg hpass) ho
  have hdevice : (l.device.getD (.unconfigured name)).name = name := by
    cases hd : l.device with
    | none => rfl
    | some d => exact hnamed d hd
  have hread := Dump.ofDump_eq_ok hdump
  rw [hdevice] at hread
  refine ⟨HostLinks.afterRun h .wg (HostLinks.texts ["show", name, "dump"]) s₂, ?_,
    hview₃.trans (hview₂.trans hview₁), htool₂⟩
  unfold HostLinks.device
  rw [LinkM.run_bind, hlink]
  dsimp only
  rw [LinkM.run_bind, hrequire]
  dsimp only
  rw [LinkM.run_bind, hshow]
  dsimp only
  rw [hread]
  rfl

theorem bothGrant_device (hs : h.Serves view) (hm : Mirrors view s t) {name : String}
    (hname : IsInterface name) {l : LinkState} (hl : t.links name = some l) :
    BothGrant h view (.device name) s t (l.device.getD (.unconfigured name)) (some l) := by
  obtain ⟨s', hrun, hview, htool⟩ :=
    run_device hs hm.tool hname (by rw [hm.links, hl]) (hm.named name l hl)
  have he : (LinkRequest.device name).effect (t.lastIndex + 1) (t.links name) =
      .ok (l.device.getD (.unconfigured name), some l) := by
    rw [hl]
    rfl
  refine ⟨he, s', hrun, hm.edited (.device name) he nofun ?_ (by rw [hview]) ?_⟩
  · rw [hview, ← hl, ← hm.links, LinkRequest.target, Links.set_get]
  · exact fun hc => absurd (htool.symm.trans hc) (by decide)

/-- An absent link is reported before the tool is looked for. -/
theorem bothRefuse_device (hs : h.Serves view) (hm : Mirrors view s t) {name : String}
    (hname : IsInterface name) (hl : t.links name = none) :
    BothRefuse h view (.device name) s t LinkFailure.isNotFound := by
  obtain ⟨s', hlink, hview, htool⟩ := run_linkByName_of_none hs hname (by rw [hm.links, hl])
  have hrun : (HostLinks.device h name).run.run s = (.error (.notFound (doesNotExist name)), s') := by
    unfold HostLinks.device
    rw [LinkM.run_bind, hlink]
  have he : (LinkRequest.device name).effect (t.lastIndex + 1) (t.links name) =
      .error (.notFound ("Cannot find device \"" ++ name ++ "\"")) := by
    rw [hl]
    rfl
  exact ⟨_, he, rfl, _, s', hrun, rfl, hm.refused (.device name) he hview (htool ▸ hm.tool)⟩

/-! ### Devices that are configured -/

/-- A program that succeeds and leaves its link like this. -/
theorem run_of_edited {program : Program} {arguments : List Argument} {name : String}
    {link : Option LinkState} (hpass : (Invocation.mk program arguments).isPassable = true)
    (hanswer : ((h.run ⟨program, arguments⟩).run s.host).1.Succeeds ∧
      view ((h.run ⟨program, arguments⟩).run s.host).2 = (view s.host).withLink name link) :
    ∃ text s', (HostLinks.run h program arguments).run.run s = (.ok text, s') ∧
      view s'.host = (view s.host).withLink name link ∧ s'.toolCheck = s.toolCheck := by
  obtain ⟨text, hrun⟩ := HostLinks.run_of_succeeds hpass hanswer.1
  exact ⟨text, _, hrun, hanswer.2, rfl⟩

/-- The file is there when it is applied, and is removed afterwards. What becomes of the link is what
applying the file makes of it. -/
theorem run_configureDevice (hs : h.Serves view) (htool : s.toolCheck ≠ some false) {name : String}
    (hname : IsInterface name) {setup : DeviceSetup} {l : LinkState} {link : Option LinkState}
    (hl : (view s.host).links name = some l)
    (happly : ∀ s₁, HostLinks.configFile name setup ∈ (view s₁.host).files →
      (view s₁.host).links name = some l →
      ∃ s₂, (HostLinks.applyFile h name setup).run.run s₁ = (.ok (), s₂) ∧
        view s₂.host = (view s₁.host).withLink name link ∧ s₂.toolCheck = s₁.toolCheck) :
    ∃ s', (HostLinks.configureDevice h name setup).run.run s = (.ok (), s') ∧
      (view s'.host).links = (view s.host).links.set name link ∧
      (view s'.host).lastIndex = (view s.host).lastIndex ∧ s'.toolCheck = some true := by
  obtain ⟨s₀, hrequire, hview₀, htool₀⟩ := run_requireTool hs htool
  obtain ⟨hwrite, files, hfile, hview₁⟩ :=
    hs.write _ s₀.host (hname.refusal?_eq_none setup)
  have hhost : (HostLinks.onHost (h.writeFile (HostLinks.configFile name setup)) :
      LinkM (HostLinks τ) (Except String Unit)).run.run s₀ = (.ok (.ok ()),
        { s₀ with host := ((h.writeFile (HostLinks.configFile name setup)).run s₀.host).2 }) := by
    rw [← hwrite]
    rfl
  obtain ⟨s₂, hrun, hview₂, htool₂⟩ := happly
    { s₀ with host := ((h.writeFile (HostLinks.configFile name setup)).run s₀.host).2 }
    (by rw [hview₁]; exact hfile) (by rw [hview₁, hview₀, hl])
  obtain ⟨files', hview₃⟩ := hs.remove (HostLinks.configFile name setup) s₂.host
  refine ⟨{ s₂ with host := ((h.removeFile (HostLinks.configFile name setup)).run s₂.host).2 },
    ?_, ?_, ?_, htool₂.trans htool₀⟩
  · unfold HostLinks.configureDevice
    rw [LinkM.run_bind, hrequire]
    dsimp only
    rw [LinkM.run_bind, hhost]
    dsimp only
    rw [HostLinks.run_andThen, hrun]
  · dsimp only
    rw [hview₃, hview₂, hview₁, hview₀]
    rfl
  · dsimp only
    rw [hview₃, hview₂, hview₁, hview₀]
    rfl

/-- A configuration that drops all other peers, as reconcilers have them. -/
theorem bothGrant_configureDevice (hs : h.Serves view) (hm : Mirrors view s t) {name : String}
    (hname : IsInterface name) {l : LinkState} (hl : t.links name = some l) {setup : DeviceSetup}
    (hr : setup.replacesPeers = true)
    (hps : ∀ p ∈ setup.peers, p.replacesAllowed = true ∧ p.allowed.Nodup) :
    BothGrant h view (.configureDevice name setup) s t ()
      (some { l with device := some (.configured name l.device setup) }) := by
  obtain ⟨s', hrun, hlinks, hindex, htool⟩ := run_configureDevice hs hm.tool hname
    (by rw [hm.links, hl]) fun s₁ hfile hl₁ => by
      obtain ⟨text, s₂, hset, hview, htool⟩ := run_of_edited
        (isPassable_apply hname.nul "setconf" (by decide) (HostLinks.configFile name setup))
        (hs.run _ _ _ s₁.host (Order.ofArguments?_setConfig name (HostLinks.configFile name setup)) _
          hfile (SetupText.contents?_text setup) l hl₁)
      refine ⟨s₂, ?_, hview, htool⟩
      unfold HostLinks.applyFile HostLinks.applyCommand HostLinks.peersToReset
      rw [if_pos hr, if_pos hr, LinkM.run_bind, hset]
      rfl
  rw [SetupText.replaced_eq_configured hr hps name l.device] at hlinks
  have he : (LinkRequest.configureDevice name setup).effect (t.lastIndex + 1) (t.links name) =
      .ok ((), some { l with device := some (.configured name l.device setup) }) := by
    rw [hl]
    rfl
  refine ⟨he, s', hrun, hm.edited (.configureDevice name setup) he nofun hlinks hindex ?_⟩
  exact fun hc => absurd (htool.symm.trans hc) (by decide)

end OverlayTunnel
