import OverlayTunnel.Proofs.Host.Arguments
import OverlayTunnel.Proofs.Host.Running
import OverlayTunnel.Proofs.Table.Reachable

/-!
A host whose programs carry out their orders, next to a table with the same links. What the table grants
the host grants too, with the same reply, and both have the same links again.
-/
namespace OverlayTunnel

/-! ### Hosts and tables with the same links -/

/-- The device of a link has the name of the link. -/
def LinkState.IsNamed (name : String) (l : LinkState) : Prop :=
  ∀ d, l.device = some d → d.name = name

theorem LinkState.isNamed_new (name : String) (index : UInt32) : (new index).IsNamed name :=
  nofun

theorem LinkState.isNamed_of_change (name : String) (l l' : LinkState) (h : l.IsNamed name)
    (hc : LinkState.Change name l l') : l'.IsNamed name := by
  cases hc with
  | configured setup =>
    rintro d ⟨⟩
    rfl
  | _ => exact h

theorem LinkTable.keeps_named : LinkTable.backend.Keeps (LinkTable.AllLinks LinkState.IsNamed) :=
  LinkTable.keeps_allLinks LinkState.isNamed_new LinkState.isNamed_of_change

theorem LinkTable.Reachable.named {t : LinkTable} (ht : t.Reachable) :
    t.AllLinks LinkState.IsNamed :=
  LinkTable.Reachable.allLinks LinkState.isNamed_new LinkState.isNamed_of_change ht

variable {τ : Type}

/-- A host has the links of a table, none of whose operations is to fail. The configuration tool has not
been missed yet. -/
structure Mirrors (view : τ → ToolState) (s : HostLinks τ) (t : LinkTable) : Prop where
  links : (view s.host).links = t.links
  lastIndex : (view s.host).lastIndex = t.lastIndex
  tool : s.toolCheck ≠ some false
  idle : ∀ operation, t.pending operation = false
  named : t.AllLinks LinkState.IsNamed

variable {view : τ → ToolState} {s s' : HostLinks τ} {t : LinkTable}

/-- The table after a request that it grants or refuses. -/
def LinkTable.performed (t : LinkTable) (q : LinkRequest) : LinkTable :=
  ((LinkTable.backend.perform q).run.run t).2

theorem Mirrors.performed (hm : Mirrors view s t) (q : LinkRequest)
    (hlinks : (view s'.host).links = (t.performed q).links)
    (hindex : (view s'.host).lastIndex = (t.performed q).lastIndex)
    (htool : s'.toolCheck ≠ some false) : Mirrors view s' (t.performed q) where
  links := hlinks
  lastIndex := hindex
  tool := htool
  idle operation := LinkTable.keeps_not_pending operation q t (hm.idle operation)
  named := LinkTable.keeps_named q t hm.named

/-! ### What a table answers -/

theorem Mirrors.run_of_ok (hm : Mirrors view s t) (q : LinkRequest) {reply : q.Reply}
    {link : Option LinkState}
    (he : q.effect (t.lastIndex + 1) (t.links q.target) = .ok (reply, link)) :
    (LinkTable.backend.perform q).run.run t = (.ok reply, t.performed q) ∧
      (t.performed q).links = t.links.set q.target link ∧
      (t.performed q).lastIndex =
        if q.operation = .createWireguard then t.lastIndex + 1 else t.lastIndex := by
  have hrun := LinkTable.run_perform_eq (hm.idle q.operation)
  rw [he] at hrun
  unfold LinkTable.performed
  rw [hrun]
  exact ⟨rfl, rfl, rfl⟩

theorem Mirrors.run_of_error (hm : Mirrors view s t) (q : LinkRequest) {e : LinkFailure}
    (he : q.effect (t.lastIndex + 1) (t.links q.target) = .error e) :
    (LinkTable.backend.perform q).run.run t = (.error e, t.performed q) ∧
      (t.performed q).links = t.links ∧ (t.performed q).lastIndex = t.lastIndex := by
  have hrun := LinkTable.run_perform_eq (hm.idle q.operation)
  rw [he] at hrun
  unfold LinkTable.performed
  rw [hrun]
  exact ⟨rfl, rfl, rfl⟩

/-! ### Requests that are granted -/

variable {h : Host τ}

/-- Host and table grant a request with the same reply and leave its link like this, and both have the
same links afterwards. -/
def BothGrant (h : Host τ) (view : τ → ToolState) (q : LinkRequest) (s : HostLinks τ) (t : LinkTable)
    (reply : q.Reply) (link : Option LinkState) : Prop :=
  q.effect (t.lastIndex + 1) (t.links q.target) = .ok (reply, link) ∧
    ∃ s', ((HostLinks.backend h).perform q).run.run s = (.ok reply, s') ∧
      Mirrors view s' (t.performed q)

/-- Host and table refuse a request for the same reason, and keep their links. -/
def BothRefuse (h : Host τ) (view : τ → ToolState) (q : LinkRequest) (s : HostLinks τ) (t : LinkTable)
    (reason : LinkFailure → Bool) : Prop :=
  ∃ e, q.effect (t.lastIndex + 1) (t.links q.target) = .error e ∧ reason e = true ∧
    ∃ e' s', ((HostLinks.backend h).perform q).run.run s = (.error e', s') ∧ reason e' = true ∧
      Mirrors view s' (t.performed q)

theorem run_ip_of_succeeds {arguments : List String} (hpass : ∀ a ∈ arguments, IsPassable a)
    (ho : ((h.run ⟨.ip, HostLinks.texts arguments⟩).run s.host).1.Succeeds) :
    (HostLinks.ip h arguments).run.run s =
      (.ok (), HostLinks.afterRun h .ip (HostLinks.texts arguments) s) := by
  obtain ⟨text, hrun⟩ := HostLinks.run_of_succeeds (isPassable_texts .ip hpass) ho
  rw [HostLinks.run_ip, hrun]
  rfl

theorem Mirrors.edited (hm : Mirrors view s t) (q : LinkRequest) {reply : q.Reply}
    {link : Option LinkState}
    (he : q.effect (t.lastIndex + 1) (t.links q.target) = .ok (reply, link))
    (hq : q.operation ≠ .createWireguard)
    (hlinks : (view s'.host).links = (view s.host).links.set q.target link)
    (hindex : (view s'.host).lastIndex = (view s.host).lastIndex) (htool : s'.toolCheck ≠ some false) :
    Mirrors view s' (t.performed q) := by
  obtain ⟨-, hl, hi⟩ := hm.run_of_ok q he
  apply hm.performed q
  · rw [hlinks, hl, hm.links]
  · rw [hindex, hi, if_neg hq, hm.lastIndex]
  · exact htool

/-- A link is created if there is none of its name. -/
theorem bothGrant_create (hs : h.Serves view) (hm : Mirrors view s t) {name : String}
    (hname : IsInterface name) (hl : t.links name = none) :
    BothGrant h view (.createWireguard name) s t () (some (.new (t.lastIndex + 1))) := by
  have hanswer := hs.run _ _ _ s.host (Order.ofArguments?_add name)
  simp only [Order.Answers, hm.links, hl] at hanswer
  obtain ⟨ho, hview⟩ := hanswer
  have he : (LinkRequest.createWireguard name).effect (t.lastIndex + 1) (t.links name) =
      .ok ((), some (.new (t.lastIndex + 1))) := by
    rw [hl]
    rfl
  obtain ⟨-, hlinks, hindex⟩ := hm.run_of_ok (.createWireguard name) he
  refine ⟨he, _, run_ip_of_succeeds (isPassable_add hname.nul) ho, hm.performed _ ?_ ?_ hm.tool⟩
  · rw [hlinks]
    unfold HostLinks.afterRun
    rw [hview, ← hm.links, hm.lastIndex]
    rfl
  · rw [hindex]
    unfold HostLinks.afterRun
    rw [hview, hm.lastIndex]
    rfl

/-- A request that is one order to change a link that is there. -/
theorem bothGrant_edit (hs : h.Serves view) (hm : Mirrors view s t) (q : LinkRequest)
    (edit : LinkState → Option LinkState) {reply : q.Reply} {arguments : List String} {order : Order}
    {l : LinkState}
    (hperform : ∀ s', (HostLinks.ip h arguments).run.run s = (.ok (), s') →
      ((HostLinks.backend h).perform q).run.run s = (.ok reply, s'))
    (horder : Order.ofArguments? .ip (HostLinks.texts arguments) = some order)
    (hedits : order.Answers = Edits q.target edit) (hpass : ∀ a ∈ arguments, IsPassable a)
    (hq : q.operation ≠ .createWireguard) (hl : t.links q.target = some l)
    (he : ∀ fresh, q.effect fresh (some l) = .ok (reply, edit l)) :
    BothGrant h view q s t reply (edit l) := by
  have hanswer := hs.run _ _ _ s.host horder
  rw [hedits] at hanswer
  obtain ⟨ho, hview⟩ := hanswer l (by rw [hm.links, hl])
  have he' : q.effect (t.lastIndex + 1) (t.links q.target) = .ok (reply, edit l) := by rw [hl, he]
  refine ⟨he', _, hperform _ (run_ip_of_succeeds hpass ho), hm.edited q he' hq ?_ ?_ hm.tool⟩
  · unfold HostLinks.afterRun
    rw [hview]
    rfl
  · unfold HostLinks.afterRun
    rw [hview]
    rfl

section Held

variable {handle : LinkHandle} {l : LinkState}

theorem bothGrant_replaceAddress (hs : h.Serves view) (hm : Mirrors view s t)
    (hname : IsInterface handle.name) (hl : t.links handle.name = some l)
    (hi : l.index = handle.index) (address : Network) :
    BothGrant h view (.replaceAddress handle address) s t () (some (l.addressed address)) := by
  refine bothGrant_edit hs hm (.replaceAddress handle address) (fun l => some (l.addressed address))
    (fun _ hrun => hrun) (Order.ofArguments?_replaceAddress handle.name address) rfl ?_ nofun hl ?_
  · exact isPassable_replaceAddress hname.nul address
  · intro fresh
    simp [LinkRequest.effect, LinkState.held, hi, Except.map]

theorem bothGrant_setMtu (hs : h.Serves view) (hm : Mirrors view s t)
    (hname : IsInterface handle.name) (hl : t.links handle.name = some l)
    (hi : l.index = handle.index) (mtu : UInt32) :
    BothGrant h view (.setMtu handle mtu) s t () (some { l with mtu }) := by
  refine bothGrant_edit hs hm (.setMtu handle mtu) (fun l => some { l with mtu })
    (fun _ hrun => hrun) (Order.ofArguments?_setMtu handle.name mtu) rfl ?_ nofun hl ?_
  · exact isPassable_setMtu hname.nul mtu
  · intro fresh
    simp [LinkRequest.effect, LinkState.held, hi, Except.map]

theorem bothGrant_setUp (hs : h.Serves view) (hm : Mirrors view s t)
    (hname : IsInterface handle.name) (hl : t.links handle.name = some l)
    (hi : l.index = handle.index) :
    BothGrant h view (.setUp handle) s t () (some { l with up := true }) := by
  refine bothGrant_edit hs hm (.setUp handle) (fun l => some { l with up := true })
    (fun _ hrun => hrun) (Order.ofArguments?_setUp handle.name) rfl ?_ nofun hl ?_
  · exact isPassable_setUp hname.nul
  · intro fresh
    simp [LinkRequest.effect, LinkState.held, hi, Except.map]

theorem bothGrant_deleteLink (hs : h.Serves view) (hm : Mirrors view s t)
    (hname : IsInterface handle.name) (hl : t.links handle.name = some l)
    (hi : l.index = handle.index) : BothGrant h view (.deleteLink handle) s t () none := by
  refine bothGrant_edit hs hm (.deleteLink handle) (fun _ => none) (fun _ hrun => hrun)
    (Order.ofArguments?_delete handle.name) rfl ?_ nofun hl ?_
  · exact isPassable_delete hname.nul
  · intro fresh
    simp [LinkRequest.effect, LinkState.held, hi, Except.map]

/-- A route through an up link is added if it is not there yet. -/
theorem bothGrant_addRoute (hs : h.Serves view) (hm : Mirrors view s t)
    (hname : IsInterface handle.name) (hl : t.links handle.name = some l)
    (hi : l.index = handle.index) (hup : l.up = true) {destination : Network}
    (hd : destination ∉ l.routes) :
    BothGrant h view (.addRoute handle destination) s t ()
      (some { l with routes := l.routes ++ [destination] }) := by
  have hanswer := hs.run _ _ _ s.host (Order.ofArguments?_addRoute handle.name destination) l
    (by rw [hm.links, hl]) hup
  rw [if_neg hd] at hanswer
  obtain ⟨ho, hview⟩ := hanswer
  have he : (LinkRequest.addRoute handle destination).effect (t.lastIndex + 1)
      (t.links handle.name) = .ok ((), some { l with routes := l.routes ++ [destination] }) := by
    simp [LinkRequest.effect, LinkState.held, LinkState.routed, hl, hi, hup, hd, Except.map, Except.bind]
  have hq : (LinkRequest.addRoute handle destination).operation ≠ .createWireguard := by
    simp [LinkRequest.operation]
  refine ⟨he, _, run_ip_of_succeeds (isPassable_addRoute hname.nul destination) ho,
    hm.edited (.addRoute handle destination) he hq ?_ ?_ hm.tool⟩
  · unfold HostLinks.afterRun
    rw [hview]
    rfl
  · unfold HostLinks.afterRun
    rw [hview]
    rfl

end Held

/-! ### Requests that are refused -/

theorem run_ip_of_fails {arguments : List String} (hpass : ∀ a ∈ arguments, IsPassable a)
    {message : String} (ho : ((h.run ⟨.ip, HostLinks.texts arguments⟩).run s.host).1.Fails message) :
    ∃ ending, (∀ c ∈ ending, Text.isBlank c = true) ∧ (HostLinks.ip h arguments).run.run s =
      (.error (HostLinks.failureOf ⟨.ip, HostLinks.texts arguments⟩
        (Utf8.encode (message.toList ++ ending))),
        HostLinks.afterRun h .ip (HostLinks.texts arguments) s) := by
  obtain ⟨ending, hending, hrun⟩ := HostLinks.run_of_fails (isPassable_texts .ip hpass) ho
  refine ⟨ending, hending, ?_⟩
  rw [HostLinks.run_ip, hrun]
  rfl

theorem Mirrors.refused (hm : Mirrors view s t) (q : LinkRequest) {e : LinkFailure}
    (he : q.effect (t.lastIndex + 1) (t.links q.target) = .error e)
    (hview : view s'.host = view s.host) (htool : s'.toolCheck ≠ some false) :
    Mirrors view s' (t.performed q) := by
  obtain ⟨-, hl, hi⟩ := hm.run_of_error q he
  apply hm.performed q
  · rw [hview, hl, hm.links]
  · rw [hview, hi, hm.lastIndex]
  · exact htool

/-- A request that is one order for something that is there already. -/
theorem bothRefuse_exists (hm : Mirrors view s t) (q : LinkRequest) (what : String)
    {arguments : List String}
    (hperform : ∀ e s', (HostLinks.ip h arguments).run.run s = (.error e, s') →
      ((HostLinks.backend h).perform q).run.run s = (.error e, s'))
    (hpass : ∀ a ∈ arguments, IsPassable a)
    (ho : ((h.run ⟨.ip, HostLinks.texts arguments⟩).run s.host).1.Fails fileExists)
    (hview : view ((h.run ⟨.ip, HostLinks.texts arguments⟩).run s.host).2 = view s.host)
    (he : q.effect (t.lastIndex + 1) (t.links q.target) = .error (.alreadyExists what)) :
    BothRefuse h view q s t LinkFailure.isAlreadyExists := by
  obtain ⟨ending, hending, hrun⟩ := run_ip_of_fails hpass ho
  rw [HostLinks.failureOf_fileExists _ hending] at hrun
  exact ⟨_, he, rfl, _, _, hperform _ _ hrun, rfl, hm.refused q he hview hm.tool⟩

theorem bothRefuse_create (hs : h.Serves view) (hm : Mirrors view s t) {name : String}
    (hname : IsInterface name) {l : LinkState} (hl : t.links name = some l) :
    BothRefuse h view (.createWireguard name) s t LinkFailure.isAlreadyExists := by
  have hanswer := hs.run _ _ _ s.host (Order.ofArguments?_add name)
  simp only [Order.Answers, hm.links, hl] at hanswer
  obtain ⟨ho, hview⟩ := hanswer
  refine bothRefuse_exists hm (.createWireguard name) ("link " ++ name) (fun _ _ hrun => hrun) ?_ ho
    hview ?_
  · exact isPassable_add hname.nul
  · rw [LinkRequest.target, hl]
    rfl

theorem bothRefuse_addRoute (hs : h.Serves view) (hm : Mirrors view s t) {handle : LinkHandle}
    {l : LinkState} (hname : IsInterface handle.name) (hl : t.links handle.name = some l)
    (hi : l.index = handle.index) (hup : l.up = true) {destination : Network}
    (hd : destination ∈ l.routes) :
    BothRefuse h view (.addRoute handle destination) s t LinkFailure.isAlreadyExists := by
  have hanswer := hs.run _ _ _ s.host (Order.ofArguments?_addRoute handle.name destination) l
    (by rw [hm.links, hl]) hup
  rw [if_pos hd] at hanswer
  obtain ⟨ho, hview⟩ := hanswer
  refine bothRefuse_exists hm (.addRoute handle destination) ("route " ++ destination.text)
    (fun _ _ hrun => hrun) (isPassable_addRoute hname.nul destination) ho hview ?_
  simp [LinkRequest.effect, LinkRequest.target, LinkState.held, LinkState.routed, hl, hi, hup, hd,
    Except.map, Except.bind]

/-! ### Links and devices that are looked up -/

theorem run_linkByName_of_some (hs : h.Serves view) {name : String} (hname : IsInterface name)
    {l : LinkState} (hl : (view s.host).links name = some l) :
    ∃ s', (HostLinks.linkByName h name).run.run s = (.ok ⟨name, l.index⟩, s') ∧
      view s'.host = view s.host ∧ s'.toolCheck = s.toolCheck := by
  have hanswer := hs.run _ _ _ s.host (Order.ofArguments?_describe name)
  simp only [Order.Answers, hl] at hanswer
  obtain ⟨hview, more, ho⟩ := hanswer
  have hrun := HostLinks.run_of_prints (isPassable_texts .ip (isPassable_describe hname.nul)) ho
  refine ⟨HostLinks.afterRun h .ip (HostLinks.texts ["-o", "link", "show", "dev", name]) s, ?_,
    hview, rfl⟩
  unfold HostLinks.linkByName
  rw [LinkM.run_bind, hrun]
  dsimp only
  rw [String.toList_ofList, HostLinks.indexOf?_append]
  rfl

theorem run_linkByName_of_none (hs : h.Serves view) {name : String} (hname : IsInterface name)
    (hl : (view s.host).links name = none) :
    ∃ s', (HostLinks.linkByName h name).run.run s = (.error (.notFound (doesNotExist name)), s') ∧
      view s'.host = view s.host ∧ s'.toolCheck = s.toolCheck := by
  have hanswer := hs.run _ _ _ s.host (Order.ofArguments?_describe name)
  simp only [Order.Answers, hl] at hanswer
  obtain ⟨hview, ho⟩ := hanswer
  obtain ⟨ending, hending, hrun⟩ :=
    HostLinks.run_of_fails (isPassable_texts .ip (isPassable_describe hname.nul)) ho
  rw [HostLinks.failureOf_doesNotExist _ hname.not_mem_blank hending] at hrun
  refine ⟨HostLinks.afterRun h .ip (HostLinks.texts ["-o", "link", "show", "dev", name]) s, ?_,
    hview, rfl⟩
  unfold HostLinks.linkByName
  rw [LinkM.run_bind, hrun]

theorem bothGrant_linkByName (hs : h.Serves view) (hm : Mirrors view s t) {name : String}
    (hname : IsInterface name) {l : LinkState} (hl : t.links name = some l) :
    BothGrant h view (.linkByName name) s t ⟨name, l.index⟩ (some l) := by
  have hl' : (view s.host).links name = some l := by rw [hm.links, hl]
  obtain ⟨s', hrun, hview, htool⟩ := run_linkByName_of_some hs hname hl'
  have he : (LinkRequest.linkByName name).effect (t.lastIndex + 1) (t.links name) =
      .ok (⟨name, l.index⟩, some l) := by
    rw [hl]
    rfl
  refine ⟨he, s', hrun, hm.edited (.linkByName name) he nofun ?_ ?_ ?_⟩
  · rw [hview, ← hl', LinkRequest.target, Links.set_get]
  · rw [hview]
  · rw [htool]
    exact hm.tool

end OverlayTunnel
