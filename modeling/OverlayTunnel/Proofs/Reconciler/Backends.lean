import OverlayTunnel.Proofs.Host.Simulated
import OverlayTunnel.Proofs.Host.Tunnel
import OverlayTunnel.Proofs.Reconciler.Setup

/-!
Calls of reconcilers over a host and over a table with the same links. They have the same results, since
the requests of a call are such that a table with no failure pending grants them or refuses them for a
reason that the call puts up with.
-/
namespace OverlayTunnel

namespace Reconciler

variable {τ α β : Type} {h : Host τ} {view : τ → ToolState}

/-! ### Actions with the same result -/

/-- From tables with `Pre`, an action over the host and one over the table have the same result and leave
the same links, and where they succeed the table has `Post`. -/
def Agree (view : τ → ToolState) (Pre : LinkTable → Prop) (x : Action (HostLinks τ) α)
    (y : Action LinkTable α) (Post : α → LinkTable → Prop) : Prop :=
  ∀ s t, Mirrors view s t → Pre t →
    ∃ result s' t', x.run.run s = (result, s') ∧ y.run.run t = (result, t') ∧ Mirrors view s' t' ∧
      ∀ a, result = .ok a → Post a t'

variable {Pre : LinkTable → Prop}

theorem Agree.pure (result : Except Failure α) :
    Agree view Pre (ExceptT.mk (Pure.pure result)) (ExceptT.mk (Pure.pure result))
      fun a t => result = .ok a ∧ Pre t := by
  intro s t hm ht
  exact ⟨result, s, t, rfl, rfl, hm, fun a ha => ⟨ha, ht⟩⟩

theorem Agree.bind {x : Action (HostLinks τ) α} {y : Action LinkTable α}
    {f : α → Action (HostLinks τ) β} {g : α → Action LinkTable β} {Mid : α → LinkTable → Prop}
    {Post : β → LinkTable → Prop} (hx : Agree view Pre x y Mid)
    (hf : ∀ a, Agree view (Mid a) (f a) (g a) Post) : Agree view Pre (x >>= f) (y >>= g) Post := by
  intro s t hm ht
  obtain ⟨result, s', t', hrun, hrun', hm', hmid⟩ := hx s t hm ht
  rw [Action.run_bind, Action.run_bind, hrun, hrun']
  cases result with
  | error e => exact ⟨.error e, s', t', rfl, rfl, hm', nofun⟩
  | ok a => exact hf a s' t' hm' (hmid a rfl)

theorem Agree.post {x : Action (HostLinks τ) α} {y : Action LinkTable α}
    {Post Post' : α → LinkTable → Prop} (hx : Agree view Pre x y Post)
    (hpost : ∀ a t, Post a t → Post' a t) : Agree view Pre x y Post' := by
  intro s t hm ht
  obtain ⟨result, s', t', hrun, hrun', hm', ha⟩ := hx s t hm ht
  exact ⟨result, s', t', hrun, hrun', hm', fun a h => hpost a t' (ha a h)⟩

/-- What every step leaves true holds after a sequence of steps. -/
theorem Agree.forM {ι : Type} {f : ι → Action (HostLinks τ) Unit} {g : ι → Action LinkTable Unit}
    (hf : ∀ i, Agree view Pre (f i) (g i) fun _ => Pre) (is : List ι) :
    Agree view Pre (is.forM f) (is.forM g) fun _ => Pre := by
  induction is with
  | nil => exact (Agree.pure (.ok ())).post fun _ _ hpost => hpost.2
  | cons i is ih => exact (hf i).bind fun _ => ih

/-! ### Requests -/

theorem agree_request (r : Reconciler) (phase : Phase) (q : LinkRequest)
    {Post : q.Reply → LinkTable → Prop}
    (hgrant : ∀ s t, Mirrors view s t → Pre t → ∃ reply link, BothGrant h view q s t reply link ∧
      ((t.performed q).links q.target = link → Post reply (t.performed q))) :
    Agree view Pre (request (HostLinks.backend h) r phase q) (request LinkTable.backend r phase q)
      Post := by
  intro s t hm ht
  obtain ⟨reply, link, ⟨he, s', hrun, hm'⟩, hpost⟩ := hgrant s t hm ht
  obtain ⟨hrun', hlinks, -⟩ := hm.run_of_ok q he
  refine ⟨.ok reply, s', t.performed q, ?_, ?_, hm', ?_⟩
  · rw [run_request, hrun]
    rfl
  · rw [run_request, hrun']
    rfl
  · rintro a ⟨⟩
    exact hpost (by rw [hlinks, Links.set_self])

theorem agree_ensure (r : Reconciler) (phase : Phase) (q : LinkRequest) {Post : LinkTable → Prop}
    (hgrant : ∀ s t, Mirrors view s t → Pre t →
      (∃ reply link, BothGrant h view q s t reply link ∧
        ((t.performed q).links q.target = link → Post (t.performed q))) ∨
      (BothRefuse h view q s t LinkFailure.isAlreadyExists ∧
        ((t.performed q).links = t.links → Post (t.performed q)))) :
    Agree view Pre (ensure (HostLinks.backend h) r phase q) (ensure LinkTable.backend r phase q)
      fun _ => Post := by
  intro s t hm ht
  rcases hgrant s t hm ht with
    ⟨reply, link, ⟨he, s', hrun, hm'⟩, hpost⟩ | ⟨⟨e, he, hreason, e', s', hrun, hreason', hm'⟩, hpost⟩
  · obtain ⟨hrun', hlinks, -⟩ := hm.run_of_ok q he
    refine ⟨.ok (), s', t.performed q, ?_, ?_, hm', ?_⟩
    · rw [run_ensure, hrun]
    · rw [run_ensure, hrun']
    · intro _ _
      exact hpost (by rw [hlinks, Links.set_self])
  · obtain ⟨hrun', hlinks, -⟩ := hm.run_of_error q he
    refine ⟨.ok (), s', t.performed q, ?_, ?_, hm', ?_⟩
    · rw [run_ensure, hrun]
      dsimp only
      rw [if_pos hreason']
    · rw [run_ensure, hrun']
      dsimp only
      rw [if_pos hreason]
    · intro _ _
      exact hpost hlinks

/-! ### The calls of a reconciler -/

/-- A link of the interface that a handle was given out for. -/
def Holds (r : Reconciler) (φ : LinkState → Prop) (link : LinkHandle) (t : LinkTable) : Prop :=
  link.name = r.interface ∧ ∃ l, t.links r.interface = some l ∧ l.index = link.index ∧ φ l

variable {r : Reconciler}

theorem agree_create (hs : h.Serves view) (hname : IsInterface r.interface) (phase : Phase) :
    Agree view (fun _ => True) (ensure (HostLinks.backend h) r phase (.createWireguard r.interface))
      (ensure LinkTable.backend r phase (.createWireguard r.interface))
      fun _ t => ∃ l, t.links r.interface = some l := by
  apply agree_ensure
  intro s t hm _
  cases hl : t.links r.interface with
  | none =>
    refine .inl ⟨(), _, bothGrant_create hs hm hname hl, fun hlink => ⟨_, hlink⟩⟩
  | some l =>
    refine .inr ⟨bothRefuse_create hs hm hname hl, fun hlinks => ⟨l, ?_⟩⟩
    rw [hlinks, hl]

theorem agree_configure (hs : h.Serves view) (hname : IsInterface r.interface) (phase : Phase)
    {members : List Member} {setup : DeviceSetup} :
    Agree view (fun t => r.setup members = .ok setup ∧ ∃ l, t.links r.interface = some l)
      (request (HostLinks.backend h) r phase (.configureDevice r.interface setup))
      (request LinkTable.backend r phase (.configureDevice r.interface setup))
      fun _ t => ∃ l, t.links r.interface = some l := by
  apply agree_request
  rintro s t hm ⟨hsetup, l, hl⟩
  obtain ⟨peers, hpeers, rfl⟩ := setup_eq_ok_iff.mp hsetup
  exact ⟨(), _, bothGrant_configureDevice hs hm hname hl rfl (Member.replaces_of_mem_toPeers hpeers),
    fun hlink => ⟨_, hlink⟩⟩

theorem agree_lookup (hs : h.Serves view) (hname : IsInterface r.interface) (phase : Phase) :
    Agree view (fun t => ∃ l, t.links r.interface = some l)
      (request (HostLinks.backend h) r phase (.linkByName r.interface))
      (request LinkTable.backend r phase (.linkByName r.interface))
      (Holds r fun _ => True) := by
  apply agree_request
  rintro s t hm ⟨l, hl⟩
  exact ⟨_, _, bothGrant_linkByName hs hm hname hl, fun hlink => ⟨rfl, l, hlink, rfl, trivial⟩⟩

/-- A request that changes the link that is held. -/
theorem agree_edit {φ ψ : LinkState → Prop} {link : LinkHandle} (phase : Phase) (q : LinkRequest)
    (reply : q.Reply) (edit : LinkState → LinkState) (htarget : q.target = link.name)
    (hgrant : ∀ s t l, Mirrors view s t → link.name = r.interface → t.links link.name = some l →
      l.index = link.index → φ l → BothGrant h view q s t reply (some (edit l)))
    (hindex : ∀ l, (edit l).index = l.index) (hpost : ∀ l, φ l → ψ (edit l)) :
    Agree view (Holds r φ link) (request (HostLinks.backend h) r phase q)
      (request LinkTable.backend r phase q) fun _ => Holds r ψ link := by
  apply agree_request
  rintro s t hm ⟨hlink, l, hl, hi, hφ⟩
  have hgranted := hgrant s t l hm hlink (by rw [hlink, hl]) hi hφ
  refine ⟨reply, _, hgranted, fun hafter => ⟨hlink, edit l, ?_, ?_, hpost l hφ⟩⟩
  · rw [← hlink, ← htarget, hafter]
  · rw [hindex, hi]

theorem agree_replaceAddress (hs : h.Serves view) (hname : IsInterface r.interface)
    {link : LinkHandle} (phase : Phase) (address : Network) :
    Agree view (Holds r (fun _ => True) link)
      (request (HostLinks.backend h) r phase (.replaceAddress link address))
      (request LinkTable.backend r phase (.replaceAddress link address))
      fun _ => Holds r (fun _ => True) link := by
  refine agree_edit phase (.replaceAddress link address) () (LinkState.addressed address) rfl ?_
    (fun l => rfl) fun l _ => trivial
  exact fun s t l hm hlink hl hi _ =>
    bothGrant_replaceAddress hs hm (hlink ▸ hname) hl hi address

theorem agree_setMtu (hs : h.Serves view) (hname : IsInterface r.interface) {link : LinkHandle}
    (phase : Phase) (mtu : UInt32) :
    Agree view (Holds r (fun _ => True) link)
      (request (HostLinks.backend h) r phase (.setMtu link mtu))
      (request LinkTable.backend r phase (.setMtu link mtu))
      fun _ => Holds r (fun _ => True) link := by
  refine agree_edit phase (.setMtu link mtu) () (fun l => { l with mtu }) rfl ?_ (fun l => rfl)
    fun l _ => trivial
  exact fun s t l hm hlink hl hi _ => bothGrant_setMtu hs hm (hlink ▸ hname) hl hi mtu

theorem agree_setUp (hs : h.Serves view) (hname : IsInterface r.interface) {link : LinkHandle}
    (phase : Phase) :
    Agree view (Holds r (fun _ => True) link)
      (request (HostLinks.backend h) r phase (.setUp link))
      (request LinkTable.backend r phase (.setUp link))
      fun _ => Holds r (·.up = true) link := by
  refine agree_edit phase (.setUp link) () (fun l => { l with up := true }) rfl ?_ (fun l => rfl)
    fun l _ => rfl
  exact fun s t l hm hlink hl hi _ => bothGrant_setUp hs hm (hlink ▸ hname) hl hi

theorem agree_addRoute (hs : h.Serves view) (hname : IsInterface r.interface) {link : LinkHandle}
    (phase : Phase) (destination : Network) :
    Agree view (Holds r (·.up = true) link)
      (ensure (HostLinks.backend h) r phase (.addRoute link destination))
      (ensure LinkTable.backend r phase (.addRoute link destination))
      fun _ => Holds r (·.up = true) link := by
  apply agree_ensure
  rintro s t hm ⟨hlink, l, hl, hi, hup⟩
  have hname' : IsInterface link.name := by rwa [hlink]
  have hl' : t.links link.name = some l := by rw [hlink, hl]
  by_cases hd : destination ∈ l.routes
  · refine .inr ⟨bothRefuse_addRoute hs hm hname' hl' hi hup hd, fun hlinks => ?_⟩
    exact ⟨hlink, l, by rw [hlinks, hl], hi, hup⟩
  · refine .inl ⟨(), _, bothGrant_addRoute hs hm hname' hl' hi hup hd, fun hafter => ?_⟩
    refine ⟨hlink, { l with routes := l.routes ++ [destination] }, ?_, hi, hup⟩
    rw [← hlink]
    exact hafter

theorem agree_bringUp (hs : h.Serves view) (hname : IsInterface r.interface)
    (members : List Member) :
    Agree view (fun _ => True) (r.bringUp (HostLinks.backend h) members)
      (r.bringUp LinkTable.backend members) fun _ _ => True := by
  unfold bringUp
  refine (agree_create hs hname .createLink).bind fun _ => ?_
  refine (Agree.pure (r.setup members)).bind fun setup => ?_
  refine (agree_configure hs hname .configureDevice).bind fun _ => ?_
  refine (agree_lookup hs hname .lookupLink).bind fun link => ?_
  refine (agree_replaceAddress hs hname .replaceAddress _).bind fun _ => ?_
  refine (agree_setMtu hs hname .setMtu _).bind fun _ => ?_
  refine (agree_setUp hs hname .setUp).bind fun _ => ?_
  exact (Agree.forM (fun m => agree_addRoute hs hname _ _) members).post fun _ _ _ => trivial

/-- Whether there is a device tells whether there is a link. -/
theorem agree_status (hs : h.Serves view) (hname : IsInterface r.interface) :
    Agree view (fun _ => True) (r.status (HostLinks.backend h)) (r.status LinkTable.backend)
      fun device t => device.isSome = true → ∃ l, t.links r.interface = some l := by
  intro s t hm _
  cases hl : t.links r.interface with
  | some l =>
    obtain ⟨he, s', hrun, hm'⟩ := bothGrant_device hs hm hname hl
    obtain ⟨hrun', hlinks, -⟩ := hm.run_of_ok (.device r.interface) he
    refine ⟨.ok (some (l.device.getD (.unconfigured r.interface))), s',
      t.performed (.device r.interface), ?_, ?_, hm', ?_⟩
    · rw [run_status, hrun]
    · rw [run_status, hrun']
    · intro _ _ _
      exact ⟨l, by rw [hlinks, LinkRequest.target, Links.set_self]⟩
  | none =>
    obtain ⟨e, he, hreason, e', s', hrun, hreason', hm'⟩ := bothRefuse_device hs hm hname hl
    obtain ⟨hrun', -, -⟩ := hm.run_of_error (.device r.interface) he
    refine ⟨.ok none, s', t.performed (.device r.interface), ?_, ?_, hm', ?_⟩
    · rw [run_status, hrun]
      dsimp only
      rw [if_pos hreason']
    · rw [run_status, hrun']
      dsimp only
      rw [if_pos hreason]
    · rintro _ ⟨⟩ ⟨⟩

theorem agree_takeDown (hs : h.Serves view) (hname : IsInterface r.interface) :
    Agree view (fun _ => True) (r.takeDown (HostLinks.backend h)) (r.takeDown LinkTable.backend)
      fun _ _ => True := by
  unfold takeDown
  refine (agree_status hs hname).bind fun device => ?_
  cases device with
  | none => exact (Agree.pure (.ok ())).post fun _ _ _ => trivial
  | some d =>
    have hpresent : Agree view (fun t => ∃ l, t.links r.interface = some l)
        (request (HostLinks.backend h) r .lookupLink (.linkByName r.interface) >>= fun link =>
          request (HostLinks.backend h) r .deleteLink (.deleteLink link))
        (request LinkTable.backend r .lookupLink (.linkByName r.interface) >>= fun link =>
          request LinkTable.backend r .deleteLink (.deleteLink link)) fun _ _ => True := by
      refine (agree_lookup hs hname .lookupLink).bind fun link => ?_
      apply agree_request
      rintro s t hm ⟨hlink, l, hl, hi, -⟩
      exact ⟨(), none, bothGrant_deleteLink hs hm (hlink ▸ hname) (by rw [hlink, hl]) hi,
        fun _ => trivial⟩
    -- A device was found, which is the precondition that the lookup needs.
    intro s t hm hpost
    exact hpresent s t hm (hpost rfl)

end Reconciler

/-! ### Runs -/

namespace Call

variable {τ : Type} {h : Host τ} {view : τ → ToolState}

def reconciler? : Call → Option Reconciler
  | .bringUp r _ => some r
  | .takeDown r => some r
  | .status r => some r
  | .request _ => none

/-- A call of a reconciler that was created for a configuration whose interface name has no NUL
character in it. -/
def IsReconcilers (call : Call) : Prop :=
  ∃ r c name key, call.reconciler? = some r ∧ Reconciler.create c name key = .ok r ∧
    ∀ ch ∈ r.interface.toList, ch.toNat ≠ 0

theorem isInterface_of_create {r : Reconciler} {c : Config} {name : String} {key : PrivateKey}
    (hr : Reconciler.create c name key = .ok r) (hnul : ∀ ch ∈ r.interface.toList, ch.toNat ≠ 0) :
    IsInterface r.interface := by
  obtain ⟨hcheck, _, -, rfl⟩ := Reconciler.create_eq_ok_iff.mp hr
  exact Config.isInterface_of_check hcheck hnul

/-- An answer that is made of the result of an action. -/
theorem answer_agrees {α : Type} {x : Reconciler.Action (HostLinks τ) α}
    {y : Reconciler.Action LinkTable α} {Post : α → LinkTable → Prop}
    (hxy : Reconciler.Agree view (fun _ => True) x y Post) (f : α → Answer) {s : HostLinks τ}
    {t : LinkTable} (hm : Mirrors view s t) :
    Answer.ofResult f (x.run.run s).1 = Answer.ofResult f (y.run.run t).1 ∧
      Mirrors view (x.run.run s).2 (y.run.run t).2 := by
  obtain ⟨result, s', t', hrun, hrun', hm', -⟩ := hxy s t hm trivial
  rw [hrun, hrun']
  exact ⟨rfl, hm'⟩

/-- One call: the same answer, and the same links afterwards. -/
theorem run_agrees (hs : h.Serves view) {call : Call} (hcall : call.IsReconcilers)
    {s : HostLinks τ} {t : LinkTable} (hm : Mirrors view s t) :
    ((call.run (HostLinks.backend h)).run s).1 = ((call.run LinkTable.backend).run t).1 ∧
      Mirrors view ((call.run (HostLinks.backend h)).run s).2
        ((call.run LinkTable.backend).run t).2 := by
  obtain ⟨r, c, name, key, hcall, hr, hnul⟩ := hcall
  have hname := isInterface_of_create hr hnul
  cases call with
  | bringUp r' members =>
    cases hcall
    exact answer_agrees (Reconciler.agree_bringUp hs hname members) (fun _ => .done) hm
  | takeDown r' =>
    cases hcall
    exact answer_agrees (Reconciler.agree_takeDown hs hname) (fun _ => .done) hm
  | status r' =>
    cases hcall
    exact answer_agrees (Reconciler.agree_status hs hname) .status hm
  | request q => cases hcall

theorem runAll_agrees (hs : h.Serves view) {calls : List Call}
    (hcalls : ∀ call ∈ calls, call.IsReconcilers) {s : HostLinks τ} {t : LinkTable}
    (hm : Mirrors view s t) :
    ((runAll (HostLinks.backend h) calls).run s).1 = ((runAll LinkTable.backend calls).run t).1 ∧
      Mirrors view ((runAll (HostLinks.backend h) calls).run s).2
        ((runAll LinkTable.backend calls).run t).2 := by
  induction calls generalizing s t with
  | nil => exact ⟨rfl, hm⟩
  | cons call calls ih =>
    obtain ⟨hanswer, hm'⟩ := run_agrees hs (hcalls call List.mem_cons_self) hm
    obtain ⟨hanswers, hmirrors⟩ := ih (fun d hd => hcalls d (List.mem_cons_of_mem _ hd)) hm'
    rw [runAll_cons, runAll_cons]
    exact ⟨by rw [hanswer, hanswers], hmirrors⟩

/-- Reconcilers have the same answers over a host whose programs carry out their orders as over a table
with the same links and no failure pending, whichever reconcilers take turns and whatever their members
are. The links are the same afterwards. -/
theorem runAll_host_eq_table (hs : h.Serves view) {calls : List Call}
    (hcalls : ∀ call ∈ calls, call.IsReconcilers) {s : HostLinks τ} {t : LinkTable}
    (ht : t.Reachable) (hidle : ∀ operation, t.pending operation = false)
    (htool : s.toolCheck ≠ some false) (hlinks : (view s.host).links = t.links)
    (hindex : (view s.host).lastIndex = t.lastIndex) :
    ((runAll (HostLinks.backend h) calls).run s).1 = ((runAll LinkTable.backend calls).run t).1 ∧
      (view ((runAll (HostLinks.backend h) calls).run s).2.host).links =
        ((runAll LinkTable.backend calls).run t).2.links ∧
      (view ((runAll (HostLinks.backend h) calls).run s).2.host).lastIndex =
        ((runAll LinkTable.backend calls).run t).2.lastIndex := by
  have hm : Mirrors view s t := ⟨hlinks, hindex, htool, hidle, ht.named⟩
  obtain ⟨hanswers, hm'⟩ := runAll_agrees hs hcalls hm
  exact ⟨hanswers, hm'.links, hm'.lastIndex⟩

/-- Two reconcilers of one interface take turns, one of them with a key that cannot be read among its
members, on a host without links. -/
theorem runAll_host_eq_table_sample :
    let a := Reconciler.sampleNode 0x0A010203 Reconciler.sampleKey
    let b := Reconciler.sampleNode 0x0A010209 Reconciler.sampleKey
    let members := [0x0A010205, 0x0A010206, 0x0A010205].map Reconciler.sampleMember
    let calls : List Call := [.status a, .bringUp a members, .status b, .bringUp b [],
      .bringUp a [⟨"", .v4 0x0A010205, .v4 0xC0A80102⟩], .takeDown b, .status a]
    let s : HostLinks ToolState := ⟨⟨fun _ => none, 0, []⟩, none⟩
    (∀ call ∈ calls, call.IsReconcilers) ∧
      ((runAll (HostLinks.backend simulatedHost) calls).run s).1 =
        ((runAll LinkTable.backend calls).run LinkTable.empty).1 := by
  intro a b members calls s
  have ha : Reconciler.create (Reconciler.sampleConfig "10.1.2.3") "a" Reconciler.sampleKey = .ok a :=
    Reconciler.create_sampleNode Reconciler.sampleKey
  have hb : Reconciler.create (Reconciler.sampleConfig "10.1.2.9") "a" Reconciler.sampleKey = .ok b :=
    Reconciler.create_sampleNode_moved Reconciler.sampleKey
  have hnul : IsPassable "wgoverlay" := by decide
  have hcalls : ∀ call ∈ calls, call.IsReconcilers := by
    intro call hcall
    have hr : call.reconciler? = some a ∨ call.reconciler? = some b := by
      simp only [calls, List.mem_cons, List.not_mem_nil, or_false] at hcall
      rcases hcall with rfl | rfl | rfl | rfl | rfl | rfl | rfl
      · exact .inl rfl
      · exact .inl rfl
      · exact .inr rfl
      · exact .inr rfl
      · exact .inl rfl
      · exact .inr rfl
      · exact .inl rfl
    rcases hr with hr | hr
    · exact ⟨a, _, _, _, hr, ha, hnul⟩
    · exact ⟨b, _, _, _, hr, hb, hnul⟩
  have hagree := runAll_host_eq_table simulatedHost_serves hcalls (s := s) LinkTable.reachable_empty
    (fun _ => rfl) nofun rfl rfl
  exact ⟨hcalls, hagree.1⟩

end Call

end OverlayTunnel
