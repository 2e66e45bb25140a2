import OverlayTunnel.Proofs.Device.Merge
import OverlayTunnel.Proofs.Reconciler.Performs
import OverlayTunnel.Proofs.Reconciler.Setup

/-!
What bringing an interface up makes of a table. The outcome is a function of the table that no step of
the call changes, so a call that fails halfway leaves the same outcome to the next one.
-/
namespace OverlayTunnel.Reconciler

open LinkTable

/-! ### The outcome -/

def ownNetwork (r : Reconciler) : Network :=
  .host r.identity.overlayAddress

/-- The link that is wanted, where `l` is there. -/
def brought (r : Reconciler) (setup : DeviceSetup) (ms : List Member) (l : LinkState) : LinkState where
  index := l.index
  device := some (.configured r.interface none setup)
  addresses := (l.addressed r.ownNetwork).addresses
  mtu := r.mtu
  up := true
  routes := appendNew l.routes (ms.map routeTo)

/-- The links and the last index once the interface is up. -/
def outcome (r : Reconciler) (setup : DeviceSetup) (ms : List Member) (t : LinkTable) :
    Links × UInt32 :=
  match t.links r.interface with
  | some l => (t.links.set r.interface (some (r.brought setup ms l)), t.lastIndex)
  | none =>
    (t.links.set r.interface (some (r.brought setup ms (.new (t.lastIndex + 1)))),
      t.lastIndex + 1)

variable {r : Reconciler} {setup : DeviceSetup} {ms : List Member}

theorem outcome_of_some {t : LinkTable} {l : LinkState} (h : t.links r.interface = some l) :
    r.outcome setup ms t =
      (t.links.set r.interface (some (r.brought setup ms l)), t.lastIndex) := by
  simp only [outcome, h]

theorem outcome_of_none {t : LinkTable} (h : t.links r.interface = none) :
    r.outcome setup ms t =
      (t.links.set r.interface (some (r.brought setup ms (.new (t.lastIndex + 1)))),
        t.lastIndex + 1) := by
  simp only [outcome, h]

/-- A link that is as wanted is the outcome. -/
theorem outcome_eq_self {t : LinkTable} {l : LinkState} (h : t.links r.interface = some l)
    (hl : r.brought setup ms l = l) : r.outcome setup ms t = (t.links, t.lastIndex) := by
  rw [outcome_of_some h, hl, ← h, Links.set_get]

/-! ### Single steps -/

variable {g : Links × UInt32} {φ : LinkState → Prop}

/-- The interface has a link with a property, and the outcome is given. -/
def Underway (r : Reconciler) (setup : DeviceSetup) (ms : List Member) (g : Links × UInt32)
    (φ : LinkState → Prop) (t : LinkTable) : Prop :=
  r.outcome setup ms t = g ∧ ∃ l, t.links r.interface = some l ∧ φ l

/-- Changing the link of the interface keeps the outcome if the wanted link stays the same. -/
theorem underway_updated {t : LinkTable} {q : LinkRequest} {l l' : LinkState}
    (hl : t.links r.interface = some l) (hg : r.outcome setup ms t = g)
    (htarget : q.target = r.interface) (hq : q.operation ≠ .createWireguard)
    (hsame : r.brought setup ms l' = r.brought setup ms l) (hφ : φ l') :
    Underway r setup ms g φ ((t.recorded q.operation).updated q (some l')) := by
  have hl' : ((t.recorded q.operation).updated q (some l')).links r.interface = some l' := by
    simp [LinkTable.updated, htarget]
  refine ⟨?_, l', hl', hφ⟩
  rw [outcome_of_some hl', ← hg, outcome_of_some hl, hsame]
  simp [LinkTable.updated, LinkTable.recorded, htarget, hq]

theorem performs_edit {phase : Phase} (q : LinkRequest) {ψ : q.Reply → LinkState → Prop}
    (reply : LinkState → q.Reply) (edit : LinkState → LinkState)
    (hq : q.operation ≠ .createWireguard)
    (htarget : ∀ l, φ l → q.target = r.interface)
    (heffect : ∀ l, φ l → ∀ fresh, q.effect fresh (some l) = .ok (reply l, some (edit l)))
    (hsame : ∀ l, φ l → r.brought setup ms (edit l) = r.brought setup ms l)
    (hpost : ∀ l, φ l → ψ (reply l) (edit l)) :
    Performs r [⟨q.operation, phase⟩] (Underway r setup ms g φ)
      (fun t => r.outcome setup ms t = g) (request backend r phase q)
      (fun a => Underway r setup ms g (ψ a)) := by
  apply performs_request q
  · rintro t ⟨hg, -⟩
    exact hg
  · rintro t ⟨hg, l, hl, hφ⟩
    refine ⟨reply l, some (edit l), ?_, ?_⟩
    · rw [htarget l hφ, hl]
      exact heffect l hφ _
    · exact underway_updated hl hg (htarget l hφ) hq (hsame l hφ) (hpost l hφ)

theorem performs_create :
    Performs r [⟨.createWireguard, .createLink⟩] (fun t => r.outcome setup ms t = g)
      (fun t => r.outcome setup ms t = g)
      (ensure backend r .createLink (.createWireguard r.interface))
      (fun _ => Underway r setup ms g fun _ => True) := by
  refine performs_ensure (.createWireguard r.interface) (fun t hg => hg) ?_
  intro t hg
  change (∃ reply link, LinkRequest.effect _ (t.links r.interface) _ = _ ∧ _) ∨
    ∃ e, LinkRequest.effect _ (t.links r.interface) _ = _ ∧ _
  cases hl : t.links r.interface with
  | some l => exact .inr ⟨_, rfl, rfl, hg, l, hl, trivial⟩
  | none =>
    refine .inl ⟨(), some (.new (t.lastIndex + 1)), rfl, ?_⟩
    have hl' : ((t.recorded .createWireguard).updated (.createWireguard r.interface)
        (some (.new (t.lastIndex + 1)))).links r.interface = some (.new (t.lastIndex + 1)) := by
      simp [LinkTable.updated, LinkRequest.target]
    refine ⟨?_, _, hl', trivial⟩
    rw [← hg, outcome_of_none hl]
    refine (outcome_of_some hl').trans ?_
    simp [LinkTable.updated, LinkTable.recorded, LinkRequest.target, LinkRequest.operation]

/-- A link that has been brought up, except that routes may still be missing. -/
structure Prepared (r : Reconciler) (setup : DeviceSetup) (handle : LinkHandle) (l : LinkState) :
    Prop where
  handle_eq : handle = ⟨r.interface, l.index⟩
  device : l.device = some (.configured r.interface none setup)
  addresses : (l.addressed r.ownNetwork).addresses = l.addresses
  mtu : l.mtu = r.mtu
  up : l.up = true

theorem held_of_eq {handle : LinkHandle} {name : String} {l : LinkState}
    (h : handle = ⟨name, l.index⟩) : LinkState.held handle (some l) = .ok l := by
  subst h
  simp [LinkState.held]

/-- A prepared link with all its routes is as wanted. -/
theorem Prepared.brought_eq {handle : LinkHandle} {l : LinkState}
    (h : Prepared r setup handle l) (hroutes : ∀ m ∈ ms, routeTo m ∈ l.routes) :
    r.brought setup ms l = l := by
  have hr : appendNew l.routes (ms.map routeTo) = l.routes := by
    apply appendNew_of_subset
    simpa using hroutes
  unfold brought
  rw [h.addresses, hr, ← h.device, ← h.mtu, ← h.up]

/-! ### The routes -/

theorem performs_route {handle : LinkHandle} {first later : List Member} {m : Member}
    (hms : first ++ m :: later = ms) :
    Performs r [⟨.addRoute, .addRoute (routeTo m)⟩]
      (Underway r setup ms g fun l =>
        (∀ m ∈ first, routeTo m ∈ l.routes) ∧ Prepared r setup handle l)
      (fun t => r.outcome setup ms t = g)
      (ensure backend r (.addRoute (routeTo m)) (.addRoute handle (routeTo m)))
      (fun _ => Underway r setup ms g fun l =>
        (∀ m' ∈ first ++ [m], routeTo m' ∈ l.routes) ∧ Prepared r setup handle l) := by
  refine performs_ensure (.addRoute handle (routeTo m)) ?_ ?_
  · rintro t ⟨hg, -⟩
    exact hg
  · rintro t ⟨hg, l, hl, hfirst, hp⟩
    have htarget : (LinkRequest.addRoute handle (routeTo m)).target = r.interface := by
      rw [hp.handle_eq]
      rfl
    have heffect : (LinkRequest.addRoute handle (routeTo m)).effect (t.lastIndex + 1) (some l) =
        (LinkState.routed handle (routeTo m) l).map fun l => ((), some l) := by
      simp only [LinkRequest.effect, held_of_eq hp.handle_eq, Except.bind]
    rw [htarget, hl, heffect]
    by_cases hroute : routeTo m ∈ l.routes
    · refine .inr ⟨.alreadyExists ("route " ++ (routeTo m).text), ?_, rfl, hg, l, hl, ?_, hp⟩
      · simp [LinkState.routed, hp.up, hroute, Except.map]
      · simpa [or_imp, forall_and, hroute] using hfirst
    · refine .inl ⟨(), some { l with routes := l.routes ++ [routeTo m] }, ?_, ?_⟩
      · simp [LinkState.routed, hp.up, hroute, Except.map]
      · refine underway_updated hl hg htarget (by simp [LinkRequest.operation]) ?_ ⟨?_, ?_⟩
        · have hsub : ∀ n ∈ first.map routeTo, n ∈ l.routes := by simpa using hfirst
          unfold brought
          rw [← hms, List.map_append, List.map_cons, ← appendNew_in_turn hsub hroute]
          rfl
        · intro m' hm'
          rcases List.mem_append.mp hm' with hm' | hm'
          · exact List.mem_append_left _ (hfirst m' hm')
          · have he : m' = m := by simpa using hm'
            simp [he]
        · exact ⟨hp.handle_eq, hp.device, hp.addresses, hp.mtu, hp.up⟩

def routeSteps (ms : List Member) : List Step :=
  ms.map fun m => ⟨.addRoute, .addRoute (routeTo m)⟩

theorem performs_routes {handle : LinkHandle} {first later : List Member}
    (hms : first ++ later = ms) :
    Performs r (routeSteps later)
      (Underway r setup ms g fun l =>
        (∀ m ∈ first, routeTo m ∈ l.routes) ∧ Prepared r setup handle l)
      (fun t => r.outcome setup ms t = g)
      (later.forM fun m =>
        ensure backend r (.addRoute (routeTo m)) (.addRoute handle (routeTo m)))
      (fun _ => Underway r setup ms g fun l =>
        (∀ m ∈ ms, routeTo m ∈ l.routes) ∧ Prepared r setup handle l) := by
  -- The members before those that are left have their routes already.
  induction later generalizing first with
  | nil =>
    rw [List.append_nil] at hms
    subst hms
    exact Performs.pure
  | cons m later ih =>
    refine (performs_route hms).bind fun _ => ?_
    apply ih
    rw [List.append_assoc]
    exact hms

/-! ### The whole call -/

theorem performs_configure (hreplaces : setup.replacesPeers = true) :
    Performs r [⟨.configureDevice, .configureDevice⟩] (Underway r setup ms g fun _ => True)
      (fun t => r.outcome setup ms t = g)
      (request backend r .configureDevice (.configureDevice r.interface setup))
      (fun _ => Underway r setup ms g fun l =>
        l.device = some (.configured r.interface none setup)) := by
  refine performs_edit (.configureDevice r.interface setup) (fun _ => ())
    (fun l => { l with device := some (.configured r.interface l.device setup) })
    (by simp [LinkRequest.operation]) (fun _ _ => rfl) (fun _ _ _ => rfl) (fun _ _ => rfl) ?_
  intro l _
  exact congrArg some (configured_of_replaces hreplaces r.interface l.device)

theorem performs_lookup :
    Performs r [⟨.linkByName, .lookupLink⟩] (Underway r setup ms g φ)
      (fun t => r.outcome setup ms t = g)
      (request backend r .lookupLink (.linkByName r.interface))
      (fun handle => Underway r setup ms g fun l => handle = ⟨r.interface, l.index⟩ ∧ φ l) :=
  performs_edit (.linkByName r.interface) (fun l => ⟨r.interface, l.index⟩) id
    (by simp [LinkRequest.operation]) (fun _ _ => rfl) (fun _ _ _ => rfl) (fun _ _ => rfl)
    fun _ hφ => ⟨rfl, hφ⟩

/-- A step on the link of a handle that keeps the index of the link. -/
theorem performs_held {phase : Phase} (q : LinkRequest) (reply : q.Reply) {handle : LinkHandle}
    (edit : LinkState → LinkState) {φ ψ : LinkState → Prop} (hq : q.operation ≠ .createWireguard)
    (htarget : q.target = handle.name)
    (heffect : ∀ l fresh, LinkState.held handle (some l) = .ok l →
      q.effect fresh (some l) = .ok (reply, some (edit l)))
    (hindex : ∀ l, (edit l).index = l.index)
    (hsame : ∀ l, r.brought setup ms (edit l) = r.brought setup ms l)
    (hpost : ∀ l, φ l → ψ (edit l)) :
    Performs r [⟨q.operation, phase⟩]
      (Underway r setup ms g fun l => handle = ⟨r.interface, l.index⟩ ∧ φ l)
      (fun t => r.outcome setup ms t = g) (request backend r phase q)
      (fun _ => Underway r setup ms g fun l => handle = ⟨r.interface, l.index⟩ ∧ ψ l) := by
  refine performs_edit q (fun _ => reply) edit hq ?_ ?_ ?_ ?_
  · rintro l ⟨rfl, -⟩
    exact htarget
  · rintro l ⟨hh, -⟩ fresh
    exact heffect l fresh (held_of_eq hh)
  · exact fun l _ => hsame l
  · rintro l ⟨hh, hφ⟩
    exact ⟨by rw [hindex, hh], hpost l hφ⟩

theorem performs_replaceAddress {handle : LinkHandle} :
    Performs r [⟨.replaceAddress, .replaceAddress⟩]
      (Underway r setup ms g fun l => handle = ⟨r.interface, l.index⟩ ∧
        l.device = some (.configured r.interface none setup))
      (fun t => r.outcome setup ms t = g)
      (request backend r .replaceAddress (.replaceAddress handle r.ownNetwork))
      (fun _ => Underway r setup ms g fun l => handle = ⟨r.interface, l.index⟩ ∧
        (l.addressed r.ownNetwork).addresses = l.addresses ∧
        l.device = some (.configured r.interface none setup)) := by
  refine performs_held (.replaceAddress handle r.ownNetwork) ()
    (fun l => l.addressed r.ownNetwork) (by simp [LinkRequest.operation]) rfl ?_ (fun _ => rfl) ?_ ?_
  · intro l fresh hl
    simp only [LinkRequest.effect, hl]
    rfl
  · intro l
    unfold brought
    rw [LinkState.addressed_addressed]
    rfl
  · intro l hd
    exact ⟨by rw [LinkState.addressed_addressed], hd⟩

theorem performs_setMtu {handle : LinkHandle} :
    Performs r [⟨.setMtu, .setMtu⟩]
      (Underway r setup ms g fun l => handle = ⟨r.interface, l.index⟩ ∧
        (l.addressed r.ownNetwork).addresses = l.addresses ∧
        l.device = some (.configured r.interface none setup))
      (fun t => r.outcome setup ms t = g)
      (request backend r .setMtu (.setMtu handle r.mtu))
      (fun _ => Underway r setup ms g fun l => handle = ⟨r.interface, l.index⟩ ∧ l.mtu = r.mtu ∧
        (l.addressed r.ownNetwork).addresses = l.addresses ∧
        l.device = some (.configured r.interface none setup)) := by
  refine performs_held (.setMtu handle r.mtu) () (fun l => { l with mtu := r.mtu })
    (by simp [LinkRequest.operation]) rfl ?_ (fun _ => rfl) (fun _ => rfl) ?_
  · intro l fresh hl
    simp only [LinkRequest.effect, hl]
    rfl
  · exact fun l hl => ⟨rfl, hl⟩

theorem performs_setUp {handle : LinkHandle} :
    Performs r [⟨.setUp, .setUp⟩]
      (Underway r setup ms g fun l => handle = ⟨r.interface, l.index⟩ ∧ l.mtu = r.mtu ∧
        (l.addressed r.ownNetwork).addresses = l.addresses ∧
        l.device = some (.configured r.interface none setup))
      (fun t => r.outcome setup ms t = g)
      (request backend r .setUp (.setUp handle))
      (fun _ => Underway r setup ms g (Prepared r setup handle)) := by
  refine (performs_held (.setUp handle) () (fun l => { l with up := true })
    (ψ := fun l => l.up = true ∧ l.mtu = r.mtu ∧
      (l.addressed r.ownNetwork).addresses = l.addresses ∧
      l.device = some (.configured r.interface none setup))
    (by simp [LinkRequest.operation]) rfl ?_ (fun _ => rfl) (fun _ => rfl) ?_).post ?_
  · intro l fresh hl
    simp only [LinkRequest.effect, hl]
    rfl
  · exact fun l hl => ⟨rfl, hl⟩
  · rintro _ t ⟨hg, l, hl, hh, hu, hm, ha, hd⟩
    exact ⟨hg, l, hl, hh, hd, ha, hm, hu⟩

/-- Whatever the backend does, no interface is brought up without a setup for all members. -/
theorem setup_of_bringUp {σ : Type} {b : Backend σ} {s s' : σ}
    (h : (r.bringUp b ms).run.run s = (.ok (), s')) : ∃ setup, r.setup ms = .ok setup := by
  cases hs : r.setup ms with
  | ok setup => exact ⟨setup, rfl⟩
  | error e =>
    unfold bringUp at h
    rw [hs, Action.run_bind] at h
    rcases he : (ensure b r .createLink (.createWireguard r.interface)).run.run s with ⟨_ | _, s₁⟩
    · rw [he] at h
      cases h
    · rw [he] at h
      cases h

/-- The steps of bringing up a link, before its routes. -/
def linkSteps : List Step :=
  [⟨.createWireguard, .createLink⟩, ⟨.configureDevice, .configureDevice⟩,
    ⟨.linkByName, .lookupLink⟩, ⟨.replaceAddress, .replaceAddress⟩, ⟨.setMtu, .setMtu⟩,
    ⟨.setUp, .setUp⟩]

/-- Bringing an interface up never changes the outcome, and reaches it if no failure is pending. -/
theorem performs_bringUp (h : r.setup ms = .ok setup) :
    Performs r (linkSteps ++ routeSteps ms) (fun t => r.outcome setup ms t = g)
      (fun t => r.outcome setup ms t = g) (r.bringUp backend ms)
      (fun _ t => (t.links, t.lastIndex) = g) := by
  unfold bringUp
  rw [h]
  change Performs r ([_] ++ ([_] ++ ([_] ++ ([_] ++ ([_] ++ ([_] ++ routeSteps ms)))))) _ _ _ _
  refine performs_create.bind fun _ => Performs.pure_bind ?_
  refine (performs_configure (replaces_of_setup h)).bind fun _ => ?_
  refine performs_lookup.bind fun handle => ?_
  refine performs_replaceAddress.bind fun _ => ?_
  refine performs_setMtu.bind fun _ => ?_
  refine performs_setUp.bind fun _ => ?_
  have hroutes : Performs r (routeSteps ms)
      (Underway r setup ms g fun l => (∀ m ∈ [], routeTo m ∈ l.routes) ∧ Prepared r setup handle l)
      _ _ _ := performs_routes (List.nil_append ms)
  refine (hroutes.pre ?_).post ?_
  · rintro t ⟨hg, l, hl, hp⟩
    exact ⟨hg, l, hl, by simp, hp⟩
  · rintro _ t ⟨hg, l, hl, hall, hp⟩
    rw [← hg]
    exact (outcome_eq_self hl (hp.brought_eq hall)).symm

theorem bringUp_eq_ok (hs : r.setup ms = .ok setup) {t : LinkTable}
    (hp : firstPending (linkSteps ++ routeSteps ms) t = none) :
    ∃ t', (r.bringUp backend ms).run.run t = (.ok (), t') ∧ t'.pending = t.pending ∧
      (t'.links, t'.lastIndex) = r.outcome setup ms t := by
  rcases performs_bringUp hs t rfl with ⟨s, t', hfirst, -⟩ | ⟨_, t', -, hrun, hpending, hg⟩
  · rw [hp] at hfirst
    cases hfirst
  · exact ⟨t', hrun, hpending, hg⟩

theorem bringUp_eq_error (hs : r.setup ms = .ok setup) {t : LinkTable} {s : Step}
    (hp : firstPending (linkSteps ++ routeSteps ms) t = some s) :
    ∃ t', (r.bringUp backend ms).run.run t = (.error (s.failure r), t') ∧
      t'.pending = (t.relieved s.operation).pending ∧
      r.outcome setup ms t' = r.outcome setup ms t := by
  rcases performs_bringUp hs t rfl with ⟨s', t', hfirst, hrun, hpending, hg⟩ | ⟨_, t', hfirst, -⟩
  · rw [hp] at hfirst
    cases hfirst
    exact ⟨t', hrun, hpending, hg⟩
  · rw [hp] at hfirst
    cases hfirst

/-- A call that succeeds reaches the outcome. -/
theorem outcome_of_bringUp {t t' : LinkTable} (h : (r.bringUp backend ms).run.run t = (.ok (), t')) :
    ∃ setup, r.setup ms = .ok setup ∧ (t'.links, t'.lastIndex) = r.outcome setup ms t := by
  obtain ⟨setup, hs⟩ := setup_of_bringUp h
  refine ⟨setup, hs, ?_⟩
  rcases performs_bringUp hs t rfl with ⟨s, t₁, -, hrun, -⟩ | ⟨_, t₁, -, hrun, -, hg⟩
  · rw [hrun] at h
    cases h
  · rw [hrun] at h
    cases h
    exact hg

end OverlayTunnel.Reconciler
