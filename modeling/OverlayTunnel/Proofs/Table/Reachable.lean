import OverlayTunnel.Proofs.Device.Merge
import OverlayTunnel.Proofs.Reconciler.Actions
import OverlayTunnel.Proofs.Table.Effect

/-!
The tables that some history leads to: calls of reconcilers, requests of any kind, and failures that are
injected in between. A property of single links that a new link has, and that no change of a link takes
away, holds of every link of these tables.
-/
namespace OverlayTunnel

/-- How a request may change a link that stays in the table. -/
inductive LinkState.Change (name : String) : LinkState → LinkState → Prop
  | same (l : LinkState) : Change name l l
  | configured (l : LinkState) (setup : DeviceSetup) :
    Change name l { l with device := some (.configured name l.device setup) }
  | addressed (l : LinkState) (address : Network) : Change name l (l.addressed address)
  | mtu (l : LinkState) (mtu : UInt32) : Change name l { l with mtu }
  | up (l : LinkState) : Change name l { l with up := true }
  | routed (l : LinkState) (destination : Network) (up : l.up = true)
    (fresh : destination ∉ l.routes) :
    Change name l { l with routes := l.routes ++ [destination] }

namespace LinkState

theorem named_eq_ok {name : String} {link : Option LinkState} {l : LinkState}
    (h : named name link = .ok l) : link = some l := by
  cases link with
  | none => simp [named] at h
  | some old => simpa [named] using h

theorem held_eq_ok {handle : LinkHandle} {link : Option LinkState} {l : LinkState}
    (h : held handle link = .ok l) : link = some l ∧ l.index = handle.index := by
  cases link with
  | none => simp [held] at h
  | some old =>
    simp only [held] at h
    split at h
    next hi =>
      cases h
      exact ⟨rfl, hi⟩
    next => simp at h

theorem routed_eq_ok {handle : LinkHandle} {destination : Network} {l l' : LinkState}
    (h : routed handle destination l = .ok l') :
    l.up = true ∧ destination ∉ l.routes ∧
      l' = { l with routes := l.routes ++ [destination] } := by
  unfold routed at h
  split at h
  next => simp at h
  next hu =>
    split at h
    next => simp at h
    next hd =>
      cases h
      exact ⟨by simpa using hu, hd, rfl⟩

end LinkState

theorem map_eq_ok {ε α β : Type} {f : α → β} {x : Except ε α} {b : β}
    (h : x.map f = .ok b) : ∃ a, x = .ok a ∧ f a = b := by
  cases x with
  | error e => simp [Except.map] at h
  | ok a => exact ⟨a, rfl, by simpa [Except.map] using h⟩

/-- A link in the table after a request is new, or it was there and has changed. -/
theorem LinkRequest.effect_eq_ok {request : LinkRequest} {fresh : UInt32}
    {link : Option LinkState} {reply : request.Reply} {l' : LinkState}
    (h : request.effect fresh link = .ok (reply, some l')) :
    (link = none ∧ request.operation = .createWireguard ∧ l' = .new fresh) ∨
      ∃ l, link = some l ∧ LinkState.Change request.target l l' := by
  cases request with
  | createWireguard name =>
    obtain ⟨l, hl, he⟩ := map_eq_ok h
    cases link with
    | some old => simp [LinkState.created] at hl
    | none =>
      cases hl
      cases he
      exact .inl ⟨rfl, rfl, rfl⟩
  | device name =>
    obtain ⟨l, hl, he⟩ := map_eq_ok h
    have hs := LinkState.named_eq_ok hl
    cases hs
    cases he
    exact .inr ⟨_, rfl, .same _⟩
  | configureDevice name setup =>
    obtain ⟨l, hl, he⟩ := map_eq_ok h
    cases he
    exact .inr ⟨l, LinkState.named_eq_ok hl, .configured l setup⟩
  | linkByName name =>
    obtain ⟨l, hl, he⟩ := map_eq_ok h
    have hs := LinkState.named_eq_ok hl
    cases hs
    cases he
    exact .inr ⟨_, rfl, .same _⟩
  | replaceAddress handle address =>
    obtain ⟨l, hl, he⟩ := map_eq_ok h
    cases he
    exact .inr ⟨l, (LinkState.held_eq_ok hl).1, .addressed l address⟩
  | setMtu handle mtu =>
    obtain ⟨l, hl, he⟩ := map_eq_ok h
    cases he
    exact .inr ⟨l, (LinkState.held_eq_ok hl).1, .mtu l mtu⟩
  | setUp handle =>
    obtain ⟨l, hl, he⟩ := map_eq_ok h
    cases he
    exact .inr ⟨l, (LinkState.held_eq_ok hl).1, .up l⟩
  | addRoute handle destination =>
    obtain ⟨l, hl, he⟩ := map_eq_ok h
    cases he
    cases hh : LinkState.held handle link with
    | error e => simp [hh, Except.bind] at hl
    | ok old =>
      obtain ⟨hu, hd, rfl⟩ := LinkState.routed_eq_ok (by simpa [hh, Except.bind] using hl)
      exact .inr ⟨old, (LinkState.held_eq_ok hh).1, .routed old destination hu hd⟩
  | deleteLink handle =>
    obtain ⟨l, hl, he⟩ := map_eq_ok h
    cases he

namespace LinkTable

inductive Event where
  | call (c : Call)
  | failNext (operation : LinkOperation)
  | clearCalls

def step (t : LinkTable) : Event → LinkTable
  | .call c => ((c.run backend).run t).2
  | .failNext operation => t.failNext operation
  | .clearCalls => t.clearCalls

def after (events : List Event) : LinkTable :=
  events.foldl step empty

def Reachable (t : LinkTable) : Prop :=
  ∃ events, after events = t

theorem reachable_empty : Reachable empty :=
  ⟨[], rfl⟩

theorem reachable_step {t : LinkTable} (ht : t.Reachable) (event : Event) :
    (t.step event).Reachable := by
  obtain ⟨events, rfl⟩ := ht
  exact ⟨events ++ [event], by simp [after]⟩

/-- What holds of the empty table and is kept by every event holds of every reachable table. -/
theorem Reachable.induction {P : LinkTable → Prop} (hempty : P empty)
    (hstep : ∀ t event, P t → P (t.step event)) {t : LinkTable} (ht : t.Reachable) : P t := by
  obtain ⟨events, rfl⟩ := ht
  have hrun : ∀ s, P s → P (events.foldl step s) := by
    induction events with
    | nil => exact fun s hs => hs
    | cons event events ih => exact fun s hs => ih _ (hstep s event hs)
  exact hrun empty hempty

theorem keeps_not_pending (operation : LinkOperation) :
    backend.Keeps fun t => t.pending operation = false := by
  intro request t ht
  cases hrun : (backend.perform request).run.run t with
  | mk reply t' =>
    cases outcome_of_perform hrun with
    | injected _ => simp [relieved, recorded, ht]
    | refused _ _ => exact ht
    | granted _ _ => exact ht

theorem pending_step {t : LinkTable} {event : Event} {operation : LinkOperation}
    (h : (t.step event).pending operation = true) :
    t.pending operation = true ∨ event = .failNext operation := by
  cases event with
  | call c =>
    left
    cases hp : t.pending operation with
    | true => rfl
    | false =>
      have hp' := c.keeps_run (keeps_not_pending operation) t hp
      exact absurd (h.symm.trans hp') (by simp)
  | failNext other =>
    rcases Bool.or_eq_true_iff.mp h with he | hp
    · exact .inr (by rw [of_decide_eq_true he])
    · exact .inl hp
  | clearCalls => exact .inl h

/-- No failure is pending afterwards that was not pending before and is not injected. -/
theorem not_pending_foldl_step {events : List Event} {t : LinkTable} {operation : LinkOperation}
    (hp : t.pending operation = false) (h : .failNext operation ∉ events) :
    (events.foldl step t).pending operation = false := by
  induction events generalizing t with
  | nil => exact hp
  | cons event events ih =>
    refine ih ?_ fun hm => h (List.mem_cons_of_mem _ hm)
    apply Bool.eq_false_iff.mpr
    intro hstep
    rcases pending_step hstep with hbefore | rfl
    · rw [hp] at hbefore
      cases hbefore
    · exact h List.mem_cons_self

/-- A failure is pending only if it has been injected. -/
theorem failNext_mem_of_pending {events : List Event} {t : LinkTable} (ht : after events = t)
    {operation : LinkOperation} (h : t.pending operation = true) :
    .failNext operation ∈ events := by
  apply Classical.byContradiction
  intro hm
  have hp : t.pending operation = false := by
    rw [← ht]
    exact not_pending_foldl_step rfl hm
  rw [hp] at h
  cases h

theorem not_pending_of_history {events : List Event} {t : LinkTable} (ht : after events = t)
    (h : ∀ operation, .failNext operation ∉ events) (operation : LinkOperation) :
    t.pending operation = false := by
  apply Bool.eq_false_iff.mpr
  intro hp
  exact h operation (failNext_mem_of_pending ht hp)

def AllLinks (P : String → LinkState → Prop) (t : LinkTable) : Prop :=
  ∀ name l, t.links name = some l → P name l

variable {P : String → LinkState → Prop}

theorem AllLinks.updated {t : LinkTable} (ht : t.AllLinks P) (request : LinkRequest)
    {link : Option LinkState} (hl : ∀ l, link = some l → P request.target l) :
    (t.updated request link).AllLinks P := by
  intro name l h
  by_cases hn : name = request.target
  · subst hn
    exact hl l (by simpa [LinkTable.updated] using h)
  · exact ht name l (by simpa [LinkTable.updated, hn] using h)

/-- A request keeps a property of links that a new link has and that no change takes away. -/
theorem keeps_allLinks (hnew : ∀ name index, P name (.new index))
    (hchange : ∀ name l l', P name l → LinkState.Change name l l' → P name l') :
    backend.Keeps (AllLinks P) := by
  intro request t ht
  cases hrun : (backend.perform request).run.run t with
  | mk reply t' =>
    have hrecorded : (t.recorded request.operation).AllLinks P := ht
    cases outcome_of_perform hrun with
    | injected _ => exact ht
    | refused _ _ => exact ht
    | granted _ he =>
      apply hrecorded.updated request
      intro l hl
      subst hl
      rcases LinkRequest.effect_eq_ok he with ⟨_, _, rfl⟩ | ⟨old, hold, hc⟩
      · exact hnew _ _
      · exact hchange _ old l (ht _ old hold) hc

theorem Reachable.allLinks (hnew : ∀ name index, P name (.new index))
    (hchange : ∀ name l l', P name l → LinkState.Change name l l' → P name l')
    {t : LinkTable} (ht : t.Reachable) : t.AllLinks P := by
  refine Reachable.induction ?_ ?_ ht
  · intro name l h
    simp [empty] at h
  · intro t event ht
    cases event with
    | call c => exact c.keeps_run (keeps_allLinks hnew hchange) t ht
    | failNext operation => exact ht
    | clearCalls => exact ht

/-- No link of a reachable table has a route twice. -/
theorem Reachable.routes_nodup {t : LinkTable} (ht : t.Reachable) {name : String} {l : LinkState}
    (h : t.links name = some l) : l.routes.Nodup := by
  have hall : t.AllLinks fun _ l => l.routes.Nodup := by
    refine Reachable.allLinks (fun _ _ => List.nodup_nil) ?_ ht
    intro name l l' hl hc
    cases hc with
    | routed destination hu hd => exact nodup_append_singleton hl hd
    | _ => exact hl
  exact hall name l h

end LinkTable

end OverlayTunnel
