import OverlayTunnel.Proofs.Reconciler.Logging
import OverlayTunnel.Proofs.Table.Transition

/-!
How many links a history creates. As long as there are fewer of them than indices, the last index is
their number, and no two links have the same index.
-/
namespace OverlayTunnel

def Exchange.creates (e : Exchange) : Bool :=
  e.request.operation = .createWireguard && e.reply.isOk

theorem Exchange.creates_error (q : LinkRequest) (e : LinkFailure) :
    (Exchange.mk q (.error e)).creates = false := by
  simp [creates, Except.isOk, Except.toBool]

theorem Exchange.creates_ok (q : LinkRequest) (reply : q.Reply) :
    (Exchange.mk q (.ok reply)).creates = decide (q.operation = .createWireguard) := by
  simp [creates, Except.isOk, Except.toBool]

namespace LinkTable

/-! ### The requests of a history -/

/-- A step that also keeps the requests and their replies. -/
def loggedStep : LinkTable × List Exchange → Event → LinkTable × List Exchange
  | s, .call c => ((c.run backend.logging).run s).2
  | (t, log), .failNext operation => (t.failNext operation, log)
  | (t, log), .clearCalls => (t.clearCalls, log)

/-- All requests of a history with the replies to them. -/
def exchanges (events : List Event) : List Exchange :=
  (events.foldl loggedStep (empty, [])).2

/-- The number of links that a history creates. -/
def created (events : List Event) : Nat :=
  (exchanges events).countP Exchange.creates

theorem foldl_loggedStep (events : List Event) (t : LinkTable) (log : List Exchange) :
    ∃ new, events.foldl loggedStep (t, log) = (events.foldl step t, log ++ new) := by
  induction events generalizing t log with
  | nil => exact ⟨[], by simp⟩
  | cons event events ih =>
    have hstep : ∃ new, loggedStep (t, log) event = (t.step event, log ++ new) := by
      cases event with
      | call c =>
        obtain ⟨new, hrun⟩ := c.run_logging backend t log
        exact ⟨new, by rw [loggedStep, hrun]; rfl⟩
      | failNext operation => exact ⟨[], by simp [loggedStep, step]⟩
      | clearCalls => exact ⟨[], by simp [loggedStep, step]⟩
    obtain ⟨new, hstep⟩ := hstep
    obtain ⟨later, hrun⟩ := ih (t.step event) (log ++ new)
    exact ⟨new ++ later, by rw [List.foldl_cons, hstep, hrun, List.foldl_cons, List.append_assoc]⟩

theorem foldl_loggedStep_empty (events : List Event) :
    events.foldl loggedStep (empty, []) = (after events, exchanges events) := by
  obtain ⟨new, hrun⟩ := foldl_loggedStep events empty []
  rw [exchanges, hrun]
  rfl

/-- The longer a history, the more links it has created. -/
theorem created_le_of_isPrefix {earlier events : List Event} (h : earlier <+: events) :
    created earlier ≤ created events := by
  obtain ⟨later, rfl⟩ := h
  obtain ⟨new, hrun⟩ := foldl_loggedStep later (after earlier) (exchanges earlier)
  have hexchanges : exchanges (earlier ++ later) = exchanges earlier ++ new := by
    rw [exchanges, List.foldl_append, foldl_loggedStep_empty, hrun]
  rw [created, created, hexchanges, List.countP_append]
  omega

/-! ### Indices -/

/-- A table in which the links that were ever created have been numbered. -/
structure Numbered (t : LinkTable) (n : Nat) : Prop where
  lastIndex : t.lastIndex.toNat = n
  bounds : ∀ name l, t.links name = some l → 1 ≤ l.index.toNat ∧ l.index.toNat ≤ n
  distinct : ∀ name other l m, t.links name = some l → t.links other = some m →
    l.index = m.index → name = other

variable {t t' : LinkTable} {n : Nat}

/-- Where no link is new, the indices are as good as before. -/
theorem Numbered.of_old (h : Numbered t n) (hlast : t'.lastIndex = t.lastIndex)
    (hold : ∀ name l', t'.links name = some l' →
      ∃ l, t.links name = some l ∧ l'.index = l.index) : Numbered t' n where
  lastIndex := by rw [hlast, h.lastIndex]
  bounds := by
    intro name l' hl'
    obtain ⟨l, hl, hindex⟩ := hold name l' hl'
    rw [hindex]
    exact h.bounds name l hl
  distinct := by
    intro name other l' m' hl' hm' hsame
    obtain ⟨l, hl, hindex⟩ := hold name l' hl'
    obtain ⟨m, hm, hindex'⟩ := hold other m' hm'
    exact h.distinct name other l m hl hm (by rw [← hindex, ← hindex', hsame])

/-- A new link gets an index above all that there are. -/
theorem Numbered.create (h : Numbered t n) (hn : n + 1 < 2 ^ (32 : Nat)) {name : String}
    (hlinks : t'.links = t.links.set name (some (.new (t.lastIndex + 1))))
    (hlast : t'.lastIndex = t.lastIndex + 1) : Numbered t' (n + 1) := by
  have hfresh : (t.lastIndex + 1).toNat = n + 1 := by
    rw [UInt32.toNat_add, h.lastIndex]
    exact Nat.mod_eq_of_lt hn
  have hcases : ∀ other l', t'.links other = some l' →
      (other = name ∧ l'.index.toNat = n + 1) ∨ (other ≠ name ∧ t.links other = some l') := by
    intro other l' hl'
    rw [hlinks] at hl'
    by_cases hother : other = name
    · subst hother
      rw [Links.set_self] at hl'
      cases hl'
      exact .inl ⟨rfl, hfresh⟩
    · rw [Links.set_other _ _ hother] at hl'
      exact .inr ⟨hother, hl'⟩
  constructor
  · rw [hlast, hfresh]
  · intro other l' hl'
    rcases hcases other l' hl' with ⟨-, hindex⟩ | ⟨-, hl⟩
    · omega
    · have hb := h.bounds other l' hl
      omega
  · intro first second l m hl hm hsame
    have hsame : l.index.toNat = m.index.toNat := by rw [hsame]
    rcases hcases first l hl with ⟨hfirst, hi⟩ | ⟨-, hl⟩
    · rcases hcases second m hm with ⟨hsecond, -⟩ | ⟨-, hm⟩
      · rw [hfirst, hsecond]
      · have hb := h.bounds second m hm
        omega
    · rcases hcases second m hm with ⟨-, hi⟩ | ⟨-, hm⟩
      · have hb := h.bounds first l hl
        omega
      · exact h.distinct first second l m hl hm (UInt32.toNat_inj.mp hsame)

theorem Numbered.of_set (h : Numbered t n) {name : String} {l : LinkState} {link : Option LinkState}
    (hl : t.links name = some l) (hlink : ∀ l', link = some l' → l'.index = l.index)
    (hlinks : t'.links = t.links.set name link) (hlast : t'.lastIndex = t.lastIndex) :
    Numbered t' n := by
  apply h.of_old hlast
  intro other l' hl'
  rw [hlinks] at hl'
  by_cases hother : other = name
  · subst hother
    rw [Links.set_self] at hl'
    exact ⟨l, hl, hlink l' hl'⟩
  · rw [Links.set_other _ _ hother] at hl'
    exact ⟨l', hl', rfl⟩

/-- One request: the number of links grows exactly if it creates one. -/
theorem Numbered.perform {q : LinkRequest} {reply : Except LinkFailure q.Reply} (h : Numbered t n)
    (hrun : (backend.perform q).run.run t = (reply, t'))
    (hn : n + (if (Exchange.mk q reply).creates then 1 else 0) < 2 ^ (32 : Nat)) :
    Numbered t' (n + if (Exchange.mk q reply).creates then 1 else 0) := by
  cases transition_of_perform hrun with
  | refused links lastIndex =>
    rw [Exchange.creates_error, if_neg (by simp)]
    exact h.of_old lastIndex fun name l' hl' => ⟨l', by rw [← links, hl'], rfl⟩
  | read reads links lastIndex =>
    have hother := (LinkRequest.operation_ne_of_reads reads).1
    rw [Exchange.creates_ok, if_neg (by simpa using hother)]
    exact h.of_old lastIndex fun name l' hl' => ⟨l', by rw [← links, hl'], rfl⟩
  | created operation absent links lastIndex =>
    rw [Exchange.creates_ok, if_pos (by simpa using operation)] at hn ⊢
    exact h.create hn links lastIndex
  | changed operation _ present change links lastIndex =>
    rw [Exchange.creates_ok, if_neg (by simpa using operation)]
    apply h.of_set present ?_ links lastIndex
    rintro _ ⟨⟩
    exact change.index_eq
  | deleted operation present links lastIndex =>
    rw [Exchange.creates_ok, if_neg (by simp [operation])]
    apply h.of_set present ?_ links lastIndex
    intro l' hl'
    cases hl'

/-- The links of a log with fewer creations than indices are numbered. -/
def CountedBy (s : LinkTable × List Exchange) : Prop :=
  s.2.countP Exchange.creates < 2 ^ (32 : Nat) → Numbered s.1 (s.2.countP Exchange.creates)

theorem keeps_countedBy : backend.logging.Keeps CountedBy := by
  rintro q ⟨t, log⟩ h
  rw [Backend.run_logging]
  cases hrun : (backend.perform q).run.run t with
  | mk reply t' =>
    intro hn
    have hcount : (log ++ [Exchange.mk q reply]).countP Exchange.creates =
        log.countP Exchange.creates + if (Exchange.mk q reply).creates then 1 else 0 := by
      rw [List.countP_append, List.countP_singleton]
    change (log ++ [Exchange.mk q reply]).countP Exchange.creates < _ at hn
    change Numbered t' ((log ++ [Exchange.mk q reply]).countP Exchange.creates)
    rw [hcount] at hn ⊢
    have hbefore : log.countP Exchange.creates < 2 ^ (32 : Nat) := by omega
    exact (h hbefore).perform hrun hn

theorem countedBy_foldl_loggedStep (events : List Event) {s : LinkTable × List Exchange}
    (h : CountedBy s) : CountedBy (events.foldl loggedStep s) := by
  induction events generalizing s with
  | nil => exact h
  | cons event events ih =>
    apply ih
    cases event with
    | call c => exact c.keeps_run keeps_countedBy s h
    | failNext operation => exact fun hn => (h hn).of_old rfl fun _ l hl => ⟨l, hl, rfl⟩
    | clearCalls => exact fun hn => (h hn).of_old rfl fun _ l hl => ⟨l, hl, rfl⟩

/-- As long as the indices do not run out, the links of a history are numbered. -/
theorem numbered_after {events : List Event} (h : created events < 2 ^ (32 : Nat)) :
    Numbered (after events) (created events) := by
  have hempty : CountedBy (empty, []) := fun _ => ⟨rfl, nofun, nofun⟩
  have hrun := countedBy_foldl_loggedStep events hempty
  rw [foldl_loggedStep_empty] at hrun
  exact hrun h

end LinkTable

end OverlayTunnel
