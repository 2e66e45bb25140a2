import OverlayTunnel.Proofs.Reconciler.BringUp

/-!
Failures that are pending cost one call each, in the order of the steps. The call after them reaches
what the first one would have reached had nothing been pending.
-/
namespace OverlayTunnel.Reconciler

open LinkTable

variable {r : Reconciler} {setup : DeviceSetup} {ms : List Member} {t t' : LinkTable}

/-- The steps of a call whose failure is pending, in order. All routes are added by the same operation,
so the first of them stands for the others. -/
def owed (ms : List Member) (t : LinkTable) : List Step :=
  (linkSteps ++ (routeSteps ms).take 1).filter fun s => t.pending s.operation

theorem firstPending_take_routeSteps (ms : List Member) (t : LinkTable) :
    firstPending ((routeSteps ms).take 1) t = firstPending (routeSteps ms) t := by
  cases ms with
  | nil => rfl
  | cons m ms =>
    cases hp : t.pending .addRoute with
    | true => simp [firstPending, routeSteps, hp]
    | false =>
      have hroute : ∀ s ∈ routeSteps (m :: ms), t.pending s.operation = false := by
        intro s hs
        obtain ⟨m', -, rfl⟩ := List.mem_map.mp hs
        exact hp
      rw [firstPending_eq_none hroute]
      exact firstPending_eq_none fun s hs => hroute s (List.mem_of_mem_take hs)

theorem head?_owed (ms : List Member) (t : LinkTable) :
    (owed ms t).head? = firstPending (linkSteps ++ routeSteps ms) t := by
  have hroutes := firstPending_take_routeSteps ms t
  unfold firstPending at hroutes ⊢
  rw [owed, List.head?_filter, List.find?_append, List.find?_append, hroutes]

theorem nodup_operations (ms : List Member) :
    ((linkSteps ++ (routeSteps ms).take 1).map Step.operation).Nodup := by
  cases ms with
  | nil => decide
  | cons m ms =>
    change [LinkOperation.createWireguard, .configureDevice, .linkByName, .replaceAddress, .setMtu,
      .setUp, .addRoute].Nodup
    decide

/-- Using up the first failure leaves the others. -/
theorem owed_of_relieved {s : Step} {rest : List Step} (h : owed ms t = s :: rest)
    (ht : t'.pending = (t.relieved s.operation).pending) : owed ms t' = rest := by
  have hnodup : ((s :: rest).map Step.operation).Nodup := by
    rw [← h]
    exact (nodup_operations ms).sublist (List.filter_sublist.map _)
  have hs : ∀ x ∈ rest, x.operation ≠ s.operation := by
    intro x hx he
    exact (List.nodup_cons.mp hnodup).1 (he ▸ List.mem_map_of_mem hx)
  calc owed ms t'
    _ = (owed ms t).filter fun x => x.operation ≠ s.operation := by
      simp only [owed, ht, relieved, List.filter_filter]
    _ = rest := by
      rw [h, List.filter_cons_of_neg (by simp)]
      exact List.filter_eq_self.mpr fun x hx => by simpa using hs x hx

theorem runAll_bringUp (hs : r.setup ms = .ok setup) {steps : List Step} (h : owed ms t = steps) :
    ∃ t', (Call.runAll backend (List.replicate (steps.length + 1) (.bringUp r ms))).run t =
        (steps.map (fun s => .failed (s.failure r)) ++ [.done], t') ∧
      (t'.links, t'.lastIndex) = r.outcome setup ms t := by
  -- Each call that fails uses up the first of the failures and keeps the outcome.
  induction steps generalizing t with
  | nil =>
    have hp : firstPending (linkSteps ++ routeSteps ms) t = none := by rw [← head?_owed, h]; rfl
    obtain ⟨t', hrun, -, hg⟩ := bringUp_eq_ok hs hp
    refine ⟨t', ?_, hg⟩
    rw [List.length_nil, List.replicate_one, Call.runAll_cons, Call.run_bringUp, hrun]
    rfl
  | cons s steps ih =>
    have hp : firstPending (linkSteps ++ routeSteps ms) t = some s := by rw [← head?_owed, h]; rfl
    obtain ⟨t₁, hrun, hpending, hg₁⟩ := bringUp_eq_error hs hp
    obtain ⟨t', hrest, hg⟩ := ih (owed_of_relieved h hpending)
    refine ⟨t', ?_, hg.trans hg₁⟩
    rw [List.length_cons, List.replicate_succ, Call.runAll_cons, Call.run_bringUp, hrun, hrest]
    rfl

theorem setup_not_ok {m : Member} (hm : m ∈ ms) (hk : m.key? = none) : r.setup ms ≠ .ok setup := by
  intro hs
  obtain ⟨key, hkey⟩ := setup_isOk_iff.mp ⟨setup, hs⟩ m hm
  rw [hk] at hkey
  cases hkey

/-- A call that is repeated fails once for each step whose failure is pending, in the order of the
steps, and then leaves the links as one call would have without these failures. With a key that cannot
be read it never succeeds. -/
theorem bringUp_recovers (r : Reconciler) (ms : List Member) :
    ((∀ m ∈ ms, ∃ key, m.key? = some key) → ∀ t : LinkTable, ∃ t' u,
      (Call.runAll backend (List.replicate ((owed ms t).length + 1) (.bringUp r ms))).run t =
        ((owed ms t).map (fun s => .failed (s.failure r)) ++ [.done], t') ∧
      ((Call.bringUp r ms).run backend).run { t with pending := fun _ => false } = (.done, u) ∧
      t'.links = u.links ∧ t'.lastIndex = u.lastIndex ∧
      ∀ s ∈ owed ms t, (s.failure r).isRetryable = true ∧ (s.failure r).phase? = some s.phase) ∧
    ((∃ m ∈ ms, m.key? = none) → ∀ t : LinkTable,
      (((Call.bringUp r ms).run backend).run t).1 ≠ .done) := by
  constructor
  · intro hkeys t
    obtain ⟨setup, hs⟩ := setup_isOk_iff.mpr hkeys
    obtain ⟨t', hrun, hg⟩ := runAll_bringUp hs (t := t) rfl
    obtain ⟨u, hu, -, hgu⟩ := bringUp_eq_ok hs (t := { t with pending := fun _ => false })
      (firstPending_eq_none fun _ _ => rfl)
    have hsame : (t'.links, t'.lastIndex) = (u.links, u.lastIndex) := hg.trans hgu.symm
    obtain ⟨hlinks, hindex⟩ := Prod.mk.inj hsame
    refine ⟨t', u, hrun, ?_, hlinks, hindex, fun _ _ => ⟨rfl, rfl⟩⟩
    rw [Call.run_bringUp, hu]
    rfl
  · rintro ⟨m, hm, hk⟩ t hdone
    rw [Call.run_bringUp] at hdone
    rcases hrun : (r.bringUp backend ms).run.run t with ⟨_ | _, t'⟩
    · rw [hrun] at hdone
      cases hdone
    · obtain ⟨setup, hs⟩ := setup_of_bringUp hrun
      exact setup_not_ok hm hk hs

/-- Three failures are pending for the sample node, and a member without a key joins. -/
theorem bringUp_recovers_sample :
    let r := sampleNode 0x0A010203 sampleKey
    let m := sampleMember 0x0A010204
    let t := ((LinkTable.empty.failNext .addRoute).failNext .configureDevice).failNext .setMtu
    (∃ t' u,
      (Call.runAll backend (List.replicate 4 (.bringUp r [m]))).run t =
        ([.failed (.link .configureDevice r.interface (.injected "ConfigureDevice")),
          .failed (.link .setMtu r.interface (.injected "SetMtu")),
          .failed (.link (.addRoute (routeTo m)) r.interface (.injected "AddRoute")), .done], t') ∧
      ((Call.bringUp r [m]).run backend).run { t with pending := fun _ => false } = (.done, u) ∧
      t'.links = u.links ∧ t'.lastIndex = u.lastIndex) ∧
    (((Call.bringUp r [m, { m with publicKey := "" }]).run backend).run t).1 ≠ .done := by
  intro r m t
  constructor
  · have hkeys : ∀ m' ∈ [m], ∃ key, m'.key? = some key := by
      intro m' hm'
      rw [List.mem_singleton.mp hm']
      exact ⟨_, Member.key?_eq_some_iff.mpr ofText_sampleText⟩
    have howed : owed [m] t = [⟨.configureDevice, .configureDevice⟩, ⟨.setMtu, .setMtu⟩,
        ⟨.addRoute, .addRoute (routeTo m)⟩] := rfl
    obtain ⟨t', u, hrun, hu, hlinks, hindex, -⟩ := (bringUp_recovers r [m]).1 hkeys t
    rw [howed] at hrun
    exact ⟨t', u, hrun, hu, hlinks, hindex⟩
  · exact (bringUp_recovers r _).2 ⟨{ m with publicKey := "" }, by simp, toOption_ofText_empty⟩ t

end OverlayTunnel.Reconciler
