import Mathlib.Data.List.Forall2

/-!
Computations that may fail, one after the other and for the elements of a list: a list is translated one
to one, and the first element that fails decides.
-/
namespace OverlayTunnel

variable {ε α β : Type} {f : α → Except ε β} {as : List α}

/-! ### Sequences of two -/

theorem bind_eq_ok {x : Except ε α} {b : β} (h : (x >>= f) = .ok b) :
    ∃ a, x = .ok a ∧ f a = .ok b := by
  cases x with
  | error e => cases h
  | ok a => exact ⟨a, rfl, h⟩

/-- What fails in a sequence is its first part, or the second with what came of the first. -/
theorem bind_eq_error {x : Except ε α} {e : ε} (h : (x >>= f) = .error e) :
    x = .error e ∨ ∃ a, x = .ok a ∧ f a = .error e := by
  cases x with
  | error e' =>
    cases h
    exact .inl rfl
  | ok a => exact .inr ⟨a, rfl, h⟩

/-! ### Lists -/

theorem mapM_eq_ok_iff {bs : List β} : as.mapM f = .ok bs ↔ as.map f = bs.map .ok := by
  induction as generalizing bs with
  | nil => cases bs <;> simp [pure, Except.pure]
  | cons a as ih =>
    rw [List.mapM_cons]
    cases ha : f a with
    | error e => cases bs <;> simp [bind, Except.bind, ha]
    | ok b =>
      cases has : as.mapM f with
      | error e =>
        have hne : ∀ bs : List β, as.map f ≠ bs.map .ok := by
          intro bs h
          rw [ih.mpr h] at has
          cases has
        cases bs <;> simp [bind, Except.bind, ha, hne]
      | ok bs' =>
        have hbs : as.map f = bs'.map .ok := ih.mp has
        cases bs with
        | nil => simp [bind, Except.bind, pure, Except.pure]
        | cons c cs =>
          simp only [bind, Except.bind, pure, Except.pure, List.map_cons, ha, Except.ok.injEq,
            List.cons.injEq, hbs]
          rw [List.map_inj_right fun _ _ => Except.ok.inj]

/-- The first element that fails decides. -/
theorem mapM_eq_error {before later : List α} {a : α} {e : ε}
    (hbefore : ∀ b ∈ before, ∃ c, f b = .ok c) (ha : f a = .error e) :
    (before ++ a :: later).mapM f = .error e := by
  induction before with
  | nil =>
    rw [List.nil_append, List.mapM_cons, ha]
    rfl
  | cons b before ih =>
    obtain ⟨c, hc⟩ := hbefore b List.mem_cons_self
    have hrest := ih fun b' hb' => hbefore b' (List.mem_cons_of_mem _ hb')
    rw [List.cons_append, List.mapM_cons, hc, hrest]
    rfl

theorem mapM_eq_ok_iff_forall₂ {bs : List β} :
    as.mapM f = .ok bs ↔ List.Forall₂ (fun a b => f a = .ok b) as bs := by
  rw [mapM_eq_ok_iff, ← List.forall₂_eq_eq_eq, List.forall₂_map_left_iff, List.forall₂_map_right_iff]

theorem mapM_isOk_iff : (∃ bs, as.mapM f = .ok bs) ↔ ∀ a ∈ as, ∃ b, f a = .ok b := by
  constructor
  · rintro ⟨bs, h⟩ a ha
    have hmem : f a ∈ bs.map Except.ok := by
      rw [← mapM_eq_ok_iff.mp h]
      exact List.mem_map_of_mem ha
    obtain ⟨b, -, hb⟩ := List.mem_map.mp hmem
    exact ⟨b, hb.symm⟩
  · intro h
    induction as with
    | nil => exact ⟨[], rfl⟩
    | cons a as ih =>
      obtain ⟨⟨b, hb⟩, has⟩ := List.forall_mem_cons.mp h
      obtain ⟨bs, hbs⟩ := ih has
      refine ⟨b :: bs, ?_⟩
      rw [List.mapM_cons, hb, hbs]
      rfl

/-- A list that is not all good is split at its first bad element. -/
theorem exists_first_error (h : ¬ ∀ a ∈ as, ∃ b, f a = .ok b) :
    ∃ before a later e, as = before ++ a :: later ∧ (∀ b ∈ before, ∃ c, f b = .ok c) ∧
      f a = .error e := by
  induction as with
  | nil => simp at h
  | cons a as ih =>
    cases ha : f a with
    | error e => exact ⟨[], a, as, e, rfl, by simp, ha⟩
    | ok c =>
      have has : ¬ ∀ a ∈ as, ∃ b, f a = .ok b :=
        fun has => h (List.forall_mem_cons.mpr ⟨⟨c, ha⟩, has⟩)
      obtain ⟨before, a', later, e, rfl, hbefore, ha'⟩ := ih has
      exact ⟨a :: before, a', later, e, rfl, List.forall_mem_cons.mpr ⟨⟨c, ha⟩, hbefore⟩, ha'⟩

theorem mapM_eq_error_iff {e : ε} :
    as.mapM f = .error e ↔ ∃ before a later, as = before ++ a :: later ∧
      (∀ b ∈ before, ∃ c, f b = .ok c) ∧ f a = .error e := by
  constructor
  · intro h
    have hbad : ¬ ∀ a ∈ as, ∃ b, f a = .ok b := by
      intro hgood
      obtain ⟨bs, hbs⟩ := mapM_isOk_iff.mpr hgood
      rw [hbs] at h
      cases h
    obtain ⟨before, a, later, e', rfl, hbefore, ha⟩ := exists_first_error hbad
    rw [mapM_eq_error hbefore ha] at h
    cases h
    exact ⟨before, a, later, rfl, hbefore, ha⟩
  · rintro ⟨before, a, later, rfl, hbefore, ha⟩
    exact mapM_eq_error hbefore ha

end OverlayTunnel
