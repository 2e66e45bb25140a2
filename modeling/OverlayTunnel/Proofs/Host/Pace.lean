import OverlayTunnel.Proofs.Host.Account

/-!
The tool check as an automaton. Each step of a session takes it from one answer to the next, and no step
takes an answer back.
-/
namespace OverlayTunnel

open HostLinks (probe Ran Checked LookedUp Reads Resets Applied Configures Does Accounts)

/-! ### What a step is -/

namespace HostStep

/-- Whether a program is run, also if it does not start. -/
def runs (program : Program) : HostStep → Bool
  | .ran i _ => i.program = program
  | _ => false

/-- The tool was looked for and found. -/
def Finds (step : HostStep) : Prop :=
  ∃ o, step = .ran probe o ∧ o.Succeeds

/-- The tool was looked for and not found, or there was no way to look for it. -/
def Misses (step : HostStep) : Prop :=
  ∃ o, step = .ran probe o ∧ ¬ o.Succeeds

end HostStep

/-! ### The pace of the tool check -/

/-- How one step changes the answer of the tool check, and what answer it needs. -/
inductive Pace : Option Bool → HostStep → Option Bool → Prop
  | probe (o : Outcome) : Pace none (.ran probe o) (some o.isSuccess)
  | tool (arguments : List Argument) (o : Outcome) :
    Pace (some true) (.ran ⟨.wg, arguments⟩ o) (some true)
  | other (c : Option Bool) {step : HostStep} (hwhich : step.runs .which = false)
    (hwg : step.runs .wg = false) : Pace c step c

inductive Paced : Option Bool → List HostStep → Option Bool → Prop
  | nil (c : Option Bool) : Paced c [] c
  | cons {c c₁ c₂ : Option Bool} {step : HostStep} {steps : List HostStep} (first : Pace c step c₁)
    (rest : Paced c₁ steps c₂) : Paced c (step :: steps) c₂

namespace Paced

variable {c c' c₁ : Option Bool} {answer : Bool} {step : HostStep} {steps later : List HostStep}

theorem single (h : Pace c step c') : Paced c [step] c' :=
  .cons h (.nil c')

theorem append (h : Paced c steps c₁) (h' : Paced c₁ later c') : Paced c (steps ++ later) c' := by
  induction h with
  | nil => exact h'
  | cons first _ ih => exact .cons first (ih h')

/-- An answer is for good. -/
theorem eq_of_some (h : Paced c steps c') (hc : c = some answer) : c' = some answer := by
  induction h with
  | nil => exact hc
  | cons first _ ih =>
    apply ih
    cases first with
    | probe => cases hc
    | tool => exact hc
    | other => exact hc

theorem countP_probes (h : Paced c steps c') :
    steps.countP (·.runs .which) + (if c.isSome then 1 else 0) ≤ 1 := by
  induction h with
  | nil c => cases c <;> simp
  | cons first _ ih =>
    rw [List.countP_cons]
    cases first with
    | probe o => simpa [HostStep.runs, probe] using ih
    | tool => simpa [HostStep.runs] using ih
    | other _ hwhich => simpa [hwhich] using ih

/-- What the tool is used for comes after it was found, unless it had been found before. -/
theorem finds_before {before : List HostStep} (h : Paced c (before ++ step :: later) c')
    (hruns : step.runs .wg = true) : c = some true ∨ ∃ p ∈ before, p.Finds := by
  induction before generalizing c with
  | nil =>
    cases h with
    | cons first _ =>
      cases first with
      | probe => cases hruns
      | tool => exact .inl rfl
      | other _ _ hwg =>
        rw [hwg] at hruns
        cases hruns
  | cons p before ih =>
    cases h with
    | cons first rest =>
      rcases ih rest with hc | ⟨q, hq, hfinds⟩
      · cases first with
        | probe o =>
          right
          exact ⟨_, List.mem_cons_self, o, rfl, Outcome.isSuccess_iff.mp (Option.some.inj hc)⟩
        | tool => exact .inl rfl
        | other => exact .inl hc
      · exact .inr ⟨q, List.mem_cons_of_mem p hq, hfinds⟩

theorem eq_of_misses (h : Paced c steps c') (hstep : step ∈ steps) (hmisses : step.Misses) :
    c' = some false := by
  induction h with
  | nil => cases hstep
  | cons first rest ih =>
    rcases List.mem_cons.mp hstep with rfl | hstep
    · obtain ⟨o, rfl, ho⟩ := hmisses
      rw [← Outcome.isSuccess_iff, Bool.not_eq_true] at ho
      cases first with
      | probe => exact rest.eq_of_some (congrArg some ho)
      | other _ hwhich => cases hwhich
    · exact ih hstep

theorem eq_of_runs (h : Paced c steps c') (hstep : step ∈ steps) (hruns : step.runs .wg = true) :
    c' = some true := by
  induction h with
  | nil => cases hstep
  | cons first rest ih =>
    rcases List.mem_cons.mp hstep with rfl | hstep
    · cases first with
      | probe => cases hruns
      | tool => exact rest.eq_of_some rfl
      | other _ _ hwg =>
        rw [hwg] at hruns
        cases hruns
    · exact ih hstep

end Paced

/-! ### The pace of requests -/

section

variable {c c' : Option Bool} {answer : Bool} {steps : List HostStep} {name : String}
  {setup : DeviceSetup}

theorem HostLinks.Ran.exists_eq {i : Invocation} {output : Except LinkFailure String}
    (h : Ran i output steps) : ∀ step ∈ steps, ∃ o, step = .ran i o := by
  cases h with
  | unpassable => nofun
  | ended _ o =>
    intro step hstep
    exact ⟨o, List.mem_singleton.mp hstep⟩

theorem HostLinks.Ran.paced {i : Invocation} {output : Except LinkFailure String}
    (h : Ran i output steps) (hi : ∀ o, Pace c (.ran i o) c) : Paced c steps c := by
  cases h with
  | unpassable => exact .nil c
  | ended _ o => exact .single (hi o)

theorem HostLinks.Checked.paced (h : Checked c answer steps) : Paced c steps (some answer) := by
  cases h with
  | known => exact .nil _
  | asked o => exact .single (.probe o)

theorem HostLinks.LookedUp.paced {reply : Except LinkFailure LinkHandle}
    (h : LookedUp name reply steps) : Paced c steps c := by
  obtain ⟨output, hran, -⟩ := h
  exact hran.paced fun _ => .other c rfl rfl

theorem HostLinks.Reads.paced {reply : Except LinkFailure Device} (h : Reads name c reply steps c') :
    Paced c steps c' := by
  cases h with
  | absent hlink => exact hlink.paced
  | lacking hlink hcheck => exact hlink.paced.append hcheck.paced
  | shown hlink hcheck hshown =>
    exact hlink.paced.append (hcheck.paced.append (hshown.paced fun o => .tool _ o))

theorem HostLinks.Resets.paced {ps : List TunnelPeer} {reply : Except LinkFailure Unit}
    (h : Resets name ps reply steps) : Paced (some true) steps (some true) := by
  induction h with
  | done => exact .nil _
  | past hran _ ih => exact (hran.paced fun o => .tool _ o).append ih
  | stop hran => exact hran.paced fun o => .tool _ o

theorem HostLinks.Applied.paced {reply : Except LinkFailure Unit} (h : Applied name setup reply steps) :
    Paced (some true) steps (some true) := by
  cases h with
  | refused hran => exact hran.paced fun o => .tool _ o
  | taken hran hresets => exact (hran.paced fun o => .tool _ o).append hresets.paced

theorem HostLinks.Configures.paced {reply : Except LinkFailure Unit}
    (h : Configures name setup c reply steps c') : Paced c steps c' := by
  cases h with
  | lacking hcheck => exact hcheck.paced
  | unwritten hcheck reason => exact hcheck.paced.append (.single (.other _ rfl rfl))
  | written hcheck _ happlied =>
    refine hcheck.paced.append (.cons (.other _ rfl rfl) (happlied.paced.append (.single ?_)))
    exact .other _ rfl rfl

theorem HostLinks.Does.paced {q : LinkRequest} {reply : Except LinkFailure q.Reply}
    (h : Does q c reply steps c') : Paced c steps c' := by
  cases q with
  | device name => exact Reads.paced h
  | configureDevice name setup => exact Configures.paced h
  | linkByName name =>
    obtain ⟨rfl, hlink⟩ := h
    exact hlink.paced
  | _ =>
    obtain ⟨rfl, arguments, output, hran⟩ := h
    exact hran.paced fun _ => .other c' rfl rfl

end

/-! ### Sessions -/

namespace HostLinks.Accounts

variable {deeds : List Deed} {c : Option Bool} {d : Deed}

theorem paced (h : Accounts deeds c) : Paced none (deeds.flatMap Deed.steps) c := by
  induction h with
  | start => exact .nil none
  | deed _ hdoes ih =>
    rw [List.flatMap_append, List.flatMap_singleton]
    exact ih.append hdoes.paced

/-- A request that knows an answer of the tool check knows the answer of the whole session. -/
theorem exists_does (h : Accounts deeds c) (hd : d ∈ deeds) :
    ∃ c₁ c₂, Does d.request c₁ d.reply d.steps c₂ ∧ (c₂ = none ∨ c₂ = c) := by
  induction h with
  | start => cases hd
  | @deed deeds c c' last _ hdoes ih =>
    rcases List.mem_append.mp hd with hd | hd
    · obtain ⟨c₁, c₂, hdoes₂, hc₂⟩ := ih hd
      refine ⟨c₁, c₂, hdoes₂, ?_⟩
      -- Requests after the one in question change no answer that there was before them.
      cases c with
      | none => exact .inl (or_self_iff.mp hc₂)
      | some answer =>
        rw [hdoes.paced.eq_of_some rfl]
        exact hc₂
    · obtain rfl := List.mem_singleton.mp hd
      exact ⟨c, c', hdoes, .inr rfl⟩

end HostLinks.Accounts

end OverlayTunnel
