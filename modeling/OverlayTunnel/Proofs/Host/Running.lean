import OverlayTunnel.Proofs.Host.Tools

/-!
What comes of running one program. The words of a failure tell which one it was, whatever the name of the
link is that they are about.
-/
namespace OverlayTunnel

namespace Text

/-- A message without blanks around it is what remains of it when some follow. -/
theorem trim_message {message : List Char} {t : List Char} {c d : Char}
    (hfirst : message.head? = some c) (hc : isBlank c = false) (hlast : message.getLast? = some d)
    (hd : isBlank d = false) (h : ∀ e ∈ t, isBlank e = true) : trim (message ++ t) = message := by
  have hself : trim message = message := by
    apply trim_eq_self
    · rw [hfirst]
      rintro e ⟨⟩
      exact hc
    · rw [hlast]
      rintro e ⟨⟩
      exact hd
  rw [trim_append_of_blank message h, hself]

/-- The word behind a blank is one of the words of a text, up to what follows it. -/
theorem exists_word {before after s : List Char} (h : ' ' ∉ after) {text : List Char}
    (htext : text = before ++ ' ' :: (after ++ s)) : ∃ word ∈ text.splitOn ' ', after <+: word := by
  rw [htext, List.splitOn_append_cons_self]
  have hword : ∃ word ∈ (after ++ s).splitOn ' ', after <+: word := by
    by_cases hs : ' ' ∈ s
    · obtain ⟨s₁, s₂, rfl, hs₁⟩ := List.eq_append_cons_of_mem hs
      have hnot : ' ' ∉ after ++ s₁ := by simp [h, hs₁]
      rw [← List.append_assoc, List.splitOn_append_cons_self_of_not_mem hnot]
      exact ⟨_, List.mem_cons_self, List.prefix_append after s₁⟩
    · have hnot : ' ' ∉ after ++ s := by simp [h, hs]
      rw [List.splitOn_eq_singleton hnot]
      exact ⟨_, List.mem_singleton_self _, List.prefix_append after s⟩
  obtain ⟨word, hm, hprefix⟩ := hword
  exact ⟨word, List.mem_append_right _ hm, hprefix⟩

end Text

namespace HostLinks

/-! ### Messages -/

theorem toList_decodeLossy_encode (s : List Char) :
    (Utf8.decodeLossy (Utf8.encode s)).toList = s := by
  have h := Utf8.decodeLossy_encode (String.ofList s)
  rw [String.toList_ofList] at h
  rw [h, String.toList_ofList]

theorem failureOf_fileExists (i : Invocation) {ending : List Char}
    (h : ∀ c ∈ ending, Text.isBlank c = true) :
    failureOf i (Utf8.encode (fileExists.toList ++ ending)) = .alreadyExists fileExists := by
  have htrim : Text.trim (fileExists.toList ++ ending) = fileExists.toList :=
    Text.trim_message (c := 'R') (d := 's') (by decide) (by decide) (by decide) (by decide) h
  have hcontains : Text.contains "File exists".toList fileExists.toList = true := by decide
  unfold failureOf
  rw [toList_decodeLossy_encode, htrim]
  dsimp only
  rw [if_pos hcontains, String.ofList_toList]

theorem toList_doesNotExist (name : String) :
    (doesNotExist name).toList =
      "Device".toList ++ ' ' :: (('"' :: name.toList ++ ['"']) ++ ' ' :: "does not exist.".toList) := by
  simp [doesNotExist]

/-- No word of the message begins as the second word of the other message does. -/
theorem not_contains_doesNotExist {name : String} (h : ' ' ∉ name.toList) :
    Text.contains "File exists".toList (doesNotExist name).toList = false := by
  apply Bool.eq_false_iff.mpr
  intro hcontains
  obtain ⟨before, after, hinfix⟩ := Text.contains_iff.mp hcontains
  have hsplit : (doesNotExist name).toList =
      (before ++ "File".toList) ++ ' ' :: ("exists".toList ++ after) := by
    rw [← hinfix]
    simp
  obtain ⟨word, hword, hprefix⟩ := Text.exists_word (by decide) hsplit
  have hquoted : ' ' ∉ '"' :: name.toList ++ ['"'] := by simp [h]
  have hwords : (doesNotExist name).toList.splitOn ' ' =
      ["Device".toList, '"' :: name.toList ++ ['"'], "does".toList, "not".toList,
        "exist.".toList] := by
    rw [toList_doesNotExist, List.splitOn_append_cons_self_of_not_mem (by decide),
      List.splitOn_append_cons_self_of_not_mem hquoted]
    rfl
  rw [hwords] at hword
  simp only [List.mem_cons, List.not_mem_nil, or_false] at hword
  rcases hword with rfl | rfl | rfl | rfl | rfl
  · exact absurd hprefix (by decide)
  · rw [List.cons_append] at hprefix
    exact absurd (List.cons_prefix_cons.mp hprefix).1 (by decide)
  · exact absurd hprefix (by decide)
  · exact absurd hprefix (by decide)
  · exact absurd hprefix (by decide)

theorem failureOf_doesNotExist (i : Invocation) {name : String} (hname : ' ' ∉ name.toList)
    {ending : List Char} (h : ∀ c ∈ ending, Text.isBlank c = true) :
    failureOf i (Utf8.encode ((doesNotExist name).toList ++ ending)) =
      .notFound (doesNotExist name) := by
  have hfirst : (doesNotExist name).toList.head? = some 'D' := by
    rw [toList_doesNotExist]
    rfl
  have hlast : (doesNotExist name).toList.getLast? = some '.' := by
    have hend : (doesNotExist name).toList =
        ("Device \"".toList ++ name.toList ++ "\" does not exist".toList) ++ ['.'] := by
      simp [doesNotExist]
    rw [hend, List.getLast?_concat]
  have htrim := Text.trim_message hfirst (by decide) hlast (by decide) h
  have hcontains : Text.contains "does not exist".toList (doesNotExist name).toList = true := by
    apply Text.contains_iff.mpr
    refine ⟨"Device \"".toList ++ name.toList ++ "\" ".toList, ['.'], ?_⟩
    rw [toList_doesNotExist]
    simp
  unfold failureOf
  rw [toList_decodeLossy_encode, htrim]
  dsimp only
  rw [if_neg (Bool.eq_false_iff.mp (not_contains_doesNotExist hname)), if_pos (.inr (.inl hcontains)),
    String.ofList_toList]

/-! ### Single programs -/

variable {τ : Type} {h : Host τ} {program : Program} {arguments : List Argument} {s : HostLinks τ}

/-- The state after a program has been run. -/
def afterRun (h : Host τ) (program : Program) (arguments : List Argument) (s : HostLinks τ) :
    HostLinks τ :=
  { s with host := ((h.run ⟨program, arguments⟩).run s.host).2 }

theorem run_run (hpass : (Invocation.mk program arguments).isPassable = true) :
    (run h program arguments).run.run s =
      (match ((h.run ⟨program, arguments⟩).run s.host).1 with
        | .notStarted reason => .error (.io reason)
        | .exited code stdout stderr =>
          if code ≠ 0 then .error (failureOf ⟨program, arguments⟩ stderr)
          else .ok (Utf8.decodeLossy stdout), afterRun h program arguments s) := by
  have hhost : (onHost (h.run ⟨program, arguments⟩) : LinkM (HostLinks τ) Outcome).run.run s =
      (.ok ((h.run ⟨program, arguments⟩).run s.host).1, afterRun h program arguments s) := rfl
  unfold run
  dsimp only
  rw [if_neg (by simp [hpass]), LinkM.run_bind, hhost]
  dsimp only
  cases ((h.run ⟨program, arguments⟩).run s.host).1 with
  | notStarted reason => rfl
  | exited code stdout stderr =>
    dsimp only
    split <;> rfl

theorem run_of_prints (hpass : (Invocation.mk program arguments).isPassable = true) {text : List Char}
    (ho : ((h.run ⟨program, arguments⟩).run s.host).1.Prints text) :
    (run h program arguments).run.run s =
      (.ok (String.ofList text), afterRun h program arguments s) := by
  obtain ⟨stderr, ho⟩ := ho
  have hdecode := Utf8.decodeLossy_encode (String.ofList text)
  rw [String.toList_ofList] at hdecode
  rw [run_run hpass, ho]
  dsimp only
  rw [if_neg (by simp), hdecode]

theorem run_of_succeeds (hpass : (Invocation.mk program arguments).isPassable = true)
    (ho : ((h.run ⟨program, arguments⟩).run s.host).1.Succeeds) :
    ∃ text, (run h program arguments).run.run s =
      (.ok text, afterRun h program arguments s) := by
  obtain ⟨stdout, stderr, ho⟩ := ho
  refine ⟨Utf8.decodeLossy stdout, ?_⟩
  rw [run_run hpass, ho]
  dsimp only
  rw [if_neg (by simp)]

theorem run_of_fails (hpass : (Invocation.mk program arguments).isPassable = true) {message : String}
    (ho : ((h.run ⟨program, arguments⟩).run s.host).1.Fails message) :
    ∃ ending, (∀ c ∈ ending, Text.isBlank c = true) ∧ (run h program arguments).run.run s =
      (.error (failureOf ⟨program, arguments⟩ (Utf8.encode (message.toList ++ ending))),
        afterRun h program arguments s) := by
  obtain ⟨code, stdout, ending, hcode, hending, ho⟩ := ho
  refine ⟨ending, hending, ?_⟩
  rw [run_run hpass, ho]
  dsimp only
  rw [if_pos hcode]

/-- A program that is run for its effect alone. -/
theorem run_ip (arguments : List String) :
    (ip h arguments).run.run s =
      ((run h .ip (texts arguments)).run.run s).map (·.map fun _ => ()) id := by
  unfold ip
  rw [LinkM.run_bind]
  rcases (run h .ip (texts arguments)).run.run s with ⟨_ | _, _⟩ <;> rfl

theorem run_andThen {α : Type} (act : LinkM (HostLinks τ) α) (last : StateM τ Unit)
    (s : HostLinks τ) :
    (andThen act last).run.run s = ((act.run.run s).1,
      { (act.run.run s).2 with host := (last.run (act.run.run s).2.host).2 }) :=
  rfl

/-! ### The tool check -/

theorem run_get_bind {α : Type} (f : HostLinks τ → LinkM (HostLinks τ) α) (s : HostLinks τ) :
    (get >>= f).run.run s = (f s).run.run s :=
  rfl

theorem run_hasTool_of_some {answer : Bool} (hc : s.toolCheck = some answer) :
    (hasTool h).run.run s = (.ok answer, s) := by
  unfold hasTool
  rw [run_get_bind, hc]
  rfl

theorem run_hasTool_of_none {stdout stderr : List UInt8} (hc : s.toolCheck = none)
    (ho : ((h.run ⟨.which, [.text "wg"]⟩).run s.host).1 = .exited 0 stdout stderr) :
    (hasTool h).run.run s =
      (.ok true, { afterRun h .which [.text "wg"] s with toolCheck := some true }) := by
  have hhost : (onHost (h.run ⟨.which, [.text "wg"]⟩) : LinkM (HostLinks τ) Outcome).run.run s =
      (.ok (.exited 0 stdout stderr), afterRun h .which [.text "wg"] s) := by
    rw [← ho]
    rfl
  unfold hasTool
  rw [run_get_bind, hc]
  dsimp only
  rw [LinkM.run_bind, hhost]
  rfl

theorem run_requireTool_of_hasTool {s' : HostLinks τ}
    (hc : (hasTool h).run.run s = (.ok true, s')) :
    (requireTool h).run.run s = (.ok (), s') := by
  unfold requireTool
  rw [LinkM.run_bind, hc]
  rfl

/-! ### The line of a link -/

/-- The first line keeps what stands in front of a colon. -/
theorem exists_lines {front : List Char} (hfront : '\n' ∉ front) (back : List Char) :
    ∃ back' later, Text.lines (front ++ ':' :: back) = (front ++ ':' :: back') :: later := by
  by_cases hback : '\n' ∈ back
  · obtain ⟨line, rest, rfl, hline⟩ := List.eq_append_cons_of_mem hback
    have hfirst : '\n' ∉ front ++ ':' :: line := by simp [hfront, hline]
    have hlines := Text.lines_append_lineFeed hfirst rest
    rw [Text.chomp_append_cons front (by decide)] at hlines
    exact ⟨Text.chomp line, Text.lines rest, by rw [← hlines]; simp⟩
  · have hall : '\n' ∉ front ++ ':' :: back := by simp [hfront, hback]
    refine ⟨back, [], ?_⟩
    unfold Text.lines
    rw [List.splitOn_eq_singleton hall, Text.linesOfPieces, if_neg (by simp)]

theorem indexOf?_append (index : UInt32) (rest : List Char) :
    indexOf? (Nat.toDigits 10 index.toNat ++ ':' :: rest) = some index := by
  have hvisible := Numeral.isVisible_of_mem_toDigits (n := index.toNat) (by decide : 1 < 10)
    (by decide)
  have hfeed : '\n' ∉ Nat.toDigits 10 index.toNat := Text.not_mem_of_isVisible hvisible (by decide)
  have hcolon : ∀ c ∈ Nat.toDigits 10 index.toNat, decide (c ≠ ':') = true := by
    intro c hc
    have hdigit := Numeral.isDigit_of_mem_toDigits (by decide : 1 < 10) (by decide) c hc
    apply decide_eq_true
    rintro rfl
    revert hdigit
    decide
  have hread : Numeral.readNat 4294967295 (Nat.toDigits 10 index.toNat) = .ok index.toNat :=
    Numeral.readNat_toDigits (Nat.le_of_lt_succ index.toNat_lt)
  obtain ⟨back, later, hlines⟩ := exists_lines hfeed rest
  unfold indexOf?
  rw [hlines]
  dsimp only
  rw [List.takeWhile_append_of_pos hcolon, List.takeWhile_cons_of_neg (by simp), List.append_nil,
    Text.trim_of_isVisible hvisible, hread]
  simp

end HostLinks

end OverlayTunnel
