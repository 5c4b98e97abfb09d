import ByteAssembler.Proofs.DiagnosticOrder
import ByteAssembler.Proofs.Grammar
import ByteAssembler.Proofs.Validity
import ByteAssembler.Proofs.Verdict

/-
  Rejected operations leave no trace but their reports. `Line.clean` takes a rejected operation out
  of the text of its line, so that only the label stays. The scan of the cleaned lines goes side by
  side with the scan of the original ones: at every line the two states differ in nothing but the
  rejections reported so far (`run_map_cleared`). `scan_map_clean`: the program is the same, and the
  diagnostics are the original ones without the rejections.
-/

namespace ByteAssembler

namespace Line

/-- The text of a line without its operation, if that is rejected: a line that is no statement
leaves nothing, any other its label. -/
def clean (text : String) : String :=
  match Statement.parse text with
  | .error _ => ""
  | .ok statement => if statement.Valid then text else statement.label.elim "" (· ++ ":")

/-- The line without its body, if that is rejected. -/
def cleared (l : Line) : Line :=
  match l.body with
  | .rejected _ => { l with body := .empty }
  | _ => l

theorem cleared_of_rejected {l : Line} {ps : List Problem} (h : l.body = .rejected ps) :
    l.cleared = ⟨l.label, .empty⟩ := by
  rw [cleared, h]

theorem cleared_of_not_rejected {l : Line} (h : ∀ ps, l.body ≠ .rejected ps) : l.cleared = l := by
  unfold cleared
  split
  · next ps hb => exact absurd hb (h ps)
  · rfl

theorem read_of_parse {text : String} {statement : Statement}
    (h : Statement.parse text = .ok statement) : read text = ofStatement statement := by
  rw [read, h]

/-- What is left of the text is a statement with the label of the line and no operation. -/
theorem read_clean (text : String) : read (clean text) = (read text).cleared := by
  unfold clean
  cases hp : Statement.parse text with
  | error fault =>
    have hread : read text = ⟨none, .rejected [.malformedLine fault.message]⟩ := by
      rw [read, hp]
    rw [hread]
    exact read_of_parse Statement.parse_empty
  | ok statement =>
    dsimp only
    rw [read_of_parse hp]
    by_cases hv : statement.Valid
    · rw [if_pos hv, read_of_parse hp, cleared_of_not_rejected (Statement.valid_iff.1 hv)]
    · obtain ⟨ps, hps⟩ : ∃ ps, (ofStatement statement).body = .rejected ps := by
        by_contra hnone
        exact hv (Statement.valid_iff.2 fun ps hb => hnone ⟨ps, hb⟩)
      rw [if_neg hv, cleared_of_rejected hps]
      cases hl : statement.label with
      | none => exact (read_of_parse Statement.parse_empty).trans (by simp [ofStatement, hl])
      | some name =>
        have hlabel := Statement.parse_label (Statement.isWord_of_parse hp hl)
        exact (read_of_parse hlabel).trans (by simp [ofStatement, hl])

example : clean "loop: mov a ; one operand is missing" = "loop:" := by
  decide +kernel

/-! ## What a line without its rejected body still does -/

theorem updates_cleared (l : Line) (address line : Nat) :
    l.cleared.updates address line = l.updates address line := by
  unfold cleared
  split
  · next ps hb => simp [updates, uses, hb]
  · rfl

theorem instruction?_cleared (l : Line) (index : String → Nat) (address line : Nat) :
    l.cleared.instruction? index address line = l.instruction? index address line := by
  unfold cleared
  split
  · next ps hb => simp [instruction?, hb]
  · rfl

end Line

namespace Scan

theorem nextOffset_cleared (s : Scan) (l : Line) : s.nextOffset l.cleared = s.nextOffset l := by
  unfold Line.cleared
  split
  · next ps hb => simp [nextOffset, hb]
  · rfl

theorem nextOverflowed_cleared (config : Config) (s : Scan) (l : Line) :
    s.nextOverflowed config l.cleared = s.nextOverflowed config l := by
  unfold Line.cleared
  split
  · next ps hb => simp [nextOverflowed, hb]
  · rfl

/-- The reports on a line without its rejected body are those on the line that are no
rejections. -/
theorem problems_cleared (config : Config) (s : Scan) {l : Line} (hcause : l.RejectsForCause) :
    s.problems config l.cleared = (s.problems config l).filter (!·.isRejection) := by
  have hlabel : (l.label.elim [] s.labelProblems).filter (!·.isRejection) =
      l.label.elim [] s.labelProblems := by
    rw [List.filter_eq_self]
    intro p hp
    simp [Problem.isRejection, origin_of_mem_label hp]
  rw [problems, problems, List.filter_append, hlabel]
  cases hb : l.body with
  | empty =>
    have hnot : ∀ ps, l.body ≠ .rejected ps := by simp [hb]
    rw [Line.cleared_of_not_rejected hnot, hb]
    rfl
  | rejected ps =>
    have hnil : ps.filter (!·.isRejection) = [] := by
      rw [List.filter_eq_nil_iff]
      intro p hp
      simp [(hcause ps hb).2 p hp]
    rw [Line.cleared_of_rejected hb]
    exact congrArg _ hnil.symm
  | instruction mnemonic operands =>
    have hnot : ∀ ps, l.body ≠ .rejected ps := by simp [hb]
    rw [Line.cleared_of_not_rejected hnot, hb, bodyProblems]
    split <;> rfl

/-! ## Two runs side by side -/

/-- The state without the rejections that were reported. -/
def withoutRejections (s : Scan) : Scan :=
  { s with diagnostics := s.diagnostics.filter (!·.problem.isRejection) }

/-- One step of the two runs. -/
theorem feed_cleared (config : Config) (s : Scan) {l : Line} (hcause : l.RejectsForCause) :
    feed config s.withoutRejections l.cleared = (feed config s l).withoutRejections := by
  -- What a line does depends on the state but not on what was reported before.
  have hsymbols : s.withoutRejections.nextSymbols l.cleared = s.nextSymbols l := by
    rw [nextSymbols, Line.updates_cleared]
    rfl
  have hproblems : s.withoutRejections.problems config l.cleared =
      (s.problems config l).filter (!·.isRejection) := problems_cleared config s hcause
  have hoffset : s.withoutRejections.nextOffset l.cleared = s.nextOffset l :=
    nextOffset_cleared s l
  have hoverflowed : s.withoutRejections.nextOverflowed config l.cleared =
      s.nextOverflowed config l := nextOverflowed_cleared config s l
  rw [feed_eq, feed_eq, hsymbols, hproblems, hoffset, hoverflowed, Line.instruction?_cleared]
  unfold withoutRejections
  congr 1
  apply Array.toList_inj.1
  simp [List.filter_map, Function.comp_def]

/-- The two runs: their states differ in the rejections alone. -/
theorem run_map_cleared (config : Config) {lines : List Line}
    (hcause : ∀ l ∈ lines, l.RejectsForCause) :
    run config (lines.map Line.cleared) = (run config lines).withoutRejections := by
  induction lines using List.reverseRecOn with
  | nil => rfl
  | append_singleton lines l ih =>
    have hlines : ∀ l ∈ lines, l.RejectsForCause := fun l' hl' =>
      hcause l' (List.mem_append_left _ hl')
    rw [List.map_append, List.map_singleton, run_concat, run_concat, ih hlines,
      feed_cleared config _ (hcause l (by simp))]

/-- What is reported only at the end is no rejection. -/
theorem finish_withoutRejections (config : Config) (s : Scan) :
    (s.withoutRejections.finish config).diagnostics =
      (s.finish config).diagnostics.filter (!·.problem.isRejection) := by
  have hlate : (s.symbols.entries.filterMap lateReport?).filter (!·.problem.isRejection) =
      s.symbols.entries.filterMap lateReport? := by
    rw [List.filter_eq_self]
    intro d hd
    obtain ⟨symbol, -, hreport⟩ := List.mem_filterMap.1 hd
    simp [Problem.isRejection, origin_of_lateReport? hreport]
  unfold finish
  dsimp only
  rw [← Diagnostic.sortByLine_filter, List.filter_append, hlate]
  simp [withoutRejections]

end Scan

/-- **Rejected operations leave no trace.** If every rejected line is replaced by its label alone,
the program stays the same, its instructions as well as its symbols, and of the diagnostics only
the rejections are gone. -/
theorem scan_map_clean (config : Config) (texts : List String) :
    (scan config (texts.map Line.clean)).program = (scan config texts).program ∧
      (scan config (texts.map Line.clean)).diagnostics =
        (scan config texts).diagnostics.filter (!·.problem.isRejection) := by
  have hread : (texts.map Line.clean).map Line.read = (texts.map Line.read).map Line.cleared := by
    simp only [List.map_map, Function.comp_def, Line.read_clean]
  have hcause : ∀ l ∈ texts.map Line.read, l.RejectsForCause := by
    intro l hl
    obtain ⟨text, -, rfl⟩ := List.mem_map.1 hl
    exact Line.read_rejectsForCause text
  rw [Scan.scan_eq_run, Scan.scan_eq_run, hread, Scan.run_map_cleared config hcause]
  exact ⟨rfl, Scan.finish_withoutRejections config _⟩

end ByteAssembler
