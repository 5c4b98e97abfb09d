import ByteAssembler.Proofs.Outcome

/-
  Picking out the diagnostics of one kind. A scan reports at two moments: while it reads a line, on
  the label and on the body of the line, and when it is finished, on the symbols. What it reports
  while it reads is in order already (`pairwise_run_diagnostics`), and the kinds that it reports at
  the end are others (`Problem.origin`). So the diagnostics of a kind are either those of the run as
  they stand (`filter_scan_of_early`) or those on the symbols (`filter_scan_of_late`).
-/

namespace ByteAssembler

/-! ## Two moments of reporting -/

namespace Scan

/-- On the body of a line, either the cause of its rejection is reported or the memory is. -/
theorem mem_bodyProblems {config : Config} {s : Scan} {l : Line} (hcause : l.RejectsForCause)
    {p : Problem} (hp : p ∈ s.bodyProblems config l.body) :
    p.isRejection = true ∨ p = .programTooLarge config.memorySize.toNat := by
  cases hb : l.body with
  | empty =>
    rw [hb] at hp
    cases hp
  | rejected ps =>
    rw [hb] at hp
    exact Or.inl ((hcause ps hb).2 p hp)
  | instruction m operands =>
    rw [hb, bodyProblems] at hp
    split at hp
    · exact Or.inr (List.mem_singleton.1 hp)
    · cases hp

theorem origin_ne_symbol_of_mem_problems {config : Config} {s : Scan} {l : Line}
    (hcause : l.RejectsForCause) {p : Problem} (hp : p ∈ s.problems config l) :
    p.origin ≠ .symbol := by
  rcases List.mem_append.1 hp with hlabel | hbody
  · simp [origin_of_mem_label hlabel]
  · obtain hrejection | rfl := mem_bodyProblems hcause hbody
    · simp [Problem.isRejection_iff.1 hrejection]
    · simp [Problem.origin]

/-- A run reports line by line, so that its diagnostics are in order. -/
theorem pairwise_run_diagnostics (config : Config) (lines : List Line) :
    (run config lines).diagnostics.toList.Pairwise fun d e => d.notAfter e = true := by
  have hpositions : (lines.zipIdx.map (·.2)).Pairwise (· < ·) := by
    rw [List.zipIdx_map_snd]
    exact List.pairwise_lt_range'
  rw [run_diagnostics, List.pairwise_flatMap]
  refine ⟨fun _ _ => ?_, (List.pairwise_map.1 hpositions).imp fun hlt d hd e he => ?_⟩
  · rw [List.pairwise_map]
    exact List.pairwise_of_forall fun _ _ => decide_eq_true (Nat.le_refl _)
  · obtain ⟨p, -, rfl⟩ := List.mem_map.1 hd
    obtain ⟨q, -, rfl⟩ := List.mem_map.1 he
    exact decide_eq_true (Nat.succ_le_succ (Nat.le_of_lt hlt))

/-- The reports of one kind on a line are those that the state before it finds. -/
theorem filter_run_on_line (config : Config) {lines : List Line} {k : Nat} {l : Line}
    (hl : lines[k]? = some l) (p : Problem → Bool) :
    (run config lines).diagnostics.toList.filter
        (fun d => d.line == some (k + 1) && p d.problem) =
      (((run config (lines.take k)).problems config l).filter p).map
        (Diagnostic.mk (some (k + 1))) := by
  have hfilter : ∀ (line : Nat) (ps : List Problem),
      (ps.map (Diagnostic.mk (some line))).filter
          (fun d => d.line == some (k + 1) && p d.problem) =
        if line = k + 1 then (ps.filter p).map (Diagnostic.mk (some line)) else [] := by
    intro line ps
    by_cases hline : line = k + 1 <;> simp [List.filter_map, Function.comp_def, hline]
  rw [run_diagnostics, List.filter_flatMap, flatMap_zipIdx_of_unique hl]
  · rw [hfilter, if_pos rfl]
  · intro l' j hj
    rw [hfilter, if_neg (by omega)]

theorem filter_finish (config : Config) (s : Scan) (p : Diagnostic → Bool) :
    (s.finish config).diagnostics.filter p =
      Diagnostic.sortByLine (s.diagnostics.toList.filter p ++
        (s.symbols.entries.filterMap lateReport?).filter p) := by
  unfold finish
  dsimp only
  rw [← Diagnostic.sortByLine_filter, List.filter_append]

end Scan

section Selection

variable (config : Config) (texts : List String) {p : Diagnostic → Bool}

/-- What is reported before the end stands in the result as the run has reported it. -/
theorem filter_scan_of_early (hp : ∀ d, p d = true → d.problem.origin ≠ .symbol) :
    (scan config texts).diagnostics.filter p =
      (Scan.run config (texts.map Line.read)).diagnostics.toList.filter p := by
  have hlate : ∀ symbols : SymbolTable,
      (symbols.entries.filterMap Scan.lateReport?).filter p = [] := by
    intro symbols
    rw [List.filter_eq_nil_iff]
    intro d hd hpd
    obtain ⟨symbol, -, hreport⟩ := List.mem_filterMap.1 hd
    exact hp d hpd (Scan.origin_of_lateReport? hreport)
  rw [Scan.scan_eq_run, Scan.filter_finish, hlate, List.append_nil,
    Diagnostic.sortByLine_eq_insertionSort]
  exact ((Scan.pairwise_run_diagnostics config _).filter p).insertionSort_eq

/-- What is reported at the end is reported on the symbols, and by no line. -/
theorem filter_scan_of_late (hp : ∀ d, p d = true → d.problem.origin = .symbol) :
    (scan config texts).diagnostics.filter p =
      Diagnostic.sortByLine
        (((scan config texts).program.symbols.entries.filterMap Scan.lateReport?).filter p) := by
  have hrun : (Scan.run config (texts.map Line.read)).diagnostics.toList.filter p = [] := by
    rw [List.filter_eq_nil_iff]
    intro d hd hpd
    obtain ⟨k, l, hl, q, hq, rfl⟩ := (Scan.mem_run_diagnostics config _).1 hd
    have hcause := Line.rejectsForCause_of_mem_map_read (List.mem_of_getElem? hl)
    exact Scan.origin_ne_symbol_of_mem_problems hcause hq (hp _ hpd)
  rw [Scan.scan_eq_run, Scan.filter_finish, hrun, List.nil_append]
  rfl

end Selection

/-! ## Reports on the label of a line -/

namespace Problem

/-- Whether a problem is that a name is defined again. -/
def isDuplicate (name : String) : Problem → Bool
  | .duplicateLabel other _ => other == name
  | _ => false

/-- Whether a problem is that a label stands where another one does. -/
def isRedundant : Problem → Bool
  | .redundantLabel _ _ _ => true
  | _ => false

theorem origin_of_isDuplicate {name : String} {p : Problem} (h : p.isDuplicate name = true) :
    p.origin = .label := by
  cases p with
  | duplicateLabel _ _ => rfl
  | _ => cases h

theorem origin_of_isRedundant {p : Problem} (h : p.isRedundant = true) : p.origin = .label := by
  cases p with
  | redundantLabel _ _ _ => rfl
  | _ => cases h

end Problem

namespace Scan

/-- The body of a line has no part in the reports on its label. -/
theorem filter_problems_label (config : Config) (s : Scan) {l : Line} (hcause : l.RejectsForCause)
    {p : Problem → Bool} (hp : ∀ q, p q = true → q.origin = .label) :
    (s.problems config l).filter p = (l.label.elim [] s.labelProblems).filter p := by
  have hbody : (s.bodyProblems config l.body).filter p = [] := by
    rw [List.filter_eq_nil_iff]
    intro q hq hpq
    have horigin := hp q hpq
    obtain hrejection | rfl := mem_bodyProblems hcause hq
    · cases (Problem.isRejection_iff.1 hrejection).symm.trans horigin
    · cases horigin
  rw [problems, List.filter_append, hbody, List.append_nil]

theorem filter_isRedundant_labelProblems (s : Scan) (name : String) :
    (s.labelProblems name).filter (·.isRedundant) = s.redundancy name := by
  have hself : (s.redundancy name).filter (·.isRedundant) = s.redundancy name := by
    unfold redundancy
    split
    · split <;> rfl
    · rfl
  have hduplicate : ∀ definition : Option Definition,
      ((definition.map fun first => Problem.duplicateLabel name first.line).toList).filter
        (·.isRedundant) = [] := by
    intro definition
    cases definition <;> rfl
  rw [labelProblems, List.filter_append, hself, hduplicate, List.append_nil]

theorem filter_isDuplicate_labelProblems (s : Scan) (name other : String) :
    (s.labelProblems other).filter (·.isDuplicate name) =
      if other = name then
        ((s.symbols.definition? name).map fun first => .duplicateLabel name first.line).toList
      else [] := by
  have hredundancy : (s.redundancy other).filter (·.isDuplicate name) = [] := by
    unfold redundancy
    split
    · split <;> rfl
    · rfl
  rw [labelProblems, List.filter_append, hredundancy, List.nil_append]
  by_cases hname : other = name
  · subst hname
    rw [if_pos rfl, List.filter_eq_self]
    intro p hp
    obtain ⟨first, -, rfl⟩ := Option.map_eq_some_iff.1 (Option.mem_toList.1 hp)
    exact beq_self_eq_true other
  · rw [if_neg hname, List.filter_eq_nil_iff]
    intro p hp hdup
    obtain ⟨first, -, rfl⟩ := Option.map_eq_some_iff.1 (Option.mem_toList.1 hp)
    exact hname (beq_iff_eq.1 hdup)

end Scan

end ByteAssembler
