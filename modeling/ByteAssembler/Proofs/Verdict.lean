import ByteAssembler.Proofs.Reading
import ByteAssembler.Proofs.Run

/-
  When a scan counts as failed. It does not fail exactly if no line has a report that stands
  against the program, and every symbol is defined and, if it is used, lies in the first 256 bytes
  (`finish_not_failed_iff`).
-/

namespace ByteAssembler

/-- Whether a problem leaves the program usable. -/
def Problem.Harmless (config : Config) (p : Problem) : Prop :=
  p.severity = .warning ∧ config.warningsAsErrors = false

namespace Scan

/-- A symbol is reported at the end for two reasons: it has no address, or it is used and its
address does not fit into a byte. -/
theorem lateReport?_cases {symbol : Symbol} {d : Diagnostic} (h : lateReport? symbol = some d) :
    symbol.address? = none ∧ d = ⟨symbol.firstUse, .undefinedLabel symbol.name⟩ ∨
      ∃ address, symbol.address? = some address ∧ 0xFF < address ∧ symbol.firstUse.isSome = true ∧
        d = ⟨symbol.firstUse, .labelOutOfRange symbol.name address⟩ := by
  unfold lateReport? at h
  cases ha : symbol.address? with
  | none =>
    rw [ha] at h
    exact Or.inl ⟨rfl, (Option.some.inj h).symm⟩
  | some address =>
    rw [ha] at h
    obtain ⟨⟨hlarge, hused⟩, hd⟩ := Option.ite_none_right_eq_some.1 h
    exact Or.inr ⟨address, rfl, hlarge, hused, (Option.some.inj hd).symm⟩

theorem origin_of_lateReport? {symbol : Symbol} {d : Diagnostic}
    (h : lateReport? symbol = some d) : d.problem.origin = .symbol := by
  obtain ⟨-, rfl⟩ | ⟨address, -, -, -, rfl⟩ := lateReport?_cases h
  · rfl
  · rfl

theorem lateReport?_severity {symbol : Symbol} {d : Diagnostic}
    (h : lateReport? symbol = some d) : d.problem.severity = .error := by
  obtain ⟨-, rfl⟩ | ⟨address, -, -, -, rfl⟩ := lateReport?_cases h
  · rfl
  · rfl

theorem lateReport?_eq_none_iff {symbol : Symbol} :
    lateReport? symbol = none ↔
      ∃ d, symbol.definition = some d ∧ (symbol.firstUse ≠ none → d.address ≤ 0xFF) := by
  unfold lateReport? Symbol.address?
  cases hd : symbol.definition with
  | none => simp
  | some d =>
    cases hu : symbol.firstUse with
    | none => simp
    | some line => simp

theorem failed_eq_false_iff (config : Config) (s : Scan) :
    (s.finish config).failed = false ↔
      ∀ d ∈ (s.finish config).diagnostics, d.problem.Harmless config := by
  have hiff : ∀ d : Diagnostic, (d.isError || config.warningsAsErrors) = false ↔
      d.problem.Harmless config := by
    intro d
    unfold Diagnostic.isError Diagnostic.severity Problem.Harmless
    cases d.problem.severity <;> simp
  unfold finish
  dsimp only
  rw [List.any_eq_false]
  simp only [Bool.not_eq_true, hiff]

theorem diagnostics_ne_nil_of_failed {config : Config} {s : Scan}
    (h : (s.finish config).failed = true) : (s.finish config).diagnostics ≠ [] := by
  intro hnil
  have hall : ∀ d ∈ (s.finish config).diagnostics, d.problem.Harmless config := by
    rw [hnil]
    exact fun _ hd => absurd hd List.not_mem_nil
  rw [(failed_eq_false_iff config s).2 hall] at h
  cases h

theorem mem_finish_diagnostics {config : Config} {s : Scan} {d : Diagnostic} :
    d ∈ (s.finish config).diagnostics ↔
      d ∈ s.diagnostics.toList ∨ ∃ symbol ∈ s.symbols.entries, lateReport? symbol = some d := by
  unfold finish
  dsimp only
  rw [(Diagnostic.sortByLine_perm _).mem_iff, List.mem_append, List.mem_filterMap]

/-- **When a run succeeds**: no report of a line and no late report stands against it. -/
theorem finish_not_failed_iff (config : Config) (lines : List Line) :
    ((run config lines).finish config).failed = false ↔
      (∀ k l, lines[k]? = some l →
        ∀ p ∈ (run config (lines.take k)).problems config l, p.Harmless config) ∧
      ∀ name, Layout.Mentioned lines name →
        ∃ d, Layout.definition? lines name = some d ∧
          (Layout.firstUse? lines name ≠ none → d.address ≤ 0xFF) := by
  rw [failed_eq_false_iff]
  constructor
  · intro h
    refine ⟨fun k l hl p hp => ?_, fun name hname => ?_⟩
    · exact h ⟨some (k + 1), p⟩ (mem_finish_diagnostics.2
        (Or.inl ((mem_run_diagnostics config lines).2 ⟨k, l, hl, p, hp, rfl⟩)))
    · have hentry : (⟨name, Layout.definition? lines name, Layout.firstUse? lines name⟩ : Symbol) ∈
          (run config lines).symbols.entries :=
        (mem_run_entries config lines).2 ⟨hname, rfl, rfl⟩
      have hnone : lateReport?
          ⟨name, Layout.definition? lines name, Layout.firstUse? lines name⟩ = none := by
        refine Option.eq_none_iff_forall_ne_some.2 fun d hd => ?_
        have hwarning := (h d (mem_finish_diagnostics.2 (Or.inr ⟨_, hentry, hd⟩))).1
        rw [lateReport?_severity hd] at hwarning
        cases hwarning
      exact lateReport?_eq_none_iff.1 hnone
  · rintro ⟨hlines, hnames⟩ d hd
    rcases mem_finish_diagnostics.1 hd with hd | ⟨symbol, hentry, hd⟩
    · obtain ⟨k, l, hl, p, hp, rfl⟩ := (mem_run_diagnostics config lines).1 hd
      exact hlines k l hl p hp
    · obtain ⟨hname, hdef, huse⟩ := (mem_run_entries config lines).1 hentry
      have hnone := hnames symbol.name hname
      rw [hdef, huse, ← lateReport?_eq_none_iff, hd] at hnone
      cases hnone

/-- A run that did not fail has no rejected line. -/
theorem not_rejected_of_not_failed {config : Config} {lines : List Line} {l : Line}
    (hok : ((run config lines).finish config).failed = false) (hl : l ∈ lines)
    (hcause : l.RejectsForCause) (ps : List Problem) : l.body ≠ .rejected ps := by
  intro hb
  obtain ⟨k, hk, rfl⟩ := List.getElem_of_mem hl
  obtain ⟨hne, hall⟩ := hcause ps hb
  obtain ⟨p, hp⟩ := List.exists_mem_of_ne_nil ps hne
  have hmem : p ∈ (run config (lines.take k)).problems config lines[k] := by
    rw [problems, hb]
    exact List.mem_append_right _ hp
  have hharmless := ((finish_not_failed_iff config lines).1 hok).1 k lines[k]
    (List.getElem?_eq_getElem hk) p hmem
  have hwarning := hharmless.1
  rw [Problem.severity_of_isRejection (hall p hp)] at hwarning
  cases hwarning

end Scan

end ByteAssembler
