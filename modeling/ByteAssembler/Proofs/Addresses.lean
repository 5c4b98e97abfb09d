import ByteAssembler.Proofs.FaultIsolation

/-
  Addresses and the end of the memory. The scan counts bytes only up to the largest offset, and
  reports the first instruction that ends beyond the memory. Both are compared with the exact sum of
  the byte lengths before an instruction (`bytesBefore`), which has no bound. A line adds at most one
  instruction (`run_concat_cases`) and at most one report for the size (`sizeReports_run_concat`);
  from these two steps follow, for a whole run, the exact total, the address of every instruction
  and the one report there is (`address_run`, `sizeReports_run`). `scan_addresses`: addresses are
  exact up to the largest offset, and the memory is exceeded exactly if this is reported.
-/

namespace ByteAssembler

/-! ## Exact positions -/

namespace Layout

/-- The bytes that the instructions before position `k` take. -/
def bytesBefore (is : List Instruction) (k : Nat) : Nat :=
  offset (is.map (·.mnemonic.byteLength)) k

/-- Instruction `k` is the first that ends after more than `bound` bytes. -/
structure FirstBeyond (bound : Nat) (is : List Instruction) (k : Nat) (i : Instruction) :
    Prop where
  getElem? : is[k]? = some i
  beyond : bound < bytesBefore is k + i.mnemonic.byteLength
  within : ∀ j i', j < k → is[j]? = some i' →
    bytesBefore is j + i'.mnemonic.byteLength ≤ bound

theorem bytesBefore_append {is : List Instruction} {k : Nat} (hk : k ≤ is.length)
    (more : List Instruction) : bytesBefore (is ++ more) k = bytesBefore is k := by
  unfold bytesBefore
  rw [List.map_append, offset_append (by rw [List.length_map]; exact hk)]

theorem bytesBefore_length (is : List Instruction) :
    bytesBefore is is.length = (is.map (·.mnemonic.byteLength)).sum := by
  have h := offset_length (is.map (·.mnemonic.byteLength))
  rwa [List.length_map] at h

theorem bytesBefore_succ {is : List Instruction} {k : Nat} {i : Instruction}
    (h : is[k]? = some i) :
    bytesBefore is (k + 1) = bytesBefore is k + i.mnemonic.byteLength :=
  offset_succ (by rw [List.getElem?_map, h, Option.map_some])

theorem bytesBefore_le_sum (is : List Instruction) (k : Nat) :
    bytesBefore is k ≤ (is.map (·.mnemonic.byteLength)).sum :=
  offset_le_sum _ _

/-- The first instruction beyond the bound stays the first, whatever follows. -/
theorem FirstBeyond.append {bound k : Nat} {is : List Instruction} {i : Instruction}
    (h : FirstBeyond bound is k i) (more : List Instruction) :
    FirstBeyond bound (is ++ more) k i := by
  have hk : k < is.length := (List.getElem?_eq_some_iff.1 h.getElem?).1
  refine ⟨?_, ?_, ?_⟩
  · rw [List.getElem?_append_left hk]
    exact h.getElem?
  · rw [bytesBefore_append (Nat.le_of_lt hk)]
    exact h.beyond
  · intro j i' hj hi'
    rw [List.getElem?_append_left (by omega)] at hi'
    rw [bytesBefore_append (by omega)]
    exact h.within j i' hj hi'

/-- An instruction after others that end within the bound is the first beyond it. -/
theorem firstBeyond_concat {bound : Nat} {is : List Instruction} {i : Instruction}
    (hle : (is.map (·.mnemonic.byteLength)).sum ≤ bound)
    (hlt : bound < (is.map (·.mnemonic.byteLength)).sum + i.mnemonic.byteLength) :
    FirstBeyond bound (is ++ [i]) is.length i := by
  refine ⟨List.getElem?_concat_length, ?_, ?_⟩
  · rwa [bytesBefore_append (Nat.le_refl _), bytesBefore_length]
  · intro j i' hj hi'
    rw [List.getElem?_append_left hj] at hi'
    have hsum := bytesBefore_le_sum is (j + 1)
    rw [bytesBefore_succ hi'] at hsum
    rw [bytesBefore_append (Nat.le_of_lt hj)]
    omega

end Layout

theorem Program.size_eq_sum (p : Program) :
    p.size = (p.instructions.map (·.mnemonic.byteLength)).sum := by
  rw [List.sum_eq_foldr, List.foldr_map]
  rfl

/-! ## Instructions of a run -/

namespace Scan

section Run

variable (config : Config) (lines : List Line)

/-- A line adds no instruction, or one at the offset where the lines before it end. -/
theorem run_concat_cases (l : Line) :
    l.byteLength = 0 ∧
        (run config (lines ++ [l])).instructions.toList = (run config lines).instructions.toList ∨
      ∃ i : Instruction, i.mnemonic.byteLength = l.byteLength ∧
        i.address = min (Layout.size lines) maxOffset ∧ i.line = lines.length + 1 ∧
        (run config (lines ++ [l])).instructions.toList =
          (run config lines).instructions.toList ++ [i] := by
  rw [run_concat, feed_instructions, run_offset, run_line]
  unfold Line.byteLength Line.instruction?
  cases l.body with
  | instruction m operands => exact Or.inr ⟨_, rfl, rfl, rfl, rfl⟩
  | empty => exact Or.inl ⟨rfl, List.append_nil _⟩
  | rejected ps => exact Or.inl ⟨rfl, List.append_nil _⟩

theorem sum_byteLength_run :
    ((run config lines).instructions.toList.map (·.mnemonic.byteLength)).sum =
      Layout.size lines := by
  induction lines using List.reverseRecOn with
  | nil => rfl
  | append_singleton lines l ih =>
    rw [Layout.size_concat, ← ih]
    obtain ⟨hzero, hsame⟩ | ⟨i, hlength, -, -, hmore⟩ := run_concat_cases config lines l
    · rw [hsame, hzero, Nat.add_zero]
    · rw [hmore, ← hlength, List.map_append, List.sum_append]
      rfl

theorem size_program_run (symbols : SymbolTable) :
    Program.size ⟨(run config lines).instructions.toList, symbols⟩ = Layout.size lines := by
  rw [Program.size_eq_sum, sum_byteLength_run]

/-- **Addresses are exact up to the largest offset**: cutting off at each step is the same as
cutting off the exact sum. -/
theorem address_run {k : Nat} {i : Instruction}
    (h : (run config lines).instructions.toList[k]? = some i) :
    i.address = min (Layout.bytesBefore (run config lines).instructions.toList k) maxOffset := by
  induction lines using List.reverseRecOn with
  | nil => cases h
  | append_singleton lines l ih =>
    obtain ⟨-, hsame⟩ | ⟨i', -, haddress, -, hmore⟩ := run_concat_cases config lines l
    · rw [hsame] at h ⊢
      exact ih h
    · rw [hmore] at h ⊢
      rcases Nat.lt_or_ge k (run config lines).instructions.toList.length with hk | hk
      · rw [List.getElem?_append_left hk] at h
        rw [Layout.bytesBefore_append (Nat.le_of_lt hk)]
        exact ih h
      · -- The new instruction stands at the end of all that were there.
        rw [List.getElem?_append_right hk, List.getElem?_singleton] at h
        obtain ⟨hlast, hi⟩ := Option.ite_none_right_eq_some.1 h
        obtain rfl := Option.some.inj hi
        have hk : k = (run config lines).instructions.toList.length := by omega
        rw [hk, Layout.bytesBefore_append (Nat.le_refl _), Layout.bytesBefore_length,
          sum_byteLength_run]
        exact haddress

end Run

end Scan

/-! ## The report for the size -/

namespace Diagnostic

/-- The diagnostics that say that the program does not fit into the memory. -/
def sizeReports (ds : List Diagnostic) : List Diagnostic :=
  ds.filter (·.problem.isTooLarge)

theorem sizeReports_append (ds es : List Diagnostic) :
    sizeReports (ds ++ es) = sizeReports ds ++ sizeReports es :=
  List.filter_append ds es

theorem sizeReports_map_mk (line : Option Nat) (ps : List Problem) :
    sizeReports (ps.map (mk line)) = (ps.filter (·.isTooLarge)).map (mk line) :=
  List.filter_map

theorem mem_of_sizeReports {ds : List Diagnostic} {d : Diagnostic} (h : sizeReports ds = [d]) :
    d ∈ ds := by
  have hd : d ∈ sizeReports ds := by
    rw [h]
    exact List.mem_singleton_self d
  exact List.mem_of_mem_filter hd

end Diagnostic

namespace Scan

open Diagnostic (sizeReports)

section Reports

variable (config : Config) {lines : List Line}

/-- A line is reported for the size if the memory ends within its instruction. -/
theorem filter_isTooLarge_problems {l : Line} (hcause : l.RejectsForCause) :
    ((run config lines).problems config l).filter (·.isTooLarge) =
      if Layout.size lines ≤ config.memorySize.toNat ∧
          config.memorySize.toNat < Layout.size lines + l.byteLength then
        [.programTooLarge config.memorySize.toNat]
      else [] := by
  have hlabel : (l.label.elim [] (run config lines).labelProblems).filter (·.isTooLarge) = [] := by
    rw [List.filter_eq_nil_iff]
    intro p hp
    simp [Problem.isTooLarge, origin_of_mem_label hp]
  rw [problems, List.filter_append, hlabel, List.nil_append]
  cases hb : l.body with
  | instruction m operands =>
    have hlength : l.byteLength = m.byteLength := by rw [Line.byteLength, hb]
    rw [bodyProblems, hlength]
    simp only [exceeds_run_iff config lines m.byteLength_pos]
    split
    · rfl
    · rfl
  | empty =>
    have hlength : l.byteLength = 0 := by rw [Line.byteLength, hb]
    rw [if_neg (by omega)]
    rfl
  | rejected ps =>
    have hlength : l.byteLength = 0 := by rw [Line.byteLength, hb]
    rw [if_neg (by omega), bodyProblems, List.filter_eq_nil_iff]
    intro p hp
    simp [Problem.isTooLarge, Problem.isRejection_iff.1 ((hcause ps hb).2 p hp)]

theorem sizeReports_run_concat {l : Line} (hcause : l.RejectsForCause) :
    sizeReports (run config (lines ++ [l])).diagnostics.toList =
      sizeReports (run config lines).diagnostics.toList ++
        if Layout.size lines ≤ config.memorySize.toNat ∧
            config.memorySize.toNat < Layout.size lines + l.byteLength then
          [⟨some (lines.length + 1), .programTooLarge config.memorySize.toNat⟩]
        else [] := by
  rw [run_concat, feed_diagnostics, Diagnostic.sizeReports_append, Diagnostic.sizeReports_map_mk,
    run_line, filter_isTooLarge_problems config hcause]
  congr 1
  split
  · rfl
  · rfl

/-- **The memory is reported once**: as soon as the exact sum exceeds it, for the instruction that
is the first to end beyond it, and never again. -/
theorem sizeReports_run (hcause : ∀ l ∈ lines, l.RejectsForCause) :
    Layout.size lines ≤ config.memorySize.toNat ∧
        sizeReports (run config lines).diagnostics.toList = [] ∨
      config.memorySize.toNat < Layout.size lines ∧
        ∃ k i, Layout.FirstBeyond config.memorySize.toNat
            (run config lines).instructions.toList k i ∧
          sizeReports (run config lines).diagnostics.toList =
            [⟨some i.line, .programTooLarge config.memorySize.toNat⟩] := by
  induction lines using List.reverseRecOn with
  | nil => exact Or.inl ⟨Nat.zero_le _, rfl⟩
  | append_singleton lines l ih =>
    have hlines : ∀ l ∈ lines, l.RejectsForCause := fun l' hl' =>
      hcause l' (List.mem_append_left _ hl')
    have hsum := sum_byteLength_run config lines
    rw [Layout.size_concat, sizeReports_run_concat config (hcause l (by simp))]
    obtain ⟨hle, hnone⟩ | ⟨hlt, k, i, hfirst, hone⟩ := ih hlines
    · by_cases hcross : config.memorySize.toNat < Layout.size lines + l.byteLength
      · -- The memory ends within this line, so that it has an instruction.
        rw [if_pos ⟨hle, hcross⟩, hnone]
        obtain ⟨hzero, -⟩ | ⟨i, hlength, -, hline, hmore⟩ := run_concat_cases config lines l
        · omega
        · refine Or.inr ⟨hcross, (run config lines).instructions.toList.length, i, ?_, ?_⟩
          · rw [hmore]
            exact Layout.firstBeyond_concat (by omega) (by omega)
          · rw [hline]
            rfl
      · rw [if_neg (by omega), hnone]
        exact Or.inl ⟨by omega, rfl⟩
    · -- The mark is set, so that nothing is added to the report there is.
      rw [if_neg (by omega), hone]
      refine Or.inr ⟨by omega, k, i, ?_, rfl⟩
      obtain ⟨-, hsame⟩ | ⟨i', -, -, -, hmore⟩ := run_concat_cases config lines l
      · rwa [hsame]
      · rw [hmore]
        exact hfirst.append [i']

/-- The end of a scan adds no report for the size. -/
theorem sizeReports_finish (s : Scan) :
    sizeReports (s.finish config).diagnostics =
      Diagnostic.sortByLine (sizeReports s.diagnostics.toList) := by
  have hlate : sizeReports (s.symbols.entries.filterMap lateReport?) = [] := by
    rw [sizeReports, List.filter_eq_nil_iff]
    intro d hd
    obtain ⟨symbol, -, hreport⟩ := List.mem_filterMap.1 hd
    obtain ⟨-, rfl⟩ | ⟨address, -, -, -, rfl⟩ := lateReport?_cases hreport
    · exact Bool.false_ne_true
    · exact Bool.false_ne_true
  unfold finish
  dsimp only
  rw [sizeReports, ← Diagnostic.sortByLine_filter, ← sizeReports, Diagnostic.sizeReports_append,
    hlate, List.append_nil]

end Reports

end Scan

/-! ## Addresses of a program -/

section Scan

variable (config : Config) (texts : List String)

theorem size_scan_program :
    (scan config texts).program.size = Layout.size (texts.map Line.read) := by
  rw [Scan.scan_eq_run]
  exact Scan.size_program_run config _ _

theorem address_scan {k : Nat} {i : Instruction}
    (h : (scan config texts).program.instructions[k]? = some i) :
    i.address = min (Layout.bytesBefore (scan config texts).program.instructions k) 0xFFFF := by
  rw [Scan.scan_eq_run] at h ⊢
  exact Scan.address_run config _ h

theorem sizeReports_scan :
    (scan config texts).program.size ≤ config.memorySize.toNat ∧
        Diagnostic.sizeReports (scan config texts).diagnostics = [] ∨
      config.memorySize.toNat < (scan config texts).program.size ∧
        ∃ k i, Layout.FirstBeyond config.memorySize.toNat
            (scan config texts).program.instructions k i ∧
          Diagnostic.sizeReports (scan config texts).diagnostics =
            [⟨some i.line, .programTooLarge config.memorySize.toNat⟩] := by
  have hcause : ∀ l ∈ texts.map Line.read, l.RejectsForCause := fun _ =>
    Line.rejectsForCause_of_mem_map_read
  rw [size_scan_program, Scan.scan_eq_run, Scan.sizeReports_finish]
  obtain ⟨hle, hnone⟩ | ⟨hlt, k, i, hfirst, hone⟩ := Scan.sizeReports_run config hcause
  · exact Or.inl ⟨hle, by rw [hnone]; rfl⟩
  · exact Or.inr ⟨hlt, k, i, hfirst, by rw [hone]; rfl⟩

/-- Within the memory no address is cut off. -/
theorem address_scan_of_size_le
    (hsize : (scan config texts).program.size ≤ config.memorySize.toNat) {k : Nat}
    {i : Instruction} (h : (scan config texts).program.instructions[k]? = some i) :
    i.address = Layout.bytesBefore (scan config texts).program.instructions k := by
  have hle := Layout.bytesBefore_le_sum (scan config texts).program.instructions k
  rw [← Program.size_eq_sum] at hle
  have hmemory : config.memorySize.toNat < 65536 := config.memorySize.toNat_lt
  rw [address_scan config texts h]
  omega

/-- **Addresses and the memory limit are exact for programs of any size.** An address is the exact
sum of the byte lengths before it, cut off at the largest offset. That the program is too large is
reported exactly if it is, once, for the first instruction that ends beyond the memory. If it is not
reported, addresses start at zero and each instruction follows the one before it. -/
theorem scan_addresses :
    (∀ k i, (scan config texts).program.instructions[k]? = some i →
      i.address = min 0xFFFF (Layout.bytesBefore (scan config texts).program.instructions k)) ∧
    ((∃ d ∈ (scan config texts).diagnostics, d.problem.isTooLarge = true) ↔
      config.memorySize.toNat < (scan config texts).program.size) ∧
    (config.memorySize.toNat < (scan config texts).program.size →
      ∃ k i, Layout.FirstBeyond config.memorySize.toNat
          (scan config texts).program.instructions k i ∧
        (scan config texts).diagnostics.filter (·.problem.isTooLarge) =
          [⟨some i.line, .programTooLarge config.memorySize.toNat⟩]) ∧
    ((∀ d ∈ (scan config texts).diagnostics, d.problem.isTooLarge = false) →
      (∀ i, (scan config texts).program.instructions[0]? = some i → i.address = 0) ∧
      ∀ k i next, (scan config texts).program.instructions[k]? = some i →
        (scan config texts).program.instructions[k + 1]? = some next →
          next.address = i.address + i.mnemonic.byteLength) := by
  have hreports := sizeReports_scan config texts
  unfold Diagnostic.sizeReports at hreports
  refine ⟨?_, ?_, ?_, ?_⟩
  · intro k i h
    rw [address_scan config texts h, Nat.min_comm]
  · constructor
    · rintro ⟨d, hd, hproblem⟩
      obtain ⟨-, hnone⟩ | ⟨hlt, -⟩ := hreports
      · exact absurd hproblem (List.filter_eq_nil_iff.1 hnone d hd)
      · exact hlt
    · intro hlt
      obtain ⟨hle, -⟩ | ⟨-, k, i, -, hone⟩ := hreports
      · omega
      · exact ⟨_, Diagnostic.mem_of_sizeReports hone, rfl⟩
  · intro hlt
    obtain ⟨hle, -⟩ | ⟨-, hone⟩ := hreports
    · omega
    · exact hone
  · intro hnone
    have hsize : (scan config texts).program.size ≤ config.memorySize.toNat := by
      obtain ⟨hle, -⟩ | ⟨-, k, i, -, hone⟩ := hreports
      · exact hle
      · rw [List.filter_eq_nil_iff.2 fun d hd => by simp [hnone d hd]] at hone
        cases hone
    refine ⟨?_, ?_⟩
    · intro i h
      rw [address_scan_of_size_le config texts hsize h]
      rfl
    · intro k i next h hnext
      rw [address_scan_of_size_le config texts hsize h,
        address_scan_of_size_le config texts hsize hnext, Layout.bytesBefore_succ h]

end Scan

/-- Five bytes in three instructions; the fourth line is rejected and takes none. -/
def Source.fiveBytes : List String :=
  ["mvi a, 1", "here:", "mvi b, 2", "jmp", "not"]

/-- In three bytes the second of two long instructions ends beyond the memory; five are enough. -/
theorem scan_addresses_fiveBytes :
    (∃ k i, Layout.FirstBeyond 3 (scan ⟨3, false⟩ Source.fiveBytes).program.instructions k i ∧
      (scan ⟨3, false⟩ Source.fiveBytes).diagnostics.filter (·.problem.isTooLarge) =
        [⟨some i.line, .programTooLarge 3⟩]) ∧
    ∀ k i next, (scan ⟨5, false⟩ Source.fiveBytes).program.instructions[k]? = some i →
      (scan ⟨5, false⟩ Source.fiveBytes).program.instructions[k + 1]? = some next →
        next.address = i.address + i.mnemonic.byteLength := by
  refine ⟨?_, ?_⟩
  · exact (scan_addresses ⟨3, false⟩ Source.fiveBytes).2.2.1 (by decide +kernel)
  · exact ((scan_addresses ⟨5, false⟩ Source.fiveBytes).2.2.2 (by decide +kernel)).2

end ByteAssembler
