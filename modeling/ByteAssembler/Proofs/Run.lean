import ByteAssembler.Proofs.Layout
import Mathlib.Data.List.Induction

/-
  What a scan has done after any number of lines. `feed` is taken apart once, field by field
  (`feed_eq`); a run is then followed line by line. After it the line
  count, the offset, the definition and the first use of every name, the overflow mark and the
  instructions are those of the layout (`run_offset`, `run_definition?`, `run_firstUse?`,
  `run_overflowed`, `run_instructions`), and the diagnostics are the reports of its lines, each
  line judged by the state that the lines before it left (`run_diagnostics`).
-/

namespace ByteAssembler.Scan

/-! ## One line -/

/-- What is reported on the label of a line. -/
def labelProblems (s : Scan) (name : String) : List Problem :=
  s.redundancy name ++
    ((s.symbols.definition? name).map fun first => .duplicateLabel name first.line).toList

/-- Whether an instruction is the first that ends beyond the memory. -/
def exceeds (config : Config) (s : Scan) (length : Nat) : Bool :=
  decide (config.memorySize.toNat < s.offset + length) && !s.overflowed

/-- What is reported on the body of a line. -/
def bodyProblems (config : Config) (s : Scan) : Line.Body → List Problem
  | .empty => []
  | .rejected problems => problems
  | .instruction mnemonic _ =>
    if s.exceeds config mnemonic.byteLength then [.programTooLarge config.memorySize.toNat] else []

/-- What is reported on a line. -/
def problems (config : Config) (s : Scan) (l : Line) : List Problem :=
  (l.label.elim [] s.labelProblems) ++ s.bodyProblems config l.body

/-- A label is reported for two reasons: another one stands at its address, or it is defined
already. -/
theorem mem_labelProblems {s : Scan} {name : String} {p : Problem} :
    p ∈ s.labelProblems name ↔
      (∃ existing, s.symbols.nameAt? s.offset = some existing ∧ existing ≠ name ∧
        p = .redundantLabel name existing s.offset) ∨
      ∃ first, s.symbols.definition? name = some first ∧ p = .duplicateLabel name first.line := by
  have hredundancy : p ∈ s.redundancy name ↔ ∃ existing,
      s.symbols.nameAt? s.offset = some existing ∧ existing ≠ name ∧
        p = .redundantLabel name existing s.offset := by
    unfold redundancy
    cases s.symbols.nameAt? s.offset with
    | none => simp
    | some existing => by_cases he : existing = name <;> simp [he]
  rw [labelProblems, List.mem_append, hredundancy, Option.mem_toList, Option.map_eq_some_iff]
  simp only [eq_comm (a := p)]

/-- What is reported on the label of a line. -/
theorem origin_of_mem_label {s : Scan} {l : Line} {p : Problem}
    (h : p ∈ l.label.elim [] s.labelProblems) : p.origin = .label := by
  cases hl : l.label with
  | none =>
    rw [hl] at h
    cases h
  | some name =>
    rw [hl] at h
    obtain ⟨existing, -, -, rfl⟩ | ⟨first, -, rfl⟩ := mem_labelProblems.1 h
    · rfl
    · rfl

theorem report_nil (s : Scan) : s.report [] = s := by
  simp [report]

theorem report_report (s : Scan) (ps qs : List Problem) :
    (s.report ps).report qs = s.report (ps ++ qs) := by
  simp only [report, List.map_append]
  congr 1
  apply Array.toList_inj.1
  simp

theorem defineLabel_eq (s : Scan) (name : String) :
    s.defineLabel name =
      { s.report (s.labelProblems name) with
        symbols := s.symbols.apply (.define name ⟨s.offset, s.line⟩) } := by
  unfold defineLabel labelProblems
  have hs : (s.report (s.redundancy name)).symbols = s.symbols := rfl
  simp only [hs]
  unfold SymbolTable.define
  cases hd : s.symbols.definition? name with
  | none =>
    rw [SymbolTable.apply_define_of_none hd]
    unfold SymbolTable.definition? at hd
    simp only [hd, Option.map_none, Option.toList_none, List.append_nil]
    rfl
  | some first =>
    rw [SymbolTable.apply_define_of_some hd]
    unfold SymbolTable.definition? at hd
    simp only [hd, report_report, Option.map_some, Option.toList_some]
    rfl

theorem referenceAll_eq (s : Scan) (operands : List (Operand String)) :
    s.referenceAll operands =
      s.symbols.applyAll ((operands.filterMap (·.label?)).map (.reference · s.line)) := by
  unfold referenceAll SymbolTable.applyAll
  rw [List.foldl_map]
  rfl

theorem checkMemory_eq (config : Config) (s : Scan) (length : Nat) :
    s.checkMemory config length =
      { s.report (if s.exceeds config length then
            [.programTooLarge config.memorySize.toNat] else []) with
        overflowed := s.overflowed || s.exceeds config length } := by
  have hiff : config.memorySize.toNat < s.offset + length ∧ (!s.overflowed) = true ↔
      s.exceeds config length = true := by
    rw [exceeds, Bool.and_eq_true, decide_eq_true_iff]
  unfold checkMemory
  cases he : s.exceeds config length with
  | true =>
    rw [if_pos (hiff.2 he), Bool.or_true]
    rfl
  | false =>
    rw [if_neg (fun h => Bool.false_ne_true (he.symm.trans (hiff.1 h))), Bool.or_false]
    exact (report_nil s).symm

/-- The offset after a line. -/
def nextOffset (s : Scan) (l : Line) : Nat :=
  match l.body with
  | .instruction mnemonic _ => min (s.offset + mnemonic.byteLength) maxOffset
  | _ => s.offset

/-- Whether a line ends beyond the memory, or one before it did. -/
def nextOverflowed (config : Config) (s : Scan) (l : Line) : Bool :=
  match l.body with
  | .instruction mnemonic _ => s.overflowed || s.exceeds config mnemonic.byteLength
  | _ => s.overflowed

/-- The symbols after a line. -/
def nextSymbols (s : Scan) (l : Line) : SymbolTable :=
  s.symbols.applyAll (l.updates s.offset (s.line + 1))

/-- The state between the label of a line and its body. -/
def atBody (s : Scan) (l : Line) : Scan :=
  { s with
    line := s.line + 1
    symbols := s.symbols.applyAll (l.label.map (.define · ⟨s.offset, s.line + 1⟩)).toList
    diagnostics := s.diagnostics ++
      (l.label.elim [] s.labelProblems).map (Diagnostic.mk (some (s.line + 1))) }

/-- The state after the body of a line. -/
def afterBody (config : Config) (s : Scan) : Line.Body → Scan
  | .empty => s
  | .rejected problems => s.report problems
  | .instruction mnemonic operands => s.place config mnemonic operands

theorem feed_eq_afterBody (config : Config) (s : Scan) (l : Line) :
    feed config s l = (s.atBody l).afterBody config l.body := by
  unfold feed afterBody
  cases hl : l.label with
  | none =>
    have h : s.atBody l = { s with line := s.line + 1 } := by
      simp [atBody, hl, SymbolTable.applyAll]
    rewrite [h]
    rfl
  | some name =>
    have h : s.atBody l = { s with line := s.line + 1 }.defineLabel name := by
      rw [defineLabel_eq]
      simp only [atBody, hl]
      rfl
    rewrite [h]
    rfl

theorem place_eq (config : Config) (s : Scan) (mnemonic : Mnemonic)
    (operands : List (Operand String)) :
    s.place config mnemonic operands =
      { s.report (s.bodyProblems config (.instruction mnemonic operands)) with
        symbols := s.referenceAll operands
        overflowed := s.overflowed || s.exceeds config mnemonic.byteLength
        instructions := s.instructions.push
          ⟨mnemonic, operands.map (·.mapLabel (s.referenceAll operands).indexOf), s.offset, s.line⟩
        offset := min (s.offset + mnemonic.byteLength) maxOffset } := by
  unfold place
  simp only [checkMemory_eq]
  rfl

/-- **What a line does to a scan.** Its label is defined at the offset before the line, its operands
are looked up in the symbols after it, and its reports depend on the state before it alone. -/
theorem feed_eq (config : Config) (s : Scan) (l : Line) :
    feed config s l =
      { line := s.line + 1
        offset := s.nextOffset l
        symbols := s.nextSymbols l
        overflowed := s.nextOverflowed config l
        instructions := s.instructions ++
          (l.instruction? (s.nextSymbols l).indexOf s.offset (s.line + 1)).toList
        diagnostics := s.diagnostics ++
          (s.problems config l).map (Diagnostic.mk (some (s.line + 1))) } := by
  have hsyms : ∀ operands : List (Operand String), l.uses = operands.filterMap (·.label?) →
      (s.atBody l).referenceAll operands = s.nextSymbols l := by
    intro operands hu
    rw [referenceAll_eq, nextSymbols, Line.updates, hu]
    simp only [atBody, SymbolTable.applyAll, List.foldl_append]
  have hdiag : ∀ ps : List Problem, s.bodyProblems config l.body = ps →
      ((s.atBody l).report ps).diagnostics =
        s.diagnostics ++ (s.problems config l).map (Diagnostic.mk (some (s.line + 1))) := by
    intro ps hps
    apply Array.toList_inj.1
    simp [report, atBody, problems, hps]
  rw [feed_eq_afterBody]
  cases hb : l.body with
  | empty =>
    have hu : l.uses = [] := by simp [Line.uses, hb]
    have hd := hdiag [] (by rw [hb]; rfl)
    rw [report_nil] at hd
    simp only [Line.instruction?, nextOffset, nextOverflowed, hb, ← hd, ← hsyms [] hu]
    simp [afterBody, atBody, referenceAll]
  | rejected ps =>
    have hu : l.uses = [] := by simp [Line.uses, hb]
    have hd := hdiag ps (by rw [hb]; rfl)
    simp only [Line.instruction?, nextOffset, nextOverflowed, hb, ← hd, ← hsyms [] hu]
    simp [afterBody, atBody, referenceAll, report]
  | instruction mnemonic operands =>
    have hu : l.uses = operands.filterMap (·.label?) := by simp [Line.uses, hb]
    have hd := hdiag _ (by rw [hb])
    simp only [Line.instruction?, nextOffset, nextOverflowed, hb, afterBody, place_eq,
      hsyms operands hu, ← hd]
    rfl

theorem feed_instructions (config : Config) (s : Scan) (l : Line) :
    (feed config s l).instructions.toList =
      s.instructions.toList ++
        (l.instruction? (s.nextSymbols l).indexOf s.offset (s.line + 1)).toList := by
  rw [feed_eq]
  exact Array.toList_appendList

theorem feed_diagnostics (config : Config) (s : Scan) (l : Line) :
    (feed config s l).diagnostics.toList =
      s.diagnostics.toList ++ (s.problems config l).map (Diagnostic.mk (some (s.line + 1))) := by
  rw [feed_eq]
  exact Array.toList_appendList

theorem nextOffset_eq {s : Scan} (h : s.offset ≤ maxOffset) (l : Line) :
    s.nextOffset l = min (s.offset + l.byteLength) maxOffset := by
  unfold nextOffset Line.byteLength
  cases l.body with
  | instruction mnemonic operands => rfl
  | _ => exact (Nat.min_eq_left h).symm

theorem nextOverflowed_iff (config : Config) (s : Scan) (l : Line) :
    s.nextOverflowed config l = true ↔
      s.overflowed = true ∨
        0 < l.byteLength ∧ config.memorySize.toNat < s.offset + l.byteLength := by
  unfold nextOverflowed Line.byteLength
  cases l.body with
  | instruction mnemonic operands =>
    have hpos := mnemonic.byteLength_pos
    cases ho : s.overflowed <;> simp [exceeds, hpos, ho]
  | _ => simp

/-! ## All lines -/

/-- The state after a list of lines. -/
def run (config : Config) (lines : List Line) : Scan :=
  lines.foldl (feed config) {}

theorem scan_eq_run (config : Config) (texts : List String) :
    scan config texts = (run config (texts.map Line.read)).finish config := by
  unfold scan run
  rw [List.foldl_map]

theorem run_concat (config : Config) (lines : List Line) (l : Line) :
    run config (lines ++ [l]) = feed config (run config lines) l := by
  unfold run
  rw [List.foldl_append]
  rfl

section Run

variable (config : Config) (lines : List Line)

theorem run_line : (run config lines).line = lines.length := by
  induction lines using List.reverseRecOn with
  | nil => rfl
  | append_singleton lines l ih =>
    rw [run_concat, feed_eq, List.length_append]
    simp only [ih]
    rfl

theorem run_offset : (run config lines).offset = min (Layout.size lines) maxOffset := by
  induction lines using List.reverseRecOn with
  | nil => rfl
  | append_singleton lines l ih =>
    have hle : (run config lines).offset ≤ maxOffset := by
      rw [ih]
      exact Nat.min_le_right _ _
    rw [run_concat, feed_eq, Layout.size_concat]
    simp only [nextOffset_eq hle, ih]
    omega

/-- The offset of a scan is the address of the line it reads next. -/
theorem run_offset_eq_address :
    (run config lines).offset = Layout.address lines lines.length := by
  rw [run_offset, Layout.address_length]

theorem run_symbols_concat (l : Line) :
    (run config (lines ++ [l])).symbols =
      (run config lines).symbols.applyAll
        (l.updates (Layout.address lines lines.length) (lines.length + 1)) := by
  rw [run_concat, feed_eq, nextSymbols, run_offset_eq_address, run_line]

theorem run_names_nodup : (run config lines).symbols.names.Nodup := by
  induction lines using List.reverseRecOn with
  | nil => exact List.nodup_nil
  | append_singleton lines l ih =>
    rw [run_symbols_concat]
    exact SymbolTable.nodup_names_applyAll ih _

/-- The table holds exactly the names that the lines mention. -/
theorem mem_run_names {name : String} :
    name ∈ (run config lines).symbols.names ↔ Layout.Mentioned lines name := by
  induction lines using List.reverseRecOn with
  | nil => simp [run, SymbolTable.names, Layout.Mentioned]
  | append_singleton lines l ih =>
    rw [run_symbols_concat, SymbolTable.mem_names_applyAll, ih, Layout.mentioned_concat]
    refine or_congr_right ?_
    constructor
    · rintro ⟨u, hu, rfl⟩
      rcases Line.mem_updates.1 hu with ⟨name, hl, rfl⟩ | ⟨name, hl, rfl⟩
      · exact Or.inl hl
      · exact Or.inr hl
    · rintro (hl | hl)
      · exact ⟨_, Line.mem_updates.2 (Or.inl ⟨name, hl, rfl⟩), rfl⟩
      · exact ⟨_, Line.mem_updates.2 (Or.inr ⟨name, hl, rfl⟩), rfl⟩

theorem run_definition? (name : String) :
    (run config lines).symbols.definition? name = Layout.definition? lines name := by
  induction lines using List.reverseRecOn with
  | nil => rfl
  | append_singleton lines l ih =>
    rw [run_symbols_concat, SymbolTable.definition?_applyAll, ih, Layout.definition?_concat,
      Line.findSome?_definition?_updates]

theorem run_firstUse? (name : String) :
    (run config lines).symbols.firstUse? name = Layout.firstUse? lines name := by
  induction lines using List.reverseRecOn with
  | nil => rfl
  | append_singleton lines l ih =>
    rw [run_symbols_concat, SymbolTable.firstUse?_applyAll, ih, Layout.firstUse?_concat,
      Line.findSome?_use?_updates]

/-- The entries of the table, for every name that the lines mention. -/
theorem mem_run_entries {symbol : Symbol} :
    symbol ∈ (run config lines).symbols.entries ↔
      Layout.Mentioned lines symbol.name ∧
        Layout.definition? lines symbol.name = symbol.definition ∧
        Layout.firstUse? lines symbol.name = symbol.firstUse := by
  rw [SymbolTable.mem_entries_iff (run_names_nodup config lines), mem_run_names,
    run_definition?, run_firstUse?]

/-- Since an offset is cut off only at the largest memory size, it tells whether the memory is
exceeded as well as the exact sum does. -/
theorem memorySize_lt_min_add_iff {n length : Nat} (h : 0 < length) :
    config.memorySize.toNat < min n maxOffset + length ↔ config.memorySize.toNat < n + length := by
  have hsize : config.memorySize.toNat < 65536 := config.memorySize.toNat_lt
  have hmax : maxOffset = 65535 := rfl
  omega

/-- The overflow mark is set once the lines take more bytes than the memory has. -/
theorem run_overflowed :
    (run config lines).overflowed = decide (config.memorySize.toNat < Layout.size lines) := by
  induction lines using List.reverseRecOn with
  | nil => exact (decide_eq_false (Nat.not_lt_zero _)).symm
  | append_singleton lines l ih =>
    rw [run_concat, feed_eq, Layout.size_concat, Bool.eq_iff_iff, nextOverflowed_iff, ih,
      run_offset, decide_eq_true_iff, decide_eq_true_iff]
    rcases Nat.eq_zero_or_pos l.byteLength with h0 | hpos
    · simp [h0]
    · rw [memorySize_lt_min_add_iff config hpos]
      omega

/-- An instruction is reported for its size if the memory ends within it. -/
theorem exceeds_run_iff {length : Nat} (h : 0 < length) :
    (run config lines).exceeds config length = true ↔
      Layout.size lines ≤ config.memorySize.toNat ∧
        config.memorySize.toNat < Layout.size lines + length := by
  rw [exceeds, run_overflowed, run_offset, Bool.and_eq_true, decide_eq_true_iff,
    memorySize_lt_min_add_iff config h, Bool.not_eq_true', decide_eq_false_iff_not]
  omega

/-- No label stands at an address at which no name is defined. -/
theorem run_nameAt?_eq_none_iff {address : Nat} :
    (run config lines).symbols.nameAt? address = none ↔
      ∀ name d, Layout.definition? lines name = some d → d.address ≠ address := by
  rw [SymbolTable.nameAt?_eq_none_iff]
  constructor
  · intro h name d hd haddress
    have hlabel : some name ∈ lines.map (·.label) := by
      by_contra hnot
      rw [Layout.definition?_eq_none_iff.2 hnot] at hd
      cases hd
    have hentry : (⟨name, some d, Layout.firstUse? lines name⟩ : Symbol) ∈
        (run config lines).symbols.entries :=
      (mem_run_entries config lines).2 ⟨Layout.mentioned_iff.2 (Or.inl hlabel), hd, rfl⟩
    exact h _ hentry (congrArg some haddress)
  · intro h symbol hentry haddress
    obtain ⟨d, hd, rfl⟩ := Option.map_eq_some_iff.1 haddress
    obtain ⟨-, hdefinition, -⟩ := (mem_run_entries config lines).1 hentry
    exact h symbol.name d (hdefinition.trans hd) rfl

theorem definition?_of_run_nameAt? {address : Nat} {name : String}
    (h : (run config lines).symbols.nameAt? address = some name) :
    ∃ d, Layout.definition? lines name = some d ∧ d.address = address := by
  obtain ⟨symbol, hentry, rfl, haddress⟩ := SymbolTable.exists_of_nameAt?_eq_some h
  obtain ⟨d, hd, hat⟩ := Option.map_eq_some_iff.1 haddress
  obtain ⟨-, hdefinition, -⟩ := (mem_run_entries config lines).1 hentry
  exact ⟨d, hdefinition.trans hd, hat⟩

theorem prefix_run_names (l : Line) :
    (run config lines).symbols.names <+: (run config (lines ++ [l])).symbols.names := by
  rw [run_symbols_concat]
  exact SymbolTable.names_prefix_applyAll _ _

/-- The instructions hold the indices of the final table, although each was placed with the
table of its time: a name keeps the index it got first. -/
theorem run_instructions :
    (run config lines).instructions.toList =
      Layout.instructions (run config lines).symbols.indexOf lines := by
  induction lines using List.reverseRecOn with
  | nil => rfl
  | append_singleton lines l ih =>
    have hkeep : Layout.instructions (run config lines).symbols.indexOf lines =
        Layout.instructions (run config (lines ++ [l])).symbols.indexOf lines := by
      refine Layout.instructions_congr fun name hname => ?_
      have hmem := (mem_run_names config lines).2 hname
      exact (SymbolTable.indexOf_of_prefix_names (prefix_run_names config lines l) hmem).symm
    have hsyms : (run config lines).nextSymbols l = (run config (lines ++ [l])).symbols := by
      rw [run_concat, feed_eq]
    rw [Layout.instructions_concat, ← hkeep, ← ih, run_concat, feed_instructions, hsyms,
      run_concat, run_offset_eq_address, run_line]

/-- The diagnostics of a run are the reports of its lines, one line after the other. -/
theorem run_diagnostics :
    (run config lines).diagnostics.toList =
      lines.zipIdx.flatMap fun (l, k) =>
        ((run config (lines.take k)).problems config l).map (Diagnostic.mk (some (k + 1))) := by
  induction lines using List.reverseRecOn with
  | nil => rfl
  | append_singleton lines l ih =>
    rw [run_concat, feed_diagnostics, run_line, ih, List.zipIdx_append, List.flatMap_append]
    congr 1
    · refine List.flatMap_congr fun entry hentry => ?_
      have hk := (List.mem_zipIdx' hentry).1
      simp only [List.take_append_of_le_length (Nat.le_of_lt hk)]
    · simp

/-- A diagnostic of a run is the report of one of its lines. -/
theorem mem_run_diagnostics {d : Diagnostic} :
    d ∈ (run config lines).diagnostics.toList ↔
      ∃ k l, lines[k]? = some l ∧
        ∃ p ∈ (run config (lines.take k)).problems config l, d = ⟨some (k + 1), p⟩ := by
  simp only [run_diagnostics, List.mem_flatMap, Prod.exists, List.mk_mem_zipIdx_iff_getElem?,
    List.mem_map, eq_comm (a := d)]
  exact exists_comm

end Run

end ByteAssembler.Scan
