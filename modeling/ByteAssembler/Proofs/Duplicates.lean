import ByteAssembler.Proofs.Reports
import ByteAssembler.Proofs.TableContents

/-
  Names that are the label of several lines. A line adds a report exactly if the lines before it
  have its label already (`duplicates_run_concat`), so that a run reports each of these lines but
  the first (`duplicates_run`). An accepted operand that names a label is stored as an index which
  leads to the entry of that name (`exists_label_of_usesAt`), and the entry keeps what its first
  definition says. `scan_duplicateLabels` puts both together.
-/

namespace ByteAssembler

/-! ## Names that are defined again -/

namespace Layout

/-- The positions of a name among the labels of lines. -/
def positionsOf (labels : List (Option String)) (name : String) : List Nat :=
  labels.zipIdx.filterMap fun (label, k) => if label = some name then some k else none

theorem positionsOf_concat (labels : List (Option String)) (label : Option String)
    (name : String) :
    positionsOf (labels ++ [label]) name =
      positionsOf labels name ++ if label = some name then [labels.length] else [] := by
  unfold positionsOf
  rw [List.zipIdx_append, List.filterMap_append, Nat.zero_add]
  congr 1
  by_cases h : label = some name
  · simp [h]
  · simp [h]

/-- A name is defined at its first position. -/
theorem head?_positionsOf (labels : List (Option String)) (name : String) :
    (positionsOf labels name).head? = labels.findIdx? (· == some name) := by
  induction labels using List.reverseRecOn with
  | nil => rfl
  | append_singleton labels label ih =>
    rw [positionsOf_concat, List.head?_append, ih, List.findIdx?_append, List.findIdx?_singleton]
    by_cases h : label = some name
    · simp [h]
    · simp [h]

end Layout

/-- The reports that are due if a name is the label at these positions: one for each but the first,
which it names. -/
def duplicateReports (name : String) : List Nat → List Diagnostic
  | [] => []
  | first :: more => more.map fun k => ⟨some (k + 1), .duplicateLabel name (first + 1)⟩

theorem duplicateReports_concat (name : String) (positions : List Nat) (k : Nat) :
    duplicateReports name (positions ++ [k]) =
      duplicateReports name positions ++
        (positions.head?.map fun first =>
          ⟨some (k + 1), .duplicateLabel name (first + 1)⟩).toList := by
  cases positions with
  | nil => rfl
  | cons first more => exact List.map_append

namespace Scan

/-- What a line adds to the reports that a name is defined again. -/
theorem duplicates_run_concat (config : Config) (lines : List Line) {l : Line}
    (hcause : l.RejectsForCause) (name : String) :
    (run config (lines ++ [l])).diagnostics.toList.filter (·.problem.isDuplicate name) =
      (run config lines).diagnostics.toList.filter (·.problem.isDuplicate name) ++
        if l.label = some name then
          ((Layout.definition? lines name).map fun first =>
            ⟨some (lines.length + 1), .duplicateLabel name first.line⟩).toList
        else [] := by
  rw [run_concat, feed_diagnostics, List.filter_append, List.filter_map, run_line]
  congr 1
  show ((run config lines).problems config l |>.filter (·.isDuplicate name)).map _ = _
  rw [filter_problems_label config _ hcause fun _ => Problem.origin_of_isDuplicate]
  cases hl : l.label with
  | none => rfl
  | some other =>
    rw [Option.elim_some, filter_isDuplicate_labelProblems, run_definition?]
    by_cases hname : other = name
    · rw [if_pos hname, if_pos (congrArg some hname)]
      cases Layout.definition? lines name <;> rfl
    · rw [if_neg hname, if_neg (fun h => hname (Option.some.inj h))]
      rfl

/-- **A name is reported again at each of its lines but the first.** -/
theorem duplicates_run (config : Config) {lines : List Line}
    (hcause : ∀ l ∈ lines, l.RejectsForCause) (name : String) :
    (run config lines).diagnostics.toList.filter (·.problem.isDuplicate name) =
      duplicateReports name (Layout.positionsOf (lines.map (·.label)) name) := by
  induction lines using List.reverseRecOn with
  | nil => rfl
  | append_singleton lines l ih =>
    have hlines : ∀ l ∈ lines, l.RejectsForCause := fun l' hl' =>
      hcause l' (List.mem_append_left _ hl')
    have hfirst : (Layout.definition? lines name).map (·.line) =
        (Layout.positionsOf (lines.map (·.label)) name).head?.map (· + 1) := by
      rw [Layout.head?_positionsOf, List.findIdx?_map, Layout.definition?, Option.map_map]
      rfl
    have hreports := congrArg (Option.map fun line =>
      Diagnostic.mk (some (lines.length + 1)) (.duplicateLabel name line)) hfirst
    rw [Option.map_map, Option.map_map] at hreports
    rw [duplicates_run_concat config lines (hcause l (by simp)), ih hlines, List.map_append,
      List.map_singleton, Layout.positionsOf_concat, List.length_map]
    by_cases hl : l.label = some name
    · rw [if_pos hl, if_pos hl, duplicateReports_concat]
      exact congrArg (fun report => _ ++ Option.toList report) hreports
    · rw [if_neg hl, if_neg hl, List.append_nil, List.append_nil]

end Scan

namespace Source

/-- The positions of all lines with a label. -/
def labelLines (texts : List String) (name : String) : List Nat :=
  Layout.positionsOf (texts.map fun text => (Statement.counted text).label) name

/-- Operand `j` of line `k` is accepted as a use of a label. -/
def UsesAt (texts : List String) (k j : Nat) (name : String) : Prop :=
  ∃ text operation, ∃ m : Mnemonic, texts[k]? = some text ∧
    (Statement.counted text).operation = some operation ∧
    Text.SameName operation.mnemonic m.name ∧ m.signature[j]? = some .address ∧
    operation.operands[j]? = some name ∧ Operand.startsNumber name = false

variable (texts : List String) (name : String)

theorem map_label_read :
    (texts.map Line.read).map (·.label) = texts.map fun text => (Statement.counted text).label := by
  simp only [List.map_map, Function.comp_def, Line.label_counted]

theorem head?_labelLines : (labelLines texts name).head? = labelLine? texts name := by
  rw [labelLines, Layout.head?_positionsOf, List.findIdx?_map]
  rfl

end Source

/-- The operand that an operation has at a position where it names a label. -/
theorem Operation.Makes.exists_label {symbols : SymbolTable} {operation : Operation}
    {i : Instruction} (h : operation.Makes symbols i) {j : Nat} {name : String}
    (hkind : i.mnemonic.signature[j]? = some .address) (ho : operation.operands[j]? = some name)
    (hstart : Operand.startsNumber name = false) :
    ∃ index s, i.operands[j]? = some (.address (.label index)) ∧
      symbols.get? index = some s ∧ s.name = name := by
  obtain ⟨hj, hkind⟩ := List.getElem?_eq_some_iff.1 hkind
  obtain ⟨hj', htoken⟩ := List.getElem?_eq_some_iff.1 ho
  have hzip : j < (i.mnemonic.signature.zip operation.operands).length := by
    rw [List.length_zip]
    omega
  have hlt : j < i.operands.length := h.operands.length_eq ▸ hzip
  have hrepresents := h.operands.get hzip hlt
  simp only [List.get_eq_getElem, List.getElem_zip, hkind, htoken] at hrepresents
  rw [List.getElem?_eq_getElem hlt]
  generalize i.operands[j] = operand at hrepresents
  cases hrepresents with
  | absolute hs _ =>
    rw [hstart] at hs
    cases hs
  | label _ hget hname => exact ⟨_, _, rfl, hget, hname⟩

/-- An accepted use of a label is stored as an index that leads to the label. -/
theorem exists_label_of_usesAt (config : Config) {texts : List String} {k j : Nat} {name : String}
    (h : Source.UsesAt texts k j name) :
    ∃ i index s, (scan config texts).instructionsOn (k + 1) = [i] ∧
      i.operands[j]? = some (.address (.label index)) ∧
      (scan config texts).program.symbols.get? index = some s ∧ s.name = name := by
  obtain ⟨text, operation, m, ht, hoperation, hm, hkind, ho, hstart⟩ := h
  have hinstructions := instructionsOn_scan config ht
  cases hplace : (Line.read text).instruction? (scan config texts).program.symbols.indexOf
      (Layout.address (texts.map Line.read) k) (k + 1) with
  | none =>
    rw [instruction?_eq_none_iff.1 hplace] at hoperation
    cases hoperation
  | some i =>
    obtain ⟨st, operation', hp, hv, ho', hmakes⟩ := exists_makes_of_instruction? hplace
      fun name hu => mem_scan_names (List.mem_of_getElem? ht) hu
    rw [Statement.counted_of_valid hp hv, ho'] at hoperation
    obtain rfl := Option.some.inj hoperation
    have hsame := (Mnemonic.ofName?_eq_some_iff.2 hmakes.mnemonic).symm.trans
      (Mnemonic.ofName?_eq_some_iff.2 hm)
    rw [← Option.some.inj hsame] at hkind
    obtain ⟨index, s, hindex, hget, hname⟩ := hmakes.exists_label hkind ho hstart
    rw [hplace] at hinstructions
    exact ⟨i, index, s, hinstructions, hindex, hget, hname⟩

/-- **Names that are defined again.** A name is reported once for each line that has it as its
label, other than the first, at that line and with the line of the first. Whatever becomes of these
lines, the first one fixes the address: every accepted use of the name, wherever it stands, leads
to the offset of that line. -/
theorem scan_duplicateLabels (config : Config) (texts : List String) (name : String) :
    (scan config texts).diagnostics.filter (·.problem.isDuplicate name) =
      duplicateReports name (Source.labelLines texts name) ∧
    ∀ first, (Source.labelLines texts name).head? = some first →
      ∀ k j, Source.UsesAt texts k j name →
        ∃ i index s, (scan config texts).instructionsOn (k + 1) = [i] ∧
          i.operands[j]? = some (.address (.label index)) ∧
          (scan config texts).program.symbols.get? index = some s ∧ s.name = name ∧
          s.address? = some (Source.offset texts first) := by
  refine ⟨?_, fun first hfirst k j huse => ?_⟩
  · have hcause : ∀ l ∈ texts.map Line.read, l.RejectsForCause := fun _ =>
      Line.rejectsForCause_of_mem_map_read
    have hearly : ∀ d : Diagnostic, d.problem.isDuplicate name = true →
        d.problem.origin ≠ .symbol := by
      intro d hd
      simp [Problem.origin_of_isDuplicate hd]
    rw [filter_scan_of_early config texts hearly, Scan.duplicates_run config hcause,
      Source.map_label_read]
    rfl
  · obtain ⟨i, index, s, hinstructions, hindex, hget, rfl⟩ := exists_label_of_usesAt config huse
    refine ⟨i, index, s, hinstructions, hindex, hget, rfl, ?_⟩
    obtain ⟨hdefinition, -⟩ := mem_scan_entries (List.mem_of_getElem? hget)
    rw [Source.head?_labelLines] at hfirst
    rw [Symbol.address?, hdefinition, hfirst]
    rfl

/-- A name whose first line is rejected and which is defined twice more, once at the same offset. -/
def Source.threeTimes : List String :=
  ["jmp x", "x: mov a", "x:", "x: jz x", "nop"]

theorem scan_duplicateLabels_threeTimes :
    Source.labelLines Source.threeTimes "x" = [1, 2, 3] ∧
    (scan {} Source.threeTimes).diagnostics.filter (·.problem.isDuplicate "x") =
      [⟨some 3, .duplicateLabel "x" 2⟩, ⟨some 4, .duplicateLabel "x" 2⟩] ∧
    ∃ i index s, (scan {} Source.threeTimes).instructionsOn 4 = [i] ∧
      i.operands[0]? = some (.address (.label index)) ∧
      (scan {} Source.threeTimes).program.symbols.get? index = some s ∧ s.name = "x" ∧
      s.address? = some (Source.offset Source.threeTimes 1) := by
  have hlines : Source.labelLines Source.threeTimes "x" = [1, 2, 3] := by decide +kernel
  obtain ⟨hreports, huses⟩ := scan_duplicateLabels {} Source.threeTimes "x"
  rw [hlines] at hreports huses
  have hoperation : (Statement.counted "x: jz x").operation = some ⟨"jz", ["x"]⟩ := by
    decide +kernel
  have hmnemonic : Mnemonic.ofName? "jz" = some .jz := by decide +kernel
  refine ⟨hlines, hreports, huses 1 rfl 3 0 ?_⟩
  exact ⟨"x: jz x", ⟨"jz", ["x"]⟩, .jz, rfl, hoperation, Mnemonic.ofName?_eq_some_iff.1 hmnemonic,
    rfl, rfl, by decide +kernel⟩

end ByteAssembler
