import ByteAssembler.Proofs.Encoding
import ByteAssembler.Proofs.Validity
import ByteAssembler.Proofs.Verdict

/-
  Sources in terms of their statements. A statement by itself says how many bytes its mnemonic
  takes (`Statement.byteLength`) and which of its operands name labels (`Statement.labelOperands`).
  As long as no operation is rejected, this is what its line says too
  (`byteLength_ofStatement`, `uses_ofStatement`), so the layout of the lines can be read off the
  statements.
-/

namespace ByteAssembler

namespace Statement

/-- The bytes that the mnemonic of a statement takes. -/
def byteLength (statement : Statement) : Nat :=
  match statement.operation with
  | some operation => ((Mnemonic.ofName? operation.mnemonic).map (·.byteLength)).getD 0
  | none => 0

/-- The operands of a statement that name labels: those for an address that do not start like a
number. -/
def labelOperands (statement : Statement) : List String :=
  match statement.operation with
  | some operation =>
    match Mnemonic.ofName? operation.mnemonic with
    | some mnemonic =>
      (mnemonic.signature.zip operation.operands).filterMap fun (kind, token) =>
        if kind = .address ∧ !Operand.startsNumber token then some token else none
    | none => []
  | none => []

theorem Valid.exists_instruction {statement : Statement} (h : statement.Valid)
    {operation : Operation} (ho : statement.operation = some operation) :
    ∃ m operands, Line.Body.ofOperation operation = .instruction m operands :=
  Line.Body.exists_instruction_iff_valid.2 (h operation ho)

theorem byteLength_ofStatement {statement : Statement} (h : statement.Valid) :
    (Line.ofStatement statement).byteLength = statement.byteLength := by
  unfold Line.byteLength byteLength Line.ofStatement
  cases ho : statement.operation with
  | none => rfl
  | some operation =>
    obtain ⟨m, operands, hb⟩ := h.exists_instruction ho
    have hm := (Line.Body.ofOperation_eq_instruction.1 hb).1
    simp only [Option.elim_some, hb, hm, Option.map_some, Option.getD_some]

/-- The label of an operand, read off its token. -/
theorem label?_of_read {kind : OperandKind} {token : String} {operand : Operand String}
    (h : Operand.read kind token = .ok operand) :
    operand.label? =
      if kind = .address ∧ !Operand.startsNumber token then some token else none := by
  cases Operand.read_eq_ok_iff.1 h with
  | register hr => rfl
  | immediate hn => rfl
  | absolute hs hn => simp [hs, Operand.label?]
  | label hs => simp [hs, Operand.label?]

/-- The labels among operands, read off their tokens. -/
theorem filterMap_label?_of_read {kinds : List OperandKind} {tokens : List String}
    {operands : List (Operand String)}
    (h : List.zipWith Operand.read kinds tokens = operands.map .ok) :
    operands.filterMap (·.label?) =
      (kinds.zip tokens).filterMap fun (kind, token) =>
        if kind = .address ∧ !Operand.startsNumber token then some token else none := by
  induction kinds generalizing tokens operands with
  | nil =>
    rw [List.map_eq_nil_iff.1 h.symm]
    rfl
  | cons kind kinds ih =>
    cases tokens with
    | nil =>
      rw [List.map_eq_nil_iff.1 h.symm]
      rfl
    | cons token tokens =>
      cases operands with
      | nil => cases h
      | cons operand operands =>
        obtain ⟨hread, hrest⟩ := List.cons.inj h
        rw [List.zip_cons_cons, List.filterMap_cons, List.filterMap_cons, ih hrest,
          label?_of_read hread]

theorem uses_ofStatement {statement : Statement} (h : statement.Valid) :
    (Line.ofStatement statement).uses = statement.labelOperands := by
  unfold Line.uses labelOperands Line.ofStatement
  cases ho : statement.operation with
  | none => rfl
  | some operation =>
    obtain ⟨m, operands, hb⟩ := h.exists_instruction ho
    obtain ⟨hm, -, hread⟩ := Line.Body.ofOperation_eq_instruction.1 hb
    simp only [Option.elim_some, hb, hm]
    exact filterMap_label?_of_read hread

end Statement

/-- The line that the outcome of parsing makes. -/
def Line.ofParsed : Except Statement.Fault Statement → Line
  | .ok statement => ofStatement statement
  | .error fault => ⟨none, .rejected [.malformedLine fault.message]⟩

/-- The lines of a source that consists of statements. -/
theorem map_read_eq {texts : List String} {statements : List Statement}
    (h : texts.mapM Statement.parse = .ok statements) :
    texts.map Line.read = statements.map Line.ofStatement := by
  calc texts.map Line.read
      = (texts.map Statement.parse).map Line.ofParsed := by rw [List.map_map]; rfl
    _ = (statements.map .ok).map Line.ofParsed := by rw [map_eq_of_mapM_eq_ok h]
    _ = statements.map Line.ofStatement := by rw [List.map_map]; rfl

/-- The byte lengths of valid statements are those of their lines. -/
theorem map_byteLength_eq {statements : List Statement} (h : ∀ st ∈ statements, st.Valid) :
    (statements.map Line.ofStatement).map (·.byteLength) =
      statements.map (·.byteLength) := by
  rw [List.map_map]
  exact List.map_congr_left fun st hst => Statement.byteLength_ofStatement (h st hst)

/-- Where valid statements define a name. -/
theorem definition?_map_ofStatement {statements : List Statement}
    (h : ∀ st ∈ statements, st.Valid) (name : String) :
    Layout.definition? (statements.map Line.ofStatement) name =
      (statements.findIdx? (·.label == some name)).map fun k =>
        ⟨min (Layout.offset (statements.map (·.byteLength)) k) Scan.maxOffset, k + 1⟩ := by
  unfold Layout.definition? Layout.address
  rw [List.findIdx?_map, map_byteLength_eq h]
  rfl

/-- A source that did not fail consists of valid statements. -/
theorem exists_statements_of_not_failed {config : Config} {texts : List String}
    (hok : (scan config texts).failed = false) :
    ∃ statements, texts.mapM Statement.parse = .ok statements ∧
      ∀ st ∈ statements, st.Valid := by
  rw [Scan.scan_eq_run] at hok
  have hline : ∀ text ∈ texts, ∀ ps, (Line.read text).body ≠ .rejected ps := by
    intro text htext
    exact Scan.not_rejected_of_not_failed hok (List.mem_map_of_mem htext)
      (Line.read_rejectsForCause text)
  have hparse : ∀ text ∈ texts, ∃ st, Statement.parse text = .ok st := by
    intro text htext
    cases hp : Statement.parse text with
    | ok st => exact ⟨st, rfl⟩
    | error fault =>
      refine absurd ?_ (hline text htext [.malformedLine fault.message])
      rw [Line.read, hp]
  obtain ⟨statements, hstatements⟩ := exists_mapM_eq_pure hparse
  refine ⟨statements, hstatements, fun st hst => ?_⟩
  have hmem : Line.ofStatement st ∈ texts.map Line.read := by
    rw [map_read_eq hstatements]
    exact List.mem_map_of_mem hst
  obtain ⟨text, htext, hread⟩ := List.mem_map.1 hmem
  rw [Statement.valid_iff, ← hread]
  exact hline text htext

end ByteAssembler
