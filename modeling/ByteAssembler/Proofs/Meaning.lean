import ByteAssembler.Proofs.Statements
import Mathlib.Data.List.Forall2

/-
  What the text of a line counts for. `Statement.counted` is the statement of a line without an
  operation that is rejected; label, length and used labels of the line can be read off it
  (`label_counted`, `byteLength_counted`, `labelOperands_counted`). An instruction of the program
  is what the tokens of its line denote, where a label operand denotes the label of that name in
  the symbol table (`Operation.Makes`, `exists_makes_of_instruction?`).
-/

namespace ByteAssembler

/-! ## What counts of a line -/

namespace Statement

/-- The statement of a line without an operation that is rejected. A line that is no statement
counts for nothing. -/
def counted (text : String) : Statement :=
  match parse text with
  | .ok statement => if statement.Valid then statement else ⟨statement.label, none⟩
  | .error _ => ⟨none, none⟩

theorem counted_of_valid {text : String} {statement : Statement}
    (h : parse text = .ok statement) (hv : statement.Valid) : counted text = statement := by
  simp only [counted, h, if_pos hv]

end Statement

namespace Line

/-- A line is a valid statement, or it is rejected and only its label counts. -/
theorem read_cases (text : String) :
    (∃ st, Statement.parse text = .ok st ∧ st.Valid ∧ read text = ofStatement st) ∨
      ∃ ps, (read text).body = .rejected ps ∧
        Statement.counted text = ⟨(read text).label, none⟩ := by
  unfold read Statement.counted
  cases hp : Statement.parse text with
  | error fault => exact Or.inr ⟨_, rfl, rfl⟩
  | ok st =>
    by_cases hv : st.Valid
    · exact Or.inl ⟨st, rfl, hv, rfl⟩
    · obtain ⟨ps, hps⟩ : ∃ ps, (ofStatement st).body = .rejected ps := by
        by_contra hnone
        exact hv (Statement.valid_iff.2 fun ps hb => hnone ⟨ps, hb⟩)
      exact Or.inr ⟨ps, hps, if_neg hv⟩

theorem label_counted (text : String) : (Statement.counted text).label = (read text).label := by
  obtain ⟨st, hp, hv, hread⟩ | ⟨ps, -, hcounted⟩ := read_cases text
  · rw [Statement.counted_of_valid hp hv, hread]
    rfl
  · rw [hcounted]

theorem byteLength_counted (text : String) :
    (Statement.counted text).byteLength = (read text).byteLength := by
  obtain ⟨st, hp, hv, hread⟩ | ⟨ps, hb, hcounted⟩ := read_cases text
  · rw [Statement.counted_of_valid hp hv, hread, Statement.byteLength_ofStatement hv]
  · rw [hcounted, byteLength, hb]
    rfl

theorem labelOperands_counted (text : String) :
    (Statement.counted text).labelOperands = (read text).uses := by
  obtain ⟨st, hp, hv, hread⟩ | ⟨ps, hb, hcounted⟩ := read_cases text
  · rw [Statement.counted_of_valid hp hv, hread, Statement.uses_ofStatement hv]
  · rw [hcounted, uses, hb]
    rfl

end Line

/-! ## What the tokens of an operation denote -/

/-- What a token denotes as an operand in a program with these symbols. -/
inductive Operand.Represents (symbols : SymbolTable) : OperandKind → String → Operand Nat → Prop
  | register {token : String} {r : Register} (h : Text.SameName token r.name) :
    Represents symbols .register token (.register r)
  | immediate {token : String} {value : UInt8} (h : ByteLiteral.parse token = .ok value) :
    Represents symbols .immediate token (.immediate value)
  | absolute {token : String} {a : UInt8} (hs : startsNumber token = true)
    (h : ByteLiteral.parse token = .ok a) :
    Represents symbols .address token (.address (.absolute a))
  | label {token : String} {index : Nat} {symbol : Symbol} (hs : startsNumber token = false)
    (h : symbols.get? index = some symbol) (hname : symbol.name = token) :
    Represents symbols .address token (.address (.label index))

/-- Whether an instruction says the same as an operation. -/
structure Operation.Makes (symbols : SymbolTable) (operation : Operation) (i : Instruction) :
    Prop where
  mnemonic : Text.SameName operation.mnemonic i.mnemonic.name
  count : operation.operands.length = i.mnemonic.arity
  operands : List.Forall₂ (fun q o => Operand.Represents symbols q.1 q.2 o)
    (i.mnemonic.signature.zip operation.operands) i.operands

namespace Operand

variable {symbols : SymbolTable}

theorem Represents.symbol {kind : OperandKind} {token : String} {index : Nat}
    (h : Represents symbols kind token (.address (.label index))) :
    ∃ s, symbols.get? index = some s ∧ s.name = token := by
  cases h with
  | label hs hget hname => exact ⟨_, hget, hname⟩

/-- With the index of its label, an operand stands for the token it was read from. -/
theorem represents_mapLabel {kind : OperandKind} {token : String} {o : Operand String}
    (h : read kind token = .ok o) (hname : ∀ name, o.label? = some name → name ∈ symbols.names) :
    Represents symbols kind token (o.mapLabel symbols.indexOf) := by
  cases read_eq_ok_iff.1 h with
  | register hr => exact .register (Register.ofName?_eq_some_iff.1 hr)
  | immediate hn => exact .immediate hn
  | absolute hs hn => exact .absolute hs hn
  | label hs =>
    obtain ⟨symbol, hget, hsymbol⟩ := SymbolTable.find?_of_mem (hname token rfl)
    exact .label hs hget hsymbol

theorem forall₂_of_zipWith_read {kinds : List OperandKind} {tokens : List String}
    {operands : List (Operand String)} (h : List.zipWith read kinds tokens = operands.map .ok) :
    List.Forall₂ (fun q o => read q.1 q.2 = .ok o) (kinds.zip tokens) operands := by
  have hzip : (kinds.zip tokens).map (fun q => read q.1 q.2) = operands.map .ok := by
    rw [List.zip, List.map_zipWith, h]
  rw [← List.forall₂_eq_eq_eq, List.forall₂_map_left_iff, List.forall₂_map_right_iff] at hzip
  exact hzip

theorem forall₂_represents {kinds : List OperandKind} {tokens : List String}
    {operands : List (Operand String)} (h : List.zipWith read kinds tokens = operands.map .ok)
    (hnames : ∀ name ∈ operands.filterMap (·.label?), name ∈ symbols.names) :
    List.Forall₂ (fun q o => Represents symbols q.1 q.2 o) (kinds.zip tokens)
      (operands.map (·.mapLabel symbols.indexOf)) := by
  have hlabel : ∀ o ∈ operands, ∀ name, o.label? = some name → name ∈ symbols.names :=
    fun o ho name hname => hnames name (List.mem_filterMap.2 ⟨o, ho, hname⟩)
  have hboth := (List.forall₂_and_left _ _).2 ⟨hlabel, (forall₂_of_zipWith_read h).flip⟩
  rw [List.forall₂_map_right_iff]
  exact hboth.flip.imp fun q o ho => represents_mapLabel ho.2 ho.1

end Operand

/-- The label of an operand is the one that the token at its place names. -/
theorem Operation.Makes.label {symbols : SymbolTable} {operation : Operation} {i : Instruction}
    (h : operation.Makes symbols i) {j index : Nat}
    (hj : i.operands[j]? = some (.address (.label index))) :
    ∃ s, symbols.get? index = some s ∧ operation.operands[j]? = some s.name := by
  obtain ⟨hlt, hoperand⟩ := List.getElem?_eq_some_iff.1 hj
  have hzip : j < (i.mnemonic.signature.zip operation.operands).length :=
    h.operands.length_eq ▸ hlt
  have htoken : j < operation.operands.length := by
    rw [List.length_zip] at hzip
    omega
  have hrepresents := h.operands.get hzip hlt
  simp only [List.get_eq_getElem, List.getElem_zip, hoperand] at hrepresents
  obtain ⟨s, hs, hname⟩ := hrepresents.symbol
  exact ⟨s, hs, by rw [List.getElem?_eq_getElem htoken, hname]⟩

/-! ## The instructions of a program -/

/-- A line has an instruction exactly if an operation counts. -/
theorem instruction?_eq_none_iff {index : String → Nat} {place line : Nat} {text : String} :
    (Line.read text).instruction? index place line = none ↔
      (Statement.counted text).operation = none := by
  obtain ⟨st, hp, hv, hread⟩ | ⟨ps, hb, hcounted⟩ := Line.read_cases text
  · rw [Statement.counted_of_valid hp hv, hread, Line.instruction?, Line.ofStatement]
    cases ho : st.operation with
    | none => simp
    | some operation =>
      obtain ⟨m, operands, hb⟩ := hv.exists_instruction ho
      simp [hb]
  · simp [Line.instruction?, hb, hcounted]

/-- The instruction of a line says the same as the operation in its text. -/
theorem exists_makes_of_instruction? {symbols : SymbolTable} {text : String} {place line : Nat}
    {i : Instruction}
    (hi : (Line.read text).instruction? symbols.indexOf place line = some i)
    (hnames : ∀ name ∈ (Line.read text).uses, name ∈ symbols.names) :
    ∃ st operation, Statement.parse text = .ok st ∧ st.Valid ∧ st.operation = some operation ∧
      operation.Makes symbols i := by
  obtain ⟨m, operands, hb, rfl⟩ := Line.instruction?_eq_some.1 hi
  obtain ⟨st, hp, hv, hread⟩ | ⟨ps, hrejected, -⟩ := Line.read_cases text
  · rw [Line.uses, hb] at hnames
    rw [hread] at hb
    cases ho : st.operation with
    | none => simp [Line.ofStatement, ho] at hb
    | some operation =>
      simp only [Line.ofStatement, ho, Option.elim_some] at hb
      obtain ⟨hm, hlen, hoperands⟩ := Line.Body.ofOperation_eq_instruction.1 hb
      exact ⟨st, operation, hp, hv, ho, Mnemonic.ofName?_eq_some_iff.1 hm, hlen,
        Operand.forall₂_represents hoperands hnames⟩
  · rw [hrejected] at hb
    cases hb

section Scan

variable {config : Config} {texts : List String}

theorem mem_scan_instructions {i : Instruction} :
    i ∈ (scan config texts).program.instructions ↔
      ∃ k text, texts[k]? = some text ∧
        (Line.read text).instruction? (scan config texts).program.symbols.indexOf
          (Layout.address (texts.map Line.read) k) (k + 1) = some i := by
  rw [Scan.scan_eq_run]
  show i ∈ (Scan.run config _).instructions.toList ↔ _
  rw [Scan.run_instructions, Layout.mem_instructions]
  simp only [List.getElem?_map, Option.map_eq_some_iff, exists_exists_and_eq_and]
  rfl

/-- Every label that a line uses is in the table. -/
theorem mem_scan_names {text : String} (ht : text ∈ texts) {name : String}
    (hu : name ∈ (Line.read text).uses) : name ∈ (scan config texts).program.symbols.names := by
  rw [Scan.scan_eq_run]
  exact (Scan.mem_run_names config _).2 ⟨_, List.mem_map_of_mem ht, Or.inr hu⟩

/-- **Every instruction of a program says the same as the text of its line.** -/
theorem exists_makes_of_mem {i : Instruction} (hi : i ∈ (scan config texts).program.instructions) :
    ∃ k text st operation, texts[k]? = some text ∧ i.line = k + 1 ∧
      Statement.parse text = .ok st ∧ st.Valid ∧ st.operation = some operation ∧
      operation.Makes (scan config texts).program.symbols i := by
  obtain ⟨k, text, ht, hplace⟩ := mem_scan_instructions.1 hi
  have hline : i.line = k + 1 := by
    obtain ⟨m, operands, -, rfl⟩ := Line.instruction?_eq_some.1 hplace
    rfl
  obtain ⟨st, operation, hp, hv, ho, hmakes⟩ := exists_makes_of_instruction? hplace
    fun name hu => mem_scan_names (List.mem_of_getElem? ht) hu
  exact ⟨k, text, st, operation, ht, hline, hp, hv, ho, hmakes⟩

end Scan

end ByteAssembler
