import ByteAssembler.Proofs.Reading
import Mathlib.Data.List.Zip

/-
  When the operation of a line is valid, said of its tokens alone: the mnemonic is the name of one
  in the instruction set up to case, it has as many operands as that takes, and each token is valid
  for its kind (`Operation.Valid`). These are the operations that make an instruction
  (`exists_instruction_iff_valid`); all others are rejected.
-/

namespace ByteAssembler

/-- Equality of names up to the case of ASCII letters. -/
def Text.SameName (a b : String) : Prop :=
  upperCase a = upperCase b

/-! ## Look-up by name -/

/-- Where every name finds its bearer, a key finds the one whose name it is up to case. -/
theorem find?_name_eq_some_iff {α : Type} {all : List α} {name : α → String}
    (hself : ∀ a, all.find? (name · == Text.upperCase (name a)) = some a) {text : String} {a : α} :
    all.find? (name · == Text.upperCase text) = some a ↔ Text.SameName text (name a) := by
  constructor
  · intro h
    have hkey : name a = Text.upperCase text :=
      beq_iff_eq.1 (List.find?_some (p := fun b => name b == Text.upperCase text) h)
    have hupper : name a = Text.upperCase (name a) :=
      beq_iff_eq.1 (List.find?_some (p := fun b => name b == Text.upperCase (name a)) (hself a))
    exact hkey.symm.trans hupper
  · intro h
    rw [h]
    exact hself a

theorem Register.ofName?_eq_some_iff {text : String} {r : Register} :
    ofName? text = some r ↔ Text.SameName text r.name :=
  find?_name_eq_some_iff ofName?_name

theorem Mnemonic.ofName?_eq_some_iff {text : String} {m : Mnemonic} :
    ofName? text = some m ↔ Text.SameName text m.name :=
  find?_name_eq_some_iff ofName?_name

/-! ## Tokens and operations -/

/-- Whether a token is valid as an operand of some kind: a register has the name of one, a constant
is a byte literal, and so is an address, unless it names a label. -/
def Operand.Valid : OperandKind → String → Prop
  | .register, token => ∃ r : Register, Text.SameName token r.name
  | .immediate, token => ∃ value, ByteLiteral.parse token = .ok value
  | .address, token => startsNumber token = true → ∃ value, ByteLiteral.parse token = .ok value

/-- Whether an operation is valid. -/
def Operation.Valid (operation : Operation) : Prop :=
  ∃ m : Mnemonic, Text.SameName operation.mnemonic m.name ∧
    operation.operands.length = m.arity ∧
    ∀ p ∈ m.signature.zip operation.operands, Operand.Valid p.1 p.2

/-- Whether a statement has no operation or a valid one. -/
def Statement.Valid (statement : Statement) : Prop :=
  ∀ operation ∈ statement.operation, operation.Valid

/-- The valid tokens are those that can be read. -/
theorem Operand.exists_read_iff_valid {kind : OperandKind} {token : String} :
    (∃ operand, read kind token = .ok operand) ↔ Valid kind token := by
  simp only [read_eq_ok_iff]
  cases kind with
  | register =>
    constructor
    · rintro ⟨_, h⟩
      cases h with
      | register hr => exact ⟨_, Register.ofName?_eq_some_iff.1 hr⟩
    · rintro ⟨r, hr⟩
      exact ⟨_, .register (Register.ofName?_eq_some_iff.2 hr)⟩
  | immediate =>
    constructor
    · rintro ⟨_, h⟩
      cases h with
      | immediate hn => exact ⟨_, hn⟩
    · rintro ⟨value, hn⟩
      exact ⟨_, .immediate hn⟩
  | address =>
    constructor
    · rintro ⟨_, h⟩ hs
      cases h with
      | absolute _ hn => exact ⟨_, hn⟩
      | label hnot =>
        rw [hs] at hnot
        cases hnot
    · intro h
      cases hs : startsNumber token with
      | true =>
        obtain ⟨a, hn⟩ := h hs
        exact ⟨_, .absolute hs hn⟩
      | false => exact ⟨_, .label hs⟩

namespace Line.Body

/-- Tokens can all be read exactly if each is valid for its kind. -/
theorem exists_zipWith_read_iff {kinds : List OperandKind} {tokens : List String} :
    (∃ operands : List (Operand String),
        List.zipWith Operand.read kinds tokens = operands.map .ok) ↔
      ∀ p ∈ kinds.zip tokens, Operand.Valid p.1 p.2 := by
  have hzip : List.zipWith Operand.read kinds tokens =
      (kinds.zip tokens).map fun p => Operand.read p.1 p.2 := by
    rw [List.zip, List.map_zipWith]
  rw [hzip]
  constructor
  · rintro ⟨operands, h⟩ p hp
    have hmem : Operand.read p.1 p.2 ∈ operands.map .ok := by
      rw [← h]
      exact List.mem_map_of_mem hp
    obtain ⟨operand, -, hread⟩ := List.mem_map.1 hmem
    exact Operand.exists_read_iff_valid.1 ⟨operand, hread.symm⟩
  · intro h
    refine ⟨_, problemsOf_eq_nil_iff.1 (List.eq_nil_iff_forall_not_mem.2 fun problem hmem => ?_)⟩
    obtain ⟨p, hp, herror⟩ := List.mem_map.1 (mem_problemsOf.1 hmem)
    obtain ⟨operand, hread⟩ := Operand.exists_read_iff_valid.2 (h p hp)
    rw [hread] at herror
    cases herror

/-- **The valid operations are those that make an instruction.** -/
theorem exists_instruction_iff_valid {operation : Operation} :
    (∃ m operands, ofOperation operation = .instruction m operands) ↔ operation.Valid := by
  simp only [ofOperation_eq_instruction, Operation.Valid, exists_and_left,
    exists_zipWith_read_iff, Mnemonic.ofName?_eq_some_iff]

end Line.Body

instance (operation : Operation) : Decidable operation.Valid :=
  match h : Line.Body.ofOperation operation with
  | .instruction m operands => .isTrue (Line.Body.exists_instruction_iff_valid.1 ⟨m, operands, h⟩)
  | .rejected _ => .isFalse fun hv => by
    obtain ⟨m, operands, hb⟩ := Line.Body.exists_instruction_iff_valid.2 hv
    rw [h] at hb
    cases hb
  | .empty => absurd h (Line.Body.ofOperation_ne_empty operation)

instance (statement : Statement) : Decidable statement.Valid :=
  inferInstanceAs (Decidable (∀ operation ∈ statement.operation, operation.Valid))

/-- A statement is valid exactly if its line is not rejected. -/
theorem Statement.valid_iff {statement : Statement} :
    statement.Valid ↔ ∀ ps, (Line.ofStatement statement).body ≠ .rejected ps := by
  unfold Valid Line.ofStatement
  cases statement.operation with
  | none => simp
  | some operation =>
    simp only [Option.mem_some_iff, forall_eq', Option.elim_some,
      ← Line.Body.exists_instruction_iff_valid]
    cases hb : Line.Body.ofOperation operation with
    | empty => exact absurd hb (Line.Body.ofOperation_ne_empty operation)
    | rejected ps => simp
    | instruction m operands => simp

end ByteAssembler
