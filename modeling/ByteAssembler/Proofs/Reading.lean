import ByteAssembler.Line

/-
  What reading a line can give. A body is an instruction exactly if the mnemonic exists, takes as
  many operands as there are, and every token denotes an operand of its kind
  (`ofOperation_eq_instruction`, `read_eq_ok_iff`); then the operands have the kinds of the
  signature (`read_fits`). Otherwise there is at least one problem, and all of them are of the
  kinds for which a line is rejected (`read_rejectsForCause`).
-/

namespace ByteAssembler

theorem Problem.severity_of_isRejection {p : Problem} (h : p.isRejection = true) :
    p.severity = .error := by
  cases p with
  | redundantLabel name existing address => cases h
  | _ => rfl

namespace Operand

/-- What a token denotes as an operand of some kind. -/
inductive Denotes : OperandKind → String → Operand String → Prop
  | register {token : String} {r : Register} (h : Register.ofName? token = some r) :
    Denotes .register token (.register r)
  | immediate {token : String} {value : UInt8} (h : ByteLiteral.parse token = .ok value) :
    Denotes .immediate token (.immediate value)
  | absolute {token : String} {a : UInt8} (hs : startsNumber token = true)
    (h : ByteLiteral.parse token = .ok a) : Denotes .address token (.address (.absolute a))
  | label {token : String} (hs : startsNumber token = false) :
    Denotes .address token (.address (.label token))

/-- Reading a token gives what it denotes. -/
theorem read_eq_ok_iff {kind : OperandKind} {token : String} {operand : Operand String} :
    read kind token = .ok operand ↔ Denotes kind token operand := by
  constructor
  · intro h
    unfold read readNumber at h
    cases kind with
    | register =>
      cases hr : Register.ofName? token with
      | none => rw [hr] at h; cases h
      | some r => rw [hr] at h; cases h; exact .register hr
    | immediate =>
      cases hn : ByteLiteral.parse token with
      | error reason => rw [hn] at h; cases h
      | ok value => rw [hn] at h; cases h; exact .immediate hn
    | address =>
      cases hs : startsNumber token with
      | true =>
        cases hn : ByteLiteral.parse token with
        | error reason => rw [hs, hn] at h; cases h
        | ok a => rw [hs, hn] at h; cases h; exact .absolute hs hn
      | false => rw [hs] at h; cases h; exact .label hs
  · intro h
    unfold read readNumber
    cases h with
    | register hr => rw [hr]
    | immediate hn => rw [hn]; rfl
    | absolute hs hn => rw [hs, hn]; rfl
    | label hs => rw [hs]; rfl

theorem kind_of_read {kind : OperandKind} {token : String} {operand : Operand String}
    (h : read kind token = .ok operand) : operand.kind = kind := by
  cases read_eq_ok_iff.1 h <;> rfl

theorem isRejection_of_read {kind : OperandKind} {token : String} {p : Problem}
    (h : read kind token = .error p) : p.isRejection = true := by
  have hnumber : ∀ q, readNumber token = .error q → q.isRejection = true := by
    intro q hq
    unfold readNumber at hq
    split at hq <;> cases hq
    rfl
  unfold read at h
  cases kind with
  | register =>
    dsimp only at h
    split at h <;> cases h
    rfl
  | immediate =>
    cases hn : readNumber token with
    | error q => rw [hn] at h; cases h; exact hnumber _ hn
    | ok value => rw [hn] at h; cases h
  | address =>
    dsimp only at h
    split at h
    · cases hn : readNumber token with
      | error q => rw [hn] at h; cases h; exact hnumber _ hn
      | ok value => rw [hn] at h; cases h
    · cases h

/-- Operands that were read one by one have the kinds they were read as. -/
theorem map_kind_of_read {kinds : List OperandKind} {tokens : List String}
    {operands : List (Operand String)} (hlen : tokens.length = kinds.length)
    (h : List.zipWith read kinds tokens = operands.map .ok) : operands.map kind = kinds := by
  induction kinds generalizing tokens operands with
  | nil =>
    have ho : operands = [] := List.map_eq_nil_iff.1 h.symm
    rw [ho]
    rfl
  | cons k kinds ih =>
    cases tokens with
    | nil => cases hlen
    | cons token tokens =>
      cases operands with
      | nil => cases h
      | cons operand operands =>
        obtain ⟨hk, hrest⟩ := List.cons.inj h
        rw [List.map_cons, kind_of_read hk, ih (Nat.succ.inj hlen) hrest]

end Operand

namespace Line

namespace Body

/-- The problems among the results of reading tokens. -/
def problemsOf (results : List (Except Problem (Operand String))) : List Problem :=
  results.filterMap fun
    | .error problem => some problem
    | .ok _ => none

theorem ofTokens_eq (mnemonic : Mnemonic) (tokens : List String) :
    ofTokens mnemonic tokens =
      if (problemsOf (List.zipWith Operand.read mnemonic.signature tokens)).isEmpty then
        .instruction mnemonic
          ((List.zipWith Operand.read mnemonic.signature tokens).filterMap (·.toOption))
      else .rejected (problemsOf (List.zipWith Operand.read mnemonic.signature tokens)) := rfl

theorem problemsOf_eq_nil_iff {results : List (Except Problem (Operand String))} :
    problemsOf results = [] ↔ results = (results.filterMap (·.toOption)).map .ok := by
  induction results with
  | nil => exact iff_of_true rfl rfl
  | cons r results ih =>
    cases r with
    | ok operand =>
      have h : problemsOf (.ok operand :: results) = problemsOf results := rfl
      rw [h, ih]
      simp [Except.toOption]
    | error p =>
      refine iff_of_false (List.cons_ne_nil _ _) fun h => ?_
      have hmem : Except.error p ∈ (Except.error p :: results) := List.mem_cons_self
      rw [h] at hmem
      obtain ⟨_, -, hcontra⟩ := List.mem_map.1 hmem
      cases hcontra

theorem mem_problemsOf {results : List (Except Problem (Operand String))} {p : Problem} :
    p ∈ problemsOf results ↔ .error p ∈ results := by
  constructor
  · intro h
    obtain ⟨r, hr, hp⟩ := List.mem_filterMap.1 h
    cases r with
    | ok operand => cases hp
    | error q => cases hp; exact hr
  · intro h
    exact List.mem_filterMap.2 ⟨_, h, rfl⟩

/-- Tokens make an instruction exactly if each of them can be read. -/
theorem ofTokens_eq_instruction {m m' : Mnemonic} {tokens : List String}
    {operands : List (Operand String)} :
    ofTokens m tokens = .instruction m' operands ↔
      m' = m ∧ List.zipWith Operand.read m.signature tokens = operands.map .ok := by
  rw [ofTokens_eq]
  generalize List.zipWith Operand.read m.signature tokens = results
  constructor
  · intro h
    split at h
    · next hnil =>
      cases h
      exact ⟨rfl, problemsOf_eq_nil_iff.1 (List.isEmpty_iff.1 hnil)⟩
    · cases h
  · rintro ⟨rfl, rfl⟩
    have hoks : (operands.map Except.ok).filterMap
        (fun r : Except Problem (Operand String) => r.toOption) = operands := by
      rw [List.filterMap_map]
      exact List.filterMap_some
    have hnil : problemsOf (operands.map .ok) = [] := by
      rw [problemsOf_eq_nil_iff, hoks]
    rw [hnil, hoks]
    rfl

theorem ofTokens_rejection {m : Mnemonic} {tokens : List String} {ps : List Problem}
    (h : ofTokens m tokens = .rejected ps) : ps ≠ [] ∧ ∀ p ∈ ps, p.isRejection = true := by
  rw [ofTokens_eq] at h
  split at h
  · cases h
  · next hne =>
    cases h
    refine ⟨fun e => hne (List.isEmpty_iff.2 e), fun p hp => ?_⟩
    obtain ⟨i, hi, hget⟩ := List.getElem_of_mem (mem_problemsOf.1 hp)
    rw [List.getElem_zipWith] at hget
    exact Operand.isRejection_of_read hget

/-- An operation makes an instruction exactly if the mnemonic exists, has as many operands as it
takes, and each of them can be read. -/
theorem ofOperation_eq_instruction {operation : Operation} {m : Mnemonic}
    {operands : List (Operand String)} :
    ofOperation operation = .instruction m operands ↔
      Mnemonic.ofName? operation.mnemonic = some m ∧ operation.operands.length = m.arity ∧
        List.zipWith Operand.read m.signature operation.operands = operands.map .ok := by
  unfold ofOperation
  cases Mnemonic.ofName? operation.mnemonic with
  | none => simp
  | some m' =>
    simp only [Option.some.injEq]
    by_cases hlen : operation.operands.length = m'.arity
    · rw [if_pos hlen, ofTokens_eq_instruction]
      constructor
      · rintro ⟨rfl, h⟩
        exact ⟨rfl, hlen, h⟩
      · rintro ⟨rfl, -, h⟩
        exact ⟨rfl, h⟩
    · rw [if_neg hlen]
      refine iff_of_false (by simp) ?_
      rintro ⟨rfl, h, -⟩
      exact hlen h

theorem ofOperation_rejection {operation : Operation} {ps : List Problem}
    (h : ofOperation operation = .rejected ps) : ps ≠ [] ∧ ∀ p ∈ ps, p.isRejection = true := by
  unfold ofOperation at h
  split at h
  · cases h
    simp [Problem.isRejection, Problem.origin]
  · dsimp only at h
    split at h
    · exact ofTokens_rejection h
    · cases h
      simp [Problem.isRejection, Problem.origin]

theorem ofOperation_ne_empty (operation : Operation) : ofOperation operation ≠ .empty := by
  unfold ofOperation
  split
  · simp
  · dsimp only
    split
    · rw [ofTokens_eq]
      split <;> simp
    · simp

end Body

/-- The operands of the instruction of a line are those that its mnemonic takes. -/
def Fits (l : Line) : Prop :=
  ∀ m operands, l.body = .instruction m operands → operands.map Operand.kind = m.signature

/-- A line is rejected only for a reason, and only for reasons of the five kinds. -/
def RejectsForCause (l : Line) : Prop :=
  ∀ ps, l.body = .rejected ps → ps ≠ [] ∧ ∀ p ∈ ps, p.isRejection = true

theorem ofStatement_fits (statement : Statement) : (ofStatement statement).Fits := by
  intro m operands h
  cases ho : statement.operation with
  | none => simp [ofStatement, ho] at h
  | some operation =>
    simp only [ofStatement, ho, Option.elim_some] at h
    obtain ⟨-, hlen, hread⟩ := Body.ofOperation_eq_instruction.1 h
    exact Operand.map_kind_of_read hlen hread

theorem ofStatement_rejectsForCause (statement : Statement) :
    (ofStatement statement).RejectsForCause := by
  intro ps h
  cases ho : statement.operation with
  | none => simp [ofStatement, ho] at h
  | some operation =>
    simp only [ofStatement, ho, Option.elim_some] at h
    exact Body.ofOperation_rejection h

theorem read_fits (text : String) : (read text).Fits := by
  unfold read
  split
  · exact ofStatement_fits _
  · intro m operands h
    cases h

theorem read_rejectsForCause (text : String) : (read text).RejectsForCause := by
  unfold read
  split
  · exact ofStatement_rejectsForCause _
  · intro ps h
    cases h
    simp [Problem.isRejection, Problem.origin]

theorem rejectsForCause_of_mem_map_read {texts : List String} {l : Line}
    (hl : l ∈ texts.map read) : l.RejectsForCause := by
  obtain ⟨text, -, rfl⟩ := List.mem_map.1 hl
  exact read_rejectsForCause text

end Line

end ByteAssembler
