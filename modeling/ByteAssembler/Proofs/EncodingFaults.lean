import ByteAssembler.Proofs.Positions

/-
  Which instructions have machine code, and what is wrong with the others. Nothing is asked of the
  operands but that their labels are in the table: there may be too few, too many, or operands of
  any kind. `Instruction.Encodable` says when an instruction has an encoding and
  `Instruction.Fault` with which error it has none; both speak of the signature alone, position by
  position (`FaultAt`). The encoder goes through the positions from the left
  (`operandByte_eq_error_iff`, `encodeInstruction_eq_error_iff`) and through a program from its
  start, so that in both the first fault is the one that is reported. `append_outcome`: an
  instruction adds its bytes to the buffer if it is encodable, and else leaves it as it was.
-/

namespace ByteAssembler

theorem Operand.eq_label_of_label? {ι : Type} {operand : Operand ι} {label : ι}
    (h : operand.label? = some label) : operand = .address (.label label) := by
  cases operand with
  | address target =>
    cases target with
    | label l => rw [Option.some.inj h]
    | absolute a => cases h
  | _ => cases h

/-! ## What is asked of an instruction -/

namespace Instruction

variable (symbols : SymbolTable) (i : Instruction)

/-- Every label that an operand refers to is in the table. -/
def LabelsKnown : Prop :=
  ∀ operand ∈ i.operands, ∀ label ∈ operand.label?, label < symbols.entries.length

instance : Decidable (i.LabelsKnown symbols) :=
  inferInstanceAs (Decidable (∀ operand ∈ i.operands, ∀ label ∈ operand.label?, _))

/-- The operands have the kinds that the mnemonic takes, in this order, and their labels stand for
addresses of one byte. -/
structure Encodable : Prop where
  kinds : i.operands.map Operand.kind = i.mnemonic.signature
  labels : ∀ operand ∈ i.operands, ∀ label ∈ operand.label?,
    ∃ symbol address, symbols.get? label = some symbol ∧ symbol.address? = some address ∧
      address ≤ 0xFF

/-- What is wrong at a position of the signature. -/
inductive FaultAt : Nat → EncodeError → Prop
  | missing {index : Nat} {kind : OperandKind} (hkind : i.mnemonic.signature[index]? = some kind)
    (h : i.operands[index]? = none) :
    FaultAt index (.missingOperand i.mnemonic index i.line)
  | wrongKind {index : Nat} {kind : OperandKind} {operand : Operand Nat}
    (hkind : i.mnemonic.signature[index]? = some kind)
    (ho : i.operands[index]? = some operand) (h : operand.kind ≠ kind) :
    FaultAt index (.unsupportedPattern i.mnemonic i.line)
  | unresolved {index label : Nat} {symbol : Symbol}
    (hkind : i.mnemonic.signature[index]? = some .address)
    (ho : i.operands[index]? = some (.address (.label label)))
    (hsymbol : symbols.get? label = some symbol) (h : symbol.address? = none) :
    FaultAt index (.unresolvedLabel symbol.name i.line)
  | outOfRange {index label address : Nat} {symbol : Symbol}
    (hkind : i.mnemonic.signature[index]? = some .address)
    (ho : i.operands[index]? = some (.address (.label label)))
    (hsymbol : symbols.get? label = some symbol) (haddress : symbol.address? = some address)
    (h : 0xFF < address) :
    FaultAt index (.addressOutOfRange symbol.name address)

/-- Why an instruction has no encoding: it has too many operands, or else what is wrong at the
leftmost position where something is. -/
inductive Fault : EncodeError → Prop
  | tooMany (h : i.mnemonic.arity < i.operands.length) :
    Fault (.unsupportedPattern i.mnemonic i.line)
  | leftmost {index : Nat} {e : EncodeError} (hcount : i.operands.length ≤ i.mnemonic.arity)
    (h : FaultAt symbols i index e) (hleft : ∀ j < index, ∀ e', ¬FaultAt symbols i j e') :
    Fault e

variable {symbols i}

theorem LabelsKnown.get? (h : i.LabelsKnown symbols) {index label : Nat}
    (ho : i.operands[index]? = some (.address (.label label))) :
    ∃ symbol, symbols.get? label = some symbol := by
  have hlt := h _ (List.mem_of_getElem? ho) label rfl
  exact ⟨symbols.entries[label], List.getElem?_eq_getElem hlt⟩

theorem FaultAt.exists_kind {index : Nat} {e : EncodeError} (h : i.FaultAt symbols index e) :
    ∃ kind, i.mnemonic.signature[index]? = some kind := by
  cases h with
  | missing hkind _ => exact ⟨_, hkind⟩
  | wrongKind hkind _ _ => exact ⟨_, hkind⟩
  | unresolved hkind _ _ _ => exact ⟨_, hkind⟩
  | outOfRange hkind _ _ _ _ => exact ⟨_, hkind⟩

/-- Nothing is wrong at any position of an encodable instruction. -/
theorem Encodable.not_faultAt (h : i.Encodable symbols) (index : Nat) (e : EncodeError) :
    ¬i.FaultAt symbols index e := by
  have hkind : ∀ index : Nat,
      i.mnemonic.signature[index]? = i.operands[index]?.map Operand.kind := by
    intro index
    rw [← h.kinds, List.getElem?_map]
  intro hfault
  cases hfault with
  | missing hs ho =>
    rw [hkind, ho] at hs
    cases hs
  | wrongKind hs ho hne =>
    rw [hkind, ho] at hs
    exact hne (Option.some.inj hs)
  | unresolved hs ho hsymbol hnone =>
    obtain ⟨symbol, address, hget, haddress, -⟩ := h.labels _ (List.mem_of_getElem? ho) _ rfl
    obtain rfl := Option.some.inj (hget.symm.trans hsymbol)
    rw [hnone] at haddress
    cases haddress
  | outOfRange hs ho hsymbol haddress hlarge =>
    obtain ⟨symbol, address, hget, haddress', hle⟩ := h.labels _ (List.mem_of_getElem? ho) _ rfl
    obtain rfl := Option.some.inj (hget.symm.trans hsymbol)
    obtain rfl := Option.some.inj (haddress.symm.trans haddress')
    omega

/-- Where nothing is wrong, an instruction is encodable. -/
theorem encodable_of_not_faultAt (hknown : i.LabelsKnown symbols)
    (hcount : i.operands.length ≤ i.mnemonic.arity)
    (h : ∀ index e, ¬i.FaultAt symbols index e) : i.Encodable symbols := by
  have hkind : ∀ (index : Nat) (kind : OperandKind), i.mnemonic.signature[index]? = some kind →
      ∃ operand, i.operands[index]? = some operand ∧ operand.kind = kind := by
    intro index kind hs
    cases ho : i.operands[index]? with
    | none => exact absurd (.missing hs ho) (h index _)
    | some operand =>
      refine ⟨operand, rfl, ?_⟩
      by_contra hne
      exact h index _ (.wrongKind hs ho hne)
  have hkinds : i.operands.map Operand.kind = i.mnemonic.signature := by
    refine List.ext_getElem? fun index => ?_
    rw [List.getElem?_map]
    cases hs : i.mnemonic.signature[index]? with
    | none =>
      have hle := List.getElem?_eq_none_iff.1 hs
      rw [List.getElem?_eq_none (Nat.le_trans hcount hle), Option.map_none]
    | some kind =>
      obtain ⟨operand, ho, rfl⟩ := hkind index kind hs
      rw [ho, Option.map_some]
  refine ⟨hkinds, fun operand ho label hl => ?_⟩
  obtain ⟨index, hindex⟩ := List.mem_iff_getElem?.1 ho
  obtain rfl : operand = .address (.label label) := Operand.eq_label_of_label? hl
  have hs : i.mnemonic.signature[index]? = some .address := by
    rw [← hkinds, List.getElem?_map, hindex]
    rfl
  obtain ⟨symbol, hsymbol⟩ := hknown.get? hindex
  cases haddress : symbol.address? with
  | none => exact absurd (.unresolved hs hindex hsymbol haddress) (h index _)
  | some address =>
    refine ⟨symbol, address, hsymbol, haddress, ?_⟩
    by_contra hlarge
    exact h index _ (.outOfRange hs hindex hsymbol haddress (Nat.lt_of_not_le hlarge))

/-- **An instruction is encodable exactly if it has no fault.** -/
theorem encodable_iff_not_fault (hknown : i.LabelsKnown symbols) :
    i.Encodable symbols ↔ ∀ e, ¬i.Fault symbols e := by
  constructor
  · intro h e hfault
    cases hfault with
    | tooMany hmany =>
      have hlength := congrArg List.length h.kinds
      rw [List.length_map] at hlength
      exact absurd hlength (Nat.ne_of_gt hmany)
    | leftmost _ hat _ => exact h.not_faultAt _ _ hat
  · intro h
    have hcount : i.operands.length ≤ i.mnemonic.arity :=
      Nat.le_of_not_lt fun hmany => h _ (.tooMany hmany)
    refine encodable_of_not_faultAt hknown hcount fun index => ?_
    -- The first position with a fault would make it the fault of the instruction.
    induction index using Nat.strongRecOn with
    | ind index ih => exact fun e hat => h e (.leftmost hcount hat ih)

end Instruction

/-! ## One instruction -/

namespace MachineCode

open Instruction

variable {symbols : SymbolTable} {i : Instruction}

theorem labelByte_eq_error_iff {line label : Nat} {symbol : Symbol} {e : EncodeError}
    (hsymbol : symbols.get? label = some symbol) :
    labelByte symbols line label = .error e ↔
      symbol.address? = none ∧ e = .unresolvedLabel symbol.name line ∨
        ∃ address, symbol.address? = some address ∧ 0xFF < address ∧
          e = .addressOutOfRange symbol.name address := by
  unfold labelByte
  rw [hsymbol]
  dsimp only
  cases symbol.address? with
  | none => simp [eq_comm]
  | some address =>
    by_cases hle : address ≤ 0xFF
    · simp [hle]
    · simp [hle, Nat.lt_of_not_le hle, eq_comm]

theorem operandByte_of_none {kind : OperandKind} {index : Nat} (ho : i.operands[index]? = none) :
    operandByte symbols i kind index = .error (.missingOperand i.mnemonic index i.line) := by
  rw [operandByte, ho]

theorem operandByte_of_kind_ne {kind : OperandKind} {index : Nat} {operand : Operand Nat}
    (ho : i.operands[index]? = some operand) (h : operand.kind ≠ kind) :
    operandByte symbols i kind index = .error (.unsupportedPattern i.mnemonic i.line) := by
  rw [operandByte, ho]
  cases operand with
  | address target => cases target <;> cases kind <;> first | rfl | exact absurd rfl h
  | _ => cases kind <;> first | rfl | exact absurd rfl h

/-- The byte of an operand fails exactly for what is wrong at its position. -/
theorem operandByte_eq_error_iff (hknown : i.LabelsKnown symbols) {kind : OperandKind}
    {index : Nat} (hkind : i.mnemonic.signature[index]? = some kind) {e : EncodeError} :
    operandByte symbols i kind index = .error e ↔ i.FaultAt symbols index e := by
  constructor
  · intro h
    cases ho : i.operands[index]? with
    | none =>
      rw [operandByte_of_none ho] at h
      cases h
      exact .missing hkind ho
    | some operand =>
      by_cases hk : operand.kind = kind
      · subst hk
        rw [operandByte, ho] at h
        cases operand with
        | address target =>
          cases target with
          | absolute a => cases h
          | label label =>
            obtain ⟨symbol, hsymbol⟩ := hknown.get? ho
            obtain ⟨hnone, rfl⟩ | ⟨address, haddress, hlarge, rfl⟩ :=
              (labelByte_eq_error_iff hsymbol).1 h
            · exact .unresolved hkind ho hsymbol hnone
            · exact .outOfRange hkind ho hsymbol haddress hlarge
        | _ => cases h
      · rw [operandByte_of_kind_ne ho hk] at h
        cases h
        exact .wrongKind hkind ho hk
  · intro h
    cases h with
    | missing _ ho => exact operandByte_of_none ho
    | wrongKind hs ho hne =>
      obtain rfl := Option.some.inj (hs.symm.trans hkind)
      exact operandByte_of_kind_ne ho hne
    | unresolved hs ho hsymbol hnone =>
      obtain rfl := Option.some.inj (hs.symm.trans hkind)
      rw [operandByte, ho]
      exact (labelByte_eq_error_iff hsymbol).2 (Or.inl ⟨hnone, rfl⟩)
    | outOfRange hs ho hsymbol haddress hlarge =>
      obtain rfl := Option.some.inj (hs.symm.trans hkind)
      rw [operandByte, ho]
      exact (labelByte_eq_error_iff hsymbol).2 (Or.inr ⟨_, haddress, hlarge, rfl⟩)

/-- **An instruction fails to encode exactly with its fault.** -/
theorem encodeInstruction_eq_error_iff (hknown : i.LabelsKnown symbols) {e : EncodeError} :
    encodeInstruction symbols i = .error e ↔ i.Fault symbols e := by
  unfold encodeInstruction
  by_cases hmany : i.mnemonic.arity < i.operands.length
  · rw [if_pos hmany]
    constructor
    · intro h
      cases h
      exact .tooMany hmany
    · intro h
      cases h with
      | tooMany _ => rfl
      | leftmost hcount _ _ => exact absurd hmany (Nat.not_lt.2 hcount)
  · rw [if_neg hmany, map_eq_error_iff, mapM_eq_error_iff]
    simp only [List.getElem?_zipIdx, Option.map_eq_some_iff, map_eq_error_iff, Nat.zero_add, Ne]
    constructor
    · rintro ⟨index, _, ⟨kind, hkind, rfl⟩, he, hleft⟩
      have hat := (operandByte_eq_error_iff hknown hkind).1 he
      refine .leftmost (Nat.le_of_not_lt hmany) hat fun j hj e' hat' => ?_
      obtain ⟨kind', hkind'⟩ := hat'.exists_kind
      have he' := (operandByte_eq_error_iff hknown hkind').2 hat'
      exact hleft j _ hj ⟨kind', hkind', rfl⟩ e' he'
    · intro h
      cases h with
      | tooMany h => exact absurd h hmany
      | leftmost _ hat hleft =>
        obtain ⟨kind, hkind⟩ := hat.exists_kind
        refine ⟨_, _, ⟨kind, hkind, rfl⟩, (operandByte_eq_error_iff hknown hkind).2 hat, ?_⟩
        rintro j _ hj ⟨kind', hkind', rfl⟩ e' he'
        exact hleft j hj e' ((operandByte_eq_error_iff hknown hkind').1 he')

theorem exists_encodeInstruction_iff (hknown : i.LabelsKnown symbols) :
    (∃ bytes, encodeInstruction symbols i = .ok bytes) ↔ i.Encodable symbols := by
  simp only [exists_eq_ok_iff, encodable_iff_not_fault hknown, Ne,
    encodeInstruction_eq_error_iff hknown]

/-- Appending does what encoding says: it adds the bytes, or it fails and adds nothing. -/
theorem append_cases (buffer : List UInt8) :
    (∃ bytes, encodeInstruction symbols i = .ok bytes ∧ bytes.length = i.mnemonic.byteLength ∧
        append symbols i buffer = (.ok i.mnemonic.byteLength, buffer ++ bytes)) ∨
      ∃ e, encodeInstruction symbols i = .error e ∧
        append symbols i buffer = (.error e, buffer) := by
  cases h : encodeInstruction symbols i with
  | ok bytes =>
    exact Or.inl ⟨bytes, rfl, encodeInstruction_length h, append_of_encodeInstruction h buffer⟩
  | error e => exact Or.inr ⟨e, rfl, by rw [append, h]⟩

/-! ## Programs -/

theorem encode_eq_error_iff {p : Program} {e : EncodeError} :
    encode p = .error e ↔
      ∃ (k : Nat) (i : Instruction), p.instructions[k]? = some i ∧
        encodeInstruction p.symbols i = .error e ∧
        ∀ (j : Nat) (i' : Instruction), j < k → p.instructions[j]? = some i' →
          ∃ bytes, encodeInstruction p.symbols i' = .ok bytes := by
  simp only [encode, map_eq_error_iff, mapM_eq_error_iff, exists_eq_ok_iff]

theorem encode_eq_ok_iff {p : Program} {bytes : List UInt8} :
    encode p = .ok bytes ↔
      ∃ chunks : List (List UInt8), bytes = chunks.flatten ∧
        p.instructions.map (encodeInstruction p.symbols) = chunks.map .ok := by
  refine ⟨encode_eq_ok, ?_⟩
  rintro ⟨chunks, rfl, hchunks⟩
  rw [encode, mapM_eq_ok_iff.2 hchunks]
  rfl

/-- **What encoding does to any instruction.** Provided that its labels are in the table, an
instruction has an encoding exactly if its operands are those that the mnemonic takes and its
labels stand for addresses of one byte. Then it adds as many bytes to the buffer as it is long; else
the buffer stays as it was, and the error is that of too many operands or of the leftmost position
at fault. A program has the bytes of its instructions one after another if all of them have an
encoding, and else the error of the first that has none. -/
theorem append_outcome (symbols : SymbolTable) (i : Instruction) (buffer : List UInt8)
    (hknown : i.LabelsKnown symbols) :
    ((∃ n, (append symbols i buffer).1 = .ok n) ↔ i.Encodable symbols) ∧
    (i.Encodable symbols → ∃ bytes, encodeInstruction symbols i = .ok bytes ∧
      bytes.length = i.mnemonic.byteLength ∧
      append symbols i buffer = (.ok i.mnemonic.byteLength, buffer ++ bytes)) ∧
    (¬i.Encodable symbols → ∃ e, append symbols i buffer = (.error e, buffer)) ∧
    (∀ e, append symbols i buffer = (.error e, buffer) ↔ i.Fault symbols e) ∧
    ∀ p : Program,
      (∀ bytes, encode p = .ok bytes ↔ ∃ chunks : List (List UInt8), bytes = chunks.flatten ∧
        p.instructions.map (encodeInstruction p.symbols) = chunks.map .ok) ∧
      (∀ e, encode p = .error e ↔
        ∃ (k : Nat) (first : Instruction), p.instructions[k]? = some first ∧
          encodeInstruction p.symbols first = .error e ∧
          ∀ (j : Nat) (before : Instruction), j < k → p.instructions[j]? = some before →
            ∃ bytes, encodeInstruction p.symbols before = .ok bytes) := by
  have hencodable := exists_encodeInstruction_iff hknown
  refine ⟨?_, ?_, ?_, ?_, fun p => ⟨fun _ => encode_eq_ok_iff, fun _ => encode_eq_error_iff⟩⟩
  · rw [← hencodable]
    obtain ⟨bytes, hok, -, happend⟩ | ⟨e, herror, happend⟩ := append_cases buffer
    · exact iff_of_true ⟨_, congrArg Prod.fst happend⟩ ⟨bytes, hok⟩
    · refine iff_of_false ?_ (exists_eq_ok_iff.not.2 fun h => h e herror)
      exact exists_eq_ok_iff.not.2 fun h => h e (congrArg Prod.fst happend)
  · intro h
    obtain hwritten | ⟨e, herror, -⟩ := append_cases buffer
    · exact hwritten
    · exact absurd herror (exists_eq_ok_iff.1 (hencodable.2 h) e)
  · intro h
    obtain ⟨bytes, hok, -, -⟩ | ⟨e, -, happend⟩ := append_cases buffer
    · exact absurd (hencodable.1 ⟨bytes, hok⟩) h
    · exact ⟨e, happend⟩
  · intro e
    rw [← encodeInstruction_eq_error_iff hknown]
    obtain ⟨bytes, hok, -, happend⟩ | ⟨e', herror, happend⟩ := append_cases buffer
    · rw [happend, hok]
      exact iff_of_false (fun h => by cases h) fun h => by cases h
    · rw [happend, herror]
      simp

/-- A label without an address, one beyond the first 256 bytes and one at their end. -/
def edgeSymbols : SymbolTable :=
  ⟨[⟨"ghost", none, some 1⟩, ⟨"far", some ⟨256, 9⟩, some 2⟩, ⟨"near", some ⟨255, 8⟩, some 3⟩]⟩

/-- Of an operand of the wrong kind and a label without an address, the one on the left is reported;
a label at the last address of one byte is encoded, the next one is not. -/
theorem append_outcome_edges :
    Instruction.Fault edgeSymbols ⟨.ldr, [.immediate 5, .address (.label 0)], 0, 4⟩
      (.unsupportedPattern .ldr 4) ∧
    Instruction.Fault edgeSymbols ⟨.ldr, [.register .b, .address (.label 1)], 0, 5⟩
      (.addressOutOfRange "far" 256) ∧
    Instruction.Encodable edgeSymbols ⟨.ldr, [.register .b, .address (.label 2)], 0, 6⟩ ∧
    append edgeSymbols ⟨.ldr, [.register .b, .address (.label 2)], 0, 6⟩ [7] =
      (.ok 2, [7, 0x21, 0xFF]) ∧
    encode ⟨[⟨.nop, [], 0, 1⟩, ⟨.jmp, [], 1, 2⟩, ⟨.jmp, [.address (.label 0)], 1, 3⟩],
      edgeSymbols⟩ = .error (.missingOperand .jmp 0 2) := by
  refine ⟨?_, ?_, ?_, by decide, ?_⟩
  · exact ((append_outcome edgeSymbols _ [7] (by decide)).2.2.2.1 _).1 (by decide)
  · exact ((append_outcome edgeSymbols _ [7] (by decide)).2.2.2.1 _).1 (by decide)
  · exact (append_outcome edgeSymbols _ [7] (by decide)).1.1 ⟨2, by decide⟩
  · refine (((append_outcome edgeSymbols ⟨.nop, [], 0, 1⟩ [] (by decide)).2.2.2.2 _).2 _).2
      ⟨1, _, rfl, by decide, ?_⟩
    intro j before hj hbefore
    obtain rfl : j = 0 := by omega
    obtain rfl := Option.some.inj hbefore
    exact ⟨[0x00], by decide⟩

end MachineCode

end ByteAssembler
