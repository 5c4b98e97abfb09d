import ByteAssembler.MachineCode
import ByteAssembler.Proofs.Traversal

/-
  The machine code of instructions whose operands fit. If the operands have the kinds of the
  signature and every label stands for a byte, the instruction has the bytes that these values
  make (`encodeInstruction_of_fits`), whatever its address and its line. Encoding a program is the
  same as appending its instructions to one buffer (`encode_eq_foldlM`).
-/

namespace ByteAssembler

namespace Operand

/-- The register code or the byte of an operand, with a byte for each label. -/
def byte (address : String → UInt8) : Operand String → UInt8
  | .register r => r.code
  | .immediate value => value
  | .address (.absolute a) => a
  | .address (.label name) => address name

theorem byte_congr {address address' : String → UInt8} {o : Operand String}
    (h : ∀ name, o.label? = some name → address name = address' name) :
    o.byte address = o.byte address' := by
  cases o with
  | address target =>
    cases target with
    | label name => exact h name rfl
    | absolute a => rfl
  | _ => rfl

end Operand

namespace MachineCode

/-! ## Register fields -/

/-- The operand mask of a mnemonic has room for the registers it takes: none, one or two. -/
theorem operandMask_eq (m : Mnemonic) :
    m.family.operandMask =
      match m.signature.count .register with
      | 0 => 0x00
      | 1 => 0x07
      | _ => 0x3F := by
  cases m <;> rfl

/-- The signatures that occur: at most two registers, and at most one operand after them. -/
theorem signature_cases (m : Mnemonic) :
    m.signature = [] ∨ (∃ k, k ≠ .register ∧ m.signature = [k]) ∨ m.signature = [.register] ∨
      (∃ k, k ≠ .register ∧ m.signature = [.register, k]) ∨
      m.signature = [.register, .register] := by
  have h : m.signature ∈ [[], [.immediate], [.address], [.register], [.register, .immediate],
      [.register, .address], [.register, .register]] := by
    cases m <;> decide
  simp only [List.mem_cons, List.not_mem_nil, or_false] at h
  rcases h with h | h | h | h | h | h | h
  · exact Or.inl h
  · exact Or.inr (Or.inl ⟨.immediate, by decide, h⟩)
  · exact Or.inr (Or.inl ⟨.address, by decide, h⟩)
  · exact Or.inr (Or.inr (Or.inl h))
  · exact Or.inr (Or.inr (Or.inr (Or.inl ⟨.immediate, by decide, h⟩)))
  · exact Or.inr (Or.inr (Or.inr (Or.inl ⟨.address, by decide, h⟩)))
  · exact Or.inr (Or.inr (Or.inr (Or.inr h)))

/-- The opcode byte and the bytes after it. -/
theorem instructionBytes_eq (m : Mnemonic) (values : List (OperandKind × UInt8)) :
    instructionBytes m values =
      (m.opcode ||| (packFields ((values.filter (·.1 == .register)).map (·.2)) &&&
        m.family.operandMask)) :: (values.filter (·.1 != .register)).map (·.2) := by
  unfold instructionBytes
  rw [List.partition_eq_filter_filter]
  rfl

/-- A register code fits into the three bits of the mask. -/
theorem packFields_one (r : Register) : packFields [r.code] &&& (0x07 : UInt8) = r.code := by
  cases r <;> rfl

section InstructionBytes

variable {m : Mnemonic} {k : OperandKind}

theorem instructionBytes_nil (hs : m.signature = []) : instructionBytes m [] = [m.opcode] := by
  have hmask : m.family.operandMask = 0x00 := by
    rw [operandMask_eq, hs]
    rfl
  rw [instructionBytes_eq, hmask]
  exact congrArg ([·]) UInt8.or_zero

theorem instructionBytes_trailing (hs : m.signature = [k]) (hk : k ≠ .register) (b : UInt8) :
    instructionBytes m [(k, b)] = [m.opcode, b] := by
  have hmask : m.family.operandMask = 0x00 := by
    rw [operandMask_eq, hs, List.count_singleton, if_neg (by simpa using hk)]
    rfl
  rw [instructionBytes_eq, hmask]
  simp [hk, packFields]

/-- One register stands in bits 2 to 0. -/
theorem instructionBytes_register (hs : m.signature = [.register]) (r : Register) :
    instructionBytes m [(.register, r.code)] = [m.opcode ||| r.code] := by
  have hmask : m.family.operandMask = 0x07 := by
    rw [operandMask_eq, hs]
    rfl
  rw [instructionBytes_eq, hmask]
  exact congrArg (fun fields => [m.opcode ||| fields]) (packFields_one r)

theorem instructionBytes_register_trailing (hs : m.signature = [.register, k])
    (hk : k ≠ .register) (r : Register) (b : UInt8) :
    instructionBytes m [(.register, r.code), (k, b)] = [m.opcode ||| r.code, b] := by
  have hmask : m.family.operandMask = 0x07 := by
    rw [operandMask_eq, hs, List.count_cons, List.count_singleton, if_neg (by simpa using hk)]
    rfl
  rw [instructionBytes_eq, hmask]
  simp [hk, packFields_one]

/-- Of two registers the first stands in bits 5 to 3. -/
theorem instructionBytes_registers (hs : m.signature = [.register, .register])
    (r r' : Register) :
    instructionBytes m [(.register, r.code), (.register, r'.code)] =
      [m.opcode ||| (r.code <<< 3 ||| r'.code)] := by
  have hmask : m.family.operandMask = 0x3F := by
    rw [operandMask_eq, hs]
    rfl
  have hfields : packFields [r.code, r'.code] &&& (0x3F : UInt8) =
      r.code <<< (3 : UInt8) ||| r'.code := by
    cases r <;> cases r' <;> rfl
  rw [instructionBytes_eq, hmask]
  exact congrArg (fun fields => [m.opcode ||| fields]) hfields

end InstructionBytes

/-! ## Operands that fit -/

/-- The byte of an operand that has the kind asked for. -/
theorem operandByte_of_kind {symbols : SymbolTable} {i : Instruction} {k : Nat}
    {operand : Operand String} {index : String → Nat} {address : String → UInt8}
    (hk : i.operands[k]? = some (operand.mapLabel index))
    (hl : ∀ name, operand.label? = some name →
      labelByte symbols i.line (index name) = .ok (address name)) :
    operandByte symbols i operand.kind k = .ok (operand.byte address) := by
  unfold operandByte
  rw [hk]
  cases operand with
  | address target =>
    cases target with
    | label name => exact hl name rfl
    | absolute a => rfl
  | _ => rfl

/-- **An instruction with fitting operands has an encoding.** -/
theorem encodeInstruction_of_fits {symbols : SymbolTable} {mnemonic : Mnemonic}
    {operands : List (Operand String)} {index : String → Nat} {address : String → UInt8}
    {place line : Nat} (hfit : operands.map Operand.kind = mnemonic.signature)
    (hl : ∀ operand ∈ operands, ∀ name, operand.label? = some name →
      labelByte symbols line (index name) = .ok (address name)) :
    encodeInstruction symbols ⟨mnemonic, operands.map (·.mapLabel index), place, line⟩ =
      .ok (instructionBytes mnemonic (operands.map fun o => (o.kind, o.byte address))) := by
  have harity : mnemonic.arity = operands.length := by
    rw [Mnemonic.arity, ← hfit, List.length_map]
  unfold encodeInstruction
  dsimp only
  rw [if_neg (by rw [harity, List.length_map]; exact Nat.lt_irrefl _), ← hfit, List.zipIdx_map,
    List.mapM_map]
  have hvalues : ∀ entry ∈ operands.zipIdx,
      (entry.1.kind, ·) <$> operandByte symbols
          ⟨mnemonic, operands.map (·.mapLabel index), place, line⟩ entry.1.kind entry.2 =
        pure (entry.1.kind, entry.1.byte address) := by
    intro entry hentry
    have hget := List.mem_zipIdx_iff_getElem?.1 hentry
    rw [operandByte_of_kind (by rw [List.getElem?_map, hget]; rfl)
      (hl entry.1 (List.mem_of_getElem? hget))]
    rfl
  have hmap : operands.zipIdx.map (fun entry => (entry.1.kind, entry.1.byte address)) =
      operands.map fun o => (o.kind, o.byte address) := by
    conv => rhs; rw [← List.zipIdx_map_fst 0 operands, List.map_map]
    rfl
  rw [← hmap]
  exact congrArg (instructionBytes mnemonic <$> ·) (mapM_eq_pure_map hvalues)

/-! ## Programs -/

theorem extend_eq (symbols : SymbolTable) (buffer : List UInt8) (i : Instruction) :
    extend symbols buffer i = (buffer ++ ·) <$> encodeInstruction symbols i := by
  unfold extend append
  cases encodeInstruction symbols i with
  | error e => rfl
  | ok bytes => rfl

/-- Instructions leave their bytes in the buffer, one after another and behind what was there. -/
theorem foldlM_extend (symbols : SymbolTable) (buffer : List UInt8) (is : List Instruction) :
    is.foldlM (extend symbols) buffer =
      (buffer ++ ·.flatten) <$> is.mapM (encodeInstruction symbols) := by
  induction is generalizing buffer with
  | nil => exact congrArg Except.ok (List.append_nil buffer).symm
  | cons i is ih =>
    rw [List.foldlM_cons, List.mapM_cons, extend_eq]
    cases encodeInstruction symbols i with
    | error e => rfl
    | ok bytes =>
      show is.foldlM (extend symbols) (buffer ++ bytes) = _
      rw [ih]
      cases is.mapM (encodeInstruction symbols) with
      | error e => rfl
      | ok chunks => exact congrArg Except.ok (List.append_assoc buffer bytes chunks.flatten)

/-- **A program is encoded into one buffer**, to which its instructions are appended one after
another, up to the first that fails. -/
theorem encode_eq_foldlM (p : Program) : encode p = p.instructions.foldlM (extend p.symbols) [] :=
  (foldlM_extend p.symbols [] p.instructions).symm

end MachineCode

end ByteAssembler
