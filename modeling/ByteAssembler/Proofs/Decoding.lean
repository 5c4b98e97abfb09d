import ByteAssembler.Proofs.Encoding
import Mathlib.Data.List.Forall2

/-
  Machine code can be read back. The opcode byte alone tells the mnemonic (`ofByte?_or_fields`):
  register fields do not leave the family of the opcode, the family tells which bits are fields,
  and without these bits the byte is the opcode of one mnemonic. The mnemonic tells whether a byte
  follows, so a whole program can be cut into its instructions again (`decode_encode`). Hence two
  programs with the same machine code differ in nothing that the machine sees (`encode_unique`).
-/

namespace ByteAssembler

/-! ## What the machine sees of a program -/

namespace Operand

/-- The operand with the address of its label in place of the label, if that is a byte. -/
def resolve? (symbols : SymbolTable) : Operand Nat → Option (Operand Empty)
  | .register r => some (.register r)
  | .immediate value => some (.immediate value)
  | .address (.absolute a) => some (.address (.absolute a))
  | .address (.label index) =>
    ((symbols.get? index).bind (·.address?)).bind fun a =>
      if a ≤ 0xFF then some (.address (.absolute (UInt8.ofNat a))) else none

/-- The register code or the byte of an operand without labels. -/
def code : Operand Empty → UInt8
  | .register r => r.code
  | .immediate value => value
  | .address (.absolute a) => a

end Operand

/-- An instruction without labels. -/
structure MachineInstruction where
  mnemonic : Mnemonic
  operands : List (Operand Empty)
  deriving DecidableEq

/-- What the machine sees of an instruction. -/
structure Instruction.ResolvesTo (symbols : SymbolTable) (i : Instruction)
    (r : MachineInstruction) : Prop where
  mnemonic : i.mnemonic = r.mnemonic
  operands : i.operands.map (·.resolve? symbols) = r.operands.map some

/-! ## Reading machine code -/

/-- The register whose code stands in bits 2 to 0. -/
def Register.ofBits (bits : UInt8) : Register :=
  all.getD (bits &&& 0x07).toNat .a

/-- The mnemonic that an opcode byte shows: the family tells which of its bits are fields, the
others are the opcode. -/
def Mnemonic.ofByte? (byte : UInt8) : Option Mnemonic := do
  let family ← Family.ofOpcode? byte
  all.find? (·.opcode == byte &&& ~~~family.operandMask)

namespace MachineCode

/-- The operand of some kind: a register stands in the last field, everything else in the byte
after the opcode. -/
def readOperand (kind : OperandKind) (fields trailing : UInt8) : Operand Empty :=
  match kind with
  | .register => .register (Register.ofBits fields)
  | .immediate => .immediate trailing
  | .address => .address (.absolute trailing)

/-- The operands of an instruction: each register is left of the fields of those after it. -/
def readOperands (fields trailing : UInt8) : List OperandKind → List (Operand Empty)
  | [] => []
  | kind :: kinds =>
    readOperand kind (fields >>> UInt8.ofNat (3 * kinds.count .register)) trailing ::
      readOperands fields trailing kinds

/-- The instructions that a list of bytes consists of. -/
def decode : List UInt8 → Option (List MachineInstruction)
  | [] => some []
  | opcode :: rest => do
    let m ← Mnemonic.ofByte? opcode
    let fields := opcode &&& m.family.operandMask
    if m.hasTrailingByte then
      match rest with
      | [] => none
      | byte :: rest => return ⟨m, readOperands fields byte m.signature⟩ :: (← decode rest)
    else return ⟨m, readOperands fields 0 m.signature⟩ :: (← decode rest)

end MachineCode

/-! ## The opcode byte -/

theorem uint8_or_and_distrib_right (a b c : UInt8) : (a ||| b) &&& c = a &&& c ||| b &&& c := by
  apply UInt8.toBitVec_inj.1
  simp only [UInt8.toBitVec_and, UInt8.toBitVec_or, BitVec.and_or_distrib_right]

namespace Mnemonic

/-- No two mnemonics have the same opcode. -/
theorem find?_opcode (m : Mnemonic) : all.find? (·.opcode == m.opcode) = some m := by
  have h : ∀ m ∈ all, all.find? (·.opcode == m.opcode) = some m := by decide +kernel
  exact h m m.mem_all

/-- An opcode has no bit among the fields of its family. -/
theorem opcode_and_not_operandMask (m : Mnemonic) :
    m.opcode &&& ~~~m.family.operandMask = m.opcode := by
  cases m <;> rfl

/-- Whatever stands in the fields, the byte belongs to the family of the opcode. -/
theorem ofOpcode?_or_of_le :
    ∀ m ∈ all, ∀ n < m.family.operandMask.toNat + 1,
      Family.ofOpcode? (m.opcode ||| UInt8.ofNat n) = some m.family := by
  decide +kernel

variable (m : Mnemonic) (fields : UInt8)

theorem ofOpcode?_or_fields :
    Family.ofOpcode? (m.opcode ||| (fields &&& m.family.operandMask)) = some m.family := by
  have hle : (fields &&& m.family.operandMask).toNat ≤ m.family.operandMask.toNat :=
    UInt8.le_iff_toNat_le.1 UInt8.and_le_right
  have h := ofOpcode?_or_of_le m m.mem_all _ (Nat.lt_succ_of_le hle)
  rwa [UInt8.ofNat_toNat] at h

theorem or_fields_and_operandMask :
    (m.opcode ||| (fields &&& m.family.operandMask)) &&& m.family.operandMask =
      fields &&& m.family.operandMask := by
  have hopcode : m.opcode &&& m.family.operandMask = 0 := by
    rw [← opcode_and_not_operandMask, UInt8.and_assoc, UInt8.not_and_self, UInt8.and_zero]
  rw [uint8_or_and_distrib_right, hopcode, UInt8.zero_or, UInt8.and_assoc, UInt8.and_self]

theorem or_fields_and_not_operandMask :
    (m.opcode ||| (fields &&& m.family.operandMask)) &&& ~~~m.family.operandMask = m.opcode := by
  rw [uint8_or_and_distrib_right, opcode_and_not_operandMask, UInt8.and_assoc, UInt8.and_not_self,
    UInt8.and_zero, UInt8.or_zero]

/-- The opcode byte tells the mnemonic, whatever stands in its fields. -/
theorem ofByte?_or_fields :
    ofByte? (m.opcode ||| (fields &&& m.family.operandMask)) = some m := by
  unfold ofByte?
  rw [ofOpcode?_or_fields]
  show all.find? (·.opcode == _ &&& ~~~m.family.operandMask) = some m
  rw [or_fields_and_not_operandMask, find?_opcode]

end Mnemonic

/-! ## Operands -/

namespace MachineCode

theorem eq_register_of_kind {o : Operand Empty} (h : o.kind = .register) :
    ∃ r, o = .register r := by
  cases o with
  | register r => exact ⟨r, rfl⟩
  | _ => cases h

/-- What does not stand in a field is read from the byte after the opcode. -/
theorem readOperand_of_kind_ne {o : Operand Empty} (h : o.kind ≠ .register) (fields : UInt8) :
    readOperand o.kind fields o.code = o := by
  cases o with
  | register r => exact absurd rfl h
  | immediate value => rfl
  | address target =>
    cases target with
    | absolute a => rfl
    | label e => exact e.elim

theorem readOperands_register (r : Register) (trailing : UInt8) :
    readOperands (packFields [r.code] &&& 0x07) trailing [.register] = [.register r] := by
  cases r <;> rfl

theorem readOperands_register_trailing (r : Register) {o : Operand Empty}
    (h : o.kind ≠ .register) :
    readOperands (packFields [r.code] &&& 0x07) o.code [.register, o.kind] = [.register r, o] := by
  have hshift : 3 * List.count OperandKind.register [o.kind] = 0 := by simp [h]
  have hfirst := List.cons.inj (readOperands_register r o.code)
  rw [readOperands, readOperands, readOperand_of_kind_ne h, hshift]
  exact congrArg (· :: [o]) hfirst.1

theorem readOperands_registers (r r' : Register) (trailing : UInt8) :
    readOperands (packFields [r.code, r'.code] &&& 0x3F) trailing [.register, .register] =
      [.register r, .register r'] := by
  cases r <;> cases r' <;> rfl

/-- The values that make up the bytes of an instruction without labels. -/
def values (operands : List (Operand Empty)) : List (OperandKind × UInt8) :=
  operands.map fun o => (o.kind, o.code)

variable {m : Mnemonic}

theorem decode_one_byte (h : m.hasTrailingByte = false) (fields : UInt8) (rest : List UInt8) :
    decode ((m.opcode ||| (fields &&& m.family.operandMask)) :: rest) =
      (⟨m, readOperands (fields &&& m.family.operandMask) 0 m.signature⟩ :: ·) <$> decode rest := by
  rw [decode, Mnemonic.ofByte?_or_fields]
  simp only [bind, Option.bind, h, Mnemonic.or_fields_and_operandMask]
  cases decode rest <;> rfl

theorem decode_two_bytes (h : m.hasTrailingByte = true) (fields byte : UInt8)
    (rest : List UInt8) :
    decode ((m.opcode ||| (fields &&& m.family.operandMask)) :: byte :: rest) =
      (⟨m, readOperands (fields &&& m.family.operandMask) byte m.signature⟩ :: ·) <$>
        decode rest := by
  rw [decode, Mnemonic.ofByte?_or_fields]
  simp only [bind, Option.bind, h, Mnemonic.or_fields_and_operandMask]
  cases decode rest <;> rfl

/-- **An instruction is read back from the front of its bytes**, whatever comes after them. -/
theorem decode_instructionBytes {operands : List (Operand Empty)}
    (h : operands.map Operand.kind = m.signature) (rest : List UInt8) :
    decode (instructionBytes m (values operands) ++ rest) =
      (⟨m, operands⟩ :: ·) <$> decode rest := by
  have hmask := operandMask_eq m
  have hbytes : m.hasTrailingByte = m.signature.any (· != .register) := rfl
  rw [instructionBytes_eq]
  -- One case for each signature that an instruction may have; `rw` puts it into all three facts.
  rcases signature_cases m with hs | ⟨k, hk, hs⟩ | hs | ⟨k, hk, hs⟩ | hs <;>
    rw [hs] at h hmask hbytes
  · obtain rfl := List.map_eq_nil_iff.1 h
    show decode (_ :: rest) = _
    rw [decode_one_byte hbytes, hs]
    rfl
  · obtain ⟨o, rfl, rfl⟩ := List.map_eq_singleton_iff.1 h
    have htwo : m.hasTrailingByte = true := by simp [hbytes, hk]
    have hread := readOperand_of_kind_ne hk
    simp [values, hk, decode_two_bytes htwo, hs, readOperands, hread]
  · obtain ⟨o, rfl, ho⟩ := List.map_eq_singleton_iff.1 h
    obtain ⟨r, rfl⟩ := eq_register_of_kind ho
    show decode (_ :: rest) = _
    rw [decode_one_byte hbytes, hmask, hs]
    exact congrArg (fun os => (⟨m, os⟩ :: ·) <$> decode rest) (readOperands_register r 0)
  · obtain ⟨o, os, rfl, ho, hrest⟩ := List.map_eq_cons_iff.1 h
    obtain ⟨o', rfl, rfl⟩ := List.map_eq_singleton_iff.1 hrest
    obtain ⟨r, rfl⟩ := eq_register_of_kind ho
    have htwo : m.hasTrailingByte = true := by simp [hbytes, hk]
    have hcount : [OperandKind.register, o'.kind].count .register = 1 := by simp [hk]
    rw [hcount] at hmask
    have hcodes : ((values [.register r, o']).filter (·.1 == .register)).map (·.2) = [r.code] := by
      simp [values, hk, ho]
      rfl
    have htrailing : ((values [.register r, o']).filter (·.1 != .register)).map (·.2) =
        [o'.code] := by
      simp [values, hk, ho]
    rw [hcodes, htrailing, List.cons_append, List.singleton_append, decode_two_bytes htwo, hmask,
      hs]
    exact congrArg (fun os => (⟨m, os⟩ :: ·) <$> decode rest) (readOperands_register_trailing r hk)
  · obtain ⟨o, os, rfl, ho, hrest⟩ := List.map_eq_cons_iff.1 h
    obtain ⟨o', rfl, ho'⟩ := List.map_eq_singleton_iff.1 hrest
    obtain ⟨r, rfl⟩ := eq_register_of_kind ho
    obtain ⟨r', rfl⟩ := eq_register_of_kind ho'
    show decode (_ :: rest) = _
    rw [decode_one_byte hbytes, hmask, hs]
    exact congrArg (fun os => (⟨m, os⟩ :: ·) <$> decode rest) (readOperands_registers r r' 0)

/-! ## Programs -/

variable {symbols : SymbolTable}

theorem resolve?_of_labelByte {line index : Nat} {byte : UInt8}
    (h : labelByte symbols line index = .ok byte) :
    (Operand.address (.label index)).resolve? symbols = some (.address (.absolute byte)) := by
  unfold labelByte at h
  unfold Operand.resolve?
  cases hget : symbols.get? index with
  | none =>
    rw [hget] at h
    cases h
  | some symbol =>
    cases haddress : symbol.address? with
    | none => simp [hget, haddress] at h
    | some a =>
      simp only [hget, haddress] at h
      split at h
      · next hle =>
        cases h
        simp [hget, haddress, hle]
      · cases h

/-- An operand that has a byte is of the kind asked for, and the byte is its own. -/
theorem operandByte_eq_ok {i : Instruction} {kind : OperandKind} {index : Nat} {byte : UInt8}
    (h : operandByte symbols i kind index = .ok byte) :
    ∃ operand o, i.operands[index]? = some operand ∧ operand.resolve? symbols = some o ∧
      o.kind = kind ∧ o.code = byte := by
  unfold operandByte at h
  cases hget : i.operands[index]? with
  | none =>
    rw [hget] at h
    cases h
  | some operand =>
    rw [hget] at h
    cases operand with
    | register r => cases kind <;> cases h; exact ⟨_, _, rfl, rfl, rfl, rfl⟩
    | immediate value => cases kind <;> cases h; exact ⟨_, _, rfl, rfl, rfl, rfl⟩
    | address target =>
      cases target with
      | absolute a => cases kind <;> cases h; exact ⟨_, _, rfl, rfl, rfl, rfl⟩
      | label label =>
        cases kind with
        | address => exact ⟨_, _, rfl, resolve?_of_labelByte h, rfl, rfl⟩
        | _ => cases h

/-- The operands from position `start` on, if each of them has a byte. -/
theorem operands_of_operandBytes {i : Instruction} {kinds : List OperandKind} {start : Nat}
    {bytes : List (OperandKind × UInt8)}
    (h : (kinds.zipIdx start).map (fun (kind, index) =>
      (kind, ·) <$> operandByte symbols i kind index) = bytes.map .ok) :
    ∃ operands : List (Operand Empty),
      ((i.operands.drop start).take kinds.length).map (·.resolve? symbols) = operands.map some ∧
        operands.map Operand.kind = kinds ∧ bytes = values operands := by
  induction kinds generalizing start bytes with
  | nil =>
    obtain rfl := List.map_eq_nil_iff.1 h.symm
    exact ⟨[], by simp, rfl, rfl⟩
  | cons kind kinds ih =>
    rw [List.zipIdx_cons, List.map_cons] at h
    obtain ⟨first, rest, rfl, hfirst, hrest⟩ := List.map_eq_cons_iff.1 h.symm
    obtain ⟨operands, hoperands, rfl, rfl⟩ := ih hrest.symm
    cases hbyte : operandByte symbols i kind start with
    | error e =>
      simp only [hbyte] at hfirst
      cases hfirst
    | ok byte =>
      simp only [hbyte] at hfirst
      cases hfirst
      obtain ⟨operand, o, hget, hresolve, rfl, rfl⟩ := operandByte_eq_ok hbyte
      obtain ⟨hlt, rfl⟩ := List.getElem?_eq_some_iff.1 hget
      refine ⟨o :: operands, ?_, rfl, rfl⟩
      rw [List.drop_eq_getElem_cons hlt, List.length_cons, List.take_succ_cons, List.map_cons,
        hresolve, hoperands, List.map_cons]

/-- What has an encoding has no label without an address, and its operands fit. -/
theorem encodeInstruction_eq_ok {i : Instruction} {bytes : List UInt8}
    (h : encodeInstruction symbols i = .ok bytes) :
    ∃ r : MachineInstruction, i.ResolvesTo symbols r ∧
      r.operands.map Operand.kind = r.mnemonic.signature ∧
      bytes = instructionBytes r.mnemonic (values r.operands) := by
  unfold encodeInstruction at h
  split at h
  · cases h
  · next hlen =>
    cases hm : i.mnemonic.signature.zipIdx.mapM (fun (kind, index) =>
        (kind, ·) <$> operandByte symbols i kind index) with
    | error e =>
      rw [hm] at h
      cases h
    | ok bytes' =>
      rw [hm] at h
      cases h
      obtain ⟨operands, hresolve, hkinds, rfl⟩ :=
        operands_of_operandBytes (map_eq_of_mapM_eq_ok hm)
      have hall : i.operands.length ≤ i.mnemonic.signature.length := Nat.le_of_not_lt hlen
      rw [List.drop_zero, List.take_of_length_le hall] at hresolve
      exact ⟨⟨i.mnemonic, operands⟩, ⟨rfl, hresolve⟩, hkinds, rfl⟩

/-- Instructions are read back from their bytes, one after another. -/
theorem decode_flatten {is : List Instruction} {chunks : List (List UInt8)}
    (h : is.map (encodeInstruction symbols) = chunks.map .ok) :
    ∃ rs, decode chunks.flatten = some rs ∧
      List.Forall₂ (Instruction.ResolvesTo symbols) is rs := by
  induction is generalizing chunks with
  | nil =>
    obtain rfl := List.map_eq_nil_iff.1 h.symm
    exact ⟨[], rfl, .nil⟩
  | cons i is ih =>
    obtain ⟨chunk, chunks, rfl, hchunk, hchunks⟩ := List.map_eq_cons_iff.1 h.symm
    obtain ⟨rs, hrs, hall⟩ := ih hchunks.symm
    obtain ⟨r, hr, hkinds, rfl⟩ := encodeInstruction_eq_ok hchunk.symm
    refine ⟨r :: rs, ?_, .cons hr hall⟩
    rw [List.flatten_cons, decode_instructionBytes hkinds, hrs]
    rfl

/-- Machine code consists of one chunk for each instruction. -/
theorem encode_eq_ok {p : Program} {bytes : List UInt8} (h : encode p = .ok bytes) :
    ∃ chunks : List (List UInt8), bytes = chunks.flatten ∧
      p.instructions.map (encodeInstruction p.symbols) = chunks.map .ok := by
  unfold encode at h
  cases hm : p.instructions.mapM (encodeInstruction p.symbols) with
  | error e =>
    rw [hm] at h
    cases h
  | ok chunks =>
    rw [hm] at h
    cases h
    exact ⟨chunks, rfl, map_eq_of_mapM_eq_ok hm⟩

/-- **Machine code is read back as what it was made from.** -/
theorem decode_encode {p : Program} {bytes : List UInt8} (h : encode p = .ok bytes) :
    ∃ rs, decode bytes = some rs ∧
      List.Forall₂ (Instruction.ResolvesTo p.symbols) p.instructions rs := by
  obtain ⟨chunks, rfl, hchunks⟩ := encode_eq_ok h
  exact decode_flatten hchunks

/-- **Machine code tells programs apart.** Two programs with the same machine code have as many
instructions, and at each position the same mnemonic and the same operands once labels are replaced
by their addresses: the same registers, constants and addresses. -/
theorem encode_unique {p q : Program} {bytes : List UInt8} (hp : encode p = .ok bytes)
    (hq : encode q = .ok bytes) :
    p.instructions.length = q.instructions.length ∧
      ∀ (k : Nat) (i j : Instruction), p.instructions[k]? = some i → q.instructions[k]? = some j →
        i.mnemonic = j.mnemonic ∧
          ∃ operands : List (Operand Empty),
            i.operands.map (·.resolve? p.symbols) = operands.map some ∧
              j.operands.map (·.resolve? q.symbols) = operands.map some := by
  obtain ⟨rs, hrs, hp⟩ := decode_encode hp
  obtain ⟨rs', hrs', hq⟩ := decode_encode hq
  obtain rfl : rs = rs' := Option.some.inj (hrs.symm.trans hrs')
  refine ⟨hp.length_eq.trans hq.length_eq.symm, ?_⟩
  intro k i j hi hj
  obtain ⟨hki, rfl⟩ := List.getElem?_eq_some_iff.1 hi
  obtain ⟨hkj, rfl⟩ := List.getElem?_eq_some_iff.1 hj
  have hk : k < rs.length := hp.length_eq ▸ hki
  have hip := hp.get hki hk
  have hjq := hq.get hkj hk
  exact ⟨hip.mnemonic.trans hjq.mnemonic.symm, rs[k].operands, hip.operands, hjq.operands⟩

/-- A program that jumps to a label. -/
def labelJump : Program :=
  ⟨[⟨.jmp, [.address (.label 0)], 0, 1⟩, ⟨.mov, [.register .b, .register .a], 2, 2⟩],
    ⟨[⟨"end", some ⟨3, 3⟩, some 1⟩]⟩⟩

/-- The same with the address of the label, on other lines and without a symbol table. -/
def literalJump : Program :=
  ⟨[⟨.jmp, [.address (.absolute 3)], 0, 4⟩, ⟨.mov, [.register .b, .register .a], 2, 7⟩], {}⟩

theorem encode_unique_jump :
    encode labelJump = .ok [0xE0, 3, 0x88] ∧ encode literalJump = .ok [0xE0, 3, 0x88] ∧
      ∃ operands : List (Operand Empty),
        [Operand.address (.label 0)].map (·.resolve? labelJump.symbols) = operands.map some ∧
          [Operand.address (.absolute 3)].map (·.resolve? literalJump.symbols) =
            operands.map some := by
  have hlabel : encode labelJump = .ok [0xE0, 3, 0x88] := by decide
  have hliteral : encode literalJump = .ok [0xE0, 3, 0x88] := by decide
  refine ⟨hlabel, hliteral, ?_⟩
  exact ((encode_unique hlabel hliteral).2 0 _ _ rfl rfl).2

end MachineCode

end ByteAssembler
