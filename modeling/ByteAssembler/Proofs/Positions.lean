import ByteAssembler.Proofs.Addresses
import ByteAssembler.Proofs.Decoding
import ByteAssembler.Proofs.EncoderContract
import Mathlib.Algebra.BigOperators.Group.List.Basic

/-
  Addresses are positions in the machine code. They are given out by the scan, which knows only the
  length of each mnemonic, while the encoder puts down what the operands of each instruction ask
  for. Both agree for every signature (`encodeInstruction_length`), so that the bytes of an
  instruction stand where the lengths before it end (`encode_slice`). `encodeInstruction_opcode` says
  what the first of them shows of the instruction, and `exists_instruction_at` that a label never
  stands within one. `assemble_positions` puts this together for an assembly run with success.
-/

namespace ByteAssembler

/-! ## Registers of an instruction -/

/-- The register that an operand is. -/
def Operand.register? {ι : Type} : Operand ι → Option Register
  | .register r => some r
  | _ => none

/-- Register codes as octal digits, the first register the most significant one. -/
def Register.packed (rs : List Register) : Nat :=
  rs.foldl (fun n r => 8 * n + r.code.toNat) 0

/-- The number that the register operands of an instruction make up. -/
def Instruction.packedRegisters (i : Instruction) : Nat :=
  Register.packed (i.operands.filterMap (·.register?))

namespace Operand

theorem register?_of_resolve? {symbols : SymbolTable} {o : Operand Nat} {o' : Operand Empty}
    (h : o.resolve? symbols = some o') : o.register? = o'.register? := by
  cases o with
  | register r =>
    cases h
    rfl
  | immediate value =>
    cases h
    rfl
  | address target =>
    cases o' with
    | register r =>
      cases target with
      | absolute a => cases h
      | label index =>
        obtain ⟨a, -, ha⟩ := Option.bind_eq_some_iff.1 h
        obtain ⟨-, hcases⟩ := Option.ite_none_right_eq_some.1 ha
        cases hcases
    | _ => rfl

theorem filterMap_register?_of_resolve? {symbols : SymbolTable} {os : List (Operand Nat)}
    {os' : List (Operand Empty)} (h : os.map (·.resolve? symbols) = os'.map some) :
    os.filterMap (·.register?) = os'.filterMap (·.register?) := by
  induction os generalizing os' with
  | nil =>
    obtain rfl := List.map_eq_nil_iff.1 h.symm
    rfl
  | cons o os ih =>
    obtain ⟨o', rest, rfl, ho, hrest⟩ := List.map_eq_cons_iff.1 h.symm
    rw [List.filterMap_cons, List.filterMap_cons, register?_of_resolve? ho.symm, ih hrest.symm]

end Operand

namespace MachineCode

/-! ## One instruction -/

/-- The register codes among the values of operands. -/
theorem filter_register_values (os : List (Operand Empty)) :
    ((values os).filter (·.1 == .register)).map (·.2) =
      (os.filterMap (·.register?)).map (·.code) := by
  induction os with
  | nil => rfl
  | cons o os ih =>
    cases o with
    | register r => exact congrArg (r.code :: ·) ih
    | immediate value => exact ih
    | address target => exact ih

theorem length_filterMap_register? (os : List (Operand Empty)) :
    (os.filterMap (·.register?)).length = (os.map Operand.kind).count .register := by
  induction os with
  | nil => rfl
  | cons o os ih =>
    cases o with
    | register r =>
      rw [List.map_cons, Operand.kind, List.count_cons_self, ← ih]
      rfl
    | immediate value =>
      rw [List.map_cons, Operand.kind, List.count_cons_of_ne (by decide), ← ih]
      rfl
    | address target =>
      rw [List.map_cons, Operand.kind, List.count_cons_of_ne (by decide), ← ih]
      rfl

/-- The fields of a mnemonic hold the codes of as many registers as it takes. -/
theorem packFields_and_operandMask (m : Mnemonic) {rs : List Register}
    (h : rs.length = m.signature.count .register) :
    (packFields (rs.map (·.code)) &&& m.family.operandMask).toNat = Register.packed rs := by
  have htwo : m.signature.count .register ≤ 2 := by
    cases m <;> decide
  rw [operandMask_eq, ← h]
  rw [← h] at htwo
  match rs with
  | [] => rfl
  | [r] => cases r <;> rfl
  | [r, r'] => cases r <;> cases r' <;> rfl
  | _ :: _ :: _ :: _ => exact absurd htwo (by simp)

/-- The length of a mnemonic counts the operands that have a byte of their own. -/
theorem byteLength_eq (m : Mnemonic) :
    m.byteLength = m.signature.countP (· != .register) + 1 := by
  cases m <;> rfl

variable {symbols : SymbolTable} {i : Instruction} {bytes : List UInt8}

/-- **The two lengths agree**: what the encoder puts down for an instruction is as long as the scan
takes it to be. -/
theorem encodeInstruction_length (h : encodeInstruction symbols i = .ok bytes) :
    bytes.length = i.mnemonic.byteLength := by
  obtain ⟨r, hr, hkinds, rfl⟩ := encodeInstruction_eq_ok h
  rw [hr.mnemonic, byteLength_eq, ← hkinds, instructionBytes_eq, List.length_cons,
    List.length_map, ← List.countP_eq_length_filter, values, List.countP_map, List.countP_map]
  rfl

/-- What the opcode byte shows: the family, the opcode without the fields, and in the fields the
registers. -/
theorem encodeInstruction_opcode (h : encodeInstruction symbols i = .ok bytes) :
    ∃ opcode trailing, bytes = opcode :: trailing ∧
      Family.ofOpcode? opcode = some i.mnemonic.family ∧
      opcode &&& ~~~i.mnemonic.family.operandMask = i.mnemonic.opcode ∧
      (opcode &&& i.mnemonic.family.operandMask).toNat = i.packedRegisters := by
  obtain ⟨r, hr, hkinds, rfl⟩ := encodeInstruction_eq_ok h
  rw [instructionBytes_eq, filter_register_values, hr.mnemonic]
  refine ⟨_, _, rfl, Mnemonic.ofOpcode?_or_fields _ _, Mnemonic.or_fields_and_not_operandMask _ _,
    ?_⟩
  have hcount : (r.operands.filterMap (·.register?)).length =
      r.mnemonic.signature.count .register := by
    rw [← hkinds, length_filterMap_register?]
  rw [Mnemonic.or_fields_and_operandMask, packFields_and_operandMask _ hcount,
    Instruction.packedRegisters, Operand.filterMap_register?_of_resolve? hr.operands]

theorem append_of_encodeInstruction (h : encodeInstruction symbols i = .ok bytes)
    (buffer : List UInt8) :
    append symbols i buffer = (.ok i.mnemonic.byteLength, buffer ++ bytes) := by
  rw [append, h, ← encodeInstruction_length h]

/-! ## Programs -/

variable {p : Program}

theorem map_length_chunks {is : List Instruction} {chunks : List (List UInt8)}
    (h : is.map (encodeInstruction symbols) = chunks.map .ok) :
    chunks.map (·.length) = is.map (·.mnemonic.byteLength) := by
  induction is generalizing chunks with
  | nil =>
    obtain rfl := List.map_eq_nil_iff.1 h.symm
    rfl
  | cons i is ih =>
    obtain ⟨chunk, chunks, rfl, hchunk, hchunks⟩ := List.map_eq_cons_iff.1 h.symm
    rw [List.map_cons, List.map_cons, ih hchunks.symm, encodeInstruction_length hchunk.symm]

theorem encode_length (h : encode p = .ok bytes) : bytes.length = p.size := by
  obtain ⟨chunks, rfl, hchunks⟩ := encode_eq_ok h
  rw [List.length_flatten, map_length_chunks hchunks, Program.size_eq_sum]

/-- **The bytes of an instruction stand where the lengths before it end.** -/
theorem encode_slice (h : encode p = .ok bytes) {k : Nat} {i : Instruction}
    (hi : p.instructions[k]? = some i) :
    encodeInstruction p.symbols i = .ok
      ((bytes.drop (Layout.bytesBefore p.instructions k)).take i.mnemonic.byteLength) := by
  obtain ⟨chunks, rfl, hchunks⟩ := encode_eq_ok h
  have hget : (chunks.map Except.ok)[k]? = some (encodeInstruction p.symbols i) := by
    rw [← hchunks, List.getElem?_map, hi, Option.map_some]
  rw [List.getElem?_map, Option.map_eq_some_iff] at hget
  obtain ⟨chunk, hchunk, hencode⟩ := hget
  obtain ⟨hk, rfl⟩ := List.getElem?_eq_some_iff.1 hchunk
  rw [Layout.bytesBefore, ← map_length_chunks hchunks, Layout.offset, List.drop_sum_flatten,
    List.drop_eq_getElem_cons hk, List.flatten_cons,
    ← encodeInstruction_length hencode.symm, List.take_left, ← hencode]

end MachineCode

/-! ## Labels -/

namespace Scan

variable (config : Config) {lines : List Line}

/-- Where a line begins, an instruction begins or all of them end: a line without an instruction
begins where the next one does. -/
theorem exists_instruction_at {k : Nat} (hk : k ≤ lines.length) :
    Layout.address lines k = (run config lines).offset ∨
      ∃ i ∈ (run config lines).instructions.toList, i.address = Layout.address lines k := by
  induction lines using List.reverseRecOn with
  | nil =>
    obtain rfl := Nat.le_zero.1 hk
    exact Or.inl rfl
  | append_singleton lines l ih =>
    rcases Nat.eq_or_lt_of_le hk with rfl | hlt
    · exact Or.inl (run_offset_eq_address config _).symm
    · rw [List.length_append, List.length_singleton] at hlt
      have hle : k ≤ lines.length := Nat.le_of_lt_succ hlt
      rw [Layout.address_append hle]
      obtain ⟨hzero, hsame⟩ | ⟨i, -, haddress, -, hmore⟩ := run_concat_cases config lines l
      · have hoffset : (run config (lines ++ [l])).offset = (run config lines).offset := by
          rw [run_offset, run_offset, Layout.size_concat, hzero, Nat.add_zero]
        rw [hsame, hoffset]
        exact ih hle
      · rw [hmore]
        refine Or.inr ?_
        obtain hend | ⟨i', hi', hat⟩ := ih hle
        · refine ⟨i, List.mem_append_right _ (List.mem_singleton_self i), ?_⟩
          rw [haddress, hend, run_offset]
        · exact ⟨i', List.mem_append_left _ hi', hat⟩

/-- A label stands where an instruction begins, or at the end. -/
theorem address_of_mem_entries {symbol : Symbol} {address : Nat}
    (hs : symbol ∈ (run config lines).symbols.entries) (ha : symbol.address? = some address) :
    address = (run config lines).offset ∨
      ∃ i ∈ (run config lines).instructions.toList, i.address = address := by
  obtain ⟨d, hd, rfl⟩ := Option.map_eq_some_iff.1 ha
  obtain ⟨-, hdefinition, -⟩ := (mem_run_entries config lines).1 hs
  obtain ⟨k, hlabel, -, rfl⟩ := Layout.definition?_eq_some_iff.1 (hdefinition.trans hd)
  obtain ⟨hk, -⟩ := List.getElem?_eq_some_iff.1 hlabel
  rw [List.length_map] at hk
  exact exists_instruction_at config (Nat.le_of_lt hk)

end Scan

/-! ## Assembly runs -/

section Accepted

variable {config : Config} {texts : List String} (hok : (scan config texts).failed = false)

include hok

/-- A source that did not fail fits into the memory. -/
theorem size_le_of_not_failed : (scan config texts).program.size ≤ config.memorySize.toNat := by
  have hharmless : ∀ d ∈ (scan config texts).diagnostics, d.problem.Harmless config := by
    rw [Scan.scan_eq_run] at hok ⊢
    exact (Scan.failed_eq_false_iff config _).1 hok
  obtain ⟨hle, -⟩ | ⟨-, k, i, -, hone⟩ := sizeReports_scan config texts
  · exact hle
  · cases (hharmless _ (Diagnostic.mem_of_sizeReports hone)).1

theorem address_of_mem_symbols {symbol : Symbol} {address : Nat}
    (hs : symbol ∈ (scan config texts).program.symbols.entries)
    (ha : symbol.address? = some address) :
    address = (scan config texts).program.size ∨
      ∃ i ∈ (scan config texts).program.instructions, i.address = address := by
  have hmemory : config.memorySize.toNat < 65536 := config.memorySize.toNat_lt
  have hmax : Scan.maxOffset = 65535 := rfl
  have hsize := size_le_of_not_failed hok
  rw [size_scan_program] at hsize ⊢
  rw [Scan.scan_eq_run] at hs ⊢
  obtain hend | hinstruction := Scan.address_of_mem_entries config hs ha
  · rw [Scan.run_offset] at hend
    exact Or.inl (by omega)
  · exact Or.inr hinstruction

end Accepted

/-- **Recorded addresses are positions in the machine code.** If a source is assembled with success,
there are as many bytes as the program takes, within the memory. The bytes from the address of an
instruction on are what the encoder puts down for it; the first of them shows its family, its opcode
and its registers. A label stands where an instruction begins, or at the end. -/
theorem assemble_positions {config : Config} {source : String} {a : Assembly}
    (h : assemble config source = .ok a) (hs : a.success = true) :
    a.bytes.length = a.program.size ∧ a.program.size ≤ config.memorySize.toNat ∧
    (∀ i ∈ a.program.instructions, ∃ opcode trailing,
      (a.bytes.drop i.address).take i.mnemonic.byteLength = opcode :: trailing ∧
      (∀ buffer, MachineCode.append a.program.symbols i buffer =
        (.ok i.mnemonic.byteLength, buffer ++ opcode :: trailing)) ∧
      Family.ofOpcode? opcode = some i.mnemonic.family ∧
      opcode &&& ~~~i.mnemonic.family.operandMask = i.mnemonic.opcode ∧
      (opcode &&& i.mnemonic.family.operandMask).toNat = i.packedRegisters) ∧
    ∀ s ∈ a.program.symbols.entries, ∀ address, s.address? = some address →
      address = a.bytes.length ∨ ∃ i ∈ a.program.instructions, i.address = address := by
  rw [assemble, assembleLines_eq] at h
  obtain rfl := Except.ok.inj h
  have hok : (scan config (Text.lines source)).failed = false := by
    simpa using hs
  have hencode := encode_scan hok
  have hsize := size_le_of_not_failed hok
  simp only [hok, Bool.false_eq_true, if_false]
  generalize (List.map Line.read _).flatMap _ = bytes at hencode
  refine ⟨MachineCode.encode_length hencode, hsize, ?_, ?_⟩
  · intro i hi
    obtain ⟨k, hk⟩ := List.getElem?_of_mem hi
    have hslice := MachineCode.encode_slice hencode hk
    rw [← address_scan_of_size_le config _ hsize hk] at hslice
    obtain ⟨opcode, trailing, hbytes, hshows⟩ := MachineCode.encodeInstruction_opcode hslice
    rw [hbytes] at hslice
    exact ⟨opcode, trailing, hbytes, MachineCode.append_of_encodeInstruction hslice, hshows⟩
  · intro s hs address ha
    rw [MachineCode.encode_length hencode]
    exact address_of_mem_symbols hok hs ha

/-- Two registers in one byte, a jump back, and a label that stands at the end. -/
def Source.moves : String :=
  "loop: mov b, m\n ldr c, end ; below the code\n jmp loop\nend:"

theorem assemble_positions_moves :
    ∃ a, assemble {} Source.moves = .ok a ∧ a.success = true ∧
      a.bytes = [0x8F, 0x22, 5, 0xE0, 0] ∧ a.program.size = 5 ∧
      (∀ i ∈ a.program.instructions, ∃ opcode trailing,
        (a.bytes.drop i.address).take i.mnemonic.byteLength = opcode :: trailing ∧
        (opcode &&& i.mnemonic.family.operandMask).toNat = i.packedRegisters) ∧
      ∀ s ∈ a.program.symbols.entries, ∀ address, s.address? = some address →
        address = 5 ∨ ∃ i ∈ a.program.instructions, i.address = address := by
  have h : assemble {} Source.moves =
      .ok ⟨[], true, [0x8F, 0x22, 5, 0xE0, 0], (scan {} (Text.lines Source.moves)).program⟩ := by
    decide +kernel
  obtain ⟨hsize, -, hinstructions, hsymbols⟩ := assemble_positions h rfl
  refine ⟨_, h, rfl, rfl, hsize.symm, ?_, hsymbols⟩
  intro i hi
  obtain ⟨opcode, trailing, hslice, -, -, -, hregisters⟩ := hinstructions i hi
  exact ⟨opcode, trailing, hslice, hregisters⟩

end ByteAssembler
