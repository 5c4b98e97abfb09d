import ByteAssembler.Proofs.EncoderContract
import ByteAssembler.Proofs.Statements

/-
  A second assembler, in two passes over the statements of a source. The first pass adds up byte
  lengths and gives every label the sum of the lengths before it; the second writes the bytes of
  each statement with these addresses. There is no symbol table, no index and no state between
  the lines. `assemble_eq_twoPass`: whatever the one-pass assembler accepts, both give the same
  bytes, wherever the labels are defined.
-/

namespace ByteAssembler

namespace TwoPass

/-- The first pass: the labels of the statements, with the number of bytes before each of them. -/
def addresses (offset : Nat) : List Statement → List (String × Nat)
  | [] => []
  | st :: rest =>
    (st.label.map (·, offset)).toList ++ addresses (offset + st.byteLength) rest

/-- The byte after the opcode: a literal, or the address of a label. -/
def trailingByte (labels : List (String × Nat)) (kind : OperandKind) (token : String) :
    Option UInt8 :=
  if kind = .immediate ∨ Operand.startsNumber token then (ByteLiteral.parse token).toOption
  else (labels.lookup token).bind fun address =>
    if address ≤ 0xFF then some (UInt8.ofNat address) else none

/-- The bytes of an operation: one register stands in bits 2 to 0 of the opcode byte, of two the
first stands in bits 5 to 3. -/
def operationBytes (labels : List (String × Nat)) (opcode : UInt8) :
    List OperandKind → List String → Option (List UInt8)
  | [], [] => some [opcode]
  | [.register], [first] => do
    let r ← Register.ofName? first
    return [opcode ||| r.code]
  | [.register, .register], [first, second] => do
    let r ← Register.ofName? first
    let s ← Register.ofName? second
    return [opcode ||| (r.code <<< 3 ||| s.code)]
  | [.register, kind], [first, second] => do
    let r ← Register.ofName? first
    let byte ← trailingByte labels kind second
    return [opcode ||| r.code, byte]
  | [kind], [token] => do
    let byte ← trailingByte labels kind token
    return [opcode, byte]
  | _, _ => none

/-- The second pass, for one statement. -/
def emit (labels : List (String × Nat)) (st : Statement) : Option (List UInt8) :=
  match st.operation with
  | none => some []
  | some operation => do
    let m ← Mnemonic.ofName? operation.mnemonic
    operationBytes labels m.opcode m.signature operation.operands

/-- Assembles a source text in two passes. -/
def assemble (source : String) : Option (List UInt8) := do
  let statements ← ((Text.lines source).mapM Statement.parse).toOption
  let bytes ← statements.mapM (emit (addresses 0 statements))
  return bytes.flatten

/-! ## The first pass -/

/-- The first pass finds the first line with a label, and the offset of that line. -/
theorem lookup_addresses (offset : Nat) (statements : List Statement) (name : String) :
    (addresses offset statements).lookup name =
      (statements.findIdx? (·.label == some name)).map fun k =>
        offset + Layout.offset (statements.map (·.byteLength)) k := by
  induction statements generalizing offset with
  | nil => rfl
  | cons st rest ih =>
    have hshift : ∀ k, offset + st.byteLength + Layout.offset (rest.map (·.byteLength)) k =
        offset + Layout.offset ((st :: rest).map (·.byteLength)) (k + 1) := by
      intro k
      rw [List.map_cons, Layout.offset_cons_succ, Nat.add_assoc]
    have hrest : (addresses (offset + st.byteLength) rest).lookup name =
        ((rest.findIdx? (·.label == some name)).map (· + 1)).map fun k =>
          offset + Layout.offset ((st :: rest).map (·.byteLength)) k := by
      rw [ih, Option.map_map]
      exact congrArg (Option.map · _) (funext hshift)
    rw [addresses, List.findIdx?_cons]
    cases hl : st.label with
    | none => exact hrest
    | some other =>
      by_cases ho : name = other
      · subst ho
        simp [Layout.offset]
      · have hlabel : (some other == some name) = false := by simp [Ne.symm ho]
        have hname : (name == other) = false := by simp [ho]
        simp only [Option.map_some, Option.toList_some, List.singleton_append, List.lookup_cons,
          hname, hlabel]
        exact hrest

/-- Of a name that is used in a run that did not fail, the first pass knows the address. -/
theorem lookup_addresses_of_used {config : Config} {texts : List String}
    {statements : List Statement} (hok : (scan config texts).failed = false)
    (hparse : texts.mapM Statement.parse = .ok statements)
    (hvalid : ∀ st ∈ statements, st.Valid) {st : Statement} {name : String}
    (hst : st ∈ statements) (hu : name ∈ st.labelOperands) :
    ∃ address, (addresses 0 statements).lookup name = some address ∧ address ≤ 0xFF ∧
      UInt8.ofNat address = Layout.addressByte (statements.map Line.ofStatement) name := by
  rw [Scan.scan_eq_run, map_read_eq hparse] at hok
  have hmem : Line.ofStatement st ∈ statements.map Line.ofStatement := List.mem_map_of_mem hst
  have huse : name ∈ (Line.ofStatement st).uses := by
    rwa [Statement.uses_ofStatement (hvalid st hst)]
  obtain ⟨d, hd, hrange⟩ := ((Scan.finish_not_failed_iff config _).1 hok).2 name
    ⟨_, hmem, Or.inr huse⟩
  have hsmall : d.address ≤ 0xFF :=
    hrange (Layout.firstUse?_ne_none_iff.2 (List.mem_flatMap_of_mem hmem huse))
  have hbyte : Layout.addressByte (statements.map Line.ofStatement) name =
      UInt8.ofNat d.address := by
    rw [Layout.addressByte, hd]
    rfl
  rw [definition?_map_ofStatement hvalid] at hd
  obtain ⟨k, hk, rfl⟩ := Option.map_eq_some_iff.1 hd
  -- An address that fits into a byte was not cut off.
  have hmin : min (Layout.offset (statements.map (·.byteLength)) k) Scan.maxOffset =
      Layout.offset (statements.map (·.byteLength)) k := by
    have hmax : Scan.maxOffset = 65535 := rfl
    dsimp only at hsmall
    omega
  rw [hmin] at hsmall hbyte
  refine ⟨Layout.offset (statements.map (·.byteLength)) k, ?_, hsmall, hbyte.symm⟩
  rw [lookup_addresses, hk, Option.map_some, Nat.zero_add]

/-! ## The second pass -/

theorem trailingByte_of_read {labels : List (String × Nat)} {address : String → UInt8}
    {kind : OperandKind} {token : String} {operand : Operand String} (hkind : kind ≠ .register)
    (hread : Operand.read kind token = .ok operand)
    (hlabel : ∀ name, operand.label? = some name →
      ∃ a, labels.lookup name = some a ∧ a ≤ 0xFF ∧ UInt8.ofNat a = address name) :
    trailingByte labels kind token = some (operand.byte address) := by
  unfold trailingByte
  cases Operand.read_eq_ok_iff.1 hread with
  | register hr => exact absurd rfl hkind
  | immediate hn => rw [if_pos (Or.inl rfl), hn]; rfl
  | absolute hs hn => rw [if_pos (Or.inr hs), hn]; rfl
  | label hs =>
    obtain ⟨a, hlookup, ha, hbyte⟩ := hlabel token rfl
    simp [hs, hlookup, ha, hbyte, Operand.byte]

theorem register_of_read {token : String} {operand : Operand String}
    (hread : Operand.read .register token = .ok operand) :
    ∃ r, Register.ofName? token = some r ∧ operand = .register r := by
  cases Operand.read_eq_ok_iff.1 hread with
  | register hr => exact ⟨_, hr, rfl⟩

theorem operands_of_read_one {kind : OperandKind} {token : String}
    {operands : List (Operand String)}
    (h : List.zipWith Operand.read [kind] [token] = operands.map .ok) :
    ∃ o, operands = [o] ∧ Operand.read kind token = .ok o := by
  obtain ⟨o, rest, rfl, hread, hrest⟩ := List.map_eq_cons_iff.1 h.symm
  exact ⟨o, by rw [List.map_eq_nil_iff.1 hrest], hread.symm⟩

theorem operands_of_read_two {kind kind' : OperandKind} {token token' : String}
    {operands : List (Operand String)}
    (h : List.zipWith Operand.read [kind, kind'] [token, token'] = operands.map .ok) :
    ∃ o o', operands = [o, o'] ∧ Operand.read kind token = .ok o ∧
      Operand.read kind' token' = .ok o' := by
  obtain ⟨o, rest, rfl, hread, hrest⟩ := List.map_eq_cons_iff.1 h.symm
  obtain ⟨o', rfl, hread'⟩ := operands_of_read_one hrest.symm
  exact ⟨o, o', rfl, hread.symm, hread'⟩

theorem operationBytes_trailing (labels : List (String × Nat)) (opcode : UInt8)
    {kind : OperandKind} (hk : kind ≠ .register) (token : String) :
    operationBytes labels opcode [kind] [token] =
      (trailingByte labels kind token).map ([opcode, ·]) := by
  cases kind with
  | register => exact absurd rfl hk
  | _ => cases hb : trailingByte labels _ token <;> simp [operationBytes, hb]

theorem operationBytes_register_trailing (labels : List (String × Nat)) (opcode : UInt8)
    {kind : OperandKind} (hk : kind ≠ .register) {first : String} {r : Register}
    (hr : Register.ofName? first = some r) (token : String) :
    operationBytes labels opcode [.register, kind] [first, token] =
      (trailingByte labels kind token).map ([opcode ||| r.code, ·]) := by
  cases kind with
  | register => exact absurd rfl hk
  | _ => cases hb : trailingByte labels _ token <;> simp [operationBytes, hr, hb]

/-- The bytes of an operation whose tokens could all be read, one shape of signature after the
other. -/
theorem operationBytes_of_read {labels : List (String × Nat)} {address : String → UInt8}
    {m : Mnemonic} {tokens : List String} {operands : List (Operand String)}
    (hlen : tokens.length = m.arity)
    (hread : List.zipWith Operand.read m.signature tokens = operands.map .ok)
    (hlabel : ∀ operand ∈ operands, ∀ name, operand.label? = some name →
      ∃ a, labels.lookup name = some a ∧ a ≤ 0xFF ∧ UInt8.ofNat a = address name) :
    operationBytes labels m.opcode m.signature tokens =
      some (MachineCode.instructionBytes m (operands.map fun o => (o.kind, o.byte address))) := by
  rw [Mnemonic.arity] at hlen
  rcases MachineCode.signature_cases m with hs | ⟨k, hk, hs⟩ | hs | ⟨k, hk, hs⟩ | hs <;>
    rw [hs] at hlen hread <;> rw [hs]
  · obtain rfl := List.length_eq_zero_iff.1 hlen
    obtain rfl := List.map_eq_nil_iff.1 hread.symm
    rw [List.map_nil, MachineCode.instructionBytes_nil hs]
    rfl
  · obtain ⟨token, rfl⟩ := List.length_eq_one_iff.1 hlen
    obtain ⟨o, rfl, ho⟩ := operands_of_read_one hread
    have htrailing := trailingByte_of_read hk ho (hlabel o List.mem_cons_self)
    rw [operationBytes_trailing _ _ hk, htrailing, List.map_singleton, Operand.kind_of_read ho,
      MachineCode.instructionBytes_trailing hs hk]
    rfl
  · obtain ⟨token, rfl⟩ := List.length_eq_one_iff.1 hlen
    obtain ⟨o, rfl, ho⟩ := operands_of_read_one hread
    obtain ⟨r, hr, rfl⟩ := register_of_read ho
    have hbytes := MachineCode.instructionBytes_register hs r
    simp [operationBytes, hr, Operand.kind, Operand.byte, hbytes]
  · obtain ⟨first, token, rfl⟩ := List.length_eq_two.1 hlen
    obtain ⟨o, o', rfl, ho, ho'⟩ := operands_of_read_two hread
    obtain ⟨r, hr, rfl⟩ := register_of_read ho
    have htrailing := trailingByte_of_read hk ho' (hlabel o' (by simp))
    have hbytes := MachineCode.instructionBytes_register_trailing hs hk r (o'.byte address)
    rw [operationBytes_register_trailing _ _ hk hr, htrailing, List.map_cons, List.map_singleton,
      Operand.kind_of_read ho']
    exact congrArg some hbytes.symm
  · obtain ⟨first, second, rfl⟩ := List.length_eq_two.1 hlen
    obtain ⟨o, o', rfl, ho, ho'⟩ := operands_of_read_two hread
    obtain ⟨r, hr, rfl⟩ := register_of_read ho
    obtain ⟨r', hr', rfl⟩ := register_of_read ho'
    have hbytes := MachineCode.instructionBytes_registers hs r r'
    simp [operationBytes, hr, hr', Operand.kind, Operand.byte, hbytes]

theorem emit_of_valid {labels : List (String × Nat)} {address : String → UInt8}
    {st : Statement} (h : st.Valid)
    (hlabel : ∀ name ∈ st.labelOperands,
      ∃ a, labels.lookup name = some a ∧ a ≤ 0xFF ∧ UInt8.ofNat a = address name) :
    emit labels st = some ((Line.ofStatement st).machineCode address) := by
  rw [← Statement.uses_ofStatement h] at hlabel
  unfold emit Line.machineCode
  unfold Line.uses at hlabel
  unfold Line.ofStatement at hlabel ⊢
  cases ho : st.operation with
  | none => rfl
  | some operation =>
    obtain ⟨m, operands, hb⟩ := h.exists_instruction ho
    obtain ⟨hm, hlen, hread⟩ := Line.Body.ofOperation_eq_instruction.1 hb
    simp only [ho, Option.elim_some, hb] at hlabel ⊢
    rw [hm]
    refine operationBytes_of_read hlen hread fun operand hoperand name hname => ?_
    exact hlabel name (List.mem_filterMap.2 ⟨operand, hoperand, hname⟩)

end TwoPass

/-- **The assembler agrees with the two passes.** If a source is assembled with success, for
whatever settings, its bytes are those that the two passes give: every label stands for the sum of
the byte lengths before its line, whether it is used before, on or after that line. -/
theorem assemble_eq_twoPass {config : Config} {source : String} {a : Assembly}
    (h : assemble config source = .ok a) (hs : a.success = true) :
    TwoPass.assemble source = some a.bytes := by
  rw [assemble, assembleLines_eq] at h
  obtain rfl := Except.ok.inj h
  have hok : (scan config (Text.lines source)).failed = false := by
    simpa using hs
  obtain ⟨statements, hparse, hvalid⟩ := exists_statements_of_not_failed hok
  have hemit : ∀ st ∈ statements, TwoPass.emit (TwoPass.addresses 0 statements) st =
      pure ((Line.ofStatement st).machineCode
        (Layout.addressByte (statements.map Line.ofStatement))) := by
    intro st hst
    refine TwoPass.emit_of_valid (hvalid st hst) fun name hname => ?_
    exact TwoPass.lookup_addresses_of_used hok hparse hvalid hst hname
  have hpasses : TwoPass.assemble source =
      statements.mapM (TwoPass.emit (TwoPass.addresses 0 statements)) >>= fun bytes =>
        pure bytes.flatten := by
    rw [TwoPass.assemble, hparse]
    rfl
  rw [hpasses, mapM_eq_pure_map hemit, pure_bind, hok, map_read_eq hparse, List.flatMap_map]
  rfl

/-- Labels that are used before, on and after their lines, and operands of every kind. -/
def TwoPass.sample : String :=
  "jmp here\nstart:\nmov b, a\nhere: jz here\nldr c start\nmvi d -1"

theorem assemble_eq_twoPass_sample :
    ∃ a, assemble {} TwoPass.sample = .ok a ∧ a.success = true ∧
      a.bytes = [0xE0, 3, 0x88, 0xEA, 3, 0x22, 2, 0x0B, 0xFF] ∧
      TwoPass.assemble TwoPass.sample = some a.bytes := by
  have h : assemble {} TwoPass.sample =
      .ok ⟨[], true, [0xE0, 3, 0x88, 0xEA, 3, 0x22, 2, 0x0B, 0xFF],
        (scan {} (Text.lines TwoPass.sample)).program⟩ := by
    decide +kernel
  exact ⟨_, h, rfl, rfl, assemble_eq_twoPass h rfl⟩

end ByteAssembler
