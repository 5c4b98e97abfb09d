import ByteAssembler.Assembly
import ByteAssembler.Listing
import ByteAssembler.Proofs.Encoding
import ByteAssembler.Proofs.Reading
import ByteAssembler.Proofs.Verdict

/-
  What a scan hands over can be used. Every label index in an instruction belongs to the symbol
  table, so every program has a listing, a failed one as well (`run_listing`); and a program that
  no diagnostic stands against has machine code, line by line the bytes of its instructions with
  the addresses of the layout (`encode_run`). Hence an assembly run always has a result
  (`encoder_contract`).
-/

namespace ByteAssembler

/-- The bytes of the instruction of a line, with a byte for each label. -/
def Line.machineCode (address : String → UInt8) (l : Line) : List UInt8 :=
  match l.body with
  | .instruction mnemonic operands =>
    MachineCode.instructionBytes mnemonic (operands.map fun o => (o.kind, o.byte address))
  | _ => []

/-- Only the addresses of the labels that a line uses matter to its bytes. -/
theorem Line.machineCode_congr {address address' : String → UInt8} {l : Line}
    (h : ∀ name ∈ l.uses, address name = address' name) :
    l.machineCode address = l.machineCode address' := by
  unfold machineCode
  unfold uses at h
  cases hb : l.body with
  | instruction mnemonic operands =>
    rw [hb] at h
    have hvalues : operands.map (fun o => (o.kind, o.byte address)) =
        operands.map fun o => (o.kind, o.byte address') := by
      refine List.map_congr_left fun o ho => ?_
      rw [Operand.byte_congr fun name hname => h name (List.mem_filterMap.2 ⟨o, ho, hname⟩)]
    exact congrArg (MachineCode.instructionBytes mnemonic) hvalues
  | _ => rfl

theorem Line.machineCode_of_none {index : String → Nat} {place line : Nat} {l : Line}
    (address : String → UInt8) (h : l.instruction? index place line = none) :
    l.machineCode address = [] := by
  unfold instruction? at h
  unfold machineCode
  cases hb : l.body with
  | instruction mnemonic operands =>
    rw [hb] at h
    cases h
  | _ => rfl

namespace Layout

/-- The address of a name as a byte. -/
def addressByte (lines : List Line) (name : String) : UInt8 :=
  UInt8.ofNat ((definition? lines name).elim 0 (·.address))

end Layout

namespace Scan

variable (config : Config) (lines : List Line)

/-! ## Label indices -/

/-- A label index in an instruction is the one that the final table gives to its name. -/
theorem label_of_run_instructions {i : Instruction} {operand : Operand Nat} {index : Nat}
    (hi : i ∈ (run config lines).instructions.toList) (ho : operand ∈ i.operands)
    (hl : operand.label? = some index) :
    ∃ name, Layout.Mentioned lines name ∧ index = (run config lines).symbols.indexOf name := by
  rw [run_instructions] at hi
  obtain ⟨k, l, hget, hplace⟩ := Layout.mem_instructions.1 hi
  obtain ⟨mnemonic, operands, hb, rfl⟩ := Line.instruction?_eq_some.1 hplace
  obtain ⟨source, hsource, rfl⟩ := List.mem_map.1 ho
  obtain ⟨name, rfl, rfl⟩ : ∃ name, source = .address (.label name) ∧
      index = (run config lines).symbols.indexOf name := by
    cases source with
    | address target =>
      cases target with
      | label name => exact ⟨name, rfl, (Option.some.inj hl).symm⟩
      | absolute a => cases hl
    | _ => cases hl
  have hu : name ∈ l.uses := by
    rw [Line.uses, hb]
    exact List.mem_filterMap.2 ⟨_, hsource, rfl⟩
  exact ⟨name, ⟨_, List.mem_of_getElem? hget, Or.inr hu⟩, rfl⟩

theorem label_lt_of_run_instructions {i : Instruction} {operand : Operand Nat} {index : Nat}
    (hi : i ∈ (run config lines).instructions.toList) (ho : operand ∈ i.operands)
    (hl : operand.label? = some index) :
    index < (run config lines).symbols.entries.length := by
  obtain ⟨name, hname, rfl⟩ := label_of_run_instructions config lines hi ho hl
  exact SymbolTable.indexOf_lt_iff.2 ((mem_run_names config lines).2 hname)

/-- Every program has a listing, since no operand leads out of the table. -/
theorem run_listing :
    ∃ rendered, Listing.lines? ((run config lines).finish config).program = some rendered := by
  have hoperand : ∀ i ∈ (run config lines).instructions.toList, ∀ operand ∈ i.operands,
      ∃ text, Listing.operandText? (run config lines).symbols operand = some text := by
    intro i hi operand ho
    cases operand with
    | address target =>
      cases target with
      | label index =>
        have hlt := label_lt_of_run_instructions config lines hi ho rfl
        exact ⟨_, by rw [Listing.operandText?, SymbolTable.get?, List.getElem?_eq_getElem hlt]; rfl⟩
      | absolute a => exact ⟨_, rfl⟩
    | _ => exact ⟨_, rfl⟩
  refine exists_mapM_eq_pure fun i hi => ?_
  obtain ⟨texts, htexts⟩ := exists_mapM_eq_pure (hoperand i hi)
  refine Option.isSome_iff_exists.1 ?_
  show (Listing.line? (run config lines).symbols i).isSome = true
  simp [Listing.line?, htexts]

/-! ## Machine code -/

variable {config lines}

/-- In a run that did not fail, a label that is used stands for the byte of its address. -/
theorem labelByte_run (hok : ((run config lines).finish config).failed = false) {l : Line}
    {name : String} (hl : l ∈ lines) (hu : name ∈ l.uses) (line : Nat) :
    MachineCode.labelByte (run config lines).symbols line
        ((run config lines).symbols.indexOf name) = .ok (Layout.addressByte lines name) := by
  have hname : Layout.Mentioned lines name := ⟨l, hl, Or.inr hu⟩
  obtain ⟨d, hd, hrange⟩ := ((finish_not_failed_iff config lines).1 hok).2 name hname
  have hfind := SymbolTable.find?_eq_of_mem ((mem_run_names config lines).2 hname)
  rw [run_definition?, hd] at hfind
  unfold SymbolTable.find? at hfind
  unfold MachineCode.labelByte Layout.addressByte
  rw [hfind, hd]
  exact if_pos (hrange (Layout.firstUse?_ne_none_iff.2 (List.mem_flatMap_of_mem hl hu)))

theorem encodeInstruction_run (hok : ((run config lines).finish config).failed = false) {l : Line}
    (hl : l ∈ lines) (hfits : l.Fits) {address line : Nat} {i : Instruction}
    (hi : l.instruction? (run config lines).symbols.indexOf address line = some i) :
    MachineCode.encodeInstruction (run config lines).symbols i =
      .ok (l.machineCode (Layout.addressByte lines)) := by
  obtain ⟨mnemonic, operands, hb, rfl⟩ := Line.instruction?_eq_some.1 hi
  rw [Line.machineCode, hb]
  refine MachineCode.encodeInstruction_of_fits (hfits mnemonic operands hb) ?_
  intro operand ho name hname
  refine labelByte_run hok hl ?_ line
  rw [Line.uses, hb]
  exact List.mem_filterMap.2 ⟨operand, ho, hname⟩

/-- **The machine code of a run that did not fail**: the bytes of its lines one after another. -/
theorem encode_run (hok : ((run config lines).finish config).failed = false)
    (hfits : ∀ l ∈ lines, l.Fits) :
    MachineCode.encode ((run config lines).finish config).program =
      .ok (lines.flatMap (·.machineCode (Layout.addressByte lines))) := by
  show (·.flatten) <$> (run config lines).instructions.toList.mapM
      (MachineCode.encodeInstruction (run config lines).symbols) = _
  have hlines : lines.flatMap (·.machineCode (Layout.addressByte lines)) =
      lines.zipIdx.flatMap fun entry => entry.1.machineCode (Layout.addressByte lines) := by
    conv => lhs; rw [← List.zipIdx_map_fst 0 lines, List.flatMap_map]
    rw [List.zipIdx_map_fst]
  rw [run_instructions, Layout.instructions, hlines]
  refine flatten_mapM_filterMap ?_ ?_
  · intro entry hentry i hi
    have hl : entry.1 ∈ lines := List.fst_mem_of_mem_zipIdx hentry
    exact encodeInstruction_run hok hl (hfits entry.1 hl) hi
  · intro entry _ hnone
    exact Line.machineCode_of_none _ hnone

end Scan

theorem fits_of_mem_map_read {texts : List String} {l : Line} (hl : l ∈ texts.map Line.read) :
    l.Fits := by
  obtain ⟨text, -, rfl⟩ := List.mem_map.1 hl
  exact Line.read_fits text

/-- The machine code of a source that did not fail. -/
theorem encode_scan {config : Config} {texts : List String}
    (hok : (scan config texts).failed = false) :
    MachineCode.encode (scan config texts).program =
      .ok ((texts.map Line.read).flatMap
        (·.machineCode (Layout.addressByte (texts.map Line.read)))) := by
  rw [Scan.scan_eq_run] at hok ⊢
  exact Scan.encode_run hok fun _ => fits_of_mem_map_read

/-- Every list of lines has a result; its bytes are the machine code unless the scan failed. -/
theorem assembleLines_eq (config : Config) (texts : List String) :
    assembleLines config texts =
      .ok ⟨(scan config texts).diagnostics, !(scan config texts).failed,
        if (scan config texts).failed then []
        else (texts.map Line.read).flatMap
          (·.machineCode (Layout.addressByte (texts.map Line.read))),
        (scan config texts).program⟩ := by
  unfold assembleLines Assembly.ofScanned
  cases hf : (scan config texts).failed with
  | true => rfl
  | false =>
    rw [encode_scan hf]
    rfl

/-- **What a scan hands over can be used.** A program that the scan did not fail has machine code,
so that an assembly run never ends in an encoding error, for a text or for bytes; and whether or
not it failed, its label indices belong to its table and it has a listing. -/
theorem encoder_contract (config : Config) :
    (∀ texts, (scan config texts).failed = false →
      ∃ bytes, MachineCode.encode (scan config texts).program = .ok bytes) ∧
    (∀ source, ∃ a, assemble config source = .ok a) ∧
    (∀ source e, assembleBytes config source ≠ .error (.encoding e)) ∧
    (∀ texts, ∀ i ∈ (scan config texts).program.instructions, ∀ operand ∈ i.operands,
      ∀ index, operand.label? = some index →
        index < (scan config texts).program.symbols.entries.length) ∧
    ∀ texts, ∃ rendered, Listing.lines? (scan config texts).program = some rendered := by
  refine ⟨?_, ?_, ?_, ?_, ?_⟩
  · intro texts hok
    exact ⟨_, encode_scan hok⟩
  · intro source
    exact ⟨_, assembleLines_eq config (Text.lines source)⟩
  · intro source e h
    unfold assembleBytes at h
    split at h
    · rw [assembleLines_eq] at h
      cases h
    · cases h
  · intro texts i hi operand ho index hl
    rw [Scan.scan_eq_run] at hi ⊢
    exact Scan.label_lt_of_run_instructions config _ hi ho hl
  · intro texts
    rw [Scan.scan_eq_run]
    exact Scan.run_listing config _

/-- A jump forward: its label is in the table before it has an address. -/
theorem encoder_contract_forward_jump :
    (scan {} ["jmp end", "nop", "end: hlt"]).failed = false ∧
    (∃ bytes, MachineCode.encode (scan {} ["jmp end", "nop", "end: hlt"]).program = .ok bytes) ∧
    0 < (scan {} ["jmp end", "nop", "end: hlt"]).program.symbols.entries.length := by
  have hok : (scan {} ["jmp end", "nop", "end: hlt"]).failed = false := by decide
  obtain ⟨hencode, -, -, hlabel, -⟩ := encoder_contract {}
  refine ⟨hok, hencode _ hok, ?_⟩
  exact hlabel _ ⟨.jmp, [.address (.label 0)], 0, 1⟩ (by decide) (.address (.label 0)) (by decide)
    0 rfl

end ByteAssembler
