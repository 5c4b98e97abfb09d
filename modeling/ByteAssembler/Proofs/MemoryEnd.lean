import ByteAssembler.Proofs.Addresses
import ByteAssembler.Proofs.LateReports

/-
  Labels at the end of the memory. What stands before a line is part of the program, and if an
  instruction stands on the line or after it, it is not all of it (`bytesBefore_le_size`,
  `bytesBefore_lt_size`). A label is reported as out of range for more than `0xFF` bytes before its
  line (`exists_label_of_outOfRange`), so in a program that fits into 256 bytes it can only stand
  after the last of them: `scan_outOfRange_closing`.
-/

namespace ByteAssembler

section Scan

variable (config : Config) (texts : List String)

theorem bytesBefore_le_size (k : Nat) :
    Source.bytesBefore texts k ≤ (scan config texts).program.size := by
  rw [size_scan_program, Source.bytesBefore_eq_offset]
  exact Layout.offset_le_sum _ k

/-- An instruction on line `k` or after it takes bytes that do not stand before the line. -/
theorem bytesBefore_lt_size {i : Instruction}
    (hi : i ∈ (scan config texts).program.instructions) {k : Nat} (hk : k < i.line) :
    Source.bytesBefore texts k < (scan config texts).program.size := by
  obtain ⟨j, text, ht, hplace⟩ := mem_scan_instructions.1 hi
  obtain ⟨m, operands, hb, rfl⟩ := Line.instruction?_eq_some.1 hplace
  have hlength : ((texts.map Line.read).map (·.byteLength))[j]? = some m.byteLength := by
    simp [ht, Line.byteLength, hb]
  rw [size_scan_program, Source.bytesBefore_eq_offset]
  calc Layout.offset ((texts.map Line.read).map (·.byteLength)) k
      ≤ Layout.offset ((texts.map Line.read).map (·.byteLength)) j :=
        Layout.offset_mono _ (Nat.le_of_lt_succ hk)
    _ < Layout.offset ((texts.map Line.read).map (·.byteLength)) (j + 1) := by
        rw [Layout.offset_succ hlength]
        exact Nat.lt_add_of_pos_right m.byteLength_pos
    _ ≤ Layout.size (texts.map Line.read) := Layout.offset_le_sum _ _

/-- A program fits into the memory unless it is reported not to. -/
theorem size_le_of_not_isTooLarge
    (h : ∀ d ∈ (scan config texts).diagnostics, d.problem.isTooLarge = false) :
    (scan config texts).program.size ≤ config.memorySize.toNat := by
  obtain ⟨hle, -⟩ | ⟨-, k, i, -, hone⟩ := sizeReports_scan config texts
  · exact hle
  · cases h _ (Diagnostic.mem_of_sizeReports hone)

end Scan

/-- A label that is reported as out of range stands at the address of the report, after more than
`0xFF` bytes. -/
theorem exists_label_of_outOfRange {config : Config} {texts : List String} {d : Diagnostic}
    {name : String} {address : Nat} (hd : d ∈ (scan config texts).diagnostics)
    (hp : d.problem = .labelOutOfRange name address) :
    ∃ k, Source.labelLine? texts name = some k ∧ address = Source.offset texts k ∧
      0xFF < Source.offset texts k := by
  have hlate : d.problem.isLateOn name = true := by
    rw [hp]
    exact beq_self_eq_true name
  have hreport : d ∈ (Source.lateReport? texts name).toList :=
    lateReports_scan config texts name ▸ List.mem_filter.2 ⟨hd, hlate⟩
  obtain ⟨use, -, ⟨-, rfl⟩ | ⟨k, hk, hlarge, rfl⟩⟩ :=
    Source.lateReport?_cases (Option.mem_toList.1 hreport)
  · cases hp
  · cases hp
    exact ⟨k, hk, rfl, hlarge⟩

/-- The entry of a name that is the label of some line. -/
theorem find?_of_labelLine? (config : Config) {texts : List String} {name : String} {k : Nat}
    (h : Source.labelLine? texts name = some k) :
    ∃ s, (scan config texts).program.symbols.find? name = some s ∧
      s.definition = some ⟨Source.offset texts k, k + 1⟩ := by
  have hdefinition : (scan config texts).program.symbols.definition? name =
      some ⟨Source.offset texts k, k + 1⟩ := by
    rw [Scan.scan_eq_run]
    show (Scan.run config _).symbols.definition? name = _
    rw [Scan.run_definition?, Source.definition?_map_read, h]
    rfl
  exact Option.bind_eq_some_iff.1 hdefinition

/-- **Only a closing label can be out of range.** If the memory has no more than 256 bytes and the
program fits into it, a label that is reported as out of range stands at address 256, which is the
size of the memory and of the program, and there is no instruction on its line or after it. -/
theorem scan_outOfRange_closing {config : Config} {texts : List String}
    (hmemory : config.memorySize ≤ 256)
    (hfits : ∀ d ∈ (scan config texts).diagnostics, d.problem.isTooLarge = false)
    {d : Diagnostic} (hd : d ∈ (scan config texts).diagnostics) {name : String} {address : Nat}
    (hp : d.problem = .labelOutOfRange name address) :
    address = 256 ∧ config.memorySize = 256 ∧ (scan config texts).program.size = 256 ∧
    ∃ k s, Source.labelLine? texts name = some k ∧
      (scan config texts).program.symbols.find? name = some s ∧
      s.address? = some 256 ∧ s.definedAt? = some (k + 1) ∧
      ∀ i ∈ (scan config texts).program.instructions, i.line < k + 1 := by
  obtain ⟨k, hk, rfl, hlarge⟩ := exists_label_of_outOfRange hd hp
  obtain ⟨s, hs, hdefinition⟩ := find?_of_labelLine? config hk
  have hsize := size_le_of_not_isTooLarge config texts hfits
  have hbefore := bytesBefore_le_size config texts k
  have hlimit : config.memorySize.toNat ≤ 256 := UInt16.le_iff_toNat_le.1 hmemory
  have hoffset : Source.offset texts k ≤ Source.bytesBefore texts k := Nat.min_le_left _ _
  have haddress : Source.offset texts k = 256 := by omega
  refine ⟨haddress, UInt16.toNat_inj.1 (show _ = 256 by omega), by omega, k, s, hk, hs, ?_, ?_,
    fun i hi => ?_⟩
  · rw [Symbol.address?, hdefinition, Option.map_some, haddress]
  · rw [Symbol.definedAt?, hdefinition, Option.map_some]
  · by_contra hnot
    have hless := bytesBefore_lt_size config texts hi (show k < i.line by omega)
    omega

/-- A jump over 254 bytes to the end of the memory. -/
def Source.closing : List String :=
  "jmp end" :: List.replicate 127 "adi 1" ++ ["end:"]

theorem scan_outOfRange_closing_full :
    (⟨some 1, .labelOutOfRange "end" 256⟩ : Diagnostic) ∈ (scan {} Source.closing).diagnostics ∧
    (scan {} Source.closing).program.size = 256 ∧
    ∃ k s, Source.labelLine? Source.closing "end" = some k ∧
      (scan {} Source.closing).program.symbols.find? "end" = some s ∧
      s.address? = some 256 ∧ s.definedAt? = some (k + 1) ∧
      ∀ i ∈ (scan {} Source.closing).program.instructions, i.line < k + 1 := by
  have hdiagnostics : (scan {} Source.closing).diagnostics =
      [⟨some 1, .labelOutOfRange "end" 256⟩] := by decide +kernel
  have hd : ⟨some 1, .labelOutOfRange "end" 256⟩ ∈ (scan {} Source.closing).diagnostics := by
    rw [hdiagnostics]
    exact List.mem_singleton_self _
  have hfits : ∀ d ∈ (scan {} Source.closing).diagnostics, d.problem.isTooLarge = false := by
    rw [hdiagnostics]
    decide
  exact ⟨hd, (scan_outOfRange_closing (by decide) hfits hd rfl).2.2⟩

end ByteAssembler
