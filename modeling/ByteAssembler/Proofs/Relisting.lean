import ByteAssembler.Proofs.Bindings
import Mathlib.Data.List.Nodup

/-
  The code of a source: its instructions with their offsets, whatever lines, labels and comments
  they come with. `relist` puts the code down again, one instruction a line, with labels of our
  choice on lines of their own before each instruction and at the end. The code stays the same
  (`code_relist`), and labels are bound to the offsets they were given to (`bindings_relist`). So if
  each offset gets the labels it had, the bindings only change their order. What lines with the same
  code and the same bindings have in common stands under `SameCode`: they are free of faults
  together, and have the same addresses and the same machine code.
-/

namespace ByteAssembler.Layout

/-! ## Code -/

/-- An instruction with its offset. -/
structure Item where
  offset : Nat
  mnemonic : Mnemonic
  operands : List (Operand String)

/-- The instruction of an item, with an index for each label and the line it comes from. -/
def Item.instruction (index : String → Nat) (line : Nat) (item : Item) : Instruction :=
  ⟨item.mnemonic, item.operands.map (·.mapLabel index), item.offset, line⟩

/-- The instructions of the lines with their offsets, where the first line stands at `base`. -/
def code (base : Nat) : List Line → List Item
  | [] => []
  | l :: rest =>
    match l.body with
    | .instruction mnemonic operands =>
      ⟨base, mnemonic, operands⟩ :: code (base + mnemonic.byteLength) rest
    | _ => code base rest

theorem code_append (base : Nat) (lines more : List Line) :
    code base (lines ++ more) = code base lines ++ code (base + size lines) more := by
  induction lines generalizing base with
  | nil => rfl
  | cons l lines ih =>
    rw [List.cons_append, code, code, size_cons, Line.byteLength]
    cases l.body with
    | instruction mnemonic operands =>
      simp only [ih, Nat.add_assoc, List.cons_append]
    | _ => simp only [ih, Nat.zero_add]

/-- What each line contributes is read off the code, if it is read off the code of each line. -/
theorem flatMap_eq_code {β : Type} {f : Line → List β} {g : Item → List β}
    (h : ∀ base l, f l = (code base [l]).flatMap g) (base : Nat) (lines : List Line) :
    lines.flatMap f = (code base lines).flatMap g := by
  induction lines generalizing base with
  | nil => rfl
  | cons l lines ih =>
    rw [← List.singleton_append, code_append, List.flatMap_append, List.flatMap_append, ← h,
      ← ih, List.flatMap_singleton]

theorem flatMap_uses (base : Nat) (lines : List Line) :
    lines.flatMap (·.uses) =
      (code base lines).flatMap fun item => item.operands.filterMap (·.label?) := by
  refine flatMap_eq_code (fun base l => ?_) base lines
  rw [Line.uses, code]
  cases l.body with
  | instruction mnemonic operands => exact (List.append_nil _).symm
  | _ => rfl

theorem mem_uses_of_mem_code {base : Nat} {lines : List Line} {item : Item}
    (h : item ∈ code base lines) {o : Operand String} (ho : o ∈ item.operands) {name : String}
    (hname : o.label? = some name) : name ∈ lines.flatMap (·.uses) := by
  rw [flatMap_uses base]
  exact List.mem_flatMap_of_mem h (List.mem_filterMap.2 ⟨o, ho, hname⟩)

theorem flatMap_machineCode (address : String → UInt8) (base : Nat) (lines : List Line) :
    lines.flatMap (·.machineCode address) = (code base lines).flatMap fun item =>
      MachineCode.instructionBytes item.mnemonic
        (item.operands.map fun o => (o.kind, o.byte address)) := by
  refine flatMap_eq_code (fun base l => ?_) base lines
  rw [Line.machineCode, code]
  cases l.body with
  | instruction mnemonic operands => exact (List.append_nil _).symm
  | _ => rfl

theorem size_eq_code (base : Nat) (lines : List Line) :
    size lines = ((code base lines).map (·.mnemonic.byteLength)).sum := by
  induction lines generalizing base with
  | nil => rfl
  | cons l lines ih =>
    rw [size_cons, code, Line.byteLength]
    cases l.body with
    | instruction mnemonic operands =>
      rw [ih (base + mnemonic.byteLength)]
      rfl
    | _ => rw [ih base, Nat.zero_add]

theorem mem_code {base : Nat} {lines : List Line} {item : Item} (h : item ∈ code base lines) :
    ∃ l ∈ lines, l.body = .instruction item.mnemonic item.operands := by
  induction lines generalizing base with
  | nil => cases h
  | cons l lines ih =>
    rw [code] at h
    cases hb : l.body with
    | instruction mnemonic operands =>
      rw [hb] at h
      rcases List.mem_cons.1 h with rfl | h
      · exact ⟨l, List.mem_cons_self, hb⟩
      · obtain ⟨l', hl', hbody⟩ := ih h
        exact ⟨l', List.mem_cons_of_mem l hl', hbody⟩
    | _ =>
      rw [hb] at h
      obtain ⟨l', hl', hbody⟩ := ih h
      exact ⟨l', List.mem_cons_of_mem l hl', hbody⟩

/-- As long as no offset is cut off, what does not depend on line numbers is read off the code as it
is off the instructions. -/
theorem map_instructions {β : Type} {index : String → Nat} {g : Instruction → β} {f : Item → β}
    {lines : List Line} (hsize : size lines ≤ Scan.maxOffset)
    (h : ∀ item ∈ code 0 lines, ∀ line, g (item.instruction index line) = f item) :
    (instructions index lines).map g = (code 0 lines).map f := by
  induction lines using List.reverseRecOn with
  | nil => rfl
  | append_singleton lines l ih =>
    rw [size_concat] at hsize
    have hlines : size lines ≤ Scan.maxOffset := by omega
    rw [code_append, Nat.zero_add, List.forall_mem_append] at h
    rw [instructions_concat, code_append, Nat.zero_add, address_length, Nat.min_eq_left hlines,
      List.map_append, List.map_append, ih hlines h.1]
    congr 1
    have hlast := h.2
    unfold Line.instruction?
    rw [code] at hlast ⊢
    cases hb : l.body with
    | instruction mnemonic operands =>
      rw [hb] at hlast
      exact congrArg (fun value => [value]) (hlast _ List.mem_cons_self _)
    | _ => rfl

/-- The offsets at which a label can stand: those of the instructions, and the end. -/
def marks (base : Nat) (lines : List Line) : List Nat :=
  (code base lines).map (·.offset) ++ [base + size lines]

theorem marks_cons (base : Nat) (l : Line) (lines : List Line) :
    marks base (l :: lines) =
      if 0 < l.byteLength then base :: marks (base + l.byteLength) lines else marks base lines := by
  rw [marks, code, size_cons, Line.byteLength]
  cases l.body with
  | instruction mnemonic operands =>
    dsimp only
    rw [if_pos mnemonic.byteLength_pos, marks, Nat.add_assoc]
    rfl
  | _ =>
    dsimp only
    rw [if_neg (Nat.lt_irrefl 0), Nat.zero_add, marks]

theorem le_of_mem_marks {base a : Nat} {lines : List Line} (h : a ∈ marks base lines) :
    base ≤ a := by
  induction lines generalizing base with
  | nil =>
    have hbase : a = base + 0 := List.mem_singleton.1 h
    omega
  | cons l lines ih =>
    rw [marks_cons] at h
    split at h
    · rcases List.mem_cons.1 h with rfl | h
      · exact Nat.le_refl a
      · have hle := ih h
        omega
    · exact ih h

theorem base_mem_marks (base : Nat) (lines : List Line) : base ∈ marks base lines := by
  induction lines with
  | nil => exact List.mem_singleton.2 rfl
  | cons l lines ih =>
    rw [marks_cons]
    split
    · exact List.mem_cons_self
    · exact ih

/-- Instructions have bytes, so the marks increase. -/
theorem marks_nodup (base : Nat) (lines : List Line) : (marks base lines).Nodup := by
  induction lines generalizing base with
  | nil => exact List.nodup_singleton _
  | cons l lines ih =>
    rw [marks_cons]
    split
    · next hpos =>
      refine List.nodup_cons.2 ⟨fun hmem => ?_, ih _⟩
      have hle := le_of_mem_marks hmem
      omega
    · exact ih base

/-- Every line stands at a mark. -/
theorem mem_marks_of_placed {base : Nat} {lines : List Line} {entry : Nat × Line}
    (h : entry ∈ placed base lines) : entry.1 ∈ marks base lines := by
  induction lines generalizing base with
  | nil => cases h
  | cons l lines ih =>
    rcases List.mem_cons.1 h with rfl | h
    · exact base_mem_marks base (l :: lines)
    · have hmem := ih h
      rw [marks_cons]
      split
      · exact List.mem_cons_of_mem base hmem
      · next hzero =>
        rwa [Nat.eq_zero_of_not_pos hzero] at hmem

theorem mem_marks_of_bindings {base : Nat} {lines : List Line} {b : String × Nat}
    (h : b ∈ bindings base lines) : b.2 ∈ marks base lines := by
  obtain ⟨entry, hentry, hb⟩ := List.mem_filterMap.1 h
  obtain ⟨name, -, rfl⟩ := Option.map_eq_some_iff.1 hb
  exact mem_marks_of_placed hentry

/-! ## Lines in a new order -/

/-- A line with a label and nothing else. -/
def labelLine (name : String) : Line :=
  ⟨some name, .empty⟩

/-- The labels at the offset of an item, on lines of their own, and its instruction. -/
def block (labels : Nat → List String) (item : Item) : List Line :=
  (labels item.offset).map labelLine ++ [⟨none, .instruction item.mnemonic item.operands⟩]

/-- The code as lines, with the labels that `labels` gives to each offset. -/
def relist (labels : Nat → List String) (items : List Item) (size : Nat) : List Line :=
  items.flatMap (block labels) ++ (labels size).map labelLine

theorem size_append (lines more : List Line) : size (lines ++ more) = size lines + size more := by
  simp [size]

theorem size_map_labelLine (names : List String) : size (names.map labelLine) = 0 := by
  induction names with
  | nil => rfl
  | cons name names ih =>
    rw [List.map_cons, size_cons, ih]
    rfl

theorem code_map_labelLine (base : Nat) (names : List String) :
    code base (names.map labelLine) = [] := by
  induction names with
  | nil => rfl
  | cons name names ih => exact ih

theorem bindings_map_labelLine (base : Nat) (names : List String) :
    bindings base (names.map labelLine) = names.map (·, base) := by
  induction names with
  | nil => rfl
  | cons name names ih => exact congrArg ((name, base) :: ·) ih

section Relist

variable (labels : Nat → List String)

theorem size_block (item : Item) : size (block labels item) = item.mnemonic.byteLength := by
  rw [block, size_append, size_map_labelLine, Nat.zero_add]
  rfl

theorem code_block (item : Item) : code item.offset (block labels item) = [item] := by
  rw [block, code_append, code_map_labelLine, size_map_labelLine]
  rfl

theorem bindings_block (item : Item) :
    bindings item.offset (block labels item) = (labels item.offset).map (·, item.offset) := by
  rw [block, bindings_append, bindings_map_labelLine]
  exact List.append_nil _

theorem relist_cons (item : Item) (items : List Item) (size : Nat) :
    relist labels (item :: items) size = block labels item ++ relist labels items size := by
  rw [relist, List.flatMap_cons, List.append_assoc]
  rfl

theorem body_relist {items : List Item} {size : Nat} {l : Line}
    (h : l ∈ relist labels items size) (ps : List Problem) : l.body ≠ .rejected ps := by
  have hlabel : ∀ names : List String, l ∈ names.map labelLine → l.body ≠ .rejected ps := by
    intro names hl
    obtain ⟨name, -, rfl⟩ := List.mem_map.1 hl
    exact Line.Body.noConfusion
  rcases List.mem_append.1 h with h | h
  · obtain ⟨item, -, h⟩ := List.mem_flatMap.1 h
    rcases List.mem_append.1 h with h | h
    · exact hlabel _ h
    · rw [List.mem_singleton.1 h]
      exact Line.Body.noConfusion
  · exact hlabel _ h

/-- The code stays as it is, whatever labels are put in. -/
theorem code_relist (base : Nat) (lines : List Line) :
    code base (relist labels (code base lines) (base + size lines)) = code base lines := by
  induction lines generalizing base with
  | nil => exact code_map_labelLine base _
  | cons l lines ih =>
    rw [code, size_cons, Line.byteLength]
    cases l.body with
    | instruction mnemonic operands =>
      dsimp only
      rw [relist_cons, code_append, size_block, code_block labels ⟨base, mnemonic, operands⟩,
        ← Nat.add_assoc, ih]
      rfl
    | _ => simpa using ih base

/-- The labels are bound to the offsets they were given to. -/
theorem bindings_relist (base : Nat) (lines : List Line) :
    bindings base (relist labels (code base lines) (base + size lines)) =
      (marks base lines).flatMap fun a => (labels a).map (·, a) := by
  induction lines generalizing base with
  | nil =>
    rw [code, relist, List.flatMap_nil, List.nil_append, bindings_map_labelLine]
    simp [size, marks, code]
  | cons l lines ih =>
    rw [code, size_cons, marks_cons, Line.byteLength]
    cases l.body with
    | instruction mnemonic operands =>
      dsimp only
      rw [if_pos mnemonic.byteLength_pos, relist_cons, bindings_append, size_block,
        bindings_block labels ⟨base, mnemonic, operands⟩, ← Nat.add_assoc, ih, List.flatMap_cons]
    | _ => simpa using ih base

/-- If the labels given to an offset are those bound to it, the bindings are the same in another
order. -/
theorem bindings_relist_perm {lines : List Line} (hdistinct : Distinct (lines.map (·.label)))
    (hnodup : ∀ a, (labels a).Nodup)
    (hlabels : ∀ name a, name ∈ labels a ↔ (name, a) ∈ bindings 0 lines) :
    (bindings 0 (relist labels (code 0 lines) (size lines))).Perm (bindings 0 lines) := by
  have hrelist := bindings_relist labels 0 lines
  rw [Nat.zero_add] at hrelist
  have hold : (bindings 0 lines).Nodup := (distinct_iff_nodup.1 hdistinct).of_map
  have hnew : ((marks 0 lines).flatMap fun a => (labels a).map (·, a)).Nodup := by
    rw [List.nodup_flatMap]
    refine ⟨fun a _ => (hnodup a).map fun name other e => congrArg Prod.fst e, ?_⟩
    refine (marks_nodup 0 lines).imp fun hne b hb hb' => hne ?_
    obtain ⟨name, -, rfl⟩ := List.mem_map.1 hb
    obtain ⟨other, -, e⟩ := List.mem_map.1 hb'
    exact (congrArg Prod.snd e).symm
  rw [hrelist, List.perm_ext_iff_of_nodup hnew hold]
  rintro ⟨name, a⟩
  rw [← hlabels]
  constructor
  · intro h
    obtain ⟨a', -, h⟩ := List.mem_flatMap.1 h
    obtain ⟨other, hother, e⟩ := List.mem_map.1 h
    cases e
    exact hother
  · intro h
    have hmark := mem_marks_of_bindings ((hlabels name a).1 h)
    exact List.mem_flatMap.2 ⟨a, hmark, List.mem_map.2 ⟨name, h, rfl⟩⟩

end Relist

/-! ## The same code with the same bindings -/

/-- What fits into the memory has no offset that is cut off. -/
theorem WellFormed.size_le {config : Config} {lines : List Line} {labels : List (Option String)}
    {used : List String} (h : WellFormed config labels (lines.map (·.byteLength)) used) :
    size lines ≤ Scan.maxOffset := by
  have hfits := h.fits
  have hmemory : config.memorySize.toNat < 65536 := config.memorySize.toNat_lt
  have hmax : Scan.maxOffset = 65535 := rfl
  rw [size]
  omega

/-- Lines with the same code, and with the same bindings in some order. -/
structure SameCode (lines lines' : List Line) : Prop where
  code_eq : code 0 lines' = code 0 lines
  bindings_perm : (bindings 0 lines').Perm (bindings 0 lines)

theorem sameCode_relist {labels : Nat → List String} {lines : List Line}
    (hdistinct : Distinct (lines.map (·.label))) (hnodup : ∀ a, (labels a).Nodup)
    (hlabels : ∀ name a, name ∈ labels a ↔ (name, a) ∈ bindings 0 lines) :
    SameCode lines (relist labels (code 0 lines) (size lines)) where
  code_eq := by
    have hcode := code_relist labels 0 lines
    rwa [Nat.zero_add] at hcode
  bindings_perm := bindings_relist_perm labels hdistinct hnodup hlabels

namespace SameCode

variable {lines lines' : List Line} (h : SameCode lines lines')

include h

theorem size_eq : size lines' = size lines := by
  rw [size_eq_code 0, size_eq_code 0, h.code_eq]

theorem uses_eq : lines'.flatMap (·.uses) = lines.flatMap (·.uses) := by
  rw [flatMap_uses 0, flatMap_uses 0, h.code_eq]

theorem wellFormed {config : Config}
    (hwf : WellFormed config (lines.map (·.label)) (lines.map (·.byteLength))
      (lines.flatMap (·.uses))) :
    WellFormed config (lines'.map (·.label)) (lines'.map (·.byteLength))
      (lines'.flatMap (·.uses)) :=
  wellFormed_of_perm hwf h.bindings_perm h.uses_eq h.size_eq

/-- Without faults, names have the same addresses, those without a definition included. -/
theorem map_address_definition?_eq {config : Config}
    (hwf : WellFormed config (lines.map (·.label)) (lines.map (·.byteLength))
      (lines.flatMap (·.uses))) (name : String) :
    (definition? lines' name).map (·.address) = (definition? lines name).map (·.address) := by
  ext a
  rw [map_address_definition? hwf.distinct hwf.size_le,
    map_address_definition? (h.wellFormed hwf).distinct (h.wellFormed hwf).size_le,
    h.bindings_perm.mem_iff]

/-- Without faults, the machine code is the same. -/
theorem machineCode_eq {config : Config}
    (hwf : WellFormed config (lines.map (·.label)) (lines.map (·.byteLength))
      (lines.flatMap (·.uses))) :
    lines'.flatMap (·.machineCode (addressByte lines')) =
      lines.flatMap (·.machineCode (addressByte lines)) := by
  have hbyte : addressByte lines' = addressByte lines := by
    have hgetD : ∀ (ls : List Line) (name : String),
        addressByte ls name = UInt8.ofNat (((definition? ls name).map (·.address)).getD 0) := by
      intro ls name
      rw [addressByte]
      cases definition? ls name <;> rfl
    funext name
    rw [hgetD, hgetD, h.map_address_definition?_eq hwf]
  rw [hbyte, flatMap_machineCode _ 0, flatMap_machineCode _ 0, h.code_eq]

end SameCode

end ByteAssembler.Layout
