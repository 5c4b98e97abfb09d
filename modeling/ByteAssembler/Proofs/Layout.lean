import ByteAssembler.Proofs.Symbols
import ByteAssembler.Scan
import Mathlib.Algebra.GroupWithZero.Nat
import Mathlib.Data.List.Basic

/-
  The layout of a source, read off its lines without scanning them. The offset of a line is the
  sum of the byte lengths before it. From this follow, for a whole list of lines, the definition
  of a name (`definition?`: the first line with that label), its first use (`firstUse?`) and the
  instructions with their places (`instructions`). The lemmas say how each of them grows when one
  more line is put at the end, which is how a scan reads.
-/

namespace ByteAssembler

theorem Mnemonic.byteLength_pos (m : Mnemonic) : 0 < m.byteLength := by
  unfold byteLength
  split <;> decide

namespace Line

/-- The bytes that a line takes; a line without an instruction takes none. -/
def byteLength (l : Line) : Nat :=
  match l.body with
  | .instruction mnemonic _ => mnemonic.byteLength
  | _ => 0

/-- The labels that the instruction of a line has as operands. -/
def uses (l : Line) : List String :=
  match l.body with
  | .instruction _ operands => operands.filterMap (·.label?)
  | _ => []

/-- The instruction of a line at its place, with an index for each label. -/
def instruction? (index : String → Nat) (address line : Nat) (l : Line) : Option Instruction :=
  match l.body with
  | .instruction mnemonic operands =>
    some ⟨mnemonic, operands.map (·.mapLabel index), address, line⟩
  | _ => none

theorem instruction?_eq_some {index : String → Nat} {address line : Nat} {l : Line}
    {i : Instruction} :
    l.instruction? index address line = some i ↔
      ∃ mnemonic operands, l.body = .instruction mnemonic operands ∧
        i = ⟨mnemonic, operands.map (·.mapLabel index), address, line⟩ := by
  unfold instruction?
  cases l.body with
  | instruction mnemonic operands => simp [eq_comm]
  | _ => simp

/-- What a line does to the symbol table: first its own label, then those it uses. -/
def updates (address line : Nat) (l : Line) : List SymbolTable.Update :=
  (l.label.map (.define · ⟨address, line⟩)).toList ++ l.uses.map (.reference · line)

/-- Only the index of the labels that a line uses matters to its instruction. -/
theorem instruction?_congr {index index' : String → Nat} {l : Line} (address line : Nat)
    (h : ∀ name ∈ l.uses, index name = index' name) :
    l.instruction? index address line = l.instruction? index' address line := by
  unfold instruction? uses at *
  cases hb : l.body with
  | instruction mnemonic operands =>
    simp only [hb] at h ⊢
    have hops : operands.map (·.mapLabel index) = operands.map (·.mapLabel index') := by
      refine List.map_congr_left fun operand ho => ?_
      cases operand with
      | address target =>
        cases target with
        | label name =>
          have hname := h name (List.mem_filterMap.2 ⟨_, ho, rfl⟩)
          simp only [Operand.mapLabel, hname]
        | absolute _ => rfl
      | _ => rfl
    rw [hops]
  | _ => rfl

theorem mem_updates {l : Line} {address line : Nat} {u : SymbolTable.Update} :
    u ∈ l.updates address line ↔
      (∃ name, l.label = some name ∧ u = .define name ⟨address, line⟩) ∨
      ∃ name ∈ l.uses, u = .reference name line := by
  simp only [updates, List.mem_append, Option.mem_toList, Option.map_eq_some_iff, List.mem_map,
    eq_comm (a := u)]

/-- The definition of `name` that a line asks for. -/
theorem findSome?_definition?_updates (l : Line) (address line : Nat) (name : String) :
    (l.updates address line).findSome? (·.definition? name) =
      if l.label = some name then some ⟨address, line⟩ else none := by
  have hrefs : (l.uses.map (SymbolTable.Update.reference · line)).findSome?
      (·.definition? name) = none := by
    rw [List.findSome?_eq_none_iff]
    intro u hu
    obtain ⟨other, -, rfl⟩ := List.mem_map.1 hu
    rfl
  rw [updates, List.findSome?_append, hrefs, Option.or_none]
  cases l.label with
  | none => rfl
  | some other => simp [SymbolTable.Update.definition?]

/-- The use of `name` that a line makes. -/
theorem findSome?_use?_updates (l : Line) (address line : Nat) (name : String) :
    (l.updates address line).findSome? (·.use? name) =
      if name ∈ l.uses then some line else none := by
  have hlabel : (l.label.map (SymbolTable.Update.define · ⟨address, line⟩)).toList.findSome?
      (·.use? name) = none := by
    cases l.label <;> rfl
  rw [updates, List.findSome?_append, hlabel, Option.none_or, List.findSome?_map]
  generalize l.uses = names
  induction names with
  | nil => rfl
  | cons other rest ih =>
    rw [List.findSome?_cons, ih]
    by_cases ho : other = name
    · simp [SymbolTable.Update.use?, ho]
    · simp [SymbolTable.Update.use?, ho, Ne.symm ho]

end Line

namespace Layout

/-- The sum of the lengths before position `k`. -/
def offset (lengths : List Nat) (k : Nat) : Nat :=
  (lengths.take k).sum

/-- The number of bytes of all lines. -/
def size (lines : List Line) : Nat :=
  (lines.map (·.byteLength)).sum

/-- The address of line `k`: its offset, up to the largest one there is. -/
def address (lines : List Line) (k : Nat) : Nat :=
  min (offset (lines.map (·.byteLength)) k) Scan.maxOffset

/-- Where a name is defined: by the first line with that label. -/
def definition? (lines : List Line) (name : String) : Option Definition :=
  (lines.findIdx? (·.label == some name)).map fun k => ⟨address lines k, k + 1⟩

/-- The first line whose instruction uses a name. -/
def firstUse? (lines : List Line) (name : String) : Option Nat :=
  (lines.findIdx? (·.uses.contains name)).map (· + 1)

/-- The instructions of all lines. -/
def instructions (index : String → Nat) (lines : List Line) : List Instruction :=
  lines.zipIdx.filterMap fun (l, k) => l.instruction? index (address lines k) (k + 1)

/-- Whether a name occurs as a label or as an operand. -/
def Mentioned (lines : List Line) (name : String) : Prop :=
  ∃ l ∈ lines, l.label = some name ∨ name ∈ l.uses

/-! ## Offsets -/

theorem offset_length (lengths : List Nat) : offset lengths lengths.length = lengths.sum := by
  rw [offset, List.take_length]

theorem offset_append {lengths : List Nat} {k : Nat} (hk : k ≤ lengths.length)
    (more : List Nat) : offset (lengths ++ more) k = offset lengths k := by
  rw [offset, List.take_append_of_le_length hk, offset]

theorem offset_cons_succ (n : Nat) (lengths : List Nat) (k : Nat) :
    offset (n :: lengths) (k + 1) = n + offset lengths k := by
  rw [offset, List.take_succ_cons, List.sum_cons, offset]

theorem offset_succ {lengths : List Nat} {k n : Nat} (h : lengths[k]? = some n) :
    offset lengths (k + 1) = offset lengths k + n := by
  rw [offset, List.take_add_one, h, List.sum_append]
  simp [offset]

theorem offset_le_sum (lengths : List Nat) (k : Nat) : offset lengths k ≤ lengths.sum := by
  have h := congrArg List.sum (List.take_append_drop k lengths)
  rw [List.sum_append] at h
  unfold offset
  omega

theorem offset_mono (lengths : List Nat) {j k : Nat} (h : j ≤ k) :
    offset lengths j ≤ offset lengths k := by
  have hle := offset_le_sum (lengths.take k) j
  rwa [offset, List.take_take, Nat.min_eq_left h] at hle

/-- A bound below the sum is passed at some position. -/
theorem exists_crossing {lengths : List Nat} {bound : Nat} (h : bound < lengths.sum) :
    ∃ k n, lengths[k]? = some n ∧ offset lengths k ≤ bound ∧ bound < offset lengths k + n := by
  induction lengths generalizing bound with
  | nil => exact absurd h (Nat.not_lt_zero _)
  | cons n rest ih =>
    rw [List.sum_cons] at h
    by_cases hn : bound < n
    · exact ⟨0, n, rfl, Nat.zero_le _, by simpa [offset] using hn⟩
    · have hrest : bound - n < rest.sum := by omega
      obtain ⟨k, m, hk, hlo, hhi⟩ := ih hrest
      refine ⟨k + 1, m, hk, ?_, ?_⟩
      · rw [offset_cons_succ]
        omega
      · rw [offset_cons_succ]
        omega

theorem size_take (lines : List Line) (k : Nat) :
    size (lines.take k) = offset (lines.map (·.byteLength)) k := by
  rw [size, List.map_take, offset]

theorem size_concat (lines : List Line) (l : Line) :
    size (lines ++ [l]) = size lines + l.byteLength := by
  simp [size]

theorem address_length (lines : List Line) :
    address lines lines.length = min (size lines) Scan.maxOffset := by
  have h := offset_length (lines.map (·.byteLength))
  rw [List.length_map] at h
  rw [address, h, size]

theorem address_append {lines : List Line} {k : Nat} (hk : k ≤ lines.length)
    (more : List Line) : address (lines ++ more) k = address lines k := by
  unfold address
  rw [List.map_append, offset_append (by rw [List.length_map]; exact hk)]

/-! ## One more line -/

theorem definition?_concat (lines : List Line) (l : Line) (name : String) :
    definition? (lines ++ [l]) name =
      (definition? lines name).or
        (if l.label = some name then some ⟨address lines lines.length, lines.length + 1⟩
          else none) := by
  unfold definition?
  rw [List.findIdx?_append, List.findIdx?_singleton]
  cases hf : lines.findIdx? (·.label == some name) with
  | none =>
    by_cases hl : l.label = some name
    · simp [hl, address_append (Nat.le_refl _)]
    · simp [hl]
  | some k =>
    have hk : k < lines.length := (List.findIdx?_eq_some_iff_getElem.1 hf).1
    simp [address_append (Nat.le_of_lt hk)]

theorem firstUse?_concat (lines : List Line) (l : Line) (name : String) :
    firstUse? (lines ++ [l]) name =
      (firstUse? lines name).or (if name ∈ l.uses then some (lines.length + 1) else none) := by
  unfold firstUse?
  rw [List.findIdx?_append, List.findIdx?_singleton]
  cases hf : lines.findIdx? (·.uses.contains name) with
  | none =>
    by_cases hu : name ∈ l.uses
    · simp [hu]
    · simp [hu]
  | some k => simp

theorem instructions_concat (index : String → Nat) (lines : List Line) (l : Line) :
    instructions index (lines ++ [l]) =
      instructions index lines ++
        (l.instruction? index (address lines lines.length) (lines.length + 1)).toList := by
  unfold instructions
  rw [List.zipIdx_append, List.filterMap_append, Nat.zero_add]
  congr 1
  · refine List.filterMap_congr fun entry hentry => ?_
    have hk := (List.mem_zipIdx' hentry).1
    simp only [address_append (Nat.le_of_lt hk)]
  · simp only [List.zipIdx_singleton, List.filterMap_cons, List.filterMap_nil,
      address_append (Nat.le_refl lines.length)]
    cases l.instruction? index (address lines lines.length) (lines.length + 1) <;> rfl

theorem mentioned_concat {lines : List Line} {l : Line} {name : String} :
    Mentioned (lines ++ [l]) name ↔
      Mentioned lines name ∨ l.label = some name ∨ name ∈ l.uses := by
  simp only [Mentioned, List.mem_append, List.mem_singleton, or_and_right, exists_or,
    exists_eq_left]

/-- Only the index of names that are mentioned matters to the instructions. -/
theorem instructions_congr {index index' : String → Nat} {lines : List Line}
    (h : ∀ name, Mentioned lines name → index name = index' name) :
    instructions index lines = instructions index' lines := by
  refine List.filterMap_congr fun entry hentry => ?_
  refine Line.instruction?_congr _ _ fun name hname => h name ⟨entry.1, ?_, Or.inr hname⟩
  exact List.fst_mem_of_mem_zipIdx hentry

/-- The instructions of the layout, each with the line it comes from. -/
theorem mem_instructions {index : String → Nat} {lines : List Line} {i : Instruction} :
    i ∈ instructions index lines ↔
      ∃ (k : Nat) (l : Line), lines[k]? = some l ∧
        l.instruction? index (address lines k) (k + 1) = some i := by
  simp only [instructions, List.mem_filterMap, Prod.exists, List.mk_mem_zipIdx_iff_getElem?]
  exact exists_comm

/-! ## Names -/

theorem mentioned_iff {lines : List Line} {name : String} :
    Mentioned lines name ↔
      some name ∈ lines.map (·.label) ∨ name ∈ lines.flatMap (·.uses) := by
  simp only [Mentioned, List.mem_map, List.mem_flatMap, and_or_left, exists_or]

theorem firstUse?_ne_none_iff {lines : List Line} {name : String} :
    firstUse? lines name ≠ none ↔ name ∈ lines.flatMap (·.uses) := by
  rw [firstUse?, Ne, Option.map_eq_none_iff, List.findIdx?_eq_none_iff, List.mem_flatMap]
  simp

theorem definition?_eq_none_iff {lines : List Line} {name : String} :
    definition? lines name = none ↔ some name ∉ lines.map (·.label) := by
  rw [definition?, Option.map_eq_none_iff, List.findIdx?_eq_none_iff]
  simp

/-- A name is defined by the first line that has it as its label. -/
theorem definition?_eq_some_iff {lines : List Line} {name : String} {d : Definition} :
    definition? lines name = some d ↔
      ∃ k, (lines.map (·.label))[k]? = some (some name) ∧
        some name ∉ (lines.take k).map (·.label) ∧ d = ⟨address lines k, k + 1⟩ := by
  rw [definition?, Option.map_eq_some_iff]
  refine exists_congr fun k => ?_
  rw [List.findIdx?_eq_some_iff_getElem]
  constructor
  · rintro ⟨⟨hk, hlabel, hfirst⟩, rfl⟩
    refine ⟨?_, ?_, rfl⟩
    · rw [List.getElem?_map, List.getElem?_eq_getElem hk, Option.map_some, beq_iff_eq.1 hlabel]
    · intro hmem
      obtain ⟨l, hl, hname⟩ := List.mem_map.1 hmem
      obtain ⟨j, hj, rfl⟩ := List.getElem_of_mem hl
      rw [List.length_take] at hj
      rw [List.getElem_take] at hname
      exact hfirst j (by omega) (beq_iff_eq.2 hname)
  · rintro ⟨hlabel, hfirst, rfl⟩
    rw [List.getElem?_map, Option.map_eq_some_iff] at hlabel
    obtain ⟨l, hl, hname⟩ := hlabel
    obtain ⟨hk, rfl⟩ := List.getElem?_eq_some_iff.1 hl
    refine ⟨⟨hk, beq_iff_eq.2 hname, fun j hj hother => hfirst ?_⟩, rfl⟩
    refine List.mem_map.2 ⟨lines[j], ?_, beq_iff_eq.1 hother⟩
    exact List.mem_take_iff_getElem.2 ⟨j, by omega, rfl⟩

end Layout

end ByteAssembler
