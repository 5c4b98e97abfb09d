import ByteAssembler.Proofs.Acceptance
import Mathlib.Data.List.Perm.Basic

/-
  The bindings of a source: its labels, each with the offset of its line. Whether a layout has
  faults depends on the bindings, whatever their order, on the labels that are used and on the
  number of bytes (`wellFormed_of_perm`); and so does the address of every label
  (`map_address_definition?`). Offsets are counted from the first line on, line by line (`placed`),
  and are exact as long as all lines fit into the memory.
-/

namespace ByteAssembler.Layout

/-- The lines with their offsets, where the first line stands at `base`. -/
def placed (base : Nat) : List Line → List (Nat × Line)
  | [] => []
  | l :: rest => (base, l) :: placed (base + l.byteLength) rest

/-- The label of a line with its offset. -/
def binding? (entry : Nat × Line) : Option (String × Nat) :=
  entry.2.label.map (·, entry.1)

/-- The labels of the lines with their offsets. -/
def bindings (base : Nat) (lines : List Line) : List (String × Nat) :=
  (placed base lines).filterMap binding?

theorem size_cons (l : Line) (lines : List Line) : size (l :: lines) = l.byteLength + size lines :=
  List.sum_cons

theorem placed_append (base : Nat) (lines more : List Line) :
    placed base (lines ++ more) = placed base lines ++ placed (base + size lines) more := by
  induction lines generalizing base with
  | nil => rfl
  | cons l lines ih =>
    rw [List.cons_append, placed, placed, ih, size_cons, Nat.add_assoc]
    rfl

theorem bindings_append (base : Nat) (lines more : List Line) :
    bindings base (lines ++ more) = bindings base lines ++ bindings (base + size lines) more := by
  rw [bindings, placed_append, List.filterMap_append]
  rfl

theorem getElem?_placed (base : Nat) (lines : List Line) (k : Nat) :
    (placed base lines)[k]? =
      lines[k]?.map fun l => (base + offset (lines.map (·.byteLength)) k, l) := by
  induction lines generalizing base k with
  | nil => rfl
  | cons l lines ih =>
    cases k with
    | zero => rfl
    | succ k =>
      rw [placed, List.getElem?_cons_succ, ih, List.getElem?_cons_succ, List.map_cons,
        offset_cons_succ, Nat.add_assoc]

/-- The binding of line `k`. -/
theorem bind_placed_iff {lines : List Line} {k : Nat} {b : String × Nat} :
    (placed 0 lines)[k]?.bind binding? = some b ↔
      (lines.map (·.label))[k]? = some (some b.1) ∧
        offset (lines.map (·.byteLength)) k = b.2 := by
  rw [List.getElem?_map, getElem?_placed, Nat.zero_add]
  cases lines[k]? with
  | none => simp
  | some l => simp [binding?, Prod.ext_iff]

theorem mem_bindings {lines : List Line} {b : String × Nat} :
    b ∈ bindings 0 lines ↔
      ∃ k, (lines.map (·.label))[k]? = some (some b.1) ∧
        offset (lines.map (·.byteLength)) k = b.2 := by
  rw [bindings, List.mem_filterMap]
  simp only [← bind_placed_iff, Option.bind_eq_some_iff]
  constructor
  · rintro ⟨entry, hentry, hb⟩
    obtain ⟨k, hk⟩ := List.mem_iff_getElem?.1 hentry
    exact ⟨k, entry, hk, hb⟩
  · rintro ⟨k, entry, hk, hb⟩
    exact ⟨entry, List.mem_of_getElem? hk, hb⟩

/-- A relation between earlier and later bindings, read off the lines. -/
theorem pairwise_bindings_iff {R : String × Nat → String × Nat → Prop} {lines : List Line} :
    (bindings 0 lines).Pairwise R ↔
      ∀ (j k : Nat) (name other : String), j < k →
        (lines.map (·.label))[j]? = some (some name) →
        (lines.map (·.label))[k]? = some (some other) →
          R (name, offset (lines.map (·.byteLength)) j)
            (other, offset (lines.map (·.byteLength)) k) := by
  rw [bindings, List.pairwise_filterMap, List.pairwise_iff_getElem]
  constructor
  · intro h j k name other hjk hj hk
    have hbinding : ∀ (i : Nat) (n : String), (lines.map (·.label))[i]? = some (some n) →
        ∃ hi : i < (placed 0 lines).length,
          binding? (placed 0 lines)[i] = some (n, offset (lines.map (·.byteLength)) i) := by
      intro i n hi
      have hb := (bind_placed_iff (b := (n, _))).2 ⟨hi, rfl⟩
      obtain ⟨entry, hentry, hb⟩ := Option.bind_eq_some_iff.1 hb
      obtain ⟨hlt, rfl⟩ := List.getElem?_eq_some_iff.1 hentry
      exact ⟨hlt, hb⟩
    obtain ⟨hj', hb⟩ := hbinding j name hj
    obtain ⟨hk', hb'⟩ := hbinding k other hk
    exact h j k hj' hk' hjk _ hb _ hb'
  · intro h j k hj hk hjk b hb b' hb'
    have hbinding : ∀ (i : Nat) (hi : i < (placed 0 lines).length) (c : String × Nat),
        binding? (placed 0 lines)[i] = some c →
          (lines.map (·.label))[i]? = some (some c.1) ∧
            offset (lines.map (·.byteLength)) i = c.2 := by
      intro i hi c hc
      rw [← bind_placed_iff, List.getElem?_eq_getElem hi]
      exact hc
    obtain ⟨hname, hoffset⟩ := hbinding j hj b hb
    obtain ⟨hother, hoffset'⟩ := hbinding k hk b' hb'
    have hrel := h j k b.1 b'.1 hjk hname hother
    rwa [hoffset, hoffset'] at hrel

/-! ## What depends on the bindings alone -/

/-- Labels are distinct if no name is bound twice. -/
theorem distinct_iff_nodup {lines : List Line} :
    Distinct (lines.map (·.label)) ↔ ((bindings 0 lines).map Prod.fst).Nodup := by
  rw [List.Nodup, List.pairwise_map, pairwise_bindings_iff]
  constructor
  · rintro h j k name other hjk hj hk rfl
    exact h j k name hjk hj hk
  · intro h j k name hjk hj hk
    exact h j k name name hjk hj hk rfl

theorem label_mem_iff {lines : List Line} {name : String} :
    some name ∈ lines.map (·.label) ↔ name ∈ (bindings 0 lines).map Prod.fst := by
  rw [List.mem_iff_getElem?, List.mem_map]
  constructor
  · rintro ⟨k, hk⟩
    exact ⟨(name, _), mem_bindings.2 ⟨k, hk, rfl⟩, rfl⟩
  · rintro ⟨b, hb, rfl⟩
    obtain ⟨k, hk, -⟩ := mem_bindings.1 hb
    exact ⟨k, hk⟩

/-- **A layout without faults stays so** if the bindings come in another order, as long as the
labels that are used and the number of bytes stay the same. -/
theorem wellFormed_of_perm {config : Config} {lines lines' : List Line}
    (h : WellFormed config (lines.map (·.label)) (lines.map (·.byteLength))
      (lines.flatMap (·.uses)))
    (hperm : (bindings 0 lines').Perm (bindings 0 lines))
    (huses : lines'.flatMap (·.uses) = lines.flatMap (·.uses)) (hsize : size lines' = size lines) :
    WellFormed config (lines'.map (·.label)) (lines'.map (·.byteLength))
      (lines'.flatMap (·.uses)) where
  distinct := by
    rw [distinct_iff_nodup, (hperm.map Prod.fst).nodup_iff, ← distinct_iff_nodup]
    exact h.distinct
  defined name hname := by
    rw [label_mem_iff, (hperm.map Prod.fst).mem_iff, ← label_mem_iff]
    exact h.defined name (huses ▸ hname)
  reachable name hname k hk := by
    have hmem : (name, offset (lines'.map (·.byteLength)) k) ∈ bindings 0 lines :=
      hperm.mem_iff.1 (mem_bindings.2 ⟨k, hk, rfl⟩)
    obtain ⟨j, hj, hoffset⟩ := mem_bindings.1 hmem
    have hle := h.reachable name (huses ▸ hname) j hj
    rwa [hoffset] at hle
  fits := by
    have hfits := h.fits
    rw [size, size] at hsize
    rwa [hsize]
  separate hwarn := by
    have hpairwise : (bindings 0 lines).Pairwise fun b b' => b.2 ≠ b'.2 :=
      pairwise_bindings_iff.2 (h.separate hwarn)
    exact pairwise_bindings_iff.1 ((hperm.pairwise_iff fun hne => Ne.symm hne).2 hpairwise)

/-- If no name is bound twice and no offset is cut off, the bindings are the definitions. -/
theorem map_address_definition? {lines : List Line} (hdistinct : Distinct (lines.map (·.label)))
    (hsize : size lines ≤ Scan.maxOffset) {name : String} {a : Nat} :
    (definition? lines name).map (·.address) = some a ↔ (name, a) ∈ bindings 0 lines := by
  have hexact : ∀ k, address lines k = offset (lines.map (·.byteLength)) k := by
    intro k
    have hle := offset_le_sum (lines.map (·.byteLength)) k
    rw [size] at hsize
    rw [address]
    omega
  rw [mem_bindings, Option.map_eq_some_iff]
  constructor
  · rintro ⟨d, hd, rfl⟩
    obtain ⟨k, hk, -, rfl⟩ := definition?_eq_some_iff.1 hd
    exact ⟨k, hk, (hexact k).symm⟩
  · rintro ⟨k, hk, rfl⟩
    exact ⟨_, definition?_of_label hdistinct hk, hexact k⟩

end ByteAssembler.Layout
