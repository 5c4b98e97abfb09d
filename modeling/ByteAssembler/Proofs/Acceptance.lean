import ByteAssembler.Proofs.EncoderContract
import ByteAssembler.Proofs.Statements

/-
  Which sources are assembled with success. `Acceptable` lists the conditions on the statements of
  a source: valid operations, and a layout in which labels are distinct, used labels are defined
  in the first 256 bytes, and everything fits into the memory. A scan finds out about each of them
  at another moment, so each has a lemma that compares what the scan sees with what the layout
  says (`distinct_iff`, `fits_iff`, `separate_iff`, `late_iff`). `assemble_success_iff`: these
  conditions are necessary and sufficient, and without them there is still a result.
-/

namespace ByteAssembler

namespace Layout

/-- No name is the label of two lines. -/
def Distinct (labels : List (Option String)) : Prop :=
  ∀ (j k : Nat) (name : String), j < k → labels[j]? = some (some name) →
    labels[k]? ≠ some (some name)

/-- A layout without faults. It is given by the label and the byte length of each line, and by the
names that are used as operands. -/
structure WellFormed (config : Config) (labels : List (Option String)) (lengths : List Nat)
    (used : List String) : Prop where
  distinct : Distinct labels
  /-- A name that is used is the label of some line. -/
  defined : ∀ name ∈ used, some name ∈ labels
  /-- The line of a label that is used has an address of one byte. -/
  reachable : ∀ name ∈ used, ∀ k, labels[k]? = some (some name) → offset lengths k ≤ 0xFF
  fits : lengths.sum ≤ config.memorySize.toNat
  /-- If warnings count as errors, no two labels stand for the same address. -/
  separate : config.warningsAsErrors = true → ∀ (j k : Nat) (name other : String), j < k →
    labels[j]? = some (some name) → labels[k]? = some (some other) →
      offset lengths j ≠ offset lengths k

/-! ## Definitions in a part of the lines -/

theorem definition?_take_eq_none_iff {lines : List Line} {k : Nat} {name : String} :
    definition? (lines.take k) name = none ↔
      ∀ j < k, (lines.map (·.label))[j]? ≠ some (some name) := by
  rw [definition?_eq_none_iff, List.map_take, List.mem_iff_getElem?]
  simp only [List.getElem?_take, Option.ite_none_right_eq_some, not_exists, not_and, Ne]

/-- Labels are distinct exactly if none is defined before its line. -/
theorem distinct_iff {lines : List Line} :
    Distinct (lines.map (·.label)) ↔
      ∀ k name, (lines.map (·.label))[k]? = some (some name) →
        definition? (lines.take k) name = none := by
  simp only [definition?_take_eq_none_iff]
  constructor
  · intro h k name hk j hj hname
    exact h j k name hj hname hk
  · intro h j k name hj hname hk
    exact h k name hk j hj hname

theorem address_take (lines : List Line) {j k : Nat} (h : j ≤ k) :
    address (lines.take k) j = address lines j := by
  rw [address, List.map_take, offset, List.take_take, Nat.min_eq_left h, address, offset]

/-- If labels are distinct, each of them is the definition of its name. -/
theorem definition?_take_eq_some_iff {lines : List Line}
    (hdistinct : Distinct (lines.map (·.label))) {k : Nat} {name : String} {d : Definition} :
    definition? (lines.take k) name = some d ↔
      ∃ j < k, (lines.map (·.label))[j]? = some (some name) ∧ d = ⟨address lines j, j + 1⟩ := by
  rw [definition?_eq_some_iff]
  constructor
  · rintro ⟨j, hname, -, rfl⟩
    rw [List.map_take, List.getElem?_take, Option.ite_none_right_eq_some] at hname
    obtain ⟨hj, hname⟩ := hname
    exact ⟨j, hj, hname, by rw [address_take lines (Nat.le_of_lt hj)]⟩
  · rintro ⟨j, hj, hname, rfl⟩
    have hnone := distinct_iff.1 hdistinct j name hname
    refine ⟨j, ?_, ?_, by rw [address_take lines (Nat.le_of_lt hj)]⟩
    · rw [List.map_take, List.getElem?_take, if_pos hj, hname]
    · rw [List.take_take, Nat.min_eq_left (Nat.le_of_lt hj)]
      exact definition?_eq_none_iff.1 hnone

theorem definition?_of_label {lines : List Line} (hdistinct : Distinct (lines.map (·.label)))
    {k : Nat} {name : String} (hk : (lines.map (·.label))[k]? = some (some name)) :
    definition? lines name = some ⟨address lines k, k + 1⟩ := by
  have hlt : k < lines.length := by
    have hlt := (List.getElem?_eq_some_iff.1 hk).1
    rwa [List.length_map] at hlt
  have hdef := (definition?_take_eq_some_iff hdistinct).2 ⟨k, hlt, hk, rfl⟩
  rwa [List.take_length] at hdef

/-- What is reported at the end: a name without a definition, or one that is used and does not
lie in the first 256 bytes. -/
theorem late_iff {lines : List Line} (hdistinct : Distinct (lines.map (·.label))) :
    (∀ name, Mentioned lines name →
      ∃ d, definition? lines name = some d ∧ (firstUse? lines name ≠ none → d.address ≤ 0xFF)) ↔
    (∀ name ∈ lines.flatMap (·.uses), some name ∈ lines.map (·.label)) ∧
      ∀ name ∈ lines.flatMap (·.uses), ∀ k, (lines.map (·.label))[k]? = some (some name) →
        offset (lines.map (·.byteLength)) k ≤ 0xFF := by
  have hmax : Scan.maxOffset = 65535 := rfl
  constructor
  · intro h
    refine ⟨fun name hu => ?_, fun name hu k hk => ?_⟩
    · obtain ⟨d, hd, -⟩ := h name (mentioned_iff.2 (Or.inr hu))
      by_contra hnot
      rw [definition?_eq_none_iff.2 hnot] at hd
      cases hd
    · obtain ⟨d, hd, hrange⟩ := h name (mentioned_iff.2 (Or.inr hu))
      rw [definition?_of_label hdistinct hk] at hd
      obtain rfl := Option.some.inj hd
      have hle : min (offset (lines.map (·.byteLength)) k) Scan.maxOffset ≤ 0xFF :=
        hrange (firstUse?_ne_none_iff.2 hu)
      omega
  · rintro ⟨hdefined, hreachable⟩ name hname
    have hlabel : some name ∈ lines.map (·.label) :=
      (mentioned_iff.1 hname).elim id (hdefined name)
    obtain ⟨k, hk⟩ := List.mem_iff_getElem?.1 hlabel
    refine ⟨_, definition?_of_label hdistinct hk, fun hu => ?_⟩
    have hle := hreachable name (firstUse?_ne_none_iff.1 hu) k hk
    show min (offset (lines.map (·.byteLength)) k) Scan.maxOffset ≤ 0xFF
    omega

end Layout

namespace Scan

/-! ## The reports on one line -/

theorem harmless_bodyProblems_iff {config : Config} {s : Scan} {l : Line}
    (hcause : l.RejectsForCause) :
    (∀ p ∈ s.bodyProblems config l.body, p.Harmless config) ↔
      (∀ ps, l.body ≠ .rejected ps) ∧
        (0 < l.byteLength → s.exceeds config l.byteLength = false) := by
  unfold Line.byteLength
  cases hb : l.body with
  | empty => simp [bodyProblems]
  | rejected ps =>
    obtain ⟨hne, hall⟩ := hcause ps hb
    refine iff_of_false (fun h => ?_) (fun h => h.1 ps rfl)
    obtain ⟨p, hp⟩ := List.exists_mem_of_ne_nil ps hne
    have hwarning := (h p hp).1
    rw [Problem.severity_of_isRejection (hall p hp)] at hwarning
    cases hwarning
  | instruction mnemonic operands =>
    have hpos := mnemonic.byteLength_pos
    cases he : s.exceeds config mnemonic.byteLength with
    | false => simp [bodyProblems, he]
    | true => simp [bodyProblems, he, hpos, Problem.Harmless, Problem.severity]

/-- The reports on a label stand against the program unless the name is new and, if warnings count
as errors, no other label stands at the offset. -/
theorem harmless_labelProblems_run_iff (config : Config) (lines : List Line) (name : String) :
    (∀ p ∈ (run config lines).labelProblems name, p.Harmless config) ↔
      Layout.definition? lines name = none ∧
        (config.warningsAsErrors = true →
          (run config lines).symbols.nameAt? (run config lines).offset = none) := by
  have hdefinition := run_definition? config lines name
  constructor
  · intro h
    have hnew : Layout.definition? lines name = none := by
      cases hd : Layout.definition? lines name with
      | none => rfl
      | some first =>
        have hmem := mem_labelProblems.2 (Or.inr ⟨first, hdefinition.trans hd, rfl⟩)
        cases (h _ hmem).1
    refine ⟨hnew, fun hwarn => ?_⟩
    cases hat : (run config lines).symbols.nameAt? (run config lines).offset with
    | none => rfl
    | some existing =>
      obtain ⟨d, hd, -⟩ := definition?_of_run_nameAt? config lines hat
      have hne : existing ≠ name := by
        rintro rfl
        rw [hnew] at hd
        cases hd
      have hmem := mem_labelProblems.2 (Or.inl ⟨existing, hat, hne, rfl⟩)
      have hquiet := (h _ hmem).2
      rw [hwarn] at hquiet
      cases hquiet
  · rintro ⟨hnew, hseparate⟩ p hp
    obtain ⟨existing, hat, -, rfl⟩ | ⟨first, hd, -⟩ := mem_labelProblems.1 hp
    · refine ⟨rfl, ?_⟩
      rw [← Bool.not_eq_true]
      intro hwarn
      rw [hseparate hwarn] at hat
      cases hat
    · rw [hdefinition, hnew] at hd
      cases hd

/-! ## The reports on all lines -/

/-- The reports of all lines, sorted by what they are about. -/
theorem harmless_problems_iff {config : Config} {lines : List Line}
    (hcause : ∀ l ∈ lines, l.RejectsForCause) :
    (∀ k l, lines[k]? = some l →
      ∀ p ∈ (run config (lines.take k)).problems config l, p.Harmless config) ↔
    (∀ l ∈ lines, ∀ ps, l.body ≠ .rejected ps) ∧
      (∀ k l, lines[k]? = some l → 0 < l.byteLength →
        (run config (lines.take k)).exceeds config l.byteLength = false) ∧
      ∀ k name, (lines.map (·.label))[k]? = some (some name) →
        Layout.definition? (lines.take k) name = none ∧
          (config.warningsAsErrors = true →
            (run config (lines.take k)).symbols.nameAt? (run config (lines.take k)).offset =
              none) := by
  have hline : ∀ k l, lines[k]? = some l →
      ((∀ p ∈ (run config (lines.take k)).problems config l, p.Harmless config) ↔
        (∀ name, l.label = some name →
          ∀ p ∈ (run config (lines.take k)).labelProblems name, p.Harmless config) ∧
        (∀ ps, l.body ≠ .rejected ps) ∧ (0 < l.byteLength →
          (run config (lines.take k)).exceeds config l.byteLength = false)) := by
    intro k l hl
    rw [problems, List.forall_mem_append,
      harmless_bodyProblems_iff (hcause l (List.mem_of_getElem? hl))]
    cases l.label <;> simp
  constructor
  · intro h
    refine ⟨fun l hl => ?_, fun k l hl => ?_, fun k name hk => ?_⟩
    · obtain ⟨k, hk⟩ := List.mem_iff_getElem?.1 hl
      exact ((hline k l hk).1 (h k l hk)).2.1
    · exact ((hline k l hl).1 (h k l hl)).2.2
    · rw [List.getElem?_map, Option.map_eq_some_iff] at hk
      obtain ⟨l, hl, hname⟩ := hk
      exact (harmless_labelProblems_run_iff config _ name).1
        (((hline k l hl).1 (h k l hl)).1 name hname)
  · rintro ⟨hbody, hmemory, hlabel⟩ k l hl
    refine (hline k l hl).2
      ⟨fun name hname => ?_, hbody l (List.mem_of_getElem? hl), hmemory k l hl⟩
    have hk : (lines.map (·.label))[k]? = some (some name) := by
      rw [List.getElem?_map, hl, Option.map_some, hname]
    exact (harmless_labelProblems_run_iff config _ name).2 (hlabel k name hk)

/-- The lines fit into the memory exactly if no instruction is reported for its size: the end of
the memory cannot be passed but within an instruction. -/
theorem fits_iff (config : Config) (lines : List Line) :
    (lines.map (·.byteLength)).sum ≤ config.memorySize.toNat ↔
      ∀ k l, lines[k]? = some l → 0 < l.byteLength →
        (run config (lines.take k)).exceeds config l.byteLength = false := by
  constructor
  · intro hfits k l hl hpos
    have hk : (lines.map (·.byteLength))[k]? = some l.byteLength := by
      rw [List.getElem?_map, hl, Option.map_some]
    have hsum := Layout.offset_le_sum (lines.map (·.byteLength)) (k + 1)
    rw [Layout.offset_succ hk] at hsum
    rw [← Bool.not_eq_true, exceeds_run_iff config _ hpos, Layout.size_take]
    omega
  · intro h
    by_contra hnot
    obtain ⟨k, n, hk, hlo, hhi⟩ := Layout.exists_crossing (Nat.lt_of_not_le hnot)
    rw [List.getElem?_map, Option.map_eq_some_iff] at hk
    obtain ⟨l, hl, rfl⟩ := hk
    have hpos : 0 < l.byteLength := by omega
    have hexceeds := (exceeds_run_iff config (lines.take k) hpos).2
    rw [Layout.size_take, h k l hl hpos] at hexceeds
    cases hexceeds ⟨hlo, hhi⟩

/-- Addresses of distinct labels in the memory are told apart by the scan as they are by the
layout. -/
theorem separate_iff {config : Config} {lines : List Line}
    (hdistinct : Layout.Distinct (lines.map (·.label)))
    (hfits : (lines.map (·.byteLength)).sum ≤ config.memorySize.toNat) :
    (∀ k name, (lines.map (·.label))[k]? = some (some name) →
      (run config (lines.take k)).symbols.nameAt? (run config (lines.take k)).offset = none) ↔
    ∀ j k name other, j < k → (lines.map (·.label))[j]? = some (some name) →
      (lines.map (·.label))[k]? = some (some other) →
        Layout.offset (lines.map (·.byteLength)) j ≠
          Layout.offset (lines.map (·.byteLength)) k := by
  have hsize : config.memorySize.toNat < 65536 := config.memorySize.toNat_lt
  have hmax : maxOffset = 65535 := rfl
  -- No memory is larger than the largest offset, so no offset in it was cut off.
  have hexact : ∀ j, min (Layout.offset (lines.map (·.byteLength)) j) maxOffset =
      Layout.offset (lines.map (·.byteLength)) j := by
    intro j
    have hle := Layout.offset_le_sum (lines.map (·.byteLength)) j
    omega
  have hoffset : ∀ k, (run config (lines.take k)).offset =
      Layout.offset (lines.map (·.byteLength)) k := by
    intro k
    rw [run_offset, Layout.size_take, hexact]
  simp only [run_nameAt?_eq_none_iff, hoffset]
  constructor
  · intro h j k name other hj hname hother
    have hne := h k other hother name _
      ((Layout.definition?_take_eq_some_iff hdistinct).2 ⟨j, hj, hname, rfl⟩)
    rwa [Layout.address, hexact] at hne
  · intro h k name hk other d hd
    obtain ⟨j, hj, hother, rfl⟩ := (Layout.definition?_take_eq_some_iff hdistinct).1 hd
    rw [Layout.address, hexact]
    exact h j k other name hj hother hk

/-- A scan does not fail exactly if no line is rejected and the layout has no faults. -/
theorem not_failed_iff_wellFormed {config : Config} {lines : List Line}
    (hcause : ∀ l ∈ lines, l.RejectsForCause) :
    ((run config lines).finish config).failed = false ↔
      (∀ l ∈ lines, ∀ ps, l.body ≠ .rejected ps) ∧
        Layout.WellFormed config (lines.map (·.label)) (lines.map (·.byteLength))
          (lines.flatMap (·.uses)) := by
  rw [finish_not_failed_iff, harmless_problems_iff hcause]
  constructor
  · rintro ⟨⟨hbody, hmemory, hlabel⟩, hlate⟩
    have hdistinct := Layout.distinct_iff.2 fun k name hk => (hlabel k name hk).1
    have hfits := (fits_iff config lines).2 hmemory
    obtain ⟨hdefined, hreachable⟩ := (Layout.late_iff hdistinct).1 hlate
    refine ⟨hbody, hdistinct, hdefined, hreachable, hfits, fun hwarn => ?_⟩
    exact (separate_iff hdistinct hfits).1 fun k name hk => (hlabel k name hk).2 hwarn
  · rintro ⟨hbody, hlayout⟩
    refine ⟨⟨hbody, (fits_iff config lines).1 hlayout.fits, fun k name hk => ⟨?_, ?_⟩⟩, ?_⟩
    · exact Layout.distinct_iff.1 hlayout.distinct k name hk
    · intro hwarn
      exact (separate_iff hlayout.distinct hlayout.fits).2 (hlayout.separate hwarn) k name hk
    · exact (Layout.late_iff hlayout.distinct).2 ⟨hlayout.defined, hlayout.reachable⟩

end Scan

/-! ## Sources -/

/-- The conditions on the statements of a source under which it is assembled: every operation is
valid, and the labels, byte lengths and label operands, read off the tokens, make a layout without
faults. -/
structure Acceptable (config : Config) (statements : List Statement) : Prop where
  valid : ∀ st ∈ statements, st.Valid
  layout : Layout.WellFormed config (statements.map (·.label)) (statements.map (·.byteLength))
    (statements.flatMap (·.labelOperands))

theorem flatMap_uses_eq {statements : List Statement} (h : ∀ st ∈ statements, st.Valid) :
    (statements.map Line.ofStatement).flatMap (·.uses) =
      statements.flatMap (·.labelOperands) := by
  rw [List.flatMap_map]
  exact List.flatMap_congr fun st hst => Statement.uses_ofStatement (h st hst)

theorem scan_not_failed_iff (config : Config) (texts : List String) :
    (scan config texts).failed = false ↔
      ∃ statements, texts.mapM Statement.parse = .ok statements ∧
        Acceptable config statements := by
  have hcause : ∀ {statements : List Statement}, ∀ l ∈ statements.map Line.ofStatement,
      l.RejectsForCause := by
    intro statements l hl
    obtain ⟨st, -, rfl⟩ := List.mem_map.1 hl
    exact Line.ofStatement_rejectsForCause st
  have hlabels : ∀ statements : List Statement,
      (statements.map Line.ofStatement).map (·.label) = statements.map (·.label) := by
    intro statements
    rw [List.map_map]
    rfl
  constructor
  · intro hok
    obtain ⟨statements, hparse, hvalid⟩ := exists_statements_of_not_failed hok
    refine ⟨statements, hparse, hvalid, ?_⟩
    rw [Scan.scan_eq_run, map_read_eq hparse, Scan.not_failed_iff_wellFormed hcause, hlabels,
      map_byteLength_eq hvalid, flatMap_uses_eq hvalid] at hok
    exact hok.2
  · rintro ⟨statements, hparse, hvalid, hlayout⟩
    rw [Scan.scan_eq_run, map_read_eq hparse, Scan.not_failed_iff_wellFormed hcause, hlabels,
      map_byteLength_eq hvalid, flatMap_uses_eq hvalid]
    refine ⟨fun l hl => ?_, hlayout⟩
    obtain ⟨st, hst, rfl⟩ := List.mem_map.1 hl
    exact Statement.valid_iff.1 (hvalid st hst)

/-- **Exactly the acceptable sources are assembled.** Every source has a result; it is a success
if and only if every line is a statement and the statements are acceptable. Without success there
are no bytes, but the program and the diagnostics of the scan, of which there is at least one. -/
theorem assemble_success_iff (config : Config) (source : String) :
    ∃ a, assemble config source = .ok a ∧
      (a.success = true ↔
        ∃ statements, (Text.lines source).mapM Statement.parse = .ok statements ∧
          Acceptable config statements) ∧
      (a.success = false → a.bytes = [] ∧
        a.program = (scan config (Text.lines source)).program ∧
        a.diagnostics = (scan config (Text.lines source)).diagnostics ∧ a.diagnostics ≠ []) := by
  refine ⟨_, assembleLines_eq config (Text.lines source), ?_, ?_⟩
  · rw [← scan_not_failed_iff]
    simp
  · intro hs
    have hfailed : (scan config (Text.lines source)).failed = true := by
      simpa using hs
    have hne : (scan config (Text.lines source)).diagnostics ≠ [] := by
      rw [Scan.scan_eq_run] at hfailed ⊢
      exact Scan.diagnostics_ne_nil_of_failed hfailed
    dsimp only
    exact ⟨if_pos hfailed, rfl, rfl, hne⟩

end ByteAssembler
