import ByteAssembler.Proofs.EncoderContract

/-
  More lines never disturb what is laid out. A symbol table extends another if it has the names of
  that one in the same places and keeps what was known of them (`SymbolTable.Extends`); a scan
  extends another if also the instructions and the reports of that one come first
  (`Scan.Extends`). Every line extends the scan (`feed_extends`), hence so does every list of lines
  (`run_append_extends`). What is reported at the end is the exception: a label that lacks a
  definition can still get one. `scan_append`: this is the only report that more lines can take
  back, and the machine code of the first lines stays as it is.
-/

namespace ByteAssembler

namespace Symbol

/-- A later state of a symbol: what was set is kept. -/
structure Extends (s s' : Symbol) : Prop where
  name : s'.name = s.name
  definition : ∀ d, s.definition = some d → s'.definition = some d
  firstUse : ∀ line, s.firstUse = some line → s'.firstUse = some line

theorem Extends.address? {s s' : Symbol} (h : s.Extends s') {address : Nat}
    (ha : s.address? = some address) : s'.address? = some address := by
  obtain ⟨d, hd, rfl⟩ := Option.map_eq_some_iff.1 ha
  rw [Symbol.address?, h.definition d hd, Option.map_some]

theorem Extends.definedAt? {s s' : Symbol} (h : s.Extends s') {line : Nat}
    (hl : s.definedAt? = some line) : s'.definedAt? = some line := by
  obtain ⟨d, hd, rfl⟩ := Option.map_eq_some_iff.1 hl
  rw [Symbol.definedAt?, h.definition d hd, Option.map_some]

end Symbol

namespace SymbolTable

/-- A table with the same names in the same places, and perhaps more. -/
structure Extends (t t' : SymbolTable) : Prop where
  names : t.names <+: t'.names
  definition : ∀ name d, t.definition? name = some d → t'.definition? name = some d
  firstUse : ∀ name line, t.firstUse? name = some line → t'.firstUse? name = some line

theorem Extends.refl (t : SymbolTable) : t.Extends t :=
  ⟨List.prefix_rfl, fun _ _ h => h, fun _ _ h => h⟩

theorem Extends.trans {t t' t'' : SymbolTable} (h : t.Extends t') (h' : t'.Extends t'') :
    t.Extends t'' :=
  ⟨h.names.trans h'.names, fun name d hd => h'.definition name d (h.definition name d hd),
    fun name line hu => h'.firstUse name line (h.firstUse name line hu)⟩

/-- No operation takes a name, a definition or a first use back. -/
theorem extends_applyAll (t : SymbolTable) (us : List Update) : t.Extends (t.applyAll us) := by
  refine ⟨names_prefix_applyAll t us, ?_, ?_⟩
  · intro name d hd
    rw [definition?_applyAll, hd, Option.some_or]
  · intro name line hu
    rw [firstUse?_applyAll, hu, Option.some_or]

/-- The entries of a name in both tables. -/
theorem Extends.entry {t t' : SymbolTable} (h : t.Extends t') (name : String) :
    (⟨name, t.definition? name, t.firstUse? name⟩ : Symbol).Extends
      ⟨name, t'.definition? name, t'.firstUse? name⟩ :=
  ⟨rfl, h.definition name, h.firstUse name⟩

/-- Labels keep their index. -/
theorem Extends.get? {t t' : SymbolTable} (h : t.Extends t') (hn : t.names.Nodup)
    (hn' : t'.names.Nodup) {index : Nat} {s : Symbol} (hs : t.get? index = some s) :
    ∃ s', t'.get? index = some s' ∧ s.Extends s' := by
  obtain ⟨hname, hd, hu⟩ := (get?_eq_some_iff hn).1 hs
  have hname' : t'.names[index]? = some s.name := by
    obtain ⟨more, hmore⟩ := h.names
    rw [← hmore, List.getElem?_append_left (List.getElem?_eq_some_iff.1 hname).1, hname]
  refine ⟨⟨s.name, t'.definition? s.name, t'.firstUse? s.name⟩, ?_, ?_⟩
  · exact (get?_eq_some_iff hn').2 ⟨hname', rfl, rfl⟩
  · have hentry := h.entry s.name
    rwa [hd, hu] at hentry

end SymbolTable

namespace Scan

/-! ## Late reports -/

/-- A label that does not fit into a byte is reported again; only one without a definition may be
passed over. -/
theorem lateReport?_of_extends {s s' : Symbol} (h : s.Extends s') {d : Diagnostic}
    (hd : lateReport? s = some d) (hdefined : ∀ name, d.problem ≠ .undefinedLabel name) :
    lateReport? s' = some d := by
  obtain ⟨-, rfl⟩ | ⟨address, haddress, hlarge, hused, rfl⟩ := lateReport?_cases hd
  · exact absurd rfl (hdefined s.name)
  · obtain ⟨line, hline⟩ := Option.isSome_iff_exists.1 hused
    have huse := h.firstUse line hline
    unfold lateReport?
    rw [h.address? haddress, huse, hline, h.name]
    exact if_pos ⟨hlarge, rfl⟩

/-- Late reports are repeated as often. -/
theorem count_late_le {t t' : SymbolTable} (h : t.Extends t') (hn : t.names.Nodup)
    (hn' : t'.names.Nodup) {d : Diagnostic} (hdefined : ∀ name, d.problem ≠ .undefinedLabel name) :
    (t.entries.filterMap lateReport?).count d ≤ (t'.entries.filterMap lateReport?).count d := by
  rw [SymbolTable.entries_eq_map_names hn, SymbolTable.entries_eq_map_names hn',
    List.count_filterMap, List.count_filterMap, List.countP_map, List.countP_map]
  refine Nat.le_trans (List.countP_mono_left fun name _ hname => ?_) h.names.sublist.countP_le
  exact beq_iff_eq.2 (lateReport?_of_extends (h.entry name) (beq_iff_eq.1 hname) hdefined)

/-! ## Runs -/

/-- A scan that has read more lines. -/
structure Extends (s s' : Scan) : Prop where
  symbols : s.symbols.Extends s'.symbols
  instructions : s.instructions.toList <+: s'.instructions.toList
  diagnostics : s.diagnostics.toList <+: s'.diagnostics.toList

theorem Extends.refl (s : Scan) : s.Extends s :=
  ⟨.refl _, List.prefix_rfl, List.prefix_rfl⟩

theorem Extends.trans {s s' s'' : Scan} (h : s.Extends s') (h' : s'.Extends s'') :
    s.Extends s'' :=
  ⟨h.symbols.trans h'.symbols, h.instructions.trans h'.instructions,
    h.diagnostics.trans h'.diagnostics⟩

/-- One more line. -/
theorem feed_extends (config : Config) (s : Scan) (l : Line) : s.Extends (feed config s l) := by
  refine ⟨?_, ?_, ?_⟩
  · rw [feed_eq]
    exact SymbolTable.extends_applyAll _ _
  · rw [feed_instructions]
    exact List.prefix_append _ _
  · rw [feed_diagnostics]
    exact List.prefix_append _ _

/-- Any number of lines more. -/
theorem run_append_extends (config : Config) (xs ys : List Line) :
    (run config xs).Extends (run config (xs ++ ys)) := by
  induction ys using List.reverseRecOn with
  | nil =>
    rw [List.append_nil]
    exact .refl _
  | append_singleton ys l ih =>
    rw [← List.append_assoc, run_concat]
    exact ih.trans (feed_extends config _ l)

variable {config : Config} {xs ys : List Line}

theorem count_finish_le {d : Diagnostic} (hdefined : ∀ name, d.problem ≠ .undefinedLabel name) :
    ((run config xs).finish config).diagnostics.count d ≤
      ((run config (xs ++ ys)).finish config).diagnostics.count d := by
  have h := run_append_extends config xs ys
  have hreports := h.diagnostics.sublist.count_le d
  have hlate := count_late_le h.symbols (run_names_nodup config xs)
    (run_names_nodup config (xs ++ ys)) hdefined
  unfold finish
  dsimp only
  rw [(Diagnostic.sortByLine_perm _).count_eq, (Diagnostic.sortByLine_perm _).count_eq,
    List.count_append, List.count_append]
  omega

/-- The address of a label that is used in lines without faults is not changed by more lines. -/
theorem addressByte_append (hok : ((run config xs).finish config).failed = false) {l : Line}
    {name : String} (hl : l ∈ xs) (hu : name ∈ l.uses) :
    Layout.addressByte (xs ++ ys) name = Layout.addressByte xs name := by
  obtain ⟨d, hd, -⟩ := ((finish_not_failed_iff config xs).1 hok).2 name ⟨l, hl, Or.inr hu⟩
  have hd' := (run_append_extends config xs ys).symbols.definition name d
  rw [run_definition?, run_definition?] at hd'
  rw [Layout.addressByte, Layout.addressByte, hd, hd' hd]

/-- The bytes of lines without faults are not changed by more lines. -/
theorem machineCode_append (hok : ((run config xs).finish config).failed = false) :
    xs.flatMap (·.machineCode (Layout.addressByte (xs ++ ys))) =
      xs.flatMap (·.machineCode (Layout.addressByte xs)) := by
  refine List.flatMap_congr fun l hl => ?_
  exact Line.machineCode_congr fun name hu => addressByte_append hok hl hu

end Scan

/-- **More lines never disturb what is laid out.** The instructions of the first lines come first,
and their labels keep index, name and whatever else is set; each of their diagnostics occurs at
least as often, unless it is about a label without a definition. If neither scan failed, the
machine code of the first lines comes first. -/
theorem scan_append (config : Config) (xs ys : List String) :
    (scan config xs).program.instructions <+: (scan config (xs ++ ys)).program.instructions ∧
    (∀ index s, (scan config xs).program.symbols.get? index = some s →
      ∃ s', (scan config (xs ++ ys)).program.symbols.get? index = some s' ∧ s'.name = s.name ∧
        (∀ address, s.address? = some address → s'.address? = some address) ∧
        (∀ line, s.definedAt? = some line → s'.definedAt? = some line) ∧
        ∀ line, s.firstUse = some line → s'.firstUse = some line) ∧
    (∀ d : Diagnostic, (∀ name, d.problem ≠ .undefinedLabel name) →
      (scan config xs).diagnostics.count d ≤ (scan config (xs ++ ys)).diagnostics.count d) ∧
    ((scan config xs).failed = false → (scan config (xs ++ ys)).failed = false →
      ∃ bytes more, MachineCode.encode (scan config xs).program = .ok bytes ∧
        MachineCode.encode (scan config (xs ++ ys)).program = .ok (bytes ++ more)) := by
  have h := Scan.run_append_extends config (xs.map Line.read) (ys.map Line.read)
  have hnodup := Scan.run_names_nodup config
  refine ⟨?_, ?_, ?_, ?_⟩
  · rw [Scan.scan_eq_run, Scan.scan_eq_run, List.map_append]
    exact h.instructions
  · intro index s hs
    rw [Scan.scan_eq_run] at hs
    rw [Scan.scan_eq_run, List.map_append]
    obtain ⟨s', hs', hext⟩ := h.symbols.get? (hnodup _) (hnodup _) hs
    exact ⟨s', hs', hext.name, fun _ => hext.address?, fun _ => hext.definedAt?, hext.firstUse⟩
  · intro d hdefined
    rw [Scan.scan_eq_run, Scan.scan_eq_run, List.map_append]
    exact Scan.count_finish_le hdefined
  · intro hok hok'
    have hbytes := encode_scan hok
    have hbytes' := encode_scan hok'
    rw [Scan.scan_eq_run] at hok
    rw [List.map_append, List.flatMap_append, Scan.machineCode_append hok] at hbytes'
    exact ⟨_, _, hbytes, hbytes'⟩

/-- Two labels at one address, the second with a warning, and one line more. -/
theorem scan_append_warning :
    (scan {} ["a:", "b: jmp a"]).failed = false ∧
    (scan {} (["a:", "b: jmp a"] ++ ["hlt"])).failed = false ∧
    (∃ s', (scan {} (["a:", "b: jmp a"] ++ ["hlt"])).program.symbols.get? 0 = some s' ∧
      s'.name = "a" ∧ s'.address? = some 0 ∧ s'.definedAt? = some 1 ∧ s'.firstUse = some 2) ∧
    1 ≤ (scan {} (["a:", "b: jmp a"] ++ ["hlt"])).diagnostics.count
      ⟨some 2, .redundantLabel "b" "a" 0⟩ ∧
    ∃ bytes more, MachineCode.encode (scan {} ["a:", "b: jmp a"]).program = .ok bytes ∧
      MachineCode.encode (scan {} (["a:", "b: jmp a"] ++ ["hlt"])).program =
        .ok (bytes ++ more) := by
  have hok : (scan {} ["a:", "b: jmp a"]).failed = false := by decide
  have hok' : (scan {} (["a:", "b: jmp a"] ++ ["hlt"])).failed = false := by decide
  obtain ⟨-, hsymbols, hcount, hbytes⟩ := scan_append {} ["a:", "b: jmp a"] ["hlt"]
  refine ⟨hok, hok', ?_, ?_, hbytes hok hok'⟩
  · obtain ⟨s', hs', hname, haddress, hline, huse⟩ :=
      hsymbols 0 ⟨"a", some ⟨0, 1⟩, some 2⟩ (by decide)
    exact ⟨s', hs', hname, haddress 0 rfl, hline 1 rfl, huse 2 rfl⟩
  · have h := hcount ⟨some 2, .redundantLabel "b" "a" 0⟩ (by simp)
    have hone : (scan {} ["a:", "b: jmp a"]).diagnostics.count
        ⟨some 2, .redundantLabel "b" "a" 0⟩ = 1 := by decide
    rwa [hone] at h

end ByteAssembler
