import ByteAssembler.Proofs.LateReports

/-
  The order of all diagnostics. A line reports on its label first (`exists_labelProblems_eq`), then
  on its body (`bodyProblems_read`), and both while it is read; a late report stands on the line that
  uses its name first, and since no mnemonic takes two addresses there is at most one on a line
  (`length_lateReports_le`). The sort at the end keeps the order within a line, so that a late report
  follows what the line itself has reported (`diagnosticsOn_scan`). `scan_diagnostics_inOrder` says
  this of every line, and that there is no diagnostic without one.
-/

namespace ByteAssembler

/-- The diagnostics on a line. -/
def Scanned.diagnosticsOn (s : Scanned) (line : Nat) : List Diagnostic :=
  s.diagnostics.filter (·.line == some line)

/-- The state of a scan before line `k` of a source. -/
def Scan.before (config : Config) (texts : List String) (k : Nat) : Scan :=
  run config ((texts.take k).map Line.read)

/-! ## Late reports -/

theorem Source.lt_length_of_useLine? {texts : List String} {name : String} {k : Nat}
    (h : useLine? texts name = some k) : k < texts.length :=
  (List.findIdx?_eq_some_iff_getElem.1 h).1

/-- The late reports are those on the names of the source. -/
theorem mem_lateReports {config : Config} {texts : List String} {d : Diagnostic} :
    d ∈ (scan config texts).program.symbols.entries.filterMap Scan.lateReport? ↔
      ∃ name, Source.lateReport? texts name = some d := by
  rw [Scan.scan_eq_run, List.mem_filterMap]
  constructor
  · rintro ⟨symbol, hentry, hreport⟩
    obtain ⟨hm, hdefinition, huse⟩ := (Scan.mem_run_entries config _).1 hentry
    have hsymbol := lateReport?_entry hm
    rw [hdefinition, huse] at hsymbol
    exact ⟨symbol.name, hsymbol.symm.trans hreport⟩
  · rintro ⟨name, hreport⟩
    have hm : Layout.Mentioned (texts.map Line.read) name := by
      by_contra hnot
      rw [Source.lateReport?_of_not_mentioned hnot] at hreport
      cases hreport
    exact ⟨_, (Scan.mem_run_entries config _).2 ⟨hm, rfl, rfl⟩, (lateReport?_entry hm).trans hreport⟩

/-- A late report stands on the line that uses its name first. -/
theorem Source.line_of_lateReport? {texts : List String} {name : String} {d : Diagnostic}
    (h : lateReport? texts name = some d) :
    ∃ k, useLine? texts name = some k ∧ d.line = some (k + 1) ∧
      d.problem.isLateOn name = true := by
  obtain ⟨k, huse, ⟨-, rfl⟩ | ⟨j, -, -, rfl⟩⟩ := lateReport?_cases h
  · exact ⟨k, huse, rfl, beq_self_eq_true name⟩
  · exact ⟨k, huse, rfl, beq_self_eq_true name⟩

/-- No mnemonic takes two addresses. -/
theorem Mnemonic.count_address_le (m : Mnemonic) : m.signature.count .address ≤ 1 := by
  cases m <;> decide

/-- A line uses at most one label. -/
theorem Line.length_uses_le {l : Line} (h : l.Fits) : l.uses.length ≤ 1 := by
  unfold uses
  cases hb : l.body with
  | instruction m operands =>
    have haddress : ∀ o ∈ operands, o.label?.isSome = true → (o.kind == .address) = true := by
      intro o _ hsome
      cases o with
      | address target => rfl
      | _ => cases hsome
    calc (operands.filterMap (·.label?)).length
        = operands.countP (·.label?.isSome) := List.length_filterMap_eq_countP
      _ ≤ operands.countP (·.kind == .address) := List.countP_mono_left haddress
      _ = m.signature.count .address := by rw [← h m operands hb, List.count, List.countP_map]; rfl
      _ ≤ 1 := m.count_address_le
  | _ => exact Nat.zero_le 1

section OnLine

variable (config : Config) {texts : List String} {k : Nat} {text : String}
  (ht : texts[k]? = some text)

include ht

/-- What is reported late on a line is reported on a name that the line uses. -/
theorem isLateOn_of_mem_lateReports {d : Diagnostic}
    (hd : d ∈ (scan config texts).program.symbols.entries.filterMap Scan.lateReport?)
    (hline : d.line = some (k + 1)) :
    ∃ name ∈ (Line.read text).uses, d.problem.isLateOn name = true := by
  obtain ⟨name, hreport⟩ := mem_lateReports.1 hd
  obtain ⟨j, huse, hj, hname⟩ := Source.line_of_lateReport? hreport
  obtain rfl : j = k := Nat.succ.inj (Option.some.inj (hj.symm.trans hline))
  obtain ⟨hlt, hcontains, -⟩ := List.findIdx?_eq_some_iff_getElem.1 huse
  obtain ⟨-, rfl⟩ := List.getElem?_eq_some_iff.1 ht
  rw [Line.labelOperands_counted, List.contains_iff_mem] at hcontains
  exact ⟨name, hcontains, hname⟩

/-- There is at most one late report on a line. -/
theorem length_lateReports_le :
    (((scan config texts).program.symbols.entries.filterMap Scan.lateReport?).filter
      (·.line == some (k + 1))).length ≤ 1 := by
  have hon := fun d hd => isLateOn_of_mem_lateReports config ht (d := d) hd
  have huses := Line.length_uses_le (Line.read_fits text)
  have hnodup : (scan config texts).program.symbols.names.Nodup := by
    rw [Scan.scan_eq_run]
    exact Scan.run_names_nodup config _
  generalize (scan config texts).program.symbols = symbols at hon hnodup ⊢
  generalize hlate : symbols.entries.filterMap Scan.lateReport? = late at hon ⊢
  cases hnames : (Line.read text).uses with
  | nil =>
    have hnil : late.filter (·.line == some (k + 1)) = [] := by
      rw [List.filter_eq_nil_iff]
      intro d hd hline
      obtain ⟨name, hname, -⟩ := hon d hd (beq_iff_eq.1 hline)
      rw [hnames] at hname
      cases hname
    rw [hnil]
    exact Nat.zero_le 1
  | cons name rest =>
    have hrest : rest = [] := by
      rw [hnames, List.length_cons] at huses
      exact List.length_eq_zero_iff.1 (by omega)
    -- All of them are on the one name that the line uses, and that has one entry in the table.
    have hself : (late.filter (·.line == some (k + 1))).filter (·.problem.isLateOn name) =
        late.filter (·.line == some (k + 1)) := by
      rw [List.filter_eq_self]
      intro d hd
      obtain ⟨hmem, hline⟩ := List.mem_filter.1 hd
      obtain ⟨other, hother, hlate⟩ := hon d hmem (beq_iff_eq.1 hline)
      rw [hnames, hrest, List.mem_singleton] at hother
      exact hother ▸ hlate
    have hone : (late.filter (·.problem.isLateOn name)).length ≤ 1 := by
      rw [← hlate, Scan.filter_lateReports, SymbolTable.filter_name hnodup]
      refine (List.length_filterMap_le _ _).trans ?_
      split
      · exact Nat.le_refl 1
      · exact Nat.zero_le 1
    rw [← hself, List.filter_comm]
    exact (List.length_filter_le _ _).trans hone

/-- The late report on a line, if there is one. -/
theorem exists_lateReport :
    ∃ late : Option Problem,
      ((scan config texts).program.symbols.entries.filterMap Scan.lateReport?).filter
          (·.line == some (k + 1)) = late.toList.map (Diagnostic.mk (some (k + 1))) ∧
      ∀ p, late = some p ↔ ∃ name, Source.useLine? texts name = some k ∧
        Source.lateReport? texts name = some ⟨some (k + 1), p⟩ := by
  have hlength := length_lateReports_le config ht
  have hmem : ∀ d, d ∈ ((scan config texts).program.symbols.entries.filterMap
      Scan.lateReport?).filter (·.line == some (k + 1)) ↔ d.line = some (k + 1) ∧
        ∃ name, Source.useLine? texts name = some k ∧ Source.lateReport? texts name = some d := by
    intro d
    rw [List.mem_filter, mem_lateReports, beq_iff_eq, and_comm]
    refine and_congr_right fun hline => exists_congr fun name => ?_
    refine ⟨fun hreport => ⟨?_, hreport⟩, And.right⟩
    obtain ⟨j, huse, hj, -⟩ := Source.line_of_lateReport? hreport
    rw [huse, Nat.succ.inj (Option.some.inj (hj.symm.trans hline))]
  generalize ((scan config texts).program.symbols.entries.filterMap Scan.lateReport?).filter
    (·.line == some (k + 1)) = reports at hlength hmem ⊢
  cases reports with
  | nil => exact ⟨none, rfl, fun p => by simpa using hmem ⟨some (k + 1), p⟩⟩
  | cons d rest =>
    obtain rfl : rest = [] := by
      rw [List.length_cons] at hlength
      exact List.length_eq_zero_iff.1 (by omega)
    obtain ⟨line, problem⟩ := d
    obtain rfl : line = some (k + 1) := ((hmem _).1 (List.mem_singleton_self _)).1
    refine ⟨some problem, rfl, fun p => ?_⟩
    simpa [eq_comm] using hmem ⟨some (k + 1), p⟩

/-- What is reported on a line: first what reading it has reported, then what is reported late. -/
theorem diagnosticsOn_scan :
    (scan config texts).diagnosticsOn (k + 1) =
      ((Scan.before config texts k).problems config (Line.read text)).map
          (Diagnostic.mk (some (k + 1))) ++
        ((scan config texts).program.symbols.entries.filterMap Scan.lateReport?).filter
          (·.line == some (k + 1)) := by
  have hread : (texts.map Line.read)[k]? = some (Line.read text) := by
    rw [List.getElem?_map, ht, Option.map_some]
  have hrun := Scan.filter_run_on_line config hread fun _ => true
  simp only [Bool.and_true, List.filter_true, ← List.map_take] at hrun
  rw [Scanned.diagnosticsOn, Scan.scan_eq_run, Scan.filter_finish, hrun, Scan.before]
  refine Diagnostic.sortByLine_of_line (k + 1) fun d hd => ?_
  rcases List.mem_append.1 hd with hfed | hlate
  · obtain ⟨p, -, rfl⟩ := List.mem_map.1 hfed
    rfl
  · exact beq_iff_eq.1 (List.mem_filter.1 hlate).2

end OnLine

/-! ## What reading a line reports -/

namespace Scan

/-- The reports on the label of a line: that it is redundant stands before that it is defined
already. -/
theorem exists_labelProblems_eq (s : Scan) (label : Option String) :
    ∃ redundant duplicate : Option Problem,
      label.elim [] s.labelProblems = redundant.toList ++ duplicate.toList ∧
      (∀ p ∈ redundant, ∃ name existing address,
        label = some name ∧ p = .redundantLabel name existing address) ∧
      ∀ p ∈ duplicate, ∃ name first, label = some name ∧ p = .duplicateLabel name first := by
  cases label with
  | none => exact ⟨none, none, rfl, by simp, by simp⟩
  | some name =>
    have hredundant : ∃ redundant : Option Problem, s.redundancy name = redundant.toList ∧
        ∀ p ∈ redundant, ∃ existing, p = .redundantLabel name existing s.offset := by
      unfold redundancy
      split
      · next existing _ =>
        split
        · exact ⟨none, rfl, by simp⟩
        · exact ⟨some (.redundantLabel name existing s.offset), rfl, by simp⟩
      · exact ⟨none, rfl, by simp⟩
    obtain ⟨redundant, hlist, hredundant⟩ := hredundant
    refine ⟨redundant, _, by rw [Option.elim_some, labelProblems, hlist], fun p hp => ?_,
      fun p hp => ?_⟩
    · obtain ⟨existing, rfl⟩ := hredundant p hp
      exact ⟨name, existing, s.offset, rfl, rfl⟩
    · obtain ⟨first, -, rfl⟩ := Option.map_eq_some_iff.1 hp
      exact ⟨name, first.line, rfl, rfl⟩

/-- The reports on the body of a line: those for which it is rejected, or that it ends beyond the
memory. -/
theorem bodyProblems_read (config : Config) (s : Scan) (text : String) :
    s.bodyProblems config (Line.read text).body = [] ∨
      Line.RejectedFor text (s.bodyProblems config (Line.read text).body) ∨
      s.bodyProblems config (Line.read text).body =
        [.programTooLarge config.memorySize.toNat] := by
  cases hb : (Line.read text).body with
  | empty => exact Or.inl rfl
  | rejected ps => exact Or.inr (Or.inl (Line.rejectedFor_of_read hb))
  | instruction m operands =>
    rw [bodyProblems]
    split
    · exact Or.inr (Or.inr rfl)
    · exact Or.inl rfl

end Scan

/-- What is reported on line `k` of a source, part by part. -/
structure Source.ReportsOn (config : Config) (texts : List String) (k : Nat) (text : String)
    (redundant duplicate : Option Problem) (body : List Problem) (late : Option Problem) :
    Prop where
  /-- What reading the line adds to the reports of the lines before it. -/
  fed : (Scan.feed config (Scan.before config texts k) (Line.read text)).diagnostics.toList =
    (Scan.before config texts k).diagnostics.toList ++
      (redundant.toList ++ duplicate.toList ++ body).map (Diagnostic.mk (some (k + 1)))
  redundant : ∀ p ∈ redundant, ∃ name existing address,
    (Line.read text).label = some name ∧ p = .redundantLabel name existing address
  duplicate : ∀ p ∈ duplicate, ∃ name first,
    (Line.read text).label = some name ∧ p = .duplicateLabel name first
  body : body = [] ∨ Line.RejectedFor text body ∨
    body = [.programTooLarge config.memorySize.toNat]
  /-- The late report is on a name that line `k` is the first to use. -/
  late : ∀ p, late = some p ↔ ∃ name, Source.useLine? texts name = some k ∧
    Source.lateReport? texts name = some ⟨some (k + 1), p⟩

/-- The reports on a line, in their order. -/
theorem exists_reportsOn (config : Config) {texts : List String} {k : Nat} {text : String}
    (ht : texts[k]? = some text) :
    ∃ redundant duplicate body late,
      Source.ReportsOn config texts k text redundant duplicate body late ∧
      (scan config texts).diagnosticsOn (k + 1) =
        (redundant.toList ++ duplicate.toList ++ body ++ late.toList).map
          (Diagnostic.mk (some (k + 1))) := by
  obtain ⟨late, hlist, hlate⟩ := exists_lateReport config ht
  obtain ⟨redundant, duplicate, hlabel, hredundant, hduplicate⟩ :=
    (Scan.before config texts k).exists_labelProblems_eq (Line.read text).label
  have hline : (Scan.before config texts k).line = k := by
    rw [Scan.before, Scan.run_line, List.length_map, List.length_take]
    exact Nat.min_eq_left (Nat.le_of_lt (List.getElem?_eq_some_iff.1 ht).1)
  refine ⟨redundant, duplicate,
    (Scan.before config texts k).bodyProblems config (Line.read text).body, late,
    ⟨?_, hredundant, hduplicate, Scan.bodyProblems_read config _ text, hlate⟩, ?_⟩
  · rw [Scan.feed_diagnostics, Scan.problems, hlabel, hline]
  · rw [diagnosticsOn_scan config ht, hlist, Scan.problems, hlabel, ← List.map_append]

/-- Every diagnostic is on a line of the source. -/
theorem exists_line_of_mem_diagnostics {config : Config} {texts : List String} {d : Diagnostic}
    (hd : d ∈ (scan config texts).diagnostics) : ∃ k < texts.length, d.line = some (k + 1) := by
  rw [Scan.scan_eq_run] at hd
  rcases Scan.mem_finish_diagnostics.1 hd with hrun | hlate
  · obtain ⟨k, l, hl, p, -, rfl⟩ := (Scan.mem_run_diagnostics config _).1 hrun
    have hk := (List.getElem?_eq_some_iff.1 hl).1
    rw [List.length_map] at hk
    exact ⟨k, hk, rfl⟩
  · have hmem : d ∈ (scan config texts).program.symbols.entries.filterMap Scan.lateReport? := by
      rw [Scan.scan_eq_run]
      exact List.mem_filterMap.2 hlate
    obtain ⟨name, hreport⟩ := mem_lateReports.1 hmem
    obtain ⟨k, huse, hline, -⟩ := Source.line_of_lateReport? hreport
    exact ⟨k, Source.lt_length_of_useLine? huse, hline⟩

/-- **Diagnostics stand in the order of the source.** Every one is on a line of the source, and the
lines do not decrease. On one line stands first what reading it has reported: that its label is
redundant, that it is defined already, and then either the reports for which the rest of the line is
rejected, in the order of its operands, or that it ends beyond the memory. A late report on a name
that the line is the first to use follows; there is at most one. Only that a label is redundant is a
warning. -/
theorem scan_diagnostics_inOrder (config : Config) (texts : List String) :
    (∀ d ∈ (scan config texts).diagnostics,
      ∃ line, d.line = some line ∧ 1 ≤ line ∧ line ≤ texts.length) ∧
    ((scan config texts).diagnostics.Pairwise fun d e =>
      ∀ m n, d.line = some m → e.line = some n → m ≤ n) ∧
    (∀ k text, texts[k]? = some text → ∃ redundant duplicate body late,
      Source.ReportsOn config texts k text redundant duplicate body late ∧
      (scan config texts).diagnosticsOn (k + 1) =
        (redundant.toList ++ duplicate.toList ++ body ++ late.toList).map
          (Diagnostic.mk (some (k + 1)))) ∧
    ∀ d ∈ (scan config texts).diagnostics,
      d.severity = .warning ↔ d.problem.isRedundant = true := by
  refine ⟨fun d hd => ?_, ?_, fun k text ht => exists_reportsOn config ht, fun d _ => ?_⟩
  · obtain ⟨k, hk, hline⟩ := exists_line_of_mem_diagnostics hd
    exact ⟨k + 1, hline, Nat.succ_pos k, hk⟩
  · refine (Diagnostic.pairwise_sortByLine _).imp fun {d e} hde m n hm hn => ?_
    rw [Diagnostic.notAfter, hm, hn] at hde
    exact of_decide_eq_true hde
  · cases hp : d.problem <;> simp [Diagnostic.severity, Problem.severity, Problem.isRedundant, hp]

/-- A line with reports on its label and on both operands, and one that ends beyond a memory of three
bytes and uses a name that no line has as its label. -/
def Source.crossing : List String :=
  ["x: jmp nowhere", "y:", "x: mvi q, 300", "jz gone", "jmp nowhere"]

theorem scan_diagnostics_inOrder_crossing :
    (scan ⟨3, false⟩ Source.crossing).diagnosticsOn 3 =
      [⟨some 3, .redundantLabel "x" "y" 2⟩, ⟨some 3, .duplicateLabel "x" 1⟩,
        ⟨some 3, .invalidRegister "q"⟩, ⟨some 3, .invalidNumber "300" .range⟩] ∧
    (∃ redundant duplicate body late,
      Source.ReportsOn ⟨3, false⟩ Source.crossing 3 "jz gone" redundant duplicate body late ∧
      [⟨some 4, .programTooLarge 3⟩, ⟨some 4, .undefinedLabel "gone"⟩] =
        (redundant.toList ++ duplicate.toList ++ body ++ late.toList).map
          (Diagnostic.mk (some 4))) ∧
    ∃ line, (⟨some 1, .undefinedLabel "nowhere"⟩ : Diagnostic).line = some line ∧ 1 ≤ line ∧
      line ≤ Source.crossing.length := by
  obtain ⟨hlines, -, hreports, -⟩ := scan_diagnostics_inOrder ⟨3, false⟩ Source.crossing
  have hfour : (scan ⟨3, false⟩ Source.crossing).diagnosticsOn 4 =
      [⟨some 4, .programTooLarge 3⟩, ⟨some 4, .undefinedLabel "gone"⟩] := by decide +kernel
  have hone : ⟨some 1, .undefinedLabel "nowhere"⟩ ∈
      (scan ⟨3, false⟩ Source.crossing).diagnostics := by decide +kernel
  refine ⟨by decide +kernel, ?_, hlines _ hone⟩
  rw [← hfour]
  exact hreports 3 "jz gone" rfl

end ByteAssembler
