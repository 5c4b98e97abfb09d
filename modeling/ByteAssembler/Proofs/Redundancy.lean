import ByteAssembler.Proofs.Duplicates

/-
  Labels at an offset that has one already. The scan asks its table for a label at the offset and
  gets the one that was mentioned first (`run_nameAt?_read`); it is silent if that is the label
  itself. `scan_redundantLabels` says what this amounts to in terms of the source;
  `redundantLabel_not_reported` is a source in which another label stands at the offset and yet
  nothing is reported.
-/

namespace ByteAssembler

/-- The first label at an address, in the order of first mention. -/
theorem SymbolTable.nameAt?_eq_find? {t : SymbolTable} (h : t.names.Nodup) (address : Nat) :
    t.nameAt? address =
      t.names.find? fun name => (t.definition? name).map (·.address) == some address := by
  rw [nameAt?, entries_eq_map_names h, List.find?_map, Option.map_map]
  exact Option.map_id'

namespace Source

/-- Whether a line before position `k` has bound a name to the offset at which line `k` stands. -/
def bindsBefore (texts : List String) (k : Nat) (name : String) : Bool :=
  (labelLine? texts name).any fun j => decide (j < k) && offset texts j == offset texts k

/-- The names that lines before position `k` have bound to the offset at which line `k` stands, in
the order of their first mention. -/
def namesAt (texts : List String) (k : Nat) : List String :=
  (mentions (texts.take k)).eraseDups.filter (bindsBefore texts k)

variable (texts : List String) (k : Nat)

theorem labelLine?_take (name : String) :
    labelLine? (texts.take k) name = (labelLine? texts name).filter (· < k) := by
  unfold labelLine?
  rw [List.findIdx?_take]
  cases texts.findIdx? fun text => (Statement.counted text).label == some name with
  | none => rfl
  | some j => rfl

theorem bytesBefore_take {j : Nat} (h : j ≤ k) :
    bytesBefore (texts.take k) j = bytesBefore texts j := by
  rw [bytesBefore, List.take_take, Nat.min_eq_left h, bytesBefore]

theorem bindsBefore_iff {name : String} :
    bindsBefore texts k name = true ↔
      ∃ j, labelLine? texts name = some j ∧ j < k ∧ offset texts j = offset texts k := by
  simp [bindsBefore, Option.any_eq_true]

theorem mem_namesAt {name : String} : name ∈ namesAt texts k ↔ bindsBefore texts k name = true := by
  rw [namesAt, List.mem_filter, List.mem_eraseDups, and_iff_right_iff_imp]
  intro h
  obtain ⟨j, hj, hlt, -⟩ := (bindsBefore_iff texts k).1 h
  obtain ⟨hlen, hlabel, -⟩ := List.findIdx?_eq_some_iff_getElem.1 hj
  refine List.mem_flatMap.2 ⟨texts[j], ?_, ?_⟩
  · exact List.mem_take_iff_getElem.2 ⟨j, by omega, rfl⟩
  · rw [beq_iff_eq.1 hlabel]
    exact List.mem_append_left _ (List.mem_singleton_self name)

end Source

namespace Scan

variable (config : Config) (texts : List String) (k : Nat)

theorem run_offset_read :
    (run config ((texts.take k).map Line.read)).offset = Source.offset texts k := by
  rw [run_offset, List.map_take, Layout.size_take, ← Source.bytesBefore_eq_offset]
  rfl

/-- What the scan finds at the offset of a line is the first of the names bound there. -/
theorem run_nameAt?_read :
    (run config ((texts.take k).map Line.read)).symbols.nameAt? (Source.offset texts k) =
      (Source.namesAt texts k).head? := by
  rw [SymbolTable.nameAt?_eq_find? (run_names_nodup config _), run_names, Source.flatMap_mentions,
    Source.namesAt, List.head?_filter]
  congr 1
  funext name
  rw [run_definition?, Source.definition?_map_read, Source.labelLine?_take, Source.bindsBefore,
    Option.map_map]
  cases Source.labelLine? texts name with
  | none => rfl
  | some j =>
    by_cases hj : j < k
    · simp [hj, Source.bytesBefore_take texts k (Nat.le_of_lt hj), Source.offset]
    · simp [hj]

theorem redundancy_run (name : String) :
    (run config ((texts.take k).map Line.read)).redundancy name =
      (((Source.namesAt texts k).head?.filter (· != name)).map fun existing =>
        .redundantLabel name existing (Source.offset texts k)).toList := by
  rw [redundancy, run_offset_read, run_nameAt?_read]
  cases (Source.namesAt texts k).head? with
  | none => rfl
  | some existing => by_cases he : existing = name <;> simp [he, Option.filter]

end Scan

/-- The reports that a label is redundant, on a line that has one. -/
theorem redundancies_scan (config : Config) {texts : List String} {k : Nat} {text : String}
    {st : Statement} {name : String} (ht : texts[k]? = some text)
    (hp : Statement.parse text = .ok st) (hl : st.label = some name) :
    (scan config texts).diagnostics.filter
        (fun d => d.line == some (k + 1) && d.problem.isRedundant) =
      (((Source.namesAt texts k).head?.filter (· != name)).map fun existing =>
        ⟨some (k + 1), .redundantLabel name existing (Source.offset texts k)⟩).toList := by
  have hread : (texts.map Line.read)[k]? = some (Line.ofStatement st) := by
    rw [List.getElem?_map, ht, Option.map_some, Line.read_of_parse hp]
  have hlabel : (Line.ofStatement st).label = some name := hl
  have hearly : ∀ d : Diagnostic, (d.line == some (k + 1) && d.problem.isRedundant) = true →
      d.problem.origin ≠ .symbol := by
    intro d hd
    have hredundant := (Bool.and_eq_true _ _ ▸ hd).2
    simp [Problem.origin_of_isRedundant hredundant]
  rw [filter_scan_of_early config texts hearly, Scan.filter_run_on_line config hread,
    Scan.filter_problems_label config _ (Line.ofStatement_rejectsForCause st)
      fun _ => Problem.origin_of_isRedundant,
    hlabel, Option.elim_some, Scan.filter_isRedundant_labelProblems, ← List.map_take,
    Scan.redundancy_run]
  cases (Source.namesAt texts k).head?.filter (· != name) <;> rfl

theorem mem_redundancies_scan (config : Config) {texts : List String} {k : Nat} {text : String}
    {st : Statement} {name : String} (ht : texts[k]? = some text)
    (hp : Statement.parse text = .ok st) (hl : st.label = some name) {existing : String}
    {address : Nat} :
    ⟨some (k + 1), .redundantLabel name existing address⟩ ∈ (scan config texts).diagnostics ↔
      (Source.namesAt texts k).head? = some existing ∧ existing ≠ name ∧
        address = Source.offset texts k := by
  have hmem : ⟨some (k + 1), .redundantLabel name existing address⟩ ∈
        (scan config texts).diagnostics.filter
          (fun d => d.line == some (k + 1) && d.problem.isRedundant) ↔
      ⟨some (k + 1), .redundantLabel name existing address⟩ ∈ (scan config texts).diagnostics := by
    simp [List.mem_filter, Problem.isRedundant]
  rw [← hmem, redundancies_scan config ht hp hl, Option.mem_toList, Option.map_eq_some_iff]
  simp only [Option.filter_eq_some_iff, bne_iff_ne, Diagnostic.mk.injEq,
    Problem.redundantLabel.injEq, true_and]
  constructor
  · rintro ⟨_, ⟨hfirst, hne⟩, rfl, rfl⟩
    exact ⟨hfirst, hne, rfl⟩
  · rintro ⟨hfirst, hne, rfl⟩
    exact ⟨existing, ⟨hfirst, hne⟩, rfl, rfl⟩

/-- **Labels that stand where another one does.** A label is reported as redundant exactly if some
other name is bound to its offset before its line, unless of all names bound there it is itself the
one that was mentioned first. There is at most one such report on a line. It carries the offset and,
of the names bound there, the one that was mentioned first. -/
theorem scan_redundantLabels (config : Config) {texts : List String} {k : Nat} {text : String}
    {st : Statement} {name : String} (ht : texts[k]? = some text)
    (hp : Statement.parse text = .ok st) (hl : st.label = some name) :
    ((∃ existing address,
        ⟨some (k + 1), .redundantLabel name existing address⟩ ∈ (scan config texts).diagnostics) ↔
      (∃ other, other ≠ name ∧ Source.bindsBefore texts k other = true) ∧
        (Source.namesAt texts k).head? ≠ some name) ∧
    (∀ existing address,
      ⟨some (k + 1), .redundantLabel name existing address⟩ ∈ (scan config texts).diagnostics →
        address = Source.offset texts k ∧ existing ≠ name ∧
          Source.bindsBefore texts k existing = true) ∧
    (scan config texts).diagnostics.filter
        (fun d => d.line == some (k + 1) && d.problem.isRedundant) =
      (((Source.namesAt texts k).head?.filter (· != name)).map fun existing =>
        ⟨some (k + 1), .redundantLabel name existing (Source.offset texts k)⟩).toList := by
  have hbound : ∀ existing, (Source.namesAt texts k).head? = some existing →
      Source.bindsBefore texts k existing = true := by
    intro existing hfirst
    exact (Source.mem_namesAt texts k).1 (List.mem_of_head? hfirst)
  simp only [mem_redundancies_scan config ht hp hl]
  refine ⟨⟨?_, ?_⟩, ?_, redundancies_scan config ht hp hl⟩
  · rintro ⟨existing, _, hfirst, hne, -⟩
    refine ⟨⟨existing, hne, hbound existing hfirst⟩, ?_⟩
    rw [hfirst]
    exact fun h => hne (Option.some.inj h)
  · rintro ⟨⟨other, -, hother⟩, hnot⟩
    have hne : Source.namesAt texts k ≠ [] :=
      List.ne_nil_of_mem ((Source.mem_namesAt texts k).2 hother)
    refine ⟨(Source.namesAt texts k).head hne, _, List.head?_eq_some_head hne, ?_, rfl⟩
    rintro rfl
    exact hnot (List.head?_eq_some_head hne)
  · rintro existing _ ⟨hfirst, hne, rfl⟩
    exact ⟨rfl, hne, hbound existing hfirst⟩

/-- Two labels at one offset, and then the second of them again. -/
def Source.secondAgain : List String :=
  ["a:", "b:", "b:"]

theorem scan_redundantLabels_secondAgain :
    Source.namesAt Source.secondAgain 2 = ["a", "b"] ∧
    ∃ existing address, ⟨some 3, .redundantLabel "b" existing address⟩ ∈
      (scan {} Source.secondAgain).diagnostics := by
  have hnames : Source.namesAt Source.secondAgain 2 = ["a", "b"] := by decide +kernel
  have htext : Source.secondAgain[2]? = some "b:" := rfl
  have hparse : Statement.parse "b:" = .ok ⟨some "b", none⟩ := by decide +kernel
  refine ⟨hnames, (scan_redundantLabels {} htext hparse rfl).1.2 ⟨⟨"a", by decide, ?_⟩, ?_⟩⟩
  · decide +kernel
  · rw [hnames]
    decide

/-- Two labels at one offset, and then the first of them again. -/
def Source.firstAgain : List String :=
  ["a:", "b:", "a:"]

/-- Of two labels at one offset, the one that was mentioned first is not reported when it is defined
there again. -/
theorem redundantLabel_not_reported :
    Source.firstAgain[2]? = some "a:" ∧ Statement.parse "a:" = .ok ⟨some "a", none⟩ ∧
    "b" ≠ "a" ∧ Source.bindsBefore Source.firstAgain 2 "b" = true ∧
    ∀ existing address, ⟨some 3, .redundantLabel "a" existing address⟩ ∉
      (scan {} Source.firstAgain).diagnostics := by
  have hdiagnostics : (scan {} Source.firstAgain).diagnostics =
      [⟨some 2, .redundantLabel "b" "a" 0⟩, ⟨some 3, .duplicateLabel "a" 1⟩] := by decide +kernel
  refine ⟨rfl, by decide +kernel, by decide, by decide +kernel, fun existing address => ?_⟩
  rw [hdiagnostics]
  simp

end ByteAssembler
