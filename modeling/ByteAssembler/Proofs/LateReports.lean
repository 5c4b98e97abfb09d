import ByteAssembler.Proofs.Correspondence
import ByteAssembler.Proofs.Duplicates

/-
  What is reported on a name when all lines are read. A name has at most one entry in the table, and
  an entry has at most one report, so the late reports on a name are those on its entry
  (`filter_lateReports`). `Source.lateReport?` says the same of the source: the name is used, and it
  is the label of no line or of one that stands too far. The first use is that of the program, too:
  its first instruction with an operand that leads to the name (`useLine?_scan`).
-/

namespace ByteAssembler

/-- Whether a problem is found on a name when all lines are read. -/
def Problem.isLateOn (name : String) : Problem → Bool
  | .undefinedLabel other => other == name
  | .labelOutOfRange other _ => other == name
  | _ => false

theorem Problem.origin_of_isLateOn {name : String} {p : Problem} (h : p.isLateOn name = true) :
    p.origin = .symbol := by
  cases p with
  | undefinedLabel _ => rfl
  | labelOutOfRange _ _ => rfl
  | _ => cases h

/-! ## Reports on an entry -/

theorem SymbolTable.filter_name {t : SymbolTable} (h : t.names.Nodup) (name : String) :
    t.entries.filter (·.name == name) =
      if name ∈ t.names then [⟨name, t.definition? name, t.firstUse? name⟩] else [] := by
  rw [entries_eq_map_names h, List.filter_map, Function.comp_def, List.filter_beq, h.count]
  split <;> rfl

namespace Scan

theorem isLateOn_of_lateReport? {symbol : Symbol} {d : Diagnostic}
    (h : lateReport? symbol = some d) (name : String) :
    d.problem.isLateOn name = (symbol.name == name) := by
  obtain ⟨-, rfl⟩ | ⟨address, -, -, -, rfl⟩ := lateReport?_cases h
  · rfl
  · rfl

/-- The late reports on a name are those on the entries of that name. -/
theorem filter_lateReports (symbols : List Symbol) (name : String) :
    (symbols.filterMap lateReport?).filter (·.problem.isLateOn name) =
      (symbols.filter (·.name == name)).filterMap lateReport? := by
  rw [List.filter_filterMap, List.filterMap_filter]
  refine List.filterMap_congr fun symbol _ => ?_
  cases hreport : lateReport? symbol with
  | none => simp
  | some d => simp [Option.filter, isLateOn_of_lateReport? hreport]

end Scan

/-! ## Reports on the source -/

/-- The late report on a name: it is due if an accepted line uses the name, and no line has it as
its label or the first that does stands beyond the addresses of a byte. -/
def Source.lateReport? (texts : List String) (name : String) : Option Diagnostic :=
  match useLine? texts name, labelLine? texts name with
  | none, _ => none
  | some k, none => some ⟨some (k + 1), .undefinedLabel name⟩
  | some k, some j =>
    if 0xFF < offset texts j then some ⟨some (k + 1), .labelOutOfRange name (offset texts j)⟩
    else none

theorem Source.lateReport?_cases {texts : List String} {name : String} {d : Diagnostic}
    (h : lateReport? texts name = some d) :
    ∃ k, useLine? texts name = some k ∧
      (labelLine? texts name = none ∧ d = ⟨some (k + 1), .undefinedLabel name⟩ ∨
        ∃ j, labelLine? texts name = some j ∧ 0xFF < offset texts j ∧
          d = ⟨some (k + 1), .labelOutOfRange name (offset texts j)⟩) := by
  unfold lateReport? at h
  cases huse : useLine? texts name with
  | none =>
    rw [huse] at h
    cases h
  | some k =>
    refine ⟨k, rfl, ?_⟩
    cases hlabel : labelLine? texts name with
    | none =>
      rw [huse, hlabel] at h
      exact Or.inl ⟨rfl, (Option.some.inj h).symm⟩
    | some j =>
      rw [huse, hlabel] at h
      obtain ⟨hlarge, hd⟩ := Option.ite_none_right_eq_some.1 h
      exact Or.inr ⟨j, rfl, hlarge, (Option.some.inj hd).symm⟩

/-- The report on the entry of a name, as the source has it. -/
theorem lateReport?_entry {texts : List String} {name : String}
    (h : Layout.Mentioned (texts.map Line.read) name) :
    Scan.lateReport? ⟨name, Layout.definition? (texts.map Line.read) name,
        Layout.firstUse? (texts.map Line.read) name⟩ = Source.lateReport? texts name := by
  -- a name without a label is in the table because it is used
  have hused : Layout.definition? (texts.map Line.read) name = none →
      Layout.firstUse? (texts.map Line.read) name ≠ none := by
    intro hnone
    have hlabel := Layout.definition?_eq_none_iff.1 hnone
    exact Layout.firstUse?_ne_none_iff.2 ((Layout.mentioned_iff.1 h).resolve_left hlabel)
  rw [Source.definition?_map_read, Source.firstUse?_map_read] at *
  unfold Scan.lateReport? Source.lateReport? Symbol.address?
  cases huse : Source.useLine? texts name with
  | none =>
    cases hlabel : Source.labelLine? texts name with
    | none =>
      rw [huse, hlabel] at hused
      exact absurd rfl (hused rfl)
    | some j => simp
  | some k =>
    cases Source.labelLine? texts name with
    | none => rfl
    | some j => simp [Source.offset]

theorem Source.lateReport?_of_not_mentioned {texts : List String} {name : String}
    (h : ¬Layout.Mentioned (texts.map Line.read) name) : lateReport? texts name = none := by
  have hnone : Layout.firstUse? (texts.map Line.read) name = none := by
    by_contra hused
    exact h (Layout.mentioned_iff.2 (Or.inr (Layout.firstUse?_ne_none_iff.1 hused)))
  rw [firstUse?_map_read, Option.map_eq_none_iff] at hnone
  rw [lateReport?, hnone]

/-- The late reports on a name, as the source has them. -/
theorem lateReports_scan (config : Config) (texts : List String) (name : String) :
    (scan config texts).diagnostics.filter (·.problem.isLateOn name) =
      (Source.lateReport? texts name).toList := by
  have hsort : ∀ report : Option Diagnostic,
      Diagnostic.sortByLine report.toList = report.toList := by
    intro report
    cases report <;> rfl
  rw [filter_scan_of_late config texts fun _ => Problem.origin_of_isLateOn,
    Scan.filter_lateReports, Scan.scan_eq_run]
  show Diagnostic.sortByLine (List.filterMap _ (List.filter _ (Scan.run _ _).symbols.entries)) = _
  rw [SymbolTable.filter_name (Scan.run_names_nodup config _), Scan.run_definition?,
    Scan.run_firstUse?]
  by_cases hm : Layout.Mentioned (texts.map Line.read) name
  · rw [if_pos ((Scan.mem_run_names config _).2 hm), List.filterMap_cons, List.filterMap_nil,
      lateReport?_entry hm, ← hsort]
    cases Source.lateReport? texts name <;> rfl
  · rw [if_neg (fun h => hm ((Scan.mem_run_names config _).1 h)),
      Source.lateReport?_of_not_mentioned hm]
    rfl

/-! ## First uses -/

/-- Whether an operand of an instruction leads to a name. -/
def Instruction.usesLabel (symbols : SymbolTable) (name : String) (i : Instruction) : Bool :=
  (i.operands.filterMap (·.label?)).any fun index => (symbols.get? index).any (·.name == name)

/-- The line of the first instruction that uses a name. -/
def Program.useLine? (p : Program) (name : String) : Option Nat :=
  (p.instructions.find? (·.usesLabel p.symbols name)).map (·.line)

/-- An instruction uses the labels of its line. -/
theorem Line.usesLabel_instruction? {symbols : SymbolTable} {l : Line}
    (hnames : ∀ name ∈ l.uses, name ∈ symbols.names) {address line : Nat} {i : Instruction}
    (hi : l.instruction? symbols.indexOf address line = some i) (name : String) :
    i.usesLabel symbols name = true ↔ name ∈ l.uses := by
  obtain ⟨m, operands, hb, rfl⟩ := Line.instruction?_eq_some.1 hi
  have hindices : (operands.map (·.mapLabel symbols.indexOf)).filterMap (·.label?) =
      l.uses.map symbols.indexOf := by
    rw [List.filterMap_map, Line.uses, hb, List.map_filterMap]
    exact List.filterMap_congr fun operand _ => Operand.label?_mapLabel _ operand
  have hleads : ∀ other ∈ l.uses,
      (symbols.get? (symbols.indexOf other)).any (·.name == name) = (other == name) := by
    intro other hother
    have hfind := SymbolTable.find?_eq_of_mem (hnames other hother)
    rw [SymbolTable.find?] at hfind
    rw [hfind]
    rfl
  rw [Instruction.usesLabel, hindices, List.any_map, List.any_eq_true]
  constructor
  · rintro ⟨other, hother, hany⟩
    rw [Function.comp_apply, hleads other hother, beq_iff_eq] at hany
    exact hany ▸ hother
  · intro hname
    exact ⟨name, hname, (hleads name hname).trans (beq_self_eq_true name)⟩

theorem Line.uses_of_instruction?_eq_none {index : String → Nat} {address line : Nat} {l : Line}
    (h : l.instruction? index address line = none) : l.uses = [] := by
  unfold instruction? at h
  unfold uses
  cases hb : l.body with
  | instruction m operands =>
    rw [hb] at h
    cases h
  | _ => rfl

/-- What the instruction of one line adds to the search for a use. -/
theorem Line.useLine?_instruction? {symbols : SymbolTable} {l : Line}
    (hnames : ∀ name ∈ l.uses, name ∈ symbols.names) (address line : Nat) (name : String) :
    Program.useLine? ⟨(l.instruction? symbols.indexOf address line).toList, symbols⟩ name =
      if name ∈ l.uses then some line else none := by
  unfold Program.useLine?
  cases hi : l.instruction? symbols.indexOf address line with
  | none =>
    rw [uses_of_instruction?_eq_none hi, if_neg List.not_mem_nil]
    rfl
  | some i =>
    have hiff := usesLabel_instruction? hnames hi name
    obtain ⟨m, operands, -, rfl⟩ := instruction?_eq_some.1 hi
    rw [Option.toList_some, List.find?_singleton]
    by_cases hu : name ∈ l.uses
    · rw [if_pos hu, if_pos (hiff.2 hu)]
      rfl
    · rw [if_neg hu, if_neg (fun h => hu (hiff.1 h))]
      rfl

/-- The first instruction that uses a name is that of the first line that does. -/
theorem Layout.useLine?_instructions {symbols : SymbolTable} (lines : List Line)
    (hnames : ∀ l ∈ lines, ∀ name ∈ l.uses, name ∈ symbols.names) (name : String) :
    Program.useLine? ⟨instructions symbols.indexOf lines, symbols⟩ name = firstUse? lines name := by
  induction lines using List.reverseRecOn with
  | nil => rfl
  | append_singleton lines l ih =>
    have hlines := ih fun l' hl' => hnames l' (List.mem_append_left _ hl')
    have hl := hnames l (List.mem_append_right _ (List.mem_singleton_self l))
    rw [instructions_concat, Program.useLine?, List.find?_append, Option.map_or, firstUse?_concat,
      ← hlines, ← Line.useLine?_instruction? hl (address lines lines.length)]
    rfl

theorem useLine?_scan (config : Config) (texts : List String) (name : String) :
    (scan config texts).program.useLine? name = (Source.useLine? texts name).map (· + 1) := by
  have hnames : ∀ l ∈ texts.map Line.read, ∀ name ∈ l.uses,
      name ∈ (Scan.run config (texts.map Line.read)).symbols.names := fun l hl name hu =>
    (Scan.mem_run_names config _).2 ⟨l, hl, Or.inr hu⟩
  rw [Scan.scan_eq_run]
  show Program.useLine? ⟨(Scan.run _ _).instructions.toList, (Scan.run _ _).symbols⟩ name = _
  rw [Scan.run_instructions, Layout.useLine?_instructions _ hnames, Source.firstUse?_map_read]

/-- **Late reports are exact.** A name that an accepted line uses is reported as undefined if no
line has it as its label, and as out of range if the first line that does stands at an offset above
`0xFF`, which the report carries. There is one such report, an error at the first accepted line that
uses the name, that is, at the line of the first instruction that does; on any other name there is
none. -/
theorem scan_lateReports (config : Config) (texts : List String) (name : String) :
    (scan config texts).diagnostics.filter (·.problem.isLateOn name) =
      (Source.lateReport? texts name).toList ∧
    (∀ d ∈ (scan config texts).diagnostics, d.problem.isLateOn name = true →
      d.severity = .error ∧ d.line = (scan config texts).program.useLine? name) ∧
    (scan config texts).program.useLine? name = (Source.useLine? texts name).map (· + 1) := by
  refine ⟨lateReports_scan config texts name, fun d hd hlate => ?_, useLine?_scan config texts name⟩
  have hreport : d ∈ (Source.lateReport? texts name).toList :=
    lateReports_scan config texts name ▸ List.mem_filter.2 ⟨hd, hlate⟩
  obtain ⟨k, huse, ⟨-, rfl⟩ | ⟨j, -, -, rfl⟩⟩ :=
    Source.lateReport?_cases (Option.mem_toList.1 hreport)
  · exact ⟨rfl, by rw [useLine?_scan, huse, Option.map_some]⟩
  · exact ⟨rfl, by rw [useLine?_scan, huse, Option.map_some]⟩

/-- A name without a line, one that only a rejected line uses, one that only a rejected line has as
its label, and one whose label stands right after the first 256 bytes. -/
def Source.fourNames : List String :=
  ["jmp nowhere", "ldr q ghost", "half: mov a", "jz half", "jmp far", "jmp nowhere"] ++
    List.replicate 124 "adi 1" ++ ["far:"]

theorem scan_lateReports_fourNames :
    (scan {} Source.fourNames).diagnostics.filter (·.problem.isLateOn "nowhere") =
      [⟨some 1, .undefinedLabel "nowhere"⟩] ∧
    (scan {} Source.fourNames).diagnostics.filter (·.problem.isLateOn "ghost") = [] ∧
    (scan {} Source.fourNames).diagnostics.filter (·.problem.isLateOn "half") = [] ∧
    (scan {} Source.fourNames).diagnostics.filter (·.problem.isLateOn "far") =
      [⟨some 5, .labelOutOfRange "far" 0x100⟩] ∧
    (⟨some 5, .labelOutOfRange "far" 0x100⟩ : Diagnostic).severity = .error ∧
    some 5 = (scan {} Source.fourNames).program.useLine? "far" := by
  have hnowhere : Source.lateReport? Source.fourNames "nowhere" =
      some ⟨some 1, .undefinedLabel "nowhere"⟩ := by decide +kernel
  have hghost : Source.lateReport? Source.fourNames "ghost" = none := by decide +kernel
  have hhalf : Source.lateReport? Source.fourNames "half" = none := by decide +kernel
  have hfar : Source.lateReport? Source.fourNames "far" =
      some ⟨some 5, .labelOutOfRange "far" 0x100⟩ := by decide +kernel
  have hreports := fun name => (scan_lateReports {} Source.fourNames name).1
  have hmem : ⟨some 5, .labelOutOfRange "far" 0x100⟩ ∈ (scan {} Source.fourNames).diagnostics := by
    have h : ⟨some 5, .labelOutOfRange "far" 0x100⟩ ∈
        (scan {} Source.fourNames).diagnostics.filter (·.problem.isLateOn "far") := by
      rw [hreports, hfar]
      exact List.mem_singleton_self _
    exact (List.mem_filter.1 h).1
  refine ⟨?_, ?_, ?_, ?_, (scan_lateReports {} Source.fourNames "far").2.1 _ hmem rfl⟩
  · rw [hreports, hnowhere, Option.toList_some]
  · rw [hreports, hghost, Option.toList_none]
  · rw [hreports, hhalf, Option.toList_none]
  · rw [hreports, hfar, Option.toList_some]

end ByteAssembler
