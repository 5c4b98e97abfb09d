import ByteAssembler.Proofs.Meaning

/-
  The final symbol table, said of the source alone. `Source` reads off the texts of the lines which
  names are mentioned and in which order, which line defines a name and how many bytes stand before
  it, and which line uses it first. `scan_symbols`: the table holds exactly these names in this
  order, each with its definition and its first use, and the index in a label operand leads to the
  name that its line has there.
-/

namespace ByteAssembler

/-- The names that a line mentions: its own label before those it uses. -/
def Line.mentions (l : Line) : List String :=
  l.label.toList ++ l.uses

theorem Line.map_name_updates (l : Line) (address line : Nat) :
    (l.updates address line).map (·.name) = l.mentions := by
  have huses : (l.uses.map (SymbolTable.Update.reference · line)).map (·.name) = l.uses := by
    rw [List.map_map]
    exact List.map_id _
  rw [updates, List.map_append, huses, mentions]
  cases l.label <;> rfl

/-- The names of the table, in the order in which the lines mention them first. -/
theorem Scan.run_names (config : Config) (lines : List Line) :
    (run config lines).symbols.names = (lines.flatMap (·.mentions)).eraseDups := by
  induction lines using List.reverseRecOn with
  | nil => rfl
  | append_singleton lines l ih =>
    rw [run_symbols_concat, SymbolTable.names_applyAll_eq_eraseDups ih, Line.map_name_updates,
      List.flatMap_append, List.flatMap_singleton]

/-! ## Sources -/

namespace Source

open Statement (counted)

/-- All mentions of names in a source, line by line. -/
def mentions (texts : List String) : List String :=
  texts.flatMap fun text => (counted text).label.toList ++ (counted text).labelOperands

/-- The position of the first line with a label. -/
def labelLine? (texts : List String) (name : String) : Option Nat :=
  texts.findIdx? fun text => (counted text).label == some name

/-- The position of the first line whose operation uses a label. -/
def useLine? (texts : List String) (name : String) : Option Nat :=
  texts.findIdx? fun text => (counted text).labelOperands.contains name

/-- The bytes of the operations before position `k`. -/
def bytesBefore (texts : List String) (k : Nat) : Nat :=
  ((texts.take k).map fun text => (counted text).byteLength).sum

/-- The offset at which a line stands: the bytes before it, as far as offsets go. -/
def offset (texts : List String) (k : Nat) : Nat :=
  min (bytesBefore texts k) 0xFFFF

variable (texts : List String)

theorem flatMap_mentions : (texts.map Line.read).flatMap (·.mentions) = mentions texts := by
  rw [List.flatMap_map]
  refine List.flatMap_congr fun text _ => ?_
  rw [Line.label_counted, Line.labelOperands_counted, Line.mentions]

/-- The bytes before a line, as the layout of the lines has them. -/
theorem bytesBefore_eq_offset (k : Nat) :
    bytesBefore texts k = Layout.offset ((texts.map Line.read).map (·.byteLength)) k := by
  rw [bytesBefore, Layout.offset, List.map_map, List.map_take]
  simp only [Line.byteLength_counted]
  rfl

theorem definition?_map_read (name : String) :
    Layout.definition? (texts.map Line.read) name =
      (labelLine? texts name).map fun k => ⟨offset texts k, k + 1⟩ := by
  have haddress : ∀ k, Layout.address (texts.map Line.read) k = offset texts k := by
    intro k
    rw [offset, bytesBefore_eq_offset]
    rfl
  unfold Layout.definition? labelLine?
  simp only [List.findIdx?_map, Line.label_counted, haddress]
  rfl

theorem firstUse?_map_read (name : String) :
    Layout.firstUse? (texts.map Line.read) name = (useLine? texts name).map (· + 1) := by
  unfold Layout.firstUse? useLine?
  simp only [List.findIdx?_map, Line.labelOperands_counted]
  rfl

end Source

/-- The entries of the final table. -/
theorem mem_scan_entries {config : Config} {texts : List String} {s : Symbol} :
    s ∈ (scan config texts).program.symbols.entries →
      s.definition = (Source.labelLine? texts s.name).map
          (fun k => ⟨Source.offset texts k, k + 1⟩) ∧
        s.firstUse = (Source.useLine? texts s.name).map (· + 1) := by
  intro hs
  rw [Scan.scan_eq_run] at hs
  obtain ⟨-, hd, hu⟩ := (Scan.mem_run_entries config _).1 hs
  rw [Source.definition?_map_read] at hd
  rw [Source.firstUse?_map_read] at hu
  exact ⟨hd.symm, hu.symm⟩

/-- A line is accepted, that is, an operation of it counts, exactly if the program has an
instruction of it. -/
theorem accepted_iff {config : Config} {texts : List String} {k : Nat} {text : String}
    (ht : texts[k]? = some text) :
    (∃ i ∈ (scan config texts).program.instructions, i.line = k + 1) ↔
      (Statement.counted text).operation ≠ none := by
  constructor
  · rintro ⟨i, hi, hline⟩
    obtain ⟨j, text', st, operation, ht', hline', hp, hv, ho, -⟩ := exists_makes_of_mem hi
    obtain rfl : j = k := by omega
    obtain rfl : text' = text := Option.some.inj (ht'.symm.trans ht)
    rw [Statement.counted_of_valid hp hv, ho]
    exact Option.some_ne_none operation
  · intro hne
    cases hplace : (Line.read text).instruction? (scan config texts).program.symbols.indexOf
        (Layout.address (texts.map Line.read) k) (k + 1) with
    | none => exact absurd (instruction?_eq_none_iff.1 hplace) hne
    | some i =>
      refine ⟨i, mem_scan_instructions.2 ⟨k, text, ht, hplace⟩, ?_⟩
      obtain ⟨m, operands, -, rfl⟩ := Line.instruction?_eq_some.1 hplace
      rfl

/-- **The table is what the source says.** Its names are those that the source mentions, without
repetition and in the order of their first mention. A name is defined by the first line that has it
as its label, at the sum of the bytes before that line, as far as offsets go; its first use is on
the first accepted line that has it as an operand. A line is accepted exactly if it has an
instruction, and the label operands of the instruction lead to the names that stand on the line. -/
theorem scan_symbols (config : Config) (texts : List String) :
    (scan config texts).program.symbols.names = (Source.mentions texts).eraseDups ∧
    (scan config texts).program.symbols.names.Nodup ∧
    (∀ s ∈ (scan config texts).program.symbols.entries,
      s.definedAt? = (Source.labelLine? texts s.name).map (· + 1) ∧
      s.address? = (Source.labelLine? texts s.name).map (Source.offset texts) ∧
      s.firstUse = (Source.useLine? texts s.name).map (· + 1)) ∧
    (∀ k text, texts[k]? = some text →
      ((∃ i ∈ (scan config texts).program.instructions, i.line = k + 1) ↔
        (Statement.counted text).operation ≠ none)) ∧
    ∀ i ∈ (scan config texts).program.instructions, ∃ k text operation,
      texts[k]? = some text ∧ i.line = k + 1 ∧
      (Statement.counted text).operation = some operation ∧
      ∀ j index : Nat, i.operands[j]? = some (.address (.label index)) →
        ∃ s, (scan config texts).program.symbols.get? index = some s ∧
          operation.operands[j]? = some s.name := by
  refine ⟨?_, ?_, ?_, fun k text ht => accepted_iff ht, ?_⟩
  · rw [Scan.scan_eq_run, ← Source.flatMap_mentions]
    exact Scan.run_names config _
  · rw [Scan.scan_eq_run]
    exact Scan.run_names_nodup config _
  · intro s hs
    obtain ⟨hd, hu⟩ := mem_scan_entries hs
    refine ⟨?_, ?_, hu⟩
    · rw [Symbol.definedAt?, hd, Option.map_map]
      rfl
    · rw [Symbol.address?, hd, Option.map_map]
      rfl
  · intro i hi
    obtain ⟨k, text, st, operation, ht, hline, hp, hv, ho, hmakes⟩ := exists_makes_of_mem hi
    refine ⟨k, text, operation, ht, hline, ?_, fun j index hj => hmakes.label hj⟩
    rw [Statement.counted_of_valid hp hv, ho]

/-- A label that is used before its line, one whose first definition is on a rejected line, and one
that only a rejected line uses. -/
def Source.sample : List String :=
  ["jmp end", "here: mov a", "ldr q ghost", "end: jz here", "here: nop"]

theorem scan_symbols_sample :
    Source.mentions Source.sample = ["end", "here", "end", "here", "here"] ∧
    (scan {} Source.sample).program.symbols.names = ["end", "here"] ∧
    (some 2 = (Source.labelLine? Source.sample "here").map (· + 1) ∧
      some 2 = (Source.labelLine? Source.sample "here").map (Source.offset Source.sample) ∧
      some 4 = (Source.useLine? Source.sample "here").map (· + 1)) ∧
    (Statement.counted "end: jz here").operation ≠ none ∧
    ∃ k text operation, Source.sample[k]? = some text ∧ 4 = k + 1 ∧
      (Statement.counted text).operation = some operation ∧
      ∃ s, (scan {} Source.sample).program.symbols.get? 1 = some s ∧
        operation.operands[0]? = some s.name := by
  obtain ⟨hnames, -, hentries, haccepted, hlabels⟩ := scan_symbols {} Source.sample
  have hmentions : Source.mentions Source.sample = ["end", "here", "end", "here", "here"] := by
    decide +kernel
  have hentry : (⟨"here", some ⟨2, 2⟩, some 4⟩ : Symbol) ∈
      (scan {} Source.sample).program.symbols.entries := by decide +kernel
  have hjump : (⟨.jz, [.address (.label 1)], 2, 4⟩ : Instruction) ∈
      (scan {} Source.sample).program.instructions := by decide +kernel
  refine ⟨hmentions, ?_, hentries _ hentry, (haccepted 3 _ rfl).1 ⟨_, hjump, rfl⟩, ?_⟩
  · rw [hnames, hmentions]
    decide
  · obtain ⟨k, text, operation, ht, hline, ho, hlabel⟩ := hlabels _ hjump
    exact ⟨k, text, operation, ht, hline, ho, hlabel 0 1 rfl⟩

end ByteAssembler
