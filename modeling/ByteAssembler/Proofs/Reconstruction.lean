import ByteAssembler.Proofs.Addresses
import ByteAssembler.Proofs.ListingText
import ByteAssembler.Proofs.Meaning
import ByteAssembler.Proofs.Relisting

/-
  A program can be written down again. `Program.source?` makes a source of a program alone: before
  each instruction a line for every label at its address, then the instruction as the listing shows
  it, and at the end the labels that stand after the last instruction. For the program of a source
  that is accepted these are the code and the bindings of that source, put down in a new order
  (`map_read_codeLines`). Sources with the same code and the same bindings are accepted together,
  and no listing, byte or address tells them apart (`assemble_reconstructed`).
-/

namespace ByteAssembler

/-- The names of the labels at an address, in the order of the table. -/
def SymbolTable.namesAt (t : SymbolTable) (address : Nat) : List String :=
  (t.entries.filter (·.address? == some address)).map (·.name)

theorem SymbolTable.mem_namesAt {t : SymbolTable} {address : Nat} {name : String} :
    name ∈ t.namesAt address ↔ ∃ s ∈ t.entries, s.address? = some address ∧ s.name = name := by
  simp [namesAt, and_assoc]

theorem SymbolTable.nodup_namesAt {t : SymbolTable} (h : t.names.Nodup) (address : Nat) :
    (t.namesAt address).Nodup :=
  h.sublist (List.filter_sublist.map _)

namespace Program

/-- A line for each label at an address. -/
def labelLines (symbols : SymbolTable) (address : Nat) : List String :=
  (symbols.namesAt address).map (· ++ ":")

/-- The labels at the address of an instruction, and its listing line without the address. -/
def instructionLines? (symbols : SymbolTable) (i : Instruction) : Option (List String) :=
  (Listing.line? symbols i).map fun line =>
    labelLines symbols i.address ++ [String.ofList (Listing.afterStamp line.toList)]

/-- The lines of a source for a program; there are none if it has no listing. -/
def sourceLines? (p : Program) : Option (List String) :=
  (p.instructions.mapM (instructionLines? p.symbols)).map fun blocks =>
    blocks.flatten ++ labelLines p.symbols p.size

/-- The text of a source for a program. -/
def source? (p : Program) : Option String :=
  p.sourceLines?.map Text.unlines

end Program

/-! ## The program of an accepted source -/

theorem Line.exists_parse_of_label {text name : String} (h : (Line.read text).label = some name) :
    ∃ statement, Statement.parse text = .ok statement ∧ statement.label = some name := by
  unfold Line.read at h
  split at h
  · next statement hparse => exact ⟨statement, hparse, h⟩
  · cases h

/-- A label that is used is an operand that does not start like a number. -/
theorem Statement.exists_of_mem_labelOperands {statement : Statement} {name : String}
    (h : name ∈ statement.labelOperands) :
    ∃ operation, statement.operation = some operation ∧ name ∈ operation.operands ∧
      Operand.startsNumber name = false := by
  unfold labelOperands at h
  split at h
  · next operation ho =>
    split at h
    · obtain ⟨⟨kind, token⟩, hpair, hname⟩ := List.mem_filterMap.1 h
      obtain ⟨⟨-, hstart⟩, hname⟩ := Option.ite_none_right_eq_some.1 hname
      obtain rfl := Option.some.inj hname
      exact ⟨operation, ho, (List.of_mem_zip hpair).2, by simpa using hstart⟩
    · cases h
  · cases h

section Accepted

variable {config : Config} {texts : List String}

/-- A label of a line is a word. -/
theorem isWord_of_bindings {name : String} {a : Nat}
    (h : (name, a) ∈ Layout.bindings 0 (texts.map Line.read)) :
    Text.isWord name.toList = true := by
  obtain ⟨k, hk, -⟩ := Layout.mem_bindings.1 h
  obtain ⟨l, hl, hlabel⟩ := List.mem_map.1 (List.mem_of_getElem? hk)
  obtain ⟨text, -, rfl⟩ := List.mem_map.1 hl
  obtain ⟨statement, hparse, hname⟩ := Line.exists_parse_of_label hlabel
  exact Statement.isWord_of_parse hparse hname

/-- The instructions of the code have the operands that they take. -/
theorem fits_of_mem_code {item : Layout.Item} (h : item ∈ Layout.code 0 (texts.map Line.read)) :
    item.operands.map Operand.kind = item.mnemonic.signature := by
  obtain ⟨l, hl, hbody⟩ := Layout.mem_code h
  exact fits_of_mem_map_read hl _ _ hbody

theorem line?_of_mem_code {item : Layout.Item}
    (h : item ∈ Layout.code 0 (texts.map Line.read)) (line : Nat) :
    Listing.line? (scan config texts).program.symbols
        (item.instruction (scan config texts).program.symbols.indexOf line) =
      some (Listing.lineText item.offset item.mnemonic item.operands) := by
  refine Listing.line?_mapLabel (fun o ho name hname => ?_) _ _ _
  have huse := Layout.mem_uses_of_mem_code h ho hname
  rw [Scan.scan_eq_run]
  exact (Scan.mem_run_names config _).2 (Layout.mentioned_iff.2 (Or.inr huse))

/-- A source is accepted if no line is rejected and the layout has no faults. -/
theorem not_failed_iff_layout :
    (scan config texts).failed = false ↔
      (∀ l ∈ texts.map Line.read, ∀ ps, l.body ≠ .rejected ps) ∧
        Layout.WellFormed config ((texts.map Line.read).map (·.label))
          ((texts.map Line.read).map (·.byteLength)) ((texts.map Line.read).flatMap (·.uses)) := by
  rw [Scan.scan_eq_run]
  exact Scan.not_failed_iff_wellFormed fun _ => Line.rejectsForCause_of_mem_map_read

variable (hok : (scan config texts).failed = false)

include hok

theorem wellFormed_of_not_failed :
    Layout.WellFormed config ((texts.map Line.read).map (·.label))
      ((texts.map Line.read).map (·.byteLength)) ((texts.map Line.read).flatMap (·.uses)) :=
  (not_failed_iff_layout.1 hok).2

/-- A label that is used is a word and does not start like a number. -/
theorem isLabel_of_uses {name : String} (h : name ∈ (texts.map Line.read).flatMap (·.uses)) :
    Listing.IsLabel name := by
  constructor
  · have hlabel := (wellFormed_of_not_failed hok).defined name h
    obtain ⟨b, hb, rfl⟩ := List.mem_map.1 (Layout.label_mem_iff.1 hlabel)
    exact isWord_of_bindings hb
  · obtain ⟨l, hl, hname⟩ := List.mem_flatMap.1 h
    obtain ⟨text, -, rfl⟩ := List.mem_map.1 hl
    rw [← Line.labelOperands_counted] at hname
    obtain ⟨-, -, -, hstart⟩ := Statement.exists_of_mem_labelOperands hname
    exact hstart

/-- The labels at an address are those bound to it. -/
theorem mem_namesAt_iff {name : String} {a : Nat} :
    name ∈ (scan config texts).program.symbols.namesAt a ↔
      (name, a) ∈ Layout.bindings 0 (texts.map Line.read) := by
  have hwf := wellFormed_of_not_failed hok
  rw [← Layout.map_address_definition? hwf.distinct hwf.size_le, SymbolTable.mem_namesAt,
    Scan.scan_eq_run]
  constructor
  · rintro ⟨s, hs, haddress, rfl⟩
    obtain ⟨-, hdefinition, -⟩ := (Scan.mem_run_entries config _).1 hs
    rwa [hdefinition]
  · intro h
    have hname : Layout.Mentioned (texts.map Line.read) name := by
      rw [Layout.map_address_definition? hwf.distinct hwf.size_le] at h
      exact Layout.mentioned_iff.2 (Or.inl (Layout.label_mem_iff.2 (List.mem_map_of_mem h)))
    refine ⟨⟨name, _, Layout.firstUse? (texts.map Line.read) name⟩, ?_, h, rfl⟩
    exact (Scan.mem_run_entries config _).2 ⟨hname, rfl, rfl⟩

/-- What is read off the instructions without their line numbers is read off the code. -/
theorem map_program_instructions {β : Type} {g : Instruction → β} {f : Layout.Item → β}
    (h : ∀ item ∈ Layout.code 0 (texts.map Line.read), ∀ line,
      g (item.instruction (scan config texts).program.symbols.indexOf line) = f item) :
    (scan config texts).program.instructions.map g =
      (Layout.code 0 (texts.map Line.read)).map f := by
  have hsize := (wellFormed_of_not_failed hok).size_le
  rw [Scan.scan_eq_run] at h ⊢
  have hrun := Scan.run_instructions config (texts.map Line.read)
  refine Eq.trans ?_ (Layout.map_instructions hsize h)
  exact congrArg (List.map g) hrun

/-- What the instructions of the code have as labels can be read as labels again. -/
theorem isLabel_of_mem_code {item : Layout.Item}
    (h : item ∈ Layout.code 0 (texts.map Line.read)) :
    ∀ o ∈ item.operands, ∀ name, o.label? = some name → Listing.IsLabel name := by
  intro o ho name hname
  exact isLabel_of_uses hok (Layout.mem_uses_of_mem_code h ho hname)

/-- What is made of the instructions one by one is made of the code. -/
theorem mapM_program_instructions {β : Type} {g : Instruction → Option β} {f : Layout.Item → β}
    (h : ∀ item ∈ Layout.code 0 (texts.map Line.read), ∀ line,
      g (item.instruction (scan config texts).program.symbols.indexOf line) = some (f item)) :
    (scan config texts).program.instructions.mapM g =
      some ((Layout.code 0 (texts.map Line.read)).map f) := by
  have hmap := map_program_instructions hok h
  calc (scan config texts).program.instructions.mapM g
      = ((scan config texts).program.instructions.map g).mapM id := by rw [List.mapM_map]; rfl
    _ = ((Layout.code 0 (texts.map Line.read)).map fun item => some (f item)).mapM id := by
      rw [hmap]
    _ = some ((Layout.code 0 (texts.map Line.read)).map f) := by
      rw [List.mapM_map]
      exact mapM_eq_pure_map fun _ _ => rfl

/-- The listing shows the code. -/
theorem listing_eq_code :
    Listing.lines? (scan config texts).program =
      some ((Layout.code 0 (texts.map Line.read)).map fun item =>
        Listing.lineText item.offset item.mnemonic item.operands) :=
  mapM_program_instructions hok fun _ hitem line => line?_of_mem_code hitem line

/-- Every label of an accepted source has an address. -/
theorem exists_address_of_mem {s : Symbol} (h : s ∈ (scan config texts).program.symbols.entries) :
    ∃ address, s.address? = some address := by
  rw [Scan.scan_eq_run] at hok h
  obtain ⟨hname, hdefinition, -⟩ := (Scan.mem_run_entries config _).1 h
  obtain ⟨d, hd, -⟩ := ((Scan.finish_not_failed_iff config _).1 hok).2 s.name hname
  exact ⟨d.address, by rw [Symbol.address?, ← hdefinition, hd]; rfl⟩

/-! ## Sources with the same code and the same bindings -/

section SameCode

variable {texts' : List String}
  (h : Layout.SameCode (texts.map Line.read) (texts'.map Line.read))

include h

theorem not_failed_of_sameCode
    (hbody : ∀ l ∈ texts'.map Line.read, ∀ ps, l.body ≠ .rejected ps) :
    (scan config texts').failed = false :=
  not_failed_iff_layout.2 ⟨hbody, h.wellFormed (wellFormed_of_not_failed hok)⟩

variable (hok' : (scan config texts').failed = false)

include hok'

theorem listing_of_sameCode :
    Listing.lines? (scan config texts').program = Listing.lines? (scan config texts).program := by
  rw [listing_eq_code hok, listing_eq_code hok', h.code_eq]

theorem exists_symbol_of_sameCode {s : Symbol}
    (hs : s ∈ (scan config texts).program.symbols.entries) :
    ∃ address, s.address? = some address ∧
      ∃ s' ∈ (scan config texts').program.symbols.entries,
        s'.name = s.name ∧ s'.address? = some address := by
  obtain ⟨address, haddress⟩ := exists_address_of_mem hok hs
  have hbinding : (s.name, address) ∈ Layout.bindings 0 (texts.map Line.read) :=
    (mem_namesAt_iff hok).1 (SymbolTable.mem_namesAt.2 ⟨s, hs, haddress, rfl⟩)
  have hname := (mem_namesAt_iff hok').2 (h.bindings_perm.mem_iff.2 hbinding)
  obtain ⟨s', hs', haddress', hname'⟩ := SymbolTable.mem_namesAt.1 hname
  exact ⟨address, haddress, s', hs', hname', haddress'⟩

end SameCode

end Accepted

/-! ## The new source -/

/-- The lines of an instruction of the code, its labels first. -/
def Layout.Item.lines (symbols : SymbolTable) (item : Item) : List String :=
  Program.labelLines symbols item.offset ++ [Listing.instructionText item.mnemonic item.operands]

/-- The lines of the code, and the labels at its end. -/
def Layout.codeLines (symbols : SymbolTable) (items : List Item) (size : Nat) : List String :=
  items.flatMap (·.lines symbols) ++ Program.labelLines symbols size

section NewSource

variable {config : Config} {texts : List String} (hok : (scan config texts).failed = false)

include hok

/-- The new source has the lines of the code. -/
theorem sourceLines?_eq_codeLines :
    (scan config texts).program.sourceLines? =
      some (Layout.codeLines (scan config texts).program.symbols
        (Layout.code 0 (texts.map Line.read)) (Layout.size (texts.map Line.read))) := by
  have hblocks := mapM_program_instructions hok
    (g := Program.instructionLines? (scan config texts).program.symbols)
    (f := (·.lines (scan config texts).program.symbols)) fun item hitem line => by
      rw [Program.instructionLines?, line?_of_mem_code hitem, Option.map_some,
        Listing.afterStamp_lineText]
      rfl
  rw [Program.sourceLines?, hblocks, size_scan_program]
  rfl

theorem isWord_of_mem_namesAt {name : String} {a : Nat}
    (h : name ∈ (scan config texts).program.symbols.namesAt a) : Text.isWord name.toList = true :=
  isWord_of_bindings ((mem_namesAt_iff hok).1 h)

theorem map_read_labelLines (a : Nat) :
    (Program.labelLines (scan config texts).program.symbols a).map Line.read =
      ((scan config texts).program.symbols.namesAt a).map Layout.labelLine := by
  rw [Program.labelLines, List.map_map]
  refine List.map_congr_left fun name hname => ?_
  rw [Function.comp_apply, Line.read, Statement.parse_label (isWord_of_mem_namesAt hok hname)]
  rfl

/-- The new source puts down the code and the bindings of the old one. -/
theorem map_read_codeLines :
    (Layout.codeLines (scan config texts).program.symbols
        (Layout.code 0 (texts.map Line.read)) (Layout.size (texts.map Line.read))).map Line.read =
      Layout.relist (scan config texts).program.symbols.namesAt
        (Layout.code 0 (texts.map Line.read)) (Layout.size (texts.map Line.read)) := by
  have hitem : ∀ item ∈ Layout.code 0 (texts.map Line.read),
      (item.lines (scan config texts).program.symbols).map Line.read =
        Layout.block (scan config texts).program.symbols.namesAt item := by
    intro item hitem
    rw [Layout.Item.lines, List.map_append, map_read_labelLines hok, List.map_singleton,
      Listing.read_instructionText (isLabel_of_mem_code hok hitem) (fits_of_mem_code hitem)]
    rfl
  rw [Layout.codeLines, List.map_append, map_read_labelLines hok, List.map_flatMap,
    List.flatMap_congr hitem]
  rfl

/-- No line of the new source has a line end in it: there are only colons, blanks and word
characters. -/
theorem lineEnds_codeLines {line : String}
    (h : line ∈ Layout.codeLines (scan config texts).program.symbols
      (Layout.code 0 (texts.map Line.read)) (Layout.size (texts.map Line.read))) :
    '\n' ∉ line.toList ∧ '\r' ∉ line.toList := by
  have hchars : ∀ c ∈ line.toList, c = ':' ∨ c = ' ' ∨ Text.isWordChar c = true := by
    have hlabel : ∀ a, line ∈ Program.labelLines (scan config texts).program.symbols a →
        ∀ c ∈ line.toList, c = ':' ∨ c = ' ' ∨ Text.isWordChar c = true := by
      intro a hline c hc
      obtain ⟨name, hname, rfl⟩ := List.mem_map.1 hline
      have hword := (Text.isWord_iff.1 (isWord_of_mem_namesAt hok hname)).2
      rw [String.toList_append, List.mem_append] at hc
      rcases hc with hc | hc
      · exact Or.inr (Or.inr (hword c hc))
      · exact Or.inl (List.mem_singleton.1 hc)
    rcases List.mem_append.1 h with h | h
    · obtain ⟨item, hitem, h⟩ := List.mem_flatMap.1 h
      rcases List.mem_append.1 h with h | h
      · exact hlabel _ h
      · intro c hc
        rw [List.mem_singleton.1 h] at hc
        exact Or.inr (Listing.instructionText_chars (isLabel_of_mem_code hok hitem) hc)
    · exact hlabel _ h
  exact ⟨fun hc => absurd (hchars _ hc) (by decide), fun hc => absurd (hchars _ hc) (by decide)⟩

end NewSource

/-- **A program can be written down again.** If a source is assembled with success, so is the source
made of its program alone, under the same settings; it gives the same bytes, the same listing, and
the same address for every label. -/
theorem assemble_reconstructed {config : Config} {source : String} {a : Assembly}
    (h : assemble config source = .ok a) (hs : a.success = true) :
    ∃ text b rendered, a.program.source? = some text ∧ assemble config text = .ok b ∧
      b.success = true ∧ b.bytes = a.bytes ∧
      Listing.lines? a.program = some rendered ∧ Listing.lines? b.program = some rendered ∧
      ∀ s ∈ a.program.symbols.entries, ∃ address, s.address? = some address ∧
        ∃ s' ∈ b.program.symbols.entries, s'.name = s.name ∧ s'.address? = some address := by
  rw [assemble, assembleLines_eq] at h
  obtain rfl := Except.ok.inj h
  have hok : (scan config (Text.lines source)).failed = false := by
    simpa using hs
  have hwf := wellFormed_of_not_failed hok
  have hnodup : (scan config (Text.lines source)).program.symbols.names.Nodup := by
    rw [Scan.scan_eq_run]
    exact Scan.run_names_nodup config _
  have hsource := sourceLines?_eq_codeLines hok
  have hread := map_read_codeLines hok
  have hlines := Text.lines_unlines fun line hline => lineEnds_codeLines hok hline
  generalize Layout.codeLines _ _ _ = texts' at hsource hread hlines
  have hsame : Layout.SameCode ((Text.lines source).map Line.read) (texts'.map Line.read) := by
    rw [hread]
    exact Layout.sameCode_relist hwf.distinct (SymbolTable.nodup_namesAt hnodup)
      fun name a => mem_namesAt_iff hok
  have hok' : (scan config texts').failed = false := by
    refine not_failed_of_sameCode hok hsame ?_
    rw [hread]
    exact fun l hl => Layout.body_relist _ hl
  refine ⟨Text.unlines texts', _, _, ?_, by rw [assemble, hlines, assembleLines_eq], ?_, ?_,
    listing_eq_code hok, ?_, ?_⟩
  · rw [Program.source?, hsource]
    rfl
  · simpa using hok'
  · simpa [hok, hok'] using hsame.machineCode_eq hwf
  · exact (listing_of_sameCode hok hsame hok').trans (listing_eq_code hok)
  · exact fun s hs => exists_symbol_of_sameCode hok hsame hok' hs

/-- Two labels at the first instruction and two at the end, one of them used before the other is
mentioned. -/
def Source.labelled : String :=
  "größe:\nalso: jmp again ; over the rest\n  mvi a, -1\nldr B größe\nend:\nagain:"

theorem assemble_reconstructed_labelled :
    ∃ a, assemble {} Source.labelled = .ok a ∧ a.success = true ∧
      ∃ text b rendered,
        text = "größe:\nalso:\nJMP again\nMVI A 0xff\nLDR B größe\nagain:\nend:\n" ∧
        a.program.source? = some text ∧ assemble {} text = .ok b ∧ b.success = true ∧
        b.bytes = a.bytes ∧ a.bytes = [0xE0, 6, 0x08, 0xFF, 0x21, 0] ∧
        Listing.lines? a.program = some rendered ∧ Listing.lines? b.program = some rendered ∧
        ∀ s ∈ a.program.symbols.entries, ∃ address, s.address? = some address ∧
          ∃ s' ∈ b.program.symbols.entries, s'.name = s.name ∧ s'.address? = some address := by
  have h : assemble {} Source.labelled =
      .ok ⟨(scan {} (Text.lines Source.labelled)).diagnostics, true,
        [0xE0, 6, 0x08, 0xFF, 0x21, 0], (scan {} (Text.lines Source.labelled)).program⟩ := by
    decide +kernel
  have htext : (scan {} (Text.lines Source.labelled)).program.source? =
      some "größe:\nalso:\nJMP again\nMVI A 0xff\nLDR B größe\nagain:\nend:\n" := by
    decide +kernel
  obtain ⟨text, b, rendered, hsource, hb, hsuccess, hbytes, hlisting, hlisting', hsymbols⟩ :=
    assemble_reconstructed h rfl
  refine ⟨_, h, rfl, text, b, rendered, ?_, hsource, hb, hsuccess, hbytes, rfl, hlisting,
    hlisting', hsymbols⟩
  exact Option.some.inj (hsource.symm.trans htext)

end ByteAssembler
