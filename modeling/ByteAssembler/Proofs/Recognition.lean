import ByteAssembler.Proofs.Grammar

/-
  A line is read exactly if the grammar has it. What the reader cuts off and apart is put together
  again: blanks at the ends (`exists_trim`), words between blanks (`words_eq_cons`), pieces between
  commas (`padded_of_operandGroups`). So a text that was read as a statement is one of its spellings
  (`spells_of_parse`). With the converse (`parse_of_spells`) this makes reading and spelling the
  same relation (`parse_eq_ok_iff_spells`), and no line spells two statements.
-/

namespace ByteAssembler

namespace Text

/-! ## What was cut off -/

theorem exists_trimStart (text : List Char) :
    ∃ before, Blanks before ∧ text = before ++ trimStart text :=
  ⟨text.takeWhile isBlank, fun _ => List.mem_takeWhile_imp, List.takeWhile_append_dropWhile.symm⟩

theorem exists_trimEnd (text : List Char) :
    ∃ after, Blanks after ∧ text = trimEnd text ++ after := by
  refine ⟨(text.reverse.takeWhile isBlank).reverse, fun c hc => ?_, ?_⟩
  · exact List.mem_takeWhile_imp (List.mem_reverse.1 hc)
  · rw [trimEnd, ← List.reverse_append, List.takeWhile_append_dropWhile, List.reverse_reverse]

/-- A text is what is left of it between two runs of blanks. -/
theorem exists_trim (text : List Char) :
    ∃ before after, Blanks before ∧ Blanks after ∧ text = before ++ (trim text ++ after) := by
  obtain ⟨before, hb, hbefore⟩ := exists_trimStart text
  obtain ⟨after, ha, hafter⟩ := exists_trimEnd (trimStart text)
  refine ⟨before, after, hb, ha, ?_⟩
  rw [trim, ← hafter]
  exact hbefore

theorem head_trimStart (text : List Char) : ∀ c ∈ (trimStart text).head?, isBlank c = false := by
  intro c hc
  have hhead := List.head?_dropWhile_not isBlank text
  rwa [← trimStart, hc] at hhead

theorem head_trim (text : List Char) : ∀ c ∈ (trim text).head?, isBlank c = false := by
  intro c hc
  obtain ⟨after, -, hafter⟩ := exists_trimEnd (trimStart text)
  refine head_trimStart text c ?_
  rw [hafter, List.head?_append]
  exact Option.or_eq_some_iff.2 (Or.inl hc)

/-! ## Words -/

/-- A word ends at a blank, or with the text. -/
theorem head_dropWhile_word (text : List Char) :
    ∀ c ∈ (text.dropWhile (!isBlank ·)).head?, isBlank c = true := by
  intro c hc
  have hhead := List.head?_dropWhile_not (!isBlank ·) text
  rw [hc] at hhead
  simpa using hhead

/-- What stands before the first blank of a text that does not start with one. -/
theorem words_of_head {text : List Char} (hne : text ≠ [])
    (hhead : ∀ c ∈ text.head?, isBlank c = false) :
    words text = text.takeWhile (!isBlank ·) :: words (text.dropWhile (!isBlank ·)) := by
  have hword : ∀ c ∈ text.takeWhile (!isBlank ·), isBlank c = false := fun c hc => by
    simpa using List.mem_takeWhile_imp hc
  have hsome : text.takeWhile (!isBlank ·) ≠ [] := by
    obtain ⟨c, rest, rfl⟩ := List.exists_cons_of_ne_nil hne
    simp [hhead c rfl]
  have hone := words_eq_singleton hsome hword
  have hnext := head_dropWhile_word text
  conv_lhs => rw [← List.takeWhile_append_dropWhile (p := (!isBlank ·)) (l := text)]
  cases hrest : text.dropWhile (!isBlank ·) with
  | nil => rw [List.append_nil, hone]; rfl
  | cons c rest =>
    have hc : isBlank c = true := hnext c (by rw [hrest]; rfl)
    rw [words_append_cons hc, hone, words_cons hc]
    rfl

/-- A text without words consists of blanks. -/
theorem blanks_of_words {text : List Char} (h : words text = []) : Blanks text := by
  obtain ⟨before, hb, hbefore⟩ := exists_trimStart text
  by_cases hne : trimStart text = []
  · rw [hne, List.append_nil] at hbefore
    exact hbefore ▸ hb
  · rw [hbefore, words_append hb, words_of_head hne (head_trimStart text)] at h
    cases h

/-- The first word of a text stands after blanks, and a blank ends it. -/
theorem words_eq_cons {text word : List Char} {rest : List (List Char)}
    (h : words text = word :: rest) :
    ∃ gap after, Blanks gap ∧ text = gap ++ (word ++ after) ∧ words after = rest ∧
      ∀ c ∈ after.head?, isBlank c = true := by
  obtain ⟨gap, hgap, htext⟩ := exists_trimStart text
  have hne : trimStart text ≠ [] := by
    intro hnil
    rw [htext, hnil, words_append hgap] at h
    cases h
  rw [htext, words_append hgap, words_of_head hne (head_trimStart text)] at h
  obtain ⟨hword, hrest⟩ := List.cons.inj h
  refine ⟨gap, (trimStart text).dropWhile (!isBlank ·), hgap, ?_, hrest, head_dropWhile_word _⟩
  rw [← hword, List.takeWhile_append_dropWhile]
  exact htext

end Text

namespace Statement

open Text (Blanks)

/-! ## Operands -/

/-- Operands with blanks around them. -/
def Padded (tokens : List String) (text : List Char) : Prop :=
  ∃ gap core after, Blanks gap ∧ SpellsOperands tokens core ∧ Blanks after ∧
    text = gap ++ (core ++ after)

/-- If a text with operands starts with a blank, there are blanks before the operands. -/
theorem Padded.exists_gap {tokens : List String} {text : List Char} (h : Padded tokens text)
    (hhead : ∀ c ∈ text.head?, Text.isBlank c = true) :
    ∃ gap core after, gap ≠ [] ∧ Blanks gap ∧ SpellsOperands tokens core ∧ Blanks after ∧
      text = gap ++ (core ++ after) := by
  obtain ⟨gap, core, after, hgap, hcore, hafter, rfl⟩ := h
  refine ⟨gap, core, after, ?_, hgap, hcore, hafter, rfl⟩
  rintro rfl
  obtain ⟨c, core, rfl⟩ := List.exists_cons_of_ne_nil hcore.ne_nil
  have hblank := hhead c rfl
  rw [hcore.trimmed.head c rfl] at hblank
  cases hblank

theorem SpellsOperands.append {tokens more : List String} {text separator rest : List Char}
    (h : SpellsOperands tokens text) (hs : Separator separator) (hmore : SpellsOperands more rest) :
    SpellsOperands (tokens ++ more) (text ++ (separator ++ rest)) := by
  induction h with
  | one h => exact .more h hs hmore
  | more h hs' _ ih =>
    have hspells := SpellsOperands.more h hs' ih
    simpa using hspells

/-- The words of a piece, if all of them are operands, are spelled by the piece. -/
theorem padded_of_words {piece : List Char} {tokens : List (List Char)}
    (hwords : Text.words piece = tokens) (hne : tokens ≠ [])
    (h : ∀ token ∈ tokens, isOperand token = true) :
    Padded (tokens.map String.ofList) piece := by
  induction tokens generalizing piece with
  | nil => exact absurd rfl hne
  | cons token tokens ih =>
    obtain ⟨gap, rest, hgap, rfl, hrest, hhead⟩ := Text.words_eq_cons hwords
    have htoken : isOperand (String.ofList token).toList = true := by
      rw [String.toList_ofList]
      exact h token List.mem_cons_self
    have hlist : (String.ofList token).toList = token := String.toList_ofList
    cases tokens with
    | nil =>
      refine ⟨gap, _, rest, hgap, .one htoken, Text.blanks_of_words hrest, ?_⟩
      rw [hlist]
    | cons next tokens =>
      have hpadded := ih hrest (List.cons_ne_nil _ _) fun t ht => h t (List.mem_cons_of_mem token ht)
      -- A blank ended the first word, so the blanks after it separate it from the next.
      obtain ⟨gap', core, after, hgapne, hgap', hcore, hafter, rfl⟩ := hpadded.exists_gap hhead
      refine ⟨gap, _, after, hgap, .more htoken (.blanks hgapne hgap') hcore, hafter, ?_⟩
      rw [hlist]
      simp

/-- A comma joins two pieces, whatever blanks they have at their ends. -/
theorem Padded.comma {tokens more : List String} {text rest : List Char}
    (h : Padded tokens text) (hmore : Padded more rest) :
    Padded (tokens ++ more) (text ++ ',' :: rest) := by
  obtain ⟨gap, core, after, hgap, hcore, hafter, rfl⟩ := h
  obtain ⟨gap', core', after', hgap', hcore', hafter', rfl⟩ := hmore
  refine ⟨gap, _, after', hgap, hcore.append (.comma hafter hgap') hcore', hafter', ?_⟩
  simp

theorem padded_of_operandGroup {piece : List Char} {tokens : List String}
    (h : operandGroup piece = .ok tokens) : Padded tokens piece := by
  have hne : Text.words piece ≠ [] := by
    intro hnil
    rw [operandGroup, hnil] at h
    cases h
  have hoperand : ∀ token ∈ Text.words piece, isOperand token = true := by
    intro token htoken
    unfold operandGroup at h
    split at h
    · cases h
    · obtain ⟨_, -, hok⟩ := List.mem_map.1 (map_eq_of_mapM_eq_ok h ▸ List.mem_map_of_mem htoken)
      by_contra hnot
      rw [if_neg hnot] at hok
      cases hok
  obtain rfl := Except.ok.inj (h.symm.trans (operandGroup_of_words hne hoperand))
  exact padded_of_words rfl hne hoperand

/-- Pieces that were read one by one, with commas between them. -/
theorem padded_of_operandGroups {pieces : List (List Char)} {groups : List (List String)}
    (hne : pieces ≠ []) (h : pieces.map operandGroup = groups.map .ok) :
    Padded groups.flatten ([','].intercalate pieces) := by
  induction pieces generalizing groups with
  | nil => exact absurd rfl hne
  | cons piece pieces ih =>
    obtain ⟨tokens, groups, rfl, hpiece, hpieces⟩ := List.map_eq_cons_iff.1 h.symm
    have hpadded := padded_of_operandGroup hpiece.symm
    cases pieces with
    | nil =>
      obtain rfl := List.map_eq_nil_iff.1 hpieces
      simpa using hpadded
    | cons next pieces =>
      have hrest := ih (List.cons_ne_nil _ _) hpieces.symm
      rw [List.intercalate_cons_cons, List.append_assoc, List.singleton_append, List.flatten_cons]
      exact hpadded.comma hrest

/-- What is read as operands spells them, or consists of blanks and is read as none. -/
theorem padded_of_parseOperands {text : List Char} {tokens : List String}
    (h : parseOperands text = .ok tokens) :
    tokens = [] ∧ Blanks text ∨ Padded tokens text := by
  unfold parseOperands at h
  split at h
  · next hblank =>
    cases h
    exact Or.inl ⟨rfl, List.all_eq_true.1 hblank⟩
  · cases hgroups : (text.splitOn ',').mapM operandGroup with
    | error fault =>
      rw [hgroups] at h
      cases h
    | ok groups =>
      rw [hgroups] at h
      cases h
      have hpadded := padded_of_operandGroups (List.splitOn_ne_nil ',' text)
        (map_eq_of_mapM_eq_ok hgroups)
      rw [List.intercalate_splitOn] at hpadded
      exact Or.inr hpadded

/-! ## Operations and labels -/

/-- What is read as an operation: nothing, or a mnemonic up to the first blank, and what is read as
operands after it. -/
theorem parseOperation_eq_ok {text : List Char} {operation : Option Operation}
    (hhead : ∀ c ∈ text.head?, Text.isBlank c = false)
    (h : parseOperation text = .ok operation) :
    text = [] ∧ operation = none ∨
      ∃ (mnemonic : String) (rest : List Char) (tokens : List String),
        text = mnemonic.toList ++ rest ∧ isMnemonic mnemonic.toList = true ∧
        (∀ c ∈ rest.head?, Text.isBlank c = true) ∧ parseOperands rest = .ok tokens ∧
        operation = some ⟨mnemonic, tokens⟩ := by
  unfold parseOperation at h
  dsimp only at h
  split at h
  · next hempty =>
    cases h
    exact Or.inl ⟨List.isEmpty_iff.1 hempty, rfl⟩
  · next hne =>
    split at h
    · next halpha =>
      cases hoperands : parseOperands (text.dropWhile (!Text.isBlank ·)) with
      | error fault =>
        rw [hoperands] at h
        cases h
      | ok tokens =>
        rw [hoperands] at h
        cases h
        refine Or.inr ⟨_, _, tokens, ?_, ?_, Text.head_dropWhile_word text, hoperands, rfl⟩
        · rw [String.toList_ofList, List.takeWhile_append_dropWhile]
        · rw [String.toList_ofList, isMnemonic_iff]
          refine ⟨?_, List.all_eq_true.1 halpha⟩
          obtain ⟨c, rest, rfl⟩ := List.exists_cons_of_ne_nil (mt List.isEmpty_iff.2 hne)
          simp [hhead c rfl]
    · cases h

/-- What is read as an operation spells it, up to blanks at the end. -/
theorem spells_of_parseOperation {text : List Char} {operation : Option Operation}
    (hhead : ∀ c ∈ text.head?, Text.isBlank c = false)
    (h : parseOperation text = .ok operation) :
    ∃ core after, SpellsOperation operation core ∧ Blanks after ∧ text = core ++ after := by
  obtain ⟨rfl, rfl⟩ | ⟨mnemonic, rest, tokens, rfl, hmnemonic, hblank, hoperands, rfl⟩ :=
    parseOperation_eq_ok hhead h
  · exact ⟨[], [], .absent, Text.blanks_nil, rfl⟩
  · rcases padded_of_parseOperands hoperands with ⟨rfl, hafter⟩ | hpadded
    · exact ⟨_, rest, .bare hmnemonic, hafter, rfl⟩
    · obtain ⟨gap, core, after, hne, hgap, hcore, hafter, rfl⟩ := hpadded.exists_gap hblank
      refine ⟨_, after, .operands hmnemonic hne hgap hcore, hafter, ?_⟩
      simp

/-- What is cut off as a label spells it, with blanks behind it. -/
theorem spells_of_splitLabel {text rest : List Char} {label : Option String}
    (hhead : ∀ c ∈ text.head?, Text.isBlank c = false)
    (h : splitLabel text = .ok (label, rest)) :
    ∃ labelText between, SpellsLabel label labelText ∧ Blanks between ∧
      text = labelText ++ (between ++ rest) ∧ ∀ c ∈ rest.head?, Text.isBlank c = false := by
  unfold splitLabel at h
  split at h
  · next hcolon =>
    dsimp only at h
    split at h
    · next hword =>
      cases h
      obtain ⟨between, hbetween, hrest⟩ :=
        Text.exists_trimStart ((text.dropWhile (· != ':')).drop 1)
      have hname : Text.isWord (String.ofList (text.takeWhile (· != ':'))).toList = true := by
        rwa [String.toList_ofList]
      -- The text has a colon, so what follows the name starts with it.
      have hdrop : text.dropWhile (· != ':') = ':' :: (text.dropWhile (· != ':')).drop 1 := by
        have hfirst := List.head?_dropWhile_not (· != ':') text
        cases hd : text.dropWhile (· != ':') with
        | nil =>
          have hall := List.dropWhile_eq_nil_iff.1 hd ':' (List.contains_iff_mem.1 hcolon)
          simp at hall
        | cons c rest =>
          rw [hd] at hfirst
          obtain rfl : c = ':' := by simpa using hfirst
          rfl
      refine ⟨_, between, .name hname, hbetween, ?_, Text.head_trimStart _⟩
      rw [← hrest, String.toList_ofList, List.append_assoc, List.singleton_append, ← hdrop,
        List.takeWhile_append_dropWhile]
    · cases h
  · cases h
    exact ⟨[], [], .absent, Text.blanks_nil, rfl, hhead⟩

/-! ## Lines -/

/-- **A line that is read as a statement spells it.** -/
theorem spells_of_parse {line : String} {statement : Statement} (h : parse line = .ok statement) :
    Spells statement line := by
  unfold parse code at h
  unfold Spells
  generalize line.toList.takeWhile (· != ';') = text at h ⊢
  cases hlabel : splitLabel (Text.trim text) with
  | error fault =>
    rw [hlabel] at h
    cases h
  | ok split =>
    obtain ⟨label, rest⟩ := split
    rw [hlabel] at h
    cases hoperation : parseOperation rest with
    | error fault =>
      simp only [bind, Except.bind, hoperation] at h
      cases h
    | ok operation =>
      simp only [bind, Except.bind, hoperation, pure, Except.pure] at h
      cases h
      obtain ⟨before, tail, hb, ht, htext⟩ := Text.exists_trim text
      obtain ⟨labelText, between, hl, hm, hcode, hhead⟩ :=
        spells_of_splitLabel (Text.head_trim text) hlabel
      obtain ⟨core, after, ho, ha, rfl⟩ := spells_of_parseOperation hhead hoperation
      have hspells := SpellsCode.mk hb hl hm ho (ha.append ht)
      rw [htext, hcode]
      simpa using hspells

/-- **The lines that are read are those of the grammar.** A line is read as a statement if and only
if it spells that statement: a label and an operation, written with blanks, separators and a
comment as the grammar has them. No line spells two statements. -/
theorem parse_eq_ok_iff_spells (line : String) :
    (∀ statement, parse line = .ok statement ↔ Spells statement line) ∧
      ∀ statement other, Spells statement line → Spells other line → statement = other := by
  refine ⟨fun statement => ⟨spells_of_parse, parse_of_spells⟩, fun statement other h h' => ?_⟩
  have hparse := (parse_of_spells h).symm.trans (parse_of_spells h')
  exact Except.ok.inj hparse

/-- A line with a label right before its mnemonic, blanks beyond ASCII, a comma between blanks and a
colon in its comment. -/
def crowdedLine : String :=
  "\t été_1:mvi\u00a0 a ,\u3000-0x10;x: y"

theorem parse_eq_ok_iff_spells_crowded :
    Spells ⟨some "été_1", some ⟨"mvi", ["a", "-0x10"]⟩⟩ crowdedLine ∧
      ∀ other, Spells other crowdedLine →
        ⟨some "été_1", some ⟨"mvi", ["a", "-0x10"]⟩⟩ = other := by
  obtain ⟨hiff, hunique⟩ := parse_eq_ok_iff_spells crowdedLine
  have hspells := (hiff ⟨some "été_1", some ⟨"mvi", ["a", "-0x10"]⟩⟩).1 (by decide +kernel)
  exact ⟨hspells, fun other => hunique _ other hspells⟩

end Statement

end ByteAssembler
