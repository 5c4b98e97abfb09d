import ByteAssembler.Proofs.Traversal
import ByteAssembler.Proofs.Words
import Mathlib.Data.List.Induction

/-
  The grammar of a line, as rules for writing a statement down:

      blank* [label ":"] blank* [mnemonic [blank+ operand (separator operand)*]] blank*

  where a separator is `blank+` or `blank* "," blank*`, and a comment may follow. A statement has
  many spellings, which differ in their blanks, separators and comments (`Statement.Spells`), and
  each of them is read back as that statement (`parse_of_spells`).
-/

namespace ByteAssembler

namespace Text

/-- A text of blanks, possibly none. -/
def Blanks (text : List Char) : Prop :=
  ∀ c ∈ text, isBlank c = true

instance (text : List Char) : Decidable (Blanks text) :=
  List.decidableBAll (fun c => isBlank c = true) text

theorem Blanks.append {text rest : List Char} (h : Blanks text) (hrest : Blanks rest) :
    Blanks (text ++ rest) :=
  List.forall_mem_append.2 ⟨h, hrest⟩

theorem blanks_nil : Blanks [] := by
  decide

/-! ## Cutting at blanks -/

theorem trimStart_append {blanks : List Char} (h : Blanks blanks) (text : List Char) :
    trimStart (blanks ++ text) = trimStart text :=
  List.dropWhile_append_of_pos h

theorem trimEnd_append {blanks : List Char} (h : Blanks blanks) (text : List Char) :
    trimEnd (text ++ blanks) = trimEnd text := by
  have hrev : ∀ c ∈ blanks.reverse, isBlank c = true := fun c hc => h c (List.mem_reverse.1 hc)
  rw [trimEnd, List.reverse_append, List.dropWhile_append_of_pos hrev, trimEnd]

theorem trimEnd_blanks {blanks : List Char} (h : Blanks blanks) : trimEnd blanks = [] :=
  trimEnd_append h []

theorem trimEnd_append_cons {c : Char} (h : isBlank c = false) (text rest : List Char) :
    trimEnd (text ++ c :: rest) = text ++ c :: trimEnd rest := by
  have hreverse : (text ++ c :: rest).reverse = rest.reverse ++ c :: text.reverse := by simp
  rw [trimEnd, hreverse, List.dropWhile_append]
  split
  · next hempty =>
    rw [trimEnd, List.isEmpty_iff.1 hempty, List.dropWhile_cons, if_neg (by simp [h])]
    simp
  · simp [trimEnd]

/-- Neither the first nor the last character is a blank. -/
structure Trimmed (text : List Char) : Prop where
  head : ∀ c ∈ text.head?, isBlank c = false
  last : ∀ c ∈ text.getLast?, isBlank c = false

namespace Trimmed

theorem of_forall {text : List Char} (h : ∀ c ∈ text, isBlank c = false) : Trimmed text :=
  ⟨fun c hc => h c (List.mem_of_mem_head? hc), fun c hc => h c (List.mem_of_mem_getLast? hc)⟩

/-- Only the ends count. -/
theorem append {text rest : List Char} (h : Trimmed text) (hrest : Trimmed rest) (hne : text ≠ [])
    (hne' : rest ≠ []) (middle : List Char) : Trimmed (text ++ (middle ++ rest)) := by
  obtain ⟨c, text, rfl⟩ := List.exists_cons_of_ne_nil hne
  have hlast : ((c :: text) ++ (middle ++ rest)).getLast? = rest.getLast? := by
    rw [← List.append_assoc, List.getLast?_append, List.getLast?_eq_some_getLast hne',
      Option.some_or]
  exact ⟨h.head, hlast ▸ hrest.last⟩

theorem trimStart_eq {text : List Char} (h : Trimmed text) : trimStart text = text := by
  cases text with
  | nil => rfl
  | cons c text => exact trimStart_of_head (h.head c rfl) text

theorem trimEnd_eq {text : List Char} (h : Trimmed text) : trimEnd text = text := by
  cases text using List.reverseRecOn with
  | nil => rfl
  | append_singleton front c => exact trimEnd_concat (h.last c (by simp)) front

end Trimmed

section Around

variable {before text after : List Char} (hb : Blanks before) (h : Trimmed text)
  (ha : Blanks after)

include hb h ha

/-- The blanks around a text are cut off, in whichever order. -/
theorem trimStart_trimEnd_eq : trimStart (trimEnd (before ++ (text ++ after))) = text := by
  rw [← List.append_assoc, trimEnd_append ha]
  cases text using List.reverseRecOn with
  | nil =>
    rw [List.append_nil, trimEnd_blanks hb]
    rfl
  | append_singleton front c =>
    rw [← List.append_assoc, trimEnd_concat (h.last c (by simp)), List.append_assoc,
      trimStart_append hb, h.trimStart_eq]

theorem trim_eq : trim (before ++ (text ++ after)) = text := by
  rw [trim, trimStart_append hb]
  cases text with
  | nil =>
    rw [List.nil_append, ← List.append_nil after, trimStart_append ha]
    rfl
  | cons c text =>
    rw [List.cons_append, trimStart_of_head (h.head c rfl), ← List.cons_append,
      trimEnd_append ha, h.trimEnd_eq]

end Around

/-- Words are separated by blanks. -/
theorem words_append_cons {c : Char} (h : isBlank c = true) (text rest : List Char) :
    words (text ++ c :: rest) = words text ++ words rest := by
  rw [words, List.splitOnP_append_cons text rest h, List.filter_append]
  rfl

theorem words_cons {c : Char} (h : isBlank c = true) (rest : List Char) :
    words (c :: rest) = words rest :=
  words_append_cons h [] rest

theorem words_append {blanks : List Char} (h : Blanks blanks) (rest : List Char) :
    words (blanks ++ rest) = words rest := by
  induction blanks with
  | nil => rfl
  | cons c blanks ih =>
    rw [List.cons_append, words_cons (h c List.mem_cons_self)]
    exact ih fun d hd => h d (List.mem_cons_of_mem _ hd)

theorem words_append_blanks {blanks : List Char} (h : Blanks blanks) (text : List Char) :
    words (text ++ blanks) = words text := by
  cases blanks with
  | nil => rw [List.append_nil]
  | cons c blanks =>
    have hrest : words (blanks ++ []) = [] :=
      words_append (fun d hd => h d (List.mem_cons_of_mem _ hd)) []
    rw [words_append_cons (h c List.mem_cons_self), ← List.append_nil blanks, hrest,
      List.append_nil]

/-- A text without blanks is one word. -/
theorem words_eq_singleton {text : List Char} (hne : text ≠ [])
    (h : ∀ c ∈ text, isBlank c = false) : words text = [text] := by
  rw [words, List.splitOnP_eq_singleton h, List.filter_cons_of_pos (by simpa using hne)]
  rfl

end Text

namespace Statement

open Text (Blanks)

/-! ## Spellings -/

/-- One or more ASCII letters. -/
def isMnemonic (text : List Char) : Bool :=
  !text.isEmpty && text.all Char.isAlpha

/-- What stands between two operands: blanks, or one comma with blanks around it. -/
inductive Separator : List Char → Prop
  | blanks {text : List Char} (hne : text ≠ []) (h : Blanks text) : Separator text
  | comma {before after : List Char} (hb : Blanks before) (ha : Blanks after) :
    Separator (before ++ ',' :: after)

/-- One or more operands with separators between them. -/
inductive SpellsOperands : List String → List Char → Prop
  | one {token : String} (h : isOperand token.toList = true) :
    SpellsOperands [token] token.toList
  | more {token : String} {tokens : List String} {separator text : List Char}
    (h : isOperand token.toList = true) (hs : Separator separator)
    (hrest : SpellsOperands tokens text) :
    SpellsOperands (token :: tokens) (token.toList ++ (separator ++ text))

/-- A mnemonic and its operands, or nothing. -/
inductive SpellsOperation : Option Operation → List Char → Prop
  | absent : SpellsOperation none []
  | bare {mnemonic : String} (h : isMnemonic mnemonic.toList = true) :
    SpellsOperation (some ⟨mnemonic, []⟩) mnemonic.toList
  | operands {mnemonic : String} {tokens : List String} {gap text : List Char}
    (h : isMnemonic mnemonic.toList = true) (hne : gap ≠ []) (hgap : Blanks gap)
    (htokens : SpellsOperands tokens text) :
    SpellsOperation (some ⟨mnemonic, tokens⟩) (mnemonic.toList ++ (gap ++ text))

/-- A label and its colon, or nothing. -/
inductive SpellsLabel : Option String → List Char → Prop
  | absent : SpellsLabel none []
  | name {name : String} (h : Text.isWord name.toList = true) :
    SpellsLabel (some name) (name.toList ++ [':'])

/-- The part of a line before its comment: a label and an operation, with blanks around them. -/
inductive SpellsCode : Statement → List Char → Prop
  | mk {label : Option String} {operation : Option Operation}
    {before labelText between operationText after : List Char} (hb : Blanks before)
    (hl : SpellsLabel label labelText) (hm : Blanks between)
    (ho : SpellsOperation operation operationText) (ha : Blanks after) :
    SpellsCode ⟨label, operation⟩ (before ++ (labelText ++ (between ++ (operationText ++ after))))

/-- The line spells the statement; a semicolon starts a comment. -/
def Spells (statement : Statement) (line : String) : Prop :=
  SpellsCode statement (line.toList.takeWhile (· != ';'))

/-! ## Characters of operands and operations -/

theorem isMnemonic_iff {text : List Char} :
    isMnemonic text = true ↔ text ≠ [] ∧ ∀ c ∈ text, c.isAlpha = true := by
  simp [isMnemonic]

theorem isWordChar_of_isAlpha {c : Char} (h : c.isAlpha = true) : Text.isWordChar c = true :=
  Text.isWordChar_of_isAlphanum (by simp [Char.isAlphanum, h])

/-- An operand is not empty and consists of word characters and minus signs. -/
theorem isOperand_chars {text : List Char} (h : isOperand text = true) :
    text ≠ [] ∧ ∀ c ∈ text, c = '-' ∨ Text.isWordChar c = true := by
  unfold isOperand at h
  split at h
  · refine ⟨List.cons_ne_nil _ _, fun c hc => ?_⟩
    rcases List.mem_cons.1 hc with rfl | hc
    · exact Or.inl rfl
    · exact Or.inr ((Text.isWord_iff.1 h).2 c hc)
  · obtain ⟨hne, hall⟩ := Text.isWord_iff.1 h
    exact ⟨hne, fun c hc => Or.inr (hall c hc)⟩

section OperandChars

variable {text : List Char} (h : isOperand text = true)

include h

theorem isBlank_of_mem_operand : ∀ c ∈ text, Text.isBlank c = false := by
  intro c hc
  rcases (isOperand_chars h).2 c hc with rfl | hword
  · decide
  · exact Text.isBlank_of_isWordChar hword

theorem ne_of_mem_operand {d : Char} (hminus : d ≠ '-') (hd : Text.isWordChar d = false) :
    ∀ c ∈ text, c ≠ d := by
  rintro c hc rfl
  rcases (isOperand_chars h).2 c hc with rfl | hword
  · exact hminus rfl
  · rw [hd] at hword
    cases hword

end OperandChars

namespace SpellsOperands

variable {tokens : List String} {text : List Char}

theorem isOperand (h : SpellsOperands tokens text) :
    ∀ token ∈ tokens, Statement.isOperand token.toList = true := by
  induction h with
  | one h => simpa using h
  | more h _ _ ih => simpa using ⟨h, ih⟩

theorem ne_nil (h : SpellsOperands tokens text) : text ≠ [] := by
  cases h with
  | one h => exact (isOperand_chars h).1
  | more h _ _ => simp [(isOperand_chars h).1]

theorem trimmed (h : SpellsOperands tokens text) : Text.Trimmed text := by
  induction h with
  | one h => exact .of_forall (isBlank_of_mem_operand h)
  | more h _ hrest ih =>
    exact .append (.of_forall (isBlank_of_mem_operand h)) ih (isOperand_chars h).1 hrest.ne_nil _

theorem ne_colon (h : SpellsOperands tokens text) : ∀ c ∈ text, c ≠ ':' := by
  have hblanks : ∀ {text : List Char}, Blanks text → ∀ c ∈ text, c ≠ ':' := by
    rintro text h c hc rfl
    exact absurd (h _ hc) (by decide)
  induction h with
  | one h => exact ne_of_mem_operand h (by decide) (by decide +kernel)
  | more h hs _ ih =>
    simp only [List.forall_mem_append]
    refine ⟨ne_of_mem_operand h (by decide) (by decide +kernel), ?_, ih⟩
    cases hs with
    | blanks _ hblank => exact hblanks hblank
    | comma hb ha =>
      simp only [List.forall_mem_append, List.forall_mem_cons]
      exact ⟨hblanks hb, by decide, hblanks ha⟩

end SpellsOperands

/-- A word is an operand. -/
theorem isOperand_of_isWord {text : List Char} (h : Text.isWord text = true) :
    isOperand text = true := by
  unfold isOperand
  split
  · next rest =>
    have hminus := (Text.isWord_iff.1 h).2 '-' List.mem_cons_self
    exact absurd hminus (by decide +kernel)
  · exact h

/-- Operands with one blank between them. -/
theorem spellsOperands_blank {token : String} {tokens : List String}
    (h : ∀ t ∈ token :: tokens, isOperand t.toList = true) :
    SpellsOperands (token :: tokens)
      (token.toList ++ tokens.flatMap fun t => ' ' :: t.toList) := by
  induction tokens generalizing token with
  | nil =>
    rw [List.flatMap_nil, List.append_nil]
    exact .one (h token List.mem_cons_self)
  | cons next tokens ih =>
    have hrest := ih fun t ht => h t (List.mem_cons_of_mem token ht)
    have hblank : Separator [' '] := .blanks (List.cons_ne_nil ' ' []) (by decide)
    have hmore := SpellsOperands.more (h token List.mem_cons_self) hblank hrest
    exact hmore

/-- An operation with one blank before each operand. -/
theorem spellsOperation_blank {mnemonic : String} {tokens : List String}
    (hm : isMnemonic mnemonic.toList = true) (h : ∀ t ∈ tokens, isOperand t.toList = true) :
    SpellsOperation (some ⟨mnemonic, tokens⟩)
      (mnemonic.toList ++ tokens.flatMap fun t => ' ' :: t.toList) := by
  cases tokens with
  | nil =>
    rw [List.flatMap_nil, List.append_nil]
    exact .bare hm
  | cons token tokens =>
    have hblank : Blanks [' '] := by decide
    have hoperands := SpellsOperation.operands hm (List.cons_ne_nil ' ' []) hblank
      (spellsOperands_blank h)
    exact hoperands

/-! ## Reading operands back -/

/-- The operands of every piece between commas, before they are checked. -/
def groups (text : List Char) : List (List (List Char)) :=
  (text.splitOn ',').map Text.words

theorem groups_append_comma (text rest : List Char) :
    groups (text ++ ',' :: rest) = groups text ++ groups rest := by
  rw [groups, List.splitOn_append_cons_self, List.map_append]
  rfl

theorem groups_eq_singleton {text : List Char} (h : ',' ∉ text) :
    groups text = [Text.words text] := by
  rw [groups, List.splitOn_eq_singleton h]
  rfl

/-- A blank does not end a group: what stands before it joins the first group after it. -/
theorem groups_append_blank {text : List Char} (h : ',' ∉ text) {c : Char}
    (hc : Text.isBlank c = true) (rest : List Char) :
    groups (text ++ c :: rest) = (groups rest).modifyHead (Text.words text ++ ·) := by
  have hcomma : ',' ∉ text ++ [c] := by
    simp only [List.mem_append, List.mem_singleton, not_or]
    refine ⟨h, ?_⟩
    rintro rfl
    exact absurd hc (by decide)
  obtain ⟨piece, pieces, hpieces⟩ := List.exists_cons_of_ne_nil (List.splitOn_ne_nil ',' rest)
  rw [← List.singleton_append, ← List.append_assoc, groups,
    Text.splitOn_append_of_not_mem hcomma, groups, hpieces]
  simp [Text.words_append_cons hc]

/-- One operand and the blanks around it. -/
theorem words_operand {token gap after : List Char} (h : isOperand token = true)
    (hgap : Blanks gap) (hafter : Blanks after) :
    Text.words (gap ++ (token ++ after)) = [token] := by
  rw [Text.words_append hgap, Text.words_append_blanks hafter]
  exact Text.words_eq_singleton (isOperand_chars h).1 (isBlank_of_mem_operand h)

theorem comma_not_mem_operand {token gap after : List Char} (h : isOperand token = true)
    (hgap : Blanks gap) (hafter : Blanks after) : ',' ∉ gap ++ (token ++ after) := by
  simp only [List.mem_append, not_or]
  refine ⟨fun hmem => absurd (hgap _ hmem) (by decide), fun hmem => ?_,
    fun hmem => absurd (hafter _ hmem) (by decide)⟩
  exact ne_of_mem_operand h (by decide) (by decide +kernel) _ hmem rfl

/-- Spelled operands fall into groups none of which is empty, and are found there in order. -/
theorem groups_of_spells {tokens : List String} {text : List Char} (h : SpellsOperands tokens text)
    {gap : List Char} (hgap : Blanks gap) :
    [] ∉ groups (gap ++ text) ∧ (groups (gap ++ text)).flatten = tokens.map (·.toList) := by
  -- The blanks in front are arbitrary, since those of a separator stand before the next operand.
  have hnil : Blanks [] := fun c hc => absurd hc List.not_mem_nil
  induction h generalizing gap with
  | @one token h =>
    have hgroups := groups_eq_singleton (comma_not_mem_operand h hgap hnil)
    rw [words_operand h hgap hnil, List.append_nil] at hgroups
    simp [hgroups]
  | @more token tokens separator text h hs hrest ih =>
    cases hs with
    | blanks hne hblank =>
      obtain ⟨c, blanks, rfl⟩ := List.exists_cons_of_ne_nil hne
      obtain ⟨hgroups, hflat⟩ := ih fun d hd => hblank d (List.mem_cons_of_mem _ hd)
      have hcomma := comma_not_mem_operand h hgap hnil
      have hwords := words_operand h hgap hnil
      rw [List.append_nil] at hcomma hwords
      rw [← List.append_assoc, List.cons_append,
        groups_append_blank hcomma (hblank c List.mem_cons_self), hwords]
      obtain ⟨group, rest, hcons⟩ :=
        List.exists_cons_of_ne_nil (l := groups (blanks ++ text)) (by simp [groups])
      rw [hcons] at hgroups hflat ⊢
      simp only [List.mem_cons, not_or, List.flatten_cons] at hgroups hflat
      simp [hgroups.2, hflat]
    | @comma before after hb ha =>
      obtain ⟨hgroups, hflat⟩ := ih ha
      have hsplit : gap ++ (token.toList ++ (before ++ ',' :: after ++ text)) =
          (gap ++ (token.toList ++ before)) ++ ',' :: (after ++ text) := by simp
      rw [hsplit, groups_append_comma, groups_eq_singleton (comma_not_mem_operand h hgap hb),
        words_operand h hgap hb]
      simp [hgroups, hflat]

/-- A group that is not empty and holds operands is read as those operands. -/
theorem operandGroup_of_words {piece : List Char} (hne : Text.words piece ≠ [])
    (h : ∀ token ∈ Text.words piece, isOperand token = true) :
    operandGroup piece = pure ((Text.words piece).map String.ofList) := by
  unfold operandGroup
  split
  · next hnil => exact absurd hnil hne
  · refine mapM_eq_pure_map fun token htoken => ?_
    rw [if_pos (h token htoken)]
    rfl

/-- Spelled operands are read back, whatever blanks stand before them. -/
theorem parseOperands_of_spells {tokens : List String} {text : List Char}
    (h : SpellsOperands tokens text) {gap : List Char} (hgap : Blanks gap) :
    parseOperands (gap ++ text) = .ok tokens := by
  obtain ⟨hne, hflat⟩ := groups_of_spells h hgap
  have hoperand : ∀ token ∈ (groups (gap ++ text)).flatten, isOperand token = true := by
    rw [hflat]
    intro token htoken
    obtain ⟨_, hmem, rfl⟩ := List.mem_map.1 htoken
    exact h.isOperand _ hmem
  have hpieces : ((gap ++ text).splitOn ',').mapM operandGroup =
      pure ((groups (gap ++ text)).map (·.map String.ofList)) := by
    rw [groups, List.map_map]
    refine mapM_eq_pure_map fun piece hpiece => ?_
    have hgroup : Text.words piece ∈ groups (gap ++ text) := List.mem_map_of_mem hpiece
    refine operandGroup_of_words (fun e => hne (e ▸ hgroup)) fun token htoken => ?_
    exact hoperand token (List.mem_flatten_of_mem hgroup htoken)
  have hblank : (gap ++ text).all Text.isBlank = false := by
    obtain ⟨c, rest, rfl⟩ := List.exists_cons_of_ne_nil h.ne_nil
    simp [h.trimmed.head c rfl]
  rw [parseOperands, hblank, hpieces]
  simp only [map_pure, ← List.map_flatten, hflat]
  simp
  rfl

/-! ## Reading a line back -/

theorem isBlank_of_mem_mnemonic {text : List Char} (h : isMnemonic text = true) :
    ∀ c ∈ text, Text.isBlank c = false := fun c hc =>
  Text.isBlank_of_isWordChar (isWordChar_of_isAlpha ((isMnemonic_iff.1 h).2 c hc))

namespace SpellsOperation

variable {operation : Option Operation} {text : List Char}

theorem trimmed (h : SpellsOperation operation text) : Text.Trimmed text := by
  cases h with
  | absent => exact .of_forall (by simp)
  | bare h => exact .of_forall (isBlank_of_mem_mnemonic h)
  | operands h _ _ htokens =>
    exact .append (.of_forall (isBlank_of_mem_mnemonic h)) htokens.trimmed (isMnemonic_iff.1 h).1
      htokens.ne_nil _

theorem colon_not_mem (h : SpellsOperation operation text) : ':' ∉ text := by
  have hmnemonic : ∀ {text : List Char}, isMnemonic text = true → ':' ∉ text := by
    intro text h hc
    exact absurd ((isMnemonic_iff.1 h).2 _ hc) (by decide)
  cases h with
  | absent => simp
  | bare h => exact hmnemonic h
  | operands h _ hgap htokens =>
    simp only [List.mem_append, not_or]
    exact ⟨hmnemonic h, fun hc => absurd (hgap _ hc) (by decide),
      fun hc => htokens.ne_colon _ hc rfl⟩

end SpellsOperation

/-- A mnemonic ends at the first blank; the operands follow. -/
theorem parseOperation_mnemonic {mnemonic : String} (h : isMnemonic mnemonic.toList = true)
    {rest : List Char} (hrest : ∀ c ∈ rest.head?, Text.isBlank c = true) :
    parseOperation (mnemonic.toList ++ rest) =
      (fun operands => some ⟨mnemonic, operands⟩) <$> parseOperands rest := by
  obtain ⟨hne, halpha⟩ := isMnemonic_iff.1 h
  have hpos : ∀ c ∈ mnemonic.toList, (!Text.isBlank c) = true := by
    simpa using isBlank_of_mem_mnemonic h
  have htake : (mnemonic.toList ++ rest).takeWhile (!Text.isBlank ·) = mnemonic.toList := by
    rw [List.takeWhile_append_of_pos hpos]
    cases rest with
    | nil => simp
    | cons c rest => simp [hrest c rfl]
  have hdrop : (mnemonic.toList ++ rest).dropWhile (!Text.isBlank ·) = rest := by
    rw [List.dropWhile_append_of_pos hpos]
    cases rest with
    | nil => rfl
    | cons c rest => simp [hrest c rfl]
  unfold parseOperation
  rw [htake, hdrop, if_neg (by simp [hne]), if_pos (by simpa using halpha), String.ofList_toList]

theorem parseOperation_of_spells {operation : Option Operation} {text : List Char}
    (h : SpellsOperation operation text) : parseOperation text = .ok operation := by
  cases h with
  | absent => rfl
  | bare h =>
    rw [← List.append_nil (String.toList _), parseOperation_mnemonic h (by simp)]
    rfl
  | operands h hne hgap htokens =>
    obtain ⟨c, gap, rfl⟩ := List.exists_cons_of_ne_nil hne
    rw [parseOperation_mnemonic h fun d hd => by
      obtain rfl : c = d := by simpa using hd
      exact hgap c List.mem_cons_self, parseOperands_of_spells htokens hgap]
    rfl

theorem splitLabel_append_colon {name : List Char} (h : Text.isWord name = true)
    (rest : List Char) :
    splitLabel (name ++ ':' :: rest) = .ok (some (String.ofList name), Text.trimStart rest) := by
  have hne : ∀ c ∈ name, (c != ':') = true := fun c hc =>
    bne_iff_ne.2 (Text.ne_colon_of_isWordChar ((Text.isWord_iff.1 h).2 c hc))
  have hname : (name ++ ':' :: rest).takeWhile (· != ':') = name := by
    rw [List.takeWhile_append_of_pos hne]
    simp
  have hrest : (name ++ ':' :: rest).dropWhile (· != ':') = ':' :: rest := by
    rw [List.dropWhile_append_of_pos hne]
    simp
  unfold splitLabel
  rw [if_pos (by simp)]
  simp only [hname, hrest, h, if_true]
  rfl

/-- **Every spelling of a statement is read as that statement.** -/
theorem parse_of_spells {statement : Statement} {line : String} (h : Spells statement line) :
    parse line = .ok statement := by
  unfold Spells at h
  unfold parse code
  generalize line.toList.takeWhile (· != ';') = text at h
  cases h with
  | @mk label operation before labelText between operationText after hb hl hm ho ha =>
    have hsplit : splitLabel
        (Text.trim (before ++ (labelText ++ (between ++ (operationText ++ after))))) =
        .ok (label, operationText) := by
      cases hl with
      | absent =>
        rw [List.nil_append, ← List.append_assoc, Text.trim_eq (hb.append hm) ho.trimmed ha,
          splitLabel, if_neg (by simpa using ho.colon_not_mem)]
      | @name name h =>
        have htrim : Text.trim (before ++ (name.toList ++ [':'] ++
            (between ++ (operationText ++ after)))) =
            name.toList ++ ':' :: Text.trimEnd (between ++ (operationText ++ after)) := by
          obtain ⟨c, rest, hname⟩ := List.exists_cons_of_ne_nil (Text.isWord_iff.1 h).1
          have hc : Text.isBlank c = false :=
            Text.isBlank_of_isWordChar ((Text.isWord_iff.1 h).2 c (hname ▸ List.mem_cons_self))
          rw [Text.trim, Text.trimStart_append hb, hname, List.cons_append, List.cons_append,
            Text.trimStart_of_head hc, ← List.cons_append, ← List.cons_append, ← hname,
            List.append_assoc, List.singleton_append, Text.trimEnd_append_cons (by decide)]
        rw [htrim, splitLabel_append_colon h, Text.trimStart_trimEnd_eq hm ho.trimmed ha,
          String.ofList_toList]
    rw [hsplit]
    simp only [bind, Except.bind, parseOperation_of_spells ho]
    rfl

/-- A text without semicolons is code as a whole. -/
theorem spells_of_spellsCode {statement : Statement} {line : String}
    (h : SpellsCode statement line.toList) (hcode : ';' ∉ line.toList) :
    Spells statement line := by
  have htake : line.toList.takeWhile (· != ';') = line.toList := by
    rw [List.takeWhile_eq_self_iff]
    intro c hc
    exact bne_iff_ne.2 fun e => hcode (e ▸ hc)
  rwa [Spells, htake]

/-- A line with a label and nothing else. -/
theorem parse_label {name : String} (h : Text.isWord name.toList = true) :
    parse (name ++ ":") = .ok ⟨some name, none⟩ := by
  have hlist : (name ++ ":").toList = name.toList ++ [':'] := by simp
  have hcode : ';' ∉ name.toList ++ [':'] := by
    simp only [List.mem_append, not_or]
    refine ⟨fun hc => ?_, by decide⟩
    exact Text.ne_semicolon_of_isWordChar ((Text.isWord_iff.1 h).2 _ hc) rfl
  have hspells := SpellsCode.mk Text.blanks_nil (.name h) Text.blanks_nil .absent Text.blanks_nil
  refine parse_of_spells (spells_of_spellsCode ?_ (hlist ▸ hcode))
  rw [hlist]
  simpa using hspells

theorem parse_empty : parse "" = .ok ⟨none, none⟩ := by
  rfl

end Statement

end ByteAssembler
