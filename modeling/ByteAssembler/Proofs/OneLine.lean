import ByteAssembler.Proofs.Outcome
import ByteAssembler.Proofs.Recognition
import ByteAssembler.Proofs.Reconstruction
import ByteAssembler.Proofs.Traversal

/-
  Texts of one line. The lines of a source have no line feed in them (`oneLine_of_mem_lines`), nor
  has anything that is quoted from them. A message is one line if what it quotes is
  (`Problem.oneLine_message`). A syntax error quotes a part of the line or a token, in which there is
  no blank (`Statement.oneLine_fault`); labels, mnemonics and operands are made of word characters
  (`Statement.oneLine_of_parse`). So all that is read of one line is one line
  (`Line.isOneLine_read`).
-/

namespace ByteAssembler

namespace Text

/-! ## Texts of one line -/

/-- There is no line feed in the text. -/
def OneLine (text : String) : Prop :=
  '\n' ∉ text.toList

instance (text : String) : Decidable (OneLine text) :=
  inferInstanceAs (Decidable ('\n' ∉ text.toList))

theorem oneLine_append {text rest : String} :
    OneLine (text ++ rest) ↔ OneLine text ∧ OneLine rest := by
  simp [OneLine]

theorem oneLine_join {texts : List String} :
    OneLine (String.join texts) ↔ ∀ text ∈ texts, OneLine text := by
  simp [OneLine]

/-- The line feed is a blank, so a text without blanks is one line. -/
theorem oneLine_of_isBlank {text : String} (h : ∀ c ∈ text.toList, isBlank c = false) :
    OneLine text := by
  intro hmem
  have hblank := h '\n' hmem
  revert hblank
  decide

theorem oneLine_of_isWord {text : String} (h : isWord text.toList = true) : OneLine text :=
  oneLine_of_isBlank fun c hc => isBlank_of_isWordChar ((isWord_iff.1 h).2 c hc)

theorem oneLine_text (text : String) : OneLine (toString text) ↔ OneLine text :=
  Iff.rfl

theorem oneLine_number (n : Nat) : OneLine (toString n) := by
  intro hmem
  have hdigit := Nat.isDigit_of_mem_toDigits (by decide) (by decide) (Nat.toList_repr ▸ hmem)
  revert hdigit
  decide

theorem oneLine_hexLiteral (width n : Nat) : OneLine (hexLiteral width n) :=
  oneLine_of_isWord (Listing.isWord_hexLiteral width n)

theorem oneLine_upperHex (width n : Nat) : OneLine (upperHex width n) := by
  intro hmem
  have hdigit := mem_upperDigits_of_mem_upperHex hmem
  revert hdigit
  decide

theorem oneLine_hexDump (bytes : List UInt8) : OneLine (hexDump bytes) := by
  refine oneLine_join.2 fun text htext => ?_
  obtain ⟨b, -, rfl⟩ := List.mem_map.1 htext
  exact oneLine_upperHex 2 b.toNat

/-! ## Cutting a text into lines -/

/-- The pieces of a text between line feeds; the last one is empty if the text ends with one. -/
def split (text : String) : List String :=
  (text.toList.splitOn '\n').map String.ofList

/-- Lines without line feeds, each of them ended, are found again, and nothing is left over. -/
theorem split_unlines {lines : List String} (h : ∀ line ∈ lines, OneLine line) :
    split (unlines lines) = lines ++ [""] := by
  rw [split, splitOn_unlines h, List.map_append, List.map_map]
  simp [Function.comp_def]

/-- No piece has an element at which the list was cut. -/
theorem eq_false_of_mem_splitOnP {α : Type} {p : α → Bool} {xs piece : List α}
    (h : piece ∈ xs.splitOnP p) : ∀ x ∈ piece, p x = false := by
  induction xs generalizing piece with
  | nil =>
    rw [List.splitOnP_nil, List.mem_singleton] at h
    subst h
    exact fun x hx => absurd hx List.not_mem_nil
  | cons y xs ih =>
    rw [List.splitOnP_cons_eq_if_modifyHead] at h
    split at h
    · rcases List.mem_cons.1 h with rfl | hrest
      · exact fun x hx => absurd hx List.not_mem_nil
      · exact ih hrest
    · next hy =>
      -- Only the first piece got one more element, and that is no cut.
      obtain ⟨first, pieces, hpieces⟩ := List.exists_cons_of_ne_nil (List.splitOnP_ne_nil p xs)
      rw [hpieces, List.modifyHead_cons] at h
      rcases List.mem_cons.1 h with rfl | hrest
      · intro x hx
        rcases List.mem_cons.1 hx with rfl | hx
        · simpa using hy
        · exact ih (hpieces ▸ List.mem_cons_self) x hx
      · exact ih (hpieces ▸ List.mem_cons_of_mem first hrest)

theorem mem_of_mem_dropFinal {α : Type} [BEq α] {x y : α} {text : List α}
    (h : y ∈ dropFinal x text) : y ∈ text := by
  unfold dropFinal at h
  split at h
  · exact (List.dropLast_sublist text).subset h
  · exact h

/-- The lines of a source are lines. -/
theorem oneLine_of_mem_lines {source line : String} (h : line ∈ lines source) : OneLine line := by
  have hpiece : ∀ piece ∈ source.toList.splitOn '\n', '\n' ∉ piece := by
    intro piece hpiece hmem
    rw [List.splitOn_eq_splitOnP] at hpiece
    have hne := eq_false_of_mem_splitOnP hpiece '\n' hmem
    simp at hne
  obtain ⟨text, htext, rfl⟩ := List.mem_map.1 h
  rw [OneLine, String.toList_ofList]
  rcases List.mem_append.1 htext with hended | hlast
  · obtain ⟨piece, hmem, rfl⟩ := List.mem_map.1 hended
    exact fun hfeed => hpiece piece ((List.dropLast_sublist _).subset hmem) (mem_of_mem_dropFinal hfeed)
  · have hmem := List.mem_of_mem_filter hlast
    rw [Option.mem_toList] at hmem
    exact hpiece text (List.mem_of_mem_getLast? hmem)

end Text

open Text (OneLine)

/-! ## Messages -/

theorem Mnemonic.oneLine_name (m : Mnemonic) : OneLine m.name := by
  refine Text.oneLine_of_isWord (Text.isWord_iff.2 ?_)
  obtain ⟨hne, halpha⟩ := Statement.isMnemonic_iff.1 (Listing.isMnemonic_name m)
  exact ⟨hne, fun c hc => Statement.isWordChar_of_isAlpha (halpha c hc)⟩

theorem Register.oneLine_name (r : Register) : OneLine r.name := by
  cases r <;> decide

theorem NumberError.oneLine_message (e : NumberError) : OneLine e.message := by
  cases e <;> decide

/-- The text of a line that a syntax error quotes. -/
def Statement.Fault.quoted : Fault → List String
  | .malformedLabel text => [text]
  | .expectedMnemonic found => [found]
  | .emptyOperand => []
  | .invalidOperand text => [text]

theorem Statement.Fault.oneLine_message {fault : Fault} (h : ∀ text ∈ fault.quoted, OneLine text) :
    OneLine fault.message := by
  unfold message
  cases fault with
  | emptyOperand => decide +kernel
  | _ text =>
    have htext := h text (List.mem_singleton_self text)
    simp only [Text.oneLine_append, Text.oneLine_text, htext]
    decide +kernel

/-- The texts of a source that a problem quotes. -/
def Problem.quoted : Problem → List String
  | .malformedLine reason => [reason]
  | .unknownMnemonic text => [text]
  | .operandCount _ _ _ => []
  | .invalidRegister text => [text]
  | .invalidNumber text _ => [text]
  | .undefinedLabel name => [name]
  | .duplicateLabel name _ => [name]
  | .labelOutOfRange name _ => [name]
  | .programTooLarge _ => []
  | .redundantLabel name existing _ => [name, existing]

/-- A message is one line if all that it quotes is. -/
theorem Problem.oneLine_message {p : Problem} (h : ∀ text ∈ p.quoted, OneLine text) :
    OneLine p.message := by
  unfold message
  -- In each case all that is left after the rewriting are the fixed parts of the message.
  cases p with
  | operandCount mnemonic expected found =>
    simp only [Text.oneLine_append, Text.oneLine_text, Text.oneLine_number, mnemonic.oneLine_name]
    decide +kernel
  | programTooLarge memorySize =>
    simp only [Text.oneLine_append, Text.oneLine_text, Text.oneLine_number]
    decide +kernel
  | redundantLabel name existing address =>
    have hname := h name List.mem_cons_self
    have hexisting := h existing (List.mem_cons_of_mem name List.mem_cons_self)
    simp only [Text.oneLine_append, Text.oneLine_text, Text.oneLine_hexLiteral, hname, hexisting]
    decide +kernel
  | invalidNumber text reason =>
    have htext := h text (List.mem_singleton_self text)
    simp only [Text.oneLine_append, Text.oneLine_text, reason.oneLine_message, htext]
    decide +kernel
  | duplicateLabel text number | labelOutOfRange text number =>
    have htext := h text (List.mem_singleton_self text)
    simp only [Text.oneLine_append, Text.oneLine_text, Text.oneLine_number,
      Text.oneLine_hexLiteral, htext]
    decide +kernel
  | malformedLine text | unknownMnemonic text | invalidRegister text | undefinedLabel text =>
    have htext := h text (List.mem_singleton_self text)
    simp only [Text.oneLine_append, Text.oneLine_text, htext]
    decide +kernel

theorem Problem.oneLine_of_quoted {p : Problem} {text : String} (hq : p.quoted = [text])
    (h : OneLine text) : OneLine p.message := by
  refine oneLine_message fun other hother => ?_
  rw [hq, List.mem_singleton] at hother
  exact hother ▸ h

theorem Diagnostic.oneLine_message {d : Diagnostic} (h : OneLine d.problem.message) :
    OneLine d.message := by
  refine Text.oneLine_append.2 ⟨Text.oneLine_append.2 ⟨?_, ?_⟩, h⟩
  · cases d.line with
    | none => decide
    | some line =>
      simp only [Text.oneLine_append, Text.oneLine_text, Text.oneLine_number]
      decide +kernel
  · cases d.severity with
    | error => decide
    | warning => decide +kernel

/-! ## What is read of a line -/

namespace Statement

theorem oneLine_of_isMnemonic {text : String} (h : isMnemonic text.toList = true) : OneLine text :=
  Text.oneLine_of_isBlank (isBlank_of_mem_mnemonic h)

/-- The mnemonic and the operands of a statement are one line each. -/
theorem oneLine_of_parse {text : String} {st : Statement} {operation : Operation}
    (h : parse text = .ok st) (ho : st.operation = some operation) :
    OneLine operation.mnemonic ∧ ∀ token ∈ operation.operands, OneLine token := by
  have hcode : SpellsCode st (text.toList.takeWhile (· != ';')) := spells_of_parse h
  generalize text.toList.takeWhile (· != ';') = code at hcode
  obtain ⟨-, -, -, hspells, -⟩ := hcode
  dsimp only at ho
  subst ho
  cases hspells with
  | bare hmnemonic =>
    exact ⟨oneLine_of_isMnemonic hmnemonic, fun token htoken => absurd htoken List.not_mem_nil⟩
  | operands hmnemonic _ _ htokens =>
    refine ⟨oneLine_of_isMnemonic hmnemonic, fun token htoken => ?_⟩
    exact Text.oneLine_of_isBlank (isBlank_of_mem_operand (htokens.isOperand token htoken))

/-- What is left of a line without its comment and the blanks around it comes from the line. -/
theorem mem_of_mem_code {line : List Char} {c : Char} (h : c ∈ code line) : c ∈ line := by
  obtain ⟨before, after, -, -, htext⟩ := Text.exists_trim (line.takeWhile (· != ';'))
  have hmem : c ∈ line.takeWhile (· != ';') := by
    rw [htext]
    exact List.mem_append_right _ (List.mem_append_left _ h)
  exact (List.takeWhile_sublist _).subset hmem

/-- A label that is no word is quoted from the code of its line. -/
theorem quoted_splitLabel {text : List Char} {fault : Fault} (h : splitLabel text = .error fault) :
    ∀ quoted ∈ fault.quoted, ∀ c ∈ quoted.toList, c ∈ text := by
  unfold splitLabel at h
  split at h
  · dsimp only at h
    split at h
    · cases h
    · cases h
      intro quoted hquoted c hc
      rw [List.mem_singleton.1 hquoted, String.toList_ofList] at hc
      exact (List.takeWhile_sublist _).subset hc
  · cases h

/-- An operand is quoted as a whole, and there is no blank in it. -/
theorem quoted_operandGroup {piece : List Char} {fault : Fault}
    (h : operandGroup piece = .error fault) :
    ∀ quoted ∈ fault.quoted, ∀ c ∈ quoted.toList, Text.isBlank c = false := by
  unfold operandGroup at h
  split at h
  · cases h
    exact fun quoted hquoted => absurd hquoted List.not_mem_nil
  · obtain ⟨k, token, htoken, hfault, -⟩ := mapM_eq_error_iff.1 h
    have hword := List.mem_of_mem_filter (List.mem_of_getElem? htoken)
    split at hfault
    · cases hfault
    · cases hfault
      intro quoted hquoted c hc
      rw [List.mem_singleton.1 hquoted, String.toList_ofList] at hc
      exact Text.eq_false_of_mem_splitOnP hword c hc

/-- Neither is there a blank in anything that is quoted of an operation. -/
theorem quoted_parseOperation {text : List Char} {fault : Fault}
    (h : parseOperation text = .error fault) :
    ∀ quoted ∈ fault.quoted, ∀ c ∈ quoted.toList, Text.isBlank c = false := by
  unfold parseOperation at h
  dsimp only at h
  split at h
  · cases h
  · split at h
    · have hoperands := map_eq_error_iff.1 h
      unfold parseOperands at hoperands
      split at hoperands
      · cases hoperands
      · obtain ⟨k, piece, -, hpiece, -⟩ := mapM_eq_error_iff.1 (map_eq_error_iff.1 hoperands)
        exact quoted_operandGroup hpiece
    · cases h
      intro quoted hquoted c hc
      rw [List.mem_singleton.1 hquoted, String.toList_ofList] at hc
      simpa using List.mem_takeWhile_imp hc

/-- **The message on a line that is no statement is one line.** -/
theorem oneLine_fault {line : String} {fault : Fault} (hline : OneLine line)
    (h : parse line = .error fault) : OneLine fault.message := by
  refine Fault.oneLine_message fun quoted hquoted => ?_
  unfold parse at h
  cases hlabel : splitLabel (code line.toList) with
  | error first =>
    rw [hlabel] at h
    cases h
    exact fun hfeed =>
      hline (mem_of_mem_code (quoted_splitLabel hlabel quoted hquoted '\n' hfeed))
  | ok split =>
    rw [hlabel] at h
    cases hoperation : parseOperation split.2 with
    | error second =>
      simp only [bind, Except.bind, hoperation] at h
      cases h
      exact Text.oneLine_of_isBlank (quoted_parseOperation hoperation quoted hquoted)
    | ok operation =>
      simp only [bind, Except.bind, hoperation] at h
      cases h

end Statement

/-- Nothing that is shown of a line has a line feed in it. -/
structure Line.IsOneLine (l : Line) : Prop where
  label (name : String) : l.label = some name → OneLine name
  uses (name : String) : name ∈ l.uses → OneLine name
  rejections (ps : List Problem) : l.body = .rejected ps → ∀ p ∈ ps, OneLine p.message

/-- The report on a token quotes the token. -/
theorem Operand.Fault.oneLine_message {kind : OperandKind} {token : String} {p : Problem}
    (h : Fault kind token p) (ht : OneLine token) : OneLine p.message := by
  cases h <;> exact Problem.oneLine_of_quoted rfl ht

theorem Operation.RejectedFor.oneLine_message {operation : Operation} {ps : List Problem}
    (h : operation.RejectedFor ps) (hm : OneLine operation.mnemonic)
    (ho : ∀ token ∈ operation.operands, OneLine token) : ∀ p ∈ ps, OneLine p.message := by
  intro p hp
  cases h with
  | unknownMnemonic _ =>
    obtain rfl := List.mem_singleton.1 hp
    exact Problem.oneLine_of_quoted rfl hm
  | operandCount _ _ =>
    obtain rfl := List.mem_singleton.1 hp
    exact Problem.oneLine_message fun text htext => absurd htext List.not_mem_nil
  | operands _ _ _ hfaults =>
    obtain ⟨i, hi, rfl⟩ := List.getElem_of_mem hp
    have hfault := hfaults.get (hfaults.length_eq ▸ hi) hi
    have hpair := List.mem_of_mem_filter (List.get_mem _ ⟨i, hfaults.length_eq ▸ hi⟩)
    exact hfault.oneLine_message (ho _ (List.of_mem_zip hpair).2)

/-- **What is read of one line is one line.** -/
theorem Line.isOneLine_read {text : String} (h : OneLine text) : (Line.read text).IsOneLine where
  label name hname := by
    obtain ⟨st, hparse, hlabel⟩ := Line.exists_parse_of_label hname
    exact Text.oneLine_of_isWord (Statement.isWord_of_parse hparse hlabel)
  uses name hname := by
    rw [← Line.labelOperands_counted] at hname
    obtain ⟨st, hparse, hvalid, -⟩ | ⟨ps, -, hcounted⟩ := read_cases text
    · rw [Statement.counted_of_valid hparse hvalid] at hname
      obtain ⟨operation, ho, htoken, -⟩ := Statement.exists_of_mem_labelOperands hname
      exact (Statement.oneLine_of_parse hparse ho).2 name htoken
    · rw [hcounted] at hname
      cases hname
  rejections ps hb := by
    cases rejectedFor_of_read hb with
    | malformed hfault =>
      intro p hp
      obtain rfl := List.mem_singleton.1 hp
      exact Problem.oneLine_of_quoted rfl (Statement.oneLine_fault h hfault)
    | operation hparse ho hrejected =>
      obtain ⟨hmnemonic, htokens⟩ := Statement.oneLine_of_parse hparse ho
      exact hrejected.oneLine_message hmnemonic htokens

end ByteAssembler
