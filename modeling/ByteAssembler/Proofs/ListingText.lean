import ByteAssembler.Listing
import ByteAssembler.Proofs.Grammar
import ByteAssembler.Proofs.Symbols
import ByteAssembler.Proofs.Validity
import ByteAssembler.Text.Lines

/-
  The text of a listing can be read again. Hexadecimal digits are read as the number they were
  written for (`parse_hexLiteral`), names of registers and mnemonics are those of the instruction
  set, and labels appear by name. So the part of a listing line after the address is a line of
  source that says what the instruction says (`read_instructionText`), and the lines of a text are
  the lines it was put together from (`lines_unlines`).
-/

namespace ByteAssembler

namespace Text

/-! ## Hexadecimal digits -/

/-- The characters of a number in base sixteen are the sixteen digits. -/
theorem exists_digitChar_of_mem_toDigits (n : Nat) :
    ∀ c ∈ Nat.toDigits 16 n, ∃ d < 16, c = Nat.digitChar d := by
  induction n using Nat.strongRecOn with
  | ind n ih =>
    rw [Nat.toDigits_eq_if (by decide)]
    split
    · next h => simpa using ⟨n, h, rfl⟩
    · next h =>
      intro c hc
      rcases List.mem_append.1 hc with hc | hc
      · exact ih (n / 16) (by omega) c hc
      · exact ⟨n % 16, Nat.mod_lt n (by decide), List.mem_singleton.1 hc⟩

theorem exists_digitChar_of_mem_hexDigits {width n : Nat} {c : Char}
    (h : c ∈ hexDigits width n) : ∃ d < 16, c = Nat.digitChar d := by
  rw [hexDigits, List.leftpad, List.mem_append] at h
  rcases h with h | h
  · exact ⟨0, by decide, (List.eq_of_mem_replicate h).trans rfl⟩
  · exact exists_digitChar_of_mem_toDigits n c h

theorem isAlphanum_of_mem_hexDigits {width n : Nat} {c : Char} (h : c ∈ hexDigits width n) :
    c.isAlphanum = true := by
  have hdigits : ∀ d < 16, (Nat.digitChar d).isAlphanum = true := by decide
  obtain ⟨d, hd, rfl⟩ := exists_digitChar_of_mem_hexDigits h
  exact hdigits d hd

/-- The upper-case hexadecimal digits. -/
def upperDigits : List Char :=
  "0123456789ABCDEF".toList

theorem mem_upperDigits_of_mem_upperHex {width n : Nat} {c : Char}
    (h : c ∈ (upperHex width n).toList) : c ∈ upperDigits := by
  have hdigits : ∀ d < 16, (Nat.digitChar d).toUpper ∈ upperDigits := by decide
  rw [upperHex, String.toList_ofList, List.mem_map] at h
  obtain ⟨lower, hlower, rfl⟩ := h
  obtain ⟨d, hd, rfl⟩ := exists_digitChar_of_mem_hexDigits hlower
  exact hdigits d hd

/-! ## Lines -/

/-- A text made of lines, each of them ended. -/
def unlines (lines : List String) : String :=
  String.join (lines.map (· ++ "\n"))

/-- Cut at the line feeds, such a text falls into its lines and an empty rest. -/
theorem splitOn_unlines {lines : List String} (h : ∀ line ∈ lines, '\n' ∉ line.toList) :
    (unlines lines).toList.splitOn '\n' = lines.map (·.toList) ++ [[]] := by
  have htext : (unlines lines).toList = lines.flatMap (·.toList ++ ['\n']) := by
    simp [unlines, List.flatMap_map]
  rw [htext]
  clear htext
  induction lines with
  | nil => rfl
  | cons line lines ih =>
    have hline : (line :: lines).flatMap (·.toList ++ ['\n']) =
        line.toList ++ '\n' :: lines.flatMap (·.toList ++ ['\n']) := by
      simp
    rw [hline, List.splitOn_append_cons_self_of_not_mem (h line List.mem_cons_self),
      ih fun next hnext => h next (List.mem_cons_of_mem line hnext)]
    rfl

/-- The lines of a text are those it was made of, if none of them has a line end in it. -/
theorem lines_unlines {lines : List String}
    (h : ∀ line ∈ lines, '\n' ∉ line.toList ∧ '\r' ∉ line.toList) :
    Text.lines (unlines lines) = lines := by
  have hsplit := splitOn_unlines fun line hline => (h line hline).1
  have hfinal : (lines.map (·.toList)).map (dropFinal '\r') = lines.map (·.toList) := by
    rw [List.map_map]
    refine List.map_congr_left fun line hline => dropFinal_of_getLast?_ne fun e => ?_
    exact (h line hline).2 (List.mem_of_mem_getLast? e)
  unfold Text.lines splitLines
  simp only [hsplit, List.dropLast_concat, List.getLast?_concat, hfinal]
  simp

end Text

namespace ByteLiteral

theorem digit?_digitChar : ∀ d < 16, digit? 16 (Nat.digitChar d) = some d := by
  decide

/-- Reading digits one after another, from the value read so far. -/
def readDigits (start : Nat) (digits : List Char) : Option Nat :=
  digits.foldlM (fun n c => (digit? 16 c).map (n * 16 + ·)) start

theorem readDigits_append (start : Nat) (digits more : List Char) :
    readDigits start (digits ++ more) = (readDigits start digits).bind (readDigits · more) :=
  List.foldlM_append

/-- The digits of a number are read as that number. -/
theorem readDigits_toDigits (n : Nat) : readDigits 0 (Nat.toDigits 16 n) = some n := by
  induction n using Nat.strongRecOn with
  | ind n ih =>
    rw [Nat.toDigits_eq_if (by decide)]
    split
    · next h => simp [readDigits, digit?_digitChar n h]
    · next h =>
      have hdigit := digit?_digitChar (n % 16) (Nat.mod_lt n (by decide))
      rw [readDigits_append, ih (n / 16) (by omega)]
      simp [readDigits, hdigit]
      omega

theorem readDigits_replicate (k : Nat) : readDigits 0 (List.replicate k '0') = some 0 := by
  induction k with
  | zero => rfl
  | succ k ih => exact ih

/-- A number is read back from its hexadecimal digits, whatever zeros stand in front. -/
theorem magnitude?_hexDigits (width n : Nat) : magnitude? 16 (Text.hexDigits width n) = some n := by
  have hne : Text.hexDigits width n ≠ [] := by
    simp [Text.hexDigits, List.leftpad]
  have hread : readDigits 0 (Text.hexDigits width n) = some n := by
    rw [Text.hexDigits, List.leftpad, readDigits_append, readDigits_replicate]
    exact readDigits_toDigits n
  rw [magnitude?, if_neg (by simpa using hne)]
  exact hread

theorem parse_hexLiteral (width : Nat) (value : UInt8) :
    parse (Text.hexLiteral width value.toNat) = .ok value := by
  have htext : (Text.hexLiteral width value.toNat).toList =
      '0' :: 'x' :: Text.hexDigits width value.toNat := by
    simp [Text.hexLiteral]
  have hread : unsigned? ('0' :: 'x' :: Text.hexDigits width value.toNat) = some value.toNat :=
    magnitude?_hexDigits width value.toNat
  have hle : value.toNat ≤ 255 := Nat.le_of_lt_succ value.toNat_lt
  rw [parse_of_ne_minus (by simp [htext]), htext, hread]
  simp [hle]

end ByteLiteral

/-! ## The text of an instruction -/

namespace Listing

/-- An operand as a listing shows it, with labels by name. -/
def operandText : Operand String → String
  | .register r => r.name
  | .immediate value => Text.hexLiteral 2 value.toNat
  | .address (.absolute address) => Text.hexLiteral 2 address.toNat
  | .address (.label name) => name

/-- An instruction as a listing shows it, without its address. -/
def instructionText (mnemonic : Mnemonic) (operands : List (Operand String)) : String :=
  mnemonic.name ++ String.join (operands.map (" " ++ operandText ·))

/-- A line of a listing. -/
def lineText (address : Nat) (mnemonic : Mnemonic) (operands : List (Operand String)) : String :=
  Text.upperHex 2 address ++ ": " ++ instructionText mnemonic operands

section Table

variable {symbols : SymbolTable}

/-- The index of a label that the table has leads back to its name. -/
theorem operandText?_mapLabel {o : Operand String}
    (h : ∀ name, o.label? = some name → name ∈ symbols.names) :
    operandText? symbols (o.mapLabel symbols.indexOf) = some (operandText o) := by
  cases o with
  | address target =>
    cases target with
    | label name =>
      obtain ⟨s, hs, hname⟩ := SymbolTable.find?_of_mem (h name rfl)
      unfold SymbolTable.find? at hs
      simp [operandText?, operandText, Operand.mapLabel, hs, hname]
    | absolute a => rfl
  | _ => rfl

theorem line?_mapLabel {operands : List (Operand String)}
    (h : ∀ o ∈ operands, ∀ name, o.label? = some name → name ∈ symbols.names)
    (mnemonic : Mnemonic) (address line : Nat) :
    line? symbols ⟨mnemonic, operands.map (·.mapLabel symbols.indexOf), address, line⟩ =
      some (lineText address mnemonic operands) := by
  have htexts : (operands.map (·.mapLabel symbols.indexOf)).mapM (operandText? symbols) =
      some (operands.map operandText) := by
    rw [List.mapM_map]
    exact mapM_eq_pure_map fun o ho => operandText?_mapLabel (h o ho)
  unfold line?
  rw [htexts]
  simp [lineText, instructionText, Function.comp_def, String.append_assoc, toString]

end Table

/-- The text after the first colon that a blank follows. -/
def afterStamp : List Char → List Char
  | [] => []
  | ':' :: ' ' :: rest => rest
  | _ :: rest => afterStamp rest

theorem afterStamp_append {stamp : List Char} (h : ':' ∉ stamp) (rest : List Char) :
    afterStamp (stamp ++ ':' :: ' ' :: rest) = rest := by
  induction stamp with
  | nil => rfl
  | cons c stamp ih =>
    have hc : c ≠ ':' := fun e => h (e ▸ List.mem_cons_self)
    rw [List.cons_append, afterStamp]
    · exact ih fun hmem => h (List.mem_cons_of_mem c hmem)
    · rintro _ rfl
      exact absurd rfl hc

/-- A listing line without its address is the instruction. -/
theorem afterStamp_lineText (address : Nat) (mnemonic : Mnemonic)
    (operands : List (Operand String)) :
    String.ofList (afterStamp (lineText address mnemonic operands).toList) =
      instructionText mnemonic operands := by
  have hstamp : ':' ∉ (Text.upperHex 2 address).toList := by
    intro hmem
    have hdigit := Text.mem_upperDigits_of_mem_upperHex hmem
    revert hdigit
    decide
  have htext : (lineText address mnemonic operands).toList = (Text.upperHex 2 address).toList ++
      ':' :: ' ' :: (instructionText mnemonic operands).toList := by
    simp [lineText]
  rw [htext, afterStamp_append hstamp, String.ofList_toList]

/-! ## Reading an instruction back -/

/-- A label that can stand as an operand: a word that does not start like a number. -/
def IsLabel (name : String) : Prop :=
  Text.isWord name.toList = true ∧ Operand.startsNumber name = false

theorem isWord_hexLiteral (width n : Nat) :
    Text.isWord (Text.hexLiteral width n).toList = true := by
  have htext : (Text.hexLiteral width n).toList = '0' :: 'x' :: Text.hexDigits width n := by
    simp [Text.hexLiteral]
  rw [htext, Text.isWord_iff]
  refine ⟨List.cons_ne_nil _ _, fun c hc => ?_⟩
  simp only [List.mem_cons] at hc
  rcases hc with rfl | rfl | hc
  · decide
  · decide
  · exact Text.isWordChar_of_isAlphanum (Text.isAlphanum_of_mem_hexDigits hc)

theorem isWord_operandText {o : Operand String} (h : ∀ name, o.label? = some name → IsLabel name) :
    Text.isWord (operandText o).toList = true := by
  cases o with
  | register r => cases r <;> decide
  | immediate value => exact isWord_hexLiteral 2 value.toNat
  | address target =>
    cases target with
    | absolute a => exact isWord_hexLiteral 2 a.toNat
    | label name => exact (h name rfl).1

/-- An operand is read back from its text. -/
theorem read_operandText {o : Operand String} (h : ∀ name, o.label? = some name → IsLabel name) :
    Operand.read o.kind (operandText o) = .ok o := by
  rw [Operand.read_eq_ok_iff]
  have hstart : ∀ n, Operand.startsNumber (Text.hexLiteral 2 n) = true := by
    intro n
    simp [Operand.startsNumber, Text.hexLiteral]
  cases o with
  | register r => exact .register r.ofName?_name
  | immediate value => exact .immediate (ByteLiteral.parse_hexLiteral 2 value)
  | address target =>
    cases target with
    | absolute a => exact .absolute (hstart _) (ByteLiteral.parse_hexLiteral 2 a)
    | label name => exact .label (h name rfl).2

theorem isMnemonic_name (m : Mnemonic) : Statement.isMnemonic m.name.toList = true := by
  have hall : ∀ m ∈ Mnemonic.all, Statement.isMnemonic m.name.toList = true := by
    decide +kernel
  exact hall m m.mem_all

section Instruction

variable {mnemonic : Mnemonic} {operands : List (Operand String)}
  (hlabels : ∀ o ∈ operands, ∀ name, o.label? = some name → IsLabel name)

theorem toList_instructionText :
    (instructionText mnemonic operands).toList = mnemonic.name.toList ++
      (operands.map operandText).flatMap (fun token => ' ' :: token.toList) := by
  simp [instructionText, List.flatMap_map]

include hlabels

/-- An instruction consists of word characters and blanks. -/
theorem instructionText_chars {c : Char} (hc : c ∈ (instructionText mnemonic operands).toList) :
    c = ' ' ∨ Text.isWordChar c = true := by
  rw [toList_instructionText, List.mem_append] at hc
  rcases hc with hc | hc
  · have halpha := (Statement.isMnemonic_iff.1 (isMnemonic_name mnemonic)).2 c hc
    exact Or.inr (Statement.isWordChar_of_isAlpha halpha)
  · obtain ⟨token, htoken, hc⟩ := List.mem_flatMap.1 hc
    obtain ⟨o, ho, rfl⟩ := List.mem_map.1 htoken
    rcases List.mem_cons.1 hc with rfl | hc
    · exact Or.inl rfl
    · exact Or.inr ((Text.isWord_iff.1 (isWord_operandText (hlabels o ho))).2 c hc)

/-- The text of an instruction spells its mnemonic and its operands. -/
theorem spells_instructionText :
    Statement.Spells ⟨none, some ⟨mnemonic.name, operands.map operandText⟩⟩
      (instructionText mnemonic operands) := by
  have htokens : ∀ token ∈ operands.map operandText, Statement.isOperand token.toList = true := by
    intro token htoken
    obtain ⟨o, ho, rfl⟩ := List.mem_map.1 htoken
    exact Statement.isOperand_of_isWord (isWord_operandText (hlabels o ho))
  refine Statement.spells_of_spellsCode ?_ fun hc => ?_
  · rw [toList_instructionText]
    have hspells := Statement.SpellsCode.mk Text.blanks_nil .absent Text.blanks_nil
      (Statement.spellsOperation_blank (isMnemonic_name mnemonic) htokens) Text.blanks_nil
    rwa [List.append_nil] at hspells
  · rcases instructionText_chars hlabels hc with e | hword
    · exact absurd e (by decide)
    · exact Text.ne_semicolon_of_isWordChar hword rfl

/-- **The text of an instruction is read as that instruction.** -/
theorem read_instructionText (hfit : operands.map Operand.kind = mnemonic.signature) :
    Line.read (instructionText mnemonic operands) = ⟨none, .instruction mnemonic operands⟩ := by
  have hread : List.zipWith Operand.read mnemonic.signature (operands.map operandText) =
      operands.map .ok := by
    rw [← hfit, List.zipWith_map_left, List.zipWith_map_right, List.zipWith_self]
    exact List.map_congr_left fun o ho => read_operandText (hlabels o ho)
  have hbody : Line.Body.ofOperation ⟨mnemonic.name, operands.map operandText⟩ =
      .instruction mnemonic operands := by
    rw [Line.Body.ofOperation_eq_instruction]
    refine ⟨mnemonic.ofName?_name, ?_, hread⟩
    rw [Mnemonic.arity, ← hfit, List.length_map, List.length_map]
  rw [Line.read, Statement.parse_of_spells (spells_instructionText hlabels)]
  simp [Line.ofStatement, hbody]

end Instruction

end Listing

end ByteAssembler
