import ByteAssembler.Proofs.Correspondence
import ByteAssembler.Proofs.Validity
import ByteAssembler.Proofs.Words
import Mathlib.Logic.Equiv.Basic

/-
  The names of labels do not matter. A renaming maps words to words, one to one, and keeps apart
  those that start with a digit, since an address that starts so is a number (`Renaming`). It
  changes the labels of a statement and, if the operation is accepted, the operands that name
  labels (`Statement.rename`). `scan_renamed`: a source and the renamed one give the same
  instructions, the same verdict and the same machine code, with renamed symbols and reports. It
  makes no difference whether a name is also that of a mnemonic or of a register, or reads like
  hexadecimal digits.
-/

namespace ByteAssembler

/-- A non-empty run of word characters: what may be the name of a label. -/
structure Word where
  text : String
  isWord : Text.isWord text.toList = true
  deriving DecidableEq

def Word.startsWithDigit (w : Word) : Bool :=
  w.text.toList.head?.any Char.isDigit

/-- A one-to-one map of words that keeps words with a digit in front among themselves. -/
structure Renaming where
  map : Word → Word
  injective : Function.Injective map
  startsWithDigit : ∀ w, (map w).startsWithDigit = w.startsWithDigit

namespace Renaming

variable (ρ : Renaming)

/-- The new name of a label. -/
def apply (name : String) : String :=
  if h : Text.isWord name.toList = true then (ρ.map ⟨name, h⟩).text else name

theorem apply_word (w : Word) : ρ.apply w.text = (ρ.map w).text :=
  dif_pos w.isWord

theorem apply_of_not_isWord {name : String} (h : ¬Text.isWord name.toList = true) :
    ρ.apply name = name :=
  dif_neg h

theorem apply_injective : Function.Injective ρ.apply := by
  -- Words go to words and everything else stays, so the two kinds cannot meet.
  have hcross : ∀ (w : Word) (name : String), ¬Text.isWord name.toList = true →
      ρ.apply w.text ≠ ρ.apply name := by
    intro w name hname heq
    rw [apply_word, apply_of_not_isWord ρ hname] at heq
    exact hname (heq ▸ (ρ.map w).isWord)
  intro a b hab
  by_cases ha : Text.isWord a.toList = true <;> by_cases hb : Text.isWord b.toList = true
  · have hwords := (ρ.apply_word ⟨a, ha⟩).symm.trans (hab.trans (ρ.apply_word ⟨b, hb⟩))
    have hmap : ρ.map ⟨a, ha⟩ = ρ.map ⟨b, hb⟩ := by
      rw [Word.mk.injEq]
      exact hwords
    exact congrArg Word.text (ρ.injective hmap)
  · exact absurd hab (hcross ⟨a, ha⟩ b hb)
  · exact absurd hab.symm (hcross ⟨b, hb⟩ a ha)
  · rwa [apply_of_not_isWord ρ ha, apply_of_not_isWord ρ hb] at hab

end Renaming

/-- No word starts with a minus sign, so one that starts like a number starts with a digit. -/
theorem Operand.startsNumber_word (w : Word) : startsNumber w.text = w.startsWithDigit := by
  have hchars := (Text.isWord_iff.1 w.isWord).2
  unfold startsNumber Word.startsWithDigit
  cases htext : w.text.toList with
  | nil => rfl
  | cons c rest =>
    have hminus : (c == '-') = false := by
      rw [beq_eq_false_iff_ne]
      rintro rfl
      exact absurd (hchars '-' (htext ▸ List.mem_cons_self)) (by decide +kernel)
    simp [hminus]

theorem Renaming.startsNumber_apply (ρ : Renaming) (token : String) :
    Operand.startsNumber (ρ.apply token) = Operand.startsNumber token := by
  by_cases h : Text.isWord token.toList = true
  · rw [ρ.apply_word ⟨token, h⟩, Operand.startsNumber_word, ρ.startsWithDigit]
    exact (Operand.startsNumber_word ⟨token, h⟩).symm
  · rw [ρ.apply_of_not_isWord h]

/-! ## Renamed statements -/

/-- The token with a new name if it names a label. -/
def Operand.renameToken (ρ : Renaming) (kind : OperandKind) (token : String) : String :=
  if kind = .address ∧ !startsNumber token then ρ.apply token else token

/-- The operation with new names for the operands that name labels. -/
def Operation.rename (ρ : Renaming) (operation : Operation) : Operation :=
  match Mnemonic.ofName? operation.mnemonic with
  | some m =>
    { operation with
      operands := List.zipWith (Operand.renameToken ρ) m.signature operation.operands }
  | none => operation

/-- The statement with new names for its label and, unless its operation is rejected, for the
operands that name labels. -/
def Statement.rename (ρ : Renaming) (statement : Statement) : Statement :=
  { label := statement.label.map ρ.apply
    operation :=
      if statement.Valid then statement.operation.map (·.rename ρ) else statement.operation }

section Corresponds

variable {ρ : Renaming}

theorem Operand.read_renameToken {kind : OperandKind} {token : String} {o : Operand String}
    (h : read kind token = .ok o) :
    read kind (renameToken ρ kind token) = .ok (o.mapLabel ρ.apply) := by
  rw [read_eq_ok_iff] at h ⊢
  unfold renameToken
  cases h with
  | register hr => exact .register hr
  | immediate hn => exact .immediate hn
  | absolute hs hn =>
    rw [if_neg (by simp [hs])]
    exact .absolute hs hn
  | label hs =>
    rw [if_pos (by simp [hs])]
    exact .label ((ρ.startsNumber_apply token).trans hs)

theorem Operand.zipWith_read_renameToken {kinds : List OperandKind} {tokens : List String}
    {operands : List (Operand String)}
    (h : List.zipWith read kinds tokens = operands.map .ok) :
    List.zipWith read kinds (List.zipWith (renameToken ρ) kinds tokens) =
      (operands.map (·.mapLabel ρ.apply)).map .ok := by
  induction kinds generalizing tokens operands with
  | nil =>
    rw [List.map_eq_nil_iff.1 h.symm]
    rfl
  | cons kind kinds ih =>
    cases tokens with
    | nil =>
      rw [List.map_eq_nil_iff.1 h.symm]
      rfl
    | cons token tokens =>
      cases operands with
      | nil => cases h
      | cons operand operands =>
        obtain ⟨hread, hrest⟩ := List.cons.inj h
        rw [List.zipWith_cons_cons, List.zipWith_cons_cons, read_renameToken hread, ih hrest]
        rfl

/-- An operation that makes an instruction makes the same one with renamed labels. -/
theorem Line.Body.ofOperation_rename {operation : Operation} {m : Mnemonic}
    {operands : List (Operand String)} (h : ofOperation operation = .instruction m operands) :
    ofOperation (operation.rename ρ) = .instruction m (operands.map (·.mapLabel ρ.apply)) := by
  obtain ⟨hm, hlen, hread⟩ := ofOperation_eq_instruction.1 h
  have hrename : operation.rename ρ =
      { operation with
        operands := List.zipWith (Operand.renameToken ρ) m.signature operation.operands } := by
    rw [Operation.rename, hm]
  rw [hrename, ofOperation_eq_instruction]
  refine ⟨hm, ?_, Operand.zipWith_read_renameToken hread⟩
  dsimp only
  rw [List.length_zipWith, hlen, Mnemonic.arity, Nat.min_self]

theorem Line.corresponds_rename (st : Statement) :
    (ofStatement st).Corresponds ρ.apply (ofStatement (st.rename ρ)) := by
  refine ⟨rfl, ?_⟩
  unfold ofStatement Statement.rename
  by_cases hv : st.Valid
  · rw [if_pos hv]
    cases ho : st.operation with
    | none => exact .empty
    | some operation =>
      obtain ⟨m, operands, hb⟩ := Body.exists_instruction_iff_valid.2 (hv operation ho)
      simp only [Option.map_some, Option.elim_some, hb, Body.ofOperation_rename hb]
      exact .instruction m operands
  · rw [if_neg hv]
    dsimp only
    cases hb : st.operation.elim .empty Body.ofOperation with
    | rejected ps =>
      refine .rejected (List.forall₂_same.2 fun p hp => ?_)
      exact .of_isRejection ρ.apply ((ofStatement_rejectsForCause st ps hb).2 p hp)
    | _ => exact absurd (Statement.valid_iff.2 (by simp [ofStatement, hb])) hv

end Corresponds

/-- **The names of labels do not matter.** If every line of the second source is the line of the
first with labels renamed, or both are no statements, then both scans have the same verdict and the
same instructions, with the same label indices, addresses and lines; the symbols are the same but
for their names, the diagnostics agree one by one but for the texts they quote, and the assembled
bytes are the same. -/
theorem scan_renamed (config : Config) (ρ : Renaming) {texts texts' : List String}
    (h : List.Forall₂ (Line.Related fun st st' => st' = st.rename ρ) texts texts') :
    (scan config texts').failed = (scan config texts).failed ∧
    (scan config texts').program.instructions = (scan config texts).program.instructions ∧
    (scan config texts').program.symbols = (scan config texts).program.symbols.rename ρ.apply ∧
    List.Forall₂ (fun d d' => d'.line = d.line ∧ d'.severity = d.severity ∧
      d.problem.Corresponds ρ.apply d'.problem)
      (scan config texts).diagnostics (scan config texts').diagnostics ∧
    ∃ a a', assembleLines config texts = .ok a ∧ assembleLines config texts' = .ok a' ∧
      a'.success = a.success ∧ a'.bytes = a.bytes := by
  have hstatement : ∀ st st' : Statement, st' = st.rename ρ →
      (Line.ofStatement st).Corresponds ρ.apply (Line.ofStatement st') := by
    rintro st _ rfl
    exact Line.corresponds_rename st
  have hscan := scan_corresponds hstatement ρ.apply_injective config h
  refine ⟨hscan.failed, hscan.instructions, hscan.symbols, ?_,
    assembleLines_corresponds hstatement ρ.apply_injective config h⟩
  exact hscan.diagnostics.imp fun d d' hd => ⟨hd.line, hd.problem.severity, hd.problem⟩

namespace Renaming

/-- Exchanges two words, if both of them start with a digit or neither does. -/
def swap (v w : Word) (h : v.startsWithDigit = w.startsWithDigit) : Renaming where
  map := Equiv.swap v w
  injective := (Equiv.swap v w).injective
  startsWithDigit u := by
    rw [Equiv.swap_apply_def]
    split
    · next hu => rw [hu, h]
    · split
      · next hu => rw [hu, h]
      · rfl

/-- One renaming after the other. -/
def trans (ρ σ : Renaming) : Renaming where
  map := σ.map ∘ ρ.map
  injective := σ.injective.comp ρ.injective
  startsWithDigit w := (σ.startsWithDigit (ρ.map w)).trans (ρ.startsWithDigit w)

/-- New names that look like a mnemonic, a register, hexadecimal digits and a number. -/
def lookalikes : Renaming :=
  (swap ⟨"start", by decide⟩ ⟨"mov", by decide⟩ (by decide)).trans <|
    (swap ⟨"loop", by decide⟩ ⟨"b", by decide⟩ (by decide)).trans <|
      (swap ⟨"end", by decide⟩ ⟨"ff", by decide⟩ (by decide)).trans <|
        swap ⟨"1st", by decide⟩ ⟨"0x10", by decide⟩ (by decide)

end Renaming

/-- Two labels at one address, and labels that are used before, on and after their lines. -/
def Source.plainNames : List String :=
  ["start:", "loop: jmp end", "1st: mvi b, 0xff", "end: jz loop", "jmp start"]

def Source.oddNames : List String :=
  ["mov:", "b: jmp ff", "0x10: mvi b, 0xff", "ff: jz b", "jmp mov"]

theorem scan_renamed_lookalikes :
    List.Forall₂ (Line.Related fun st st' => st' = st.rename .lookalikes) Source.plainNames
      Source.oddNames ∧
    (scan {} Source.oddNames).program.symbols.names = ["mov", "b", "ff", "0x10"] ∧
    (scan {} Source.oddNames).program.instructions =
      (scan {} Source.plainNames).program.instructions ∧
    ∃ a a', assembleLines {} Source.plainNames = .ok a ∧
      assembleLines {} Source.oddNames = .ok a' ∧ a'.success = a.success ∧ a'.bytes = a.bytes := by
  have h : List.Forall₂ (Line.Related fun st st' => st' = st.rename .lookalikes) Source.plainNames
      Source.oddNames := by decide +kernel
  obtain ⟨-, hinstructions, hsymbols, -, hbytes⟩ := scan_renamed {} .lookalikes h
  refine ⟨h, ?_, hinstructions, hbytes⟩
  rw [hsymbols]
  decide +kernel

end ByteAssembler
