import ByteAssembler.Proofs.Correspondence
import ByteAssembler.Proofs.Grammar
import ByteAssembler.Proofs.Validity

/-
  Neither layout nor case matters. The case of ASCII letters is ignored in mnemonics, in registers
  and in byte literals (`parse_of_sameName`), and kept in the names of labels. A statement may be
  respelled by changing the case of everything else (`Statement.Respells`). `scan_respelled`: the
  program stays the same, down to the symbols, and so do the verdict, the bytes and the
  diagnostics, but for the texts they quote. Blanks, separators and comments are not part of a
  statement at all, so any two spellings of one statement are alike.
-/

namespace ByteAssembler

/-! ## Case -/

namespace Text

theorem toNat_toUpper (c : Char) :
    c.toUpper.toNat = if 97 ≤ c.toNat ∧ c.toNat ≤ 122 then c.toNat - 32 else c.toNat := by
  have ha : 'a'.val.toNat = 97 := rfl
  have hz : 'z'.val.toNat = 122 := rfl
  have hc : c.toNat = c.val.toNat := rfl
  unfold Char.toUpper
  simp only [UInt32.le_iff_toNat_le, ha, hz, ← hc]
  split
  · next h =>
    have hadd : (c.val + ('A'.val - 'a'.val)).toNat = c.toNat - 32 := by
      have hdiff : ('A'.val - 'a'.val).toNat = 4294967264 := rfl
      rw [UInt32.toNat_add]
      omega
    exact hadd
  · rfl

/-- A character that is no letter is upper-case of itself alone. -/
theorem toUpper_eq_iff {c d : Char} (h : d.toNat < 65 ∨ 90 < d.toNat ∧ d.toNat < 97) :
    c.toUpper = d ↔ c = d := by
  rw [← Char.toNat_inj, ← Char.toNat_inj, toNat_toUpper]
  split <;> omega

theorem toUpper_toUpper (c : Char) : c.toUpper.toUpper = c.toUpper := by
  rw [← Char.toNat_inj, toNat_toUpper, toNat_toUpper]
  split
  · rw [if_neg (by omega)]
  · rfl

end Text

namespace ByteLiteral

theorem digitValue?_toUpper (c : Char) : digitValue? c.toUpper = digitValue? c := by
  have hvalue : ∀ d : Char, digitValue? d =
      if 48 ≤ d.toNat ∧ d.toNat ≤ 57 then some (d.toNat - 48)
      else if 97 ≤ d.toNat ∧ d.toNat ≤ 102 then some (d.toNat - 97 + 10)
      else if 65 ≤ d.toNat ∧ d.toNat ≤ 70 then some (d.toNat - 65 + 10)
      else none := fun _ => rfl
  rw [hvalue, hvalue, Text.toNat_toUpper]
  by_cases hlower : 97 ≤ c.toNat ∧ c.toNat ≤ 122
  · rw [if_pos hlower, if_neg (by omega : ¬(48 ≤ c.toNat - 32 ∧ c.toNat - 32 ≤ 57)),
      if_neg (by omega : ¬(97 ≤ c.toNat - 32 ∧ c.toNat - 32 ≤ 102)),
      if_neg (by omega : ¬(48 ≤ c.toNat ∧ c.toNat ≤ 57))]
    by_cases hhex : c.toNat ≤ 102
    · rw [if_pos (by omega), if_pos (by omega)]
      congr 1
    · rw [if_neg (by omega), if_neg (by omega), if_neg (by omega)]
  · rw [if_neg hlower]

theorem magnitude?_map_toUpper (radix : Nat) (digits : List Char) :
    magnitude? radix (digits.map Char.toUpper) = magnitude? radix digits := by
  unfold magnitude?
  rw [List.isEmpty_map, List.foldlM_map]
  simp only [digit?, digitValue?_toUpper]

/-- The radix mark is a zero and a letter of either case. -/
theorem splitRadix_cons_cons (c d : Char) (digits : List Char) :
    splitRadix (c :: d :: digits) =
      if c = '0' ∧ d.toUpper = 'X' then (16, digits)
      else if c = '0' ∧ d.toUpper = 'B' then (2, digits)
      else (10, c :: d :: digits) := by
  have hx : ∀ e : Char, e.toUpper = 'X' ↔ e = 'x' ∨ e = 'X' := by
    intro e
    have h : 'X'.toNat = 88 ∧ 'x'.toNat = 120 := by decide
    rw [← Char.toNat_inj, ← Char.toNat_inj, ← Char.toNat_inj, Text.toNat_toUpper]
    split <;> omega
  have hb : ∀ e : Char, e.toUpper = 'B' ↔ e = 'b' ∨ e = 'B' := by
    intro e
    have h : 'B'.toNat = 66 ∧ 'b'.toNat = 98 := by decide
    rw [← Char.toNat_inj, ← Char.toNat_inj, ← Char.toNat_inj, Text.toNat_toUpper]
    split <;> omega
  simp only [hx, hb]
  unfold splitRadix
  split
  · next h => cases h; simp
  · next h => cases h; simp
  · next h => cases h; simp
  · next h => cases h; simp
  · next hx hX hb hB =>
    have hneither : ¬(c = '0' ∧ (d = 'x' ∨ d = 'X')) ∧ ¬(c = '0' ∧ (d = 'b' ∨ d = 'B')) := by
      constructor
      · rintro ⟨rfl, rfl | rfl⟩
        · exact hx _ rfl
        · exact hX _ rfl
      · rintro ⟨rfl, rfl | rfl⟩
        · exact hb _ rfl
        · exact hB _ rfl
    rw [if_neg hneither.1, if_neg hneither.2]

theorem splitRadix_map_toUpper (text : List Char) : splitRadix (text.map Char.toUpper) =
    ((splitRadix text).1, (splitRadix text).2.map Char.toUpper) := by
  match text with
  | [] => rfl
  | [c] => simp [splitRadix]
  | c :: d :: digits =>
    have hzero : c.toUpper = '0' ↔ c = '0' := Text.toUpper_eq_iff (by decide)
    have hupper := Text.toUpper_toUpper d
    rw [List.map_cons, List.map_cons, splitRadix_cons_cons, splitRadix_cons_cons]
    simp only [hzero, hupper]
    split
    · rfl
    · split <;> rfl

theorem unsigned?_map_toUpper (text : List Char) :
    unsigned? (text.map Char.toUpper) = unsigned? text := by
  unfold unsigned?
  rw [splitRadix_map_toUpper]
  exact magnitude?_map_toUpper _ _

/-- The case of a byte literal does not matter. -/
theorem parse_upperCase (text : String) : parse (Text.upperCase text) = parse text := by
  have hupper : (Text.upperCase text).toList = text.toList.map Char.toUpper :=
    String.toList_ofList
  by_cases hminus : ∃ rest, text.toList = '-' :: rest
  · obtain ⟨rest, hrest⟩ := hminus
    have hminus : '-'.toUpper = '-' := by decide
    unfold parse
    rw [hupper, hrest]
    simp only [List.map_cons, hminus, unsigned?_map_toUpper]
  · rw [parse_of_ne_minus (not_exists.1 hminus), parse_of_ne_minus, hupper, unsigned?_map_toUpper]
    intro rest hrest
    rw [hupper, List.map_eq_cons_iff] at hrest
    obtain ⟨c, rest', htext, hc, -⟩ := hrest
    rw [Text.toUpper_eq_iff (by decide)] at hc
    exact hminus ⟨rest', hc ▸ htext⟩

theorem parse_of_sameName {text text' : String} (h : Text.SameName text text') :
    parse text' = parse text := by
  rw [← parse_upperCase text', ← h, parse_upperCase]

end ByteLiteral

/-- Whether a token starts like a number does not depend on its case. -/
theorem Operand.startsNumber_upperCase (token : String) :
    startsNumber (Text.upperCase token) = startsNumber token := by
  have hdigit : ∀ c : Char, c.toUpper.isDigit = c.isDigit := by
    intro c
    have h0 : '0'.toNat = 48 := rfl
    have h9 : '9'.toNat = 57 := rfl
    rw [Bool.eq_iff_iff, Char.isDigit_iff_toNat, Char.isDigit_iff_toNat, Text.toNat_toUpper]
    split <;> omega
  have hminus : ∀ c : Char, (c.toUpper == '-') = (c == '-') := by
    intro c
    rw [Bool.eq_iff_iff, beq_iff_eq, beq_iff_eq]
    exact Text.toUpper_eq_iff (by decide)
  unfold startsNumber Text.upperCase
  rw [String.toList_ofList]
  cases token.toList with
  | nil => rfl
  | cons c rest => simp only [List.map_cons, hdigit, hminus]

theorem Operand.startsNumber_of_sameName {token token' : String} (h : Text.SameName token token') :
    startsNumber token' = startsNumber token := by
  rw [← startsNumber_upperCase token', ← h, startsNumber_upperCase]

/-! ## Respelled statements -/

/-- The results of reading two tokens: the same operand, or corresponding problems. -/
inductive Operand.ReadsAlike :
    Except Problem (Operand String) → Except Problem (Operand String) → Prop
  | ok (o : Operand String) : ReadsAlike (.ok o) (.ok o)
  | error {p p' : Problem} (h : p.Corresponds id p') : ReadsAlike (.error p) (.error p')

/-- Two operations with the same mnemonic and the same operands up to case, where operands that
name labels are the same to the letter. -/
structure Operation.Respells (operation operation' : Operation) : Prop where
  mnemonic : Text.SameName operation.mnemonic operation'.mnemonic
  operands : List.Forall₂ Text.SameName operation.operands operation'.operands
  labels : ∀ m ∈ Mnemonic.ofName? operation.mnemonic, operation.operands.length = m.arity →
    ∀ q ∈ m.signature.zip (operation.operands.zip operation'.operands),
      q.1 = .address → Operand.startsNumber q.2.1 = false → q.2.2 = q.2.1

/-- Two statements with the same label, and with operations that are the same up to case or both
absent. -/
structure Statement.Respells (st st' : Statement) : Prop where
  label : st'.label = st.label
  operation : Option.Rel Operation.Respells st.operation st'.operation

theorem Operation.Respells.refl (operation : Operation) : operation.Respells operation where
  mnemonic := rfl
  operands := List.forall₂_same.2 fun _ _ => rfl
  labels m _ _ q hq _ _ := by
    have hself : q.2 ∈ operation.operands.zip operation.operands := (List.of_mem_zip hq).2
    rw [List.zip, List.zipWith_self] at hself
    obtain ⟨token, -, htoken⟩ := List.mem_map.1 hself
    rw [← htoken]

theorem Statement.Respells.refl (st : Statement) : st.Respells st := by
  refine ⟨rfl, ?_⟩
  cases st.operation with
  | none => exact .none
  | some operation => exact .some (.refl operation)

section Corresponds

theorem Operand.readNumber_of_sameName {token token' : String} (h : Text.SameName token token')
    (f : UInt8 → Operand String) :
    ReadsAlike (f <$> readNumber token) (f <$> readNumber token') := by
  unfold readNumber
  rw [ByteLiteral.parse_of_sameName h]
  cases ByteLiteral.parse token with
  | ok value => exact .ok _
  | error reason => exact .error (.invalidNumber token token' reason)

theorem Operand.read_of_sameName {kind : OperandKind} {token token' : String}
    (h : Text.SameName token token')
    (hlabel : kind = .address → startsNumber token = false → token' = token) :
    ReadsAlike (read kind token) (read kind token') := by
  cases kind with
  | register =>
    have hname : Register.ofName? token' = Register.ofName? token := by
      unfold Register.ofName?
      rw [h]
    unfold read
    rw [hname]
    cases Register.ofName? token with
    | some r => exact .ok _
    | none => exact .error (.invalidRegister token token')
  | immediate => exact readNumber_of_sameName h _
  | address =>
    unfold read
    rw [startsNumber_of_sameName h]
    cases hs : startsNumber token with
    | true => exact readNumber_of_sameName h _
    | false =>
      rw [hlabel rfl hs]
      exact .ok _

theorem Operand.zipWith_read_of_sameName {kinds : List OperandKind} {tokens tokens' : List String}
    (h : List.Forall₂ Text.SameName tokens tokens')
    (hlabels : ∀ q ∈ kinds.zip (tokens.zip tokens'),
      q.1 = .address → startsNumber q.2.1 = false → q.2.2 = q.2.1) :
    List.Forall₂ ReadsAlike (List.zipWith read kinds tokens) (List.zipWith read kinds tokens') := by
  induction h generalizing kinds with
  | nil => simp
  | @cons token token' tokens tokens' htoken hrest ih =>
    cases kinds with
    | nil => exact .nil
    | cons kind kinds =>
      refine .cons (read_of_sameName htoken (hlabels _ List.mem_cons_self)) (ih fun q hq => ?_)
      exact hlabels q (List.mem_cons_of_mem _ hq)

theorem Operand.mapLabel_id {ι : Type} (o : Operand ι) : o.mapLabel id = o := by
  cases o with
  | address target => cases target <;> rfl
  | _ => rfl

namespace Line.Body

theorem problemsOf_readsAlike {results results' : List (Except Problem (Operand String))}
    (h : List.Forall₂ Operand.ReadsAlike results results') :
    List.Forall₂ (Problem.Corresponds id) (problemsOf results) (problemsOf results') := by
  induction h with
  | nil => exact .nil
  | cons hr _ ih =>
    cases hr with
    | ok o => exact ih
    | error hp => exact .cons hp ih

theorem filterMap_toOption_readsAlike {results results' : List (Except Problem (Operand String))}
    (h : List.Forall₂ Operand.ReadsAlike results results') :
    results'.filterMap (·.toOption) = results.filterMap (·.toOption) := by
  induction h with
  | nil => rfl
  | cons hr _ ih =>
    cases hr with
    | ok o => exact congrArg (o :: ·) ih
    | error hp => exact ih

theorem ofTokens_corresponds {m : Mnemonic} {tokens tokens' : List String}
    (h : List.Forall₂ Operand.ReadsAlike (List.zipWith Operand.read m.signature tokens)
      (List.zipWith Operand.read m.signature tokens')) :
    (ofTokens m tokens).Corresponds id (ofTokens m tokens') := by
  have hproblems := problemsOf_readsAlike h
  rw [ofTokens_eq, ofTokens_eq, filterMap_toOption_readsAlike h]
  generalize problemsOf (List.zipWith Operand.read m.signature tokens) = ps at hproblems ⊢
  generalize problemsOf (List.zipWith Operand.read m.signature tokens') = ps' at hproblems ⊢
  cases hproblems with
  | nil =>
    have hinstruction := @Corresponds.instruction id m
      ((List.zipWith Operand.read m.signature tokens).filterMap (·.toOption))
    simpa [Operand.mapLabel_id] using hinstruction
  | cons hp hrest => exact .rejected (.cons hp hrest)

theorem ofOperation_corresponds {operation operation' : Operation}
    (h : operation.Respells operation') :
    (ofOperation operation).Corresponds id (ofOperation operation') := by
  have hname : Mnemonic.ofName? operation'.mnemonic = Mnemonic.ofName? operation.mnemonic := by
    unfold Mnemonic.ofName?
    rw [h.mnemonic]
  unfold ofOperation
  rw [hname, ← h.operands.length_eq]
  cases hm : Mnemonic.ofName? operation.mnemonic with
  | none => exact .rejected (.cons (.unknownMnemonic _ _) .nil)
  | some m =>
    dsimp only
    split
    · next harity =>
      exact ofTokens_corresponds
        (Operand.zipWith_read_of_sameName h.operands (h.labels m hm harity))
    · exact .rejected (.cons (.operandCount _ _ _) .nil)

end Line.Body

theorem Line.corresponds_of_respells {st st' : Statement} (h : st.Respells st') :
    (ofStatement st).Corresponds id (ofStatement st') := by
  obtain ⟨label, operation⟩ := st
  obtain ⟨label', operation'⟩ := st'
  refine ⟨h.label.trans Option.map_id_apply.symm, ?_⟩
  unfold ofStatement
  cases h.operation with
  | none => exact .empty
  | some hop => exact Body.ofOperation_corresponds hop

end Corresponds

theorem SymbolTable.rename_id (t : SymbolTable) : t.rename id = t := by
  unfold rename
  rw [show (fun s : Symbol => s.rename id) = id from rfl, List.map_id]

/-- **Neither layout nor case matters.** If the lines of two sources are pairwise both no
statements, or statements that differ in the case of anything but labels, then both scans give the
same instructions, the same symbols and the same verdict, their diagnostics agree one by one but for
the texts they quote, and the encoded bytes are the same. Blanks, separators and comments make no
difference to what a line states. -/
theorem scan_respelled (config : Config) :
    (∀ texts texts' : List String, List.Forall₂ (Line.Related Statement.Respells) texts texts' →
      (scan config texts').program.instructions = (scan config texts).program.instructions ∧
      (scan config texts').program.symbols = (scan config texts).program.symbols ∧
      (scan config texts').failed = (scan config texts).failed ∧
      List.Forall₂ (fun d d' => d'.line = d.line ∧ d'.severity = d.severity ∧
        d.problem.Corresponds id d'.problem)
        (scan config texts).diagnostics (scan config texts').diagnostics ∧
      MachineCode.encode (scan config texts').program =
        MachineCode.encode (scan config texts).program ∧
      ∃ a a', assembleLines config texts = .ok a ∧ assembleLines config texts' = .ok a' ∧
        a'.success = a.success ∧ a'.bytes = a.bytes) ∧
    ∀ (st st' : Statement) (text text' : String), st.Spells text → st'.Spells text' →
      st' = st ∨ st.Respells st' → Line.Related Statement.Respells text text' := by
  constructor
  · intro texts texts' h
    have hstatement : ∀ st st' : Statement, st.Respells st' →
        (Line.ofStatement st).Corresponds id (Line.ofStatement st') :=
      fun _ _ => Line.corresponds_of_respells
    have hscan := scan_corresponds hstatement Function.injective_id config h
    have hsymbols : (scan config texts').program.symbols = (scan config texts).program.symbols :=
      hscan.symbols.trans (SymbolTable.rename_id _)
    have hprogram : (scan config texts').program = (scan config texts).program := by
      rw [Program.mk.injEq]
      exact ⟨hscan.instructions, hsymbols⟩
    refine ⟨hscan.instructions, hsymbols, hscan.failed, ?_, by rw [hprogram],
      assembleLines_corresponds hstatement Function.injective_id config h⟩
    exact hscan.diagnostics.imp fun d d' hd => ⟨hd.line, hd.problem.severity, hd.problem⟩
  · intro st st' text text' h h' hst
    refine .statements (Statement.parse_of_spells h) (Statement.parse_of_spells h') ?_
    rcases hst with rfl | hst
    · exact .refl _
    · exact hst

instance (operation operation' : Operation) : Decidable (operation.Respells operation') :=
  have : DecidableRel Text.SameName := fun a b =>
    inferInstanceAs (Decidable (Text.upperCase a = Text.upperCase b))
  decidable_of_iff
    (Text.SameName operation.mnemonic operation'.mnemonic ∧
      List.Forall₂ Text.SameName operation.operands operation'.operands ∧
      ∀ m ∈ Mnemonic.ofName? operation.mnemonic, operation.operands.length = m.arity →
        ∀ q ∈ m.signature.zip (operation.operands.zip operation'.operands),
          q.1 = .address → Operand.startsNumber q.2.1 = false → q.2.2 = q.2.1)
    ⟨fun h => ⟨h.1, h.2.1, h.2.2⟩, fun h => ⟨h.mnemonic, h.operands, h.labels⟩⟩

instance (st st' : Statement) : Decidable (st.Respells st') :=
  match st, st' with
  | ⟨label, none⟩, ⟨label', none⟩ =>
    decidable_of_iff (label' = label) ⟨fun h => ⟨h, .none⟩, fun h => h.label⟩
  | ⟨label, some operation⟩, ⟨label', some operation'⟩ =>
    decidable_of_iff (label' = label ∧ operation.Respells operation')
      ⟨fun h => ⟨h.1, .some h.2⟩, fun h => ⟨h.label, by cases h.operation; assumption⟩⟩
  | ⟨_, none⟩, ⟨_, some _⟩ => .isFalse fun h => nomatch h.operation
  | ⟨_, some _⟩, ⟨_, none⟩ => .isFalse fun h => nomatch h.operation

/-- Three instructions, a register and a number that do not exist, and a line that is no
statement. -/
def Source.tidy : List String :=
  ["start: mvi b, 0x1f", "jnz start ; again", "mov q, a", "adi 0xfg", "ani -0b101", "a:b:c"]

def Source.untidy : List String :=
  [" start:MVI\tB 0X1F;load", "  JnZ   start", "MOV Q A", "Adi  0XfG ;; ?", "ANI -0B101", ","]

theorem scan_respelled_untidy :
    List.Forall₂ (Line.Related Statement.Respells) Source.tidy Source.untidy ∧
    (scan {} Source.tidy).program.instructions.map (·.mnemonic) = [.mvi, .jnz, .ani] ∧
    (scan {} Source.untidy).program.instructions = (scan {} Source.tidy).program.instructions ∧
    (scan {} Source.untidy).diagnostics.map (·.problem) =
      [.invalidRegister "Q", .invalidNumber "0XfG" .format,
        .malformedLine "expected a mnemonic, found \",\""] ∧
    List.Forall₂ (fun d d' => d'.line = d.line ∧ d'.severity = d.severity ∧
      d.problem.Corresponds id d'.problem)
      (scan {} Source.tidy).diagnostics (scan {} Source.untidy).diagnostics ∧
    Line.Related Statement.Respells "ret" " RET ; done" := by
  have h : List.Forall₂ (Line.Related Statement.Respells) Source.tidy Source.untidy := by
    decide +kernel
  have hlower : "ret".toList.takeWhile (· != ';') = [] ++ ([] ++ ([] ++ ("ret".toList ++ []))) := by
    decide +kernel
  have hupper : " RET ; done".toList.takeWhile (· != ';') =
      [' '] ++ ([] ++ ([] ++ ("RET".toList ++ [' ']))) := by
    decide +kernel
  have hspells : Statement.Spells ⟨none, some ⟨"ret", []⟩⟩ "ret" := by
    rw [Statement.Spells, hlower]
    exact .mk Text.blanks_nil .absent Text.blanks_nil (.bare (by decide +kernel)) Text.blanks_nil
  have hspells' : Statement.Spells ⟨none, some ⟨"RET", []⟩⟩ " RET ; done" := by
    rw [Statement.Spells, hupper]
    exact .mk (by decide) .absent Text.blanks_nil (.bare (by decide +kernel)) (by decide)
  obtain ⟨hinstructions, -, -, hdiagnostics, -⟩ := (scan_respelled {}).1 _ _ h
  exact ⟨h, by decide +kernel, hinstructions, by decide +kernel, hdiagnostics,
    (scan_respelled {}).2 _ _ _ _ hspells hspells' (.inr (by decide +kernel))⟩

end ByteAssembler
