import ByteAssembler.Proofs.DiagnosticOrder
import ByteAssembler.Proofs.EncoderContract
import Mathlib.Data.List.Forall2
import Mathlib.Logic.Function.Basic

/-
  Two scans side by side whose lines differ in nothing that reaches the program. The labels of the
  second have other names, one for each name of the first (`ρ`, which has to be injective); the
  texts that reports quote may differ in any way (`Problem.Corresponds`, `Line.Corresponds`). One
  line keeps the states of the two scans in step (`feed_corresponds`), hence so does a list of
  lines (`run_corresponds`). At the end the instructions are the same, the symbol tables differ in
  the names alone, the diagnostics correspond one by one and the machine code is the same
  (`finish_corresponds`, `scan_corresponds`, `assembleLines_corresponds`).
-/

namespace ByteAssembler

/-- Two reports on the same fault: labels are renamed by `ρ`, and other text of the source may be
spelled in another way. Everything else that a report says is the same. -/
inductive Problem.Corresponds (ρ : String → String) : Problem → Problem → Prop
  | malformedLine (reason reason' : String) :
    Corresponds ρ (.malformedLine reason) (.malformedLine reason')
  | unknownMnemonic (text text' : String) :
    Corresponds ρ (.unknownMnemonic text) (.unknownMnemonic text')
  | operandCount (m : Mnemonic) (expected found : Nat) :
    Corresponds ρ (.operandCount m expected found) (.operandCount m expected found)
  | invalidRegister (text text' : String) :
    Corresponds ρ (.invalidRegister text) (.invalidRegister text')
  | invalidNumber (text text' : String) (reason : NumberError) :
    Corresponds ρ (.invalidNumber text reason) (.invalidNumber text' reason)
  | undefinedLabel (name : String) :
    Corresponds ρ (.undefinedLabel name) (.undefinedLabel (ρ name))
  | duplicateLabel (name : String) (firstLine : Nat) :
    Corresponds ρ (.duplicateLabel name firstLine) (.duplicateLabel (ρ name) firstLine)
  | labelOutOfRange (name : String) (address : Nat) :
    Corresponds ρ (.labelOutOfRange name address) (.labelOutOfRange (ρ name) address)
  | programTooLarge (memorySize : Nat) :
    Corresponds ρ (.programTooLarge memorySize) (.programTooLarge memorySize)
  | redundantLabel (name existing : String) (address : Nat) :
    Corresponds ρ (.redundantLabel name existing address)
      (.redundantLabel (ρ name) (ρ existing) address)

/-- Two diagnostics on the same fault of the same line. -/
structure Diagnostic.Corresponds (ρ : String → String) (d d' : Diagnostic) : Prop where
  line : d'.line = d.line
  problem : d.problem.Corresponds ρ d'.problem

theorem Problem.Corresponds.severity {ρ : String → String} {p p' : Problem}
    (h : p.Corresponds ρ p') : p'.severity = p.severity := by
  cases h <;> rfl

/-- A rejected operation without label names in its reports corresponds to itself. -/
theorem Problem.Corresponds.of_isRejection (ρ : String → String) {p : Problem}
    (h : p.isRejection = true) : p.Corresponds ρ p := by
  cases p with
  | malformedLine reason => exact .malformedLine reason reason
  | unknownMnemonic text => exact .unknownMnemonic text text
  | operandCount m expected found => exact .operandCount m expected found
  | invalidRegister text => exact .invalidRegister text text
  | invalidNumber text reason => exact .invalidNumber text text reason
  | _ => cases h

/-! ## Symbol tables with other names -/

/-- The symbol under another name. -/
def Symbol.rename (ρ : String → String) (s : Symbol) : Symbol :=
  { s with name := ρ s.name }

namespace SymbolTable

/-- The same labels in the same places, under other names. -/
def rename (ρ : String → String) (t : SymbolTable) : SymbolTable :=
  ⟨t.entries.map (·.rename ρ)⟩

/-- The same operation on a label with another name. -/
def Update.rename (ρ : String → String) : Update → Update
  | .declare name => .declare (ρ name)
  | .reference name line => .reference (ρ name) line
  | .define name definition => .define (ρ name) definition

theorem nameAt?_rename (ρ : String → String) (t : SymbolTable) (address : Nat) :
    (t.rename ρ).nameAt? address = (t.nameAt? address).map ρ := by
  unfold nameAt? rename
  rw [List.find?_map, Option.map_map, Option.map_map]
  rfl

section Injective

variable {ρ : String → String} (hρ : Function.Injective ρ) (t : SymbolTable)

include hρ

theorem indexOf_rename (name : String) : (t.rename ρ).indexOf (ρ name) = t.indexOf name := by
  have hname : ∀ s : Symbol, ((s.rename ρ).name == ρ name) = (s.name == name) := by
    intro s
    rw [Bool.eq_iff_iff, beq_iff_eq, beq_iff_eq]
    exact hρ.eq_iff
  unfold indexOf rename
  rw [List.findIdx_map]
  exact congrArg (t.entries.findIdx ·) (funext hname)

theorem find?_rename (name : String) :
    (t.rename ρ).find? (ρ name) = (t.find? name).map (·.rename ρ) := by
  unfold find? get?
  rw [indexOf_rename hρ]
  exact List.getElem?_map

theorem definition?_rename (name : String) :
    (t.rename ρ).definition? (ρ name) = t.definition? name := by
  unfold definition?
  rw [find?_rename hρ]
  cases t.find? name <;> rfl

theorem declare_rename (name : String) :
    (t.rename ρ).declare (ρ name) = (t.declare name).rename ρ := by
  have hlength : (t.rename ρ).entries.length = t.entries.length := List.length_map _
  unfold declare
  rw [indexOf_rename hρ, hlength]
  split
  · rfl
  · simp [rename, Symbol.rename]

theorem update_rename (name : String) {change : Symbol → Symbol}
    (hc : ∀ s, change (s.rename ρ) = (change s).rename ρ) :
    (t.rename ρ).update (ρ name) change = (t.update name change).rename ρ := by
  unfold update
  rw [indexOf_rename hρ, declare_rename hρ]
  refine congrArg SymbolTable.mk (List.ext_getElem? fun i => ?_)
  simp only [rename, List.getElem?_map, List.getElem?_modify]
  cases (t.declare name).entries[i]? with
  | none => rfl
  | some s => by_cases hi : t.indexOf name = i <;> simp [hi, hc]

theorem apply_rename (u : Update) : (t.rename ρ).apply (u.rename ρ) = (t.apply u).rename ρ := by
  cases u with
  | declare name => exact declare_rename hρ t name
  | reference name line => exact update_rename hρ t name fun _ => rfl
  | define name d =>
    have hd := definition?_rename hρ t name
    cases hfirst : t.definition? name with
    | none =>
      rw [hfirst] at hd
      rw [Update.rename, apply_define_of_none hd, apply_define_of_none hfirst]
      exact update_rename hρ t name fun _ => rfl
    | some first =>
      rw [hfirst] at hd
      rw [Update.rename, apply_define_of_some hd, apply_define_of_some hfirst]

theorem applyAll_rename (us : List Update) :
    (t.rename ρ).applyAll (us.map (·.rename ρ)) = (t.applyAll us).rename ρ := by
  induction us generalizing t with
  | nil => rfl
  | cons u us ih =>
    have hstep := ih (t.apply u)
    rw [← apply_rename hρ] at hstep
    exact hstep

end Injective

end SymbolTable

/-! ## Lines -/

/-- Two bodies that are both empty, both rejected for the same reasons, or the same instruction
but for the names of labels. -/
inductive Line.Body.Corresponds (ρ : String → String) : Line.Body → Line.Body → Prop
  | empty : Corresponds ρ .empty .empty
  | rejected {ps ps' : List Problem} (h : List.Forall₂ (Problem.Corresponds ρ) ps ps') :
    Corresponds ρ (.rejected ps) (.rejected ps')
  | instruction (m : Mnemonic) (operands : List (Operand String)) :
    Corresponds ρ (.instruction m operands) (.instruction m (operands.map (·.mapLabel ρ)))

/-- Two lines that say the same, the second with the labels renamed. -/
structure Line.Corresponds (ρ : String → String) (l l' : Line) : Prop where
  label : l'.label = l.label.map ρ
  body : l.body.Corresponds ρ l'.body

namespace Operand

theorem label?_mapLabel {ι κ : Type} (f : ι → κ) (o : Operand ι) :
    (o.mapLabel f).label? = o.label?.map f := by
  cases o with
  | address target => cases target <;> rfl
  | _ => rfl

theorem mapLabel_mapLabel {ι κ μ : Type} (f : ι → κ) (g : κ → μ) (o : Operand ι) :
    (o.mapLabel f).mapLabel g = o.mapLabel (g ∘ f) := by
  cases o with
  | address target => cases target <;> rfl
  | _ => rfl

theorem kind_mapLabel {ι κ : Type} (f : ι → κ) (o : Operand ι) : (o.mapLabel f).kind = o.kind := by
  cases o with
  | address target => cases target <;> rfl
  | _ => rfl

theorem byte_mapLabel (ρ : String → String) (address : String → UInt8) (o : Operand String) :
    (o.mapLabel ρ).byte address = o.byte (address ∘ ρ) := by
  cases o with
  | address target => cases target <;> rfl
  | _ => rfl

end Operand

namespace Line.Corresponds

variable {ρ : String → String} {l l' : Line}

theorem uses (h : l.Corresponds ρ l') : l'.uses = l.uses.map ρ := by
  obtain ⟨label, body⟩ := l
  obtain ⟨label', body'⟩ := l'
  cases h.body with
  | instruction m operands =>
    simp only [Line.uses, List.filterMap_map, List.map_filterMap, Function.comp_def,
      Operand.label?_mapLabel]
  | _ => rfl

theorem updates (h : l.Corresponds ρ l') (address line : Nat) :
    l'.updates address line = (l.updates address line).map (·.rename ρ) := by
  unfold Line.updates
  rw [h.label, h.uses]
  cases l.label <;> simp [SymbolTable.Update.rename, Function.comp_def]

/-- The two lines have the same instruction if the tables give the same indices. -/
theorem instruction? (h : l.Corresponds ρ l') {index index' : String → Nat}
    (hindex : ∀ name, index' (ρ name) = index name) (address line : Nat) :
    l'.instruction? index' address line = l.instruction? index address line := by
  obtain ⟨label, body⟩ := l
  obtain ⟨label', body'⟩ := l'
  cases h.body with
  | instruction m operands =>
    simp only [Line.instruction?, List.map_map, Function.comp_def, Operand.mapLabel_mapLabel,
      hindex]
  | _ => rfl

theorem machineCode (h : l.Corresponds ρ l') (address : String → UInt8) :
    l'.machineCode address = l.machineCode (address ∘ ρ) := by
  obtain ⟨label, body⟩ := l
  obtain ⟨label', body'⟩ := l'
  cases h.body with
  | instruction m operands =>
    simp only [Line.machineCode, List.map_map, Function.comp_def, Operand.kind_mapLabel,
      Operand.byte_mapLabel]
  | _ => rfl

end Line.Corresponds

/-! ## Two scans side by side -/

/-- What two scans in step give: the same instructions, the same table but for the names,
corresponding diagnostics and the same verdict. -/
structure Scanned.Corresponds (ρ : String → String) (r r' : Scanned) : Prop where
  instructions : r'.program.instructions = r.program.instructions
  symbols : r'.program.symbols = r.program.symbols.rename ρ
  diagnostics : List.Forall₂ (Diagnostic.Corresponds ρ) r.diagnostics r'.diagnostics
  failed : r'.failed = r.failed

namespace Scan

/-- The states of two scans in step. -/
structure Corresponds (ρ : String → String) (s s' : Scan) : Prop where
  line : s'.line = s.line
  offset : s'.offset = s.offset
  symbols : s'.symbols = s.symbols.rename ρ
  overflowed : s'.overflowed = s.overflowed
  instructions : s'.instructions = s.instructions
  diagnostics : List.Forall₂ (Diagnostic.Corresponds ρ) s.diagnostics.toList s'.diagnostics.toList

section Step

variable {ρ : String → String} {s s' : Scan} {l l' : Line}

theorem nextOffset_corresponds (hs : s.Corresponds ρ s') (hl : l.Corresponds ρ l') :
    s'.nextOffset l' = s.nextOffset l := by
  obtain ⟨label, body⟩ := l
  obtain ⟨label', body'⟩ := l'
  unfold nextOffset
  rw [hs.offset]
  cases hl.body <;> rfl

theorem exceeds_corresponds (hs : s.Corresponds ρ s') (config : Config) (length : Nat) :
    s'.exceeds config length = s.exceeds config length := by
  rw [exceeds, exceeds, hs.offset, hs.overflowed]

theorem nextOverflowed_corresponds (hs : s.Corresponds ρ s') (hl : l.Corresponds ρ l')
    (config : Config) : s'.nextOverflowed config l' = s.nextOverflowed config l := by
  obtain ⟨label, body⟩ := l
  obtain ⟨label', body'⟩ := l'
  unfold nextOverflowed
  cases hl.body with
  | instruction m operands => simp only [hs.overflowed, exceeds_corresponds hs]
  | _ => exact hs.overflowed

theorem nextSymbols_corresponds (hρ : Function.Injective ρ) (hs : s.Corresponds ρ s')
    (hl : l.Corresponds ρ l') : s'.nextSymbols l' = (s.nextSymbols l).rename ρ := by
  rw [nextSymbols, nextSymbols, hs.symbols, hs.offset, hs.line, hl.updates,
    SymbolTable.applyAll_rename hρ]

/-- Whether another label stands at the offset does not depend on how labels are named. -/
theorem redundancy_corresponds (hρ : Function.Injective ρ) (hs : s.Corresponds ρ s')
    (name : String) :
    List.Forall₂ (Problem.Corresponds ρ) (s.redundancy name) (s'.redundancy (ρ name)) := by
  unfold redundancy
  rw [hs.symbols, hs.offset, SymbolTable.nameAt?_rename]
  cases s.symbols.nameAt? s.offset with
  | none => exact .nil
  | some existing =>
    by_cases he : existing = name
    · simp [he]
    · have he' : ρ existing ≠ ρ name := fun h => he (hρ h)
      simp only [Option.map_some, if_neg he, if_neg he']
      exact .cons (.redundantLabel name existing s.offset) .nil

theorem labelProblems_corresponds (hρ : Function.Injective ρ) (hs : s.Corresponds ρ s')
    (name : String) :
    List.Forall₂ (Problem.Corresponds ρ) (s.labelProblems name) (s'.labelProblems (ρ name)) := by
  unfold labelProblems
  refine List.rel_append (redundancy_corresponds hρ hs name) ?_
  rw [hs.symbols, SymbolTable.definition?_rename hρ]
  cases s.symbols.definition? name with
  | none => exact .nil
  | some first => exact .cons (.duplicateLabel name first.line) .nil

theorem bodyProblems_corresponds (hs : s.Corresponds ρ s') {b b' : Line.Body}
    (hb : b.Corresponds ρ b') (config : Config) :
    List.Forall₂ (Problem.Corresponds ρ) (s.bodyProblems config b) (s'.bodyProblems config b') := by
  cases hb with
  | empty => exact .nil
  | rejected h => exact h
  | instruction m operands =>
    rw [bodyProblems, bodyProblems, exceeds_corresponds hs]
    split
    · exact .cons (.programTooLarge _) .nil
    · exact .nil

theorem problems_corresponds (hρ : Function.Injective ρ) (hs : s.Corresponds ρ s')
    (hl : l.Corresponds ρ l') (config : Config) :
    List.Forall₂ (Problem.Corresponds ρ) (s.problems config l) (s'.problems config l') := by
  unfold problems
  refine List.rel_append ?_ (bodyProblems_corresponds hs hl.body config)
  rw [hl.label]
  cases l.label with
  | none => exact .nil
  | some name => exact labelProblems_corresponds hρ hs name

/-- **One line keeps two scans in step.** -/
theorem feed_corresponds (hρ : Function.Injective ρ) (hs : s.Corresponds ρ s')
    (hl : l.Corresponds ρ l') (config : Config) :
    (feed config s l).Corresponds ρ (feed config s' l') := by
  have hsymbols := nextSymbols_corresponds hρ hs hl
  have hindex : ∀ name, (s'.nextSymbols l').indexOf (ρ name) = (s.nextSymbols l).indexOf name := by
    intro name
    rw [hsymbols, SymbolTable.indexOf_rename hρ]
  have hproblems : List.Forall₂ (Diagnostic.Corresponds ρ)
      ((s.problems config l).map (Diagnostic.mk (some (s.line + 1))))
      ((s'.problems config l').map (Diagnostic.mk (some (s.line + 1)))) := by
    rw [List.forall₂_map_left_iff, List.forall₂_map_right_iff]
    exact (problems_corresponds hρ hs hl config).imp fun _ _ hp => ⟨rfl, hp⟩
  refine ⟨?_, ?_, ?_, ?_, ?_, ?_⟩
  · rw [feed_eq, feed_eq, hs.line]
  · rw [feed_eq, feed_eq]
    exact nextOffset_corresponds hs hl
  · rw [feed_eq, feed_eq]
    exact hsymbols
  · rw [feed_eq, feed_eq]
    exact nextOverflowed_corresponds hs hl config
  · rw [feed_eq, feed_eq, hs.instructions, hs.offset, hs.line, hl.instruction? hindex]
  · rw [feed_diagnostics, feed_diagnostics, hs.line]
    exact List.rel_append hs.diagnostics hproblems

end Step

/-! ## The end of the scans -/

section Finish

variable {ρ : String → String}

theorem lateReport?_rename (symbol : Symbol) :
    Option.Rel (Diagnostic.Corresponds ρ) (lateReport? symbol) (lateReport? (symbol.rename ρ)) := by
  have haddress : (symbol.rename ρ).address? = symbol.address? := rfl
  have huse : (symbol.rename ρ).firstUse = symbol.firstUse := rfl
  unfold lateReport?
  rw [haddress, huse]
  cases symbol.address? with
  | none => exact .some ⟨rfl, .undefinedLabel symbol.name⟩
  | some address =>
    dsimp only
    split
    · exact .some ⟨rfl, .labelOutOfRange symbol.name address⟩
    · exact .none

theorem late_corresponds (t : SymbolTable) :
    List.Forall₂ (Diagnostic.Corresponds ρ) (t.entries.filterMap lateReport?)
      ((t.rename ρ).entries.filterMap lateReport?) := by
  have hentries : List.Forall₂ (fun s s' : Symbol => s' = s.rename ρ) t.entries
      (t.rename ρ).entries := by
    rw [SymbolTable.rename, List.forall₂_map_right_iff, List.forall₂_same]
    exact fun _ _ => rfl
  refine List.rel_filterMap ?_ hentries
  rintro symbol _ rfl
  exact lateReport?_rename symbol

theorem insertByLine_corresponds {d d' : Diagnostic} {ds ds' : List Diagnostic}
    (hd : d.Corresponds ρ d') (hds : List.Forall₂ (Diagnostic.Corresponds ρ) ds ds') :
    List.Forall₂ (Diagnostic.Corresponds ρ) (Diagnostic.insertByLine d ds)
      (Diagnostic.insertByLine d' ds') := by
  induction hds with
  | nil => exact .cons hd .nil
  | @cons e e' rest rest' he hrest ih =>
    have horder : d'.notAfter e' = d.notAfter e := by
      rw [Diagnostic.notAfter, Diagnostic.notAfter, hd.line, he.line]
    rw [Diagnostic.insertByLine, Diagnostic.insertByLine, horder]
    split
    · exact .cons hd (.cons he hrest)
    · exact .cons he ih

/-- Diagnostics that correspond are put into the same order. -/
theorem sortByLine_corresponds {ds ds' : List Diagnostic}
    (h : List.Forall₂ (Diagnostic.Corresponds ρ) ds ds') :
    List.Forall₂ (Diagnostic.Corresponds ρ) (Diagnostic.sortByLine ds)
      (Diagnostic.sortByLine ds') := by
  unfold Diagnostic.sortByLine
  refine List.rel_foldr ?_ .nil h
  intro d d' hd rest rest' hrest
  exact insertByLine_corresponds hd hrest

theorem any_corresponds {p : Diagnostic → Bool} {ds ds' : List Diagnostic}
    (hp : ∀ d d', d.Corresponds ρ d' → p d' = p d)
    (h : List.Forall₂ (Diagnostic.Corresponds ρ) ds ds') : ds'.any p = ds.any p := by
  induction h with
  | nil => rfl
  | cons hd _ ih => rw [List.any_cons, List.any_cons, hp _ _ hd, ih]

theorem finish_corresponds {s s' : Scan} (h : s.Corresponds ρ s') (config : Config) :
    (s.finish config).Corresponds ρ (s'.finish config) := by
  have hdiagnostics : List.Forall₂ (Diagnostic.Corresponds ρ) (s.finish config).diagnostics
      (s'.finish config).diagnostics := by
    refine sortByLine_corresponds (List.rel_append h.diagnostics ?_)
    rw [h.symbols]
    exact late_corresponds s.symbols
  refine ⟨congrArg Array.toList h.instructions, h.symbols, hdiagnostics, ?_⟩
  refine any_corresponds (fun d d' hd => ?_) hdiagnostics
  rw [Diagnostic.isError, Diagnostic.isError, Diagnostic.severity, Diagnostic.severity,
    hd.problem.severity]

end Finish

theorem flatMap_machineCode_corresponds {ρ : String → String} {lines lines' : List Line}
    (h : List.Forall₂ (Line.Corresponds ρ) lines lines') (address : String → UInt8) :
    lines'.flatMap (·.machineCode address) = lines.flatMap (·.machineCode (address ∘ ρ)) := by
  induction h with
  | nil => rfl
  | cons hl _ ih => rw [List.flatMap_cons, List.flatMap_cons, hl.machineCode, ih]

section Run

variable {ρ : String → String} (hρ : Function.Injective ρ) {lines lines' : List Line}
  (h : List.Forall₂ (Line.Corresponds ρ) lines lines')

include hρ h

/-- **Any number of lines keeps two scans in step.** -/
theorem run_corresponds (config : Config) :
    (run config lines).Corresponds ρ (run config lines') := by
  have hstart : Corresponds ρ {} {} := ⟨rfl, rfl, rfl, rfl, rfl, .nil⟩
  unfold run
  refine List.rel_foldl ?_ hstart h
  intro s s' hs l l' hl
  exact feed_corresponds hρ hs hl config

/-- A renamed label is defined where the label was. -/
theorem definition?_corresponds (name : String) :
    Layout.definition? lines' (ρ name) = Layout.definition? lines name := by
  rw [← run_definition? {} lines', (run_corresponds hρ h {}).symbols,
    SymbolTable.definition?_rename hρ, run_definition?]

/-- Corresponding lines have the same machine code: a label stands for the same address. -/
theorem machineCode_corresponds :
    lines'.flatMap (·.machineCode (Layout.addressByte lines')) =
      lines.flatMap (·.machineCode (Layout.addressByte lines)) := by
  have haddress : Layout.addressByte lines' ∘ ρ = Layout.addressByte lines := by
    funext name
    rw [Function.comp_apply, Layout.addressByte, Layout.addressByte, definition?_corresponds hρ h]
  rw [flatMap_machineCode_corresponds h, haddress]

end Run

end Scan

/-! ## Sources -/

/-- Two lines that are statements in the relation `R`, or both no statements. -/
inductive Line.Related (R : Statement → Statement → Prop) (text text' : String) : Prop
  | statements {st st' : Statement} (h : Statement.parse text = .ok st)
    (h' : Statement.parse text' = .ok st') (hR : R st st')
  | faults {fault fault' : Statement.Fault} (h : Statement.parse text = .error fault)
    (h' : Statement.parse text' = .error fault')

instance (R : Statement → Statement → Prop) [∀ st st', Decidable (R st st')]
    (text text' : String) : Decidable (Line.Related R text text') :=
  match h : Statement.parse text, h' : Statement.parse text' with
  | .ok st, .ok st' =>
    decidable_of_iff (R st st') ⟨.statements h h', fun hr => by cases hr <;> simp_all⟩
  | .error _, .error _ => .isTrue (.faults h h')
  | .ok _, .error _ => .isFalse fun hr => by cases hr <;> simp_all
  | .error _, .ok _ => .isFalse fun hr => by cases hr <;> simp_all

section Sources

variable {R : Statement → Statement → Prop} {ρ : String → String}
  (hR : ∀ st st', R st st' → (Line.ofStatement st).Corresponds ρ (Line.ofStatement st'))

include hR

theorem Line.Related.corresponds {text text' : String} (h : Line.Related R text text') :
    (read text).Corresponds ρ (read text') := by
  unfold read
  cases h with
  | @statements st st' h h' hst =>
    rw [h, h']
    exact hR st st' hst
  | faults h h' =>
    rw [h, h']
    exact ⟨rfl, .rejected (.cons (.malformedLine _ _) .nil)⟩

variable (hρ : Function.Injective ρ) (config : Config) {texts texts' : List String}
  (h : List.Forall₂ (Line.Related R) texts texts')

include h

theorem forall₂_read_corresponds :
    List.Forall₂ (Line.Corresponds ρ) (texts.map Line.read) (texts'.map Line.read) := by
  rw [List.forall₂_map_left_iff, List.forall₂_map_right_iff]
  exact h.imp fun _ _ hline => hline.corresponds hR

include hρ

/-- **Two sources whose statements correspond give the same program**, but for the names of
labels. -/
theorem scan_corresponds : (scan config texts).Corresponds ρ (scan config texts') := by
  rw [Scan.scan_eq_run, Scan.scan_eq_run]
  exact Scan.finish_corresponds
    (Scan.run_corresponds hρ (forall₂_read_corresponds hR h) config) config

/-- Both have a result, with the same bytes. -/
theorem assembleLines_corresponds :
    ∃ a a', assembleLines config texts = .ok a ∧ assembleLines config texts' = .ok a' ∧
      a'.success = a.success ∧ a'.bytes = a.bytes := by
  refine ⟨_, _, assembleLines_eq config texts, assembleLines_eq config texts', ?_, ?_⟩
  · dsimp only
    rw [(scan_corresponds hR hρ config h).failed]
  · dsimp only
    rw [(scan_corresponds hR hρ config h).failed,
      Scan.machineCode_corresponds hρ (forall₂_read_corresponds hR h)]

end Sources

end ByteAssembler
