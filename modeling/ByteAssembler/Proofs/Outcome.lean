import ByteAssembler.Proofs.FaultIsolation
import ByteAssembler.Proofs.Meaning

/-
  What becomes of each line. A line without an operation leaves nothing behind; any other leaves
  either one instruction or the reports for which it is rejected, never both and never neither
  (`Outcome`, `Scanned.Shows`). What the reports are is said of the text alone
  (`Line.RejectedFor`). Instructions and reports carry the number of their line, so the part of the
  program and the part of the diagnostics that belong to one line can be picked out
  (`instructionsOn_scan`, `rejectionsOn_scan`). `scan_outcome`: every line has exactly one outcome.
-/

namespace ByteAssembler

/-! ## Why a line is rejected -/

namespace Operand

/-- The report on a token that is not valid for its kind. -/
inductive Fault : OperandKind → String → Problem → Prop
  | register {token : String} (h : ∀ r : Register, ¬Text.SameName token r.name) :
    Fault .register token (.invalidRegister token)
  | immediate {token : String} {reason : NumberError}
    (h : ByteLiteral.parse token = .error reason) :
    Fault .immediate token (.invalidNumber token reason)
  | address {token : String} {reason : NumberError} (hs : startsNumber token = true)
    (h : ByteLiteral.parse token = .error reason) :
    Fault .address token (.invalidNumber token reason)

theorem fault_of_read {kind : OperandKind} {token : String} {p : Problem}
    (h : read kind token = .error p) : Fault kind token p := by
  unfold read readNumber at h
  cases kind with
  | register =>
    cases hr : Register.ofName? token with
    | none =>
      rw [hr] at h
      cases h
      refine .register fun r hname => ?_
      rw [Register.ofName?_eq_some_iff.2 hname] at hr
      cases hr
    | some r => rw [hr] at h; cases h
  | immediate =>
    cases hn : ByteLiteral.parse token with
    | error reason => rw [hn] at h; cases h; exact .immediate hn
    | ok value => rw [hn] at h; cases h
  | address =>
    cases hs : startsNumber token with
    | true =>
      cases hn : ByteLiteral.parse token with
      | error reason => rw [hs, hn] at h; cases h; exact .address hs hn
      | ok a => rw [hs, hn] at h; cases h
    | false => rw [hs] at h; cases h

instance (kind : OperandKind) (token : String) : Decidable (Valid kind token) :=
  match h : read kind token with
  | .ok operand => .isTrue (exists_read_iff_valid.1 ⟨operand, h⟩)
  | .error _ => .isFalse fun hv => by
    obtain ⟨operand, hread⟩ := exists_read_iff_valid.2 hv
    rw [h] at hread
    cases hread

/-- There is one report for each token that is not valid, in the order of the tokens. -/
theorem forall₂_fault (tokens : List (OperandKind × String)) :
    List.Forall₂ (fun q p => Fault q.1 q.2 p) (tokens.filter fun q => ¬Valid q.1 q.2)
      (Line.Body.problemsOf (tokens.map fun q => read q.1 q.2)) := by
  induction tokens with
  | nil => exact .nil
  | cons q tokens ih =>
    rw [List.map_cons]
    cases hread : read q.1 q.2 with
    | ok operand =>
      have hvalid : Valid q.1 q.2 := exists_read_iff_valid.1 ⟨operand, hread⟩
      rw [List.filter_cons_of_neg (by simpa using hvalid)]
      exact ih
    | error p =>
      have hnot : ¬Valid q.1 q.2 := by
        intro hv
        obtain ⟨operand, hok⟩ := exists_read_iff_valid.2 hv
        rw [hread] at hok
        cases hok
      rw [List.filter_cons_of_pos (by simpa using hnot)]
      exact .cons (fault_of_read hread) ih

end Operand

/-- The reports for which an operation is rejected: one on its mnemonic, one on the number of its
operands, or one on each operand that is not valid. -/
inductive Operation.RejectedFor (operation : Operation) : List Problem → Prop
  | unknownMnemonic (h : ∀ m : Mnemonic, ¬Text.SameName operation.mnemonic m.name) :
    RejectedFor operation [.unknownMnemonic operation.mnemonic]
  | operandCount {m : Mnemonic} (hm : Text.SameName operation.mnemonic m.name)
    (h : operation.operands.length ≠ m.arity) :
    RejectedFor operation [.operandCount m m.arity operation.operands.length]
  | operands {m : Mnemonic} {ps : List Problem} (hm : Text.SameName operation.mnemonic m.name)
    (hlen : operation.operands.length = m.arity) (hne : ps ≠ [])
    (h : List.Forall₂ (fun q p => Operand.Fault q.1 q.2 p)
      ((m.signature.zip operation.operands).filter fun q => ¬Operand.Valid q.1 q.2) ps) :
    RejectedFor operation ps

/-- The reports for which a line is rejected: one on its form, or those on its operation. -/
inductive Line.RejectedFor (text : String) : List Problem → Prop
  | malformed {fault : Statement.Fault} (h : Statement.parse text = .error fault) :
    RejectedFor text [.malformedLine fault.message]
  | operation {st : Statement} {operation : Operation} {ps : List Problem}
    (hp : Statement.parse text = .ok st) (ho : st.operation = some operation)
    (h : operation.RejectedFor ps) : RejectedFor text ps

theorem Line.RejectedFor.ne_nil {text : String} {ps : List Problem}
    (h : RejectedFor text ps) : ps ≠ [] := by
  cases h with
  | malformed _ => exact List.cons_ne_nil _ _
  | operation _ _ h =>
    cases h with
    | unknownMnemonic _ => exact List.cons_ne_nil _ _
    | operandCount _ _ => exact List.cons_ne_nil _ _
    | operands _ _ hne _ => exact hne

theorem Operation.rejectedFor_of_ofOperation {operation : Operation} {ps : List Problem}
    (h : Line.Body.ofOperation operation = .rejected ps) : operation.RejectedFor ps := by
  have hne := (Line.Body.ofOperation_rejection h).1
  unfold Line.Body.ofOperation at h
  cases hm : Mnemonic.ofName? operation.mnemonic with
  | none =>
    rw [hm] at h
    cases h
    refine .unknownMnemonic fun m hname => ?_
    rw [Mnemonic.ofName?_eq_some_iff.2 hname] at hm
    cases hm
  | some m =>
    rw [hm] at h
    dsimp only at h
    split at h
    · next hlen =>
      rw [Line.Body.ofTokens_eq] at h
      split at h
      · cases h
      · cases h
        refine .operands (Mnemonic.ofName?_eq_some_iff.1 hm) hlen hne ?_
        have hfaults := Operand.forall₂_fault (m.signature.zip operation.operands)
        rwa [List.zip, List.map_zipWith] at hfaults
    · next hlen =>
      cases h
      exact .operandCount (Mnemonic.ofName?_eq_some_iff.1 hm) hlen

namespace Line

theorem rejectedFor_of_read {text : String} {ps : List Problem}
    (h : (read text).body = .rejected ps) : RejectedFor text ps := by
  cases hp : Statement.parse text with
  | error fault =>
    rw [read, hp] at h
    cases h
    exact .malformed hp
  | ok st =>
    rw [read_of_parse hp, ofStatement] at h
    cases ho : st.operation with
    | none =>
      rw [ho] at h
      cases h
    | some operation =>
      rw [ho, Option.elim_some] at h
      exact .operation hp ho (Operation.rejectedFor_of_ofOperation h)

theorem exists_parse_of_empty {text : String} (h : (read text).body = .empty) :
    ∃ st, Statement.parse text = .ok st ∧ st.operation = none := by
  cases hp : Statement.parse text with
  | error fault =>
    rw [read, hp] at h
    cases h
  | ok st =>
    rw [read_of_parse hp, ofStatement] at h
    cases ho : st.operation with
    | none => exact ⟨st, rfl, ho⟩
    | some operation =>
      rw [ho, Option.elim_some] at h
      exact absurd h (Body.ofOperation_ne_empty operation)

end Line

/-! ## What belongs to one line -/

namespace Scanned

/-- The instructions from a line. -/
def instructionsOn (s : Scanned) (line : Nat) : List Instruction :=
  s.program.instructions.filter (·.line == line)

/-- The rejections reported on a line. -/
def rejectionsOn (s : Scanned) (line : Nat) : List Diagnostic :=
  s.diagnostics.filter fun d => d.line == some line && d.problem.isRejection

end Scanned

/-- If only position `k` contributes, the whole list contributes what stands there. -/
theorem flatMap_zipIdx_of_unique {α β : Type} {f : α × Nat → List β} {xs : List α} {k : Nat}
    {a : α} (hk : xs[k]? = some a) (h : ∀ b j, j ≠ k → f (b, j) = []) :
    xs.zipIdx.flatMap f = f (a, k) := by
  obtain ⟨hlt, rfl⟩ := List.getElem?_eq_some_iff.1 hk
  have hbefore : (xs.take k).zipIdx.flatMap f = [] := by
    rw [List.flatMap_eq_nil_iff]
    rintro ⟨b, j⟩ hb
    have hj := List.snd_lt_of_mem_zipIdx hb
    rw [List.length_take] at hj
    exact h b j (by omega)
  have hafter : ((xs.drop (k + 1)).zipIdx (k + 1)).flatMap f = [] := by
    rw [List.flatMap_eq_nil_iff]
    rintro ⟨b, j⟩ hb
    have hj := List.le_snd_of_mem_zipIdx hb
    exact h b j (by omega)
  have hsplit : xs.zipIdx =
      (xs.take k).zipIdx ++ (xs[k], k) :: (xs.drop (k + 1)).zipIdx (k + 1) := by
    conv_lhs => rw [← List.take_append_drop k xs, List.drop_eq_getElem_cons hlt]
    rw [List.zipIdx_append, List.zipIdx_cons, List.length_take, Nat.min_eq_left (by omega),
      Nat.zero_add]
  rw [hsplit, List.flatMap_append, List.flatMap_cons, hbefore, hafter, List.nil_append,
    List.append_nil]

/-- The reports for which a body is rejected. -/
def Line.Body.rejections : Line.Body → List Problem
  | .rejected ps => ps
  | _ => []

namespace Scan

theorem filter_problems (config : Config) (s : Scan) {l : Line} (hcause : l.RejectsForCause) :
    (s.problems config l).filter (·.isRejection) = l.body.rejections := by
  have hlabel : (l.label.elim [] s.labelProblems).filter (·.isRejection) = [] := by
    rw [List.filter_eq_nil_iff]
    intro p hp
    simp [Problem.isRejection, origin_of_mem_label hp]
  rw [problems, List.filter_append, hlabel, List.nil_append]
  cases hb : l.body with
  | empty => rfl
  | rejected ps => exact List.filter_eq_self.2 (hcause ps hb).2
  | instruction m operands =>
    rw [bodyProblems]
    split <;> rfl

end Scan

section Scan

variable (config : Config) {texts : List String} {k : Nat} {text : String}

/-- A line gives the program what its text says, and no other line has its number. -/
theorem instructionsOn_scan (ht : texts[k]? = some text) :
    (scan config texts).instructionsOn (k + 1) =
      ((Line.read text).instruction? (scan config texts).program.symbols.indexOf
        (Layout.address (texts.map Line.read) k) (k + 1)).toList := by
  have hread : (texts.map Line.read)[k]? = some (Line.read text) := by
    rw [List.getElem?_map, ht, Option.map_some]
  have hfilter : ∀ (index : String → Nat) (l : Line) (address line : Nat),
      (l.instruction? index address line).toList.filter (·.line == k + 1) =
        if line = k + 1 then (l.instruction? index address line).toList else [] := by
    intro index l address line
    unfold Line.instruction?
    cases l.body with
    | instruction m operands => by_cases hline : line = k + 1 <;> simp [hline]
    | _ => simp
  rw [Scan.scan_eq_run]
  show (Scan.run config _).instructions.toList.filter _ = _
  rw [Scan.run_instructions, Layout.instructions, List.filterMap_eq_flatMap_toList,
    List.filter_flatMap, flatMap_zipIdx_of_unique hread]
  · rw [hfilter, if_pos rfl]
    rfl
  · intro l j hj
    rw [hfilter, if_neg (by omega)]

/-- The rejections on a line are those for which its text is rejected: the labels, the memory and
the end of the scan have other reports, and sorting keeps the order within a line. -/
theorem rejectionsOn_scan (ht : texts[k]? = some text) :
    (scan config texts).rejectionsOn (k + 1) =
      (Line.read text).body.rejections.map (Diagnostic.mk (some (k + 1))) := by
  have hread : (texts.map Line.read)[k]? = some (Line.read text) := by
    rw [List.getElem?_map, ht, Option.map_some]
  have hfilter : ∀ (line : Nat) (ps : List Problem),
      (ps.map (Diagnostic.mk (some line))).filter
          (fun d => d.line == some (k + 1) && d.problem.isRejection) =
        if line = k + 1 then (ps.filter (·.isRejection)).map (Diagnostic.mk (some line))
        else [] := by
    intro line ps
    by_cases hline : line = k + 1 <;> simp [List.filter_map, Function.comp_def, hline]
  have hlate : ∀ symbols : SymbolTable, (symbols.entries.filterMap Scan.lateReport?).filter
      (fun d => d.line == some (k + 1) && d.problem.isRejection) = [] := by
    intro symbols
    rw [List.filter_eq_nil_iff]
    intro d hd
    obtain ⟨symbol, -, hreport⟩ := List.mem_filterMap.1 hd
    simp [Problem.isRejection, Scan.origin_of_lateReport? hreport]
  rw [Scan.scan_eq_run]
  show (Diagnostic.sortByLine ((Scan.run config _).diagnostics.toList ++ _)).filter _ = _
  rw [← Diagnostic.sortByLine_filter, List.filter_append, hlate, List.append_nil,
    Scan.run_diagnostics, List.filter_flatMap, flatMap_zipIdx_of_unique hread]
  · rw [hfilter, if_pos rfl, Scan.filter_problems config _ (Line.read_rejectsForCause text),
      Diagnostic.sortByLine_map_mk]
  · intro l j hj
    rw [hfilter, if_neg (by omega)]

/-- The instructions stand in the order of their lines, at most one for each. -/
theorem pairwise_line_instructions (texts : List String) :
    ((scan config texts).program.instructions.map (·.line)).Pairwise (· < ·) := by
  have hpositions : ((texts.map Line.read).zipIdx.map (·.2)).Pairwise (· < ·) := by
    rw [List.zipIdx_map_snd]
    exact List.pairwise_lt_range'
  rw [Scan.scan_eq_run]
  show ((Scan.run config _).instructions.toList.map (·.line)).Pairwise (· < ·)
  rw [Scan.run_instructions, Layout.instructions, List.pairwise_map, List.pairwise_filterMap]
  refine (List.pairwise_map.1 hpositions).imp fun hlt i hi i' hi' => ?_
  obtain ⟨m, operands, -, rfl⟩ := Line.instruction?_eq_some.1 hi
  obtain ⟨m', operands', -, rfl⟩ := Line.instruction?_eq_some.1 hi'
  exact Nat.succ_lt_succ hlt

end Scan

/-! ## The outcome of a line -/

/-- What can become of a line. -/
inductive Outcome
  | silent
  | placed
  | rejected
  deriving DecidableEq

namespace Scanned

/-- What the result of a scan holds of a line, for each outcome. -/
def Shows (s : Scanned) (line : Nat) (text : String) : Outcome → Prop
  | .silent =>
    (∃ st, Statement.parse text = .ok st ∧ st.operation = none) ∧
      s.instructionsOn line = [] ∧ s.rejectionsOn line = []
  | .placed =>
    ∃ st operation i, Statement.parse text = .ok st ∧ st.operation = some operation ∧
      operation.Makes s.program.symbols i ∧
      s.instructionsOn line = [i] ∧ s.rejectionsOn line = []
  | .rejected =>
    ∃ ps, Line.RejectedFor text ps ∧
      s.instructionsOn line = [] ∧ s.rejectionsOn line = ps.map (Diagnostic.mk (some line))

/-- The outcome of a line, told by what is there. -/
def outcomeOn (s : Scanned) (line : Nat) : Outcome :=
  if s.instructionsOn line ≠ [] then .placed
  else if s.rejectionsOn line ≠ [] then .rejected
  else .silent

/-- No two outcomes look alike. -/
theorem Shows.eq_outcomeOn {s : Scanned} {line : Nat} {text : String} {outcome : Outcome}
    (h : s.Shows line text outcome) : outcome = s.outcomeOn line := by
  unfold outcomeOn
  cases outcome with
  | silent =>
    obtain ⟨-, hinstructions, hrejections⟩ := h
    simp [hinstructions, hrejections]
  | placed =>
    obtain ⟨st, operation, i, -, -, -, hinstructions, -⟩ := h
    simp [hinstructions]
  | rejected =>
    obtain ⟨ps, hps, hinstructions, hrejections⟩ := h
    simp [hinstructions, hrejections, hps.ne_nil]

end Scanned

/-- Every line has an outcome. -/
theorem exists_shows (config : Config) {texts : List String} {k : Nat} {text : String}
    (ht : texts[k]? = some text) :
    ∃ outcome, (scan config texts).Shows (k + 1) text outcome := by
  have hinstructions := instructionsOn_scan config ht
  have hrejections := rejectionsOn_scan config ht
  cases hb : (Line.read text).body with
  | empty =>
    rw [Line.instruction?, hb] at hinstructions
    rw [hb] at hrejections
    exact ⟨.silent, Line.exists_parse_of_empty hb, hinstructions, hrejections⟩
  | rejected ps =>
    rw [Line.instruction?, hb] at hinstructions
    rw [hb] at hrejections
    exact ⟨.rejected, ps, Line.rejectedFor_of_read hb, hinstructions, hrejections⟩
  | instruction m operands =>
    obtain ⟨i, hi⟩ : ∃ i, (Line.read text).instruction?
        (scan config texts).program.symbols.indexOf
        (Layout.address (texts.map Line.read) k) (k + 1) = some i :=
      ⟨_, Line.instruction?_eq_some.2 ⟨m, operands, hb, rfl⟩⟩
    obtain ⟨st, operation, hp, -, ho, hmakes⟩ := exists_makes_of_instruction? hi
      fun name hu => mem_scan_names (List.mem_of_getElem? ht) hu
    rw [hi] at hinstructions
    rw [hb] at hrejections
    exact ⟨.placed, st, operation, i, hp, ho, hmakes, hinstructions, hrejections⟩

/-- **Every line has exactly one outcome.** A line without an operation leaves neither instruction
nor rejection. Any other either has one instruction, which says the same as the tokens of its
operation, and no rejection, or it has no instruction and the rejections that its text is due.
The instructions stand in the order of their lines. -/
theorem scan_outcome (config : Config) (texts : List String) :
    (∀ k text, texts[k]? = some text →
      ∃! outcome, (scan config texts).Shows (k + 1) text outcome) ∧
    ((scan config texts).program.instructions.map (·.line)).Pairwise (· < ·) := by
  refine ⟨fun k text ht => ?_, pairwise_line_instructions config texts⟩
  obtain ⟨outcome, hshows⟩ := exists_shows config ht
  refine ⟨outcome, hshows, fun other hother => ?_⟩
  rw [hother.eq_outcomeOn, hshows.eq_outcomeOn]

/-- A line whose two operands are both invalid, after one without an operation and before one that
is placed although its label is defined already. -/
def Source.twoFaults : List String :=
  ["x: ; start", "mvi q, 300", "x: mov a, b"]

theorem scan_outcome_twoFaults :
    (scan {} Source.twoFaults).outcomeOn 1 = .silent ∧
    (scan {} Source.twoFaults).rejectionsOn 2 =
      [⟨some 2, .invalidRegister "q"⟩, ⟨some 2, .invalidNumber "300" .range⟩] ∧
    (scan {} Source.twoFaults).outcomeOn 3 = .placed ∧
    Source.twoFaults[1]? = some "mvi q, 300" ∧
    (∃! outcome, (scan {} Source.twoFaults).Shows 2 "mvi q, 300" outcome) ∧
    ((scan {} Source.twoFaults).program.instructions.map (·.line)).Pairwise (· < ·) := by
  obtain ⟨houtcome, hlines⟩ := scan_outcome {} Source.twoFaults
  refine ⟨by decide +kernel, by decide +kernel, by decide +kernel, rfl, ?_, hlines⟩
  exact houtcome 1 _ rfl

end ByteAssembler
