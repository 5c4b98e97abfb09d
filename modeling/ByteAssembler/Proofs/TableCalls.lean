import ByteAssembler.IndexedTable
import ByteAssembler.Proofs.Redundancy

/-
  Symbol tables under any list of calls. `SymbolTable.answer` is what a call gives back: the index
  of its name, or the line of the first definition if a further one is refused. `IndexedTable` keeps
  a hash map from names to indices beside the labels and finds labels through it alone. As long as
  the map is inverse to the labels, a call does the same to both kinds of table and gives the same
  answer (`Inverse.call`), and the map stays inverse; so it is after every list of calls (`run_spec`).
  `run_writeOnce` compares the table with the calls that made it: all that it says of a name comes
  from the first mention, the first definition and the first use of that name.
-/

namespace ByteAssembler

namespace SymbolTable

/-- What a call gives back: the index of its name, or the line of the definition that is there. -/
def answer (t : SymbolTable) : Update → Except Nat Nat
  | .define name d =>
    match t.define name d with
    | .ok _ => .ok (t.indexOf name)
    | .error first => .error first.line
  | u => .ok (t.indexOf u.name)

theorem answer_define (t : SymbolTable) (name : String) (d : Definition) :
    t.answer (.define name d) =
      match t.definition? name with
      | some first => .error first.line
      | none => .ok (t.indexOf name) := by
  unfold definition?
  cases hd : (t.find? name).bind (·.definition) with
  | none => simp only [answer, define, hd]
  | some first => simp only [answer, define, hd]

/-- The answer to a call is the index of its name, unless it is refused. -/
theorem eq_indexOf_of_answer {t : SymbolTable} {u : Update} {i : Nat} (h : t.answer u = .ok i) :
    i = t.indexOf u.name := by
  cases u with
  | define name d =>
    rw [answer_define] at h
    split at h
    · cases h
    · exact (Except.ok.inj h).symm
  | declare name => exact (Except.ok.inj h).symm
  | reference name line => exact (Except.ok.inj h).symm

/-- A call is refused if it defines a name that is defined already. -/
theorem answer_eq_error_iff {t : SymbolTable} {u : Update} {line : Nat} :
    t.answer u = .error line ↔
      (u.definition? u.name).isSome = true ∧
        ∃ first, t.definition? u.name = some first ∧ first.line = line := by
  cases u with
  | define name d =>
    rw [answer_define]
    cases hd : t.definition? name with
    | none => simp [Update.name, hd]
    | some first => simp [Update.name, Update.definition?, hd]
  | declare name => simp [answer, Update.definition?]
  | reference name other => simp [answer, Update.definition?]

theorem names_apply_eq_declare (t : SymbolTable) (u : Update) :
    (t.apply u).names = (t.declare u.name).names := by
  rw [names_apply, names_declare]

/-- A call mentions its name, which gets the index that was foreseen for it. -/
theorem indexOf_apply_self (t : SymbolTable) (u : Update) :
    (t.apply u).indexOf u.name = t.indexOf u.name := by
  rw [indexOf_congr (names_apply_eq_declare t u), indexOf_declare_self]

theorem mem_names_apply_self (t : SymbolTable) (u : Update) : u.name ∈ (t.apply u).names :=
  mem_names_apply.2 (Or.inr rfl)

theorem applyAll_append (t : SymbolTable) (us vs : List Update) :
    t.applyAll (us ++ vs) = (t.applyAll us).applyAll vs :=
  List.foldl_append

/-- A name of the table stands at its index. -/
theorem getElem?_names_indexOf {t : SymbolTable} {name : String} (h : name ∈ t.names) :
    t.names[t.indexOf name]? = some name := by
  rw [indexOf_eq_idxOf]
  exact List.getElem?_idxOf h

end SymbolTable

/-! ## A table with an index -/

namespace IndexedTable

open SymbolTable (Update)

/-- The map leads to the places of the names, and to nothing else. -/
def Inverse (t : IndexedTable) : Prop :=
  ∀ (name : String) (i : Nat), t.byName[name]? = some i ↔ t.table.names[i]? = some name

theorem Inverse.getElem? {t : IndexedTable} (h : t.Inverse) {name : String}
    (hm : name ∈ t.table.names) : t.byName[name]? = some (t.table.indexOf name) :=
  (h name _).2 (SymbolTable.getElem?_names_indexOf hm)

theorem Inverse.getElem?_eq_none {t : IndexedTable} (h : t.Inverse) {name : String}
    (hm : name ∉ t.table.names) : t.byName[name]? = none := by
  rw [Option.eq_none_iff_forall_ne_some]
  intro i hi
  exact hm (List.mem_of_getElem? ((h name i).1 hi))

/-- The map leads to the same labels as a search through them. -/
theorem Inverse.find?_eq {t : IndexedTable} (h : t.Inverse) (name : String) :
    t.find? name = t.table.find? name := by
  by_cases hm : name ∈ t.table.names
  · rw [find?, h.getElem? hm]
    rfl
  · rw [find?, h.getElem?_eq_none hm, SymbolTable.find?_of_not_mem hm]
    rfl

theorem Inverse.intern_of_mem {t : IndexedTable} (h : t.Inverse) {name : String}
    (hm : name ∈ t.table.names) : t.intern name = (t.table.indexOf name, t) := by
  rw [intern, h.getElem? hm]

/-- **The map stays inverse to the labels when a name is mentioned.** -/
theorem Inverse.intern {t : IndexedTable} (h : t.Inverse) (name : String) :
    (t.intern name).1 = t.table.indexOf name ∧
      (t.intern name).2.table = t.table.declare name ∧ (t.intern name).2.Inverse := by
  by_cases hm : name ∈ t.table.names
  · rw [h.intern_of_mem hm, SymbolTable.declare_of_mem hm]
    exact ⟨rfl, rfl, h⟩
  · have hintern : t.intern name = (t.table.entries.length,
        ⟨⟨t.table.entries ++ [⟨name, none, none⟩]⟩,
          t.byName.insert name t.table.entries.length⟩) := by
      rw [IndexedTable.intern, h.getElem?_eq_none hm]
    rw [hintern, SymbolTable.declare_of_not_mem hm, SymbolTable.indexOf_of_not_mem hm]
    refine ⟨rfl, rfl, fun other i => ?_⟩
    have hnames : (⟨t.table.entries ++ [⟨name, none, none⟩]⟩ : SymbolTable).names =
        t.table.names ++ [name] := List.map_append
    have hlength : t.table.names.length = t.table.entries.length := List.length_map _
    have hother := h other i
    dsimp only
    rw [hnames, Std.HashMap.getElem?_insert, List.getElem?_append, List.getElem?_singleton, hlength]
    by_cases hname : name = other
    · subst hname
      have hnot : t.table.names[i]? ≠ some name := fun hi => hm (List.mem_of_getElem? hi)
      grind
    · grind

/-- What a mention followed by a change of the label does. -/
theorem Inverse.modify_intern {t : IndexedTable} (h : t.Inverse) (name : String)
    {change : Symbol → Symbol} (hc : ∀ s, (change s).name = s.name) :
    ((t.intern name).2.modify (t.intern name).1 change).table = t.table.update name change ∧
      ((t.intern name).2.modify (t.intern name).1 change).Inverse := by
  obtain ⟨hindex, htable, hinverse⟩ := h.intern name
  have hupdate : ((t.intern name).2.modify (t.intern name).1 change).table =
      t.table.update name change := by
    rw [modify, hindex, htable]
    rfl
  refine ⟨hupdate, fun other i => ?_⟩
  rw [hupdate, SymbolTable.names_update _ _ hc, ← htable]
  exact hinverse other i

/-- The definition that is found at the index of a name that was mentioned just now. -/
theorem Inverse.definition_intern {t : IndexedTable} (h : t.Inverse) (name : String) :
    ((t.intern name).2.table.get? (t.intern name).1).bind (·.definition) =
      t.table.definition? name := by
  obtain ⟨hindex, htable, -⟩ := h.intern name
  have hfind := SymbolTable.find?_declare_self t.table name
  rw [SymbolTable.find?, SymbolTable.indexOf_declare_self] at hfind
  rw [hindex, htable, hfind, ← SymbolTable.entryOf_definition]
  rfl

/-- **A call does the same to both kinds of table**, gives the same answer, and keeps the map
inverse to the labels. -/
theorem Inverse.call {t : IndexedTable} (h : t.Inverse) (u : Update) :
    (t.call u).1 = t.table.answer u ∧ (t.call u).2.table = t.table.apply u ∧
      (t.call u).2.Inverse := by
  obtain ⟨hindex, htable, hinverse⟩ := h.intern u.name
  cases u with
  | declare name => exact ⟨congrArg Except.ok hindex, htable, hinverse⟩
  | reference name line =>
    obtain ⟨hupdate, hmodified⟩ := h.modify_intern name (Symbol.useOn_name line)
    exact ⟨congrArg Except.ok hindex, hupdate, hmodified⟩
  | define name d =>
    have hdefinition := h.definition_intern name
    have hname : (Update.define name d).name = name := rfl
    unfold IndexedTable.call
    simp only [hname] at hindex htable ⊢
    rw [hdefinition, SymbolTable.answer_define]
    cases hd : t.table.definition? name with
    | none =>
      obtain ⟨hupdate, hmodified⟩ := h.modify_intern name (Symbol.definedBy_name d)
      rw [SymbolTable.apply_define_of_none hd]
      exact ⟨congrArg Except.ok hindex, hupdate, hmodified⟩
    | some first =>
      rw [SymbolTable.apply_define_of_some hd]
      refine ⟨rfl, ?_, hinverse⟩
      rw [htable, SymbolTable.declare_of_mem (SymbolTable.mem_names_of_definition? hd)]

/-- A call that is refused leaves the labels and the map as they are. -/
theorem Inverse.call_of_error {t : IndexedTable} (h : t.Inverse) {u : Update} {line : Nat}
    (he : (t.call u).1 = .error line) : (t.call u).2 = t := by
  rw [(h.call u).1, SymbolTable.answer_eq_error_iff] at he
  obtain ⟨hdefines, first, hd, -⟩ := he
  have hintern := h.intern_of_mem (SymbolTable.mem_names_of_definition? hd)
  have hdefinition := h.definition_intern u.name
  unfold IndexedTable.call
  cases u with
  | define name d =>
    have hname : (Update.define name d).name = name := rfl
    rw [hname] at hd hintern hdefinition
    simp only [hname]
    rw [hdefinition, hd, hintern]
  | declare name => cases hdefines
  | reference name other => cases hdefines

theorem run_concat (us : List Update) (u : Update) : run (us ++ [u]) = ((run us).call u).2 := by
  rw [run, List.foldl_append]
  rfl

/-- After any calls, both kinds of table hold the same labels, and the map is inverse to them. -/
theorem run_spec (us : List Update) :
    (run us).table = SymbolTable.applyAll {} us ∧ (run us).Inverse := by
  induction us using List.reverseRecOn with
  | nil => exact ⟨rfl, fun name i => by simp [run, SymbolTable.names]⟩
  | append_singleton us u ih =>
    obtain ⟨-, htable, hinverse⟩ := ih.2.call u
    rw [run_concat, htable, ih.1, SymbolTable.applyAll_append]
    exact ⟨rfl, hinverse⟩

/-! ## What the calls leave behind -/

/-- The first definition of a name among the calls. -/
def firstDefinition (us : List Update) (name : String) : Option Definition :=
  us.findSome? (·.definition? name)

/-- The line of the first use of a name among the calls. -/
def firstUse (us : List Update) (name : String) : Option Nat :=
  us.findSome? (·.use? name)

theorem definition?_run (us : List Update) (name : String) :
    (run us).table.definition? name = firstDefinition us name := by
  rw [(run_spec us).1, SymbolTable.definition?_applyAll]
  rfl

theorem firstUse?_run (us : List Update) (name : String) :
    (run us).table.firstUse? name = firstUse us name := by
  rw [(run_spec us).1, SymbolTable.firstUse?_applyAll]
  rfl

theorem names_run (us : List Update) : (run us).table.names = (us.map (·.name)).eraseDups := by
  have hnew : ({} : SymbolTable).names = ([] : List String).eraseDups := rfl
  rw [(run_spec us).1, SymbolTable.names_applyAll_eq_eraseDups hnew, List.nil_append]

theorem nodup_names_run (us : List Update) : (run us).table.names.Nodup := by
  have hnew : ({} : SymbolTable).names.Nodup := List.nodup_nil
  rw [(run_spec us).1]
  exact SymbolTable.nodup_names_applyAll hnew us

/-- What a table holds, in terms of the calls that made it. -/
structure Records (t : IndexedTable) (us : List Update) : Prop where
  nodup : t.table.names.Nodup
  /-- Names stand in the order of their first mention. -/
  names : t.table.names = (us.map (·.name)).eraseDups
  /-- The map and the labels are inverse to each other. -/
  byName (name : String) (i : Nat) :
    t.byName[name]? = some i ↔ (t.table.get? i).map (·.name) = some name
  address (s : Symbol) : s ∈ t.table.entries →
    s.address? = (firstDefinition us s.name).map (·.address)
  definedAt (s : Symbol) : s ∈ t.table.entries →
    s.definedAt? = (firstDefinition us s.name).map (·.line)
  /-- A label has both an address and a line of definition, or neither. -/
  isSome_address (s : Symbol) : s ∈ t.table.entries → s.address?.isSome = s.definedAt?.isSome
  firstUse (s : Symbol) : s ∈ t.table.entries → s.firstUse = IndexedTable.firstUse us s.name
  /-- A label is listed as undefined if no call defines it. -/
  undefined : t.table.undefined =
    t.table.entries.filter fun s => us.all fun u => (u.definition? s.name).isNone
  /-- Of the labels at an address, the one that was mentioned first is found. -/
  nameAt (address : Nat) : t.table.nameAt? address =
    t.table.names.find? fun name => (firstDefinition us name).map (·.address) == some address

theorem definition_of_mem_run {us : List Update} {s : Symbol} (h : s ∈ (run us).table.entries) :
    s.definition = firstDefinition us s.name := by
  rw [← definition?_run]
  exact ((SymbolTable.mem_entries_iff (nodup_names_run us)).1 h).2.1.symm

/-- **A table records its calls**: the first one of each kind for each name, and no other. -/
theorem records_run (us : List Update) : (run us).Records us where
  nodup := nodup_names_run us
  names := names_run us
  byName name i := by
    rw [(run_spec us).2 name i, SymbolTable.names, List.getElem?_map]
    rfl
  address s hs := by rw [Symbol.address?, definition_of_mem_run hs]
  definedAt s hs := by rw [Symbol.definedAt?, definition_of_mem_run hs]
  isSome_address s _ := by simp [Symbol.address?, Symbol.definedAt?]
  firstUse s hs := by
    rw [← firstUse?_run]
    exact ((SymbolTable.mem_entries_iff (nodup_names_run us)).1 hs).2.2.symm
  undefined := by
    refine List.filter_congr fun s hs => ?_
    rw [definition_of_mem_run hs, firstDefinition, Bool.eq_iff_iff, Option.isNone_iff_eq_none,
      List.findSome?_eq_none_iff, List.all_eq_true]
    simp only [Option.isNone_iff_eq_none]
  nameAt address := by
    rw [SymbolTable.nameAt?_eq_find? (nodup_names_run us)]
    simp only [definition?_run]

/-- What the map leads to is the label of the name. -/
theorem Inverse.find?_of_getElem? {t : IndexedTable} (h : t.Inverse) {name : String} {i : Nat}
    (hi : t.byName[name]? = some i) :
    ∃ s, t.find? name = some s ∧ t.table.get? i = some s ∧ s.name = name := by
  have hname := (h name i).1 hi
  rw [SymbolTable.names, List.getElem?_map] at hname
  obtain ⟨s, hs, rfl⟩ := Option.map_eq_some_iff.1 hname
  refine ⟨s, ?_, hs, rfl⟩
  rw [find?, hi]
  exact hs

/-- The index that a call gives back leads to its name for good. -/
theorem byName_run_of_call {before : List Update} {u : Update} {i : Nat}
    (h : ((run before).call u).1 = .ok i) (after : List Update) :
    (run (before ++ u :: after)).byName[u.name]? = some i := by
  obtain ⟨htable, hinverse⟩ := run_spec before
  rw [(hinverse.call u).1] at h
  obtain rfl := SymbolTable.eq_indexOf_of_answer h
  obtain ⟨hall, hlast⟩ := run_spec (before ++ u :: after)
  have hlater : ((run before).table.apply u).names <+:
      (run (before ++ u :: after)).table.names := by
    rw [hall, htable, SymbolTable.applyAll_append]
    exact SymbolTable.names_prefix_applyAll _ after
  have hmem := SymbolTable.mem_names_apply_self (run before).table u
  rw [← SymbolTable.indexOf_apply_self, ← SymbolTable.indexOf_of_prefix_names hlater hmem]
  exact hlast.getElem? (hlater.subset hmem)

/-- **A table is a store that is written once.** After any calls on a new table, the table records
the first mention, the first definition and the first use of each name; it holds and finds the labels
that it does without a map. Each call gives back the index of its name, which the map has for it at
the end, too, and under which the label is found; it is refused exactly if it defines a name that an
earlier call has defined, with the line of that definition, and then the table stays as it is. -/
theorem run_writeOnce (us : List Update) :
    (run us).Records us ∧
    (run us).table = SymbolTable.applyAll {} us ∧
    (∀ name, (run us).find? name = (SymbolTable.applyAll {} us).find? name) ∧
    ∀ before u after, us = before ++ u :: after →
      ((run before).call u).1 = (SymbolTable.applyAll {} before).answer u ∧
      (∀ i, ((run before).call u).1 = .ok i →
        (run us).byName[u.name]? = some i ∧
        ∃ s, (run us).find? u.name = some s ∧ (run us).table.get? i = some s ∧ s.name = u.name) ∧
      (∀ line, ((run before).call u).1 = .error line ↔
        (u.definition? u.name).isSome = true ∧
          ∃ first, firstDefinition before u.name = some first ∧ first.line = line) ∧
      ∀ line, ((run before).call u).1 = .error line → ((run before).call u).2 = run before := by
  refine ⟨records_run us, (run_spec us).1, fun name => ?_, ?_⟩
  · rw [(run_spec us).2.find?_eq, (run_spec us).1]
  rintro before u after rfl
  obtain ⟨htable, hinverse⟩ := run_spec before
  have hanswer := (hinverse.call u).1
  refine ⟨by rw [hanswer, htable], fun i hi => ?_, fun line => ?_, fun line he => ?_⟩
  · have hmap := byName_run_of_call hi after
    exact ⟨hmap, (run_spec _).2.find?_of_getElem? hmap⟩
  · rw [hanswer, SymbolTable.answer_eq_error_iff, definition?_run]
  · exact hinverse.call_of_error he

/-- A label that is used before its definition, which is repeated. -/
def sampleCalls : List Update :=
  [.reference "loop" 1, .define "end" ⟨6, 2⟩, .define "loop" ⟨6, 3⟩, .define "loop" ⟨9, 5⟩]

theorem run_writeOnce_sampleCalls :
    (run sampleCalls).byName["loop"]? = some 0 ∧
    (run sampleCalls).table.nameAt? 6 = some "loop" ∧
    (∃ s, (run sampleCalls).find? "loop" = some s ∧ s.address? = some 6 ∧ s.firstUse = some 1) ∧
    ((run (sampleCalls.take 3)).call (.define "loop" ⟨9, 5⟩)).1 = .error 3 ∧
    ((run (sampleCalls.take 3)).call (.define "loop" ⟨9, 5⟩)).2 = run (sampleCalls.take 3) := by
  obtain ⟨hrecords, -, -, hcalls⟩ := run_writeOnce sampleCalls
  obtain ⟨hanswer, hindex, -, -⟩ := hcalls [] (.reference "loop" 1) _ rfl
  obtain ⟨-, -, hrefused, hsame⟩ := hcalls (sampleCalls.take 3) (.define "loop" ⟨9, 5⟩) [] rfl
  have herror := (hrefused 3).2 ⟨rfl, ⟨6, 3⟩, rfl, rfl⟩
  obtain ⟨hmap, s, hfind, hget, hname⟩ := hindex 0 hanswer
  have hs : s ∈ (run sampleCalls).table.entries := List.mem_of_getElem? hget
  refine ⟨hmap, ?_, ⟨s, hfind, ?_, ?_⟩, herror, hsame 3 herror⟩
  · rw [hrecords.nameAt, hrecords.names]
    decide
  · rw [hrecords.address s hs, hname]
    decide
  · rw [hrecords.firstUse s hs, hname]
    decide

end IndexedTable

end ByteAssembler
