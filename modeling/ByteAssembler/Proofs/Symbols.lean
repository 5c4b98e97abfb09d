import ByteAssembler.SymbolTable
import Mathlib.Data.List.Basic

/-
  Symbol tables seen through names. What a table knows of a name is its definition and its first
  use (`definition?`, `firstUse?`); a table with distinct names is nothing more than its names and
  these two (`entries_eq_map_names`). `applyAll` is a run of table operations: it keeps the names
  it finds in place (`names_prefix_applyAll`), takes the first definition and the first use of
  each name, and ignores the later ones (`definition?_applyAll`, `firstUse?_applyAll`).
-/

namespace ByteAssembler

namespace Symbol

theorem definedBy_name (d : Definition) (s : Symbol) : (s.definedBy d).name = s.name := rfl

theorem useOn_name (line : Nat) (s : Symbol) : (s.useOn line).name = s.name := rfl

end Symbol

namespace SymbolTable

/-- The definition of a label. -/
def definition? (t : SymbolTable) (name : String) : Option Definition :=
  (t.find? name).bind (·.definition)

/-- The first use of a label. -/
def firstUse? (t : SymbolTable) (name : String) : Option Nat :=
  (t.find? name).bind (·.firstUse)

/-! ## Indices depend on the names alone -/

theorem indexOf_eq_idxOf (t : SymbolTable) (name : String) :
    t.indexOf name = t.names.idxOf name := by
  unfold indexOf names List.idxOf
  rw [List.findIdx_map]
  rfl

theorem indexOf_congr {t t' : SymbolTable} (h : t.names = t'.names) (name : String) :
    t.indexOf name = t'.indexOf name := by
  rw [indexOf_eq_idxOf, indexOf_eq_idxOf, h]

/-- A table with more names at its end gives the names of the shorter one the same indices. -/
theorem indexOf_of_prefix_names {t t' : SymbolTable} (h : t.names <+: t'.names) {name : String}
    (hm : name ∈ t.names) : t'.indexOf name = t.indexOf name := by
  obtain ⟨more, hmore⟩ := h
  rw [indexOf_eq_idxOf, indexOf_eq_idxOf, ← hmore, List.idxOf_append_of_mem hm]

theorem mem_names_declare {t : SymbolTable} {name other : String} :
    other ∈ (t.declare name).names ↔ other ∈ t.names ∨ other = name := by
  rw [names_declare]
  split
  · next hm =>
    constructor
    · intro h
      exact Or.inl h
    · rintro (h | rfl)
      · exact h
      · exact hm
  · simp

/-! ## Look-up after an operation -/

theorem find?_of_mem {t : SymbolTable} {name : String} (h : name ∈ t.names) :
    ∃ s, t.find? name = some s ∧ s.name = name := by
  have hlt := indexOf_lt_iff.2 h
  refine ⟨t.entries[t.indexOf name], List.getElem?_eq_getElem hlt, ?_⟩
  have hname := List.findIdx_getElem (p := fun s : Symbol => s.name == name) (w := hlt)
  exact beq_iff_eq.1 hname

theorem find?_of_not_mem {t : SymbolTable} {name : String} (h : name ∉ t.names) :
    t.find? name = none := by
  unfold find? get?
  rw [indexOf_of_not_mem h]
  exact List.getElem?_eq_none (Nat.le_refl _)

/-- Mentioning a label gives it an entry without a definition or a use, if it had none. -/
theorem find?_declare_self (t : SymbolTable) (name : String) :
    (t.declare name).find? name = some ((t.find? name).getD ⟨name, none, none⟩) := by
  by_cases hm : name ∈ t.names
  · obtain ⟨s, hs, -⟩ := find?_of_mem hm
    rw [declare_of_mem hm, hs]
    rfl
  · rw [find?_of_not_mem hm]
    unfold find? get?
    rw [indexOf_declare_self, indexOf_of_not_mem hm, declare_of_not_mem hm]
    simp

theorem find?_declare_of_ne (t : SymbolTable) {name other : String} (h : other ≠ name) :
    (t.declare name).find? other = t.find? other := by
  by_cases ho : other ∈ t.names
  · unfold find? get?
    rw [indexOf_declare_of_mem ho]
    by_cases hm : name ∈ t.names
    · rw [declare_of_mem hm]
    · rw [declare_of_not_mem hm]
      exact List.getElem?_append_left (indexOf_lt_iff.2 ho)
  · have hd : other ∉ (t.declare name).names := by
      rw [mem_names_declare]
      exact not_or.2 ⟨ho, h⟩
    rw [find?_of_not_mem ho, find?_of_not_mem hd]

section Update

variable {change : Symbol → Symbol} (hc : ∀ s, (change s).name = s.name)

include hc

theorem find?_update_self (t : SymbolTable) (name : String) :
    (t.update name change).find? name =
      some (change ((t.find? name).getD ⟨name, none, none⟩)) := by
  have hi : (t.update name change).indexOf name = t.indexOf name := by
    rw [indexOf_congr (names_update t name hc), indexOf_declare_self]
  have hd := find?_declare_self t name
  unfold find? get? at hd ⊢
  rw [indexOf_declare_self] at hd
  rw [hi]
  simp only [update, List.getElem?_modify_eq, hd, Option.map_eq_map, Option.map_some]

theorem find?_update_of_ne (t : SymbolTable) {name other : String} (h : other ≠ name) :
    (t.update name change).find? other = t.find? other := by
  rw [← find?_declare_of_ne t h]
  have hi : (t.update name change).indexOf other = (t.declare name).indexOf other :=
    indexOf_congr (names_update t name hc) other
  -- Two names have one index only if neither is in the table, and `name` is.
  have hne : t.indexOf name ≠ (t.declare name).indexOf other := by
    rw [← indexOf_declare_self, indexOf_eq_idxOf, indexOf_eq_idxOf]
    intro e
    exact h ((List.idxOf_inj (mem_names_declare.2 (Or.inr rfl))).1 e).symm
  unfold find? get?
  rw [hi]
  exact List.getElem?_modify_ne _ _ hne

end Update

/-! ## What an operation does to the definition and the first use of a name -/

/-- The definition of `name` that an operation asks for. -/
def Update.definition? (name : String) : Update → Option Definition
  | .define other definition => if other = name then some definition else none
  | _ => none

/-- The line on which an operation uses `name`. -/
def Update.use? (name : String) : Update → Option Nat
  | .reference other line => if other = name then some line else none
  | _ => none

theorem apply_define_of_none {t : SymbolTable} {name : String} {d : Definition}
    (h : t.definition? name = none) :
    t.apply (.define name d) = t.update name (·.definedBy d) := by
  unfold definition? at h
  simp only [apply, define, h, Except.toOption, Option.getD_some]

theorem apply_define_of_some {t : SymbolTable} {name : String} {d first : Definition}
    (h : t.definition? name = some first) : t.apply (.define name d) = t := by
  unfold definition? at h
  simp only [apply, define, h, Except.toOption, Option.getD_none]

theorem mem_names_of_definition? {t : SymbolTable} {name : String} {d : Definition}
    (h : t.definition? name = some d) : name ∈ t.names := by
  by_contra hm
  unfold definition? at h
  rw [find?_of_not_mem hm] at h
  cases h

/-- The entry that an operation on `name` starts from: the one in the table, else a new one. -/
def entryOf (t : SymbolTable) (name : String) : Symbol :=
  (t.find? name).getD ⟨name, none, none⟩

theorem entryOf_definition (t : SymbolTable) (name : String) :
    (t.entryOf name).definition = t.definition? name := by
  unfold entryOf definition?
  cases t.find? name <;> rfl

theorem entryOf_firstUse (t : SymbolTable) (name : String) :
    (t.entryOf name).firstUse = t.firstUse? name := by
  unfold entryOf firstUse?
  cases t.find? name <;> rfl

/-- What a table knows of the other names is kept by every operation. -/
theorem find?_apply_of_ne (t : SymbolTable) {u : Update} {other : String} (h : other ≠ u.name) :
    (t.apply u).find? other = t.find? other := by
  cases u with
  | declare name => exact find?_declare_of_ne t h
  | reference name line => exact find?_update_of_ne (Symbol.useOn_name line) t h
  | define name d =>
    cases hd : t.definition? name with
    | none =>
      rw [apply_define_of_none hd]
      exact find?_update_of_ne (Symbol.definedBy_name d) t h
    | some first => rw [apply_define_of_some hd]

/-- What an operation does to the entry of its name. -/
def Update.change : Update → Symbol → Symbol
  | .declare _, s => s
  | .reference _ line, s => s.useOn line
  | .define _ d, s => { s with definition := s.definition.or (some d) }

theorem find?_apply_self (t : SymbolTable) (u : Update) :
    (t.apply u).find? u.name = some (u.change (t.entryOf u.name)) := by
  cases u with
  | declare name => exact find?_declare_self t name
  | reference name line => exact find?_update_self (Symbol.useOn_name line) t name
  | define name d =>
    have he := entryOf_definition t name
    simp only [Update.name, Update.change, he]
    cases hd : t.definition? name with
    | none =>
      rw [apply_define_of_none hd, find?_update_self (Symbol.definedBy_name d) t name]
      rfl
    | some first =>
      obtain ⟨s, hs, -⟩ := find?_of_mem (mem_names_of_definition? hd)
      rw [hd] at he
      rw [apply_define_of_some hd, hs]
      simp only [entryOf, hs, Option.getD_some] at he ⊢
      rw [Option.or_some, Option.getD_some, ← he]

theorem Update.change_definition (u : Update) (s : Symbol) :
    (u.change s).definition = s.definition.or (u.definition? u.name) := by
  cases u with
  | define name d => simp only [change, definition?, Update.name, if_true]
  | _ => exact Option.or_none.symm

theorem Update.change_firstUse (u : Update) (s : Symbol) :
    (u.change s).firstUse = s.firstUse.or (u.use? u.name) := by
  cases u with
  | reference name line => simp only [change, use?, Update.name, if_true, Symbol.useOn]
  | _ => exact Option.or_none.symm

/-- A definition is kept once it is there, else it is the one that the operation asks for. -/
theorem definition?_apply (t : SymbolTable) (u : Update) (name : String) :
    (t.apply u).definition? name = (t.definition? name).or (u.definition? name) := by
  by_cases hn : name = u.name
  · subst hn
    rw [definition?, find?_apply_self, Option.bind_some, Update.change_definition,
      entryOf_definition]
  · have hu : u.definition? name = none := by
      cases u with
      | define other d => exact if_neg (Ne.symm hn)
      | _ => rfl
    rw [definition?, find?_apply_of_ne t hn, hu, Option.or_none]
    rfl

/-- The first use is kept once it is there, else it is the line of the operation, if that is one. -/
theorem firstUse?_apply (t : SymbolTable) (u : Update) (name : String) :
    (t.apply u).firstUse? name = (t.firstUse? name).or (u.use? name) := by
  by_cases hn : name = u.name
  · subst hn
    rw [firstUse?, find?_apply_self, Option.bind_some, Update.change_firstUse, entryOf_firstUse]
  · have hu : u.use? name = none := by
      cases u with
      | reference other line => exact if_neg (Ne.symm hn)
      | _ => rfl
    rw [firstUse?, find?_apply_of_ne t hn, hu, Option.or_none]
    rfl

/-- Every operation mentions its name: a new one is added at the end. -/
theorem names_apply (t : SymbolTable) (u : Update) :
    (t.apply u).names = if u.name ∈ t.names then t.names else t.names ++ [u.name] := by
  rw [← names_declare]
  cases u with
  | declare name => rfl
  | reference name line => exact names_reference t name line
  | define name d =>
    cases hd : t.definition? name with
    | none =>
      rw [apply_define_of_none hd]
      exact names_update t name (Symbol.definedBy_name d)
    | some first =>
      rw [apply_define_of_some hd, Update.name, declare_of_mem (mem_names_of_definition? hd)]

theorem names_prefix_apply (t : SymbolTable) (u : Update) : t.names <+: (t.apply u).names := by
  rw [names_apply]
  split
  · exact List.prefix_rfl
  · exact List.prefix_append _ _

theorem nodup_names_apply {t : SymbolTable} (h : t.names.Nodup) (u : Update) :
    (t.apply u).names.Nodup := by
  rw [names_apply]
  split
  · exact h
  · next hm =>
    refine List.nodup_append.2 ⟨h, List.pairwise_singleton _ _, ?_⟩
    intro a ha b hb
    rw [List.mem_singleton.1 hb]
    exact fun e => hm (e ▸ ha)

theorem mem_names_apply {t : SymbolTable} {u : Update} {name : String} :
    name ∈ (t.apply u).names ↔ name ∈ t.names ∨ name = u.name := by
  rw [names_apply, ← names_declare, mem_names_declare]

/-! ## Runs of operations -/

/-- The table after a list of operations. -/
def applyAll (t : SymbolTable) (us : List Update) : SymbolTable :=
  us.foldl apply t

theorem names_prefix_applyAll (t : SymbolTable) (us : List Update) :
    t.names <+: (t.applyAll us).names := by
  induction us generalizing t with
  | nil => exact List.prefix_rfl
  | cons u us ih => exact (names_prefix_apply t u).trans (ih (t.apply u))

theorem nodup_names_applyAll {t : SymbolTable} (h : t.names.Nodup) (us : List Update) :
    (t.applyAll us).names.Nodup := by
  induction us generalizing t with
  | nil => exact h
  | cons u us ih => exact ih (nodup_names_apply h u)

theorem mem_names_applyAll {t : SymbolTable} {us : List Update} {name : String} :
    name ∈ (t.applyAll us).names ↔ name ∈ t.names ∨ ∃ u ∈ us, name = u.name := by
  induction us generalizing t with
  | nil => simp [applyAll]
  | cons u us ih =>
    have h : t.applyAll (u :: us) = (t.apply u).applyAll us := rfl
    rw [h, ih, mem_names_apply]
    simp only [List.mem_cons, exists_eq_or_imp, or_assoc]

theorem eraseDups_concat (xs : List String) (x : String) :
    (xs ++ [x]).eraseDups = if x ∈ xs then xs.eraseDups else xs.eraseDups ++ [x] := by
  rw [List.eraseDups_append]
  by_cases h : x ∈ xs <;> simp [List.removeAll, h, List.eraseDups_cons]

/-- The names of a table stand in the order of their first mention. -/
theorem names_applyAll_eq_eraseDups {t : SymbolTable} {mentions : List String}
    (h : t.names = mentions.eraseDups) (us : List Update) :
    (t.applyAll us).names = (mentions ++ us.map (·.name)).eraseDups := by
  induction us generalizing t mentions with
  | nil => simpa [applyAll] using h
  | cons u us ih =>
    have hstep : (t.apply u).names = (mentions ++ [u.name]).eraseDups := by
      rw [names_apply, eraseDups_concat, h]
      simp only [List.mem_eraseDups]
    have hrest := ih hstep
    rwa [List.append_assoc] at hrest

/-- Of all definitions of a name, the first one counts. -/
theorem definition?_applyAll (t : SymbolTable) (us : List Update) (name : String) :
    (t.applyAll us).definition? name =
      (t.definition? name).or (us.findSome? (·.definition? name)) := by
  induction us generalizing t with
  | nil => exact Option.or_none.symm
  | cons u us ih =>
    have h : t.applyAll (u :: us) = (t.apply u).applyAll us := rfl
    rw [h, ih, definition?_apply, Option.or_assoc, List.findSome?_cons]
    cases u.definition? name <;> rfl

/-- Of all uses of a name, the first one counts. -/
theorem firstUse?_applyAll (t : SymbolTable) (us : List Update) (name : String) :
    (t.applyAll us).firstUse? name =
      (t.firstUse? name).or (us.findSome? (·.use? name)) := by
  induction us generalizing t with
  | nil => exact Option.or_none.symm
  | cons u us ih =>
    have h : t.applyAll (u :: us) = (t.apply u).applyAll us := rfl
    rw [h, ih, firstUse?_apply, Option.or_assoc, List.findSome?_cons]
    cases u.use? name <;> rfl

/-! ## Tables with distinct names -/

/-- The entry of a name consists of what the table knows of it. -/
theorem find?_eq_of_mem {t : SymbolTable} {name : String} (h : name ∈ t.names) :
    t.find? name = some ⟨name, t.definition? name, t.firstUse? name⟩ := by
  obtain ⟨s, hs, hn⟩ := find?_of_mem h
  rw [definition?, firstUse?, hs]
  cases s
  subst hn
  rfl

theorem indexOf_getElem {t : SymbolTable} (h : t.names.Nodup) {i : Nat}
    (hi : i < t.entries.length) : t.indexOf t.entries[i].name = i := by
  have hi' : i < t.names.length := by
    rw [names, List.length_map]
    exact hi
  have hname : t.entries[i].name = t.names[i] := (List.getElem_map _).symm
  rw [indexOf_eq_idxOf, hname]
  exact List.Nodup.idxOf_getElem h i hi'

/-- A table with distinct names is its names, each with its definition and its first use. -/
theorem entries_eq_map_names {t : SymbolTable} (h : t.names.Nodup) :
    t.entries = t.names.map fun name => ⟨name, t.definition? name, t.firstUse? name⟩ := by
  refine List.ext_getElem (by simp [names]) ?_
  intro i hi _
  have hname : t.entries[i].name ∈ t.names := List.mem_map_of_mem (List.getElem_mem hi)
  have hfind := find?_eq_of_mem hname
  unfold find? get? at hfind
  rw [indexOf_getElem h hi, List.getElem?_eq_getElem hi] at hfind
  simpa [names] using hfind

/-- The label at an index consists of the name there and what the table knows of it. -/
theorem get?_eq_some_iff {t : SymbolTable} (h : t.names.Nodup) {index : Nat} {s : Symbol} :
    t.get? index = some s ↔
      t.names[index]? = some s.name ∧ t.definition? s.name = s.definition ∧
        t.firstUse? s.name = s.firstUse := by
  rw [get?, entries_eq_map_names h, List.getElem?_map, Option.map_eq_some_iff]
  constructor
  · rintro ⟨name, hname, rfl⟩
    exact ⟨hname, rfl, rfl⟩
  · rintro ⟨hname, hd, hu⟩
    refine ⟨s.name, hname, ?_⟩
    rw [hd, hu]

theorem mem_entries_iff {t : SymbolTable} (h : t.names.Nodup) {s : Symbol} :
    s ∈ t.entries ↔
      s.name ∈ t.names ∧ t.definition? s.name = s.definition ∧ t.firstUse? s.name = s.firstUse := by
  have hget : s ∈ t.entries ↔ ∃ index, t.get? index = some s := List.mem_iff_getElem?
  simp only [hget, get?_eq_some_iff h, exists_and_right, List.mem_iff_getElem?]

/-! ## Look-up by address -/

theorem nameAt?_eq_none_iff {t : SymbolTable} {address : Nat} :
    t.nameAt? address = none ↔ ∀ s ∈ t.entries, s.address? ≠ some address := by
  simp [nameAt?]

theorem exists_of_nameAt?_eq_some {t : SymbolTable} {address : Nat} {name : String}
    (h : t.nameAt? address = some name) :
    ∃ s ∈ t.entries, s.name = name ∧ s.address? = some address := by
  obtain ⟨s, hs, hname⟩ := Option.map_eq_some_iff.1 h
  have haddress := List.find?_some (p := fun s : Symbol => s.address? == some address) hs
  exact ⟨s, List.mem_of_find?_eq_some hs, hname, beq_iff_eq.1 haddress⟩

end SymbolTable

end ByteAssembler
