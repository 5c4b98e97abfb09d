/-
  The symbol table. A label enters it at its first mention, as a definition or as an operand, and
  keeps its index from then on. Its first definition fixes its address for good; a further
  definition is refused and changes nothing. Its first use as an operand fixes `firstUse`.
-/

namespace ByteAssembler

/-- The place where a label is defined. -/
structure Definition where
  address : Nat
  line : Nat
  deriving DecidableEq

structure Symbol where
  name : String
  definition : Option Definition := none
  /-- The first line that used the label as an operand. -/
  firstUse : Option Nat := none
  deriving DecidableEq

namespace Symbol

/-- The address of the label, once it is defined. -/
def address? (s : Symbol) : Option Nat :=
  s.definition.map (·.address)

/-- The line that defined the label. -/
def definedAt? (s : Symbol) : Option Nat :=
  s.definition.map (·.line)

/-- The symbol with a definition. -/
def definedBy (s : Symbol) (d : Definition) : Symbol :=
  { s with definition := some d }

/-- The symbol after a use on `line`: only the first use is kept. -/
def useOn (s : Symbol) (line : Nat) : Symbol :=
  { s with firstUse := s.firstUse.or (some line) }

end Symbol

/-- Labels in the order of their first mention. -/
structure SymbolTable where
  entries : List Symbol := []
  deriving DecidableEq

namespace SymbolTable

/-- The names of the labels, in the order of their first mention. -/
def names (t : SymbolTable) : List String :=
  t.entries.map (·.name)

/-- The index of a label; for a name that is not in the table, the index that it would get. -/
def indexOf (t : SymbolTable) (name : String) : Nat :=
  t.entries.findIdx (·.name == name)

/-- The label with that index. -/
def get? (t : SymbolTable) (index : Nat) : Option Symbol :=
  t.entries[index]?

/-- The label of that name. -/
def find? (t : SymbolTable) (name : String) : Option Symbol :=
  t.get? (t.indexOf name)

/-- The name of the first label in the table that is defined at `address`. -/
def nameAt? (t : SymbolTable) (address : Nat) : Option String :=
  (t.entries.find? (·.address? == some address)).map (·.name)

/-- The labels without a definition. -/
def undefined (t : SymbolTable) : List Symbol :=
  t.entries.filter (·.definition.isNone)

/-- Mentions a label: a new name is added at the end. -/
def declare (t : SymbolTable) (name : String) : SymbolTable :=
  if t.indexOf name < t.entries.length then t else ⟨t.entries ++ [⟨name, none, none⟩]⟩

/-- Changes the entry of a label, which is added if it is new. -/
def update (t : SymbolTable) (name : String) (change : Symbol → Symbol) : SymbolTable :=
  ⟨(t.declare name).entries.modify (t.indexOf name) change⟩

/-- Uses a label as an operand on `line`. -/
def reference (t : SymbolTable) (name : String) (line : Nat) : SymbolTable :=
  t.update name (·.useOn line)

/-- Defines a label; fails with the first definition if there is one. -/
def define (t : SymbolTable) (name : String) (definition : Definition) :
    Except Definition SymbolTable :=
  match (t.find? name).bind (·.definition) with
  | some first => .error first
  | none => .ok (t.update name (·.definedBy definition))

/-! ## Names and indices -/

theorem indexOf_lt_iff {t : SymbolTable} {name : String} :
    t.indexOf name < t.entries.length ↔ name ∈ t.names := by
  simp [indexOf, names, List.findIdx_lt_length]

/-- The index of a new name is the one after the last. -/
theorem indexOf_of_not_mem {t : SymbolTable} {name : String} (h : name ∉ t.names) :
    t.indexOf name = t.entries.length := by
  have le : t.indexOf name ≤ t.entries.length := List.findIdx_le_length
  have ge : t.entries.length ≤ t.indexOf name := Nat.le_of_not_lt fun l => h (indexOf_lt_iff.1 l)
  exact Nat.le_antisymm le ge

theorem declare_of_mem {t : SymbolTable} {name : String} (h : name ∈ t.names) :
    t.declare name = t :=
  if_pos (indexOf_lt_iff.2 h)

theorem declare_of_not_mem {t : SymbolTable} {name : String} (h : name ∉ t.names) :
    t.declare name = ⟨t.entries ++ [⟨name, none, none⟩]⟩ :=
  if_neg fun l => h (indexOf_lt_iff.1 l)

theorem names_declare (t : SymbolTable) (name : String) :
    (t.declare name).names = if name ∈ t.names then t.names else t.names ++ [name] := by
  by_cases h : name ∈ t.names
  · rw [declare_of_mem h, if_pos h]
  · rw [declare_of_not_mem h, if_neg h]
    simp [names]

theorem names_update (t : SymbolTable) (name : String) {change : Symbol → Symbol}
    (h : ∀ s, (change s).name = s.name) :
    (t.update name change).names = (t.declare name).names := by
  apply List.ext_getElem?
  intro i
  simp only [names, update, List.getElem?_map, List.getElem?_modify]
  cases (t.declare name).entries[i]? with
  | none => rfl
  | some s => by_cases e : t.indexOf name = i <;> simp [e, h]

theorem names_reference (t : SymbolTable) (name : String) (line : Nat) :
    (t.reference name line).names = (t.declare name).names :=
  t.names_update name fun _ => rfl

/-- A name in the table keeps its index when another is mentioned. -/
theorem indexOf_declare_of_mem {t : SymbolTable} {name other : String} (h : other ∈ t.names) :
    (t.declare name).indexOf other = t.indexOf other := by
  by_cases m : name ∈ t.names
  · rw [declare_of_mem m]
  · rw [declare_of_not_mem m]
    have lt := indexOf_lt_iff.2 h
    unfold indexOf at lt ⊢
    rw [List.findIdx_append, if_pos lt]

/-- A name gets the index that was foreseen for it. -/
theorem indexOf_declare_self (t : SymbolTable) (name : String) :
    (t.declare name).indexOf name = t.indexOf name := by
  by_cases m : name ∈ t.names
  · rw [declare_of_mem m]
  · have eq := indexOf_of_not_mem m
    rw [declare_of_not_mem m, eq]
    unfold indexOf at eq ⊢
    rw [List.findIdx_append, eq, if_neg (Nat.lt_irrefl _)]
    simp

/-! ## Sequences of operations -/

/-- The operations that change a table. -/
inductive Update
  | declare (name : String)
  | reference (name : String) (line : Nat)
  | define (name : String) (definition : Definition)
  deriving DecidableEq

/-- The name that an operation is about. -/
def Update.name : Update → String
  | .declare name => name
  | .reference name _ => name
  | .define name _ => name

/-- The table after an operation; a definition that is refused leaves it as it is. -/
def apply (t : SymbolTable) : Update → SymbolTable
  | .declare name => t.declare name
  | .reference name line => t.reference name line
  | .define name definition => (t.define name definition).toOption.getD t

end SymbolTable

end ByteAssembler
