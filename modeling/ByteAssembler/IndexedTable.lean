import ByteAssembler.SymbolTable
import Mathlib.Init

/-
  A symbol table with an index. The labels stand in the order of their first mention, as in every
  symbol table; beside them a hash map leads from each name to its index, so that no call has to
  search through the labels.
-/

namespace ByteAssembler

/-- A symbol table that finds its labels through a hash map from names to indices. -/
structure IndexedTable where
  table : SymbolTable := {}
  byName : Std.HashMap String Nat := ∅

namespace IndexedTable

open SymbolTable (Update)

/-- The index of a label, and the table with it: a new name is added to the labels and to the
map. -/
def intern (t : IndexedTable) (name : String) : Nat × IndexedTable :=
  match t.byName[name]? with
  | some index => (index, t)
  | none =>
    (t.table.entries.length,
      ⟨⟨t.table.entries ++ [⟨name, none, none⟩]⟩, t.byName.insert name t.table.entries.length⟩)

/-- The table with the label at an index changed. -/
def modify (t : IndexedTable) (index : Nat) (change : Symbol → Symbol) : IndexedTable :=
  { t with table := ⟨t.table.entries.modify index change⟩ }

/-- The label of a name. -/
def find? (t : IndexedTable) (name : String) : Option Symbol :=
  t.byName[name]?.bind t.table.get?

/-- The answer to a call, and the table after it. -/
def call (t : IndexedTable) (u : Update) : Except Nat Nat × IndexedTable :=
  let (index, interned) := t.intern u.name
  match u with
  | .declare _ => (.ok index, interned)
  | .reference _ line => (.ok index, interned.modify index (·.useOn line))
  | .define _ d =>
    match (interned.table.get? index).bind (·.definition) with
    | some first => (.error first.line, interned)
    | none => (.ok index, interned.modify index (·.definedBy d))

/-- The table after a list of calls on a new one. -/
def run (us : List Update) : IndexedTable :=
  us.foldl (fun t u => (t.call u).2) {}

end IndexedTable

end ByteAssembler
