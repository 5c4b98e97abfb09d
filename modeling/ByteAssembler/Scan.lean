import ByteAssembler.Config
import ByteAssembler.Line
import ByteAssembler.Program

/-
  One pass over the lines of a source text. The scan keeps the offset of the next instruction and
  the symbols mentioned so far. A label stands for the offset at its line; an operand may use it
  before or after that line, since it refers to the symbol by index. A rejected line adds nothing
  but its label. Labels that were never defined, or that do not fit into a byte, are reported when
  the scan is finished, at the line of their first use.
-/

namespace ByteAssembler

/-- The state between two lines. -/
structure Scan where
  /-- Number of lines read. -/
  line : Nat := 0
  /-- Address of the next instruction. -/
  offset : Nat := 0
  symbols : SymbolTable := {}
  /-- Whether an instruction beyond the memory was reported. -/
  overflowed : Bool := false
  instructions : Array Instruction := #[]
  diagnostics : Array Diagnostic := #[]

/-- What a finished scan knows of the source. -/
structure Scanned where
  program : Program
  diagnostics : List Diagnostic
  /-- Whether a diagnostic stands against using the program. -/
  failed : Bool
  deriving DecidableEq

namespace Scan

/-- Offsets stop here instead of growing further. -/
def maxOffset : Nat := 0xFFFF

/-- Reports problems of the current line. -/
def report (s : Scan) (problems : List Problem) : Scan :=
  { s with diagnostics := s.diagnostics ++ problems.map (Diagnostic.mk (some s.line)) }

/-- The warning for a label at an offset whose first label has another name. -/
def redundancy (s : Scan) (name : String) : List Problem :=
  match s.symbols.nameAt? s.offset with
  | some existing => if existing = name then [] else [.redundantLabel name existing s.offset]
  | none => []

/-- Defines a label at the current offset. -/
def defineLabel (s : Scan) (name : String) : Scan :=
  let s := s.report (s.redundancy name)
  match s.symbols.define name ⟨s.offset, s.line⟩ with
  | .ok symbols => { s with symbols }
  | .error first => s.report [.duplicateLabel name first.line]

/-- Reports the first instruction that ends beyond the memory. -/
def checkMemory (config : Config) (s : Scan) (length : Nat) : Scan :=
  if config.memorySize.toNat < s.offset + length ∧ !s.overflowed then
    { s.report [.programTooLarge config.memorySize.toNat] with overflowed := true }
  else s

/-- Mentions the labels of operands on the current line. -/
def referenceAll (s : Scan) (operands : List (Operand String)) : SymbolTable :=
  (operands.filterMap (·.label?)).foldl (·.reference · s.line) s.symbols

/-- Places an instruction at the current offset. -/
def place (config : Config) (s : Scan) (mnemonic : Mnemonic) (operands : List (Operand String)) :
    Scan :=
  let symbols := s.referenceAll operands
  let instruction : Instruction :=
    ⟨mnemonic, operands.map (·.mapLabel symbols.indexOf), s.offset, s.line⟩
  let s := s.checkMemory config mnemonic.byteLength
  { s with
    symbols
    instructions := s.instructions.push instruction
    offset := min (s.offset + mnemonic.byteLength) maxOffset }

/-- The state after one more line. -/
def feed (config : Config) (s : Scan) (line : Line) : Scan :=
  let s := { s with line := s.line + 1 }
  let s := match line.label with
    | some name => s.defineLabel name
    | none => s
  match line.body with
  | .empty => s
  | .rejected problems => s.report problems
  | .instruction mnemonic operands => s.place config mnemonic operands

/-- The report on a symbol that is known only at the end: it has no address, or it is used and
its address does not fit into a byte. -/
def lateReport? (symbol : Symbol) : Option Diagnostic :=
  match symbol.address? with
  | none => some ⟨symbol.firstUse, .undefinedLabel symbol.name⟩
  | some address =>
    if 0xFF < address ∧ symbol.firstUse.isSome then
      some ⟨symbol.firstUse, .labelOutOfRange symbol.name address⟩
    else none

/-- The program, and all diagnostics in the order of their lines. -/
def finish (config : Config) (s : Scan) : Scanned :=
  let late := s.symbols.entries.filterMap lateReport?
  let diagnostics := Diagnostic.sortByLine (s.diagnostics.toList ++ late)
  { program := ⟨s.instructions.toList, s.symbols⟩
    diagnostics
    failed := diagnostics.any fun d => d.isError || config.warningsAsErrors }

end Scan

/-- Scans the lines of a source text. -/
def scan (config : Config) (lines : List String) : Scanned :=
  (lines.foldl (fun s text => Scan.feed config s (Line.read text)) {}).finish config

end ByteAssembler
