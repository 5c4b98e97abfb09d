import ByteAssembler.ByteLiteral
import ByteAssembler.Isa.Mnemonic
import ByteAssembler.Text.Hex

/-
  Diagnostics: the problems found in a source text, each with the line it belongs to. Problems
  are collected, not thrown: a run reports all of them, in the order of their lines.
-/

namespace ByteAssembler

/-- What can be wrong with a source text. -/
inductive Problem
  | malformedLine (reason : String)
  | unknownMnemonic (text : String)
  | operandCount (mnemonic : Mnemonic) (expected found : Nat)
  | invalidRegister (text : String)
  | invalidNumber (text : String) (reason : NumberError)
  | undefinedLabel (name : String)
  | duplicateLabel (name : String) (firstLine : Nat)
  | labelOutOfRange (name : String) (address : Nat)
  | programTooLarge (memorySize : Nat)
  | redundantLabel (name existing : String) (address : Nat)
  deriving DecidableEq

inductive Severity
  | error
  | warning
  deriving DecidableEq

namespace Problem

/-- What a problem is found on. -/
inductive Origin
  /-- The operation of a line, which is rejected for it. -/
  | operation
  /-- The label of a line. -/
  | label
  /-- The memory, which ends within an instruction. -/
  | memory
  /-- A symbol, when all lines are read. -/
  | symbol
  deriving DecidableEq

/-- Every problem has one origin. -/
def origin : Problem → Origin
  | .malformedLine _ => .operation
  | .unknownMnemonic _ => .operation
  | .operandCount _ _ _ => .operation
  | .invalidRegister _ => .operation
  | .invalidNumber _ _ => .operation
  | .duplicateLabel _ _ => .label
  | .redundantLabel _ _ _ => .label
  | .programTooLarge _ => .memory
  | .undefinedLabel _ => .symbol
  | .labelOutOfRange _ _ => .symbol

/-- Whether the operation of a line is rejected for the problem. -/
def isRejection (p : Problem) : Bool :=
  p.origin == .operation

/-- Whether the problem is that the program does not fit into the memory. -/
def isTooLarge (p : Problem) : Bool :=
  p.origin == .memory

theorem isRejection_iff {p : Problem} : p.isRejection = true ↔ p.origin = .operation :=
  beq_iff_eq

/-- A redundant label is a warning, every other problem is an error. -/
def severity : Problem → Severity
  | .redundantLabel _ _ _ => .warning
  | _ => .error

def message : Problem → String
  | .malformedLine reason => s!"line is invalid: {reason}"
  | .unknownMnemonic text => s!"mnemonic \"{text}\" is invalid"
  | .operandCount mnemonic expected found =>
    s!"instruction {mnemonic.name} takes {expected} operand(s), found {found}"
  | .invalidRegister text => s!"invalid register argument \"{text}\""
  | .invalidNumber text reason => s!"value \"{text}\" {reason.message}"
  | .undefinedLabel name => s!"label \"{name}\" was used but was never defined"
  | .duplicateLabel name firstLine => s!"label \"{name}\" is already defined on line {firstLine}"
  | .labelOutOfRange name address =>
    s!"label \"{name}\" resolves to {Text.hexLiteral 1 address}, which does not fit in a byte"
  | .programTooLarge memorySize => s!"program does not fit in {memorySize} bytes"
  | .redundantLabel name existing address =>
    s!"redundant label \"{name}\", address {Text.hexLiteral 2 address} is already labelled " ++
      s!"\"{existing}\""

end Problem

/-- A problem and the line it was found on; a problem of the whole program has no line. -/
structure Diagnostic where
  line : Option Nat
  problem : Problem
  deriving DecidableEq

namespace Diagnostic

def severity (d : Diagnostic) : Severity :=
  d.problem.severity

def isError (d : Diagnostic) : Bool :=
  d.severity == .error

/-- The diagnostic as it is shown to the user. -/
def message (d : Diagnostic) : String :=
  let place := match d.line with
    | some line => s!"Line {line}: "
    | none => ""
  let mark := match d.severity with
    | .warning => "warning: "
    | .error => ""
  place ++ mark ++ d.problem.message

/-- Whether `d` may stand before `e`: lines do not decrease, and what has no line comes last. -/
def notAfter (d e : Diagnostic) : Bool :=
  match d.line, e.line with
  | _, none => true
  | none, some _ => false
  | some m, some n => m ≤ n

/-- Inserts `d` before the first diagnostic that may stand after it. -/
def insertByLine (d : Diagnostic) : List Diagnostic → List Diagnostic
  | [] => [d]
  | e :: rest => if d.notAfter e then d :: e :: rest else e :: insertByLine d rest

/-- Orders diagnostics by line; those of one line keep their order. -/
def sortByLine (ds : List Diagnostic) : List Diagnostic :=
  ds.foldr insertByLine []

theorem insertByLine_perm (d : Diagnostic) (ds : List Diagnostic) :
    (insertByLine d ds).Perm (d :: ds) := by
  induction ds with
  | nil => exact .refl _
  | cons e rest ih =>
    unfold insertByLine
    split
    · exact .refl _
    · exact (ih.cons e).trans (.swap d e rest)

/-- Ordering by line loses nothing and adds nothing. -/
theorem sortByLine_perm (ds : List Diagnostic) : (sortByLine ds).Perm ds := by
  induction ds with
  | nil => exact .refl _
  | cons d rest ih => exact (insertByLine_perm d _).trans (ih.cons d)

end Diagnostic

end ByteAssembler
