import ByteAssembler.Diagnostic
import ByteAssembler.Operand
import ByteAssembler.Statement

/-
  Lines checked against the instruction set. What a line says depends on its text alone: its
  label, and either an instruction whose operands fit the mnemonic, or the problems for which the
  rest of the line is rejected. Labels are still names here; addresses come later.
-/

namespace ByteAssembler

namespace Operand

/-- An address operand that starts like this is a number, any other is a label. -/
def startsNumber (token : String) : Bool :=
  match token.toList with
  | c :: _ => c.isDigit || c == '-'
  | [] => false

/-- The byte that a numeric operand denotes. -/
def readNumber (token : String) : Except Problem UInt8 :=
  match ByteLiteral.parse token with
  | .ok value => .ok value
  | .error reason => .error (.invalidNumber token reason)

/-- The operand of the given kind that a token denotes. -/
def read (kind : OperandKind) (token : String) : Except Problem (Operand String) :=
  match kind with
  | .register =>
    match Register.ofName? token with
    | some r => .ok (.register r)
    | none => .error (.invalidRegister token)
  | .immediate => .immediate <$> readNumber token
  | .address =>
    if startsNumber token then (fun a => .address (.absolute a)) <$> readNumber token
    else .ok (.address (.label token))

end Operand

/-- What the part of a line after its label amounts to. -/
inductive Line.Body
  | empty
  | rejected (problems : List Problem)
  | instruction (mnemonic : Mnemonic) (operands : List (Operand String))
  deriving DecidableEq

/-- What one line of source says. -/
structure Line where
  label : Option String
  body : Line.Body
  deriving DecidableEq

namespace Line

/-- The operands of a mnemonic, or the problems of all tokens that do not fit. -/
def Body.ofTokens (mnemonic : Mnemonic) (tokens : List String) : Body :=
  let results := List.zipWith Operand.read mnemonic.signature tokens
  let problems := results.filterMap fun
    | .error problem => some problem
    | .ok _ => none
  if problems.isEmpty then .instruction mnemonic (results.filterMap (·.toOption))
  else .rejected problems

/-- Checks an operation: the mnemonic exists, it has as many operands as it takes, and each of
them fits. -/
def Body.ofOperation (operation : Operation) : Body :=
  match Mnemonic.ofName? operation.mnemonic with
  | none => .rejected [.unknownMnemonic operation.mnemonic]
  | some mnemonic =>
    let found := operation.operands.length
    if found = mnemonic.arity then .ofTokens mnemonic operation.operands
    else .rejected [.operandCount mnemonic mnemonic.arity found]

/-- The line that a statement makes. -/
def ofStatement (statement : Statement) : Line :=
  ⟨statement.label, statement.operation.elim .empty Body.ofOperation⟩

/-- Reads a line of source; one that is no statement is rejected as a whole, its label included. -/
def read (text : String) : Line :=
  match Statement.parse text with
  | .ok statement => ofStatement statement
  | .error fault => ⟨none, .rejected [.malformedLine fault.message]⟩

end Line

end ByteAssembler
