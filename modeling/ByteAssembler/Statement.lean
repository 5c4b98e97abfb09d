import ByteAssembler.Text.Word

/-
  Statements: what one line of source says. A line is

      [label:] [mnemonic [operand ...]] [; comment]

  where operands are separated by blanks or by one comma. A label is a word, a mnemonic consists
  of ASCII letters, and an operand is a word with an optional minus sign in front. Names are kept
  as they are written; whether a mnemonic exists or an operand fits is not decided here.
-/

namespace ByteAssembler

/-- A mnemonic and its operands, as they are written. -/
structure Operation where
  mnemonic : String
  operands : List String
  deriving DecidableEq

/-- The label and the operation of a line. -/
structure Statement where
  label : Option String
  operation : Option Operation
  deriving DecidableEq

namespace Statement

/-- Why a line is not a statement. -/
inductive Fault
  | malformedLabel (text : String)
  | expectedMnemonic (found : String)
  | emptyOperand
  | invalidOperand (text : String)
  deriving DecidableEq

def Fault.message : Fault → String
  | .malformedLabel text => s!"malformed label \"{text}\""
  | .expectedMnemonic found => s!"expected a mnemonic, found \"{found}\""
  | .emptyOperand => "empty operand"
  | .invalidOperand text => s!"invalid operand \"{text}\""

/-- The part of a line before its comment, without the blanks around it. -/
def code (line : List Char) : List Char :=
  Text.trim (line.takeWhile (· != ';'))

/-- Cuts the label off the code of a line: a label ends at the first colon. -/
def splitLabel (code : List Char) : Except Fault (Option String × List Char) :=
  if code.contains ':' then
    let name := code.takeWhile (· != ':')
    let rest := (code.dropWhile (· != ':')).drop 1
    if Text.isWord name then .ok (some (String.ofList name), Text.trimStart rest)
    else .error (.malformedLabel (String.ofList name))
  else .ok (none, code)

/-- A word with an optional minus sign in front. -/
def isOperand : List Char → Bool
  | '-' :: rest => Text.isWord rest
  | text => Text.isWord text

/-- The operands between two commas: at least one, separated by blanks. -/
def operandGroup (piece : List Char) : Except Fault (List String) :=
  match Text.words piece with
  | [] => .error .emptyOperand
  | tokens => tokens.mapM fun token =>
    if isOperand token then .ok (String.ofList token)
    else .error (.invalidOperand (String.ofList token))

/-- The operands after a mnemonic, in groups between commas. -/
def parseOperands (text : List Char) : Except Fault (List String) :=
  if text.all Text.isBlank then .ok []
  else (·.flatten) <$> (text.splitOn ',').mapM operandGroup

/-- The operation after a label; `text` has no blank at its ends. -/
def parseOperation (text : List Char) : Except Fault (Option Operation) :=
  let mnemonic := text.takeWhile (!Text.isBlank ·)
  if text.isEmpty then .ok none
  else if mnemonic.all Char.isAlpha then
    (fun operands => some ⟨String.ofList mnemonic, operands⟩) <$>
      parseOperands (text.dropWhile (!Text.isBlank ·))
  else .error (.expectedMnemonic (String.ofList mnemonic))

/-- The statement that a line of source makes. -/
def parse (line : String) : Except Fault Statement := do
  let (label, rest) ← splitLabel (code line.toList)
  let operation ← parseOperation rest
  return ⟨label, operation⟩

end Statement

end ByteAssembler
