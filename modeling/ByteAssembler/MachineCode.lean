import ByteAssembler.Program
import ByteAssembler.Text.Hex

/-
  Machine code. An instruction is one opcode byte, into which the codes of its register operands
  are merged, and one more byte if it has a constant or an address. Instructions are encoded as
  they are, whether or not their operands fit the mnemonic; what does not fit is an error, which
  names the leftmost operand at fault.
-/

namespace ByteAssembler

/-- Why an instruction has no encoding. -/
inductive EncodeError
  | unsupportedPattern (mnemonic : Mnemonic) (line : Nat)
  | missingOperand (mnemonic : Mnemonic) (index line : Nat)
  | unresolvedLabel (name : String) (line : Nat)
  | addressOutOfRange (name : String) (address : Nat)
  /-- An operand refers to a label that the symbol table does not have. -/
  | unknownLabel (index : Nat)
  deriving DecidableEq

namespace EncodeError

/-- The operand kind at one of the two places of a signature. -/
def patternSide (kind : Option OperandKind) : String :=
  match kind with
  | some k => s!"Some({k.name})"
  | none => "None"

def message : EncodeError → String
  | .unsupportedPattern mnemonic line =>
    let first := patternSide mnemonic.signature[0]?
    let second := patternSide mnemonic.signature[1]?
    s!"unsupported operand pattern ({first}, {second}) for {mnemonic.name} on line {line}"
  | .missingOperand mnemonic index line =>
    s!"{mnemonic.name} on line {line} is missing operand {index}"
  | .unresolvedLabel name line => s!"label \"{name}\" referenced on line {line} has no address"
  | .addressOutOfRange name address =>
    s!"label \"{name}\" resolves to {Text.hexLiteral 1 address}, past the 8-bit address space"
  | .unknownLabel index => s!"there is no label with index {index}"

end EncodeError

namespace MachineCode

/-- The address byte of a label that an instruction on `line` refers to. -/
def labelByte (symbols : SymbolTable) (line index : Nat) : Except EncodeError UInt8 :=
  match symbols.get? index with
  | none => .error (.unknownLabel index)
  | some symbol =>
    match symbol.address? with
    | none => .error (.unresolvedLabel symbol.name line)
    | some address =>
      if address ≤ 0xFF then .ok (UInt8.ofNat address)
      else .error (.addressOutOfRange symbol.name address)

/-- The register code or the byte for the operand at `index`, which has to be of that kind. -/
def operandByte (symbols : SymbolTable) (i : Instruction) (kind : OperandKind) (index : Nat) :
    Except EncodeError UInt8 :=
  match i.operands[index]? with
  | none => .error (.missingOperand i.mnemonic index i.line)
  | some operand =>
    match kind, operand with
    | .register, .register r => .ok r.code
    | .immediate, .immediate value => .ok value
    | .address, .address (.absolute address) => .ok address
    | .address, .address (.label label) => labelByte symbols i.line label
    | _, _ => .error (.unsupportedPattern i.mnemonic i.line)

/-- Register codes side by side, three bits each. -/
def packFields (codes : List UInt8) : UInt8 :=
  codes.foldl (fun fields code => (fields <<< 3) ||| code) 0

/-- The bytes of an instruction whose operands have the values `values`. -/
def instructionBytes (mnemonic : Mnemonic) (values : List (OperandKind × UInt8)) : List UInt8 :=
  let (codes, trailing) := values.partition (·.1 == .register)
  let fields := packFields (codes.map (·.2))
  (mnemonic.opcode ||| (fields &&& mnemonic.family.operandMask)) :: trailing.map (·.2)

/-- The bytes of an instruction. -/
def encodeInstruction (symbols : SymbolTable) (i : Instruction) :
    Except EncodeError (List UInt8) :=
  if i.mnemonic.arity < i.operands.length then
    .error (.unsupportedPattern i.mnemonic i.line)
  else
    instructionBytes i.mnemonic <$> i.mnemonic.signature.zipIdx.mapM fun (kind, index) =>
      (kind, ·) <$> operandByte symbols i kind index

/-- Appends an instruction to `buffer` and counts its bytes; on failure `buffer` is kept. -/
def append (symbols : SymbolTable) (i : Instruction) (buffer : List UInt8) :
    Except EncodeError Nat × List UInt8 :=
  match encodeInstruction symbols i with
  | .ok bytes => (.ok bytes.length, buffer ++ bytes)
  | .error e => (.error e, buffer)

/-- The buffer with one more instruction. -/
def extend (symbols : SymbolTable) (buffer : List UInt8) (i : Instruction) :
    Except EncodeError (List UInt8) :=
  let (written, buffer) := append symbols i buffer
  written.map fun _ => buffer

/-- The bytes of a program; fails with the error of the first instruction that has one. -/
def encode (p : Program) : Except EncodeError (List UInt8) :=
  (·.flatten) <$> p.instructions.mapM (encodeInstruction p.symbols)

end MachineCode

end ByteAssembler
