import ByteAssembler.Program
import ByteAssembler.Text.Hex

/-
  Listings: one line an instruction, with its address, its mnemonic and its operands. Numbers are
  hexadecimal and labels appear by name. There is no line for an instruction with a label index
  that the symbol table does not have.
-/

namespace ByteAssembler.Listing

def operandText? (symbols : SymbolTable) : Operand Nat → Option String
  | .register r => some r.name
  | .immediate value => some (Text.hexLiteral 2 value.toNat)
  | .address (.absolute address) => some (Text.hexLiteral 2 address.toNat)
  | .address (.label index) => (symbols.get? index).map (·.name)

/-- The line of one instruction: `AA: NAME operand operand`. -/
def line? (symbols : SymbolTable) (i : Instruction) : Option String := do
  let operands ← i.operands.mapM (operandText? symbols)
  let stamp := Text.upperHex 2 i.address
  return s!"{stamp}: {i.mnemonic.name}" ++ String.join (operands.map (" " ++ ·))

/-- The lines of a program. -/
def lines? (p : Program) : Option (List String) :=
  p.instructions.mapM (line? p.symbols)

end ByteAssembler.Listing
