import ByteAssembler.Operand
import ByteAssembler.SymbolTable

/-
  Programs: instructions with their places in memory, and the symbols that their operands refer
  to by index.
-/

namespace ByteAssembler

structure Instruction where
  mnemonic : Mnemonic
  operands : List (Operand Nat)
  /-- The offset of the opcode byte in the machine code. -/
  address : Nat
  /-- The source line. -/
  line : Nat
  deriving DecidableEq

structure Program where
  instructions : List Instruction
  symbols : SymbolTable
  deriving DecidableEq

/-- The number of bytes that the instructions take. -/
def Program.size (p : Program) : Nat :=
  p.instructions.foldr (fun i size => i.mnemonic.byteLength + size) 0

end ByteAssembler
