/-
  Families of opcode bytes. The families partition the bytes that the machine knows; a family
  also says which bits of the byte hold register codes.
-/

namespace ByteAssembler

inductive Family
  /-- Whole-byte opcodes `00000000` and `00000001`. -/
  | fixed
  /-- Bytes `0oooorrr` and `1101orrr`: a register code in bits 2 to 0. -/
  | register
  /-- Bytes `10dddsss`: destination in bits 5 to 3, source in bits 2 to 0. -/
  | move
  /-- Bytes `1100oooo`: arithmetic with a constant, and operations without operands. -/
  | immediate
  /-- Bytes `111ooooo`: jumps, calls, returns and stack operations. -/
  | control
  deriving DecidableEq

namespace Family

/-- The family of an opcode byte; none for the unassigned bytes 02 to 07, CE and CF. -/
def ofOpcode? (byte : UInt8) : Option Family :=
  if byte < 0x02 then some .fixed
  else if byte < 0x08 then none
  else if byte < 0x80 then some .register
  else if byte < 0xC0 then some .move
  else if byte < 0xCE then some .immediate
  else if byte < 0xD0 then none
  else if byte < 0xE0 then some .register
  else some .control

/-- The bits of the opcode byte that hold register codes. -/
def operandMask : Family → UInt8
  | .fixed => 0x00
  | .register => 0x07
  | .move => 0x3F
  | .immediate => 0x00
  | .control => 0x00

end Family

end ByteAssembler
