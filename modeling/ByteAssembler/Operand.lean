import ByteAssembler.Isa.Mnemonic
import ByteAssembler.Isa.Register

/-
  Operands of instructions. They are parametrised by what stands for a label: its name in source
  text, its index in the symbol table in a program.
-/

namespace ByteAssembler

/-- Where an address operand points, with labels of type `ι`. -/
inductive Target (ι : Type)
  | absolute (address : UInt8)
  | label (label : ι)
  deriving DecidableEq

inductive Operand (ι : Type)
  | register (register : Register)
  | immediate (value : UInt8)
  | address (target : Target ι)
  deriving DecidableEq

namespace Operand

def kind {ι : Type} : Operand ι → OperandKind
  | .register _ => .register
  | .immediate _ => .immediate
  | .address _ => .address

/-- The label that the operand refers to. -/
def label? {ι : Type} : Operand ι → Option ι
  | .address (.label l) => some l
  | _ => none

/-- The operand with its label replaced. -/
def mapLabel {ι κ : Type} (f : ι → κ) : Operand ι → Operand κ
  | .register r => .register r
  | .immediate v => .immediate v
  | .address (.absolute a) => .address (.absolute a)
  | .address (.label l) => .address (.label (f l))

end Operand

end ByteAssembler
