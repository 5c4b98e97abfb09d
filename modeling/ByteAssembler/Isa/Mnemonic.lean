import ByteAssembler.Isa.Family
import ByteAssembler.Text.Case

/-
  The instruction set: 66 mnemonics, each with its name, the kinds of its operands, its base
  opcode and the family of that opcode. The conditions of the conditional jumps, returns and
  calls stand in the order C NC Z NZ O NO M P.
-/

namespace ByteAssembler

/-- What an operand has to be. -/
inductive OperandKind
  | register
  | immediate
  | address
  deriving DecidableEq

def OperandKind.name : OperandKind → String
  | .register => "Register"
  | .immediate => "Immediate"
  | .address => "Address"

inductive Mnemonic
  | nop | hlt
  | mvi | psh | pop | ldr | str | ldax | stax
  | add | adc | sub | sbb | ana | xra | ora | cmp
  | mov
  | adi | aci | sui | sbi | ani | xri | ori | cpi
  | shl | shr | rtl | rtr | not | neg
  | inc | dec
  | jmp | stsp | ldpc | ldsp | ret | cal | pssw | posw
  | jc | jnc | jz | jnz | jo | jno | jm | jp
  | rc | rnc | rz | rnz | ro | rno | rm | rp
  | cc | cnc | cz | cnz | co | cno | cm | cp
  deriving DecidableEq

/-- What the instruction set says of one mnemonic. -/
structure Descriptor where
  name : String
  /-- The kinds of the operands, in source order. -/
  signature : List OperandKind
  /-- The opcode byte before register codes are merged into it. -/
  opcode : UInt8
  family : Family

namespace Mnemonic

/-- All mnemonics, in the order of their opcodes. -/
def all : List Mnemonic :=
  [.nop, .hlt, .mvi, .psh, .pop, .ldr, .str, .ldax, .stax, .add, .adc, .sub, .sbb, .ana, .xra,
   .ora, .cmp, .mov, .adi, .aci, .sui, .sbi, .ani, .xri, .ori, .cpi, .shl, .shr, .rtl, .rtr, .not,
   .neg, .inc, .dec, .jmp, .stsp, .ldpc, .ldsp, .ret, .cal, .pssw, .posw, .jc, .jnc, .jz, .jnz,
   .jo, .jno, .jm, .jp, .rc, .rnc, .rz, .rnz, .ro, .rno, .rm, .rp, .cc, .cnc, .cz, .cnz, .co,
   .cno, .cm, .cp]

/-- The table of the instruction set. -/
def descriptor : Mnemonic → Descriptor
  | .nop => ⟨"NOP", [], 0x00, .fixed⟩
  | .hlt => ⟨"HLT", [], 0x01, .fixed⟩
  | .mvi => ⟨"MVI", [.register, .immediate], 0x08, .register⟩
  | .psh => ⟨"PSH", [.register], 0x10, .register⟩
  | .pop => ⟨"POP", [.register], 0x18, .register⟩
  | .ldr => ⟨"LDR", [.register, .address], 0x20, .register⟩
  | .str => ⟨"STR", [.register, .address], 0x28, .register⟩
  | .ldax => ⟨"LDAX", [.register], 0x30, .register⟩
  | .stax => ⟨"STAX", [.register], 0x38, .register⟩
  | .add => ⟨"ADD", [.register], 0x40, .register⟩
  | .adc => ⟨"ADC", [.register], 0x48, .register⟩
  | .sub => ⟨"SUB", [.register], 0x50, .register⟩
  | .sbb => ⟨"SBB", [.register], 0x58, .register⟩
  | .ana => ⟨"ANA", [.register], 0x60, .register⟩
  | .xra => ⟨"XRA", [.register], 0x68, .register⟩
  | .ora => ⟨"ORA", [.register], 0x70, .register⟩
  | .cmp => ⟨"CMP", [.register], 0x78, .register⟩
  | .mov => ⟨"MOV", [.register, .register], 0x80, .move⟩
  | .adi => ⟨"ADI", [.immediate], 0xC0, .immediate⟩
  | .aci => ⟨"ACI", [.immediate], 0xC1, .immediate⟩
  | .sui => ⟨"SUI", [.immediate], 0xC2, .immediate⟩
  | .sbi => ⟨"SBI", [.immediate], 0xC3, .immediate⟩
  | .ani => ⟨"ANI", [.immediate], 0xC4, .immediate⟩
  | .xri => ⟨"XRI", [.immediate], 0xC5, .immediate⟩
  | .ori => ⟨"ORI", [.immediate], 0xC6, .immediate⟩
  | .cpi => ⟨"CPI", [.immediate], 0xC7, .immediate⟩
  | .shl => ⟨"SHL", [], 0xC8, .immediate⟩
  | .shr => ⟨"SHR", [], 0xC9, .immediate⟩
  | .rtl => ⟨"RTL", [], 0xCA, .immediate⟩
  | .rtr => ⟨"RTR", [], 0xCB, .immediate⟩
  | .not => ⟨"NOT", [], 0xCC, .immediate⟩
  | .neg => ⟨"NEG", [], 0xCD, .immediate⟩
  | .inc => ⟨"INC", [.register], 0xD0, .register⟩
  | .dec => ⟨"DEC", [.register], 0xD8, .register⟩
  | .jmp => ⟨"JMP", [.address], 0xE0, .control⟩
  | .stsp => ⟨"STSP", [.address], 0xE1, .control⟩
  | .ldpc => ⟨"LDPC", [], 0xE2, .control⟩
  | .ldsp => ⟨"LDSP", [], 0xE3, .control⟩
  | .ret => ⟨"RET", [], 0xE4, .control⟩
  | .cal => ⟨"CAL", [.address], 0xE5, .control⟩
  | .pssw => ⟨"PSSW", [], 0xE6, .control⟩
  | .posw => ⟨"POSW", [], 0xE7, .control⟩
  | .jc => ⟨"JC", [.address], 0xE8, .control⟩
  | .jnc => ⟨"JNC", [.address], 0xE9, .control⟩
  | .jz => ⟨"JZ", [.address], 0xEA, .control⟩
  | .jnz => ⟨"JNZ", [.address], 0xEB, .control⟩
  | .jo => ⟨"JO", [.address], 0xEC, .control⟩
  | .jno => ⟨"JNO", [.address], 0xED, .control⟩
  | .jm => ⟨"JM", [.address], 0xEE, .control⟩
  | .jp => ⟨"JP", [.address], 0xEF, .control⟩
  | .rc => ⟨"RC", [], 0xF0, .control⟩
  | .rnc => ⟨"RNC", [], 0xF1, .control⟩
  | .rz => ⟨"RZ", [], 0xF2, .control⟩
  | .rnz => ⟨"RNZ", [], 0xF3, .control⟩
  | .ro => ⟨"RO", [], 0xF4, .control⟩
  | .rno => ⟨"RNO", [], 0xF5, .control⟩
  | .rm => ⟨"RM", [], 0xF6, .control⟩
  | .rp => ⟨"RP", [], 0xF7, .control⟩
  | .cc => ⟨"CC", [.address], 0xF8, .control⟩
  | .cnc => ⟨"CNC", [.address], 0xF9, .control⟩
  | .cz => ⟨"CZ", [.address], 0xFA, .control⟩
  | .cnz => ⟨"CNZ", [.address], 0xFB, .control⟩
  | .co => ⟨"CO", [.address], 0xFC, .control⟩
  | .cno => ⟨"CNO", [.address], 0xFD, .control⟩
  | .cm => ⟨"CM", [.address], 0xFE, .control⟩
  | .cp => ⟨"CP", [.address], 0xFF, .control⟩

def name (m : Mnemonic) : String :=
  m.descriptor.name

def signature (m : Mnemonic) : List OperandKind :=
  m.descriptor.signature

def opcode (m : Mnemonic) : UInt8 :=
  m.descriptor.opcode

def family (m : Mnemonic) : Family :=
  m.descriptor.family

/-- The number of operands. -/
def arity (m : Mnemonic) : Nat :=
  m.signature.length

/-- Whether a byte follows the opcode: register codes are part of the opcode byte, a constant or
an address is not. -/
def hasTrailingByte (m : Mnemonic) : Bool :=
  m.signature.any (· != .register)

/-- The number of bytes of the encoded instruction. -/
def byteLength (m : Mnemonic) : Nat :=
  if m.hasTrailingByte then 2 else 1

/-- The mnemonic of that name; the case of the name does not matter. -/
def ofName? (text : String) : Option Mnemonic :=
  let key := Text.upperCase text
  all.find? (·.name == key)

theorem mem_all (m : Mnemonic) : m ∈ all := by
  cases m <;> decide

theorem ofName?_name (m : Mnemonic) : ofName? m.name = some m := by
  cases m <;> rfl

end Mnemonic

end ByteAssembler
