import ByteAssembler.Text.Case

/-
  The registers of the machine. `M` stands for the memory cell that the machine addresses; in an
  instruction it is a register like the other seven. Every register has a three-bit code.
-/

namespace ByteAssembler

inductive Register
  | a | b | c | d | e | f | g | m
  deriving DecidableEq

namespace Register

/-- All registers, in the order of their codes. -/
def all : List Register :=
  [.a, .b, .c, .d, .e, .f, .g, .m]

/-- The code that stands for the register in an opcode byte. -/
def code : Register → UInt8
  | .a => 0
  | .b => 1
  | .c => 2
  | .d => 3
  | .e => 4
  | .f => 5
  | .g => 6
  | .m => 7

def name : Register → String
  | .a => "A"
  | .b => "B"
  | .c => "C"
  | .d => "D"
  | .e => "E"
  | .f => "F"
  | .g => "G"
  | .m => "M"

/-- The register of that name; the case of the name does not matter. -/
def ofName? (text : String) : Option Register :=
  let key := Text.upperCase text
  all.find? (·.name == key)

theorem ofName?_name (r : Register) : ofName? r.name = some r := by
  cases r <;> rfl

end Register

end ByteAssembler
