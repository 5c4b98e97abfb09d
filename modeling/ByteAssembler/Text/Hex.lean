/-
  Hexadecimal numbers as text. Widths are least widths: a number that needs more digits has them.
-/

namespace ByteAssembler.Text

/-- At least `width` lower-case hexadecimal digits. -/
def hexDigits (width n : Nat) : List Char :=
  (Nat.toDigits 16 n).leftpad width '0'

/-- At least `width` upper-case hexadecimal digits. -/
def upperHex (width n : Nat) : String :=
  String.ofList ((hexDigits width n).map Char.toUpper)

/-- The mark `0x` and at least `width` lower-case hexadecimal digits. -/
def hexLiteral (width n : Nat) : String :=
  "0x" ++ String.ofList (hexDigits width n)

/-- Two upper-case digits a byte, nothing between them. -/
def hexDump (bytes : List UInt8) : String :=
  String.join (bytes.map fun b => upperHex 2 b.toNat)

end ByteAssembler.Text
