/-
  Byte literals: a decimal number, `0x` with hexadecimal digits or `0b` with binary digits, each
  with an optional minus sign in front. The digits are read without a bound and the value is
  checked afterwards, so a literal of any length is either not a number or out of range. A
  negative value stands for its two's complement, hence the range -128 to 255. `parseWords` is the
  same computation in words of fixed width, with a check at each step.
-/

namespace ByteAssembler

/-- Why a text is not a byte literal. -/
inductive NumberError
  | format
  | range
  deriving DecidableEq

def NumberError.message : NumberError → String
  | .format => "is in the wrong format"
  | .range => "is not in range for a byte"

namespace ByteLiteral

/-- The value of a digit; the letters A to F count from ten, in either case. -/
def digitValue? (c : Char) : Option Nat :=
  if '0' ≤ c ∧ c ≤ '9' then some (c.toNat - '0'.toNat)
  else if 'a' ≤ c ∧ c ≤ 'f' then some (c.toNat - 'a'.toNat + 10)
  else if 'A' ≤ c ∧ c ≤ 'F' then some (c.toNat - 'A'.toNat + 10)
  else none

/-- The value of a digit of the given radix. -/
def digit? (radix : Nat) (c : Char) : Option Nat :=
  (digitValue? c).filter (· < radix)

/-- The number that a non-empty list of digits denotes, most significant digit first. -/
def magnitude? (radix : Nat) (digits : List Char) : Option Nat :=
  if digits.isEmpty then none
  else digits.foldlM (fun n c => (digit? radix c).map (n * radix + ·)) 0

/-- The radix of an unsigned literal and its digits. -/
def splitRadix : List Char → Nat × List Char
  | '0' :: 'x' :: digits => (16, digits)
  | '0' :: 'X' :: digits => (16, digits)
  | '0' :: 'b' :: digits => (2, digits)
  | '0' :: 'B' :: digits => (2, digits)
  | digits => (10, digits)

/-- The number that an unsigned literal denotes. -/
def unsigned? (text : List Char) : Option Nat :=
  let (radix, digits) := splitRadix text
  magnitude? radix digits

/-- The byte that a literal denotes. -/
def parse (text : String) : Except NumberError UInt8 :=
  match text.toList with
  | '-' :: rest =>
    match unsigned? rest with
    | none => .error .format
    | some n => if n ≤ 128 then .ok (UInt8.ofNat (256 - n)) else .error .range
  | unsigned =>
    match unsigned? unsigned with
    | none => .error .format
    | some n => if n ≤ 255 then .ok (UInt8.ofNat n) else .error .range

/-- Without a minus sign in front, the literal as a whole is unsigned. -/
theorem parse_of_ne_minus {text : String} (h : ∀ rest, text.toList ≠ '-' :: rest) :
    parse text =
      match unsigned? text.toList with
      | none => .error .format
      | some n => if n ≤ 255 then .ok (UInt8.ofNat n) else .error .range := by
  unfold parse
  split
  · next rest hrest => exact absurd hrest (h rest)
  · rfl

/-! ## Words of fixed width -/

/-- Whether a literal has a minus sign, and what stands after it. -/
def splitSign : List Char → Bool × List Char
  | '-' :: rest => (true, rest)
  | text => (false, text)

/-- A number in 32 bits, if it fits. -/
def word? (n : Nat) : Option UInt32 :=
  if n < UInt32.size then some (UInt32.ofNat n) else none

/-- One more digit after a number of 32 bits; both the product and the sum have to fit. -/
def shiftDigit? (radix : Nat) (n : UInt32) (c : Char) : Option UInt32 := do
  let value ← digit? radix c
  let shifted ← word? (n.toNat * radix)
  word? (shifted.toNat + value)

/-- The byte that a number of 32 bits stands for. A negative one is negated in 16 bits. -/
def byteOfWord (negative : Bool) (n : UInt32) : Except NumberError UInt8 :=
  if negative then
    if 128 < n then .error .range else .ok (-n.toUInt16.toInt16).toUInt16.toUInt8
  else if n ≤ 255 then .ok n.toUInt8 else .error .range

/-- The byte that a literal denotes, computed in words: all characters are checked to be digits
before the number is read, so that a failure to read it means that it is too large. -/
def parseWords (text : String) : Except NumberError UInt8 :=
  let (negative, body) := splitSign text.toList
  let (radix, digits) := splitRadix body
  if digits.isEmpty || digits.any (fun c => (digit? radix c).isNone) then .error .format
  else
    match digits.foldlM (shiftDigit? radix) 0 with
    | none => .error .range
    | some n => byteOfWord negative n

end ByteLiteral

end ByteAssembler
