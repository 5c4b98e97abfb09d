import ByteAssembler.Text.Hex

/-
  JSON text, indented by two blanks a level, with one element or field a line.
-/

namespace ByteAssembler.Text.Json

/-- The character as it stands in a JSON string: quotes, backslashes and control characters are
escaped, everything else stands for itself. -/
def escape (c : Char) : List Char :=
  match c with
  | '"' => ['\\', '"']
  | '\\' => ['\\', '\\']
  | '\x08' => ['\\', 'b']
  | '\x0C' => ['\\', 'f']
  | '\n' => ['\\', 'n']
  | '\r' => ['\\', 'r']
  | '\t' => ['\\', 't']
  | c => if c.toNat < 0x20 then '\\' :: 'u' :: hexDigits 4 c.toNat else [c]

/-- A text as a JSON string. -/
def string (text : String) : String :=
  "\"" ++ String.ofList (text.toList.flatMap escape) ++ "\""

def bool (b : Bool) : String :=
  if b then "true" else "false"

def number (n : Nat) : String :=
  toString n

/-- Elements between two brackets, one a line, for brackets that stand at depth `depth`. -/
def block (depth : Nat) (left right : String) (elements : List String) : String :=
  let margin (d : Nat) := String.ofList (List.replicate (2 * d) ' ')
  if elements.isEmpty then left ++ right
  else
    left ++ "\n" ++ String.intercalate ",\n" (elements.map (margin (depth + 1) ++ ·)) ++ "\n" ++
      margin depth ++ right

def array (depth : Nat) (elements : List String) : String :=
  block depth "[" "]" elements

def object (depth : Nat) (fields : List (String × String)) : String :=
  block depth "\x7b" "\x7d" (fields.map fun (key, value) => string key ++ ": " ++ value)

end ByteAssembler.Text.Json
