/-
  Comparison of names that ignores the case of the ASCII letters and of no others.
-/

namespace ByteAssembler.Text

/-- The text with its ASCII lower-case letters made upper-case. -/
def upperCase (text : String) : String :=
  String.ofList (text.toList.map Char.toUpper)

end ByteAssembler.Text
