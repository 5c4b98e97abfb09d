/-
  Lines of a text. A line ends at a line feed; one carriage return right before the line feed
  belongs to the line end, and a text that ends with a line feed has no further, empty line.
  `splitLines` is written for any kind of symbol, so that the lines of a text and the lines of
  its bytes are cut by one rule.
-/

namespace ByteAssembler.Text

/-- The list without its last element, if that is `x`. -/
def dropFinal {α : Type} [BEq α] (x : α) (xs : List α) : List α :=
  if xs.getLast? == some x then xs.dropLast else xs

section DropFinal

variable {α : Type} [BEq α] [LawfulBEq α] {x : α}

theorem dropFinal_concat (front : List α) : dropFinal x (front ++ [x]) = front := by
  simp [dropFinal]

theorem dropFinal_of_getLast?_ne {text : List α} (h : text.getLast? ≠ some x) :
    dropFinal x text = text :=
  if_neg (by simpa using h)

theorem eq_dropFinal_or_concat (x : α) (text : List α) :
    text = dropFinal x text ∨ text = dropFinal x text ++ [x] := by
  by_cases h : text.getLast? = some x
  · obtain ⟨front, rfl⟩ := List.getLast?_eq_some_iff.1 h
    exact .inr (by rw [dropFinal_concat])
  · exact .inl (dropFinal_of_getLast?_ne h).symm

end DropFinal

/-- The lines of `text`, with `feed` for the line feed and `ret` for the carriage return. -/
def splitLines {α : Type} [BEq α] (feed ret : α) (text : List α) : List (List α) :=
  let pieces := text.splitOn feed
  pieces.dropLast.map (dropFinal ret) ++ pieces.getLast?.toList.filter (!·.isEmpty)

/-- The lines of a text. -/
def lines (text : String) : List String :=
  (splitLines '\n' '\r' text.toList).map String.ofList

/-- The lines of a text given as bytes; `none` if one of them is not UTF-8. -/
def linesOfBytes? (bytes : List UInt8) : Option (List String) :=
  (splitLines 0x0A 0x0D bytes).mapM fun line => String.fromUTF8? line.toByteArray

/-- The bytes up to the last line feed. -/
def completeLines (bytes : List UInt8) : List UInt8 :=
  (bytes.reverse.dropWhile (· != 0x0A)).reverse

/-- The bytes behind the last line feed. -/
def unfinishedLine (bytes : List UInt8) : List UInt8 :=
  (bytes.reverse.takeWhile (· != 0x0A)).reverse

end ByteAssembler.Text
