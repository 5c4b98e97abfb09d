import ByteAssembler.Statement
import Mathlib.Data.List.TakeWhile

/-
  Words stand apart from what surrounds them: no word character is a blank, a colon or a semicolon
  (`isBlank_of_isWordChar`, `ne_colon_of_isWordChar`, `ne_semicolon_of_isWordChar`). The label of a
  statement is a word (`isWord_of_parse`).
-/

namespace ByteAssembler

namespace Text

/-- The code points of the ASCII letters and digits. -/
theorem toNat_of_isAlphanum {c : Char} (h : c.isAlphanum = true) :
    48 ≤ c.toNat ∧ c.toNat ≤ 57 ∨ 65 ≤ c.toNat ∧ c.toNat ≤ 90 ∨ 97 ≤ c.toNat ∧ c.toNat ≤ 122 := by
  have hA : 'A'.val.toNat = 65 := rfl
  have hZ : 'Z'.val.toNat = 90 := rfl
  have ha : 'a'.val.toNat = 97 := rfl
  have hz : 'z'.val.toNat = 122 := rfl
  have h0 : '0'.val.toNat = 48 := rfl
  have h9 : '9'.val.toNat = 57 := rfl
  have hc : c.toNat = c.val.toNat := rfl
  unfold Char.isAlphanum Char.isAlpha Char.isUpper Char.isLower Char.isDigit at h
  simp only [ge_iff_le, UInt32.le_iff_toNat_le, Bool.or_eq_true, Bool.and_eq_true,
    decide_eq_true_eq] at h
  omega

theorem inRanges_eq_true_iff {ranges : List (Nat × Nat)} {c : Char} :
    inRanges ranges c = true ↔ ∃ r ∈ ranges, r.1 ≤ c.toNat ∧ c.toNat ≤ r.2 := by
  simp only [inRanges, List.any_eq_true, Bool.and_eq_true, decide_eq_true_eq]

/-- No range of blanks meets a range of word characters. -/
theorem blankRanges_disjoint_wordRanges :
    ∀ b ∈ blankRanges, ∀ w ∈ wordRanges, b.2 < w.1 ∨ w.2 < b.1 := by
  decide +kernel

/-- The ranges of blanks hold no ASCII letter, no digit and no underscore. -/
theorem blankRanges_ascii :
    ∀ b ∈ blankRanges, b.2 < 48 ∨ 122 < b.1 := by
  decide

theorem isWordChar_cases {c : Char} (h : isWordChar c = true) :
    48 ≤ c.toNat ∧ c.toNat ≤ 57 ∨ 65 ≤ c.toNat ∧ c.toNat ≤ 122 ∨
      0x7F < c.toNat ∧ ∃ w ∈ wordRanges, w.1 ≤ c.toNat ∧ c.toNat ≤ w.2 := by
  simp only [isWordChar, Bool.or_eq_true, Bool.and_eq_true, decide_eq_true_eq, beq_iff_eq,
    inRanges_eq_true_iff] at h
  rcases h with (h | rfl) | h
  · have hn := toNat_of_isAlphanum h
    omega
  · exact Or.inr (Or.inl (by decide))
  · exact Or.inr (Or.inr h)

theorem isBlank_of_isWordChar {c : Char} (h : isWordChar c = true) : isBlank c = false := by
  rw [isBlank, Bool.eq_false_iff, Ne, inRanges_eq_true_iff]
  rintro ⟨b, hb, hlo, hhi⟩
  have hascii := blankRanges_ascii b hb
  rcases isWordChar_cases h with hc | hc | ⟨-, w, hw, hc⟩
  · omega
  · omega
  · have hdisjoint := blankRanges_disjoint_wordRanges b hb w hw
    omega

theorem ne_colon_of_isWordChar {c : Char} (h : isWordChar c = true) : c ≠ ':' := by
  rintro rfl
  exact absurd h (by decide +kernel)

theorem ne_semicolon_of_isWordChar {c : Char} (h : isWordChar c = true) : c ≠ ';' := by
  rintro rfl
  exact absurd h (by decide +kernel)

theorem isWord_iff {text : List Char} :
    isWord text = true ↔ text ≠ [] ∧ ∀ c ∈ text, isWordChar c = true := by
  simp [isWord]

/-! ## Cutting a text -/

/-- What has no separator in it joins the first piece of what follows. -/
theorem splitOn_append_of_not_mem {α : Type} [BEq α] [LawfulBEq α] {x : α} {text : List α}
    (h : x ∉ text) (rest : List α) :
    (text ++ rest).splitOn x = (rest.splitOn x).modifyHead (text ++ ·) := by
  obtain ⟨piece, pieces, hpieces⟩ := List.exists_cons_of_ne_nil (List.splitOn_ne_nil x rest)
  induction text with
  | nil => simp [hpieces]
  | cons c text ih =>
    have hc : c ≠ x := fun e => h (e ▸ List.mem_cons_self)
    rw [List.cons_append, List.splitOn_cons_eq_if_modifyHead, if_neg (by simpa using hc),
      ih fun hx => h (List.mem_cons_of_mem c hx), hpieces]
    rfl

theorem trimStart_of_head {c : Char} (h : isBlank c = false) (rest : List Char) :
    trimStart (c :: rest) = c :: rest := by
  rw [trimStart, List.dropWhile_cons, if_neg (by simp [h])]

theorem trimEnd_concat {c : Char} (h : isBlank c = false) (front : List Char) :
    trimEnd (front ++ [c]) = front ++ [c] := by
  rw [trimEnd, List.reverse_concat, List.dropWhile_cons, if_neg (by simp [h]), List.reverse_cons,
    List.reverse_reverse]

end Text

namespace Statement

/-- Cutting a label off: the name is a word. -/
theorem splitLabel_isWord {code rest : List Char} {name : String}
    (h : splitLabel code = .ok (some name, rest)) : Text.isWord name.toList = true := by
  unfold splitLabel at h
  split at h
  · dsimp only at h
    split at h
    · next hword =>
      cases h
      rwa [String.toList_ofList]
    · cases h
  · cases h

/-- The label of a statement is a word. -/
theorem isWord_of_parse {text : String} {statement : Statement} {name : String}
    (h : parse text = .ok statement) (hl : statement.label = some name) :
    Text.isWord name.toList = true := by
  unfold parse at h
  cases hs : splitLabel (code text.toList) with
  | error fault =>
    rw [hs] at h
    cases h
  | ok split =>
    obtain ⟨label, rest⟩ := split
    rw [hs] at h
    cases ho : parseOperation rest with
    | error fault =>
      simp only [bind, Except.bind, ho] at h
      cases h
    | ok operation =>
      simp only [bind, Except.bind, ho, pure, Except.pure] at h
      cases h
      cases hl
      exact splitLabel_isWord hs

end Statement

end ByteAssembler
