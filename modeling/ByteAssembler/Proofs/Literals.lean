import ByteAssembler.ByteLiteral
import Mathlib.Data.Nat.Digits.Defs

/-
  What a byte literal means. `Literal` is the grammar of literals with the number that each of them
  writes, a sum of digits times powers of the radix without any bound. `parse_eq_of_literal`: a
  literal stands for its number, or for the two's complement of it after a minus sign, as long as
  this is in range; every other text is in the wrong format. The same comes out in words of fixed
  width (`parseWords`): digits in 32 bits, with a check at each step, fail exactly for a number that
  32 bits cannot hold (`foldlM_shiftDigit?`), and negation in 16 bits gives the byte that is asked for.
-/

namespace ByteAssembler.ByteLiteral

/-! ## The grammar of literals -/

/-- The character is a digit of the radix with that value; letters may be of either case. -/
def IsDigit (radix : Nat) (c : Char) (value : Nat) : Prop :=
  value < radix ∧ (c = Nat.digitChar value ∨ c = (Nat.digitChar value).toUpper)

/-- One or more digits, most significant first, that write `n`. -/
def Writes (radix n : Nat) (digits : List Char) : Prop :=
  digits ≠ [] ∧ ∃ values, List.Forall₂ (IsDigit radix) digits values ∧
    n = Nat.ofDigits radix values.reverse

/-- A literal without a sign: digits, after the mark of their radix unless that is ten. -/
inductive Unsigned (n : Nat) : List Char → Prop
  | decimal {digits : List Char} (h : Writes 10 n digits) : Unsigned n digits
  | hex {mark : Char} {digits : List Char} (hm : mark = 'x' ∨ mark = 'X')
    (h : Writes 16 n digits) : Unsigned n ('0' :: mark :: digits)
  | binary {mark : Char} {digits : List Char} (hm : mark = 'b' ∨ mark = 'B')
    (h : Writes 2 n digits) : Unsigned n ('0' :: mark :: digits)

/-- A literal, with or without a minus sign. -/
inductive Literal (n : Nat) : Bool → List Char → Prop
  | positive {text : List Char} (h : Unsigned n text) : Literal n false text
  | negative {text : List Char} (h : Unsigned n text) : Literal n true ('-' :: text)

/-! ## Digits -/

theorem toNat_digitChar :
    (∀ d < 10, (Nat.digitChar d).toNat = 48 + d) ∧
      ∀ d < 16, 10 ≤ d → (Nat.digitChar d).toNat = 87 + d ∧
        (Nat.digitChar d).toUpper.toNat = 55 + d := by
  decide

theorem digitValue?_eq_some_iff {c : Char} {value : Nat} :
    digitValue? c = some value ↔ IsDigit 16 c value := by
  have hdef : digitValue? c =
      if 48 ≤ c.toNat ∧ c.toNat ≤ 57 then some (c.toNat - 48)
      else if 97 ≤ c.toNat ∧ c.toNat ≤ 102 then some (c.toNat - 97 + 10)
      else if 65 ≤ c.toNat ∧ c.toNat ≤ 70 then some (c.toNat - 65 + 10)
      else none := rfl
  obtain ⟨hdecimal, hletter⟩ := toNat_digitChar
  constructor
  · intro h
    rw [hdef] at h
    split at h
    · obtain rfl := Option.some.inj h
      refine ⟨by omega, Or.inl (Char.toNat_inj.1 ?_)⟩
      rw [hdecimal _ (by omega)]
      omega
    · split at h
      · obtain rfl := Option.some.inj h
        refine ⟨by omega, Or.inl (Char.toNat_inj.1 ?_)⟩
        rw [(hletter _ (by omega) (by omega)).1]
        omega
      · split at h
        · obtain rfl := Option.some.inj h
          refine ⟨by omega, Or.inr (Char.toNat_inj.1 ?_)⟩
          rw [(hletter _ (by omega) (by omega)).2]
          omega
        · cases h
  · have hback : ∀ d < 16, digitValue? (Nat.digitChar d) = some d ∧
        digitValue? (Nat.digitChar d).toUpper = some d := by decide
    rintro ⟨hlt, rfl | rfl⟩
    · exact (hback value hlt).1
    · exact (hback value hlt).2

theorem digit?_eq_some_iff {radix value : Nat} {c : Char} (hradix : radix ≤ 16) :
    digit? radix c = some value ↔ IsDigit radix c value := by
  unfold digit?
  rw [Option.filter_eq_some_iff, digitValue?_eq_some_iff, decide_eq_true_iff]
  unfold IsDigit
  constructor
  · rintro ⟨⟨-, hchar⟩, hlt⟩
    exact ⟨hlt, hchar⟩
  · rintro ⟨hlt, hchar⟩
    exact ⟨⟨by omega, hchar⟩, hlt⟩

/-! ## Numbers without a bound -/

/-- Reading digits from a number on: each makes it `radix` times as large and is added. -/
theorem foldlM_digits_eq_some_iff {radix : Nat} (hradix : radix ≤ 16) {digits : List Char}
    {start n : Nat} :
    digits.foldlM (fun n c => (digit? radix c).map (n * radix + ·)) start = some n ↔
      ∃ values, List.Forall₂ (IsDigit radix) digits values ∧
        n = values.foldl (fun n value => n * radix + value) start := by
  induction digits generalizing start with
  | nil =>
    constructor
    · intro h
      exact ⟨[], .nil, (Option.some.inj h).symm⟩
    · rintro ⟨values, hvalues, rfl⟩
      cases hvalues
      rfl
  | cons c digits ih =>
    rw [List.foldlM_cons, Option.bind_eq_bind, Option.bind_eq_some_iff]
    constructor
    · rintro ⟨m, hm, hrest⟩
      obtain ⟨value, hvalue, rfl⟩ := Option.map_eq_some_iff.1 hm
      obtain ⟨values, hvalues, rfl⟩ := ih.1 hrest
      exact ⟨value :: values, .cons ((digit?_eq_some_iff hradix).1 hvalue) hvalues, rfl⟩
    · rintro ⟨values, hvalues, rfl⟩
      cases hvalues with
      | cons hvalue hvalues =>
        refine ⟨_, Option.map_eq_some_iff.2 ⟨_, (digit?_eq_some_iff hradix).2 hvalue, rfl⟩, ?_⟩
        exact ih.2 ⟨_, hvalues, rfl⟩

/-- The number of digits, most significant first, as it is summed up by reading. -/
theorem ofDigits_reverse (radix : Nat) (values : List Nat) :
    Nat.ofDigits radix values.reverse = values.foldl (fun n value => n * radix + value) 0 := by
  rw [Nat.ofDigits_eq_foldr, List.foldr_reverse]
  simp only [Nat.cast_id, Nat.add_comm, Nat.mul_comm]

theorem magnitude?_eq_some_iff {radix n : Nat} (hradix : radix ≤ 16) {digits : List Char} :
    magnitude? radix digits = some n ↔ Writes radix n digits := by
  unfold magnitude? Writes
  cases digits with
  | nil => simp
  | cons c digits =>
    rw [if_neg (by simp), foldlM_digits_eq_some_iff hradix]
    simp only [ofDigits_reverse, ne_eq, List.cons_ne_nil, not_false_eq_true, true_and]

/-- A literal starts with the mark of a radix, or it is decimal. -/
theorem splitRadix_cases (text : List Char) :
    (∃ mark digits, (mark = 'x' ∨ mark = 'X') ∧ text = '0' :: mark :: digits ∧
      splitRadix text = (16, digits)) ∨
    (∃ mark digits, (mark = 'b' ∨ mark = 'B') ∧ text = '0' :: mark :: digits ∧
      splitRadix text = (2, digits)) ∨
    splitRadix text = (10, text) := by
  unfold splitRadix
  split
  · exact Or.inl ⟨_, _, Or.inl rfl, rfl, rfl⟩
  · exact Or.inl ⟨_, _, Or.inr rfl, rfl, rfl⟩
  · exact Or.inr (Or.inl ⟨_, _, Or.inl rfl, rfl, rfl⟩)
  · exact Or.inr (Or.inl ⟨_, _, Or.inr rfl, rfl, rfl⟩)
  · exact Or.inr (Or.inr rfl)

/-- No mark is a decimal digit, so decimal digits are taken for what they are. -/
theorem splitRadix_of_writes {n : Nat} {digits : List Char} (h : Writes 10 n digits) :
    splitRadix digits = (10, digits) := by
  obtain ⟨-, values, hvalues, -⟩ := h
  have hdigit : ∀ mark rest, digits = '0' :: mark :: rest → digit? 10 mark ≠ none := by
    rintro mark rest rfl hnone
    cases hvalues with
    | cons _ hvalues =>
      cases hvalues with
      | cons hmark _ =>
        rw [← digit?_eq_some_iff (by decide), hnone] at hmark
        cases hmark
  obtain ⟨mark, rest, hm, hdigits, -⟩ | ⟨mark, rest, hm, hdigits, -⟩ | hten := splitRadix_cases digits
  · rcases hm with rfl | rfl <;> exact absurd (by decide) (hdigit _ _ hdigits)
  · rcases hm with rfl | rfl <;> exact absurd (by decide) (hdigit _ _ hdigits)
  · exact hten

theorem unsigned?_eq_some_iff {text : List Char} {n : Nat} :
    unsigned? text = some n ↔ Unsigned n text := by
  have hsixteen : ∀ {digits}, magnitude? 16 digits = some n ↔ Writes 16 n digits :=
    magnitude?_eq_some_iff (by decide)
  have htwo : ∀ {digits}, magnitude? 2 digits = some n ↔ Writes 2 n digits :=
    magnitude?_eq_some_iff (by decide)
  have hten : ∀ {digits}, magnitude? 10 digits = some n ↔ Writes 10 n digits :=
    magnitude?_eq_some_iff (by decide)
  unfold unsigned?
  constructor
  · intro h
    obtain ⟨mark, digits, hm, rfl, hcut⟩ | ⟨mark, digits, hm, rfl, hcut⟩ | hcut :=
      splitRadix_cases text
    · rw [hcut] at h
      exact .hex hm (hsixteen.1 h)
    · rw [hcut] at h
      exact .binary hm (htwo.1 h)
    · rw [hcut] at h
      exact .decimal (hten.1 h)
  · intro h
    cases h with
    | decimal h =>
      rw [splitRadix_of_writes h]
      exact hten.2 h
    | hex hm h => rcases hm with rfl | rfl <;> exact hsixteen.2 h
    | binary hm h => rcases hm with rfl | rfl <;> exact htwo.2 h

/-! ## Signs -/

/-- The byte that a number with a sign stands for. -/
def byteOf (negative : Bool) (n : Nat) : Except NumberError UInt8 :=
  if negative then
    if n ≤ 128 then .ok (UInt8.ofNat ((256 - n) % 256)) else .error .range
  else if n ≤ 255 then .ok (UInt8.ofNat n) else .error .range

theorem splitSign_of_ne_minus {text : List Char} (h : ∀ rest, text ≠ '-' :: rest) :
    splitSign text = (false, text) := by
  unfold splitSign
  split
  · exact absurd rfl (h _)
  · rfl

theorem splitSign_minus (rest : List Char) : splitSign ('-' :: rest) = (true, rest) :=
  rfl

theorem parse_of_minus {text : String} {rest : List Char} (h : text.toList = '-' :: rest) :
    parse text =
      match unsigned? rest with
      | none => .error .format
      | some n => if n ≤ 128 then .ok (UInt8.ofNat (256 - n)) else .error .range := by
  unfold parse
  rw [h]
  rfl

theorem parse_eq_byteOf (text : String) :
    parse text =
      match unsigned? (splitSign text.toList).2 with
      | none => .error .format
      | some n => byteOf (splitSign text.toList).1 n := by
  by_cases hminus : ∃ rest, text.toList = '-' :: rest
  · obtain ⟨rest, hrest⟩ := hminus
    have hwrap : ∀ n, UInt8.ofNat (256 - n) = UInt8.ofNat ((256 - n) % 256) := by
      intro n
      rw [← UInt8.toNat_inj, UInt8.toNat_ofNat', UInt8.toNat_ofNat', Nat.mod_mod]
    rw [parse_of_minus hrest, hrest, splitSign_minus]
    cases unsigned? rest with
    | none => rfl
    | some n =>
      dsimp only
      rw [byteOf, if_pos rfl, ← hwrap]
  · rw [not_exists] at hminus
    rw [parse_of_ne_minus hminus, splitSign_of_ne_minus hminus]
    rfl

/-- A literal without a sign does not start with one. -/
theorem Unsigned.ne_minus {n : Nat} {text : List Char} (h : Unsigned n text) (rest : List Char) :
    text ≠ '-' :: rest := by
  rintro rfl
  cases h with
  | decimal h =>
    obtain ⟨-, values, hvalues, -⟩ := h
    cases hvalues with
    | cons hminus _ =>
      rw [← digit?_eq_some_iff (by decide)] at hminus
      cases hminus

/-- Sign and number of a literal are what the reader takes for them. -/
theorem literal_iff {n : Nat} {negative : Bool} {text : List Char} :
    Literal n negative text ↔
      (splitSign text).1 = negative ∧ unsigned? (splitSign text).2 = some n := by
  constructor
  · intro h
    cases h with
    | positive h =>
      rw [splitSign_of_ne_minus h.ne_minus]
      exact ⟨rfl, unsigned?_eq_some_iff.2 h⟩
    | negative h => exact ⟨rfl, unsigned?_eq_some_iff.2 h⟩
  · rintro ⟨rfl, h⟩
    rw [unsigned?_eq_some_iff] at h
    unfold splitSign at h ⊢
    split at h
    · exact .negative h
    · exact .positive h

theorem parse_of_literal {n : Nat} {negative : Bool} {text : String}
    (h : Literal n negative text.toList) : parse text = byteOf negative n := by
  obtain ⟨rfl, hn⟩ := literal_iff.1 h
  rw [parse_eq_byteOf, hn]

theorem parse_of_not_literal {text : String} (h : ∀ n negative, ¬Literal n negative text.toList) :
    parse text = .error .format := by
  have hnone : unsigned? (splitSign text.toList).2 = none := by
    rw [Option.eq_none_iff_forall_ne_some]
    intro n hn
    exact h n _ (literal_iff.2 ⟨rfl, hn⟩)
  rw [parse_eq_byteOf, hnone]

/-! ## Words of fixed width -/

theorem shiftDigit?_eq {radix n value : Nat} {c : Char} (hn : n < UInt32.size)
    (h : digit? radix c = some value) :
    shiftDigit? radix (UInt32.ofNat n) c = word? (n * radix + value) := by
  unfold shiftDigit? word?
  rw [h, UInt32.toNat_ofNat_of_lt' hn]
  by_cases hproduct : n * radix < UInt32.size
  · simp only [if_pos hproduct, Option.bind_eq_bind, Option.bind_some,
      UInt32.toNat_ofNat_of_lt' hproduct]
  · have hsum : ¬n * radix + value < UInt32.size := by omega
    simp [hproduct, hsum]

/-- Digits only make a number larger. -/
theorem le_foldlM_digits {radix : Nat} (hradix : 0 < radix) {digits : List Char} {start n : Nat}
    (h : digits.foldlM (fun n c => (digit? radix c).map (n * radix + ·)) start = some n) :
    start ≤ n := by
  induction digits generalizing start with
  | nil => exact (Option.some.inj h).le
  | cons c digits ih =>
    rw [List.foldlM_cons] at h
    obtain ⟨m, hm, hrest⟩ := Option.bind_eq_some_iff.1 h
    obtain ⟨value, -, rfl⟩ := Option.map_eq_some_iff.1 hm
    have hle := ih hrest
    have hmul : start * 1 ≤ start * radix := Nat.mul_le_mul_left start hradix
    omega

/-- **Digits are read in 32 bits exactly if their number fits into 32 bits**: no step fails for a
number that would have fitted. -/
theorem foldlM_shiftDigit? {radix : Nat} (hradix : 0 < radix) {digits : List Char} {start n : Nat}
    (hstart : start < UInt32.size)
    (h : digits.foldlM (fun n c => (digit? radix c).map (n * radix + ·)) start = some n) :
    digits.foldlM (shiftDigit? radix) (UInt32.ofNat start) = word? n := by
  induction digits generalizing start with
  | nil =>
    obtain rfl := Option.some.inj h
    exact (if_pos hstart).symm
  | cons c digits ih =>
    rw [List.foldlM_cons] at h ⊢
    obtain ⟨m, hm, hrest⟩ := Option.bind_eq_some_iff.1 h
    obtain ⟨value, hvalue, rfl⟩ := Option.map_eq_some_iff.1 hm
    rw [shiftDigit?_eq hstart hvalue]
    by_cases hfits : start * radix + value < UInt32.size
    · rw [word?, if_pos hfits]
      exact ih hfits hrest
    · have hle := le_foldlM_digits hradix hrest
      have hlarge : ¬n < UInt32.size := by omega
      rw [word?, if_neg hfits, word?, if_neg hlarge]
      rfl

/-- In range, words have the byte that the number without a bound has. -/
theorem byteOfWord_ofNat {n : Nat} (hn : n < UInt32.size) (negative : Bool) :
    byteOfWord negative (UInt32.ofNat n) = byteOf negative n := by
  have hnat : (UInt32.ofNat n).toNat = n := UInt32.toNat_ofNat_of_lt' hn
  have h128 : (128 : UInt32).toNat = 128 := rfl
  have h255 : (255 : UInt32).toNat = 255 := rfl
  unfold byteOfWord byteOf
  cases negative with
  | true =>
    have hnegate : ∀ n < 129, (-(UInt32.ofNat n).toUInt16.toInt16).toUInt16.toUInt8 =
        UInt8.ofNat ((256 - n) % 256) := by decide +kernel
    simp only [if_true, UInt32.lt_iff_toNat_lt, hnat, h128]
    by_cases hle : n ≤ 128
    · rw [if_neg (by omega), if_pos hle, hnegate n (by omega)]
    · rw [if_pos (by omega), if_neg hle]
  | false =>
    simp only [UInt32.le_iff_toNat_le, hnat, h255]
    by_cases hle : n ≤ 255
    · simp [hle]
    · simp [hle]

/-- A number that 32 bits cannot hold has no byte. -/
theorem byteOf_of_large {n : Nat} (hn : UInt32.size ≤ n) (negative : Bool) :
    byteOf negative n = .error .range := by
  have hsize : 255 < UInt32.size := by decide
  unfold byteOf
  cases negative with
  | true => rw [if_pos rfl, if_neg (by omega)]
  | false => rw [if_neg Bool.false_ne_true, if_neg (by omega)]

theorem magnitude?_eq_none_iff {radix : Nat} {digits : List Char} :
    magnitude? radix digits = none ↔
      (digits.isEmpty || digits.any (fun c => (digit? radix c).isNone)) = true := by
  have hfold : ∀ start, digits.foldlM (fun n c => (digit? radix c).map (n * radix + ·)) start =
      none ↔ digits.any (fun c => (digit? radix c).isNone) = true := by
    intro start
    induction digits generalizing start with
    | nil => simp
    | cons c digits ih =>
      rw [List.foldlM_cons, List.any_cons]
      cases digit? radix c with
      | none => simp
      | some value => simpa using ih _
  unfold magnitude?
  cases hempty : digits.isEmpty with
  | true => simp
  | false => simpa using hfold 0

theorem parseWords_eq_parse (text : String) : parseWords text = parse text := by
  have hradix : 0 < (splitRadix (splitSign text.toList).2).1 := by
    obtain ⟨_, _, -, -, hcut⟩ | ⟨_, _, -, -, hcut⟩ | hcut :=
      splitRadix_cases (splitSign text.toList).2 <;> rw [hcut] <;> exact Nat.succ_pos _
  rw [parse_eq_byteOf]
  unfold parseWords unsigned?
  dsimp only
  cases hm : magnitude? (splitRadix (splitSign text.toList).2).1
      (splitRadix (splitSign text.toList).2).2 with
  | none => rw [if_pos (magnitude?_eq_none_iff.1 hm)]
  | some n =>
    have hdigits : ¬_ := fun hbad => by
      rw [magnitude?_eq_none_iff.2 hbad] at hm
      cases hm
    rw [if_neg hdigits]
    unfold magnitude? at hm
    obtain ⟨-, hread⟩ := Option.ite_none_left_eq_some.1 hm
    have hzero : (0 : UInt32) = UInt32.ofNat 0 := rfl
    rw [hzero, foldlM_shiftDigit? hradix (by decide) hread]
    by_cases hfits : n < UInt32.size
    · rw [word?, if_pos hfits]
      exact byteOfWord_ofNat hfits _
    · rw [word?, if_neg hfits]
      exact (byteOf_of_large (Nat.not_lt.1 hfits) _).symm

/-! ## The value of a literal -/

/-- **A literal has the value of its number, however long it is**: without a sign the number itself
up to 255, after a minus sign its two's complement up to 128, and it is out of range beyond. A text
that is not a literal is in the wrong format. Words of fixed width give the same results. -/
theorem parse_eq_of_literal (text : String) :
    (∀ n, Literal n false text.toList →
      parse text = if n ≤ 255 then .ok (UInt8.ofNat n) else .error .range) ∧
    (∀ n, Literal n true text.toList →
      parse text = if n ≤ 128 then .ok (UInt8.ofNat ((256 - n) % 256)) else .error .range) ∧
    ((∀ n negative, ¬Literal n negative text.toList) → parse text = .error .format) ∧
    parseWords text = parse text := by
  refine ⟨?_, ?_, parse_of_not_literal, parseWords_eq_parse text⟩
  · intro n h
    rw [parse_of_literal h, byteOf, if_neg Bool.false_ne_true]
  · intro n h
    rw [parse_of_literal h, byteOf, if_pos rfl]

/-- The limits of each case: the smallest negative number with zeros in front, a number that is zero
modulo `2 ^ 32`, and a mark without digits. -/
theorem parse_eq_of_literal_limits :
    parse "-0X0080" = .ok 0x80 ∧ parse "4294967296" = .error .range ∧
      parse "0x" = .error .format := by
  refine ⟨?_, ?_, ?_⟩
  · have h : Literal 128 true "-0X0080".toList := literal_iff.2 (by decide +kernel)
    exact (parse_eq_of_literal "-0X0080").2.1 128 h
  · have h : Literal 4294967296 false "4294967296".toList := literal_iff.2 (by decide +kernel)
    exact (parse_eq_of_literal "4294967296").1 4294967296 h
  · refine (parse_eq_of_literal "0x").2.2.1 fun n negative h => ?_
    have hnone : unsigned? (splitSign "0x".toList).2 = none := by decide +kernel
    rw [literal_iff, hnone] at h
    cases h.2

end ByteAssembler.ByteLiteral
