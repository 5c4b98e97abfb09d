import ByteAssembler.Proofs.OutputLines

/-
  The JSON report loses nothing. In the report a comma or a line feed comes after every value, and a
  value that is written before one of these can be told from what follows it (`Json.Delimited`).
  For a string this rests on the escapes: no code of a character is the start of another, and none
  starts with a quote (`escape_append_inj`), so whatever a message or a name has in it, the first
  quote that is not escaped ends the string (`delimited_string`). An array is delimited if its
  elements are (`delimited_array`). Cut at its values, the text gives back all that was written into
  it (`Summary.toJson_injective`).
-/

namespace ByteAssembler

namespace Text.Json

/-! ## Values that can be told from what follows them -/

/-- What comes right after a value: a comma if there is another one, else a line feed. -/
def stops : List Char :=
  [',', '\n']

/-- A written value and all that follows it can be read off the text, if what follows starts with a
stop. -/
def Delimited {α : Type} (write : α → String) : Prop :=
  ∀ ⦃x y : α⦄ ⦃c d : Char⦄ ⦃rest rest' : List Char⦄, c ∈ stops → d ∈ stops →
    (write x).toList ++ c :: rest = (write y).toList ++ d :: rest' →
      x = y ∧ c :: rest = d :: rest'

theorem Delimited.comp {α β : Type} {write : β → String} (h : Delimited write) {f : α → β}
    (hf : Function.Injective f) : Delimited (write ∘ f) := by
  intro x y c d rest rest' hc hd e
  obtain ⟨hxy, hrest⟩ := h hc hd e
  exact ⟨hf hxy, hrest⟩

/-- A value in front of a fixed text that starts with a stop. -/
theorem Delimited.cut {α : Type} {write : α → String} (h : Delimited write) {x y : α}
    {glue rest rest' : List Char} (hglue : ∃ c ∈ stops, glue.head? = some c)
    (e : (write x).toList ++ (glue ++ rest) = (write y).toList ++ (glue ++ rest')) :
    x = y ∧ rest = rest' := by
  obtain ⟨c, hc, hhead⟩ := hglue
  obtain ⟨glue, rfl⟩ := List.head?_eq_some_iff.1 hhead
  obtain ⟨hxy, hrest⟩ := h hc hc e
  exact ⟨hxy, List.append_cancel_left (List.cons.inj hrest).2⟩

theorem delimited_bool : Delimited bool := by
  intro x y c d rest rest' _ _ e
  cases x <;> cases y <;> simp_all [bool]

theorem toList_number (n : Nat) : (number n).toList = Nat.toDigits 10 n :=
  Nat.toList_repr

theorem number_injective : Function.Injective number := by
  intro m n e
  have hvalue := congrArg (fun text : String => Nat.ofDigitChars 10 text.toList 0) e
  simpa [toList_number, Nat.ofDigitChars_toDigits] using hvalue

/-- The digits end where the stop stands, since that is no digit. -/
theorem takeWhile_number (n : Nat) {c : Char} (rest : List Char) (hc : c ∈ stops) :
    ((number n).toList ++ c :: rest).takeWhile Char.isDigit = (number n).toList := by
  have hdigits : ∀ d ∈ (number n).toList, d.isDigit = true := fun d hd =>
    Nat.isDigit_of_mem_toDigits (by decide) (by decide) (toList_number n ▸ hd)
  have hstop : c.isDigit = false := by
    rw [stops, List.mem_cons, List.mem_singleton] at hc
    obtain rfl | rfl := hc
    · rfl
    · rfl
  rw [List.takeWhile_append_of_pos hdigits, List.takeWhile_cons_of_neg (by simp [hstop]),
    List.append_nil]

theorem delimited_number : Delimited number := by
  intro m n c d rest rest' hc hd e
  have hdigits : (number m).toList = (number n).toList := by
    rw [← takeWhile_number m rest hc, e, takeWhile_number n rest' hd]
  rw [hdigits] at e
  exact ⟨number_injective (String.toList_inj.1 hdigits), List.append_cancel_left e⟩

/-! ## Strings -/

/-- The characters that do not stand for themselves. -/
def escaped : List Char :=
  '"' :: '\\' :: (List.range 0x20).map Char.ofNat

/-- All escapes start with a backslash. -/
theorem escape_of_mem {c : Char} (h : c ∈ escaped) : (escape c).head? = some '\\' := by
  have hall : escaped.all (fun c => (escape c).head? == some '\\') = true := by decide
  exact beq_iff_eq.1 (List.all_eq_true.1 hall c h)

theorem escape_of_not_mem {c : Char} (h : c ∉ escaped) : escape c = [c] := by
  have hcontrol : ¬ c.toNat < 0x20 := by
    intro hlt
    have hmem : Char.ofNat c.toNat ∈ (List.range 0x20).map Char.ofNat :=
      List.mem_map_of_mem (List.mem_range.2 hlt)
    rw [Char.ofNat_toNat] at hmem
    exact h (List.mem_cons_of_mem _ (List.mem_cons_of_mem _ hmem))
  unfold escape
  split
  case h_8 => exact if_neg hcontrol
  all_goals exact absurd (by decide) h

/-- No escape is the start of another. -/
theorem eq_of_escape_startsWith {c d : Char} (hc : c ∈ escaped) (hd : d ∈ escaped)
    (h : escape c <+: escape d) : c = d := by
  have hall : escaped.all (fun c => escaped.all fun d =>
      !(escape c).isPrefixOf (escape d) || c == d) = true := by
    decide +kernel
  have hpair := List.all_eq_true.1 (List.all_eq_true.1 hall c hc) d hd
  simpa [List.isPrefixOf_iff_prefix.2 h] using hpair

/-- A character that stands for itself is no backslash, so it does not start an escape. -/
theorem escape_append_ne {c d : Char} {rest rest' : List Char} (hc : c ∈ escaped)
    (hd : d ∉ escaped) : escape c ++ rest ≠ escape d ++ rest' := by
  intro e
  have hhead := congrArg List.head? e
  rw [List.head?_append, escape_of_mem hc, escape_of_not_mem hd] at hhead
  have hback : '\\' = d := Option.some.inj hhead
  exact hd (hback ▸ by decide)

/-- **A character and all that follows it can be read off its code.** -/
theorem escape_append_inj {c d : Char} {rest rest' : List Char}
    (e : escape c ++ rest = escape d ++ rest') : c = d ∧ rest = rest' := by
  have hcd : c = d := by
    by_cases hc : c ∈ escaped <;> by_cases hd : d ∈ escaped
    · rcases List.prefix_or_prefix_of_prefix (List.prefix_append (escape c) rest)
        (e ▸ List.prefix_append (escape d) rest') with hle | hle
      · exact eq_of_escape_startsWith hc hd hle
      · exact (eq_of_escape_startsWith hd hc hle).symm
    · exact absurd e (escape_append_ne hc hd)
    · exact absurd e.symm (escape_append_ne hd hc)
    · rw [escape_of_not_mem hc, escape_of_not_mem hd] at e
      exact (List.cons.inj e).1
  subst hcd
  exact ⟨rfl, List.append_cancel_left e⟩

/-- No code starts with a quote. -/
theorem escape_append_ne_quote {c : Char} {rest rest' : List Char} :
    escape c ++ rest ≠ '"' :: rest' := by
  intro e
  have hhead := congrArg List.head? e
  rw [List.head?_append] at hhead
  by_cases hc : c ∈ escaped
  · rw [escape_of_mem hc] at hhead
    exact absurd (Option.some.inj hhead) (by decide)
  · rw [escape_of_not_mem hc] at hhead
    have hquote : c = '"' := Option.some.inj hhead
    exact hc (hquote ▸ by decide)

/-- The first quote among the codes is the one that ends them. -/
theorem escape_flatMap_inj {text text' rest rest' : List Char}
    (e : text.flatMap escape ++ '"' :: rest = text'.flatMap escape ++ '"' :: rest') :
    text = text' ∧ rest = rest' := by
  induction text generalizing text' with
  | nil =>
    cases text' with
    | nil => exact ⟨rfl, (List.cons.inj e).2⟩
    | cons d text' =>
      rw [List.flatMap_cons, List.append_assoc] at e
      exact absurd e.symm escape_append_ne_quote
  | cons c text ih =>
    cases text' with
    | nil =>
      rw [List.flatMap_cons, List.append_assoc] at e
      exact absurd e escape_append_ne_quote
    | cons d text' =>
      rw [List.flatMap_cons, List.flatMap_cons, List.append_assoc, List.append_assoc] at e
      obtain ⟨rfl, hcodes⟩ := escape_append_inj e
      obtain ⟨rfl, hrest⟩ := ih hcodes
      exact ⟨rfl, hrest⟩

theorem toList_string (text : String) :
    (string text).toList = '"' :: (text.toList.flatMap escape ++ ['"']) := by
  simp [string]

/-- **Whatever is in a text, it can be read off its JSON string.** -/
theorem delimited_string : Delimited string := by
  intro x y c d rest rest' _ _ e
  rw [toList_string, toList_string, List.cons_append, List.cons_append, List.append_assoc,
    List.append_assoc] at e
  obtain ⟨htext, hrest⟩ := escape_flatMap_inj (List.cons.inj e).2
  exact ⟨String.toList_inj.1 htext, hrest⟩

/-! ## Arrays -/

/-- The blanks in front of a line at depth `depth`. -/
def margin (depth : Nat) : List Char :=
  List.replicate (2 * depth) ' '

/-- What follows an element of an array at depth `depth`, with the elements after it. -/
def following (depth : Nat) : List String → List Char
  | [] => '\n' :: (margin depth ++ [']'])
  | x :: xs => ',' :: '\n' :: (margin (depth + 1) ++ (x.toList ++ following depth xs))

theorem toList_array_cons (depth : Nat) (x : String) (xs : List String) :
    (array depth (x :: xs)).toList =
      '[' :: '\n' :: (margin (depth + 1) ++ (x.toList ++ following depth xs)) := by
  have hlines : ∀ (x : String) (xs : List String),
      (String.intercalate ",\n"
          ((x :: xs).map (String.ofList (margin (depth + 1)) ++ ·))).toList ++
        '\n' :: (margin depth ++ [']']) =
      margin (depth + 1) ++ (x.toList ++ following depth xs) := by
    intro x xs
    induction xs generalizing x with
    | nil => simp [following]
    | cons y ys ih =>
      rw [List.map_cons, List.map_cons, String.intercalate_cons_cons, ← List.map_cons,
        String.toList_append, List.append_assoc, ih y, following]
      simp
  rw [← hlines]
  simp [array, block, margin]

/-- After an element comes a stop. -/
theorem head_following (depth : Nat) (xs : List String) :
    ∃ c ∈ stops, ∃ rest, following depth xs = c :: rest := by
  cases xs with
  | nil => exact ⟨'\n', by decide, _, rfl⟩
  | cons x xs => exact ⟨',', by decide, _, rfl⟩

section Elements

variable {α : Type} {write : α → String} (h : Delimited write) {depth : Nat}

include h

/-- An element is delimited by what follows it in its array. -/
theorem Delimited.element {x y : α} {xs ys : List String} {rest rest' : List Char}
    (e : (write x).toList ++ (following depth xs ++ rest) =
      (write y).toList ++ (following depth ys ++ rest')) :
    x = y ∧ following depth xs ++ rest = following depth ys ++ rest' := by
  obtain ⟨c, hc, after, hafter⟩ := head_following depth xs
  obtain ⟨d, hd, after', hafter'⟩ := head_following depth ys
  rw [hafter, hafter'] at e ⊢
  exact h hc hd e

theorem Delimited.following_inj {xs ys : List α} {rest rest' : List Char}
    (e : following depth (xs.map write) ++ rest = following depth (ys.map write) ++ rest') :
    xs = ys ∧ rest = rest' := by
  -- A comma says that another element comes, a line feed that the array ends here.
  induction xs generalizing ys with
  | nil =>
    cases ys with
    | nil => exact ⟨rfl, List.append_cancel_left e⟩
    | cons y ys => exact absurd (List.cons.inj e).1 (by decide)
  | cons x xs ih =>
    cases ys with
    | nil => exact absurd (List.cons.inj e).1 (by decide)
    | cons y ys =>
      simp only [List.map_cons, following, List.cons_append, List.append_assoc, List.cons.injEq,
        true_and, List.append_cancel_left_eq] at e
      obtain ⟨rfl, hafter⟩ := h.element e
      obtain ⟨rfl, hrest⟩ := ih hafter
      exact ⟨rfl, hrest⟩

/-- **The elements can be read off an array, if each of them can.** -/
theorem delimited_array : Delimited fun xs : List α => array depth (xs.map write) := by
  have hempty : (array depth ([] : List String)).toList = ['[', ']'] := by
    simp [array, block]
  intro xs ys c d rest rest' _ _ e
  dsimp only at e
  cases xs with
  | nil =>
    cases ys with
    | nil => exact ⟨rfl, List.append_cancel_left e⟩
    | cons y ys =>
      rw [List.map_nil, List.map_cons, hempty, toList_array_cons] at e
      simp at e
  | cons x xs =>
    cases ys with
    | nil =>
      rw [List.map_nil, List.map_cons, hempty, toList_array_cons] at e
      simp at e
    | cons y ys =>
      simp only [List.map_cons, toList_array_cons, List.cons_append, List.append_assoc,
        List.cons.injEq, true_and, List.append_cancel_left_eq] at e
      obtain ⟨rfl, hafter⟩ := h.element e
      obtain ⟨rfl, hrest⟩ := h.following_inj hafter
      exact ⟨rfl, hrest⟩

end Elements

end Text.Json

/-! ## The report -/

open Text.Json

namespace Summary

/-- The text between the values of a report. -/
theorem toList_toJson (s : Summary) :
    s.toJson.toList = "\x7b\n  \"success\": ".toList ++ ((bool s.success).toList ++
      (",\n  \"diagnostics\": ".toList ++ ((array 1 (s.diagnostics.map string)).toList ++
      (",\n  \"bytes\": ".toList ++ ((array 1 (s.bytes.map (number ∘ UInt8.toNat))).toList ++
      (",\n  \"hex\": ".toList ++ ((string (Text.hexDump s.bytes)).toList ++
      (",\n  \"listing\": ".toList ++ ((array 1 (s.listing.map string)).toList ++
      ("\n".toList ++ "\x7d\n".toList)))))))))) := by
  have hkeys : string "success" = "\"success\"" ∧ string "diagnostics" = "\"diagnostics\"" ∧
      string "bytes" = "\"bytes\"" ∧ string "hex" = "\"hex\"" ∧
      string "listing" = "\"listing\"" := by
    decide +kernel
  obtain ⟨hsuccess, hdiagnostics, hbytes, hhex, hlisting⟩ := hkeys
  simp [toJson, object, block, hsuccess, hdiagnostics, hbytes, hhex, hlisting, Function.comp_def]

/-- **A report determines all that it was written from.** -/
theorem toJson_injective : Function.Injective toJson := by
  intro s t e
  have htext := congrArg String.toList e
  rw [toList_toJson, toList_toJson, List.append_cancel_left_eq] at htext
  have hbyte : Delimited (number ∘ UInt8.toNat) :=
    delimited_number.comp fun b c => UInt8.toNat_inj.1
  obtain ⟨hsuccess, htext⟩ := delimited_bool.cut ⟨',', by decide, rfl⟩ htext
  obtain ⟨hdiagnostics, htext⟩ := (delimited_array delimited_string).cut ⟨',', by decide, rfl⟩ htext
  obtain ⟨hbytes, htext⟩ := (delimited_array hbyte).cut ⟨',', by decide, rfl⟩ htext
  obtain ⟨-, htext⟩ := delimited_string.cut ⟨',', by decide, rfl⟩ htext
  obtain ⟨hlisting, -⟩ := (delimited_array delimited_string).cut ⟨'\n', by decide, rfl⟩ htext
  show Summary.mk s.success s.diagnostics s.bytes s.listing = t
  rw [hsuccess, hdiagnostics, hbytes, hlisting]

end Summary

theorem Content.bytes_text_inj {text text' : String}
    (h : (Content.text text).bytes = (Content.text text').bytes) : text = text' := by
  rw [bytes_text, bytes_text] at h
  have hdecoded := Text.fromUTF8?_eq_some_iff.2 h
  rw [Text.fromUTF8?_eq_some_iff.2 rfl] at hdecoded
  exact Option.some.inj hdecoded

namespace Assembly

/-- The JSON report is written from the listing and what the run itself has. -/
theorem exists_of_report?_json {a : Assembly} {bytes : List UInt8}
    (h : (a.report? .json).map Content.bytes = some bytes) :
    ∃ lines, Listing.lines? a.program = some lines ∧
      bytes = (Content.text (Summary.toJson ⟨a.success, a.messages, a.bytes, lines⟩)).bytes := by
  obtain ⟨content, hcontent, rfl⟩ := Option.map_eq_some_iff.1 h
  obtain ⟨lines, hlines, rfl⟩ := Option.map_eq_some_iff.1 hcontent
  exact ⟨lines, hlines, rfl⟩

/-- **The JSON report loses nothing.** Whatever texts stand in it, the bytes of a report determine
the fields it was written from. So two runs with the same report have the same success, messages,
machine code and listing. -/
theorem report_json_lossless :
    (Function.Injective fun s : Summary => (Content.text s.toJson).bytes) ∧
    ∀ (a b : Assembly) (bytes : List UInt8),
      (a.report? .json).map Content.bytes = some bytes →
      (b.report? .json).map Content.bytes = some bytes →
        a.success = b.success ∧ a.messages = b.messages ∧ a.bytes = b.bytes ∧
        ∃ lines, Listing.lines? a.program = some lines ∧ Listing.lines? b.program = some lines := by
  have hfields : Function.Injective fun s : Summary => (Content.text s.toJson).bytes :=
    fun s t h => Summary.toJson_injective (Content.bytes_text_inj h)
  refine ⟨hfields, fun a b bytes ha hb => ?_⟩
  obtain ⟨lines, hlines, hbytes⟩ := exists_of_report?_json ha
  obtain ⟨lines', hlines', hbytes'⟩ := exists_of_report?_json hb
  have hsummary := hfields (hbytes.symm.trans hbytes')
  simp only [Summary.mk.injEq] at hsummary
  obtain ⟨hsuccess, hmessages, hcode, rfl⟩ := hsummary
  exact ⟨hsuccess, hmessages, hcode, lines, hlines, hlines'⟩

/-- A failed run that quotes a label of odd characters; its only instruction is on line `line`. -/
def quotingRun (line : Nat) : Assembly where
  diagnostics := [⟨some 1, .malformedLine "malformed label \"é\"\\\x01\""⟩]
  success := false
  bytes := []
  program := ⟨[⟨.nop, [], 0, line⟩], ⟨[]⟩⟩

/-- The line of an instruction is in no listing, so two different runs have one report. A message
that looks like two messages is not taken for them. -/
theorem report_json_lossless_quoting :
    (∃ bytes, ((quotingRun 2).report? .json).map Content.bytes = some bytes ∧
      ((quotingRun 3).report? .json).map Content.bytes = some bytes) ∧
    quotingRun 2 ≠ quotingRun 3 ∧ (quotingRun 2).messages = (quotingRun 3).messages ∧
    (Content.text (Summary.toJson ⟨false, ["a\",\n    \"b"], [], []⟩)).bytes ≠
      (Content.text (Summary.toJson ⟨false, ["a", "b"], [], []⟩)).bytes := by
  obtain ⟨hfields, hruns⟩ := report_json_lossless
  refine ⟨⟨_, rfl, rfl⟩, by decide, (hruns (quotingRun 2) (quotingRun 3) _ rfl rfl).2.1, ?_⟩
  exact fun h => absurd (hfields h) (by decide)

end Assembly

end ByteAssembler
