import ByteAssembler.Assembly
import ByteAssembler.Proofs.Traversal
import ByteAssembler.Proofs.Words
import Mathlib.Data.List.Induction
import Mathlib.Data.Set.List

/-
  Source given as bytes. In UTF-8 the bytes of the line feed and of the carriage return stand for
  nothing else (`isMark_of_ascii`), so cutting the bytes of a text into lines is the same as cutting
  the text (`splitLines_utf8`), and bytes whose lines are all UTF-8 are UTF-8 as a whole
  (`exists_utf8_of_splitLines`). Hence it makes no difference whether a source is decoded line by
  line or before it is cut (`linesOfBytes?_eq`). `assembleBytes_eq_assemble`: bytes that are not
  UTF-8 give an error and nothing else, and all others give what their text gives; decoding every
  line only when the scan comes to it does the same.
-/

namespace ByteAssembler

namespace Text

/-! ## Marks: symbols that keep their own code -/

/-- `y` is the code of `x` and occurs in no other code, and no code is empty. -/
structure IsMark {α β : Type} (code : α → List β) (x : α) (y : β) : Prop where
  self : code x = [y]
  other : ∀ c, c ≠ x → y ∉ code c
  ne_nil : ∀ c, code c ≠ []

namespace IsMark

variable {α β : Type} [BEq α] [LawfulBEq α] [BEq β] [LawfulBEq β] {code : α → List β} {x : α}
  {y : β} (h : IsMark code x y)

include h

/-- Cutting at a mark commutes with encoding. -/
theorem splitOn_flatMap (text : List α) :
    (text.flatMap code).splitOn y = (text.splitOn x).map (·.flatMap code) := by
  -- The mark ends the first piece, every other symbol joins it; on both sides.
  induction text with
  | nil => rfl
  | cons c text ih =>
    have hcons : (c :: text).flatMap code = code c ++ text.flatMap code := List.flatMap_cons
    rw [hcons, List.splitOn_cons_eq_if_modifyHead]
    by_cases hc : c = x
    · rw [if_pos (beq_iff_eq.2 hc), hc, h.self, List.map_cons, ← ih]
      exact List.splitOn_append_cons_self [] _
    · rw [if_neg (by simpa using hc), splitOn_append_of_not_mem (h.other c hc), ih]
      obtain ⟨piece, pieces, hpieces⟩ := List.exists_cons_of_ne_nil (List.splitOn_ne_nil x text)
      rw [hpieces]
      rfl

/-- Dropping a mark at the end commutes with encoding. -/
theorem dropFinal_flatMap (text : List α) :
    dropFinal y (text.flatMap code) = (dropFinal x text).flatMap code := by
  cases text using List.reverseRecOn with
  | nil => rfl
  | append_singleton front c =>
    have hconcat : (front ++ [c]).flatMap code = front.flatMap code ++ code c := by
      simp
    rw [hconcat]
    by_cases hc : c = x
    · rw [hc, h.self, dropFinal_concat, dropFinal_concat]
    · have hlast : (front.flatMap code ++ code c).getLast? ≠ some y := by
        rw [List.getLast?_append, List.getLast?_eq_some_getLast (h.ne_nil c), Option.some_or]
        intro e
        exact h.other c hc (Option.some.inj e ▸ List.getLast_mem _)
      rw [dropFinal_of_getLast?_ne hlast, dropFinal_of_getLast?_ne (by simpa using hc), hconcat]

end IsMark

/-! ## UTF-8 -/

/-- The bytes of a text in UTF-8. -/
def utf8 (text : List Char) : List UInt8 :=
  text.flatMap String.utf8EncodeChar

/-- Bytes that can be decoded are those of their text. -/
theorem fromUTF8?_eq_some_iff {bytes : List UInt8} {text : String} :
    String.fromUTF8? bytes.toByteArray = some text ↔ bytes = utf8 text.toList := by
  have htext : text.toByteArray = (utf8 text.toList).toByteArray := String.utf8Encode_toList.symm
  have hinj : ∀ {l l' : List UInt8}, l.toByteArray = l'.toByteArray → l = l' := by
    intro l l' h
    rw [← List.toList_data_toByteArray (l := l), h, List.toList_data_toByteArray]
  unfold String.fromUTF8?
  constructor
  · intro h
    split at h
    · next hvalid =>
      cases h
      exact hinj htext
    · cases h
  · intro h
    have hbytes : bytes.toByteArray = text.toByteArray := by rw [h, htext]
    rw [dif_pos (hbytes ▸ text.isValidUTF8)]
    congr 1
    exact String.toByteArray_inj.1 hbytes

/-- In UTF-8 a byte below 80 stands for the character with that code and for nothing else. -/
theorem isMark_of_ascii {c : Char} (h : c.toNat < 0x80) :
    IsMark String.utf8EncodeChar c (UInt8.ofNat c.toNat) where
  self := if_pos (Nat.le_of_lt_succ h)
  ne_nil _ := String.utf8EncodeChar_ne_nil
  other d hd hmem := by
    have hne : d.val.toNat ≠ c.toNat := fun e => hd (Char.toNat_inj.1 e)
    have hbyte : ∀ n, UInt8.ofNat c.toNat = UInt8.ofNat n → c.toNat = n % 256 := by
      intro n e
      have he := congrArg UInt8.toNat e
      rw [UInt8.toNat_ofNat', UInt8.toNat_ofNat'] at he
      omega
    -- One byte is the code itself; the bytes of a longer code are 80 or more.
    unfold String.utf8EncodeChar at hmem
    dsimp only at hmem
    split at hmem
    · have hself := hbyte _ (List.mem_singleton.1 hmem)
      omega
    · split at hmem
      · simp only [List.mem_cons, List.not_mem_nil, or_false] at hmem
        rcases hmem with e | e <;> have := hbyte _ e <;> omega
      · split at hmem
        · simp only [List.mem_cons, List.not_mem_nil, or_false] at hmem
          rcases hmem with e | e | e <;> have := hbyte _ e <;> omega
        · simp only [List.mem_cons, List.not_mem_nil, or_false] at hmem
          rcases hmem with e | e | e | e <;> have := hbyte _ e <;> omega

theorem isMark_feed : IsMark String.utf8EncodeChar '\n' 0x0A :=
  isMark_of_ascii (by decide)

theorem isMark_return : IsMark String.utf8EncodeChar '\r' 0x0D :=
  isMark_of_ascii (by decide)

/-! ## Lines -/

/-- The lines of the bytes of a text are the bytes of its lines. -/
theorem splitLines_utf8 (text : List Char) :
    splitLines 0x0A 0x0D (utf8 text) = (splitLines '\n' '\r' text).map utf8 := by
  have hempty : ∀ piece, (utf8 piece).isEmpty = piece.isEmpty := by
    intro piece
    cases piece with
    | nil => rfl
    | cons c piece => simp [utf8, String.utf8EncodeChar_ne_nil]
  have hpieces : (utf8 text).splitOn 0x0A = (text.splitOn '\n').map utf8 :=
    isMark_feed.splitOn_flatMap text
  have hfinal : ∀ piece, dropFinal 0x0D (utf8 piece) = utf8 (dropFinal '\r' piece) :=
    isMark_return.dropFinal_flatMap
  unfold splitLines
  rw [hpieces]
  simp only [← List.map_dropLast, List.map_map, Function.comp_def, hfinal, List.map_append]
  congr 1
  rw [List.getLast?_map]
  cases (text.splitOn '\n').getLast? with
  | none => rfl
  | some piece =>
    cases hp : piece.isEmpty <;> simp [hempty, hp]

theorem intercalate_utf8 (lines : List (List Char)) :
    [0x0A].intercalate (lines.map utf8) = utf8 (['\n'].intercalate lines) := by
  induction lines with
  | nil => rfl
  | cons line lines ih =>
    cases lines with
    | nil => simp
    | cons next lines =>
      rw [List.intercalate_cons_cons, List.map_cons, List.map_cons, List.intercalate_cons_cons,
        ← List.map_cons, ih]
      simp [utf8, isMark_feed.self]

/-- If every line is UTF-8, so is the whole. -/
theorem exists_utf8_of_splitLines {bytes : List UInt8}
    (h : ∀ line ∈ splitLines 0x0A 0x0D bytes, ∃ text, line = utf8 text) :
    ∃ text, bytes = utf8 text := by
  have hpieces : ∀ piece ∈ bytes.splitOn 0x0A, piece ∈ Set.range utf8 := by
    intro piece hpiece
    have hlines : splitLines 0x0A 0x0D bytes = (bytes.splitOn 0x0A).dropLast.map (dropFinal 0x0D) ++
        (bytes.splitOn 0x0A).getLast?.toList.filter (!·.isEmpty) := rfl
    rw [← List.dropLast_concat_getLast (List.splitOn_ne_nil 0x0A bytes)] at hpiece
    rcases List.mem_append.1 hpiece with hfront | hlast
    · -- A carriage return that was taken off is put back.
      obtain ⟨text, htext⟩ := h (dropFinal 0x0D piece) (by
        rw [hlines]
        exact List.mem_append_left _ (List.mem_map_of_mem hfront))
      rcases eq_dropFinal_or_concat 0x0D piece with e | e
      · exact ⟨text, (e.trans htext).symm⟩
      · refine ⟨text ++ ['\r'], ?_⟩
        rw [e, htext]
        simp [utf8, isMark_return.self]
    · by_cases hempty : piece = []
      · exact ⟨[], hempty.symm⟩
      · obtain ⟨text, htext⟩ := h piece (by
          rw [hlines, List.getLast?_eq_some_getLast (List.splitOn_ne_nil 0x0A bytes),
            ← List.mem_singleton.1 hlast]
          exact List.mem_append_right _ (by simp [hempty]))
        exact ⟨text, htext.symm⟩
  obtain ⟨texts, htexts⟩ : bytes.splitOn 0x0A ∈ Set.range (List.map utf8) := by
    rw [Set.range_list_map]
    exact hpieces
  exact ⟨['\n'].intercalate texts, by
    rw [← intercalate_utf8, htexts, List.intercalate_splitOn]⟩

/-- Decoding line by line and decoding the whole come to the same. -/
theorem linesOfBytes?_eq (bytes : List UInt8) :
    linesOfBytes? bytes = (String.fromUTF8? bytes.toByteArray).map lines := by
  unfold linesOfBytes?
  cases hbytes : String.fromUTF8? bytes.toByteArray with
  | some text =>
    rw [fromUTF8?_eq_some_iff.1 hbytes, splitLines_utf8, List.mapM_map]
    refine mapM_eq_pure_map fun line _ => fromUTF8?_eq_some_iff.2 ?_
    rw [String.toList_ofList]
  | none =>
    -- If all lines could be decoded, the whole could.
    rw [Option.map_none, Option.eq_none_iff_forall_ne_some]
    intro texts htexts
    obtain ⟨text, htext⟩ := exists_utf8_of_splitLines fun line hline => by
      have hmem := List.mem_map_of_mem (f := fun line => String.fromUTF8? line.toByteArray) hline
      rw [map_eq_of_mapM_eq_some htexts] at hmem
      obtain ⟨text, -, htext⟩ := List.mem_map.1 hmem
      exact ⟨text.toList, fromUTF8?_eq_some_iff.1 htext.symm⟩
    have hdecoded : String.fromUTF8? bytes.toByteArray = some (String.ofList text) :=
      fromUTF8?_eq_some_iff.2 (htext.trans (by rw [String.toList_ofList]))
    rw [hbytes] at hdecoded
    cases hdecoded

end Text

/-! ## Reading while scanning -/

/-- A scan of lines that ends at the first that is not UTF-8 keeps nothing of those before it. -/
theorem Scan.foldlM_feedBytes (config : Config) (s : Scan) (lines : List (List UInt8)) :
    lines.foldlM (feedBytes config) s =
      match lines.mapM fun line => String.fromUTF8? line.toByteArray with
      | some texts => .ok (texts.foldl (fun s text => feed config s (Line.read text)) s)
      | none => .error .invalidText := by
  induction lines generalizing s with
  | nil => rfl
  | cons line lines ih =>
    rw [List.foldlM_cons, List.mapM_cons, feedBytes]
    cases String.fromUTF8? line.toByteArray with
    | none => rfl
    | some text =>
      simp only [bind, Except.bind, Option.bind_some, ih]
      cases lines.mapM fun line => String.fromUTF8? line.toByteArray with
      | none => rfl
      | some texts => rfl

theorem assembleStream_eq (config : Config) (source : List UInt8) :
    assembleStream config source = assembleBytes config source := by
  unfold assembleStream assembleBytes Text.linesOfBytes?
  rw [Scan.foldlM_feedBytes]
  cases (Text.splitLines 0x0A 0x0D source).mapM fun line => String.fromUTF8? line.toByteArray with
  | none => rfl
  | some texts => rfl

/-- **Bytes and text agree.** A source given as bytes is an error, and nothing else, if the bytes
are not UTF-8, wherever the fault stands; otherwise the outcome is that of the decoded text. The
same holds if every line is decoded only when the scan comes to it. -/
theorem assembleBytes_eq_assemble (config : Config) (source : List UInt8) :
    (assembleBytes config source =
      match String.fromUTF8? source.toByteArray with
      | some text => assemble config text
      | none => .error .invalidText) ∧
    assembleStream config source = assembleBytes config source := by
  refine ⟨?_, assembleStream_eq config source⟩
  unfold assembleBytes
  rw [Text.linesOfBytes?_eq]
  cases String.fromUTF8? source.toByteArray with
  | none => rfl
  | some text => rfl

-- A fault in the last line, cut off in the middle of a character, discards the lines before it.
example : assembleBytes {} [0x6E, 0x6F, 0x70, 0x0A, 0x3B, 0xC3] = .error .invalidText := by
  decide +kernel

end ByteAssembler
