import ByteAssembler.CommandLine.Session
import ByteAssembler.Proofs.ByteLines
import ByteAssembler.Proofs.OneLine

/-
  Source text cannot break the lines of the output. Messages quote the lines and the names of the
  table, and so do the lines of a listing; all of these are one line each
  (`Scan.oneLine_of_mem_diagnostics`, `Listing.oneLine_line?`). A text that is put together from such
  lines is cut into the same lines again (`Text.split_unlines`), and the bytes are read back from
  their digits (`Text.decodeHex?_hexDump`). `assemble_lineOriented` says this of every source.
-/

namespace ByteAssembler

open Text (OneLine)

namespace Text

/-! ## Bytes as digits -/

/-- The bytes that a text of hexadecimal digits stands for, two digits a byte. -/
def decodeHex? : List Char → Option (List UInt8)
  | [] => some []
  | high :: low :: rest => do
    let h ← ByteLiteral.digit? 16 high
    let l ← ByteLiteral.digit? 16 low
    let bytes ← decodeHex? rest
    return UInt8.ofNat (16 * h + l) :: bytes
  | [_] => none

/-- The digit of a value below sixteen. -/
def upperDigit (d : Nat) : Char :=
  (Nat.digitChar d).toUpper

theorem digit?_upperDigit : ∀ d < 16, ByteLiteral.digit? 16 (upperDigit d) = some d := by
  decide

/-- A byte is written as its high half and its low half. -/
theorem toList_upperHex_byte (b : UInt8) :
    (upperHex 2 b.toNat).toList = [upperDigit (b.toNat / 16), upperDigit (b.toNat % 16)] := by
  have hbyte : b.toNat < 256 := b.toNat_lt
  have hdigits : hexDigits 2 b.toNat =
      [Nat.digitChar (b.toNat / 16), Nat.digitChar (b.toNat % 16)] := by
    rw [hexDigits, Nat.toDigits_eq_if (by decide)]
    split
    · next h =>
      rw [Nat.div_eq_of_lt h, Nat.mod_eq_of_lt h]
      rfl
    · rw [Nat.toDigits_of_lt_base (by omega)]
      rfl
  rw [upperHex, String.toList_ofList, hdigits]
  rfl

theorem toList_hexDump_cons (b : UInt8) (bytes : List UInt8) :
    (hexDump (b :: bytes)).toList =
      upperDigit (b.toNat / 16) :: upperDigit (b.toNat % 16) :: (hexDump bytes).toList := by
  have hdump : (hexDump (b :: bytes)).toList =
      (upperHex 2 b.toNat).toList ++ (hexDump bytes).toList := by
    simp [hexDump]
  rw [hdump, toList_upperHex_byte]
  rfl

theorem length_hexDump (bytes : List UInt8) : (hexDump bytes).length = 2 * bytes.length := by
  induction bytes with
  | nil => rfl
  | cons b bytes ih =>
    rw [← String.length_toList] at ih ⊢
    rw [toList_hexDump_cons, List.length_cons, List.length_cons, ih, List.length_cons]
    omega

theorem mem_upperDigits_of_mem_hexDump {bytes : List UInt8} {c : Char}
    (h : c ∈ (hexDump bytes).toList) : c ∈ upperDigits := by
  rw [hexDump, String.toList_join, List.flatMap_map] at h
  obtain ⟨b, -, hc⟩ := List.mem_flatMap.1 h
  exact mem_upperDigits_of_mem_upperHex hc

/-- **The bytes are read back from their digits.** -/
theorem decodeHex?_hexDump (bytes : List UInt8) :
    decodeHex? (hexDump bytes).toList = some bytes := by
  induction bytes with
  | nil => rfl
  | cons b bytes ih =>
    have hbyte : b.toNat < 256 := b.toNat_lt
    have hhalves : 16 * (b.toNat / 16) + b.toNat % 16 = b.toNat := Nat.div_add_mod _ _
    rw [toList_hexDump_cons, decodeHex?, digit?_upperDigit _ (by omega),
      digit?_upperDigit _ (by omega), ih]
    simp only [Option.bind_eq_bind, Option.bind_some, hhalves, UInt8.ofNat_toNat]
    rfl

end Text

/-! ## What is shown of a run -/

namespace Scan

variable {config : Config} {lines : List Line} (h : ∀ l ∈ lines, l.IsOneLine)

include h

/-- The names of the table are labels and operands of the lines. -/
theorem oneLine_of_mem_names {name : String} (hname : name ∈ (run config lines).symbols.names) :
    OneLine name := by
  obtain ⟨l, hl, hlabel | huse⟩ := (mem_run_names config lines).1 hname
  · exact (h l hl).label name hlabel
  · exact (h l hl).uses name huse

/-- What is reported on one more line quotes the line and the table. -/
theorem oneLine_of_mem_problems {l : Line} (hl : l.IsOneLine) {p : Problem}
    (hp : p ∈ (run config lines).problems config l) : OneLine p.message := by
  rcases List.mem_append.1 hp with hlabel | hbody
  · cases hname : l.label with
    | none =>
      rw [hname] at hlabel
      cases hlabel
    | some name =>
      have hline := hl.label name hname
      rw [hname, Option.elim_some, mem_labelProblems] at hlabel
      obtain ⟨existing, hat, -, rfl⟩ | ⟨first, -, rfl⟩ := hlabel
      · obtain ⟨s, hs, rfl, -⟩ := SymbolTable.exists_of_nameAt?_eq_some hat
        have hexisting := oneLine_of_mem_names h (List.mem_map_of_mem hs)
        exact Problem.oneLine_message (by simpa [Problem.quoted] using ⟨hline, hexisting⟩)
      · exact Problem.oneLine_of_quoted rfl hline
  · cases hb : l.body with
    | empty =>
      rw [hb] at hbody
      cases hbody
    | rejected ps =>
      rw [hb] at hbody
      exact hl.rejections ps hb p hbody
    | instruction mnemonic operands =>
      rw [hb, bodyProblems] at hbody
      split at hbody
      · obtain rfl := List.mem_singleton.1 hbody
        exact Problem.oneLine_message fun text htext => absurd htext List.not_mem_nil
      · cases hbody

/-- **Every message of a run is one line.** -/
theorem oneLine_of_mem_diagnostics {d : Diagnostic}
    (hd : d ∈ ((run config lines).finish config).diagnostics) : OneLine d.message := by
  refine Diagnostic.oneLine_message ?_
  rcases mem_finish_diagnostics.1 hd with hearly | ⟨symbol, hsymbol, hlate⟩
  · obtain ⟨k, l, hl, p, hp, rfl⟩ := (mem_run_diagnostics config lines).1 hearly
    have hbefore : ∀ l ∈ lines.take k, l.IsOneLine := fun l hmem => h l (List.mem_of_mem_take hmem)
    exact oneLine_of_mem_problems hbefore (h l (List.mem_of_getElem? hl)) hp
  · have hname := oneLine_of_mem_names h (List.mem_map_of_mem hsymbol)
    obtain ⟨-, rfl⟩ | ⟨address, -, -, -, rfl⟩ := lateReport?_cases hlate
    · exact Problem.oneLine_of_quoted rfl hname
    · exact Problem.oneLine_of_quoted rfl hname

end Scan

namespace Listing

variable {symbols : SymbolTable} (h : ∀ name ∈ symbols.names, OneLine name)

include h

theorem oneLine_operandText? {o : Operand Nat} {text : String}
    (ht : operandText? symbols o = some text) : OneLine text := by
  cases o with
  | register r => exact Option.some.inj ht ▸ r.oneLine_name
  | immediate value => exact Option.some.inj ht ▸ Text.oneLine_hexLiteral 2 value.toNat
  | address target =>
    cases target with
    | absolute a => exact Option.some.inj ht ▸ Text.oneLine_hexLiteral 2 a.toNat
    | label index =>
      obtain ⟨s, hs, rfl⟩ := Option.map_eq_some_iff.1 ht
      exact h s.name (List.mem_map_of_mem (List.mem_of_getElem? hs))

/-- A line of a listing is one line if the names of the table are. -/
theorem oneLine_line? {i : Instruction} {text : String} (ht : line? symbols i = some text) :
    OneLine text := by
  obtain ⟨operands, hoperands, ht⟩ := Option.bind_eq_some_iff.1 ht
  obtain rfl := Option.some.inj ht
  have htexts : ∀ operand ∈ operands, OneLine operand := by
    intro operand hmem
    obtain ⟨o, -, ho⟩ := exists_of_mem_mapM_eq_some hoperands hmem
    exact oneLine_operandText? h ho
  have hjoined : OneLine (String.join (operands.map (" " ++ ·))) := by
    refine Text.oneLine_join.2 fun text htext => ?_
    obtain ⟨operand, hmem, rfl⟩ := List.mem_map.1 htext
    exact Text.oneLine_append.2 ⟨by decide, htexts operand hmem⟩
  simp only [Text.oneLine_append, Text.oneLine_text, Text.oneLine_upperHex,
    i.mnemonic.oneLine_name, hjoined]
  decide

omit h in
/-- A listing has one line for each instruction. -/
theorem length_lines? {p : Program} {lines : List String} (hl : lines? p = some lines) :
    lines.length = p.instructions.length := by
  simpa using (congrArg List.length (map_eq_of_mapM_eq_some hl)).symm

end Listing

/-! ## Reports -/

theorem Content.bytes_text (text : String) : (Content.text text).bytes = Text.utf8 text.toList := by
  have htext : text.toUTF8 = (Text.utf8 text.toList).toByteArray := String.utf8Encode_toList.symm
  rw [bytes, htext, List.toList_data_toByteArray]

/-- It makes no difference whether a text is cut before or after it is written as bytes. -/
theorem Content.splitOn_bytes_text (text : String) :
    (Content.text text).bytes.splitOn 0x0A =
      (Text.split text).map fun piece => (Content.text piece).bytes := by
  have hcut := Text.isMark_feed.splitOn_flatMap text.toList
  rw [bytes_text, Text.split, List.map_map]
  simpa [bytes_text, Function.comp_def, Text.utf8] using hcut

/-- The output on an assembly run keeps to its lines. -/
structure Assembly.LineOriented (a : Assembly) : Prop where
  messages (message : String) : message ∈ a.messages → OneLine message
  /-- The diagnostics that are printed are cut into the messages again. -/
  diagnostics : Text.split (CommandLine.diagnosticLines a) = a.messages ++ [""]
  /-- There is a listing with one line for each instruction, and the report is cut into these lines
  and that of the digits, as a text and as bytes. -/
  listing : ∃ lines text, Listing.lines? a.program = some lines ∧
    lines.length = a.program.instructions.length ∧ (∀ line ∈ lines, OneLine line) ∧
    a.report? .listing = some (.text text) ∧
    Text.split text = lines ++ [Text.hexDump a.bytes, ""] ∧
    (Content.text text).bytes.splitOn 0x0A =
      (lines ++ [Text.hexDump a.bytes, ""]).map fun line => (Content.text line).bytes
  digits (c : Char) : c ∈ (Text.hexDump a.bytes).toList → c ∈ Text.upperDigits
  length_digits : (Text.hexDump a.bytes).length = 2 * a.bytes.length
  /-- The bytes are read back from their digits. -/
  bytes : Text.decodeHex? (Text.hexDump a.bytes).toList = some a.bytes

/-- The listing and the digits are lines of one text. -/
theorem Assembly.report?_listing {a : Assembly} {lines : List String}
    (h : Listing.lines? a.program = some lines) :
    a.report? .listing = some (.text (Text.unlines (lines ++ [Text.hexDump a.bytes]))) := by
  rw [report?, h, Option.map_some, Text.unlines, List.map_append, String.join_append]
  simp [String.append_assoc]

/-- The report is cut into the lines of the listing, the digits and an empty rest. -/
theorem Assembly.split_listing (a : Assembly) {lines : List String}
    (h : ∀ line ∈ lines, OneLine line) :
    Text.split (Text.unlines (lines ++ [Text.hexDump a.bytes])) =
      lines ++ [Text.hexDump a.bytes, ""] := by
  rw [Text.split_unlines, List.append_assoc]
  · rfl
  · intro line hline
    rcases List.mem_append.1 hline with hline | hdigits
    · exact h line hline
    · exact List.mem_singleton.1 hdigits ▸ Text.oneLine_hexDump a.bytes

/-- If the messages and the names are one line each, the output keeps to its lines. -/
theorem Assembly.lineOriented {a : Assembly} {lines : List String}
    (hmessages : ∀ message ∈ a.messages, OneLine message)
    (hnames : ∀ name ∈ a.program.symbols.names, OneLine name)
    (hlisting : Listing.lines? a.program = some lines) : a.LineOriented := by
  have hlines : ∀ line ∈ lines, OneLine line := by
    intro line hline
    obtain ⟨i, -, hi⟩ := exists_of_mem_mapM_eq_some hlisting hline
    exact Listing.oneLine_line? hnames hi
  refine ⟨hmessages, Text.split_unlines hmessages, ⟨lines, _, hlisting,
    Listing.length_lines? hlisting, hlines, report?_listing hlisting, a.split_listing hlines, ?_⟩,
    fun c => Text.mem_upperDigits_of_mem_hexDump, Text.length_hexDump a.bytes,
    Text.decodeHex?_hexDump a.bytes⟩
  rw [Content.splitOn_bytes_text, a.split_listing hlines]

theorem assembleLines_lineOriented (config : Config) {texts : List String}
    (h : ∀ text ∈ texts, OneLine text) :
    ∃ a, assembleLines config texts = .ok a ∧ a.LineOriented := by
  have hlines : ∀ l ∈ texts.map Line.read, l.IsOneLine := by
    intro l hl
    obtain ⟨text, htext, rfl⟩ := List.mem_map.1 hl
    exact Line.isOneLine_read (h text htext)
  obtain ⟨lines, hlisting⟩ := Scan.run_listing config (texts.map Line.read)
  refine ⟨_, assembleLines_eq config texts, ?_⟩
  rw [Scan.scan_eq_run]
  refine Assembly.lineOriented (fun message hmessage => ?_)
    (fun name => Scan.oneLine_of_mem_names hlines) hlisting
  obtain ⟨d, hd, rfl⟩ := List.mem_map.1 hmessage
  exact Scan.oneLine_of_mem_diagnostics hlines hd

/-- **Source text does not break the lines of the output.** Whatever the source and whether or not
the run succeeds, no message and no line of the listing has a line feed in it. So the messages, each
of them ended, are cut into the same messages again, and the report with the listing into one line
for each instruction and one of upper-case digits, two for each byte, from which the bytes are read
back. A source given as bytes has such a result, too, unless it is not UTF-8. -/
theorem assemble_lineOriented (config : Config) :
    (∀ source, ∃ a, assemble config source = .ok a ∧ a.LineOriented) ∧
    ∀ source,
      String.fromUTF8? source.toByteArray = none ∧
        assembleBytes config source = .error .invalidText ∨
      ∃ a, assembleBytes config source = .ok a ∧ a.LineOriented := by
  refine ⟨fun source => ?_, fun source => ?_⟩
  · exact assembleLines_lineOriented config fun text => Text.oneLine_of_mem_lines
  · unfold assembleBytes
    rw [Text.linesOfBytes?_eq]
    cases String.fromUTF8? source.toByteArray with
    | none => exact Or.inl ⟨rfl, rfl⟩
    | some text =>
      exact Or.inr (assembleLines_lineOriented config fun line => Text.oneLine_of_mem_lines)

-- Another separator of lines is quoted as it stands.
example : (assemble {} "a\u2028b: nop").toOption.map (·.messages) =
    some ["Line 1: line is invalid: malformed label \"a\u2028b\""] := by
  decide +kernel

end ByteAssembler
