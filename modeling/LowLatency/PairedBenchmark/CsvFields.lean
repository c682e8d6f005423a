import LowLatency.Library.Csv

/-!
# The result rows of the paired benchmarks

Each of the benchmarks writes its row field by field: the C++ ones in bytes, the Java ones in
UTF-16 units. All of them write the same line of a text, and a reader of comma separated values
gets the fields back, with a space for each carriage return and line feed.
-/

namespace PairedBenchmark

/-- The format in bytes. -/
def bytes : Csv.Symbols UInt8 where
  quote := 0x22
  separator := 0x2c
  carriageReturn := 0x0d
  lineFeed := 0x0a
  blank := 0x20
  distinct := by decide

/-- The format in UTF-16 units. -/
def utf16Units : Csv.Symbols UInt16 where
  quote := 0x22
  separator := 0x2c
  carriageReturn := 0x0d
  lineFeed := 0x0a
  blank := 0x20
  distinct := by decide

/-- The format in characters. -/
def characters : Csv.Symbols Char where
  quote := Char.ofNat 0x22
  separator := Char.ofNat 0x2c
  carriageReturn := Char.ofNat 0x0d
  lineFeed := Char.ofNat 0x0a
  blank := Char.ofNat 0x20
  distinct := by decide

/-! ### The throughput benchmark in C++ -/

/-- A character of `csv_field`. -/
def csvCharacter (output : List UInt8) (character : UInt8) : List UInt8 :=
  if character = bytes.carriageReturn ∨ character = bytes.lineFeed then
    output ++ [bytes.blank]
  else
    (if character = bytes.quote then output ++ [bytes.quote] else output) ++ [character]

def csvField (value : List UInt8) : List UInt8 :=
  value.foldl csvCharacter [bytes.quote] ++ [bytes.quote]

/-- The row of `emit_csv`: a field, and then a comma before each further one. -/
def csvLine : List (List UInt8) → List UInt8
  | [] => []
  | field :: fields =>
      fields.foldl (fun output field => output ++ ([bytes.separator] ++ csvField field))
        (csvField field)

end PairedBenchmark

/-! ### The latency benchmark in C++ -/

namespace PairedLatency

open PairedBenchmark (bytes)

/-- A character of `csv_field`. -/
def csvCharacter (escaped : List UInt8) (character : UInt8) : List UInt8 :=
  if character = bytes.quote then
    escaped ++ [bytes.quote, bytes.quote]
  else if character = bytes.carriageReturn ∨ character = bytes.lineFeed then
    escaped ++ [bytes.blank]
  else
    escaped ++ [character]

def csvField (value : List UInt8) : List UInt8 :=
  value.foldl csvCharacter [bytes.quote] ++ [bytes.quote]

/-- A field of the row of `emit_csv`, and its index. -/
def csvColumn (output : List UInt8) (column : List UInt8 × ℕ) : List UInt8 :=
  (if column.2 ≠ 0 then output ++ [bytes.separator] else output) ++ csvField column.1

/-- The row of `emit_csv`: a loop over the indices of the fields. -/
def csvLine (fields : List (List UInt8)) : List UInt8 :=
  fields.zipIdx.foldl csvColumn []

end PairedLatency

/-! ### The benchmarks in Java -/

namespace PairedBenchmark.Java

/-- `String.replace` of a unit. -/
def replaceUnit (old new : UInt16) (value : List UInt16) : List UInt16 :=
  value.map fun unit => if unit = old then new else unit

/-- `String.replace` of a text of one unit. -/
def replaceText (target : UInt16) (replacement value : List UInt16) : List UInt16 :=
  value.flatMap fun unit => if unit = target then replacement else [unit]

/-- `csvField` of what `String.valueOf` gives. -/
def csvField (input : List UInt16) : List UInt16 :=
  let value :=
    replaceText utf16Units.quote [utf16Units.quote, utf16Units.quote]
      (replaceUnit utf16Units.lineFeed utf16Units.blank
        (replaceUnit utf16Units.carriageReturn utf16Units.blank input))
  [utf16Units.quote] ++ value ++ [utf16Units.quote]

/-- `Stream.reduce`. -/
def reduce {α : Type} (accumulator : α → α → α) : List α → Option α
  | [] => none
  | first :: rest => some (rest.foldl accumulator first)

/-- The row of `emitCsv`. Without a field, `orElseThrow` throws. -/
def csvLine (fields : List (List UInt16)) : Option (List UInt16) :=
  reduce (fun left right => left ++ [utf16Units.separator] ++ right) (fields.map csvField)

end PairedBenchmark.Java

namespace PairedBenchmark

/-! ### What they write -/

theorem csvCharacter_eq (output : List UInt8) (character : UInt8) :
  csvCharacter output character
    = output ++ Csv.escape bytes (Csv.replaceBreak bytes character)
  := by
  rw [csvCharacter, Csv.replaceBreak]
  split_ifs with hbreak hquote
  · rfl
  · rw [hquote, Csv.escape, if_pos rfl, List.append_assoc, List.singleton_append]
  · rw [Csv.escape, if_neg hquote]

theorem latency_csvCharacter_eq (escaped : List UInt8) (character : UInt8) :
  PairedLatency.csvCharacter escaped character
    = escaped ++ Csv.escape bytes (Csv.replaceBreak bytes character)
  := by
  rw [PairedLatency.csvCharacter, Csv.replaceBreak]
  split_ifs with hquote hbreak hbreak
  · rw [hquote] at hbreak
    have hdistinct : ¬(bytes.quote = bytes.carriageReturn ∨ bytes.quote = bytes.lineFeed) := by
      decide
    cases hdistinct hbreak
  · rw [hquote, Csv.escape, if_pos rfl]
  · rfl
  · rw [Csv.escape, if_neg hquote]

theorem csvField_eq (value : List UInt8) :
  csvField value = Csv.quoteField bytes (value.map (Csv.replaceBreak bytes))
  := by
  have hloop : csvCharacter = fun output character =>
      output ++ Csv.escape bytes (Csv.replaceBreak bytes character) := by
    funext output character
    apply csvCharacter_eq
  rw [csvField, hloop, List.foldl_append_eq_append, ← List.flatMap_def, Csv.quoteField,
    List.flatMap_map]

/-- Both C++ encoders are one function. -/
theorem latency_csvField_eq : PairedLatency.csvField = csvField := by
  have hloop : PairedLatency.csvCharacter = csvCharacter := by
    funext output character
    rw [latency_csvCharacter_eq, csvCharacter_eq]
  funext value
  rw [PairedLatency.csvField, hloop, csvField]

theorem java_csvField_eq (input : List UInt16) :
  Java.csvField input = Csv.quoteField utf16Units (input.map (Csv.replaceBreak utf16Units))
  := by
  have hbreaks : Java.replaceUnit utf16Units.lineFeed utf16Units.blank
      (Java.replaceUnit utf16Units.carriageReturn utf16Units.blank input)
      = input.map (Csv.replaceBreak utf16Units) := by
    rw [Java.replaceUnit, Java.replaceUnit, List.map_map]
    apply List.map_congr_left
    intro unit _
    rw [Function.comp_apply, Csv.replaceBreak]
    by_cases hreturn : unit = utf16Units.carriageReturn
    · have hblank : utf16Units.blank ≠ utf16Units.lineFeed := by decide
      rw [if_pos hreturn, if_neg hblank, if_pos (.inl hreturn)]
    · simp only [hreturn, if_false, false_or]
  rw [Java.csvField, hbreaks]
  rfl

variable {fields : List (List UInt8)}

theorem csvLine_eq (fields : List (List UInt8)) :
  csvLine fields = Csv.writeRecord bytes (Csv.withoutBreaks bytes fields)
  := by
  cases fields with
  | nil => rfl
  | cons field fields =>
      rw [csvLine, List.foldl_append_eq_append, ← List.flatMap_def, Csv.withoutBreaks,
        List.map_cons, Csv.writeRecord_cons, List.flatMap_map, csvField_eq]
      simp only [csvField_eq]

theorem latency_csvLine_eq (fields : List (List UInt8)) :
  PairedLatency.csvLine fields = csvLine fields
  := by
  cases fields with
  | nil => rfl
  | cons field fields =>
      -- after the first field every index is positive
      have hrest (output : List UInt8) (n : ℕ) :
          (fields.zipIdx (n + 1)).foldl PairedLatency.csvColumn output
            = fields.foldl
                (fun output field => output ++ ([bytes.separator] ++ csvField field)) output := by
        induction fields generalizing output n with
        | nil => rfl
        | cons next rest ih =>
            rw [List.zipIdx_cons, List.foldl_cons, List.foldl_cons, PairedLatency.csvColumn,
              if_pos (Nat.succ_ne_zero n), latency_csvField_eq, List.append_assoc]
            apply ih
      rw [PairedLatency.csvLine, List.zipIdx_cons, List.foldl_cons, Nat.zero_add,
        ← Nat.zero_add 1, hrest, csvLine, PairedLatency.csvColumn, if_neg (by simp),
        List.nil_append, latency_csvField_eq]

theorem java_csvLine_eq {fields : List (List UInt16)} (hfields : fields ≠ []) :
  Java.csvLine fields = some (Csv.writeRecord utf16Units (Csv.withoutBreaks utf16Units fields))
  := by
  obtain ⟨field, fields, rfl⟩ := List.exists_cons_of_ne_nil hfields
  have hreduce : (fun left right : List UInt16 => left ++ [utf16Units.separator] ++ right)
      = fun left right => left ++ ([utf16Units.separator] ++ right) := by
    funext left right
    apply List.append_assoc
  rw [Java.csvLine, List.map_cons, Java.reduce, hreduce, List.foldl_append_eq_append,
    ← List.flatMap_def, List.flatMap_map, Csv.withoutBreaks, List.map_cons,
    Csv.writeRecord_cons, List.flatMap_map, java_csvField_eq]
  simp only [java_csvField_eq]

/-! ### UTF-8 and UTF-16 -/

def utf16EncodeChar (c : Char) : List UInt16 :=
  if c.toNat < 0x10000 then
    [UInt16.ofNat c.toNat]
  else
    [UInt16.ofNat (0xd800 + (c.toNat - 0x10000) / 0x400),
     UInt16.ofNat (0xdc00 + (c.toNat - 0x10000) % 0x400)]

/-- The ASCII code of a symbol of the format. -/
def SpecialCode (n : ℕ) : Prop := n = 0x22 ∨ n = 0x2c ∨ n = 0x0d ∨ n = 0x0a

instance (n : ℕ) : Decidable (SpecialCode n) :=
  inferInstanceAs (Decidable (n = 0x22 ∨ n = 0x2c ∨ n = 0x0d ∨ n = 0x0a))

/-- The symbols of a format have these codes. -/
theorem specialCode_of_special {β : Type} {T : Csv.Symbols β} {code : β → ℕ}
    (hcodes : SpecialCode (code T.quote) ∧ SpecialCode (code T.separator)
      ∧ SpecialCode (code T.carriageReturn) ∧ SpecialCode (code T.lineFeed))
    {b : β} (h : T.Special b) :
  SpecialCode (code b)
  := by
  obtain rfl | rfl | rfl | rfl := h
  · apply hcodes.1
  · apply hcodes.2.1
  · apply hcodes.2.2.1
  · apply hcodes.2.2.2

theorem special_of_code {c : Char} (h : SpecialCode c.toNat) : characters.Special c := by
  have hchar (n : ℕ) (hc : c.toNat = n) : c = Char.ofNat n := by
    rw [← hc, Char.ofNat_toNat]
  obtain h | h | h | h := h
  · exact .inl (hchar _ h)
  · exact .inr (.inl (hchar _ h))
  · exact .inr (.inr (.inl (hchar _ h)))
  · exact .inr (.inr (.inr (hchar _ h)))

theorem toNat_lt (c : Char) : c.toNat < 0x110000 := by
  obtain h | ⟨-, h⟩ := c.valid
  · exact Nat.lt_trans h (by decide)
  · exact h

/-- The bytes of other characters are not those of ASCII. -/
theorem toNat_of_mem_utf8 {c : Char} {b : UInt8} (hmem : b ∈ String.utf8EncodeChar c)
    (hb : b.toNat < 0x80) :
  c.toNat = b.toNat
  := by
  have hlt : c.val.toNat < 0x110000 := toNat_lt c
  change c.val.toNat = b.toNat
  simp only [String.utf8EncodeChar] at hmem
  split_ifs at hmem
  all_goals simp only [List.mem_cons, List.not_mem_nil, or_false] at hmem
  · rw [hmem, UInt8.toNat_ofNat']
    omega
  all_goals
    exfalso
    have hlarge : 0x80 ≤ b.toNat := by
      rcases hmem with rfl | rfl | rfl | rfl <;> rw [UInt8.toNat_ofNat'] <;> omega
    omega

/-- The surrogates are not ASCII. -/
theorem toNat_of_mem_utf16 {c : Char} {u : UInt16} (hmem : u ∈ utf16EncodeChar c)
    (hu : u.toNat < 0x80) :
  c.toNat = u.toNat
  := by
  have hlt := toNat_lt c
  rw [utf16EncodeChar] at hmem
  split_ifs at hmem with hsmall
  · rw [List.mem_singleton] at hmem
    rw [hmem, UInt16.toNat_ofNat']
    omega
  · exfalso
    simp only [List.mem_cons, List.not_mem_nil, or_false] at hmem
    have hlarge : 0x80 ≤ u.toNat := by
      rcases hmem with rfl | rfl <;> rw [UInt16.toNat_ofNat'] <;> omega
    omega

/-- Where ASCII is encoded as itself only, the symbols of the format stand for themselves
only. -/
theorem not_special_of_mem {β : Type} {T : Csv.Symbols β} (code : β → ℕ)
    (hcodes : SpecialCode (code T.quote) ∧ SpecialCode (code T.separator)
      ∧ SpecialCode (code T.carriageReturn) ∧ SpecialCode (code T.lineFeed))
    {c : Char} {b : β} (hascii : code b < 0x80 → c.toNat = code b)
    (hc : ¬characters.Special c) :
  ¬T.Special b
  := by
  intro hspecial
  have hcode := specialCode_of_special hcodes hspecial
  apply hc
  apply special_of_code
  rw [hascii]
  · exact hcode
  · rcases hcode with h | h | h | h <;> omega

/-- UTF-8 keeps the format. -/
def utf8 : Csv.Encoding characters bytes where
  encode := String.utf8EncodeChar
  encode_quote := by decide
  encode_separator := by decide
  encode_carriageReturn := by decide
  encode_lineFeed := by decide
  encode_blank := by decide
  other c hc b hb := by
    apply not_special_of_mem UInt8.toNat (by decide) (toNat_of_mem_utf8 hb) hc

/-- UTF-16 keeps the format. -/
def utf16 : Csv.Encoding characters utf16Units where
  encode := utf16EncodeChar
  encode_quote := by decide
  encode_separator := by decide
  encode_carriageReturn := by decide
  encode_lineFeed := by decide
  encode_blank := by decide
  other c hc u hu := by
    apply not_special_of_mem UInt16.toNat (by decide) (toNat_of_mem_utf16 hu) hc

/-! ### What is read -/

/-- The output of `emit_csv`: the header and the row. -/
def emitCsv (header : List UInt8) (fields : List (List UInt8)) : List UInt8 :=
  [header, csvLine fields].flatMap fun line => line ++ [bytes.lineFeed]

/-- The output is read as the names of the header and exactly one row. -/
theorem read_emitCsv {names fields : List (List UInt8)} (hnames : names ≠ [])
    (hplain : ∀ name ∈ names, name ≠ [] ∧ ∀ b ∈ name, ¬bytes.Special b)
    (hfields : fields ≠ []) :
  Csv.read bytes (emitCsv ([bytes.separator].intercalate names) fields)
    = some [names, Csv.withoutBreaks bytes fields]
  := by
  have hread := Csv.readAs_writeRecord (S := bytes) (Csv.withoutBreaks_ne_nil bytes hfields)
  rw [← csvLine_eq] at hread
  apply Csv.read_lines
  apply List.Forall₂.cons (Csv.readAs_names hnames hplain)
  apply List.Forall₂.cons hread List.Forall₂.nil

/-- Every row is one line, and is read as its fields with a space for each carriage return and
line feed. All of the benchmarks write the same line of a text, and their output, a header of
plain names and a row, is read as the names and exactly one row. -/
theorem csv_exact :
  (∀ fields : List (List UInt8), fields ≠ [] →
    PairedLatency.csvLine fields = csvLine fields
      ∧ bytes.carriageReturn ∉ csvLine fields ∧ bytes.lineFeed ∉ csvLine fields
      ∧ Csv.read bytes (csvLine fields) = some [Csv.withoutBreaks bytes fields])
  ∧ (∀ fields : List (List UInt16), fields ≠ [] →
    ∃ line, Java.csvLine fields = some line
      ∧ utf16Units.carriageReturn ∉ line ∧ utf16Units.lineFeed ∉ line
      ∧ Csv.read utf16Units line = some [Csv.withoutBreaks utf16Units fields])
  ∧ (∀ fields : List (List Char), fields ≠ [] →
    ∃ line : List Char,
      csvLine (utf8.fields fields) = utf8.text line
      ∧ PairedLatency.csvLine (utf8.fields fields) = utf8.text line
      ∧ Java.csvLine (utf16.fields fields) = some (utf16.text line)
      ∧ characters.carriageReturn ∉ line ∧ characters.lineFeed ∉ line
      ∧ Csv.read characters line = some [Csv.withoutBreaks characters fields])
  ∧ ∀ names fields : List (List UInt8), names ≠ [] →
    (∀ name ∈ names, name ≠ [] ∧ ∀ b ∈ name, ¬bytes.Special b) → fields ≠ [] →
    Csv.read bytes (emitCsv ([bytes.separator].intercalate names) fields)
      = some [names, Csv.withoutBreaks bytes fields]
  := by
  refine ⟨?bytes, ?units, ?text, ?output⟩
  case bytes =>
    intro fields hfields
    obtain ⟨hreturn, hfeed⟩ := Csv.writeRecord_withoutBreaks (S := bytes) fields
    have hread := Csv.readAs_writeRecord (S := bytes) (Csv.withoutBreaks_ne_nil bytes hfields)
    rw [csvLine_eq]
    exact ⟨by rw [latency_csvLine_eq, csvLine_eq], hreturn, hfeed, hread.read⟩
  case units =>
    intro fields hfields
    obtain ⟨hreturn, hfeed⟩ := Csv.writeRecord_withoutBreaks (S := utf16Units) fields
    have hread :=
      Csv.readAs_writeRecord (S := utf16Units) (Csv.withoutBreaks_ne_nil utf16Units hfields)
    exact ⟨_, java_csvLine_eq hfields, hreturn, hfeed, hread.read⟩
  case text =>
    intro fields hfields
    obtain ⟨hreturn, hfeed⟩ := Csv.writeRecord_withoutBreaks (S := characters) fields
    have hread :=
      Csv.readAs_writeRecord (S := characters) (Csv.withoutBreaks_ne_nil characters hfields)
    have hcpp : csvLine (utf8.fields fields)
        = utf8.text (Csv.writeRecord characters (Csv.withoutBreaks characters fields)) := by
      rw [csvLine_eq, utf8.text_writeRecord, utf8.fields_withoutBreaks]
    have hjava : Java.csvLine (utf16.fields fields)
        = some (utf16.text
            (Csv.writeRecord characters (Csv.withoutBreaks characters fields))) := by
      have hne : utf16.fields fields ≠ [] := by
        rwa [Csv.Encoding.fields, Ne, List.map_eq_nil_iff]
      rw [java_csvLine_eq hne, utf16.text_writeRecord, utf16.fields_withoutBreaks]
    use Csv.writeRecord characters (Csv.withoutBreaks characters fields)
    refine ⟨hcpp, ?_, hjava, hreturn, hfeed, hread.read⟩
    rw [latency_csvLine_eq, hcpp]
  case output =>
    intro names fields hnames hplain hfields
    apply read_emitCsv hnames hplain hfields

end PairedBenchmark
