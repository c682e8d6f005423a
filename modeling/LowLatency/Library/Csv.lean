import Mathlib.Tactic.Common
import Mathlib.Data.List.Forall2

/-!
# Comma separated values

A reader of records whose fields may be quoted, where a quote inside of a quoted field is
doubled, and a writer that quotes every field. What is written is read back, over any alphabet,
and writing commutes with encoding the alphabet.
-/

universe u v

namespace Csv

/-- The symbols which the format gives a meaning, and a blank. -/
structure Symbols (α : Type u) where
  quote : α
  separator : α
  carriageReturn : α
  lineFeed : α
  blank : α
  distinct : [quote, separator, carriageReturn, lineFeed, blank].Nodup

/-- Whether a symbol is one of the format. -/
def Symbols.Special {α : Type u} (S : Symbols α) (c : α) : Prop :=
  c = S.quote ∨ c = S.separator ∨ c = S.carriageReturn ∨ c = S.lineFeed

/-- Where the reader is in a record. -/
inductive Position where
  | fieldStart
  | unquoted
  | quoted
  | quoteSeen
  /-- a carriage return has ended the record -/
  | returned

/-- The reader: its position, the field and the record it is in, and the records it has read. -/
structure Reader (α : Type u) where
  position : Position
  field : List α
  record : List (List α)
  records : List (List (List α))

section Reader

variable {α : Type u} [DecidableEq α] (S : Symbols α)

namespace Reader

def initial : Reader α where
  position := .fieldStart
  field := []
  record := []
  records := []

def put (r : Reader α) (position : Position) (c : α) : Reader α :=
  { r with position := position, field := r.field ++ [c] }

def endField (r : Reader α) : Reader α :=
  { r with position := .fieldStart, field := [], record := r.record ++ [r.field] }

def endRecord (r : Reader α) (position : Position) : Reader α where
  position := position
  field := []
  record := []
  records := r.records ++ [r.record ++ [r.field]]

/-- A symbol that ends a field, and what another one leads to. -/
def delimit (r : Reader α) (c : α) (other : Option (Reader α)) : Option (Reader α) :=
  if c = S.separator then some r.endField
  else if c = S.carriageReturn then some (r.endRecord .returned)
  else if c = S.lineFeed then some (r.endRecord .fieldStart)
  else other

/-- The reader at the start of a field. -/
def begin (r : Reader α) (c : α) : Option (Reader α) :=
  if c = S.quote then some { r with position := .quoted }
  else r.delimit S c (some (r.put .unquoted c))

def step (r : Reader α) (c : α) : Option (Reader α) :=
  match r.position with
  | .fieldStart => r.begin S c
  | .unquoted => if c = S.quote then none else r.delimit S c (some (r.put .unquoted c))
  | .quoted =>
      if c = S.quote then some { r with position := .quoteSeen } else some (r.put .quoted c)
  | .quoteSeen => if c = S.quote then some (r.put .quoted c) else r.delimit S c none
  | .returned =>
      if c = S.lineFeed then some { r with position := .fieldStart } else r.begin S c

/-- The records at the end of the text. A quoted field must be closed. -/
def finish (r : Reader α) : Option (List (List (List α))) :=
  match r.position with
  | .quoted => none
  | .unquoted | .quoteSeen => some (r.records ++ [r.record ++ [r.field]])
  | .fieldStart =>
      some (if r.record.isEmpty then r.records else r.records ++ [r.record ++ [r.field]])
  | .returned => some r.records

end Reader

/-- The records of a text. -/
def read (text : List α) : Option (List (List (List α))) :=
  (text.foldlM (Reader.step S) Reader.initial).bind Reader.finish

/-! ### Writing -/

/-- A quote is doubled. -/
def escape (c : α) : List α :=
  if c = S.quote then [S.quote, S.quote] else [c]

def quoteField (field : List α) : List α :=
  [S.quote] ++ field.flatMap (escape S) ++ [S.quote]

def writeRecord (fields : List (List α)) : List α :=
  [S.separator].intercalate (fields.map (quoteField S))

/-- A line break is replaced by a blank. -/
def replaceBreak (c : α) : α :=
  if c = S.carriageReturn ∨ c = S.lineFeed then S.blank else c

/-- The fields without their line breaks. -/
def withoutBreaks (fields : List (List α)) : List (List α) :=
  fields.map fun field => field.map (replaceBreak S)

/-! ### Reading what is written -/

variable {S} {r : Reader α} {field name : List α} {fields names : List (List α)}

omit [DecidableEq α] in
theorem Symbols.separator_ne_quote (S : Symbols α) : S.separator ≠ S.quote := by
  have h := S.distinct
  simp only [List.nodup_cons, List.mem_cons, not_or] at h
  apply Ne.symm h.1.1

omit [DecidableEq α] in
theorem Symbols.lineFeed_ne (S : Symbols α) :
  S.lineFeed ≠ S.quote ∧ S.lineFeed ≠ S.separator ∧ S.lineFeed ≠ S.carriageReturn
  := by
  have h := S.distinct
  simp only [List.nodup_cons, List.mem_cons, not_or] at h
  exact ⟨Ne.symm h.1.2.2.1, Ne.symm h.2.1.2.1, Ne.symm h.2.2.1.1⟩

/-- The reader at the start of a record. -/
structure Reader.AtRecordStart (r : Reader α) : Prop where
  position : r.position = .fieldStart
  field : r.field = []
  record : r.record = []

/-- From the start of a record on, the line is read up to the end of the last of the fields. -/
def ReadAs (S : Symbols α) (line : List α) (fields : List (List α)) : Prop :=
  ∀ r : Reader α, r.AtRecordStart →
    ∃ r', line.foldlM (Reader.step S) r = some r'
      ∧ (r'.position = .unquoted ∨ r'.position = .quoteSeen)
      ∧ r'.record ++ [r'.field] = fields ∧ r'.records = r.records

/-- A line without a line feed after it. -/
theorem ReadAs.read {line : List α} (h : ReadAs S line fields) :
  read S line = some [fields]
  := by
  obtain ⟨r, hread, hposition, hrecord, hrecords⟩ := h Reader.initial ⟨rfl, rfl, rfl⟩
  have hfinish : r.finish = some [fields] := by
    rcases hposition with hposition | hposition
      <;> simp [Reader.finish, hposition, hrecord, hrecords, Reader.initial]
  rw [Csv.read, hread, Option.bind_some, hfinish]

/-- A line and its line feed. -/
theorem ReadAs.foldlM_line {line : List α} (h : ReadAs S line fields)
    (records : List (List (List α))) :
  (line ++ [S.lineFeed]).foldlM (Reader.step S) { Reader.initial with records := records }
    = some { Reader.initial with records := records ++ [fields] }
  := by
  obtain ⟨r, hread, hposition, hrecord, hrecords⟩ :=
    h { Reader.initial with records := records } ⟨rfl, rfl, rfl⟩
  obtain ⟨hquote, hseparator, hreturn⟩ := S.lineFeed_ne
  have hend : Reader.step S r S.lineFeed
      = some { Reader.initial with records := records ++ [fields] } := by
    rcases hposition with hposition | hposition
      <;> simp only [Reader.step, hposition, hquote, if_false, Reader.delimit, hseparator,
        hreturn, if_true, Reader.endRecord, hrecord, hrecords]
      <;> rfl
  rw [List.foldlM_append, hread]
  simp [hend]

/-- A text of lines is read as the records of the lines. -/
theorem read_lines {lines : List (List α)} {records : List (List (List α))}
    (h : List.Forall₂ (ReadAs S) lines records) :
  read S (lines.flatMap fun line => line ++ [S.lineFeed]) = some records
  := by
  have hlines (earlier : List (List (List α))) :
      (lines.flatMap fun line => line ++ [S.lineFeed]).foldlM (Reader.step S)
          { Reader.initial with records := earlier }
        = some { Reader.initial with records := earlier ++ records } := by
    induction h generalizing earlier with
    | nil =>
        rw [List.append_nil]
        rfl
    | cons hline _ ih =>
        rw [List.flatMap_cons, List.foldlM_append, hline.foldlM_line, Option.bind_eq_bind,
          Option.bind_some, ih, List.append_assoc, List.singleton_append]
  have hread := hlines []
  rw [List.nil_append] at hread
  rw [read, show Reader.initial = { Reader.initial with records := ([] : List (List (List α))) }
    from rfl, hread]
  rfl

/-! ### Fields -/

/-- From the start of a field on, the part is read up to the end of the field. -/
def FieldReadAs (S : Symbols α) (part field : List α) : Prop :=
  ∀ r : Reader α, r.position = .fieldStart → r.field = [] →
    ∃ position, (position = .unquoted ∨ position = .quoteSeen)
      ∧ part.foldlM (Reader.step S) r = some { r with position := position, field := field }

/-- A separator ends a field. -/
theorem step_separator (h : r.position = .unquoted ∨ r.position = .quoteSeen) :
  Reader.step S r S.separator = some r.endField
  := by
  rcases h with h | h
    <;> simp [Reader.step, h, S.separator_ne_quote, Reader.delimit]

/-- Parts with separators between them, from any of their fields on. -/
theorem foldlM_intercalate {parts : List (List α)}
    (h : List.Forall₂ (FieldReadAs S) parts fields) (hparts : parts ≠ [])
    (hposition : r.position = .fieldStart) (hfield : r.field = []) :
  ∃ r', ([S.separator].intercalate parts).foldlM (Reader.step S) r = some r'
    ∧ (r'.position = .unquoted ∨ r'.position = .quoteSeen)
    ∧ r'.record ++ [r'.field] = r.record ++ fields ∧ r'.records = r.records
  := by
  induction h generalizing r with
  | nil => cases hparts rfl
  | @cons part field parts fields hpart hrest ih =>
      obtain ⟨position, hend, hread⟩ := hpart r hposition hfield
      cases parts with
      | nil =>
          cases hrest
          refine ⟨{ r with position := position, field := field }, ?_, hend, rfl, rfl⟩
          rw [List.intercalate_singleton, hread]
      | cons next rest =>
          have hseparate :=
            step_separator (S := S) (r := { r with position := position, field := field }) hend
          obtain ⟨r', hnext, hposition', hrecord, hrecords⟩ :=
            ih (r := Reader.endField { r with position := position, field := field })
              (List.cons_ne_nil _ _) rfl rfl
          refine ⟨r', ?_, hposition', ?_, hrecords⟩
          · rw [List.intercalate_cons_cons, List.foldlM_append, List.foldlM_append, hread]
            simp only [Option.bind_eq_bind, Option.bind_some, List.foldlM_cons, List.foldlM_nil,
              hseparate, Option.pure_def]
            apply hnext
          · rw [hrecord, Reader.endField, List.append_assoc, List.singleton_append]

/-- Parts that are read as fields make up a line that is read as the fields. -/
theorem readAs_intercalate {parts : List (List α)}
    (h : List.Forall₂ (FieldReadAs S) parts fields) (hparts : parts ≠ []) :
  ReadAs S ([S.separator].intercalate parts) fields
  := by
  intro r hr
  obtain ⟨r', hread, hposition, hrecord, hrecords⟩ :=
    foldlM_intercalate h hparts hr.position hr.field
  rw [hr.record, List.nil_append] at hrecord
  exact ⟨r', hread, hposition, hrecord, hrecords⟩

/-! ### Quoted fields -/

/-- An escaped symbol is read as itself. -/
theorem foldlM_escape (c : α) (h : r.position = .quoted) :
  (escape S c).foldlM (Reader.step S) r = some (r.put .quoted c)
  := by
  rw [escape]
  split_ifs with hquote
  · subst hquote
    simp [Reader.step, h, Reader.put]
  · simp [Reader.step, h, hquote]

/-- The inside of a quoted field. -/
theorem foldlM_escaped (field : List α) (h : r.position = .quoted) :
  (field.flatMap (escape S)).foldlM (Reader.step S) r
    = some { r with field := r.field ++ field }
  := by
  induction field generalizing r with
  | nil =>
      rw [List.flatMap_nil, List.append_nil]
      rfl
  | cons c field ih =>
      rw [List.flatMap_cons, List.foldlM_append, foldlM_escape c h, Option.bind_eq_bind,
        Option.bind_some, ih rfl]
      simp [Reader.put, h]

theorem fieldReadAs_quoteField (field : List α) : FieldReadAs S (quoteField S field) field := by
  intro r hposition hfield
  have hopen : Reader.step S r S.quote = some { r with position := .quoted } := by
    simp [Reader.step, hposition, Reader.begin]
  have hinside := foldlM_escaped (S := S) (r := { r with position := .quoted }) field rfl
  refine ⟨.quoteSeen, .inr rfl, ?_⟩
  rw [quoteField, List.append_assoc, List.singleton_append, List.foldlM_cons, hopen,
    Option.bind_eq_bind, Option.bind_some, List.foldlM_append, hinside, hfield, List.nil_append]
  simp [Reader.step]

/-- A record is read as it was written. -/
theorem readAs_writeRecord (hfields : fields ≠ []) :
  ReadAs S (writeRecord S fields) fields
  := by
  apply readAs_intercalate
  · rw [List.forall₂_map_left_iff]
    apply List.forall₂_same.mpr
    intro field _
    apply fieldReadAs_quoteField
  · rwa [Ne, List.map_eq_nil_iff]

/-! ### Fields without quotes -/

/-- A symbol outside of the format, where a field may begin or go on. -/
theorem step_plain {c : α} (hc : ¬S.Special c)
    (h : r.position = .fieldStart ∨ r.position = .unquoted) :
  Reader.step S r c = some (r.put .unquoted c)
  := by
  simp only [Symbols.Special, not_or] at hc
  obtain ⟨hquote, hseparator, hreturn, hfeed⟩ := hc
  rcases h with h | h
    <;> simp [Reader.step, h, Reader.begin, Reader.delimit, hquote, hseparator, hreturn, hfeed]

theorem foldlM_plain (hname : ∀ c ∈ name, ¬S.Special c) (h : r.position = .unquoted) :
  name.foldlM (Reader.step S) r = some { r with field := r.field ++ name }
  := by
  induction name generalizing r with
  | nil =>
      rw [List.append_nil]
      rfl
  | cons c name ih =>
      rw [List.forall_mem_cons] at hname
      rw [List.foldlM_cons, step_plain hname.1 (.inr h), Option.bind_eq_bind, Option.bind_some,
        ih hname.2 rfl]
      simp [Reader.put, h]

theorem fieldReadAs_plain (hne : name ≠ []) (hname : ∀ c ∈ name, ¬S.Special c) :
  FieldReadAs S name name
  := by
  intro r hposition hfield
  obtain ⟨c, name, rfl⟩ := List.exists_cons_of_ne_nil hne
  rw [List.forall_mem_cons] at hname
  refine ⟨.unquoted, .inl rfl, ?_⟩
  rw [List.foldlM_cons, step_plain hname.1 (.inl hposition), Option.bind_eq_bind,
    Option.bind_some, foldlM_plain hname.2 rfl]
  simp [Reader.put, hfield]

/-- A line of names without quotes is read as the names. -/
theorem readAs_names (hnames : names ≠ [])
    (hplain : ∀ name ∈ names, name ≠ [] ∧ ∀ c ∈ name, ¬S.Special c) :
  ReadAs S ([S.separator].intercalate names) names
  := by
  apply readAs_intercalate _ hnames
  apply List.forall₂_same.mpr
  intro name hname
  obtain ⟨hne, hplain⟩ := hplain name hname
  apply fieldReadAs_plain hne hplain

/-! ### Line breaks -/

theorem writeRecord_cons (field : List α) (rest : List (List α)) :
  writeRecord S (field :: rest)
    = quoteField S field ++ rest.flatMap fun field => [S.separator] ++ quoteField S field
  := by
  induction rest generalizing field with
  | nil => simp [writeRecord]
  | cons next rest ih =>
      have hnext := ih next
      rw [writeRecord, List.map_cons] at hnext ⊢
      rw [List.map_cons, List.intercalate_cons_cons, hnext, List.flatMap_cons]
      simp only [List.append_assoc]

theorem mem_quoteField {c : α} (h : c ∈ quoteField S field) : c = S.quote ∨ c ∈ field := by
  simp only [quoteField, List.mem_append, List.mem_singleton, List.mem_flatMap] at h
  obtain (hc | ⟨c', hmem, hc⟩) | hc := h
  · apply Or.inl hc
  · rw [escape] at hc
    split_ifs at hc with hquote
    · left
      simpa using hc
    · rw [List.mem_singleton] at hc
      subst hc
      apply Or.inr hmem
  · apply Or.inl hc

/-- What is written holds the two symbols of the format and those of the fields. -/
theorem mem_writeRecord {c : α} (h : c ∈ writeRecord S fields) :
  c = S.quote ∨ c = S.separator ∨ ∃ field ∈ fields, c ∈ field
  := by
  have hquoted {field : List α} (hfield : field ∈ fields) (hc : c ∈ quoteField S field) :
      c = S.quote ∨ c = S.separator ∨ ∃ field ∈ fields, c ∈ field := by
    rcases mem_quoteField hc with hc | hc
    · apply Or.inl hc
    · exact .inr (.inr ⟨field, hfield, hc⟩)
  cases fields with
  | nil => simp [writeRecord] at h
  | cons field rest =>
      rw [writeRecord_cons, List.mem_append, List.mem_flatMap] at h
      obtain hc | ⟨field', hfield', hc⟩ := h
      · apply hquoted List.mem_cons_self hc
      · rw [List.mem_append, List.mem_singleton] at hc
        rcases hc with hc | hc
        · exact .inr (.inl hc)
        · apply hquoted (List.mem_cons_of_mem _ hfield') hc

theorem withoutBreaks_ne_nil (S : Symbols α) (h : fields ≠ []) : withoutBreaks S fields ≠ [] := by
  rwa [withoutBreaks, Ne, List.map_eq_nil_iff]

theorem replaceBreak_ne (c : α) :
  replaceBreak S c ≠ S.carriageReturn ∧ replaceBreak S c ≠ S.lineFeed
  := by
  have h := S.distinct
  simp only [List.nodup_cons, List.mem_cons, not_or] at h
  rw [replaceBreak]
  split_ifs with hbreak
  · exact ⟨Ne.symm h.2.2.1.2.1, Ne.symm h.2.2.2.1.1⟩
  · rwa [not_or] at hbreak

/-- A record of fields without line breaks is one line. -/
theorem writeRecord_withoutBreaks (fields : List (List α)) :
  S.carriageReturn ∉ writeRecord S (withoutBreaks S fields)
    ∧ S.lineFeed ∉ writeRecord S (withoutBreaks S fields)
  := by
  have h := S.distinct
  simp only [List.nodup_cons, List.mem_cons, not_or] at h
  have hfield {c : α} (hc : ∃ field ∈ withoutBreaks S fields, c ∈ field) :
      ∃ c', c = replaceBreak S c' := by
    obtain ⟨field, hfield, hc⟩ := hc
    obtain ⟨field', -, rfl⟩ := List.mem_map.1 hfield
    obtain ⟨c', -, rfl⟩ := List.mem_map.1 hc
    use c'
  constructor
  · intro hc
    obtain hc | hc | hc := mem_writeRecord hc
    · apply h.1.2.1 hc.symm
    · apply h.2.1.1 hc.symm
    · obtain ⟨c', hc'⟩ := hfield hc
      apply (replaceBreak_ne c').1 hc'.symm
  · intro hc
    obtain hc | hc | hc := mem_writeRecord hc
    · apply S.lineFeed_ne.1 hc
    · apply S.lineFeed_ne.2.1 hc
    · obtain ⟨c', hc'⟩ := hfield hc
      apply (replaceBreak_ne c').2 hc'.symm

end Reader

/-! ### Encodings -/

/-- An encoding of one alphabet in another that keeps the symbols of the format. -/
structure Encoding {α : Type u} {β : Type v} (S : Symbols α) (T : Symbols β) where
  encode : α → List β
  encode_quote : encode S.quote = [T.quote]
  encode_separator : encode S.separator = [T.separator]
  encode_carriageReturn : encode S.carriageReturn = [T.carriageReturn]
  encode_lineFeed : encode S.lineFeed = [T.lineFeed]
  encode_blank : encode S.blank = [T.blank]
  other : ∀ c, ¬S.Special c → ∀ b ∈ encode c, ¬T.Special b

namespace Encoding

variable {α : Type u} {β : Type v} [DecidableEq α] [DecidableEq β] {S : Symbols α}
  {T : Symbols β} (E : Encoding S T)

/-- The encoding of a text. -/
def text (text : List α) : List β := text.flatMap E.encode

/-- The encodings of fields. -/
def fields (fields : List (List α)) : List (List β) := fields.map E.text

theorem replaceBreak_of_not_special {b : β} (h : ¬T.Special b) : replaceBreak T b = b := by
  simp only [Symbols.Special, not_or] at h
  rw [replaceBreak, if_neg]
  simp [h]

theorem escape_of_not_special {b : β} (h : ¬T.Special b) : escape T b = [b] := by
  simp only [Symbols.Special, not_or] at h
  rw [escape, if_neg h.1]

theorem encode_replaceBreak (c : α) :
  E.encode (replaceBreak S c) = (E.encode c).map (replaceBreak T)
  := by
  by_cases hspecial : S.Special c
  · have hseparator := S.separator_ne_quote
    have hS := S.distinct
    have hT := T.distinct
    simp only [List.nodup_cons, List.mem_cons, not_or] at hS hT
    obtain rfl | rfl | rfl | rfl := hspecial
    · rw [replaceBreak, if_neg (by simp [hS]), E.encode_quote, List.map_singleton, replaceBreak,
        if_neg (by simp [hT])]
    · rw [replaceBreak, if_neg (by simp [hS]), E.encode_separator, List.map_singleton,
        replaceBreak, if_neg (by simp [hT])]
    · rw [replaceBreak, if_pos (.inl rfl), E.encode_carriageReturn, E.encode_blank,
        List.map_singleton, replaceBreak, if_pos (.inl rfl)]
    · rw [replaceBreak, if_pos (.inr rfl), E.encode_lineFeed, E.encode_blank,
        List.map_singleton, replaceBreak, if_pos (.inr rfl)]
  · have hmap : (E.encode c).map (replaceBreak T) = (E.encode c).map id := by
      apply List.map_congr_left
      intro b hb
      apply replaceBreak_of_not_special (E.other c hspecial b hb)
    rw [replaceBreak_of_not_special hspecial, hmap, List.map_id]

theorem encode_escape (c : α) :
  E.text (escape S c) = (E.encode c).flatMap (escape T)
  := by
  by_cases hspecial : S.Special c
  · have hT := T.distinct
    have hS := S.distinct
    simp only [List.nodup_cons, List.mem_cons, not_or] at hS hT
    obtain rfl | rfl | rfl | rfl := hspecial
    · simp [text, escape, E.encode_quote]
    · simp [text, escape, E.encode_separator, S.separator_ne_quote, T.separator_ne_quote]
    · simp [text, escape, E.encode_carriageReturn, Ne.symm hS.1.2.1, Ne.symm hT.1.2.1]
    · simp [text, escape, E.encode_lineFeed, S.lineFeed_ne.1, T.lineFeed_ne.1]
  · have hsingle : ∀ b ∈ E.encode c, escape T b = [b] := by
      intro b hb
      apply escape_of_not_special (E.other c hspecial b hb)
    rw [escape_of_not_special hspecial, List.flatMap_congr hsingle]
    simp [text]

theorem text_flatMap_escape (field : List α) :
  E.text (field.flatMap (escape S)) = (E.text field).flatMap (escape T)
  := by
  simp only [text, List.flatMap_assoc]
  apply List.flatMap_congr
  intro c _
  apply E.encode_escape

theorem text_quoteField (field : List α) :
  E.text (quoteField S field) = quoteField T (E.text field)
  := by
  have h := E.text_flatMap_escape field
  rw [quoteField, quoteField, ← h]
  simp [text, E.encode_quote]

/-- Writing commutes with encoding. -/
theorem text_writeRecord (fields : List (List α)) :
  E.text (writeRecord S fields) = writeRecord T (E.fields fields)
  := by
  cases fields with
  | nil => rfl
  | cons field rest =>
      have hrest : E.text (rest.flatMap fun field => [S.separator] ++ quoteField S field)
          = rest.flatMap fun field => [T.separator] ++ quoteField T (E.text field) := by
        rw [text, List.flatMap_assoc]
        apply List.flatMap_congr
        intro field _
        rw [List.flatMap_append, List.flatMap_singleton, E.encode_separator, ← text,
          E.text_quoteField]
      rw [Encoding.fields, List.map_cons, writeRecord_cons, writeRecord_cons, text,
        List.flatMap_append, ← text, ← text, hrest, E.text_quoteField, List.flatMap_map]

theorem fields_withoutBreaks (fields : List (List α)) :
  E.fields (withoutBreaks S fields) = withoutBreaks T (E.fields fields)
  := by
  simp only [Encoding.fields, withoutBreaks, List.map_map]
  apply List.map_congr_left
  intro field _
  simp only [Function.comp_apply, text, List.flatMap_map, List.map_flatMap]
  apply List.flatMap_congr
  intro c _
  apply E.encode_replaceBreak

end Encoding

end Csv
