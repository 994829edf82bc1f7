import Mathlib.Data.List.Basic

/-! # Reading CSV

    The format of RFC 4180, for fields of any characters, twice: as a grammar and as a
    reader that takes a text character by character.  Neither knows which fields a
    report quotes.

    * `SpellsField` and `SpellsRecords` are the grammar.  A field may be quoted, and has
      to be where it holds a comma, a quote or a line break; a record ends in a carriage
      return and a line feed.
    * `Reader.step` is the reader's step, `read?` its run.
    * `read?_of_spellsRecords`: what the grammar spells is read, so it spells records in
      one way. -/

namespace BillOfMaterials.Csv

/-! ## The grammar -/

/-- A field between commas. -/
inductive SpellsField : List Char → String → Prop where
  | bare {value : String} : (∀ c ∈ value.toList, c ≠ ',' ∧ c ≠ '"' ∧ c ≠ '\r' ∧ c ≠ '\n') →
      SpellsField value.toList value
  /-- Between quotes, a quote of the field is written twice. -/
  | quoted (value : String) :
      SpellsField ('"' :: (value.toList.flatMap (fun c => if c = '"' then ['"', '"'] else [c]) ++
        ['"'])) value

/-- A record with its end.  It has at least one field. -/
inductive SpellsRecord : List Char → List String → Prop where
  | last {s : List Char} {value : String} : SpellsField s value →
      SpellsRecord (s ++ ['\r', '\n']) [value]
  | cons {s rest : List Char} {value : String} {values : List String} : SpellsField s value →
      SpellsRecord rest values → SpellsRecord (s ++ ',' :: rest) (value :: values)

inductive SpellsRecords : List Char → List (List String) → Prop where
  | nil : SpellsRecords [] []
  | cons {s rest : List Char} {record : List String} {records : List (List String)} :
      SpellsRecord s record → SpellsRecords rest records →
      SpellsRecords (s ++ rest) (record :: records)

/-! ## The reader -/

/-- Where in a field the reader stands.  The characters so far are kept newest first. -/
inductive Place where
  | start
  | bare (field : List Char)
  | quoted (field : List Char)
  /-- After a quote in a quoted field: its end, or the first of two quotes. -/
  | closed (field : List Char)
  /-- After the carriage return that ends a record. -/
  | ending

/-- The field that would end here. -/
def Place.field? : Place → Option String
  | .start => some ""
  | .bare field | .closed field => some (String.ofList field.reverse)
  | .quoted _ | .ending => none

/-- Records and fields that have ended, newest first, and the place in the next field. -/
structure Reader where
  records : List (List String)
  fields : List String
  place : Place

namespace Reader

/-- A comma ends the field, a carriage return the field and the record. -/
def separate (reader : Reader) (c : Char) : Option Reader :=
  match reader.place.field? with
  | none => none
  | some field =>
    if c = ',' then some ⟨reader.records, field :: reader.fields, .start⟩
    else if c = '\r' then some ⟨reader.records, field :: reader.fields, .ending⟩
    else none

/-- A character outside quotes that is not the first quote. -/
def takeBare (reader : Reader) (field : List Char) (c : Char) : Option Reader :=
  if c = ',' ∨ c = '\r' then reader.separate c
  else if c = '"' ∨ c = '\n' then none
  else some { reader with place := .bare (c :: field) }

def step (reader : Reader) (c : Char) : Option Reader :=
  match reader.place with
  | .start => if c = '"' then some { reader with place := .quoted [] } else reader.takeBare [] c
  | .bare field => reader.takeBare field c
  | .quoted field =>
    if c = '"' then some { reader with place := .closed field }
    else some { reader with place := .quoted (c :: field) }
  | .closed field =>
    if c = '"' then some { reader with place := .quoted ('"' :: field) } else reader.separate c
  | .ending =>
    if c = '\n' then some ⟨reader.fields.reverse :: reader.records, [], .start⟩ else none

/-- The records at the end of the text.  The last one may be without an end. -/
def finish (reader : Reader) : Option (List (List String)) :=
  match reader.place, reader.fields with
  | .start, [] => some reader.records.reverse
  | place, fields =>
    place.field?.map fun field => ((field :: fields).reverse :: reader.records).reverse

end Reader

/-- The records of a text. -/
def read? (text : String) : Option (List (List String)) := do
  let reader ← text.toList.foldlM Reader.step ⟨[], [], .start⟩
  reader.finish

/-! ## What is spelled is read -/

/-- Characters of a bare field. -/
theorem foldlM_bare {s : List Char} (h : ∀ c ∈ s, c ≠ ',' ∧ c ≠ '"' ∧ c ≠ '\r' ∧ c ≠ '\n')
    (records : List (List String)) (fields : List String) (field : List Char) :
    s.foldlM Reader.step ⟨records, fields, .bare field⟩ =
      some ⟨records, fields, .bare (s.reverse ++ field)⟩ := by
  induction s generalizing field with
  | nil => rfl
  | cons c s ih =>
    obtain ⟨hcomma, hquote, hreturn, hfeed⟩ := h c List.mem_cons_self
    have hstep : Reader.step ⟨records, fields, .bare field⟩ c =
        some ⟨records, fields, .bare (c :: field)⟩ := by
      simp [Reader.step, Reader.takeBare, hcomma, hquote, hreturn, hfeed]
    rw [List.foldlM_cons, hstep, Option.bind_eq_bind, Option.bind_some,
      ih fun d hd => h d (List.mem_cons_of_mem c hd)]
    simp

/-- Characters of a quoted field, quotes written twice. -/
theorem foldlM_quoted (s : List Char) (records : List (List String)) (fields : List String)
    (field : List Char) :
    (s.flatMap fun c => if c = '"' then ['"', '"'] else [c]).foldlM Reader.step
        ⟨records, fields, .quoted field⟩ =
      some ⟨records, fields, .quoted (s.reverse ++ field)⟩ := by
  induction s generalizing field with
  | nil => rfl
  | cons c s ih =>
    have hchar : (if c = '"' then ['"', '"'] else [c]).foldlM Reader.step
        ⟨records, fields, .quoted field⟩ = some ⟨records, fields, .quoted (c :: field)⟩ := by
      by_cases hquote : c = '"'
      · simp [hquote, Reader.step]
      · simp [hquote, Reader.step]
    rw [List.flatMap_cons, List.foldlM_append, hchar, Option.bind_eq_bind, Option.bind_some, ih]
    simp

/-- After a field that is spelled the reader stands where this field would end. -/
theorem foldlM_of_spellsField {s : List Char} {value : String} (h : SpellsField s value)
    (records : List (List String)) (fields : List String) :
    ∃ place, place.field? = some value ∧
      s.foldlM Reader.step ⟨records, fields, .start⟩ = some ⟨records, fields, place⟩ := by
  cases h with
  | bare hplain =>
    -- Nothing is read of an empty field, so the reader still stands at the start of one.
    cases hlist : value.toList with
    | nil =>
      have hvalue : value = "" := String.toList_eq_nil_iff.1 hlist
      exact ⟨.start, by rw [hvalue]; rfl, rfl⟩
    | cons c rest =>
      rw [hlist] at hplain
      obtain ⟨hcomma, hquote, hreturn, hfeed⟩ := hplain c List.mem_cons_self
      have hstep : Reader.step ⟨records, fields, .start⟩ c = some ⟨records, fields, .bare [c]⟩ := by
        simp [Reader.step, Reader.takeBare, hcomma, hquote, hreturn, hfeed]
      refine ⟨.bare (rest.reverse ++ [c]), ?_, ?_⟩
      · rw [Place.field?, ← List.reverse_cons, List.reverse_reverse, ← hlist, String.ofList_toList]
      · rw [List.foldlM_cons, hstep, Option.bind_eq_bind, Option.bind_some,
          foldlM_bare fun d hd => hplain d (List.mem_cons_of_mem c hd)]
  | quoted value =>
    have hopen : Reader.step ⟨records, fields, .start⟩ '"' =
        some ⟨records, fields, .quoted []⟩ := rfl
    refine ⟨.closed value.toList.reverse, by simp [Place.field?], ?_⟩
    rw [List.foldlM_cons, hopen, Option.bind_eq_bind, Option.bind_some, List.foldlM_append,
      foldlM_quoted, List.append_nil]
    rfl

theorem step_comma {place : Place} {value : String} (h : place.field? = some value)
    (records : List (List String)) (fields : List String) :
    Reader.step ⟨records, fields, place⟩ ',' = some ⟨records, value :: fields, .start⟩ := by
  cases place <;> simp_all [Reader.step, Reader.takeBare, Reader.separate, Place.field?]

theorem step_carriageReturn {place : Place} {value : String} (h : place.field? = some value)
    (records : List (List String)) (fields : List String) :
    Reader.step ⟨records, fields, place⟩ '\r' = some ⟨records, value :: fields, .ending⟩ := by
  cases place <;> simp_all [Reader.step, Reader.takeBare, Reader.separate, Place.field?]

/-- A record is added to the records, after the fields that stand in front of it. -/
theorem foldlM_of_spellsRecord {s : List Char} {record : List String} (h : SpellsRecord s record)
    (records : List (List String)) (fields : List String) :
    s.foldlM Reader.step ⟨records, fields, .start⟩ =
      some ⟨(fields.reverse ++ record) :: records, [], .start⟩ := by
  induction h generalizing fields with
  | @last s value hfield =>
    obtain ⟨place, hplace, hrun⟩ := foldlM_of_spellsField hfield records fields
    rw [List.foldlM_append, hrun, Option.bind_eq_bind, Option.bind_some, List.foldlM_cons,
      step_carriageReturn hplace]
    simp [Reader.step]
  | @cons s rest value values hfield _ ih =>
    obtain ⟨place, hplace, hrun⟩ := foldlM_of_spellsField hfield records fields
    rw [List.foldlM_append, hrun, Option.bind_eq_bind, Option.bind_some, List.foldlM_cons,
      step_comma hplace, Option.bind_eq_bind, Option.bind_some, ih]
    simp

theorem foldlM_of_spellsRecords {s : List Char} {more : List (List String)}
    (h : SpellsRecords s more) (records : List (List String)) :
    s.foldlM Reader.step ⟨records, [], .start⟩ = some ⟨more.reverse ++ records, [], .start⟩ := by
  induction h generalizing records with
  | nil => rfl
  | cons hrecord _ ih =>
    rw [List.foldlM_append, foldlM_of_spellsRecord hrecord, Option.bind_eq_bind,
      Option.bind_some, ih]
    simp

/-- **Reading.** What the grammar spells is read. -/
theorem read?_of_spellsRecords {text : String} {records : List (List String)}
    (h : SpellsRecords text.toList records) : read? text = some records := by
  rw [read?, foldlM_of_spellsRecords h]
  simp [Reader.finish]

/-- The reader also takes a last record without an end, and refuses a bare line break. -/
example : read? "\"a\"\"\r\n\",\r\nb" = some [["a\"\r\n", ""], ["b"]] ∧ read? "a\nb" = none := by
  decide

end BillOfMaterials.Csv
