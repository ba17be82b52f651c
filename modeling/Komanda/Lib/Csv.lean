import Mathlib.Data.List.Basic

/-!
# Comma-separated values

A reader of records, character by character: fields are separated by commas and records by line feeds, and a field in
quotes may hold both, and each quote twice. Whatever is quoted or needs no quotes (`Written`) is read as it was, field
by field (`read_fields`) and record by record (`read_rows`).
-/

namespace Csv

inductive Mode
  /-- Nothing of the field has been read. -/
  | start
  | plain
  | quoted
  /-- A quote within a quoted field: its end, or the first half of a quote that is part of it. -/
  | closing
deriving DecidableEq, Repr

structure Reader where
  mode : Mode := .start
  field : List Char := []
  /-- The fields of the record that has not ended. -/
  fields : List (List Char) := []
  records : List (List (List Char)) := []
deriving DecidableEq, Repr

namespace Reader

def endField (r : Reader) : Reader := { r with mode := .start, field := [], fields := r.fields ++ [r.field] }

def endRecord (r : Reader) : Reader :=
  { r.endField with fields := [], records := r.records ++ [r.endField.fields] }

/-- A character outside of quotes. -/
def unquoted (r : Reader) (c : Char) : Reader :=
  if c = ',' then r.endField
  else if c = '\n' then r.endRecord
  else { r with mode := .plain, field := r.field ++ [c] }

def feed (r : Reader) (c : Char) : Reader :=
  match r.mode with
  | .start => if c = '"' then { r with mode := .quoted } else r.unquoted c
  | .plain => r.unquoted c
  | .quoted => if c = '"' then { r with mode := .closing } else { r with field := r.field ++ [c] }
  | .closing => if c = '"' then { r with mode := .quoted, field := r.field ++ [c] } else r.unquoted c

def read (r : Reader) (text : List Char) : Reader := text.foldl feed r

end Reader

/-- The records of a text, the last of which ends with it. -/
def read (text : List Char) : List (List (List Char)) := (Reader.read {} text).endRecord.records

/-! ## Fields -/

/-- Every quote twice. -/
def doubled (value : List Char) : List Char := value.flatMap fun c => if c = '"' then ['"', '"'] else [c]

def quoted (value : List Char) : List Char := '"' :: doubled value ++ ['"']

/-- What needs no quotes. -/
def Plain (value : List Char) : Prop := ∀ c ∈ value, c ≠ '"' ∧ c ≠ ',' ∧ c ≠ '\n'

instance (value : List Char) : Decidable (Plain value) :=
  inferInstanceAs (Decidable (∀ c ∈ value, c ≠ '"' ∧ c ≠ ',' ∧ c ≠ '\n'))

/-- The texts that are read as a value. -/
inductive Written : List Char → List Char → Prop
  | plain {value : List Char} (h : Plain value) : Written value value
  | quoted (value : List Char) : Written value (quoted value)

section Reading
variable {r : Reader} {value text : List Char} {values texts : List (List Char)}
open Reader

theorem read_append (r : Reader) (p q : List Char) : r.read (p ++ q) = (r.read p).read q := List.foldl_append

theorem doubled_of_plain (h : ∀ c ∈ value, c ≠ '"') : doubled value = value := by
  induction value with
  | nil => rfl
  | cons c value ih =>
    obtain ⟨hc, h⟩ := List.forall_mem_cons.1 h
    rw [doubled, List.flatMap_cons, if_neg hc]
    exact congrArg (c :: ·) (ih h)

/-- Within quotes the text of a value is read as the value. -/
theorem read_doubled (hmode : r.mode = .quoted) : r.read (doubled value) = { r with field := r.field ++ value } := by
  induction value generalizing r with
  | nil => rw [List.append_nil]; rfl
  | cons c value ih =>
    have hstep : r.read (if c = '"' then ['"', '"'] else [c]) = { r with field := r.field ++ [c] } := by
      by_cases hc : c = '"'
      · simp [Reader.read, feed, hmode, hc]
      · simp [Reader.read, feed, hmode, hc]
    rw [doubled, List.flatMap_cons, read_append, hstep]
    refine (ih (r := { r with field := r.field ++ [c] }) hmode).trans ?_
    rw [List.append_assoc, List.singleton_append]

theorem read_plain (h : Plain value) (hmode : r.mode = .plain) :
    r.read value = { r with field := r.field ++ value } := by
  induction value generalizing r with
  | nil => rw [List.append_nil]; rfl
  | cons c value ih =>
    obtain ⟨⟨-, hcomma, hline⟩, h⟩ := List.forall_mem_cons.1 h
    have hstep : r.feed c = { r with field := r.field ++ [c] } := by
      simp [feed, unquoted, hmode, hcomma, hline]
    change (r.feed c).read value = _
    rw [hstep, ih (r := { r with field := r.field ++ [c] }) h hmode, List.append_assoc, List.singleton_append]

/-- A reader that has read a field, and nothing behind it. -/
structure Reader.Holds (r' r : Reader) (value : List Char) : Prop where
  mode : r'.mode ≠ .quoted
  field : r'.field = r.field ++ value
  fields : r'.fields = r.fields
  records : r'.records = r.records

theorem read_written (h : Written value text) (hmode : r.mode = .start) : (r.read text).Holds r value := by
  cases h with
  | plain h =>
    cases value with
    | nil => exact ⟨by simp [Reader.read, hmode], (List.append_nil _).symm, rfl, rfl⟩
    | cons c value =>
      obtain ⟨⟨hquote, hcomma, hline⟩, h⟩ := List.forall_mem_cons.1 h
      have hstep : r.feed c = { r with mode := .plain, field := r.field ++ [c] } := by
        simp [feed, unquoted, hmode, hquote, hcomma, hline]
      change ((r.feed c).read value).Holds r (c :: value)
      rw [hstep, read_plain h rfl]
      exact ⟨by simp, by simp, rfl, rfl⟩
  | quoted =>
    have hopen : r.feed '"' = { r with mode := .quoted } := by simp [feed, hmode]
    have hclose : (Reader.mk .quoted (r.field ++ value) r.fields r.records).read ['"'] =
        ⟨.closing, r.field ++ value, r.fields, r.records⟩ := rfl
    change ((r.feed '"').read (doubled value ++ ['"'])).Holds r value
    rw [hopen, read_append, read_doubled rfl]
    dsimp only
    rw [hclose]
    exact ⟨by simp, rfl, rfl, rfl⟩

/-! ## Records -/

/-- A reader between two fields. -/
structure Reader.Ready (r : Reader) : Prop where
  mode : r.mode = .start
  field : r.field = []

theorem Reader.Holds.feed_comma {r' : Reader} (h : r'.Holds r value) (hr : r.Ready) :
    r'.feed ',' = { r with fields := r.fields ++ [value] } := by
  have hend : r'.feed ',' = r'.endField := by
    obtain ⟨hmode, -, -, -⟩ := h
    cases hm : r'.mode <;> simp_all [feed, unquoted]
  rw [hend, endField, h.field, h.fields, h.records, hr.field, List.nil_append, ← hr.mode, ← hr.field]

theorem Reader.Holds.endRecord {r' : Reader} (h : r'.Holds r value) (hr : r.Ready) :
    r'.endRecord = { r with fields := [], records := r.records ++ [r.fields ++ [value]] } := by
  rw [Reader.endRecord, endField, h.field, h.fields, h.records, hr.field, List.nil_append, ← hr.mode, ← hr.field]

theorem Reader.Holds.feed_line {r' : Reader} (h : r'.Holds r value) : r'.feed '\n' = r'.endRecord := by
  obtain ⟨hmode, -, -, -⟩ := h
  cases hm : r'.mode <;> simp_all [feed, unquoted]

/-- A record with at least one field, up to the last of them. -/
theorem read_fields (h : List.Forall₂ Written values texts) (hne : values ≠ []) (hr : r.Ready) :
    ∃ last, (r.read ([','].intercalate texts)).Holds { r with fields := r.fields ++ values.dropLast } last ∧
      values.dropLast ++ [last] = values := by
  induction h generalizing r with
  | nil => exact absurd rfl hne
  | @cons value text values texts hvalue hrest ih =>
    have hread := read_written hvalue hr.mode
    cases hrest with
    | nil =>
      refine ⟨value, ?_, rfl⟩
      rw [List.intercalate_singleton, List.dropLast_singleton, List.append_nil]
      exact hread
    | cons hvalue' hrest' =>
      rw [List.intercalate_cons_cons, read_append, read_append]
      have hcomma : (r.read text).read [','] = { r with fields := r.fields ++ [value] } := hread.feed_comma hr
      rw [hcomma]
      obtain ⟨last, hlast, heq⟩ := ih (List.cons_ne_nil _ _) (r := { r with fields := r.fields ++ [value] })
        ⟨hr.mode, hr.field⟩
      refine ⟨last, ?_, ?_⟩
      · rw [List.dropLast_cons_cons, List.append_cons r.fields value (List.dropLast _)]
        exact hlast
      · rw [List.dropLast_cons_cons, List.cons_append, heq]

theorem read_record (h : List.Forall₂ Written values texts) (hne : values ≠ []) (hr : r.Ready)
    (hfields : r.fields = []) : (r.read ([','].intercalate texts)).endRecord =
      { r with records := r.records ++ [values] } := by
  obtain ⟨last, hlast, heq⟩ := read_fields h hne hr
  rw [hlast.endRecord ⟨hr.mode, hr.field⟩]
  simp [hfields, heq]

end Reading

/-- Rows of fields, each written in one of its ways. -/
theorem read_rows {rows texts : List (List (List Char))} (h : List.Forall₂ (List.Forall₂ Written) rows texts)
    (hne : ∀ row ∈ rows, row ≠ []) (hrows : rows ≠ []) :
    read (['\n'].intercalate (texts.map ([','].intercalate ·))) = rows := by
  suffices ∀ r : Reader, r.Ready → r.fields = [] →
      (r.read (['\n'].intercalate (texts.map ([','].intercalate ·)))).endRecord =
        { r with records := r.records ++ rows } by
    rw [read, this {} ⟨rfl, rfl⟩ rfl]
    rfl
  induction h with
  | nil => exact absurd rfl hrows
  | @cons row text rows texts hrow hrest ih =>
    intro r hr hfields
    obtain ⟨hrowne, hne⟩ := List.forall_mem_cons.1 hne
    have hrecord := read_record hrow hrowne hr hfields
    cases hrest with
    | nil =>
      rw [List.map_singleton, List.intercalate_singleton]
      exact hrecord
    | cons hrow' hrest' =>
      obtain ⟨last, hlast, -⟩ := read_fields hrow hrowne hr
      rw [List.map_cons, List.map_cons, List.intercalate_cons_cons, read_append, read_append]
      have hline : (r.read ([','].intercalate text)).read ['\n'] = { r with records := r.records ++ [row] } :=
        hlast.feed_line.trans hrecord
      rw [hline]
      let next : Reader := { r with records := r.records ++ [row] }
      refine (ih hne (List.cons_ne_nil _ _) next ⟨hr.mode, hr.field⟩ hfields).trans ?_
      rw [List.append_assoc, List.singleton_append]

end Csv
