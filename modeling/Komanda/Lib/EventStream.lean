import Mathlib.Data.List.Basic
import Mathlib.Data.List.TakeDrop

/-!
# Event streams

A reader of `text/event-stream`, character by character: lines that end with a line feed, a carriage return or both,
fields that are collected, and the blank line that dispatches them. `Fields` are blocks as a server writes them, one
field in a line. Wherever the text is cut, a reader has dispatched the blocks that are complete, and nothing of the one
that is not (`read_cut`).
-/

namespace EventStream

structure Event where
  type : String
  data : String
  lastEventId : String
deriving DecidableEq, Repr

structure Reader where
  /-- The line that has not ended. -/
  line : List Char := []
  /-- The last character was a carriage return. -/
  afterReturn : Bool := false
  data : List Char := []
  type : List Char := []
  id : List Char := []
  /-- The id that is sent when the stream is opened again. -/
  lastEventId : String := ""
  dispatched : List Event := []
deriving DecidableEq, Repr

namespace Reader

/-- A reader that starts with the id of another stream. -/
def resume (lastEventId : String) : Reader where
  id := lastEventId.toList
  lastEventId

def field (name value : List Char) (r : Reader) : Reader :=
  if name = "event".toList then { r with type := value }
  else if name = "data".toList then { r with data := r.data ++ value ++ ['\n'] }
  else if name = "id".toList then if value.contains (Char.ofNat 0) then r else { r with id := value }
  else r -- `retry` sets the time to wait before the next stream

/-- The blank line: without data there is no event. -/
def dispatch (r : Reader) : Reader :=
  let lastEventId := String.ofList r.id
  if r.data = [] then { r with lastEventId, type := [] }
  else
    let type := if r.type = [] then "message" else String.ofList r.type
    let event : Event := { type, data := String.ofList r.data.dropLast, lastEventId }
    { r with lastEventId, data := [], type := [], dispatched := r.dispatched ++ [event] }

/-- One blank behind the colon is no part of the value. -/
def valueOf (rest : List Char) : List Char :=
  match rest with
  | ' ' :: value => value
  | value => value

def processLine (line : List Char) (r : Reader) : Reader :=
  match line with
  | [] => r.dispatch
  | ':' :: _ => r
  | line =>
    match line.dropWhile (· ≠ ':') with
    | [] => r.field line []
    | _ :: rest => r.field (line.takeWhile (· ≠ ':')) (valueOf rest)

def endLine (r : Reader) : Reader := processLine r.line { r with line := [] }

def feed (r : Reader) (c : Char) : Reader :=
  if c = '\n' then if r.afterReturn then { r with afterReturn := false } else r.endLine
  else if c = '\r' then { r.endLine with afterReturn := true }
  else { r with afterReturn := false, line := r.line ++ [c] }

def read (r : Reader) (text : List Char) : Reader := text.foldl feed r

end Reader

/-! ## Blocks -/

/-- The fields of a block, each with its value; one without a name is a comment. -/
abbrev Fields := List (List Char × List Char)

def lineText (f : List Char × List Char) : List Char := f.1 ++ ':' :: ' ' :: f.2

def Fields.text (fs : Fields) : List Char := (fs.flatMap fun f => lineText f ++ ['\n']) ++ ['\n']

/-- Names have no colon, and nothing ends a line but its end. -/
structure Fields.Plain (fs : Fields) : Prop where
  name : ∀ f ∈ fs, ∀ c ∈ f.1, c ≠ ':' ∧ c ≠ '\n' ∧ c ≠ '\r'
  value : ∀ f ∈ fs, ∀ c ∈ f.2, c ≠ '\n' ∧ c ≠ '\r'

/-- What a block does to a reader that is between two blocks. -/
def Fields.apply (fs : Fields) (r : Reader) : Reader := (fs.foldl (fun r f => r.field f.1 f.2) r).dispatch

/-- The reader is between two blocks. -/
structure Reader.Ready (r : Reader) : Prop where
  line : r.line = []
  afterReturn : r.afterReturn = false
  data : r.data = []
  type : r.type = []

section Blocks
variable {r r' : Reader} {fs : Fields} {f : List Char × List Char} {text p : List Char}
open Reader

theorem read_append (r : Reader) (p q : List Char) : r.read (p ++ q) = (r.read p).read q := List.foldl_append

/-- Characters within a line. -/
theorem read_plain (h : ∀ c ∈ text, c ≠ '\n' ∧ c ≠ '\r') (ha : r.afterReturn = false) :
    r.read text = { r with line := r.line ++ text } := by
  induction text generalizing r with
  | nil => simp [Reader.read]
  | cons c text ih =>
    obtain ⟨⟨hn, hr⟩, h⟩ := List.forall_mem_cons.1 h
    have hfeed : r.feed c = { r with line := r.line ++ [c] } := by
      rw [feed, if_neg hn, if_neg hr, ← ha]
    rw [Reader.read, List.foldl_cons, hfeed]
    refine (ih h ?_).trans ?_
    · exact ha
    · simp

theorem lineText_plain (hname : ∀ c ∈ f.1, c ≠ ':' ∧ c ≠ '\n' ∧ c ≠ '\r') (hvalue : ∀ c ∈ f.2, c ≠ '\n' ∧ c ≠ '\r') :
    ∀ c ∈ lineText f, c ≠ '\n' ∧ c ≠ '\r' := by
  refine List.forall_mem_append.2 ⟨fun c hc => (hname c hc).2, ?_⟩
  exact List.forall_mem_cons.2 ⟨by decide, List.forall_mem_cons.2 ⟨by decide, hvalue⟩⟩

theorem processLine_lineText (hname : ∀ c ∈ f.1, c ≠ ':' ∧ c ≠ '\n' ∧ c ≠ '\r') (r : Reader) :
    r.processLine (lineText f) = r.field f.1 f.2 := by
  obtain ⟨name, value⟩ := f
  cases name with
  | nil => rfl
  | cons c name =>
    have hplain : ∀ d ∈ c :: name, decide (d ≠ ':') = true := fun d hd => decide_eq_true (hname d hd).1
    have htake : (lineText (c :: name, value)).takeWhile (· ≠ ':') = c :: name := by
      rw [lineText, List.takeWhile_append_of_pos hplain]
      simp
    have hdrop : (lineText (c :: name, value)).dropWhile (· ≠ ':') = ':' :: ' ' :: value := by
      rw [lineText, List.dropWhile_append_of_pos hplain]
      simp
    have hc : c ≠ ':' := (hname c List.mem_cons_self).1
    have hline : lineText (c :: name, value) = c :: (name ++ ':' :: ' ' :: value) := rfl
    unfold processLine
    split
    · next heq => rw [hline] at heq; cases heq
    · next heq =>
      rw [hline] at heq
      exact absurd (List.cons.inj heq).1 hc
    · rw [hdrop]
      dsimp only
      rw [htake]
      rfl

/-- A whole line. -/
theorem read_line (hname : ∀ c ∈ f.1, c ≠ ':' ∧ c ≠ '\n' ∧ c ≠ '\r') (hvalue : ∀ c ∈ f.2, c ≠ '\n' ∧ c ≠ '\r')
    (hl : r.line = []) (ha : r.afterReturn = false) : r.read (lineText f ++ ['\n']) = r.field f.1 f.2 := by
  rw [read_append, read_plain (lineText_plain hname hvalue) ha]
  show Reader.feed _ '\n' = _
  rw [feed, if_pos rfl, if_neg (by simp [ha]), endLine, hl, List.nil_append, processLine_lineText hname]
  congr 1
  rw [← hl]

theorem line_field (name value : List Char) (r : Reader) :
    (r.field name value).line = r.line ∧ (r.field name value).afterReturn = r.afterReturn ∧
      (r.field name value).dispatched = r.dispatched ∧ (r.field name value).lastEventId = r.lastEventId := by
  unfold field
  repeat' split
  all_goals exact ⟨rfl, rfl, rfl, rfl⟩

/-- The lines of a block. -/
theorem read_fields (h : fs.Plain) (hl : r.line = []) (ha : r.afterReturn = false) :
    r.read (fs.flatMap fun f => lineText f ++ ['\n']) = fs.foldl (fun r f => r.field f.1 f.2) r := by
  induction fs generalizing r with
  | nil => rfl
  | cons f fs ih =>
    obtain ⟨hname, hnames⟩ := List.forall_mem_cons.1 h.name
    obtain ⟨hvalue, hvalues⟩ := List.forall_mem_cons.1 h.value
    obtain ⟨hl', ha', -⟩ := line_field f.1 f.2 r
    rw [List.flatMap_cons, read_append, read_line hname hvalue hl ha, List.foldl_cons]
    exact ih ⟨hnames, hvalues⟩ (hl'.trans hl) (ha'.trans ha)

theorem foldl_field (fs : Fields) (r : Reader) :
    (fs.foldl (fun r f => r.field f.1 f.2) r).line = r.line ∧
      (fs.foldl (fun r f => r.field f.1 f.2) r).afterReturn = r.afterReturn ∧
      (fs.foldl (fun r f => r.field f.1 f.2) r).dispatched = r.dispatched ∧
      (fs.foldl (fun r f => r.field f.1 f.2) r).lastEventId = r.lastEventId := by
  induction fs generalizing r with
  | nil => exact ⟨rfl, rfl, rfl, rfl⟩
  | cons f fs ih =>
    obtain ⟨hl, ha, hd, hi⟩ := line_field f.1 f.2 r
    obtain ⟨hl', ha', hd', hi'⟩ := ih (r.field f.1 f.2)
    exact ⟨hl'.trans hl, ha'.trans ha, hd'.trans hd, hi'.trans hi⟩

theorem Reader.Ready.dispatch (h : r.line = []) (ha : r.afterReturn = false) : r.dispatch.Ready := by
  unfold Reader.dispatch
  dsimp only
  split
  · next hd => exact ⟨h, ha, hd, rfl⟩
  · exact ⟨h, ha, rfl, rfl⟩

/-- A whole block. -/
theorem read_block (h : fs.Plain) (hr : r.Ready) : r.read fs.text = fs.apply r ∧ (fs.apply r).Ready := by
  obtain ⟨hl, ha, -, -⟩ := foldl_field fs r
  have hl := hl.trans hr.line
  have ha := ha.trans hr.afterReturn
  refine ⟨?_, .dispatch hl ha⟩
  rw [Fields.text, read_append, read_fields h hr.line hr.afterReturn]
  show Reader.feed _ '\n' = _
  rw [feed, if_pos rfl, if_neg (by simp [ha]), endLine, hl, Fields.apply]
  generalize fs.foldl (fun r f => r.field f.1 f.2) r = r' at hl
  show Reader.dispatch { r' with line := [] } = _
  rw [← hl]

/-! ## Cuts -/

/-- A beginning of `a ++ b` is one of `a`, or goes on in `b`. -/
theorem prefix_append_cases {a b : List Char} (h : p <+: a ++ b) :
    (p <+: a ∧ p.length < a.length) ∨ ∃ q, p = a ++ q ∧ q <+: b := by
  by_cases hlt : p.length < a.length
  · exact .inl ⟨List.prefix_of_prefix_length_le h (List.prefix_append a b) (Nat.le_of_lt hlt), hlt⟩
  · obtain ⟨q, rfl⟩ := List.prefix_of_prefix_length_le (List.prefix_append a b) h (Nat.le_of_not_lt hlt)
    exact .inr ⟨q, rfl, (List.prefix_append_right_inj a).1 h⟩

/-- Before the blank line nothing is dispatched. -/
theorem read_within (h : fs.Plain) (hl : r.line = []) (ha : r.afterReturn = false) (hp : p <+: fs.text)
    (hlt : p.length < fs.text.length) :
    (r.read p).dispatched = r.dispatched ∧ (r.read p).lastEventId = r.lastEventId := by
  induction fs generalizing r p with
  | nil =>
    have hnil : p = [] := List.length_eq_zero_iff.1 (Nat.lt_one_iff.1 hlt)
    rw [hnil]
    exact ⟨rfl, rfl⟩
  | cons f fs ih =>
    obtain ⟨hname, hnames⟩ := List.forall_mem_cons.1 h.name
    obtain ⟨hvalue, hvalues⟩ := List.forall_mem_cons.1 h.value
    have htext : Fields.text (f :: fs) = lineText f ++ '
' :: Fields.text fs := by
      simp [Fields.text]
    rw [htext] at hp hlt
    rcases prefix_append_cases hp with ⟨hp, -⟩ | ⟨q, rfl, hq⟩
    · rw [read_plain (fun c hc => lineText_plain hname hvalue c (hp.subset hc)) ha]
      exact ⟨rfl, rfl⟩
    · cases q with
      | nil =>
        rw [List.append_nil, read_plain (lineText_plain hname hvalue) ha]
        exact ⟨rfl, rfl⟩
      | cons c q =>
        obtain ⟨rfl, hrest⟩ := List.cons_prefix_cons.1 hq
        obtain ⟨hl', ha', hd, hi⟩ := line_field f.1 f.2 r
        have hshorter : q.length < (Fields.text fs).length := by
          simp only [List.length_append, List.length_cons] at hlt
          omega
        obtain ⟨hdispatched, hid⟩ := ih ⟨hnames, hvalues⟩ (hl'.trans hl) (ha'.trans ha) hrest hshorter
        rw [show lineText f ++ '
' :: q = (lineText f ++ ['
']) ++ q by simp, read_append,
          read_line hname hvalue hl ha]
        exact ⟨hdispatched.trans hd, hid.trans hi⟩

/-- The text of blocks, cut anywhere: the first `m` of them are complete, and they are what the reader has got. -/
structure Cut (r : Reader) (blocks : List Fields) (p : List Char) (m : Nat) : Prop where
  le : m ≤ blocks.length
  complete : (blocks.take m).flatMap Fields.text <+: p
  cut : m < blocks.length → p.length < ((blocks.take (m + 1)).flatMap Fields.text).length
  dispatched : (r.read p).dispatched = ((blocks.take m).foldl (fun r fs => fs.apply r) r).dispatched
  lastEventId : (r.read p).lastEventId = ((blocks.take m).foldl (fun r fs => fs.apply r) r).lastEventId

theorem read_cut {blocks : List Fields} (h : ∀ fs ∈ blocks, fs.Plain) (hr : r.Ready)
    (hp : p <+: blocks.flatMap Fields.text) : ∃ m, Cut r blocks p m := by
  induction blocks generalizing r p with
  | nil =>
    have hnil : p = [] := List.prefix_nil.1 hp
    exact ⟨0, Nat.le_refl _, by simp, fun hlt => absurd hlt (by simp), by rw [hnil]; rfl, by rw [hnil]; rfl⟩
  | cons fs blocks ih =>
    obtain ⟨hfs, hblocks⟩ := List.forall_mem_cons.1 h
    rw [List.flatMap_cons] at hp
    rcases prefix_append_cases hp with ⟨hp, hlt⟩ | ⟨q, rfl, hq⟩
    · obtain ⟨hd, hi⟩ := read_within hfs hr.line hr.afterReturn hp hlt
      exact ⟨0, Nat.zero_le _, List.nil_prefix, fun _ => by simpa using hlt, hd, hi⟩
    · obtain ⟨hread, hready⟩ := read_block hfs hr
      obtain ⟨m, hle, hcomplete, hwithin, hd, hi⟩ := ih hblocks hready hq
      have happend : r.read (fs.text ++ q) = (fs.apply r).read q := by rw [read_append, hread]
      refine ⟨m + 1, Nat.succ_le_succ hle, ?_, fun hlt => ?_, ?_, ?_⟩
      · rw [List.take_succ_cons, List.flatMap_cons]
        exact (List.prefix_append_right_inj _).2 hcomplete
      · rw [List.take_succ_cons, List.flatMap_cons, List.length_append, List.length_append]
        exact Nat.add_lt_add_left (hwithin (Nat.lt_of_succ_lt_succ hlt)) _
      · rw [happend, List.take_succ_cons, List.foldl_cons, hd]
      · rw [happend, List.take_succ_cons, List.foldl_cons, hi]

end Blocks

end EventStream
