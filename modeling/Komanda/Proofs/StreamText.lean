import Komanda.Proofs.LiveOrders
import Komanda.StreamText

/-!
# What the browser makes of the text

The text of a block is that of its fields, and JSON has no line breaks, so a cut of the text is a cut between blocks:
what has arrived of a response means the blocks of it that are complete (`stream_cut`), and these are what
`LiveStep.read` reads.
-/

namespace Komanda
open Json EventStream

/-! ## Fields -/

/-- The fields that a block consists of. -/
def StreamBlock.fields (columns : OrderEventView → EventColumns) : StreamBlock → Fields
  | .message (.order id data) =>
    [("id".toList, id.toList), ("event".toList, "order".toList), ("data".toList, (eventValue columns data).text)]
  | .message (.reset reason headSequence) =>
    [("event".toList, "reset".toList), ("data".toList, (resetValue reason headSequence).text)]
  | .message (.retry milliseconds) => [("retry".toList, (toString milliseconds).toList)]
  | .heartbeat now => [([], "heartbeat ".toList ++ (toString now).toList)]

section Fields
variable {columns : OrderEventView → EventColumns} {block : StreamBlock} {blocks : List StreamBlock} {r : Reader}

theorem StreamBlock.text_eq (columns : OrderEventView → EventColumns) (block : StreamBlock) :
    block.text columns = (block.fields columns).text := by
  cases block with
  | heartbeat now =>
    unfold StreamBlock.text StreamBlock.fields
    dsimp only
    generalize toString now = numeral
    simp [Fields.text, lineText]
  | message m =>
    cases m with
    | retry milliseconds =>
      unfold StreamBlock.text StreamBlock.fields
      dsimp only
      generalize toString milliseconds = numeral
      simp [Fields.text, lineText]
    | order id data =>
      unfold StreamBlock.text StreamBlock.fields
      dsimp only
      generalize (eventValue columns data).text = json
      simp [Fields.text, lineText]
    | reset reason headSequence =>
      unfold StreamBlock.text StreamBlock.fields
      dsimp only
      generalize (resetValue reason headSequence).text = json
      simp [Fields.text, lineText]

theorem numeral_plain (n : Nat) : ∀ c ∈ (toString n).toList, c ≠ '\n' ∧ c ≠ '\r' ∧ c ≠ Char.ofNat 0 := by
  intro c hc
  have hlist : (toString n).toList = Nat.toDigits 10 n := Nat.toList_repr
  rw [hlist] at hc
  have hdigit : c.isDigit = true := Nat.isDigit_of_mem_toDigits (by decide) (by decide) hc
  refine ⟨?_, ?_, ?_⟩ <;> rintro rfl <;> exact absurd hdigit (by decide)

theorem StreamBlock.Proper.plain (h : block.Proper) : (block.fields columns).Plain := by
  match block, h with
  | .message (.order _ data), ⟨n, rfl, _⟩ =>
    refine ⟨?_, List.forall_mem_cons.2 ⟨fun c hc => ?_, ?_⟩⟩
    · simp [StreamBlock.fields]
    · exact ⟨(numeral_plain n c hc).1, (numeral_plain n c hc).2.1⟩
    · exact List.forall_mem_cons.2 ⟨by simp, List.forall_mem_singleton.2 (Value.text_line _)⟩
  | .message (.retry m), _ =>
    refine ⟨?_, List.forall_mem_singleton.2 fun c hc => ?_⟩
    · simp [StreamBlock.fields]
    · exact ⟨(numeral_plain m c hc).1, (numeral_plain m c hc).2.1⟩
  | .heartbeat now, _ =>
    refine ⟨?_, List.forall_mem_singleton.2 (List.forall_mem_append.2 ⟨by simp, fun c hc => ?_⟩)⟩
    · simp [StreamBlock.fields]
    · exact ⟨(numeral_plain now c hc).1, (numeral_plain now c hc).2.1⟩

/-- What the listener is given for an order. -/
def messageOf (columns : OrderEventView → EventColumns) (order : String × OrderEventView) : Event where
  type := "order"
  data := String.ofList (eventValue columns order.2).text
  lastEventId := order.1

/-- The reader keeps the id that it would send. -/
structure Resumes (r : Reader) : Prop where
  ready : r.Ready
  id : String.ofList r.id = r.lastEventId

/-- The id after these orders. -/
def idAfter (orders : List (String × OrderEventView)) (lastEventId : String) : String :=
  (orders.getLast?.map (·.1)).getD lastEventId

theorem apply_block (h : block.Proper) (hr : Resumes r) : Resumes ((block.fields columns).apply r) ∧
    ((block.fields columns).apply r).dispatched = r.dispatched ++ (ordersIn [block]).map (messageOf columns) ∧
    ((block.fields columns).apply r).lastEventId = idAfter (ordersIn [block]) r.lastEventId := by
  obtain ⟨⟨hl, ha, hd, ht⟩, hid⟩ := hr
  obtain ⟨line, afterReturn, data, type, id, lastEventId, dispatched⟩ := r
  dsimp only at hl ha hd ht hid
  subst hl ha hd ht hid
  match block, h with
  | .message (.order _ data), ⟨n, rfl, _⟩ =>
    have hplain := numeral_plain n
    generalize toString n = numeral at hplain
    generalize hjson : (eventValue columns data).text = json
    have hzero : Char.ofNat 0 ∉ numeral.toList := fun hc => (hplain _ hc).2.2 rfl
    have happly : (StreamBlock.fields columns (.message (.order numeral data))).apply
        { id, lastEventId := String.ofList id, dispatched } =
          { id := numeral.toList
            lastEventId := numeral
            dispatched := dispatched ++ [messageOf columns (numeral, data)] } := by
      rw [StreamBlock.fields, messageOf, hjson]
      simp [Fields.apply, Reader.field, hzero, Reader.dispatch]
    rw [happly]
    exact ⟨⟨⟨rfl, rfl, rfl, rfl⟩, by simp⟩, rfl, rfl⟩
  | .message (.retry m), _ =>
    exact ⟨⟨⟨rfl, rfl, rfl, rfl⟩, rfl⟩, (List.append_nil _).symm, rfl⟩
  | .heartbeat now, _ =>
    exact ⟨⟨⟨rfl, rfl, rfl, rfl⟩, rfl⟩, (List.append_nil _).symm, rfl⟩

theorem foldl_apply (h : ∀ block ∈ blocks, block.Proper) (hr : Resumes r) :
    let r' := (blocks.map (StreamBlock.fields columns)).foldl (fun r fs => fs.apply r) r
    r'.dispatched = r.dispatched ++ (ordersIn blocks).map (messageOf columns) ∧
      r'.lastEventId = idAfter (ordersIn blocks) r.lastEventId := by
  induction blocks generalizing r with
  | nil => exact ⟨(List.append_nil _).symm, rfl⟩
  | cons block blocks ih =>
    obtain ⟨hblock, hblocks⟩ := List.forall_mem_cons.1 h
    obtain ⟨hkeeps, hd, hi⟩ := apply_block hblock hr
    obtain ⟨hd', hi'⟩ := ih hblocks hkeeps
    rw [List.map_cons, List.foldl_cons, ← List.singleton_append, ordersIn_append]
    refine ⟨?_, ?_⟩
    · rw [hd', hd, List.map_append, List.append_assoc]
    · rw [hi', hi, idAfter, idAfter, idAfter, List.getLast?_append]
      cases (ordersIn blocks).getLast? <;> rfl

theorem heard_messages (orders : List (String × OrderEventView)) :
    heard (orders.map (messageOf columns)) = orders.map (messageOf columns) := by
  refine List.filter_eq_self.2 (List.forall_mem_map.2 fun o _ => ?_)
  simp [messageOf]

/-- Of a text of blocks that is cut anywhere, the browser has the blocks that are complete. -/
theorem read_blocks (h : ∀ block ∈ blocks, block.Proper) (lastEventId : String) {arrived : List Char}
    (hp : arrived <+: streamText columns blocks) : ∃ m, m ≤ blocks.length ∧
      streamText columns (blocks.take m) <+: arrived ∧
      (m < blocks.length → arrived.length < (streamText columns (blocks.take (m + 1))).length) ∧
      heard ((Reader.resume lastEventId).read arrived).dispatched =
        (ordersIn (blocks.take m)).map (messageOf columns) ∧
      ((Reader.resume lastEventId).read arrived).lastEventId = idAfter (ordersIn (blocks.take m)) lastEventId := by
  have htext (l : List StreamBlock) : streamText columns l = (l.map (StreamBlock.fields columns)).flatMap Fields.text := by
    rw [streamText, List.flatMap_map]
    exact congrArg (l.flatMap ·) (funext fun block => block.text_eq columns)
  have hplain : ∀ fs ∈ blocks.map (StreamBlock.fields columns), fs.Plain :=
    List.forall_mem_map.2 fun block hb => (h block hb).plain
  have hkeeps : Resumes (Reader.resume lastEventId) := ⟨⟨rfl, rfl, rfl, rfl⟩, String.ofList_toList⟩
  rw [htext] at hp
  obtain ⟨m, hle, hcomplete, hcut, hd, hi⟩ := read_cut hplain hkeeps.ready hp
  rw [List.length_map] at hle hcut
  rw [← List.map_take, ← htext] at hcomplete
  rw [← List.map_take] at hd hi
  have hcut' (hm : m < blocks.length) : arrived.length < (streamText columns (blocks.take (m + 1))).length := by
    have hlt := hcut hm
    rwa [← List.map_take, ← htext] at hlt
  have hproper : ∀ block ∈ blocks.take m, block.Proper := fun block hb => h block (List.mem_of_mem_take hb)
  obtain ⟨hd', hi'⟩ := foldl_apply hproper hkeeps
  exact ⟨m, hle, hcomplete, hcut', (congrArg heard (hd.trans hd')).trans (heard_messages _), hi.trans hi'⟩

end Fields

/-- Whatever part of a response has arrived, the dashboard hears the orders of its complete blocks, each with its
sequence as the id, and would go on from the last of them. -/
theorem stream_cut (columns : OrderEventView → EventColumns) (tenantId lastEventId : String) {es : List LiveStep}
    {s : LiveSession} (h : Runs.exec liveStep (LiveSession.start tenantId) es = some s) {c : Connection}
    (hc : s.connection = some c) {arrived : List Char} (hp : arrived <+: streamText columns c.stream.written) :
    ∃ m, m ≤ c.stream.written.length ∧ streamText columns (c.stream.written.take m) <+: arrived ∧
      (m < c.stream.written.length → arrived.length < (streamText columns (c.stream.written.take (m + 1))).length) ∧
      heard ((Reader.resume lastEventId).read arrived).dispatched =
        (ordersIn (c.stream.written.take m)).map (messageOf columns) ∧
      ((Reader.resume lastEventId).read arrived).lastEventId =
        idAfter (ordersIn (c.stream.written.take m)) lastEventId := by
  obtain ⟨_, _, hconnection⟩ := ((LiveSession.Inv.start tenantId).run h).client
  obtain ⟨-, rows, hat⟩ := hconnection c hc
  exact read_blocks hat.proper lastEventId hp

namespace Demo

def columns (event : OrderEventView) : EventColumns where
  id := event.orderId
  metadata := .null
  occurredAt := "2025-01-01T00:00:00.000Z"

end Demo

open Demo in
theorem stream_cut_broken : ∃ s c, Runs.exec liveStep (LiveSession.start "tenant") broken = some s ∧
    s.connection = some c ∧ ∃ m, m ≤ c.stream.written.length ∧
      heard ((Reader.resume "1").read ((streamText columns c.stream.written).take 40)).dispatched =
        (ordersIn (c.stream.written.take m)).map (messageOf columns) := by
  have hopen : ((Runs.exec liveStep (LiveSession.start "tenant") broken).bind (·.connection)).isSome = true := by
    decide +kernel
  obtain ⟨c, hbind⟩ := Option.isSome_iff_exists.1 hopen
  obtain ⟨s, hr, hc⟩ := Option.bind_eq_some_iff.1 hbind
  obtain ⟨m, hle, -, -, hheard, -⟩ := stream_cut columns "tenant" "1" hr hc (List.take_prefix 40 _)
  exact ⟨s, c, hr, hc, m, hle, hheard⟩

end Komanda
