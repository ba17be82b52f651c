import Komanda.OrderStream
import Komanda.Proofs.EventFeed

/-!
# What a live stream delivers

The calls of `sendEvents` share a cursor that each of them moves while it sends. A call whose answer comes when
the cursor is where it asked goes on with the next events of the log; one that another call has overtaken sends events
again. So a connection delivers each event once as long as every answer that holds events meets the cursor that it was
asked with.
-/

namespace Komanda
open NumberedLog OrderQueryService OrderRepository OrderStream StreamSession

/-! ## The law -/

/-- `BigInt(id)` -/
def eventNumber (id : String) : Nat := Nat.ofDigitChars 10 id.toList 0

/-- The ids of the events that have been emitted. -/
def OrderStream.sentIds (st : OrderStream) : List String :=
  st.messages.filterMap fun message =>
    match message with
    | .order id _ => some id
    | _ => none

/-- What holds of what a connection has emitted. -/
structure StreamsOnce (s : StreamSession) : Prop where
  increasing : (s.stream.sentIds.map eventNumber).Pairwise fun m n => m < n
  complete : ∀ start ∈ s.stream.start, ∀ e ∈ s.writes.tables.log s.stream.tenantId, start < e.number →
    ∀ id ∈ s.stream.sentIds, e.number ≤ eventNumber id → toString e.number ∈ s.stream.sentIds

/-- An answer that holds events meets the cursor that it was asked with, unless the connection is closed. -/
def MeetsCursor (s : StreamSession) (step : StreamStep) : Prop :=
  match step with
  | .deliver i => ∀ c ∈ s.stream.calls[i]?, s.stream.closed = false → ∀ answer ∈ c.answer,
      ∀ events ∈ answer.toOption, events ≠ [] → c.lastEventId = s.stream.lastEventId
  | _ => True

/-! ## Where a connection is -/

/-- A call has asked from a position that the stream has passed, unless it is still there, and what it has been
answered is what a log of that time held behind it. -/
structure SendEvents.Asked (c : SendEvents) (log : List EventRow) (start sent : Nat) (lastEventId : Option String)
    (n : Nat) : Prop where
  cursor : parseSequence c.lastEventId = .ok n
  after : start ≤ n
  passed : c.lastEventId = lastEventId ∧ n = start + sent ∨ n < start + sent
  answer : ∀ answer ∈ c.answer, ∃ old, old <+: log ∧ answer = .ok ((Feed.chunk 100 n old).map serializeEvent)

/-- The stream has sent these rows after its start, and knows where it is until it is closed. -/
structure OrderStream.At (st : OrderStream) (log : List EventRow) (start : Nat) (rows : List EventRow) : Prop where
  starts : st.start = some start
  phase : st.phase ≠ .opening
  sent : st.sentIds = rows.map fun r => toString r.number
  follows : Feed.Follows start log rows
  cursor : st.closed = false → parseSequence st.lastEventId = .ok (start + rows.length)
  calls : st.closed = false → ∀ c ∈ st.calls, ∃ n, c.Asked log start rows.length st.lastEventId n

/-- The stream has not started. -/
structure OrderStream.Waits (st : OrderStream) : Prop where
  starts : st.start = none
  phase : st.phase ≠ .sending
  sent : st.sentIds = []
  timer : st.pollTimer = false
  calls : st.calls = []

structure StreamSession.Inv (s : StreamSession) : Prop where
  writes : NumberedLog.Inv s.writes
  stream : s.stream.Waits ∨ ∃ start rows, s.stream.At (s.writes.tables.log s.stream.tenantId) start rows

/-! ## The handler -/

section Handler
variable {st : OrderStream} {log old rows : List EventRow} {start sent n : Nat} {c : SendEvents}
  {lastEventId : Option String} {events : List OrderEventView}

theorem last_cons (e : OrderEventView) (lastEventId : Option String) :
    ((e :: events).getLast?.map (·.sequence)).or lastEventId =
      (events.getLast?.map (·.sequence)).or (some e.sequence) := by
  rw [List.getLast?_cons]
  cases events.getLast? <;> rfl

theorem foldl_send (h : st.closed = false) :
    events.foldl send st = { st with
      messages := st.messages ++ events.map fun e => .order e.sequence e
      lastEventId := (events.getLast?.map (·.sequence)).or st.lastEventId } := by
  induction events generalizing st with
  | nil => simp
  | cons e events ih =>
    have hsend : send st e = { st with
        lastEventId := some e.sequence, messages := st.messages ++ [.order e.sequence e] } := by
      rw [send, enqueue, if_neg (by simp [h])]
    rw [List.foldl_cons, hsend]
    refine (ih ?_).trans ?_
    · exact h
    simp [last_cons]

theorem foldl_send_closed (h : st.closed = true) :
    events.foldl send st = { st with lastEventId := (events.getLast?.map (·.sequence)).or st.lastEventId } := by
  induction events generalizing st with
  | nil => simp
  | cons e events ih =>
    have hsend : send st e = { st with lastEventId := some e.sequence } := by
      rw [send, enqueue, if_pos h]
    rw [List.foldl_cons, hsend]
    refine (ih ?_).trans ?_
    · exact h
    simp [last_cons]

theorem close_eq (st : OrderStream) : ∃ timer, st.close = { st with closed := true, pollTimer := timer } := by
  unfold OrderStream.close
  split
  · next h => exact ⟨st.pollTimer, by rw [← h]⟩
  · exact ⟨false, rfl⟩

theorem startTimer_eq (st : OrderStream) (h : st.phase ≠ .opening) :
    ∃ phase timer, phase ≠ .opening ∧ st.startTimer = { st with phase, pollTimer := timer } := by
  unfold startTimer
  split
  · exact ⟨.polling, true, StreamPhase.noConfusion, rfl⟩
  · exact ⟨st.phase, st.pollTimer, h, rfl⟩

theorem sentIds_startTimer (st : OrderStream) : st.startTimer.sentIds = st.sentIds := by
  unfold startTimer
  split <;> rfl

end Handler

/-! ## Positions -/

theorem eventNumber_toString (n : Nat) : eventNumber (toString n) = n := by
  have hlist : (toString n).toList = Nat.toDigits 10 n := Nat.toList_repr
  rw [eventNumber, hlist, Nat.ofDigitChars_ten_toDigits]

section Positions
variable {st : OrderStream} {log log' old rows : List EventRow} {start sent n : Nat} {c : SendEvents}
  {lastEventId : Option String}

/-- The rows that have been sent are numbered from the start on. -/
theorem Follows.numbers (hn : log.map Row.number = List.range' 1 log.length) (h : Feed.Follows start log rows) :
    rows.map Row.number = List.range' (start + 1) rows.length := by
  obtain ⟨rest, hrest⟩ := h
  have htake : rows = (log.drop start).take rows.length := by rw [← hrest, List.take_left]
  have hchunk : (Feed.chunk rows.length start log).map Row.number =
      List.range' (start + 1) (Feed.chunk rows.length start log).length := chunk_numbers hn
  rw [Feed.chunk, ← htake] at hchunk
  exact hchunk

theorem SendEvents.Asked.grow (h : c.Asked log start sent lastEventId n) (hlog : log <+: log') :
    c.Asked log' start sent lastEventId n := by
  refine ⟨h.cursor, h.after, h.passed, fun answer ha => ?_⟩
  obtain ⟨old, hold, heq⟩ := h.answer answer ha
  exact ⟨old, hold.trans hlog, heq⟩

theorem OrderStream.At.grow (h : st.At log start rows) (hlog : log <+: log') : st.At log' start rows := by
  refine ⟨h.starts, h.phase, h.sent, h.follows.grow hlog, h.cursor, fun hopen c hc => ?_⟩
  obtain ⟨n, hn⟩ := h.calls hopen c hc
  exact ⟨n, hn.grow hlog⟩

/-- Nothing matters of a closed stream but what it has sent. -/
theorem OrderStream.At.closed (h : st.At log start rows) {st' : OrderStream} (hclosed : st'.closed = true)
    (hstart : st'.start = st.start) (hphase : st'.phase ≠ .opening) (hsent : st'.sentIds = st.sentIds) :
    st'.At log start rows := by
  refine ⟨hstart.trans h.starts, hphase, hsent.trans h.sent, h.follows, fun hopen => ?_, fun hopen => ?_⟩
  all_goals
    rw [hclosed] at hopen
    cases hopen

theorem sentIds_deliver (hopen : st.closed = false) (new : List EventRow) :
    (OrderStream.deliver (.ok (new.map serializeEvent)) st).sentIds =
      st.sentIds ++ new.map fun r => toString r.number := by
  show (List.foldl send st (new.map serializeEvent)).sentIds = _
  rw [foldl_send hopen, sentIds, List.filterMap_append, List.map_map, List.filterMap_map]
  exact congrArg (st.sentIds ++ ·) (congrFun List.filterMap_eq_map new)

/-- A call has been taken off the list. -/
theorem OrderStream.At.fewer (h : st.At log start rows) (calls : List SendEvents)
    (hcalls : ∀ c ∈ calls, c ∈ st.calls) : ({ st with calls } : OrderStream).At log start rows :=
  ⟨h.starts, h.phase, h.sent, h.follows, h.cursor, fun hopen c hc => h.calls hopen c (hcalls c hc)⟩

/-- A call that goes on where the stream is takes it further. -/
theorem OrderStream.At.deliver (h : st.At log start rows) (hn : log.map Row.number = List.range' 1 log.length)
    (hopen : st.closed = false) (hasked : c.Asked log start rows.length st.lastEventId n)
    {answer : Except AppError (List OrderEventView)} (ha : answer ∈ c.answer)
    (hmeets : ∀ events ∈ answer.toOption, events ≠ [] → c.lastEventId = st.lastEventId) :
    ∃ rows', (OrderStream.deliver answer st).At log start rows' := by
  obtain ⟨old, hold, rfl⟩ := hasked.answer answer ha
  have hmeets := hmeets _ rfl
  let new := Feed.chunk 100 n old
  by_cases hnew : new = []
  · -- nothing to send
    have hidle : OrderStream.deliver (.ok (new.map serializeEvent)) st = st := by
      rw [hnew]
      rfl
    exact ⟨rows, hidle.symm ▸ h⟩
  · have hsame := hmeets (by rw [Ne, List.map_eq_nil_iff]; exact hnew)
    have hposition : n = start + rows.length := by
      have hcursor := hasked.cursor
      rw [hsame, h.cursor hopen] at hcursor
      exact (Except.ok.inj hcursor).symm
    have hfollows : Feed.Follows start log (rows ++ new) := by
      have hfollows : Feed.Follows start log (rows ++ Feed.chunk 100 (start + rows.length) old) :=
        h.follows.deliver hold
      rw [← hposition] at hfollows
      exact hfollows
    have hlength : 0 < new.length := List.length_pos_iff.2 hnew
    obtain ⟨e, hlast⟩ := Option.isSome_iff_exists.1 (List.getLast?_isSome.2 hnew)
    have hnumber : e.number = start + (rows ++ new).length := by
      refine last_number (Follows.numbers hn hfollows) ?_
      rw [List.getLast?_append, hlast]
      rfl
    have hsent : (OrderStream.deliver (.ok (new.map serializeEvent)) st).sentIds =
        (rows ++ new).map fun r => toString r.number := by
      rw [sentIds_deliver hopen, h.sent, List.map_append]
    have hdeliver : OrderStream.deliver (.ok (new.map serializeEvent)) st = _ := foldl_send hopen
    rw [hdeliver] at hsent
    refine ⟨rows ++ new, ?_⟩
    show (OrderStream.deliver (.ok (new.map serializeEvent)) st).At _ _ _
    rw [hdeliver]
    refine ⟨h.starts, h.phase, hsent, hfollows, fun _ => ?_, fun _ x hx => ?_⟩
    · dsimp only
      rw [List.getLast?_map, hlast]
      show parseSequence (some (toString e.number)) = _
      rw [parseSequence_toString, hnumber]
    · -- the other calls have been overtaken
      obtain ⟨m, hm⟩ := h.calls hopen x hx
      have hpassed := hm.passed
      rw [List.length_append]
      exact ⟨m, hm.cursor, hm.after, .inr (by omega), hm.answer⟩

/-- A call that has been overtaken sends events again. -/
theorem OrderStream.At.overtaken (h : st.At log start rows) (hn : log.map Row.number = List.range' 1 log.length)
    (hopen : st.closed = false) (hasked : c.Asked log start rows.length st.lastEventId n)
    {answer : Except AppError (List OrderEventView)} (ha : answer ∈ c.answer) {events : List OrderEventView}
    (hevents : events ∈ answer.toOption) (hne : events ≠ []) (hlate : c.lastEventId ≠ st.lastEventId) :
    ¬ ((OrderStream.deliver answer st).sentIds.map eventNumber).Pairwise fun m n => m < n := by
  intro hincreasing
  obtain ⟨old, hold, rfl⟩ := hasked.answer answer ha
  let new := Feed.chunk 100 n old
  obtain rfl : new.map serializeEvent = events := Option.some.inj hevents
  have hpassed : n < start + rows.length := hasked.passed.resolve_left fun hsame => hlate hsame.1
  have hafter := hasked.after
  have hlength : 0 < new.length := by
    rw [List.length_pos_iff]
    intro hnil
    rw [hnil] at hne
    exact hne rfl
  have hnumbers : (OrderStream.deliver (.ok (new.map serializeEvent)) st).sentIds.map eventNumber =
      List.range' (start + 1) rows.length ++ List.range' (n + 1) new.length := by
    have hfollows : Feed.Follows 0 log old := hold
    have hold' : old.map Row.number = List.range' 1 old.length := Follows.numbers hn hfollows
    have hids (rs : List EventRow) : (rs.map fun r => toString r.number).map eventNumber = rs.map Row.number := by
      rw [List.map_map]
      exact List.map_congr_left fun r _ => eventNumber_toString r.number
    rw [sentIds_deliver hopen, h.sent, List.map_append, hids, hids, Follows.numbers hn h.follows]
    exact congrArg (_ ++ ·) (chunk_numbers hold')
  replace hincreasing := hnumbers ▸ hincreasing
  rw [List.pairwise_append] at hincreasing
  have hlt := hincreasing.2.2 (start + rows.length) (by rw [List.mem_range'_1]; omega) (n + 1)
    (by rw [List.mem_range'_1]; omega)
  omega

end Positions

/-! ## Runs -/

section Runs
variable {s s' : StreamSession} {e : StreamStep} {st : OrderStream} {log rows : List EventRow} {start : Nat}

theorem StreamSession.Inv.numbered (hi : s.Inv) (tenantId : Id) :
    (s.writes.tables.log tenantId).map Row.number = List.range' 1 (s.writes.tables.log tenantId).length :=
  EventSession.Sound.numbered (s := { writes := s.writes }) ⟨hi.writes, by simp⟩ tenantId

/-- What a connection in order has emitted. -/
theorem StreamSession.Inv.once (hi : s.Inv) : StreamsOnce s := by
  rcases hi.stream with h | ⟨start, rows, h⟩
  · refine ⟨by rw [h.sent]; exact List.Pairwise.nil, fun start hstart => ?_⟩
    rw [h.starts] at hstart
    cases hstart
  · have hnumbers := Follows.numbers (hi.numbered _) h.follows
    have hids : s.stream.sentIds.map eventNumber = List.range' (start + 1) rows.length := by
      rw [h.sent, List.map_map, ← hnumbers]
      exact List.map_congr_left fun r _ => eventNumber_toString r.number
    refine ⟨by rw [hids]; exact List.pairwise_lt_range', fun from_ hfrom e he hafter id hid hle => ?_⟩
    rw [h.starts, Option.mem_some_iff] at hfrom
    subst hfrom
    have hmem : eventNumber id ∈ List.range' (start + 1) rows.length := hids ▸ List.mem_map_of_mem hid
    rw [List.mem_range'_1] at hmem
    have hrow : e.number ∈ rows.map Row.number := by
      rw [hnumbers, List.mem_range'_1]
      omega
    obtain ⟨r, hr, hnumber⟩ := List.mem_map.1 hrow
    rw [h.sent, List.mem_map]
    exact ⟨r, hr, by rw [hnumber]⟩

theorem parseSequence_of_cursor {cursor : Option String} {n : Nat} (h : parseEventCursor cursor = some n) :
    parseSequence cursor = .ok n := by
  unfold parseEventCursor at h
  unfold parseSequence
  cases cursor with
  | none => cases h; rfl
  | some value =>
    dsimp only at h ⊢
    split at h
    · next hempty => cases h; rw [if_pos hempty]
    · next hempty =>
      split at h
      · next hdigits => cases h; rw [if_neg hempty, if_pos hdigits]
      · cases h

theorem enqueue_eq (message : StreamMessage) (st : OrderStream) :
    ∃ messages, enqueue message st = { st with messages } ∧
      ((∀ id data, message ≠ .order id data) → ({ st with messages } : OrderStream).sentIds = st.sentIds) := by
  unfold enqueue
  split
  · exact ⟨st.messages, rfl, fun _ => rfl⟩
  · refine ⟨_, rfl, fun hm => ?_⟩
    unfold sentIds
    rw [List.filterMap_append]
    cases message with
    | order id data => exact absurd rfl (hm id data)
    | _ => exact List.append_nil _

theorem resolveEventCursor_cases (raw : Option String) (head : Nat) :
    (∃ cursor, parseEventCursor raw = some cursor ∧ resolveEventCursor raw head = .ok cursor) ∨
      ∃ reason, resolveEventCursor raw head = .reset reason head := by
  unfold resolveEventCursor
  cases parseEventCursor raw with
  | none => exact .inr ⟨.malformed, rfl⟩
  | some cursor =>
    by_cases hahead : head < cursor
    · exact .inr ⟨.ahead, if_pos hahead⟩
    · exact .inl ⟨cursor, rfl, if_neg hahead⟩

theorem resolve_eq (st : OrderStream) (head : Nat) : ∃ messages lastEventId start,
    st.resolve head = { st with messages, lastEventId, start := some start } ∧
      parseSequence lastEventId = .ok start ∧ ({ st with messages } : OrderStream).sentIds = st.sentIds := by
  unfold OrderStream.resolve
  rcases resolveEventCursor_cases st.lastEventId head with ⟨cursor, hparse, hresolve⟩ | ⟨reason, hresolve⟩
  · rw [hresolve]
    exact ⟨st.messages, st.lastEventId, cursor, rfl, parseSequence_of_cursor hparse, rfl⟩
  · rw [hresolve]
    obtain ⟨messages, henqueue, hsent⟩ := enqueue_eq (.reset reason (toString head))
      { st with start := some head, lastEventId := some (toString head) }
    exact ⟨messages, _, head, henqueue, parseSequence_toString, hsent fun _ _ => StreamMessage.noConfusion⟩

/-- The cursor is resolved, and the first call is made. -/
theorem OrderStream.Waits.resolve (h : st.Waits) (head : Nat) : ∃ start, ∀ log, OrderStream.At
      { call (enqueue (.retry pollIntervalMs) (st.resolve head)) with phase := .sending } log start [] := by
  obtain ⟨messages, lastEventId, start, hresolve, hparse, hsent⟩ := resolve_eq st head
  obtain ⟨messages', henqueue, hsent'⟩ := enqueue_eq (.retry pollIntervalMs) (st.resolve head)
  rw [henqueue, hresolve]
  refine ⟨start, fun log => ⟨rfl, StreamPhase.noConfusion, ?_, .empty, fun _ => hparse, fun _ c hc => ⟨start, ?_⟩⟩⟩
  · have hids := hsent' fun _ _ => StreamMessage.noConfusion
    rw [hresolve] at hids
    exact (hids.trans hsent).trans h.sent
  · have hmem : c ∈ st.calls ++ [({ lastEventId := lastEventId } : SendEvents)] := hc
    rw [h.calls] at hmem
    obtain rfl := List.mem_singleton.1 hmem
    exact ⟨hparse, Nat.le_refl _, .inl ⟨rfl, rfl⟩, fun _ ha => by cases ha⟩

theorem OrderStream.At.startTimer (h : st.At log start rows) : st.startTimer.At log start rows := by
  obtain ⟨phase, timer, hphase, heq⟩ := startTimer_eq st h.phase
  rw [heq]
  exact ⟨h.starts, hphase, h.sent, h.follows, h.cursor, h.calls⟩

theorem OrderStream.At.close (h : st.At log start rows) : st.close.At log start rows := by
  obtain ⟨timer, heq⟩ := close_eq st
  rw [heq]
  exact h.closed rfl rfl h.phase rfl

theorem OrderStream.Waits.close (h : st.Waits) : st.close.Waits := by
  unfold OrderStream.close
  split
  · exact h
  · exact ⟨h.starts, h.phase, h.sent, rfl, h.calls⟩

/-- The call that is taken off the list. -/
theorem OrderStream.At.asked (h : st.At log start rows) (hopen : st.closed = false) {c : SendEvents} {i : Nat}
    (hc : st.calls[i]? = some c) : ∃ n, c.Asked log start rows.length st.lastEventId n :=
  h.calls hopen c (List.mem_of_getElem? hc)

/-- On a closed connection a call changes nothing that matters. -/
theorem OrderStream.At.deliver_closed (h : st.At log start rows) (hclosed : st.closed = true)
    (answer : Except AppError (List OrderEventView)) : (OrderStream.deliver answer st).At log start rows := by
  cases answer with
  | error e => exact h.close
  | ok events =>
    show (List.foldl send st events).At _ _ _
    rw [foldl_send_closed hclosed]
    exact h.closed hclosed rfl h.phase rfl

/-- A new call asks with the cursor as it stands. -/
theorem OrderStream.At.call (h : st.At log start rows) : st.call.At log start rows := by
  refine ⟨h.starts, h.phase, h.sent, h.follows, h.cursor, fun hopen c hc => ?_⟩
  rcases List.mem_append.1 hc with hc | hc
  · exact h.calls hopen c hc
  · obtain rfl := List.mem_singleton.1 hc
    exact ⟨_, h.cursor hopen, Nat.le_add_right _ _, .inl ⟨rfl, rfl⟩, fun _ ha => by cases ha⟩

/-- The database answers a call with what follows its cursor in the log as it is. -/
theorem OrderStream.At.query (h : st.At log start rows) {t : EventTables} {c : SendEvents} {i : Nat}
    (hlog : t.log st.tenantId = log) (hn : log.map Row.number = List.range' 1 log.length) (hc : st.calls[i]? = some c) :
    ({ st with calls := st.calls.set i { c with answer := some (eventsAfter st.tenantId c.lastEventId t) } } :
      OrderStream).At log start rows := by
  refine ⟨h.starts, h.phase, h.sent, h.follows, h.cursor, fun hopen x hx => ?_⟩
  rcases List.mem_or_eq_of_mem_set hx with hx | rfl
  · exact h.calls hopen x hx
  · obtain ⟨n, hasked⟩ := h.asked hopen hc
    refine ⟨n, hasked.cursor, hasked.after, hasked.passed, fun answer ha => ⟨log, List.prefix_rfl, ?_⟩⟩
    obtain rfl := Option.some.inj ha
    rw [← hlog] at hn ⊢
    rw [eventsAfter, hasked.cursor]
    exact congrArg Except.ok (listEventsAfter_eq hn)

theorem StreamSession.Inv.connect (tenantId : Id) (cursor : Option String) : (connect tenantId cursor).Inv :=
  ⟨NumberedLog.Inv.empty, .inl ⟨rfl, StreamPhase.noConfusion, rfl, rfl, rfl⟩⟩

theorem tenantId_close (st : OrderStream) : st.close.tenantId = st.tenantId := by
  unfold OrderStream.close
  split <;> rfl

theorem tenantId_deliver (answer : Except AppError (List OrderEventView)) (st : OrderStream) :
    (OrderStream.deliver answer st).tenantId = st.tenantId := by
  cases answer with
  | error e => exact tenantId_close st
  | ok events =>
    show (List.foldl send st events).tenantId = _
    cases hclosed : st.closed with
    | false => rw [foldl_send hclosed]
    | true => rw [foldl_send_closed hclosed]

theorem tenantId_startTimer (st : OrderStream) : st.startTimer.tenantId = st.tenantId := by
  unfold startTimer
  split <;> rfl

/-- Every step keeps a connection in order that does not deliver to a cursor that has moved. -/
theorem StreamSession.Inv.step (hi : s.Inv) (hmeets : MeetsCursor s e) (h : streamStep s e = some s') : s'.Inv := by
  have hn := hi.numbered s.stream.tenantId
  cases e with
  | write e =>
    obtain ⟨writes, hw, rfl⟩ := Option.map_eq_some_iff.1 h
    refine ⟨NumberedLog.step_inv e hi.writes hw, hi.stream.imp_right ?_⟩
    rintro ⟨start, rows, hat⟩
    exact ⟨start, rows, hat.grow (NumberedLog.step_grows e hi.writes hw _)⟩
  | resolve =>
    obtain ⟨hopening, h⟩ := Option.ite_none_right_eq_some.1 h
    cases h
    rcases hi.stream with hwaits | ⟨start, rows, hat⟩
    · obtain ⟨start, hat⟩ := hwaits.resolve (s.writes.tables.value s.stream.tenantId)
      exact ⟨hi.writes, .inr ⟨start, [], hat _⟩⟩
    · exact absurd hopening hat.phase
  | failHead =>
    obtain ⟨hopening, h⟩ := Option.ite_none_right_eq_some.1 h
    cases h
    rcases hi.stream with hwaits | ⟨start, rows, hat⟩
    · have hclose := hwaits.close
      exact ⟨hi.writes, .inl ⟨hclose.starts, StreamPhase.noConfusion, hclose.sent, hclose.timer, hclose.calls⟩⟩
    · exact absurd hopening hat.phase
  | tick =>
    obtain ⟨htimer, h⟩ := Option.ite_none_right_eq_some.1 h
    cases h
    rcases hi.stream with hwaits | ⟨start, rows, hat⟩
    · rw [hwaits.timer] at htimer
      cases htimer
    · exact ⟨hi.writes, .inr ⟨start, rows, hat.call⟩⟩
  | query i =>
    obtain ⟨c, hc, h⟩ := Option.bind_eq_some_iff.1 h
    obtain ⟨-, h⟩ := Option.ite_none_right_eq_some.1 h
    cases h
    rcases hi.stream with hwaits | ⟨start, rows, hat⟩
    · rw [hwaits.calls] at hc
      cases hc
    · exact ⟨hi.writes, .inr ⟨start, rows, hat.query rfl hn hc⟩⟩
  | fail i =>
    obtain ⟨c, hc, rfl⟩ := Option.map_eq_some_iff.1 h
    rcases hi.stream with hwaits | ⟨start, rows, hat⟩
    · rw [hwaits.calls] at hc
      cases hc
    · refine ⟨hi.writes, .inr ⟨start, rows, ?_⟩⟩
      rw [tenantId_startTimer, tenantId_close]
      exact (hat.fewer _ fun c => List.mem_of_mem_eraseIdx).close.startTimer
  | deliver i =>
    obtain ⟨c, hc, h⟩ := Option.bind_eq_some_iff.1 h
    obtain ⟨answer, ha, rfl⟩ := Option.map_eq_some_iff.1 h
    rcases hi.stream with hwaits | ⟨start, rows, hat⟩
    · rw [hwaits.calls] at hc
      cases hc
    · have hfewer := hat.fewer (s.stream.calls.eraseIdx i) fun c => List.mem_of_mem_eraseIdx
      refine ⟨hi.writes, .inr ?_⟩
      rw [tenantId_startTimer, tenantId_deliver]
      cases hopen : s.stream.closed with
      | true => exact ⟨start, rows, (hfewer.deliver_closed hopen answer).startTimer⟩
      | false =>
        obtain ⟨n, hasked⟩ := hat.asked hopen hc
        obtain ⟨rows', hat'⟩ := hfewer.deliver hn hopen hasked ha (hmeets c hc hopen answer ha)
        exact ⟨start, rows', hat'.startTimer⟩
  | close =>
    cases h
    refine ⟨hi.writes, hi.stream.imp OrderStream.Waits.close ?_⟩
    rintro ⟨start, rows, hat⟩
    rw [tenantId_close]
    exact ⟨start, rows, hat.close⟩
  | cancel =>
    cases h
    refine ⟨hi.writes, hi.stream.imp ?_ ?_⟩
    · intro hwaits
      exact ⟨hwaits.starts, hwaits.phase, hwaits.sent, rfl, hwaits.calls⟩
    · rintro ⟨start, rows, hat⟩
      exact ⟨start, rows, hat.closed rfl rfl hat.phase rfl⟩

/-- A step that delivers to a cursor that has moved breaks the law. -/
theorem StreamSession.Inv.meets (hi : s.Inv) (h : streamStep s e = some s') (hlaw : StreamsOnce s') :
    MeetsCursor s e := by
  cases e with
  | deliver i =>
    obtain ⟨c, hc, h⟩ := Option.bind_eq_some_iff.1 h
    obtain ⟨answer, ha, rfl⟩ := Option.map_eq_some_iff.1 h
    intro c' hc' hopen answer' ha' events hevents hne
    obtain rfl : c = c' := Option.some.inj (hc.symm.trans hc')
    obtain rfl : answer = answer' := Option.some.inj (ha.symm.trans ha')
    by_contra hlate
    rcases hi.stream with hwaits | ⟨start, rows, hat⟩
    · rw [hwaits.calls] at hc
      cases hc
    · have hfewer := hat.fewer (s.stream.calls.eraseIdx i) fun c => List.mem_of_mem_eraseIdx
      obtain ⟨n, hasked⟩ := hat.asked hopen hc
      refine hfewer.overtaken (hi.numbered _) hopen hasked ha hevents hne hlate ?_
      have hincreasing := hlaw.increasing
      rwa [sentIds_startTimer] at hincreasing
  | _ => trivial

/-- A connection delivers each event once in every state of a run, in which case no answer that holds events has come
to a cursor that had moved. -/
theorem stream_once_iff {tenantId : Id} {cursor : Option String} {es : List StreamStep}
    (h : Runs.exec streamStep (connect tenantId cursor) es = some s) :
    Runs.Along streamStep (fun s e => ∀ s' ∈ streamStep s e, StreamsOnce s') (connect tenantId cursor) es ↔
      Runs.Along streamStep MeetsCursor (connect tenantId cursor) es := by
  have hmeets (s : StreamSession) (e : StreamStep) (s' : StreamSession) (hi : s.Inv) (hs : streamStep s e = some s') :
      (∀ s' ∈ streamStep s e, StreamsOnce s') ↔ MeetsCursor s e := by
    constructor
    · intro hlaw
      exact hi.meets hs (hlaw s' hs)
    · intro hmeets s₁ hs₁
      exact (hi.step hmeets hs₁).once
  refine Runs.Along.congr (I := StreamSession.Inv) ?_ hmeets (.connect tenantId cursor) h
  intro s e s' hi hlaw hs
  exact hi.step ((hmeets s e s' hi hs).1 hlaw) hs

end Runs

namespace Demo

def placed (orderId : Id) : List StreamStep :=
  [.write (.start "tenant"), .write (.take 0), .write (.insert 0 (created orderId)), .write (.commit 0)]

/-- Two calls, one after the other, with an event before each. -/
def apart : List StreamStep :=
  [.resolve, .query 0, .deliver 0] ++ placed "order-1" ++ [.tick, .query 0, .deliver 0] ++ placed "order-2" ++
    [.tick, .query 0, .deliver 0]

/-- The timer fires again while a call waits for the database. -/
def overlapping : List StreamStep :=
  [.resolve, .query 0, .deliver 0] ++ placed "order-1" ++ [.tick, .tick, .query 0, .query 1, .deliver 0, .deliver 0]

end Demo

open Demo

theorem stream_once_apart : ∃ s, Runs.exec streamStep (connect "tenant" none) apart = some s ∧
    (Runs.Along streamStep (fun s e => ∀ s' ∈ streamStep s e, StreamsOnce s') (connect "tenant" none) apart ↔
      Runs.Along streamStep MeetsCursor (connect "tenant" none) apart) := by
  have hx : (Runs.exec streamStep (connect "tenant" none) apart).isSome = true := by decide +kernel
  obtain ⟨s, hr⟩ := Option.isSome_iff_exists.1 hx
  exact ⟨s, hr, stream_once_iff hr⟩

/-- Both calls send the event. -/
theorem overlapping_calls_send_twice : ¬ ∀ (tenantId : Id) (cursor : Option String) (es : List StreamStep)
    (s : StreamSession), Runs.exec streamStep (connect tenantId cursor) es = some s → StreamsOnce s := by
  intro hlaw
  have hsent : (Runs.exec streamStep (connect "tenant" none) overlapping).map (·.stream.sentIds) =
      some ["1", "1"] := by decide +kernel
  obtain ⟨s, hr, hids⟩ := Option.map_eq_some_iff.1 hsent
  have hincreasing := (hlaw "tenant" none overlapping s hr).increasing
  rw [hids] at hincreasing
  exact absurd hincreasing (by decide +kernel)

end Komanda
