import Komanda.LiveOrders
import Komanda.Proofs.OrderStream

/-!
# The dashboard misses no event and gets none twice

A poll waits alone, so its answer meets the cursor that it was asked with: what a connection writes follows on what the
browser had when it connected (`Connection.At`). What the browser has read is the beginning of the log, however often it
has had to connect again, and its id is no further than the log, so that no stream is reset.
-/

namespace Komanda
open NumberedLog OrderQueryService OrderRepository

/-! ## The law -/

def StreamBlock.isReset : StreamBlock → Bool
  | .message (.reset _ _) => true
  | _ => false

/-- What holds of the browser. -/
structure FollowsLog (s : LiveSession) : Prop where
  /-- It has received the first of the events, each once and in their order. -/
  received : s.client.received <+: (s.writes.tables.log s.client.tenantId).map serializeEvent
  /-- Its cursor is the last event that it has received. -/
  cursor : s.client.lastEventId = s.client.received.getLast?.map (·.sequence)
  /-- It is never told to start over. -/
  kept : ∀ c ∈ s.connection, ∀ block ∈ c.stream.written, block.isReset = false
  /-- If nothing is written for a while, it can still receive all there is. -/
  catchesUp : ∃ es s', Runs.exec liveStep s es = some s' ∧ s'.writes = s.writes ∧
    s'.client.received = (s.writes.tables.log s.client.tenantId).map serializeEvent

/-! ## Where a browser and its connection are -/

/-- An order is sent under its own sequence. -/
def StreamBlock.Proper : StreamBlock → Prop
  | .message (.order id data) => ∃ n : Nat, id = toString n ∧ data.sequence = id
  | .message (.reset _ _) => False
  | _ => True

/-- The orders that are written. -/
def ordersIn (blocks : List StreamBlock) : List (String × OrderEventView) :=
  blocks.filterMap fun block =>
    match block with
    | .message (.order id data) => some (id, data)
    | _ => none

/-- The message of a row. -/
def orderOf (r : EventRow) : String × OrderEventView := (toString r.number, serializeEvent r)

/-- The browser has received the first `k` events. -/
structure LiveOrders.At (client : LiveOrders) (log : List EventRow) (k : Nat) : Prop where
  within : k ≤ log.length
  received : client.received = (log.take k).map serializeEvent
  cursor : client.lastEventId = if k = 0 then none else some (toString k)

/-- A poll asks from the cursor, and its answer is what a log of that time held behind it. -/
def StreamWait.Asks (wait : StreamWait) (log : List EventRow) (lastEventId : Option String) (n : Nat) : Prop :=
  match wait with
  | .poll call => call.lastEventId = lastEventId ∧
      ∀ answer ∈ call.answer, ∃ old, old <+: log ∧ answer = .ok ((Feed.chunk 100 n old).map serializeEvent)
  | _ => True

/-- The rows of the connection that are still to be read follow the first `k` events. -/
structure Connection.At (c : Connection) (log : List EventRow) (k : Nat) (rows : List EventRow) : Prop where
  read : c.read ≤ c.stream.written.length
  unread : ordersIn c.unread = rows.map orderOf
  follows : Feed.Follows k log rows
  proper : ∀ block ∈ c.stream.written, block.Proper
  cursor : parseEventCursor c.stream.lastEventId = some (k + rows.length)
  asks : c.stream.wait.Asks log c.stream.lastEventId (k + rows.length)
  polling : c.stream.isPolling = true → ∃ call, c.stream.wait = .poll call

structure LiveSession.Inv (s : LiveSession) : Prop where
  writes : NumberedLog.Inv s.writes
  client : ∃ k, s.client.At (s.writes.tables.log s.client.tenantId) k ∧ ∀ c ∈ s.connection,
    c.stream.tenantId = s.client.tenantId ∧ ∃ rows, c.At (s.writes.tables.log s.client.tenantId) k rows

section Positions
variable {c : Connection} {st : FastifyStream} {client : LiveOrders} {log log' rows : List EventRow} {k : Nat}
  {lastEventId : Option String} {wait : StreamWait}

theorem ordersIn_append (l l' : List StreamBlock) : ordersIn (l ++ l') = ordersIn l ++ ordersIn l' :=
  List.filterMap_append

theorem LiveOrders.At.grow (h : client.At log k) (hlog : log <+: log') : client.At log' k := by
  obtain ⟨new, rfl⟩ := hlog
  refine ⟨h.within.trans (by simp), ?_, h.cursor⟩
  rw [List.take_append_of_le_length h.within]
  exact h.received

theorem StreamWait.Asks.grow (h : wait.Asks log lastEventId k) (hlog : log <+: log') :
    wait.Asks log' lastEventId k := by
  cases wait with
  | poll call =>
    refine ⟨h.1, fun answer ha => ?_⟩
    obtain ⟨old, hold, heq⟩ := h.2 answer ha
    exact ⟨old, hold.trans hlog, heq⟩
  | _ => trivial

theorem Connection.At.grow (h : c.At log k rows) (hlog : log <+: log') : c.At log' k rows :=
  ⟨h.read, h.unread, h.follows.grow hlog, h.proper, h.cursor, h.asks.grow hlog, h.polling⟩

/-- A stream that goes on without writing anything. -/
theorem Connection.At.goOn (h : c.At log k rows) (hwritten : st.written = c.stream.written)
    (hcursor : st.lastEventId = c.stream.lastEventId)
    (hasks : st.wait.Asks log st.lastEventId (k + rows.length))
    (hpolling : st.isPolling = true → ∃ call, st.wait = .poll call) :
    Connection.At { c with stream := st } log k rows := by
  refine ⟨hwritten ▸ h.read, ?_, h.follows, hwritten ▸ h.proper, hcursor ▸ h.cursor, hasks, hpolling⟩
  rw [Connection.unread, hwritten]
  exact h.unread

theorem parseEventCursor_toString (n : Nat) : parseEventCursor (some (toString n)) = some n := by
  have hparse := parseSequence_toString (n := n)
  unfold parseSequence at hparse
  unfold parseEventCursor
  dsimp only at hparse ⊢
  split at hparse
  · next hempty => rw [if_pos hempty, Except.ok.inj hparse]
  · next hempty =>
    rw [if_neg hempty]
    split at hparse
    · next hdigits => rw [if_pos hdigits, Except.ok.inj hparse]
    · cases hparse

theorem LiveOrders.At.parse (h : client.At log k) : parseEventCursor client.lastEventId = some k := by
  rw [h.cursor]
  by_cases hk : k = 0
  · rw [if_pos hk, hk]
    rfl
  · rw [if_neg hk, parseEventCursor_toString]

/-- A stream that writes what follows. -/
theorem Connection.At.write (h : c.At log k rows) {blocks : List StreamBlock} {new : List EventRow}
    (hwritten : st.written = c.stream.written ++ blocks) (horders : ordersIn blocks = new.map orderOf)
    (hproper : ∀ block ∈ blocks, block.Proper) (hfollows : Feed.Follows k log (rows ++ new))
    (hcursor : parseEventCursor st.lastEventId = some (k + (rows ++ new).length))
    (hasks : st.wait.Asks log st.lastEventId (k + (rows ++ new).length))
    (hpolling : st.isPolling = true → ∃ call, st.wait = .poll call) :
    Connection.At { c with stream := st } log k (rows ++ new) := by
  refine ⟨?_, ?_, hfollows, ?_, hcursor, hasks, hpolling⟩
  · rw [hwritten, List.length_append]
    exact h.read.trans (Nat.le_add_right _ _)
  · have hunread := h.unread
    rw [Connection.unread] at hunread ⊢
    rw [hwritten, List.drop_append_of_le_length h.read, ordersIn_append, hunread, horders, List.map_append]
  · rw [hwritten]
    exact List.forall_mem_append.2 ⟨h.proper, hproper⟩

end Positions

/-! ## The server -/

namespace FastifyStream

section Server
variable {st : FastifyStream} {log : List EventRow} {n : Nat} {events : List OrderEventView}

@[simp] theorem written_closeStream (st : FastifyStream) : st.closeStream.written = st.written := by
  unfold closeStream
  split <;> rfl

@[simp] theorem lastEventId_closeStream (st : FastifyStream) : st.closeStream.lastEventId = st.lastEventId := by
  unfold closeStream
  split <;> rfl

@[simp] theorem tenantId_closeStream (st : FastifyStream) : st.closeStream.tenantId = st.tenantId := by
  unfold closeStream
  split <;> rfl

@[simp] theorem isPolling_closeStream (st : FastifyStream) : st.closeStream.isPolling = st.isPolling := by
  unfold closeStream
  split <;> rfl

theorem wait_closeStream (st : FastifyStream) :
    st.closeStream.wait = st.wait ∨ st.closeStream.wait = .over ∧ ∀ call, st.wait ≠ .poll call := by
  unfold closeStream
  split
  · exact .inl rfl
  · cases hwait : st.wait with
    | timer => exact .inr ⟨rfl, fun _ => StreamWait.noConfusion⟩
    | _ => exact .inl rfl

theorem afterPoll_eq (st : FastifyStream) : ∃ wait timer, afterPoll st = { st with wait, heartbeatTimer := timer } ∧
    ∀ log lastEventId n, wait.Asks log lastEventId n := by
  unfold afterPoll
  split
  · exact ⟨.over, st.heartbeatTimer, rfl, fun _ _ _ => trivial⟩
  · exact ⟨.timer, true, rfl, fun _ _ _ => trivial⟩

/-- A poll asks with the cursor as it stands. -/
theorem runPoll_eq (h : st.isPolling = false) : ∃ wait timer polling,
    runPoll st = { st with wait, heartbeatTimer := timer, isPolling := polling } ∧
      (∀ log n, wait.Asks log st.lastEventId n) ∧ (polling = true → ∃ call, wait = .poll call) := by
  unfold runPoll
  split
  · obtain ⟨wait, timer, heq, hasks⟩ := afterPoll_eq st
    exact ⟨wait, timer, false, by rw [heq, h], fun _ _ => hasks _ _ _, fun hf => by cases hf⟩
  · exact ⟨_, st.heartbeatTimer, true, rfl, fun _ _ => ⟨rfl, fun _ ha => by cases ha⟩, fun _ => ⟨_, rfl⟩⟩

theorem foldl_send (events : List OrderEventView) (st : FastifyStream) : events.foldl send st = { st with
    written := st.written ++ events.map fun e => .message (.order e.sequence e)
    lastEventId := (events.getLast?.map (·.sequence)).or st.lastEventId } := by
  induction events generalizing st with
  | nil => simp
  | cons e events ih =>
    rw [List.foldl_cons, ih, last_cons]
    simp [send, write]

theorem resolve_of_le (h : parseEventCursor st.lastEventId = some n) {head : Nat} (hle : n ≤ head) :
    resolve head st = st := by
  rw [resolve, resolveEventCursor, h]
  simp only [if_neg (Nat.not_lt.2 hle)]

end Server
end FastifyStream

section Answers
variable {c : Connection} {log rows : List EventRow} {k : Nat}
open FastifyStream

theorem Connection.At.idle (h : c.At log k rows) (hwait : ∀ call, c.stream.wait ≠ .poll call) :
    c.stream.isPolling = false := by
  cases hp : c.stream.isPolling with
  | false => rfl
  | true =>
    obtain ⟨call, hcall⟩ := h.polling hp
    exact absurd hcall (hwait call)

/-- The head of a log that the browser is not ahead of. -/
theorem Connection.At.resume (h : c.At log k rows) (hwait : c.stream.wait = .head) {head : Nat}
    (hle : k + rows.length ≤ head) : Connection.At { c with stream := resume head c.stream } log k rows := by
  have hidle := h.idle fun call hcall => by cases hwait.symm.trans hcall
  rw [FastifyStream.resume, resolve_of_le h.cursor hle]
  split
  · exact h.goOn rfl rfl trivial fun hp => by rw [hidle] at hp; cases hp
  · obtain ⟨wait, timer, polling, heq, hasks, hpolling⟩ := runPoll_eq hidle
    rw [heq]
    exact h.goOn rfl rfl (hasks _ _) hpolling

theorem Connection.At.tick (h : c.At log k rows) (hwait : c.stream.wait = .timer) :
    Connection.At { c with stream := tick c.stream } log k rows := by
  have hidle := h.idle fun call hcall => by cases hwait.symm.trans hcall
  rw [FastifyStream.tick]
  split
  · exact h.goOn rfl rfl trivial fun hp => by rw [hidle] at hp; cases hp
  · obtain ⟨wait, timer, polling, heq, hasks, hpolling⟩ := runPoll_eq hidle
    rw [heq]
    exact h.goOn rfl rfl (hasks _ _) hpolling

theorem Connection.At.close (h : c.At log k rows) : Connection.At
    { c with stream := closeStream c.stream } log k rows := by
  refine h.goOn (written_closeStream _) (lastEventId_closeStream _) ?_ fun hp => ?_
  · rw [lastEventId_closeStream]
    rcases wait_closeStream c.stream with hwait | ⟨hwait, -⟩
    · rw [hwait]
      exact h.asks
    · rw [hwait]
      trivial
  · rw [isPolling_closeStream] at hp
    obtain ⟨call, hcall⟩ := h.polling hp
    rcases wait_closeStream c.stream with hwait | ⟨-, hne⟩
    · exact ⟨call, hwait.trans hcall⟩
    · exact absurd hcall (hne call)

/-- The head of the log could not be read. -/
theorem Connection.At.failHead (h : c.At log k rows) (hwait : c.stream.wait = .head) :
    Connection.At { c with stream := { closeStream c.stream with wait := .over } } log k rows := by
  have hidle := h.idle fun call hcall => by cases hwait.symm.trans hcall
  refine h.goOn (written_closeStream _) (lastEventId_closeStream _) trivial fun hp => ?_
  rw [isPolling_closeStream, hidle] at hp
  cases hp

/-- A poll is over that has written nothing. -/
theorem Connection.At.afterPoll (h : c.At log k rows) (hidle : c.stream.isPolling = false) :
    Connection.At { c with stream := afterPoll c.stream } log k rows := by
  obtain ⟨wait, timer, heq, hasks⟩ := afterPoll_eq c.stream
  rw [heq]
  exact h.goOn rfl rfl (hasks _ _ _) fun hp => by rw [hidle] at hp; cases hp

theorem Connection.At.failQuery (h : c.At log k rows) :
    Connection.At { c with stream := FastifyStream.afterPoll { closeStream c.stream with isPolling := false } } log k
      rows := by
  have hclose := h.close
  have hidle : Connection.At { c with stream := { closeStream c.stream with isPolling := false } } log k rows :=
    hclose.goOn rfl rfl hclose.asks fun hf => by cases hf
  exact hidle.afterPoll rfl

theorem Connection.At.heartbeat (h : c.At log k rows) (now : Instant) :
    Connection.At { c with stream := c.stream.write (.heartbeat now) } log k rows := by
  have hwrite : Connection.At { c with stream := c.stream.write (.heartbeat now) } log k (rows ++ []) := by
    refine h.write rfl rfl (List.forall_mem_singleton.2 trivial) ?_ ?_ ?_ h.polling
    · rw [List.append_nil]
      exact h.follows
    · rw [List.append_nil]
      exact h.cursor
    · rw [List.append_nil]
      exact h.asks
  rwa [List.append_nil] at hwrite

/-- The answer of a poll is what follows. -/
theorem Connection.At.answered (h : c.At log k rows) (hn : log.map Row.number = List.range' 1 log.length)
    {call : SendEvents} (hwait : c.stream.wait = .poll call) {answer : Except AppError (List OrderEventView)}
    (ha : answer ∈ call.answer) :
    ∃ new,
      Connection.At { c with stream := FastifyStream.afterPoll (finishPoll answer c.stream) } log k (rows ++ new) := by
  have hasks := h.asks
  rw [hwait] at hasks
  obtain ⟨-, hanswer⟩ := hasks
  obtain ⟨old, hold, rfl⟩ := hanswer answer ha
  by_cases hclosed : c.stream.closed = true
  · have hfinish : finishPoll (.ok ((Feed.chunk 100 (k + rows.length) old).map serializeEvent)) c.stream =
        { c.stream with isPolling := false } := by
      simp only [finishPoll, if_pos hclosed]
    have hidle : Connection.At { c with stream := { c.stream with isPolling := false } } log k rows :=
      h.goOn rfl rfl h.asks fun hf => by cases hf
    rw [hfinish]
    exact ⟨[], by rw [List.append_nil]; exact hidle.afterPoll rfl⟩
  · obtain ⟨wait, timer, heq, hasks⟩ :=
      afterPoll_eq (finishPoll (.ok ((Feed.chunk 100 (k + rows.length) old).map serializeEvent)) c.stream)
    have hfollows : Feed.Follows k log (rows ++ Feed.chunk 100 (k + rows.length) old) := h.follows.deliver hold
    rw [heq, finishPoll]
    simp only [if_neg hclosed, FastifyStream.foldl_send]
    refine ⟨_, h.write rfl ?_ ?_ hfollows ?_ (hasks _ _ _) fun hf => by cases hf⟩
    · rw [ordersIn, List.map_map, List.filterMap_map]
      exact congrFun List.filterMap_eq_map (Feed.chunk 100 (k + rows.length) old)
    · rw [List.forall_mem_map, List.forall_mem_map]
      exact fun r _ => ⟨r.number, rfl, rfl⟩
    · dsimp only
      rw [List.getLast?_map]
      cases hlast : (Feed.chunk 100 (k + rows.length) old).getLast? with
      | none =>
        rw [List.getLast?_eq_none_iff.1 hlast, List.append_nil]
        exact h.cursor
      | some e =>
        have hnumber : e.number = k + (rows ++ Feed.chunk 100 (k + rows.length) old).length := by
          refine last_number (Follows.numbers hn hfollows) ?_
          rw [List.getLast?_append, hlast]
          rfl
        show parseEventCursor (some (toString e.number)) = _
        rw [parseEventCursor_toString, hnumber]

/-- The database answers with what follows the cursor in the log as it is. -/
theorem Connection.At.query (h : c.At log k rows) {t : EventTables} (hlog : t.log c.stream.tenantId = log)
    (hn : log.map Row.number = List.range' 1 log.length) {call : SendEvents} (hwait : c.stream.wait = .poll call) :
    Connection.At { c with stream := { c.stream with
      wait := .poll { call with answer := some (eventsAfter c.stream.tenantId call.lastEventId t) } } } log k rows := by
  have hasks := h.asks
  rw [hwait] at hasks
  refine h.goOn rfl rfl ⟨hasks.1, fun answer ha => ⟨log, List.prefix_rfl, ?_⟩⟩ fun _ => ⟨_, rfl⟩
  obtain rfl := Option.some.inj ha
  rw [← hlog] at hn ⊢
  rw [eventsAfter, hasks.1, parseSequence_of_cursor h.cursor]
  exact congrArg Except.ok (listEventsAfter_eq hn)

end Answers

/-! ## The browser -/

section Browser
variable {c : Connection} {client : LiveOrders} {log rows : List EventRow} {k : Nat} {block : StreamBlock}

theorem tenantId_read (client : LiveOrders) (block : StreamBlock) : (client.read block).tenantId = client.tenantId := by
  unfold LiveOrders.read
  split <;> rfl

/-- A new connection starts where the browser is. -/
theorem Connection.At.connect (h : client.At log k) (tenantId : Id) :
    Connection.At { stream := FastifyStream.handle tenantId client.lastEventId } log k [] where
  read := Nat.zero_le _
  unread := rfl
  follows := .empty
  proper := List.forall_mem_singleton.2 trivial
  cursor := h.parse
  asks := trivial
  polling hf := by cases hf

/-- A block that is read takes the browser one event further, if it is an order. -/
theorem Connection.At.read_block (h : c.At log k rows) (hclient : client.At log k)
    (hn : log.map Row.number = List.range' 1 log.length) (hblock : c.stream.written[c.read]? = some block) :
    ∃ k' rows', (client.read block).At log k' ∧ Connection.At { c with read := c.read + 1 } log k' rows' := by
  obtain ⟨hlt, hget⟩ := List.getElem?_eq_some_iff.1 hblock
  have hdrop : c.unread = block :: c.stream.written.drop (c.read + 1) := by
    rw [Connection.unread, List.drop_eq_getElem_cons hlt, hget]
  have hunread := h.unread
  rw [hdrop] at hunread
  have hskip (hnone : ordersIn [block] = []) :
      Connection.At { c with read := c.read + 1 } log k rows := by
    refine ⟨hlt, ?_, h.follows, h.proper, h.cursor, h.asks, h.polling⟩
    rw [← List.singleton_append, ordersIn_append, hnone, List.nil_append] at hunread
    exact hunread
  cases block with
  | heartbeat => exact ⟨k, rows, hclient, hskip rfl⟩
  | message m =>
    cases m with
    | reset => exact ⟨k, rows, hclient, hskip rfl⟩
    | retry => exact ⟨k, rows, hclient, hskip rfl⟩
    | order id data =>
      cases rows with
      | nil => cases hunread
      | cons r rows =>
        obtain ⟨horder, hrest⟩ := List.cons.inj hunread
        obtain ⟨rfl, rfl⟩ := Prod.mk.inj horder
        obtain ⟨rest, hfollows⟩ := h.follows
        have hlog : k < log.length := by
          have hlength := congrArg List.length hfollows
          simp only [List.cons_append, List.length_cons, List.length_drop] at hlength
          omega
        have hr : log[k] = r := by
          rw [List.drop_eq_getElem_cons hlog, List.cons_append] at hfollows
          exact (List.cons.inj hfollows).1.symm
        have hnumber : r.number = k + 1 := by
          have hk := congrArg (·[k]?) hn
          simp only [List.getElem?_map, List.getElem?_eq_getElem hlog, hr, List.getElem?_range' hlog] at hk
          have := Option.some.inj hk
          omega
        refine ⟨k + 1, rows, ⟨hlog, ?_, ?_⟩, hlt, hrest, ⟨rest, ?_⟩, h.proper, ?_, ?_, h.polling⟩
        · show client.received ++ [serializeEvent r] = _
          rw [List.take_add_one, List.getElem?_eq_getElem hlog, hr, List.map_append, hclient.received]
          rfl
        · show some (toString r.number) = _
          rw [hnumber, if_neg (Nat.succ_ne_zero k)]
        · rw [← List.drop_drop, ← hfollows]
          rfl
        · rw [h.cursor, List.length_cons]
          exact congrArg some (by omega)
        · have hasks := h.asks
          rw [List.length_cons, ← Nat.add_assoc, Nat.add_right_comm] at hasks
          exact hasks

end Browser

/-! ## Runs -/

section Runs
variable {s s' : LiveSession} {e : LiveStep} {es : List LiveStep}

theorem LiveSession.Inv.numbered (hi : s.Inv) (tenantId : Id) :
    (s.writes.tables.log tenantId).map Row.number = List.range' 1 (s.writes.tables.log tenantId).length :=
  EventSession.Sound.numbered (s := { writes := s.writes }) ⟨hi.writes, by simp⟩ tenantId

theorem LiveSession.Inv.head (hi : s.Inv) (tenantId : Id) :
    s.writes.tables.value tenantId = (s.writes.tables.log tenantId).length := by
  have hlength := congrArg List.length (hi.writes.numbered tenantId)
  rw [List.length_map, List.length_range'] at hlength
  exact hlength.symm

theorem LiveSession.Inv.start (tenantId : Id) : (LiveSession.start tenantId).Inv :=
  ⟨NumberedLog.Inv.empty, 0, ⟨Nat.zero_le _, rfl, rfl⟩, by simp [LiveSession.start]⟩

/-- A step of the connection alone. -/
theorem LiveSession.Inv.withStream (hi : s.Inv) {c : Connection} (hc : s.connection = some c) {stream : FastifyStream}
    (htenant : stream.tenantId = c.stream.tenantId)
    (h : ∀ k rows, c.At (s.writes.tables.log s.client.tenantId) k rows →
      k + rows.length ≤ (s.writes.tables.log s.client.tenantId).length →
      ∃ rows', Connection.At { c with stream } (s.writes.tables.log s.client.tenantId) k rows') :
    (s.withStream c stream).Inv := by
  obtain ⟨k, hclient, hconnection⟩ := hi.client
  obtain ⟨hsame, rows, hat⟩ := hconnection c hc
  have hle : k + rows.length ≤ (s.writes.tables.log s.client.tenantId).length := by
    have hlength := List.IsPrefix.length_le hat.follows
    have hwithin := hclient.within
    rw [List.length_drop] at hlength
    omega
  obtain ⟨rows', hat'⟩ := h k rows hat hle
  refine ⟨hi.writes, k, hclient, fun c' hc' => ?_⟩
  obtain rfl := Option.some.inj hc'
  exact ⟨htenant.trans hsame, rows', hat'⟩

theorem tenantId_afterPoll (st : FastifyStream) : st.afterPoll.tenantId = st.tenantId := by
  unfold FastifyStream.afterPoll
  split <;> rfl

theorem tenantId_runPoll (st : FastifyStream) : st.runPoll.tenantId = st.tenantId := by
  unfold FastifyStream.runPoll
  split
  · exact tenantId_afterPoll st
  · rfl

theorem tenantId_resume (head : Nat) (st : FastifyStream) : (st.resume head).tenantId = st.tenantId := by
  unfold FastifyStream.resume
  split
  · rfl
  · rw [tenantId_runPoll]
    unfold FastifyStream.resolve
    split <;> rfl

theorem tenantId_tick (st : FastifyStream) : st.tick.tenantId = st.tenantId := by
  unfold FastifyStream.tick
  split
  · rfl
  · exact tenantId_runPoll st

theorem tenantId_finishPoll (answer : Except AppError (List OrderEventView)) (st : FastifyStream) :
    (st.finishPoll answer).tenantId = st.tenantId := by
  unfold FastifyStream.finishPoll
  cases answer with
  | error e => exact FastifyStream.tenantId_closeStream st
  | ok events =>
    dsimp only
    split
    · rfl
    · rw [FastifyStream.foldl_send]

/-- A step of the log alone. -/
theorem LiveSession.Inv.write (hi : s.Inv) {e : NumberedLog.Event Id EventInput}
    {writes : NumberedLog.Session Id EventInput} (h : NumberedLog.step s.writes e = some writes) :
    LiveSession.Inv { s with writes } := by
  obtain ⟨k, hclient, hconnection⟩ := hi.client
  have hlog := NumberedLog.step_grows e hi.writes h s.client.tenantId
  refine ⟨NumberedLog.step_inv e hi.writes h, k, hclient.grow hlog, fun c hc => ?_⟩
  obtain ⟨hsame, rows, hat⟩ := hconnection c hc
  exact ⟨hsame, rows, hat.grow hlog⟩

theorem LiveSession.Inv.opened (hi : s.Inv) : LiveSession.Inv { s with
    connection := some { stream := FastifyStream.handle s.client.tenantId s.client.lastEventId } } := by
  obtain ⟨k, hclient, -⟩ := hi.client
  refine ⟨hi.writes, k, hclient, fun c hc => ?_⟩
  obtain rfl := Option.some.inj hc
  exact ⟨rfl, [], .connect hclient _⟩

/-- The browser reads a block, and may be the further for it. -/
theorem LiveSession.Inv.read (hi : s.Inv) {c : Connection} (hc : s.connection = some c) {block : StreamBlock}
    (hblock : c.stream.written[c.read]? = some block) : LiveSession.Inv { s with
      client := s.client.read block
      connection := some { c with read := c.read + 1 } } := by
  obtain ⟨k, hclient, hconnection⟩ := hi.client
  obtain ⟨hsame, rows, hat⟩ := hconnection c hc
  obtain ⟨k', rows', hclient', hat'⟩ := hat.read_block hclient (hi.numbered s.client.tenantId) hblock
  have htenant := tenantId_read s.client block
  refine ⟨hi.writes, k', ?_, fun c' hc' => ?_⟩
  · show (s.client.read block).At (s.writes.tables.log (s.client.read block).tenantId) k'
    rw [htenant]
    exact hclient'
  · obtain rfl := Option.some.inj hc'
    refine ⟨hsame.trans htenant.symm, rows', ?_⟩
    show Connection.At _ (s.writes.tables.log (s.client.read block).tenantId) k' rows'
    rw [htenant]
    exact hat'

/-- Every step keeps browser and connection in order. -/
theorem LiveSession.Inv.step (hi : s.Inv) (h : liveStep s e = some s') : s'.Inv := by
  cases e with
  | write e =>
    obtain ⟨writes, hw, rfl⟩ := Option.map_eq_some_iff.1 h
    exact hi.write hw
  | connect =>
    obtain ⟨-, h⟩ := Option.ite_none_right_eq_some.1 h
    cases h
    exact hi.opened
  | head =>
    obtain ⟨c, hc, h⟩ := Option.bind_eq_some_iff.1 h
    split at h
    · next hwait =>
      cases h
      refine hi.withStream hc (tenantId_resume _ _) fun k rows hat hle => ⟨rows, hat.resume hwait ?_⟩
      obtain ⟨_, _, hconnection⟩ := hi.client
      rw [(hconnection c hc).1, hi.head]
      exact hle
    · cases h
  | failHead =>
    obtain ⟨c, hc, h⟩ := Option.bind_eq_some_iff.1 h
    dsimp only at h
    split at h
    · next hwait =>
      cases h
      exact hi.withStream hc (FastifyStream.tenantId_closeStream _) fun k rows hat _ => ⟨rows, hat.failHead hwait⟩
    · cases h
  | query =>
    obtain ⟨c, hc, h⟩ := Option.bind_eq_some_iff.1 h
    dsimp only at h
    split at h
    · next call hwait =>
      obtain ⟨-, h⟩ := Option.ite_none_right_eq_some.1 h
      cases h
      obtain ⟨_, _, hconnection⟩ := hi.client
      exact hi.withStream hc rfl fun k rows hat _ =>
        ⟨rows, hat.query (by rw [(hconnection c hc).1]) (hi.numbered s.client.tenantId) hwait⟩
    · cases h
  | failQuery =>
    obtain ⟨c, hc, h⟩ := Option.bind_eq_some_iff.1 h
    dsimp only at h
    split at h
    · cases h
      exact hi.withStream hc ((tenantId_afterPoll _).trans (FastifyStream.tenantId_closeStream _)) fun k rows hat _ =>
        ⟨rows, hat.failQuery⟩
    · cases h
  | answered =>
    obtain ⟨c, hc, h⟩ := Option.bind_eq_some_iff.1 h
    split at h
    · next call hwait =>
      obtain ⟨answer, ha, rfl⟩ := Option.map_eq_some_iff.1 h
      refine hi.withStream hc ((tenantId_afterPoll _).trans (tenantId_finishPoll _ _)) fun k rows hat _ => ?_
      obtain ⟨new, hat'⟩ := hat.answered (hi.numbered s.client.tenantId) hwait ha
      exact ⟨_, hat'⟩
    · cases h
  | tick =>
    obtain ⟨c, hc, h⟩ := Option.bind_eq_some_iff.1 h
    split at h
    · next hwait =>
      cases h
      exact hi.withStream hc (tenantId_tick _) fun k rows hat _ => ⟨rows, hat.tick hwait⟩
    · cases h
  | heartbeat now =>
    obtain ⟨c, hc, h⟩ := Option.bind_eq_some_iff.1 h
    obtain ⟨-, h⟩ := Option.ite_none_right_eq_some.1 h
    cases h
    exact hi.withStream hc rfl fun k rows hat _ => ⟨rows, hat.heartbeat now⟩
  | shutdown =>
    obtain ⟨c, hc, rfl⟩ := Option.map_eq_some_iff.1 h
    exact hi.withStream hc (FastifyStream.tenantId_closeStream _) fun k rows hat _ => ⟨rows, hat.close⟩
  | read =>
    obtain ⟨c, hc, h⟩ := Option.bind_eq_some_iff.1 h
    obtain ⟨block, hblock, rfl⟩ := Option.map_eq_some_iff.1 h
    exact hi.read hc hblock
  | disconnect =>
    obtain ⟨c, hc, rfl⟩ := Option.map_eq_some_iff.1 h
    obtain ⟨k, hclient, -⟩ := hi.client
    exact ⟨hi.writes, k, hclient, fun c' hc' => by cases hc'⟩

theorem LiveSession.Inv.run (hi : s.Inv) (h : Runs.exec liveStep s es = some s') : s'.Inv := by
  induction es generalizing s with
  | nil => rw [Runs.exec_nil] at h; exact h ▸ hi
  | cons e es ih =>
    obtain ⟨s₁, hs, hr⟩ := Runs.exec_cons.1 h
    exact ih (hi.step hs) hr

/-! ## Catching up -/

theorem received_foldl_read (blocks : List StreamBlock) (client : LiveOrders) :
    (blocks.foldl LiveOrders.read client).received = client.received ++ (ordersIn blocks).map (·.2) ∧
      (blocks.foldl LiveOrders.read client).tenantId = client.tenantId := by
  induction blocks generalizing client with
  | nil => simp [ordersIn]
  | cons block blocks ih =>
    obtain ⟨hreceived, htenant⟩ := ih (client.read block)
    rw [List.foldl_cons]
    refine ⟨?_, htenant.trans (tenantId_read client block)⟩
    rw [hreceived]
    match block with
    | .message (.order id data) => simp [LiveOrders.read, ordersIn]
    | .message (.reset _ _) | .message (.retry _) | .heartbeat _ => rfl

/-- The browser can read what has been written. -/
theorem exec_read {c : Connection} (hc : s.connection = some c) : ∃ s',
    Runs.exec liveStep s (List.replicate c.unread.length .read) = some s' ∧ s'.writes = s.writes ∧
      s'.client = c.unread.foldl LiveOrders.read s.client ∧ s'.connection.isSome := by
  induction hn : c.unread.length generalizing s c with
  | zero =>
    rw [List.length_eq_zero_iff] at hn
    exact ⟨s, rfl, rfl, by rw [hn]; rfl, by rw [hc]; rfl⟩
  | succ n ih =>
    have hlt : c.read < c.stream.written.length := by
      rw [Connection.unread, List.length_drop] at hn
      omega
    have hdrop : c.unread = c.stream.written[c.read] :: c.stream.written.drop (c.read + 1) :=
      List.drop_eq_getElem_cons hlt
    let s₁ : LiveSession :=
      { s with
        client := s.client.read c.stream.written[c.read]
        connection := some { c with read := c.read + 1 } }
    have hstep : liveStep s .read = some s₁ := by
      simp only [liveStep, hc, Option.bind_some, List.getElem?_eq_getElem hlt, Option.map_some, s₁]
    have hrest : ({ c with read := c.read + 1 } : Connection).unread.length = n := by
      rw [Connection.unread, List.length_drop] at hn ⊢
      dsimp only
      omega
    have hconnection : s₁.connection = some { c with read := c.read + 1 } := rfl
    obtain ⟨s', hexec, hwrites, hclient, hsome⟩ := ih hconnection hrest
    refine ⟨s', Runs.exec_cons.2 ⟨s₁, hstep, hexec⟩, hwrites, ?_, hsome⟩
    rw [hclient, hdrop]
    rfl

/-- A new connection polls, and what follows is written to it. -/
theorem LiveSession.Inv.answers (hi : s.Inv) (hc : s.connection = none) : ∃ c : Connection,
    Runs.exec liveStep s [.connect, .head, .query, .answered] = some { s with connection := some c } ∧
      ordersIn c.unread = (Feed.chunk 100 s.client.received.length
        (s.writes.tables.log s.client.tenantId)).map orderOf := by
  obtain ⟨k, hclient, -⟩ := hi.client
  have hk : s.client.received.length = k := by
    rw [hclient.received, List.length_map, List.length_take, Nat.min_eq_left hclient.within]
  let stream := FastifyStream.handle s.client.tenantId s.client.lastEventId
  have hresolve : stream.resolve (s.writes.tables.value s.client.tenantId) = stream :=
    FastifyStream.resolve_of_le hclient.parse (by rw [hi.head]; exact hclient.within)
  let events := (Feed.chunk 100 k (s.writes.tables.log s.client.tenantId)).map serializeEvent
  have hanswer : eventsAfter s.client.tenantId s.client.lastEventId s.writes.tables = .ok events := by
    rw [eventsAfter, parseSequence_of_cursor hclient.parse]
    exact congrArg Except.ok (listEventsAfter_eq (hi.numbered s.client.tenantId))
  let asking (answer : Option (Except AppError (List OrderEventView))) : FastifyStream :=
    { stream with isPolling := true, wait := .poll { lastEventId := stream.lastEventId, answer } }
  let c : Connection := { stream := FastifyStream.afterPoll ((asking (some (.ok events))).finishPoll (.ok events)) }
  have hconnect : liveStep s .connect = some { s with connection := some { stream } } := by
    rw [liveStep, hc]
    rfl
  have hhead : liveStep { s with connection := some { stream } } .head =
      some { s with connection := some { stream := asking none } } := by
    show some (LiveSession.withStream _ _ (FastifyStream.resume (s.writes.tables.value s.client.tenantId) stream)) = _
    rw [FastifyStream.resume, hresolve]
    rfl
  have hquery : liveStep { s with connection := some { stream := asking none } } .query =
      some { s with connection := some { stream := asking (some (.ok events)) } } := by
    show some (LiveSession.withStream _ _ (asking (some (eventsAfter s.client.tenantId _ s.writes.tables)))) = _
    rw [← hanswer]
    rfl
  have hanswered : liveStep { s with connection := some { stream := asking (some (.ok events)) } } .answered =
      some { s with connection := some c } := rfl
  have hwritten : c.unread = .message (.retry OrderStream.pollIntervalMs) ::
      events.map fun e => .message (.order e.sequence e) := by
    simp only [Connection.unread, c, List.drop_zero, FastifyStream.finishPoll, FastifyStream.foldl_send]
    rfl
  refine ⟨c, ?_, ?_⟩
  · exact Runs.exec_cons.2 ⟨_, hconnect, Runs.exec_cons.2 ⟨_, hhead, Runs.exec_cons.2 ⟨_, hquery,
      Runs.exec_cons.2 ⟨_, hanswered, rfl⟩⟩⟩⟩
  · rw [hwritten, hk, ← List.singleton_append, ordersIn_append, ordersIn, ordersIn, List.map_map, List.filterMap_map]
    exact congrFun List.filterMap_eq_map _

/-- One connection, as far as its first poll. -/
theorem LiveSession.Inv.connect (hi : s.Inv) (hc : s.connection = none) : ∃ es s', Runs.exec liveStep s es = some s' ∧
    s'.connection = none ∧ s'.writes = s.writes ∧ s'.client.tenantId = s.client.tenantId ∧
    s'.client.received = s.client.received ++ (Feed.chunk 100 s.client.received.length
      (s.writes.tables.log s.client.tenantId)).map serializeEvent := by
  obtain ⟨c, hanswers, hunread⟩ := hi.answers hc
  have hconnection : ({ s with connection := some c } : LiveSession).connection = some c := rfl
  obtain ⟨s', hread, hwrites, hreader, hsome⟩ := exec_read hconnection
  obtain ⟨c', hc'⟩ := Option.isSome_iff_exists.1 hsome
  obtain ⟨hreceived, htenant⟩ := received_foldl_read c.unread s.client
  have hdisconnect : liveStep s' .disconnect = some { s' with connection := none } := by
    rw [liveStep, hc']
    rfl
  refine ⟨[.connect, .head, .query, .answered] ++ (List.replicate c.unread.length .read ++ [.disconnect]),
    { s' with connection := none }, ?_, rfl, hwrites, ?_, ?_⟩
  · exact Runs.exec_append.2 ⟨_, hanswers, Runs.exec_append.2 ⟨s', hread, Runs.exec_cons.2 ⟨_, hdisconnect, rfl⟩⟩⟩
  · exact (congrArg LiveOrders.tenantId hreader).trans htenant
  · have hreceived' := (congrArg LiveOrders.received hreader).trans hreceived
    rw [hunread, List.map_map] at hreceived'
    exact hreceived'

/-- Connection by connection the browser comes to the end of the log. -/
theorem LiveSession.Inv.reads_on (hi : s.Inv) (hc : s.connection = none) : ∃ es s', Runs.exec liveStep s es = some s' ∧
    s'.writes = s.writes ∧ s'.client.received = (s.writes.tables.log s.client.tenantId).map serializeEvent := by
  induction hn : (s.writes.tables.log s.client.tenantId).length - s.client.received.length using Nat.strong_induction_on
    generalizing s with
  | _ n ih =>
    obtain ⟨k, hclient, -⟩ := hi.client
    have hk : s.client.received.length = k := by
      rw [hclient.received, List.length_map, List.length_take, Nat.min_eq_left hclient.within]
    by_cases hend : k = (s.writes.tables.log s.client.tenantId).length
    · refine ⟨[], s, rfl, rfl, ?_⟩
      rw [hclient.received, List.take_of_length_le hend.ge]
    · have hwithin := hclient.within
      obtain ⟨es, s₁, hexec, hnone, hwrites, htenant, hreceived⟩ := hi.connect hc
      have hlength := congrArg List.length hreceived
      rw [List.length_append, List.length_map, Feed.chunk, List.length_take, List.length_drop] at hlength
      have hless : (s₁.writes.tables.log s₁.client.tenantId).length - s₁.client.received.length < n := by
        rw [hwrites, htenant]
        omega
      obtain ⟨es', s', hexec', hwrites', hall⟩ := ih _ hless (hi.run hexec) hnone rfl
      rw [hwrites, htenant] at hall
      exact ⟨es ++ es', s', Runs.exec_append.2 ⟨s₁, hexec, hexec'⟩, hwrites'.trans hwrites, hall⟩

theorem LiveSession.Inv.catchesUp (hi : s.Inv) : ∃ es s', Runs.exec liveStep s es = some s' ∧ s'.writes = s.writes ∧
    s'.client.received = (s.writes.tables.log s.client.tenantId).map serializeEvent := by
  cases hc : s.connection with
  | none => exact hi.reads_on hc
  | some c =>
    have hdisconnect : liveStep s .disconnect = some { s with connection := none } := by
      rw [liveStep, hc]
      rfl
    obtain ⟨es, s', hexec, hwrites, hall⟩ := (hi.step hdisconnect).reads_on rfl
    exact ⟨.disconnect :: es, s', Runs.exec_cons.2 ⟨_, hdisconnect, hexec⟩, hwrites, hall⟩

theorem LiveSession.Inv.followsLog (hi : s.Inv) : FollowsLog s := by
  obtain ⟨k, hclient, hconnection⟩ := hi.client
  refine ⟨?_, ?_, fun c hc => ?_, hi.catchesUp⟩
  · rw [hclient.received]
    exact (List.take_prefix _ _).map _
  · rw [hclient.cursor, hclient.received, List.getLast?_map, Option.map_map]
    have hfollows : Feed.Follows 0 (s.writes.tables.log s.client.tenantId)
        ((s.writes.tables.log s.client.tenantId).take k) := List.take_prefix _ _
    have hlength : ((s.writes.tables.log s.client.tenantId).take k).length = k := by
      rw [List.length_take, Nat.min_eq_left hclient.within]
    cases hlast : ((s.writes.tables.log s.client.tenantId).take k).getLast? with
    | none =>
      rw [List.getLast?_eq_none_iff] at hlast
      rw [hlast] at hlength
      exact if_pos hlength.symm
    | some e =>
      have hnumber : e.number = k := by
        rw [last_number (Follows.numbers (hi.numbered _) hfollows) hlast, hlength, Nat.zero_add]
      have hpos : k ≠ 0 := by
        rintro rfl
        rw [List.take_zero] at hlast
        cases hlast
      rw [if_neg hpos, Option.map_some, ← hnumber]
      rfl
  · obtain ⟨-, rows, hat⟩ := hconnection c hc
    intro block hblock
    have hproper := hat.proper block hblock
    match block with
    | .message (.reset _ _) => exact hproper.elim
    | .message (.order _ _) | .message (.retry _) | .heartbeat _ => rfl

end Runs

/-- Whatever the order of the writes, the polls and the failures, a dashboard receives each event once and in order. -/
theorem live_orders_follow_log (tenantId : Id) {es : List LiveStep} {s : LiveSession}
    (h : Runs.exec liveStep (LiveSession.start tenantId) es = some s) : FollowsLog s :=
  ((LiveSession.Inv.start tenantId).run h).followsLog

namespace Demo

/-- Two events, and a connection that breaks after the first of them has been read. -/
def broken : List LiveStep :=
  [.write (.start "tenant"), .write (.take 0), .write (.insert 0 (created "order-1")), .write (.take 0),
    .write (.insert 0 (created "order-2")), .write (.commit 0), .connect, .head, .query, .answered, .read, .read,
    .disconnect, .connect, .head, .query, .answered, .read, .read]

end Demo

open Demo in
theorem live_orders_follow_log_broken : ∃ s, Runs.exec liveStep (LiveSession.start "tenant") broken = some s ∧
    s.client.received.map (·.sequence) = ["1", "2"] ∧ FollowsLog s := by
  have hread : (Runs.exec liveStep (LiveSession.start "tenant") broken).map (·.client.received.map (·.sequence)) =
      some ["1", "2"] := by decide +kernel
  obtain ⟨s, hr, hsequences⟩ := Option.map_eq_some_iff.1 hread
  exact ⟨s, hr, hsequences, live_orders_follow_log "tenant" hr⟩

end Komanda
