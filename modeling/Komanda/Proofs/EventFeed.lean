import Komanda.Lib.Feed
import Komanda.OrderEvents

/-!
# The readers of the order events

The numbers of a tenant come out of a locked counter, so its committed events are `1, …, n` and no reader can
pass over one that is still to come. A reader that goes on from its last event receives every later one, once
and in their order.
-/

namespace Komanda
open NumberedLog OrderQueryService OrderRepository

/-! ## The law -/

/-- The events of a tenant that come after a cursor. -/
def EventSession.after (tenantId : Id) (c : Nat) (s : EventSession) : List EventRow :=
  (s.writes.tables.log tenantId).filter (c < ·.number)

/-- What holds of the committed events and of the readers. -/
structure DeliversEvents (s : EventSession) : Prop where
  /-- The sequences of a tenant are 1 to n. -/
  numbered : ∀ tenantId, (s.writes.tables.log tenantId).map Row.number =
    List.range' 1 (s.writes.tables.log tenantId).length
  /-- An event that becomes visible later has a higher number. -/
  grows : ∀ es s', Runs.exec eventStep s es = some s' → ∀ tenantId, ∃ new,
    s'.writes.tables.log tenantId = s.writes.tables.log tenantId ++ new ∧
      ∀ e ∈ new, ∀ d ∈ s.writes.tables.log tenantId, d.number < e.number
  /-- A reader has received the first of the events after its cursor, and may always ask for more. -/
  received : ∀ j r c, s.readers[j]? = some r → parseSequence r.cursor = .ok c →
    r.received <+: (s.after r.tenantId c).map serializeEvent ∧ (eventStep s (.poll j)).isSome
  /-- With its further calls it receives the events that are there, up to a hundred for each call. -/
  delivers : ∀ es s', Runs.exec eventStep s es = some s' → ∀ j r c, s.readers[j]? = some r →
    parseSequence r.cursor = .ok c → ∃ r', s'.readers[j]? = some r' ∧
      ((s.after r.tenantId c).take (100 * es.count (.poll j))).map serializeEvent <+: r'.received

/-! ## The listing -/

section Listing
variable {rows log : List EventRow} {t : EventTables} {tenantId : Id} {a c n limit : Nat}

/-- A sequence is read back from its text. -/
theorem parseSequence_toString : parseSequence (some (toString n)) = .ok n := by
  have hlist : (toString n).toList = Nat.toDigits 10 n := Nat.toList_repr
  have hne : toString n ≠ "" := by
    intro h
    rw [h] at hlist
    exact Nat.toDigits_ne_nil hlist.symm
  have hdigits : (toString n).toList.all Char.isDigit = true := by
    rw [hlist, List.all_eq_true]
    intro ch hch
    exact Nat.isDigit_of_mem_toDigits (by decide) (by decide) hch
  show (if toString n = "" then _ else if _ then _ else _) = _
  rw [if_neg hne, if_pos hdigits, hlist, Nat.ofDigitChars_ten_toDigits]

/-- Of rows with consecutive numbers, those above `c` are the ones behind a position. -/
theorem filter_above (h : rows.map Row.number = List.range' a rows.length) :
    rows.filter (c < ·.number) = rows.drop (c + 1 - a) := by
  induction rows generalizing a with
  | nil => simp
  | cons r rows ih =>
    rw [List.map_cons, List.length_cons, List.range'_succ, List.cons.injEq] at h
    obtain ⟨hr, h⟩ := h
    by_cases hc : c < r.number
    · have hdrop : c + 1 - a = 0 := by omega
      have hrest : c + 1 - (a + 1) = 0 := by omega
      rw [List.filter_cons_of_pos (by exact decide_eq_true hc), ih h, hdrop, hrest, List.drop_zero, List.drop_zero]
    · have hdrop : c + 1 - a = (c + 1 - (a + 1)) + 1 := by omega
      rw [List.filter_cons_of_neg (by simpa using hc), ih h, hdrop, List.drop_succ_cons]

theorem pairwise_number (h : rows.map Row.number = List.range' a n) : rows.Pairwise fun d e => d.number < e.number := by
  rw [← List.pairwise_map (f := Row.number) (R := fun m n => m < n), h]
  exact List.pairwise_lt_range'

theorem chunk_numbers (h : log.map Row.number = List.range' 1 log.length) : (Feed.chunk limit c log).map Row.number =
    List.range' (c + 1) (Feed.chunk limit c log).length := by
  rw [Feed.chunk, List.map_take, List.map_drop, h, List.length_take, List.length_drop, List.drop_range',
    Nat.mul_one, Nat.add_comm 1 c]
  by_cases hle : log.length - c ≤ limit
  · rw [List.take_range'_of_length_le hle, Nat.min_eq_right hle]
  · rw [List.take_range'_of_length_ge (Nat.le_of_not_le hle), Nat.min_eq_left (Nat.le_of_not_le hle)]

/-- The last of rows with consecutive numbers. -/
theorem last_number {e : EventRow} (h : rows.map Row.number = List.range' (a + 1) rows.length)
    (he : rows.getLast? = some e) : e.number = a + rows.length := by
  have hlast := congrArg List.getLast? h
  rw [List.getLast?_map, he, List.getLast?_range', Option.map_some] at hlast
  split at hlast
  · cases hlast
  · have hnumber := Option.some.inj hlast
    omega

/-- The listing answers with the next events of the tenant. -/
theorem listEventsAfter_eq (h : (t.log tenantId).map Row.number = List.range' 1 (t.log tenantId).length) :
    listEventsAfter tenantId c limit t = (Feed.chunk limit c (t.log tenantId)).map serializeEvent := by
  have hfilter : (t.rows.filter fun e => e.key = tenantId && c < e.number) =
      (t.log tenantId).filter (c < ·.number) := by
    rw [Tables.log, List.filter_filter]
    exact List.filter_congr fun e _ => Bool.and_comm _ _
  have hsorted : ((t.log tenantId).filter (c < ·.number)).Pairwise bySequence :=
    ((pairwise_number h).imp fun hlt => Nat.le_of_lt hlt).filter _
  rw [listEventsAfter, hfilter, hsorted.insertionSort_eq, filter_above h, Feed.chunk, Nat.add_sub_cancel]

end Listing

/-! ## A reader -/

/-- The reader has received these rows after the cursor it came with, and knows where it is. -/
structure EventReader.At (r : EventReader) (t : EventTables) (c : Nat) (rows : List EventRow) : Prop where
  received : r.received = rows.map serializeEvent
  follows : Feed.Follows c (t.log r.tenantId) rows
  cursor : parseSequence r.lastEventId = .ok (c + rows.length)

section Reader
variable {r : EventReader} {t t' : EventTables} {c : Nat} {rows : List EventRow}

theorem EventReader.At.grow (h : r.At t c rows) (hlog : t.log r.tenantId <+: t'.log r.tenantId) : r.At t' c rows :=
  ⟨h.received, h.follows.grow hlog, h.cursor⟩

theorem EventReader.At.poll (h : r.At t c rows)
    (hn : (t.log r.tenantId).map Row.number = List.range' 1 (t.log r.tenantId).length) :
    ∃ r', r.poll t = .ok r' ∧ r'.tenantId = r.tenantId ∧ r'.cursor = r.cursor ∧
      r'.At t c (rows ++ Feed.chunk 100 (c + rows.length) (t.log r.tenantId)) := by
  let new := Feed.chunk 100 (c + rows.length) (t.log r.tenantId)
  let events := new.map serializeEvent
  have hevents : eventsAfter r.tenantId r.lastEventId t = .ok events := by
    rw [eventsAfter, h.cursor]
    exact congrArg Except.ok (listEventsAfter_eq hn)
  let r' : EventReader := { r with
    received := r.received ++ events, lastEventId := (events.getLast?.map (·.sequence)).or r.lastEventId }
  have hpoll : r.poll t = .ok r' := by
    rw [EventReader.poll, hevents]
    rfl
  refine ⟨r', hpoll, rfl, rfl, ?_, h.follows.poll, ?_⟩
  · show r.received ++ events = (rows ++ new).map serializeEvent
    rw [h.received, List.map_append]
  · show parseSequence ((events.getLast?.map (·.sequence)).or r.lastEventId) = .ok (c + (rows ++ new).length)
    rw [List.length_append, List.getLast?_map, Option.map_map]
    cases hlast : new.getLast? with
    | none =>
      rw [List.getLast?_eq_none_iff.1 hlast]
      exact h.cursor
    | some e =>
      show parseSequence (some (toString e.number)) = _
      have hnumber : e.number = c + rows.length + new.length := last_number (chunk_numbers hn) hlast
      rw [parseSequence_toString, hnumber, Nat.add_assoc]

theorem poll_cursor {r' : EventReader} (h : (r.poll t).toOption = some r') : r'.cursor = r.cursor := by
  unfold EventReader.poll at h
  cases hevents : eventsAfter r.tenantId r.lastEventId t with
  | error e => rw [hevents] at h; cases h
  | ok events => rw [hevents] at h; cases h; rfl

end Reader

/-! ## Runs -/

/-- The numbers are taken as they should be, and every reader knows where it is. -/
structure EventSession.Sound (s : EventSession) : Prop where
  writes : NumberedLog.Inv s.writes
  readers : ∀ r ∈ s.readers, ∀ c, parseSequence r.cursor = .ok c → ∃ rows, r.At s.writes.tables c rows

section Runs
variable {s s' : EventSession} {e : EventStep} {es : List EventStep} {r : EventReader} {j c n : Nat}
  {tenantId : Id} {log rows : List EventRow}

theorem EventSession.Sound.empty : EventSession.Sound {} :=
  ⟨NumberedLog.Inv.empty, fun _ h => (List.not_mem_nil h).elim⟩

theorem EventSession.Sound.numbered (hs : s.Sound) (tenantId : Id) :
    (s.writes.tables.log tenantId).map Row.number = List.range' 1 (s.writes.tables.log tenantId).length := by
  have h := hs.writes.numbered tenantId
  have hlength := congrArg List.length h
  rw [List.length_map, List.length_range'] at hlength
  rw [h, hlength]

theorem EventSession.Sound.step_grows (hs : s.Sound) (h : eventStep s e = some s') :
    s.writes.tables.log tenantId <+: s'.writes.tables.log tenantId := by
  cases e with
  | write e =>
    obtain ⟨writes, hw, rfl⟩ := Option.map_eq_some_iff.1 h
    exact NumberedLog.step_grows e hs.writes hw tenantId
  | subscribe => cases h; exact List.prefix_rfl
  | poll =>
    obtain ⟨x, -, h⟩ := Option.bind_eq_some_iff.1 h
    obtain ⟨x', -, rfl⟩ := Option.map_eq_some_iff.1 h
    exact List.prefix_rfl

/-- A reader before and after a step: it stays where it is in the longer log, or it has called the listing. -/
theorem EventSession.Sound.reader (hs : s.Sound) (h : eventStep s e = some s') (hr : s.readers[j]? = some r)
    (hat : r.At s.writes.tables c rows) :
    ∃ r', s'.readers[j]? = some r' ∧ r'.tenantId = r.tenantId ∧ r'.cursor = r.cursor ∧
      (e ≠ .poll j → r'.At s'.writes.tables c rows) ∧
      (e = .poll j → s'.writes = s.writes ∧ r'.At s'.writes.tables c
        (rows ++ Feed.chunk 100 (c + rows.length) (s.writes.tables.log r.tenantId))) := by
  cases e with
  | write e =>
    obtain ⟨writes, hw, rfl⟩ := Option.map_eq_some_iff.1 h
    refine ⟨r, hr, rfl, rfl, fun _ => ?_, fun h => by cases h⟩
    exact hat.grow (NumberedLog.step_grows e hs.writes hw r.tenantId)
  | subscribe tenantId cursor =>
    cases h
    refine ⟨r, ?_, rfl, rfl, fun _ => hat, fun h => by cases h⟩
    obtain ⟨hlt, -⟩ := List.getElem?_eq_some_iff.1 hr
    rw [List.getElem?_append_left hlt]
    exact hr
  | poll i =>
    obtain ⟨x, hx, h⟩ := Option.bind_eq_some_iff.1 h
    obtain ⟨x', hx', rfl⟩ := Option.map_eq_some_iff.1 h
    by_cases hij : i = j
    · subst hij
      cases hx.symm.trans hr
      obtain ⟨r', hpoll, htenant, hcursor, hat'⟩ := hat.poll (hs.numbered r.tenantId)
      rw [hpoll] at hx'
      cases hx'
      obtain ⟨hlt, -⟩ := List.getElem?_eq_some_iff.1 hr
      exact ⟨_, List.getElem?_set_self hlt, htenant, hcursor, fun h => absurd rfl h,
        fun _ => ⟨rfl, hat'⟩⟩
    · refine ⟨r, ?_, rfl, rfl, fun _ => hat, fun h => by cases h; exact absurd rfl hij⟩
      exact (List.getElem?_set_ne hij).trans hr

theorem EventSession.Sound.step (hs : s.Sound) (h : eventStep s e = some s') : s'.Sound := by
  cases e with
  | write e =>
    obtain ⟨writes, hw, rfl⟩ := Option.map_eq_some_iff.1 h
    refine ⟨NumberedLog.step_inv e hs.writes hw, fun r hr c hc => ?_⟩
    obtain ⟨rows, hat⟩ := hs.readers r hr c hc
    exact ⟨rows, hat.grow (NumberedLog.step_grows e hs.writes hw r.tenantId)⟩
  | subscribe tenantId cursor =>
    cases h
    refine ⟨hs.writes, fun r hr c hc => ?_⟩
    rcases List.mem_append.1 hr with hr | hr
    · exact hs.readers r hr c hc
    · rw [List.mem_singleton] at hr
      subst hr
      exact ⟨[], rfl, .empty, hc⟩
  | poll j =>
    obtain ⟨x, hx, h⟩ := Option.bind_eq_some_iff.1 h
    obtain ⟨x', hx', rfl⟩ := Option.map_eq_some_iff.1 h
    refine ⟨hs.writes, fun r hr c hc => ?_⟩
    rcases List.mem_or_eq_of_mem_set hr with hr | rfl
    · exact hs.readers r hr c hc
    · obtain ⟨rows, hat⟩ := hs.readers x (List.mem_of_getElem? hx) c (by rw [← poll_cursor hx']; exact hc)
      obtain ⟨r', hpoll, -, -, hat'⟩ := hat.poll (hs.numbered x.tenantId)
      rw [hpoll] at hx'
      cases hx'
      exact ⟨_, hat'⟩

theorem EventSession.Sound.exec (hs : s.Sound) (h : Runs.exec eventStep s es = some s') : s'.Sound := by
  induction es generalizing s with
  | nil => rw [Runs.exec_nil] at h; exact h ▸ hs
  | cons e es ih =>
    obtain ⟨s₁, hstep, hrest⟩ := Runs.exec_cons.1 h
    exact ih (hs.step hstep) hrest

/-- The committed events of a tenant are continued by those of later states. -/
theorem EventSession.Sound.grows (hs : s.Sound) (h : Runs.exec eventStep s es = some s') :
    s.writes.tables.log tenantId <+: s'.writes.tables.log tenantId := by
  induction es generalizing s with
  | nil => rw [Runs.exec_nil] at h; exact h ▸ List.prefix_rfl
  | cons e es ih =>
    obtain ⟨s₁, hstep, hrest⟩ := Runs.exec_cons.1 h
    exact (hs.step_grows hstep).trans (ih (hs.step hstep) hrest)

/-- Every call of a reader takes it a hundred events further in the log that was there at first. -/
theorem EventSession.Sound.covers (hs : s.Sound) (h : Runs.exec eventStep s es = some s')
    (hr : s.readers[j]? = some r) (hc : parseSequence r.cursor = .ok c) (hat : r.At s.writes.tables c rows)
    (hlog : log <+: s.writes.tables.log r.tenantId) (hn : Feed.Covers c n log rows) :
    ∃ r', s'.readers[j]? = some r' ∧ r'.tenantId = r.tenantId ∧ r'.cursor = r.cursor ∧
      ∃ rows', r'.At s'.writes.tables c rows' ∧ Feed.Covers c (n + 100 * es.count (.poll j)) log rows' := by
  induction es generalizing s r rows n with
  | nil =>
    rw [Runs.exec_nil] at h
    subst h
    exact ⟨r, hr, rfl, rfl, rows, hat, hn⟩
  | cons e es ih =>
    obtain ⟨s₁, hstep, hrest⟩ := Runs.exec_cons.1 h
    obtain ⟨r₁, hr₁, htenant, hcursor, hkept, hpolled⟩ := hs.reader hstep hr hat
    have hlog₁ : log <+: s₁.writes.tables.log r₁.tenantId := by
      rw [htenant]
      exact hlog.trans (hs.step_grows hstep)
    have hc₁ : parseSequence r₁.cursor = .ok c := by rw [hcursor]; exact hc
    by_cases he : e = .poll j
    · obtain ⟨-, hat₁⟩ := hpolled he
      obtain ⟨r', hr', htenant', hcursor', rows', hat', hcovers⟩ :=
        ih (hs.step hstep) hrest hr₁ hc₁ hat₁ hlog₁ (hn.poll hlog hat.follows)
      refine ⟨r', hr', htenant'.trans htenant, hcursor'.trans hcursor, rows', hat', ?_⟩
      have hcount : n + 100 + 100 * es.count (.poll j) = n + 100 * (e :: es).count (.poll j) := by
        rw [he, List.count_cons_self]
        omega
      exact hcount ▸ hcovers
    · obtain ⟨r', hr', htenant', hcursor', rows', hat', hcovers⟩ :=
        ih (hs.step hstep) hrest hr₁ hc₁ (hkept he) hlog₁ hn
      refine ⟨r', hr', htenant'.trans htenant, hcursor'.trans hcursor, rows', hat', ?_⟩
      rw [List.count_cons_of_ne he]
      exact hcovers

/-- In every run, the readers of the order events receive each event after their cursor once, in order. -/
theorem events_delivered (h : Runs.exec eventStep {} es = some s) : DeliversEvents s := by
  have hs : s.Sound := EventSession.Sound.empty.exec h
  have hafter {tenantId : Id} {c : Nat} : s.after tenantId c = (s.writes.tables.log tenantId).drop c := by
    rw [EventSession.after, filter_above (hs.numbered tenantId), Nat.add_sub_cancel]
  refine ⟨hs.numbered, fun es s' h' tenantId => ?_, fun j r c hr hc => ?_, fun es s' h' j r c hr hc => ?_⟩
  · obtain ⟨new, hnew⟩ : s.writes.tables.log tenantId <+: s'.writes.tables.log tenantId := hs.grows h'
    refine ⟨new, hnew.symm, fun e he d hd => ?_⟩
    have hsorted := pairwise_number ((hs.exec h').numbered tenantId)
    rw [← hnew, List.pairwise_append] at hsorted
    exact hsorted.2.2 d hd e he
  · obtain ⟨rows, hat⟩ := hs.readers r (List.mem_of_getElem? hr) c hc
    obtain ⟨r', hpoll, -⟩ := hat.poll (hs.numbered r.tenantId)
    refine ⟨?_, ?_⟩
    · rw [hat.received, hafter]
      exact hat.follows.map _
    · rw [eventStep, hr, Option.bind_some, hpoll]
      rfl
  · obtain ⟨rows, hat⟩ := hs.readers r (List.mem_of_getElem? hr) c hc
    obtain ⟨r', hr', -, -, rows', hat', hcovers⟩ := hs.covers h' hr hc hat List.prefix_rfl .zero
    refine ⟨r', hr', ?_⟩
    rw [hat'.received, hafter, ← Nat.zero_add (100 * _)]
    exact hcovers.map _

end Runs

namespace Demo

def created (orderId : Id) : EventInput where
  orderId
  eventType := "order.created"
  fromStatus := none
  toStatus := some .approved
  metadata := []

/-- A second order of the tenant waits for the first one, which is rolled back. -/
def waitsForNumber : List EventStep :=
  [.subscribe "tenant" none, .write (.start "tenant"), .write (.start "tenant"), .write (.take 0),
    .write (.insert 0 (created "order-1")), .poll 0, .write (.abort 0), .write (.take 0),
    .write (.insert 0 (created "order-2")), .write (.commit 0), .poll 0]

end Demo

open Demo

theorem events_delivered_rollback : ∃ s, Runs.exec eventStep {} waitsForNumber = some s ∧ DeliversEvents s := by
  have hx : (Runs.exec eventStep {} waitsForNumber).isSome = true := by decide +kernel
  obtain ⟨s, hr⟩ := Option.isSome_iff_exists.1 hx
  exact ⟨s, hr, events_delivered hr⟩

/-! ## The transactions of the orders -/

/-- The tables of the events in the database of a tenant. -/
def Db.eventTables (db : Db) : EventTables where
  counters := if db.orderEventSequence = 0 then [] else [⟨db.tenantId, db.orderEventSequence⟩]
  rows := db.orderEvents.map fun e => ⟨db.tenantId, e.sequence,
    { orderId := e.orderId, eventType := e.eventType, fromStatus := e.fromStatus, toStatus := e.toStatus,
      metadata := e.metadata }⟩

section Transactions
open Transaction
variable {v s s' : Db} {u : Unit} {orderId : Id} {eventType : String} {fromStatus toStatus : Option FulfillmentStatus}
  {metadata : Payload}

theorem value_eventTables : s.eventTables.value s.tenantId = s.orderEventSequence := by
  unfold Tables.value Db.eventTables
  dsimp only
  split
  · rename_i hzero
    exact hzero.symm
  · simp [Table.lookup]

/-- `appendEvent` in a transaction of its own: it takes the next number and inserts its row under it. -/
theorem appendEvent_writes (hs : ∀ e ∈ s.orderEvents, e.sequence ≤ s.orderEventSequence)
    (h : Commits (appendEvent orderId eventType fromStatus toStatus metadata) v s u s') :
    Runs.exec NumberedLog.step ⟨s.eventTables, []⟩ [.start s.tenantId, .take 0,
      .insert 0 { orderId, eventType, fromStatus, toStatus, metadata }, .commit 0] = some ⟨s'.eventTables, []⟩ := by
  have hs' := commits_write.1 h
  subst hs'
  let row : EventRow := ⟨s.tenantId, s.orderEventSequence + 1, { orderId, eventType, fromStatus, toStatus, metadata }⟩
  let taken : NumberedLog.Writer Id EventInput :=
    { key := s.tenantId, counter := some (s.orderEventSequence + 1), taken := some (s.orderEventSequence + 1) }
  have htake : takeNumber { key := s.tenantId } ⟨s.eventTables, [{ key := s.tenantId }]⟩ =
      some (s.orderEventSequence + 1) := by
    show (if unlocked s.tenantId [{ key := s.tenantId : NumberedLog.Writer Id EventInput }] = true then _ else _) = _
    rw [if_pos (by simp [unlocked]), value_eventTables]
  have hfree : used s.tenantId (s.orderEventSequence + 1) ⟨s.eventTables, [taken]⟩ = false := by
    refine List.any_eq_false.2 fun r hr hused => ?_
    have hnumber : r.number = s.orderEventSequence + 1 := of_decide_eq_true (Bool.and_eq_true_iff.1 hused).2
    rcases List.mem_append.1 hr with hr | hr
    · obtain ⟨e, he, rfl⟩ := List.mem_map.1 hr
      have hle := hs e he
      have hnumber : e.sequence = s.orderEventSequence + 1 := hnumber
      omega
    · cases hr
  have hsave : s.eventTables.save { taken with taken := none, inserted := [row] } = Db.eventTables
      { s with
        orderEventSequence := s.orderEventSequence + 1
        orderEvents := s.orderEvents ++
          [{ orderId, sequence := s.orderEventSequence + 1, eventType, fromStatus, toStatus, metadata }] } := by
    have hcounters : upsert s.tenantId (s.orderEventSequence + 1) s.eventTables.counters =
        [⟨s.tenantId, s.orderEventSequence + 1⟩] := by
      unfold upsert Db.eventTables
      dsimp only
      by_cases hzero : s.orderEventSequence = 0
      · rw [if_pos hzero]
        rfl
      · rw [if_neg hzero]
        simp [Table.updateWhere]
    unfold Tables.save
    show ({ counters := upsert _ _ _, rows := _ } : EventTables) = _
    rw [hcounters]
    simp [Db.eventTables, row]
  rw [Runs.exec_cons]
  refine ⟨⟨s.eventTables, [{ key := s.tenantId }]⟩, rfl, ?_⟩
  rw [Runs.exec_cons]
  refine ⟨⟨s.eventTables, [taken]⟩, ?_, ?_⟩
  · show (takeNumber _ _).map _ = _
    rw [htake]
    rfl
  rw [Runs.exec_cons]
  refine ⟨⟨s.eventTables, [{ taken with taken := none, inserted := [row] }]⟩, ?_, ?_⟩
  · show (if used _ _ _ = true then none else _) = _
    rw [hfree]
    rfl
  rw [Runs.exec_cons]
  refine ⟨⟨s.eventTables.save { taken with taken := none, inserted := [row] }, []⟩, rfl, ?_⟩
  rw [hsave, Runs.exec_nil]

/-- The numbers of the committed events go up to the counter. -/
theorem sequence_le (hi : NumberedLog.Inv ⟨s.eventTables, []⟩) {e : OrderEvent} (he : e ∈ s.orderEvents) :
    e.sequence ≤ s.orderEventSequence := by
  have hrow : e.sequence ∈ (s.eventTables.log s.tenantId).map Row.number := by
    refine List.mem_map.2 ⟨_, List.mem_filter.2 ⟨List.mem_map_of_mem he, ?_⟩, rfl⟩
    exact decide_eq_true rfl
  rw [hi.numbered s.tenantId, List.mem_range'_1, value_eventTables] at hrow
  omega

/-- So the events of a tenant stay numbered without gaps, and a new one comes after the others. -/
theorem appendEvent_numbered (hi : NumberedLog.Inv ⟨s.eventTables, []⟩)
    (h : Commits (appendEvent orderId eventType fromStatus toStatus metadata) v s u s') :
    NumberedLog.Inv ⟨s'.eventTables, []⟩ ∧ ∀ tenantId, s.eventTables.log tenantId <+: s'.eventTables.log tenantId := by
  have hwrites := appendEvent_writes (fun e he => sequence_le hi he) h
  exact ⟨NumberedLog.exec_inv hi hwrites, fun _ => NumberedLog.exec_grows hi hwrites⟩

end Transactions

end Komanda
