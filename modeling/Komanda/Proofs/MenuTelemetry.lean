import Komanda.MenuTelemetry
import Mathlib.Data.List.Perm.Basic

/-!
# What the server knows of the menus

Posts get lost and overtake each other, so that the server knows less than the pages have seen, but nothing that they
have not: of an exposure it stores at most one impression, one qualified view and one heartbeat, each not before the
exposure had lasted so long. The pages in turn never have more than a batch to say, and say it when they are left.
-/

namespace Komanda.Telemetry

/-! ## The law -/

/-- The durations that events of a type have. -/
def EventType.Lasts : EventType → Nat → Prop
  | impression, ms => ms = 500
  | qualifiedView, ms => ms = 1000
  | dwellHeartbeat, ms => 3000 ≤ ms ∧ ms ≤ 10000
  | cartAdd, ms => ms = 0

/-- The event is about an exposure that had lasted at least as long as it says. -/
structure Measured (started : List ExposureTracker) (e : TelemetryItemEvent) : Prop where
  lasts : e.eventType.Lasts e.dwellDurationMs
  exposure : (e.eventType = .cartAdd ∧ e.exposureId = none) ∨ ∃ t ∈ started, t.itemId = e.itemId ∧
    e.exposureId = some t.exposureId ∧ t.startTime + e.dwellDurationMs ≤ e.occurredAt

/-- The event is of the type, and its exposure is one of those. -/
def TelemetryItemEvent.of (type : EventType) (P : Id → String → Bool) (e : TelemetryItemEvent) : Bool :=
  e.eventType = type && e.exposureId.any (P e.itemId)

/-- A view that counts for the item. -/
def TelemetryItemEvent.views (itemId : Id) (e : TelemetryItemEvent) : Bool :=
  e.eventType = .qualifiedView && e.itemId = itemId

/-- The summary is one that the page could have sent when it had queued these events. -/
structure SessionSummary.Of (data : SessionSummary) (p : MenuPage) : Prop where
  key : data.sessionKey = p.sessionKey
  dwell : data.dwellTimeSeconds ≤ p.dwellTime
  categories : (data.categoryDwellMap.map (·.2)).sum ≤ data.dwellTimeSeconds
  views : ∀ itemId, (data.itemViewsMap.lookup itemId).getD 0 ≤ p.queued.countP (·.views itemId)
  converted : data.cartCreated = false ∧ data.orderPlaced = false ∧ data.associatedOrderId = none

structure Post.Of (body : Post) (p : MenuPage) : Prop where
  batch : ∀ sessionId events, body = .batch sessionId events →
    sessionId = p.sessionKey ∧ 1 ≤ events.length ∧ events.length ≤ 20
  summary : ∀ data, body = .summary data → data.Of p

def summariesOf (key : String) (posts : List Post) : List SessionSummary :=
  posts.filterMap fun
    | .summary data => if data.sessionKey = key then some data else none
    | .batch _ _ => none

/-- A row tells of the summaries of its key: of their longest dwell, of the maps of the last. -/
structure StorefrontSession.Sums (row : StorefrontSession) (summaries : List SessionSummary) : Prop where
  longest : ∃ data ∈ summaries, data.dwellTimeSeconds = row.dwellTimeSeconds
  dwell : ∀ data ∈ summaries, data.dwellTimeSeconds ≤ row.dwellTimeSeconds
  maps : ∃ data, summaries.getLast? = some data ∧ row.categoryDwellMap = data.categoryDwellMap ∧
    row.itemViewsMap = data.itemViewsMap

structure Knows (s : TelemetryFloor) : Prop where
  /-- Pages queue less than a batch, send what they queue in order, and everything when they are left. -/
  small : ∀ p ∈ s.pages, p.pendingEvents.length < 20
  order : ∀ p ∈ s.pages, p.posts.flatMap Post.events ++ p.pendingEvents = p.queued
  posts : ∀ p ∈ s.pages, ∀ body ∈ p.posts, body.Of p
  left : ∀ p ∈ s.pages, (p.handle .pageHide).pendingEvents = []
  measured : ∀ p ∈ s.pages, ∀ e ∈ p.queued, Measured p.started e
  /-- The posts are on their way, taken or dropped, each once. -/
  accounted : (s.pages.flatMap (·.posts)).Perm (s.network ++ s.taken ++ s.dropped)
  stored : s.store.itemEvents.map (·.toTelemetryItemEvent) = s.taken.flatMap Post.events
  complete : s.network = [] → s.dropped = [] →
    (s.store.itemEvents.map (·.toTelemetryItemEvent) ++ s.pages.flatMap (·.pendingEvents)).Perm
      (s.pages.flatMap (·.queued))
  /-- Of the exposures, at most one event of each type is stored. -/
  exposures : ∀ type P, (s.store.itemEvents.map (·.toTelemetryItemEvent)).countP (·.of type P) ≤
    (s.pages.flatMap (·.started)).countP fun t => P t.itemId t.exposureId
  sessions : ∀ row ∈ s.store.sessions, row.Sums (summariesOf row.sessionKey s.taken)
  keys : (s.store.sessions.map (·.sessionKey)).Nodup
  /-- A row says no more than one of the pages of its key has counted, and never that anything was ordered. -/
  bounded : ∀ row ∈ s.store.sessions, (row.categoryDwellMap.map (·.2)).sum ≤ row.dwellTimeSeconds ∧
    (∃ p ∈ s.pages, p.sessionKey = row.sessionKey ∧ row.dwellTimeSeconds ≤ p.dwellTime) ∧
    (∃ p ∈ s.pages, p.sessionKey = row.sessionKey ∧
      ∀ itemId, (row.itemViewsMap.lookup itemId).getD 0 ≤ p.queued.countP (·.views itemId)) ∧
    row.cartCreated = false ∧ row.orderPlaced = false ∧ row.associatedOrderId = none

/-! ## What a page has posted -/

open MenuPage

section Posting
variable {p : MenuPage} {event : TelemetryItemEvent} {isFinal : Bool}

/-- What posting leaves alone. -/
structure SameCounts (p p' : MenuPage) : Prop where
  key : p'.sessionKey = p.sessionKey
  dwell : p'.dwellTime = p.dwellTime
  category : p'.categoryDwell = p.categoryDwell
  views : p'.itemViewsMap = p.itemViewsMap
  exposures : p'.activeExposures = p.activeExposures
  started : p'.started = p.started
  posts : p.posts <+: p'.posts

theorem SameCounts.refl (p : MenuPage) : SameCounts p p := ⟨rfl, rfl, rfl, rfl, rfl, rfl, List.prefix_rfl⟩

theorem SameCounts.trans {p' p'' : MenuPage} (h : SameCounts p p') (h' : SameCounts p' p'') : SameCounts p p'' :=
  ⟨h'.key.trans h.key, h'.dwell.trans h.dwell, h'.category.trans h.category, h'.views.trans h.views,
    h'.exposures.trans h.exposures, h'.started.trans h.started, h.posts.trans h'.posts⟩

theorem flushBatchEvents_counts (p : MenuPage) : SameCounts p p.flushBatchEvents := by
  unfold flushBatchEvents
  split
  · exact .refl p
  · exact ⟨rfl, rfl, rfl, rfl, rfl, rfl, List.prefix_append _ _⟩

theorem sendSessionSummary_counts (isFinal : Bool) (p : MenuPage) : SameCounts p (p.sendSessionSummary isFinal) := by
  unfold sendSessionSummary
  split
  · exact .refl p
  · exact ⟨rfl, rfl, rfl, rfl, rfl, rfl, List.prefix_append _ _⟩

theorem queueEvent_counts (event : TelemetryItemEvent) (p : MenuPage) : SameCounts p (p.queueEvent event) := by
  have hqueue : SameCounts p { p with
      pendingEvents := p.pendingEvents ++ [event]
      queued := p.queued ++ [event] } := ⟨rfl, rfl, rfl, rfl, rfl, rfl, List.prefix_rfl⟩
  unfold queueEvent
  dsimp only
  split
  · exact hqueue.trans (flushBatchEvents_counts _)
  · exact hqueue

theorem sync_counts (isFinal : Bool) (p : MenuPage) : SameCounts p (p.sync isFinal) :=
  (flushBatchEvents_counts p).trans (sendSessionSummary_counts isFinal _)

@[simp] theorem flushBatchEvents_queued (p : MenuPage) : p.flushBatchEvents.queued = p.queued := by
  unfold flushBatchEvents
  split <;> rfl

@[simp] theorem sendSessionSummary_queued (p : MenuPage) : (p.sendSessionSummary isFinal).queued = p.queued := by
  unfold sendSessionSummary
  split <;> rfl

@[simp] theorem queueEvent_queued (p : MenuPage) : (p.queueEvent event).queued = p.queued ++ [event] := by
  unfold queueEvent
  dsimp only
  split
  · exact flushBatchEvents_queued _
  · rfl

/-- What is posted and what is pending are the events that have been queued. -/
structure Shipped (p : MenuPage) : Prop where
  small : p.pendingEvents.length < 20
  order : p.posts.flatMap Post.events ++ p.pendingEvents = p.queued
  posts : ∀ body ∈ p.posts, body.Of p

/-- A page that has counted more. -/
theorem Post.Of.mono {p' : MenuPage} {body : Post} (h : body.Of p) (hkey : p'.sessionKey = p.sessionKey)
    (hdwell : p.dwellTime ≤ p'.dwellTime) (hqueued : p.queued <+: p'.queued) : body.Of p' where
  batch sessionId events heq := hkey ▸ h.batch sessionId events heq
  summary data heq := by
    have hdata := h.summary data heq
    exact ⟨hdata.key.trans hkey.symm, hdata.dwell.trans hdwell, hdata.categories,
      fun itemId => (hdata.views itemId).trans (hqueued.sublist.countP_le), hdata.converted⟩

theorem Shipped.flush (hsmall : p.pendingEvents.length ≤ 20)
    (horder : p.posts.flatMap Post.events ++ p.pendingEvents = p.queued) (hposts : ∀ body ∈ p.posts, body.Of p) :
    Shipped p.flushBatchEvents ∧ p.flushBatchEvents.pendingEvents = [] := by
  unfold flushBatchEvents
  split
  · next hnone =>
    have hempty := List.length_eq_zero_iff.1 hnone
    exact ⟨⟨by rw [hempty]; exact Nat.zero_lt_succ _, horder, hposts⟩, hempty⟩
  · next hsome =>
    have hall : p.pendingEvents.take 50 = p.pendingEvents := List.take_of_length_le (by omega)
    have hrest : p.pendingEvents.drop 50 = [] := List.drop_of_length_le (by omega)
    refine ⟨⟨by rw [hrest]; exact Nat.zero_lt_succ _, ?_, fun body hbody => ?_⟩, hrest⟩
    · dsimp only
      rw [hrest, hall, List.flatMap_append, List.append_nil, List.flatMap_singleton]
      exact horder
    · dsimp only at hbody
      rcases List.mem_append.1 hbody with hbody | hbody
      · exact (hposts body hbody).mono rfl (Nat.le_refl _) List.prefix_rfl
      · rw [List.mem_singleton.1 hbody, hall]
        refine ⟨fun sessionId events heq => ?_, fun data heq => by cases heq⟩
        cases heq
        exact ⟨rfl, by omega, hsmall⟩

theorem Shipped.flushed (h : Shipped p) : Shipped p.flushBatchEvents ∧ p.flushBatchEvents.pendingEvents = [] :=
  Shipped.flush (Nat.le_of_lt h.small) h.order h.posts

theorem Shipped.queue (h : Shipped p) : Shipped (p.queueEvent event) := by
  have horder : p.posts.flatMap Post.events ++ (p.pendingEvents ++ [event]) = p.queued ++ [event] := by
    rw [← List.append_assoc, h.order]
  have hposts : ∀ body ∈ p.posts, body.Of { p with
      pendingEvents := p.pendingEvents ++ [event]
      queued := p.queued ++ [event] } := fun body hbody =>
    (h.posts body hbody).mono rfl (Nat.le_refl _) (List.prefix_append _ _)
  have hlength : (p.pendingEvents ++ [event]).length ≤ 20 := by
    have hsmall := h.small
    rw [List.length_append, List.length_singleton]
    omega
  unfold queueEvent
  dsimp only
  split
  · exact (Shipped.flush hlength horder hposts).1
  · next hmore => exact ⟨Nat.lt_of_not_le hmore, horder, hposts⟩

/-! ## What a page has counted -/

/-- The exposure can still have an event of the type. -/
def ExposureTracker.isOpen (type : EventType) (t : ExposureTracker) : Bool :=
  match type with
  | .impression => !t.impressionSent
  | .qualifiedView => !t.qualifiedViewSent
  | .dwellHeartbeat => true
  | .cartAdd => false

/-- An exposure of those that can still have an event of the type. -/
def opens (type : EventType) (P : Id → String → Bool) (x : Id × ExposureTracker) : Bool :=
  x.2.isOpen type && P x.2.itemId x.2.exposureId

/-- The events, the counts of the items and the exposures of a page agree. -/
structure Books (queued : List TelemetryItemEvent) (views : List (Id × Nat)) (trackers : List (Id × ExposureTracker))
    (started : List ExposureTracker) : Prop where
  views : ∀ itemId, (views.lookup itemId).getD 0 = queued.countP (·.views itemId)
  keys : ∀ x ∈ trackers, x.2.itemId = x.1
  known : ∀ x ∈ trackers, ∃ t ∈ started, t.itemId = x.2.itemId ∧ t.exposureId = x.2.exposureId ∧
    t.startTime = x.2.startTime
  counted : ∀ type P, queued.countP (·.of type P) + trackers.countP (opens type P) ≤
    started.countP fun t => P t.itemId t.exposureId
  measured : ∀ e ∈ queued, Measured started e

end Posting

section Counting
variable {queued : List TelemetryItemEvent} {views : List (Id × Nat)} {trackers rest : List (Id × ExposureTracker)}
  {started : List ExposureTracker} {event : TelemetryItemEvent}

theorem lookup_countUp (key k : String) (counts : List (String × Nat)) :
    ((countUp key counts).lookup k).getD 0 = (counts.lookup k).getD 0 + if k = key then 1 else 0 := by
  rw [countUp, InsertionMap.lookup_set]
  by_cases h : k = key
  · rw [if_pos h, if_pos h, h]
    rfl
  · rw [if_neg h, if_neg h, Nat.add_zero]

theorem sum_countUp (key : String) (counts : List (String × Nat)) :
    ((countUp key counts).map (·.2)).sum = (counts.map (·.2)).sum + 1 := by
  rw [countUp]
  induction counts with
  | nil => rfl
  | cons c counts ih =>
    rw [InsertionMap.set, InsertionMap.lookup_cons_ite]
    by_cases h : c.1 = key
    · rw [if_pos h, if_pos h.symm]
      simp only [List.map_cons, List.sum_cons, Option.getD_some]
      omega
    · rw [if_neg h, if_neg (Ne.symm h), List.map_cons, List.sum_cons, ih, List.map_cons, List.sum_cons, Nat.add_assoc]

/-- Another event: its exposure can have no other of its type. -/
theorem Books.add (h : Books queued views trackers started) {views' : List (Id × Nat)}
    {trackers' : List (Id × ExposureTracker)}
    (hviews : ∀ itemId, (views'.lookup itemId).getD 0 =
      (views.lookup itemId).getD 0 + if event.views itemId then 1 else 0)
    (htrackers : ∀ x ∈ trackers', ∃ y ∈ trackers, x.1 = y.1 ∧ x.2.itemId = y.2.itemId ∧
      x.2.exposureId = y.2.exposureId ∧ x.2.startTime = y.2.startTime)
    (hcounted : ∀ type P, (if event.of type P then 1 else 0) + trackers'.countP (opens type P) ≤
      trackers.countP (opens type P))
    (hmeasured : Measured started event) : Books (queued ++ [event]) views' trackers' started where
  views itemId := by
    rw [hviews, h.views, List.countP_append, List.countP_singleton]
  keys x hx := by
    obtain ⟨y, hy, hkey, hitem, -, -⟩ := htrackers x hx
    rw [hkey, hitem, h.keys y hy]
  known x hx := by
    obtain ⟨y, hy, -, hitem, hexposure, hstart⟩ := htrackers x hx
    rw [hitem, hexposure, hstart]
    exact h.known y hy
  counted type P := by
    rw [List.countP_append, List.countP_singleton, Nat.add_assoc]
    exact (Nat.add_le_add_left (hcounted type P) _).trans (h.counted type P)
  measured := by
    rw [List.forall_mem_append, List.forall_mem_singleton]
    exact ⟨h.measured, hmeasured⟩

/-- Exposures are forgotten. -/
theorem Books.forget (h : Books queued views trackers started) {trackers' : List (Id × ExposureTracker)}
    (hsub : trackers'.Sublist trackers) : Books queued views trackers' started where
  views := h.views
  keys x hx := h.keys x (hsub.subset hx)
  known x hx := h.known x (hsub.subset hx)
  counted type P := (Nat.add_le_add_left hsub.countP_le _).trans (h.counted type P)
  measured := h.measured

/-- An exposure that starts. -/
theorem Books.start (h : Books queued views trackers started) (t : ExposureTracker) :
    Books queued views (trackers ++ [(t.itemId, t)]) (started ++ [t]) where
  views := h.views
  keys := by
    rw [List.forall_mem_append, List.forall_mem_singleton]
    exact ⟨h.keys, rfl⟩
  known := by
    rw [List.forall_mem_append, List.forall_mem_singleton]
    refine ⟨fun x hx => ?_, t, List.mem_append_right _ List.mem_cons_self, rfl, rfl, rfl⟩
    obtain ⟨s, hs, heq⟩ := h.known x hx
    exact ⟨s, List.mem_append_left _ hs, heq⟩
  counted type P := by
    have hle : [(t.itemId, t)].countP (opens type P) ≤ [t].countP fun t => P t.itemId t.exposureId := by
      rw [List.countP_singleton, List.countP_singleton, opens]
      cases t.isOpen type <;> cases P t.itemId t.exposureId <;> decide
    rw [List.countP_append, List.countP_append, ← Nat.add_assoc]
    exact Nat.add_le_add (h.counted type P) hle
  measured e he := by
    obtain ⟨hlasts, hexposure⟩ := h.measured e he
    exact ⟨hlasts, hexposure.imp_right fun ⟨s, hs, heq⟩ => ⟨s, List.mem_append_left _ hs, heq⟩⟩

end Counting

/-! ## Pages -/

/-- What holds of a page whose exposures have been checked up to these. -/
structure PageInv (trackers : List (Id × ExposureTracker)) (p : MenuPage) : Prop where
  shipped : Shipped p
  books : Books p.queued p.itemViewsMap trackers p.started
  categories : (p.categoryDwell.map (·.2)).sum ≤ p.dwellTime

/-- A page that has gone on. -/
structure Grows (p p' : MenuPage) : Prop where
  key : p'.sessionKey = p.sessionKey
  dwell : p.dwellTime ≤ p'.dwellTime
  queued : p.queued <+: p'.queued
  started : p.started <+: p'.started
  posts : p.posts <+: p'.posts

section Pages
variable {p p' p'' : MenuPage} {trackers trackers' before after : List (Id × ExposureTracker)}

theorem Grows.refl (p : MenuPage) : Grows p p :=
  ⟨rfl, Nat.le_refl _, List.prefix_rfl, List.prefix_rfl, List.prefix_rfl⟩

theorem Grows.trans (h : Grows p p') (h' : Grows p' p'') : Grows p p'' :=
  ⟨h'.key.trans h.key, h.dwell.trans h'.dwell, h.queued.trans h'.queued, h.started.trans h'.started,
    h.posts.trans h'.posts⟩

theorem SameCounts.grows (h : SameCounts p p') (hqueued : p.queued <+: p'.queued) : Grows p p' :=
  ⟨h.key, Nat.le_of_eq h.dwell.symm, hqueued, h.started ▸ List.prefix_rfl, h.posts⟩

theorem PageInv.flush (h : PageInv trackers p) :
    PageInv trackers p.flushBatchEvents ∧ Grows p p.flushBatchEvents ∧ p.flushBatchEvents.pendingEvents = [] := by
  have hsame := flushBatchEvents_counts p
  obtain ⟨hshipped, hempty⟩ := h.shipped.flushed
  refine ⟨⟨hshipped, ?_, ?_⟩, hsame.grows (flushBatchEvents_queued p ▸ List.prefix_rfl), hempty⟩
  · rw [flushBatchEvents_queued, hsame.views, hsame.started]
    exact h.books
  · rw [hsame.category, hsame.dwell]
    exact h.categories

theorem PageInv.summary (h : PageInv trackers p) (isFinal : Bool) :
    PageInv trackers (p.sendSessionSummary isFinal) ∧ Grows p (p.sendSessionSummary isFinal) ∧
      (p.sendSessionSummary isFinal).pendingEvents = p.pendingEvents := by
  unfold sendSessionSummary
  split
  · exact ⟨h, .refl p, rfl⟩
  · refine ⟨⟨⟨h.shipped.small, ?_, fun body hbody => ?_⟩, h.books, h.categories⟩,
      ⟨rfl, Nat.le_refl _, List.prefix_rfl, List.prefix_rfl, List.prefix_append _ _⟩, rfl⟩
    · dsimp only
      rw [List.flatMap_append, List.flatMap_singleton, Post.events, List.append_nil]
      exact h.shipped.order
    · dsimp only at hbody
      rcases List.mem_append.1 hbody with hbody | hbody
      · exact (h.shipped.posts body hbody).mono rfl (Nat.le_refl _) List.prefix_rfl
      · rw [List.mem_singleton.1 hbody]
        refine ⟨fun sessionId events heq => (by cases heq), fun data heq => ?_⟩
        cases heq
        exact ⟨rfl, Nat.le_refl _, h.categories, fun itemId => Nat.le_of_eq (h.books.views itemId), rfl, rfl, rfl⟩

theorem PageInv.sync (h : PageInv trackers p) (isFinal : Bool) :
    PageInv trackers (p.sync isFinal) ∧ Grows p (p.sync isFinal) ∧ (p.sync isFinal).pendingEvents = [] := by
  obtain ⟨hflush, hgrows, hempty⟩ := h.flush
  obtain ⟨hsummary, hgrows', hsame⟩ := hflush.summary isFinal
  exact ⟨hsummary, hgrows.trans hgrows', hsame.trans hempty⟩

/-- An event of one of the exposures, or of none. -/
theorem PageInv.queue (h : PageInv trackers p) (event : TelemetryItemEvent) (views : List (Id × Nat))
    (hviews : ∀ itemId, (views.lookup itemId).getD 0 =
      (p.itemViewsMap.lookup itemId).getD 0 + if event.views itemId then 1 else 0)
    (htrackers : ∀ x ∈ trackers', ∃ y ∈ trackers, x.1 = y.1 ∧ x.2.itemId = y.2.itemId ∧
      x.2.exposureId = y.2.exposureId ∧ x.2.startTime = y.2.startTime)
    (hcounted : ∀ type P, (if event.of type P then 1 else 0) + trackers'.countP (opens type P) ≤
      trackers.countP (opens type P))
    (hmeasured : Measured p.started event) :
    PageInv trackers' ({ p with itemViewsMap := views }.queueEvent event) ∧
      Grows p ({ p with itemViewsMap := views }.queueEvent event) := by
  have hsame := queueEvent_counts event { p with itemViewsMap := views }
  have hshipped : Shipped { p with itemViewsMap := views } :=
    ⟨h.shipped.small, h.shipped.order, fun body hbody =>
      (h.shipped.posts body hbody).mono rfl (Nat.le_refl _) List.prefix_rfl⟩
  refine ⟨⟨hshipped.queue, ?_, ?_⟩, ?_⟩
  · rw [queueEvent_queued, hsame.views, hsame.started]
    exact h.books.add hviews htrackers hcounted hmeasured
  · rw [hsame.category, hsame.dwell]
    exact h.categories
  · have hgrows := hsame.grows (by rw [queueEvent_queued]; exact List.prefix_append _ _)
    exact ⟨hgrows.key, hgrows.dwell, hgrows.queued, hgrows.started, hgrows.posts⟩

/-! ## The visibility checker -/

section Checker
variable {key : Id} {t t' : ExposureTracker}

theorem lasted {start now ms : Nat} (h : ms ≤ now - start) (hms : 0 < ms) : start + ms ≤ now := by
  omega

/-- A tracker that is changed where it is. -/
theorem tracked_here (hitem : t'.itemId = t.itemId) (hexposure : t'.exposureId = t.exposureId)
    (hstart : t'.startTime = t.startTime) :
    ∀ x ∈ before ++ (key, t') :: after, ∃ y ∈ before ++ (key, t) :: after, x.1 = y.1 ∧ x.2.itemId = y.2.itemId ∧
      x.2.exposureId = y.2.exposureId ∧ x.2.startTime = y.2.startTime := by
  intro x hx
  rcases List.mem_append.1 hx with hx | hx
  · exact ⟨x, List.mem_append_left _ hx, rfl, rfl, rfl, rfl⟩
  · rcases List.mem_cons.1 hx with rfl | hx
    · exact ⟨(key, t), List.mem_append_right _ List.mem_cons_self, rfl, hitem, hexposure, hstart⟩
    · exact ⟨x, List.mem_append_right _ (List.mem_cons_of_mem _ hx), rfl, rfl, rfl, rfl⟩

theorem counted_here {n : Nat} {type : EventType} {P : Id → String → Bool}
    (h : n + [(key, t')].countP (opens type P) ≤ [(key, t)].countP (opens type P)) :
    n + (before ++ (key, t') :: after).countP (opens type P) ≤
      (before ++ (key, t) :: after).countP (opens type P) := by
  simp only [List.countP_append, List.countP_cons, List.countP_nil] at h ⊢
  omega

theorem checkImpression_inv (now : Instant) (surface : Surface) (h : PageInv (before ++ (key, t) :: after) p) :
    PageInv (before ++ (key, (checkImpression now surface (t, p)).1) :: after) (checkImpression now surface (t, p)).2 ∧
      Grows p (checkImpression now surface (t, p)).2 := by
  unfold checkImpression
  split
  · next hdue =>
    simp only [ge_iff_le, Bool.and_eq_true, decide_eq_true_eq, Bool.not_eq_true'] at hdue
    obtain ⟨hdue, hsent⟩ := hdue
    obtain ⟨s, hs, hitem, hexposure, hstart⟩ :=
      h.books.known (key, t) (List.mem_append_right _ List.mem_cons_self)
    dsimp only at hitem hexposure hstart
    refine h.queue _ _ (fun itemId => ?_) (tracked_here rfl rfl rfl) (fun type P => counted_here ?_) ?_
    · simp [TelemetryItemEvent.views]
    · cases type <;>
        simp [TelemetryItemEvent.of, opens, ExposureTracker.isOpen, hsent]
    · exact ⟨rfl, .inr ⟨s, hs, hitem, congrArg some hexposure.symm, hstart ▸ lasted hdue (Nat.succ_pos _)⟩⟩
  · exact ⟨h, .refl p⟩

theorem checkQualifiedView_inv (now : Instant) (surface : Surface) (h : PageInv (before ++ (key, t) :: after) p) :
    PageInv (before ++ (key, (checkQualifiedView now surface (t, p)).1) :: after)
        (checkQualifiedView now surface (t, p)).2 ∧
      Grows p (checkQualifiedView now surface (t, p)).2 := by
  unfold checkQualifiedView
  split
  · next hdue =>
    simp only [ge_iff_le, Bool.and_eq_true, decide_eq_true_eq, Bool.not_eq_true'] at hdue
    obtain ⟨hdue, hsent⟩ := hdue
    obtain ⟨s, hs, hitem, hexposure, hstart⟩ :=
      h.books.known (key, t) (List.mem_append_right _ List.mem_cons_self)
    dsimp only at hitem hexposure hstart
    refine h.queue _ _ (fun itemId => ?_) (tracked_here rfl rfl rfl) (fun type P => counted_here ?_) ?_
    · rw [lookup_countUp]
      simp [TelemetryItemEvent.views, eq_comm]
    · cases type <;>
        simp [TelemetryItemEvent.of, opens, ExposureTracker.isOpen, hsent]
    · exact ⟨rfl, .inr ⟨s, hs, hitem, congrArg some hexposure.symm, hstart ▸ lasted hdue (Nat.succ_pos _)⟩⟩
  · exact ⟨h, .refl p⟩

theorem checkAll_inv (now : Instant) (surface : Surface) (h : PageInv (before ++ trackers) p) :
    PageInv (before ++ (checkAll now surface trackers p).1) (checkAll now surface trackers p).2 ∧
      Grows p (checkAll now surface trackers p).2 := by
  induction trackers generalizing before p with
  | nil => exact ⟨h, .refl p⟩
  | cons x trackers ih =>
    obtain ⟨key, t⟩ := x
    obtain ⟨himpression, hgrows⟩ := checkImpression_inv now surface h
    obtain ⟨hview, hgrows'⟩ := checkQualifiedView_inv now surface himpression
    rw [List.append_cons] at hview
    obtain ⟨hrest, hgrows''⟩ := ih hview
    rw [← List.append_cons] at hrest
    exact ⟨hrest, (hgrows.trans hgrows').trans hgrows''⟩

end Checker

/-! ## What happens to a page -/

/-- The refs that the posts do not tell of. -/
theorem PageInv.withRefs (h : PageInv trackers p) (exposures : List (Id × ExposureTracker)) (visible : Bool)
    (category : Option String) :
    PageInv trackers { p with activeExposures := exposures, visible := visible, activeCategory := category } :=
  ⟨⟨h.shipped.small, h.shipped.order, fun body hbody =>
    (h.shipped.posts body hbody).mono rfl (Nat.le_refl _) List.prefix_rfl⟩, h.books, h.categories⟩

theorem PageInv.exposureCheck (h : PageInv p.activeExposures p) {now : Instant} {surface : Surface} :
    PageInv (p.exposureCheck now surface).activeExposures (p.exposureCheck now surface) ∧
      Grows p (p.exposureCheck now surface) := by
  unfold MenuPage.exposureCheck
  split
  · exact ⟨h, .refl p⟩
  · have hchecked := checkAll_inv now surface (List.nil_append p.activeExposures ▸ h)
    obtain ⟨hinv, hgrows⟩ := hchecked
    exact ⟨hinv.withRefs _ _ _, ⟨hgrows.key, hgrows.dwell, hgrows.queued, hgrows.started, hgrows.posts⟩⟩

theorem PageInv.dwellTick (h : PageInv p.activeExposures p) :
    PageInv p.dwellTick.activeExposures p.dwellTick ∧ Grows p p.dwellTick := by
  have hposts {q : MenuPage} (hkey : q.sessionKey = p.sessionKey) (hdwell : p.dwellTime ≤ q.dwellTime)
      (hqueued : p.queued <+: q.queued) : ∀ body ∈ p.posts, body.Of q :=
    fun body hbody => (h.shipped.posts body hbody).mono hkey hdwell hqueued
  have hcategories := h.categories
  have hgrows {q : MenuPage} (hkey : q.sessionKey = p.sessionKey) (hdwell : q.dwellTime = p.dwellTime + 1)
      (hqueued : q.queued = p.queued) (hstarted : q.started = p.started) (hsent : q.posts = p.posts) : Grows p q :=
    ⟨hkey, hdwell ▸ Nat.le_succ _, hqueued ▸ List.prefix_rfl, hstarted ▸ List.prefix_rfl, hsent ▸ List.prefix_rfl⟩
  unfold MenuPage.dwellTick
  split
  · exact ⟨h, .refl p⟩
  · split
    · split
      · exact ⟨⟨⟨h.shipped.small, h.shipped.order, hposts rfl (Nat.le_succ _) List.prefix_rfl⟩, h.books,
          Nat.le_succ_of_le hcategories⟩, hgrows rfl rfl rfl rfl rfl⟩
      · refine ⟨⟨⟨h.shipped.small, h.shipped.order, hposts rfl (Nat.le_succ _) List.prefix_rfl⟩, h.books, ?_⟩,
          hgrows rfl rfl rfl rfl rfl⟩
        rw [sum_countUp]
        exact Nat.succ_le_succ hcategories
    · exact ⟨⟨⟨h.shipped.small, h.shipped.order, hposts rfl (Nat.le_succ _) List.prefix_rfl⟩, h.books,
        Nat.le_succ_of_le hcategories⟩, hgrows rfl rfl rfl rfl rfl⟩

theorem PageInv.handleCartAdd (h : PageInv p.activeExposures p) {itemId : Id} {surface : Surface} {now : Instant} :
    PageInv (p.handleCartAdd itemId surface now).activeExposures (p.handleCartAdd itemId surface now) ∧
      Grows p (p.handleCartAdd itemId surface now) := by
  unfold MenuPage.handleCartAdd
  split
  · exact ⟨h, .refl p⟩
  · obtain ⟨hqueue, hgrows⟩ := h.queue ⟨itemId, surface, .cartAdd, 0, none, now⟩ p.itemViewsMap
      (fun k => by simp [TelemetryItemEvent.views]) (fun x hx => ⟨x, hx, rfl, rfl, rfl, rfl⟩)
      (fun type P => by simp [TelemetryItemEvent.of]) ⟨rfl, .inl ⟨rfl, rfl⟩⟩
    obtain ⟨hflush, hgrows', -⟩ := hqueue.flush
    have hexposures := (queueEvent_counts ⟨itemId, surface, .cartAdd, 0, none, now⟩ p).trans
      (flushBatchEvents_counts _)
    rw [hexposures.exposures]
    exact ⟨hflush, hgrows.trans hgrows'⟩

theorem PageInv.handleVisibilityChange (h : PageInv p.activeExposures p) {visible : Bool} :
    PageInv (p.handleVisibilityChange visible).activeExposures (p.handleVisibilityChange visible) ∧
      Grows p (p.handleVisibilityChange visible) := by
  have hseen : PageInv p.activeExposures { p with visible := visible } := h.withRefs _ _ _
  have hgrows : Grows p { p with visible := visible } :=
    ⟨rfl, Nat.le_refl _, List.prefix_rfl, List.prefix_rfl, List.prefix_rfl⟩
  unfold MenuPage.handleVisibilityChange
  dsimp only
  split
  · obtain ⟨hsync, hgrows', -⟩ := hseen.sync false
    rw [(sync_counts false _).exposures]
    exact ⟨hsync, hgrows.trans hgrows'⟩
  · exact ⟨hseen, hgrows⟩

/-- The exposures that are left when one ends, which has had no heartbeat. -/
theorem countP_erase {itemId : Id} {t : ExposureTracker} (ht : trackers.lookup itemId = some t) {n : Nat}
    {type : EventType} {P : Id → String → Bool} (h : n ≤ [(itemId, t)].countP (opens type P)) :
    n + (InsertionMap.erase itemId trackers).countP (opens type P) ≤ trackers.countP (opens type P) := by
  induction trackers with
  | nil => cases ht
  | cons x trackers ih =>
    rw [InsertionMap.lookup_cons_ite] at ht
    rw [InsertionMap.erase, List.filter_cons]
    by_cases hx : itemId = x.1
    · rw [if_pos hx] at ht
      obtain rfl : x = (itemId, t) := Prod.ext hx.symm (Option.some.inj ht)
      rw [if_neg (by simp), ← List.singleton_append, List.countP_append]
      exact Nat.add_le_add h (List.filter_sublist.countP_le)
    · rw [if_neg hx] at ht
      rw [if_pos (by simpa using Ne.symm hx), List.countP_cons, List.countP_cons, ← Nat.add_assoc]
      exact Nat.add_le_add_right (ih ht) _

/-- An item that was not on the screen. -/
theorem PageInv.startExposure (h : PageInv p.activeExposures p) (tracker : ExposureTracker)
    (hnew : p.activeExposures.lookup tracker.itemId = none) :
    let q := { p with
      activeExposures := InsertionMap.set tracker.itemId tracker p.activeExposures
      started := p.started ++ [tracker] }
    PageInv q.activeExposures q ∧ Grows p q := by
  refine ⟨⟨⟨h.shipped.small, h.shipped.order, fun body hbody => ?_⟩, ?_, h.categories⟩, ?_⟩
  · exact (h.shipped.posts body hbody).mono rfl (Nat.le_refl _) List.prefix_rfl
  · dsimp only
    rw [InsertionMap.set_of_lookup_none tracker hnew]
    exact h.books.start tracker
  · exact ⟨rfl, Nat.le_refl _, List.prefix_rfl, List.prefix_append _ _, List.prefix_rfl⟩

/-- The heartbeat of an exposure that ends and was long enough. -/
theorem PageInv.heartbeat (h : PageInv p.activeExposures p) (surface : Surface) {itemId : Id} {now : Instant}
    {t : ExposureTracker} (ht : p.activeExposures.lookup itemId = some t) (hlong : 3000 ≤ now - t.startTime) :
    let q := p.queueEvent ⟨itemId, surface, .dwellHeartbeat, min (now - t.startTime) 10000, some t.exposureId, now⟩
    PageInv (InsertionMap.erase itemId p.activeExposures) q ∧ Grows p q := by
  have herase : (InsertionMap.erase itemId p.activeExposures).Sublist p.activeExposures := List.filter_sublist
  have hmem := InsertionMap.mem_of_lookup ht
  obtain ⟨s, hs, hitem, hexposure, hstart⟩ := h.books.known _ hmem
  have hkey := h.books.keys _ hmem
  dsimp only at hitem hexposure hstart hkey
  have hlasts : EventType.dwellHeartbeat.Lasts (min (now - t.startTime) 10000) :=
    ⟨Nat.le_min.2 ⟨hlong, by decide⟩, Nat.min_le_right _ _⟩
  have hlasted : t.startTime + min (now - t.startTime) 10000 ≤ now :=
    lasted (Nat.min_le_left _ _) (Nat.lt_of_lt_of_le (Nat.succ_pos _) hlasts.1)
  refine h.queue ⟨itemId, surface, .dwellHeartbeat, min (now - t.startTime) 10000, some t.exposureId, now⟩
    p.itemViewsMap (fun k => ?_) (fun x hx => ⟨x, herase.subset hx, rfl, rfl, rfl, rfl⟩)
    (fun type P => countP_erase ht ?_) ⟨hlasts, .inr ⟨s, hs, hitem.trans hkey, congrArg some hexposure.symm, ?_⟩⟩
  · simp [TelemetryItemEvent.views]
  · cases type <;> simp [TelemetryItemEvent.of, opens, ExposureTracker.isOpen, hkey]
  · rw [hstart]
    exact hlasted

theorem PageInv.observeItem (h : PageInv p.activeExposures p) {itemId : Id} {seen : Bool} {now : Instant}
    {surface : Surface} {exposureId : String} :
    PageInv (p.observeItem itemId seen now surface exposureId).activeExposures
        (p.observeItem itemId seen now surface exposureId) ∧
      Grows p (p.observeItem itemId seen now surface exposureId) := by
  unfold MenuPage.observeItem
  split
  · exact ⟨h, .refl p⟩
  · split
    · split
      · exact ⟨h, .refl p⟩
      · next hnew =>
        exact h.startExposure ⟨itemId, exposureId, now, false, false⟩ (Option.not_isSome_iff_eq_none.1 hnew)
    · split
      · exact ⟨h, .refl p⟩
      · next t ht =>
        dsimp only
        split
        · next hlong =>
          obtain ⟨hqueue, hgrows⟩ := h.heartbeat surface ht hlong
          rw [(queueEvent_counts _ p).exposures]
          exact ⟨hqueue.withRefs _ _ _, ⟨hgrows.key, hgrows.dwell, hgrows.queued, hgrows.started, hgrows.posts⟩⟩
        · have hforget : PageInv (InsertionMap.erase itemId p.activeExposures) p :=
            ⟨h.shipped, h.books.forget List.filter_sublist, h.categories⟩
          exact ⟨hforget.withRefs _ _ _, ⟨rfl, Nat.le_refl _, List.prefix_rfl, List.prefix_rfl, List.prefix_rfl⟩⟩

/-- Whatever happens to a page, it goes on. -/
theorem PageInv.handle (h : PageInv p.activeExposures p) (e : PageEvent) :
    PageInv (p.handle e).activeExposures (p.handle e) ∧ Grows p (p.handle e) := by
  cases e with
  | exposureCheck now surface => exact h.exposureCheck
  | dwellTick => exact h.dwellTick
  | sync =>
    obtain ⟨hsync, hgrows, -⟩ := h.sync false
    exact ⟨(sync_counts false p).exposures ▸ hsync, hgrows⟩
  | cartAdd itemId surface now => exact h.handleCartAdd
  | visibilityChange visible => exact h.handleVisibilityChange
  | pageHide =>
    obtain ⟨hsync, hgrows, -⟩ := h.sync true
    exact ⟨(sync_counts true p).exposures ▸ hsync, hgrows⟩
  | category id => exact ⟨h.withRefs _ _ _, ⟨rfl, Nat.le_refl _, List.prefix_rfl, List.prefix_rfl, List.prefix_rfl⟩⟩
  | item itemId seen now surface exposureId => exact h.observeItem

end Pages

/-! ## The server -/

section Server
variable {posts : List Post} {body : Post} {sessions : List StorefrontSession} {row : StorefrontSession}
  {data : SessionSummary} {key : String} {now : Instant}

theorem mem_summariesOf : data ∈ summariesOf key posts ↔ .summary data ∈ posts ∧ data.sessionKey = key := by
  rw [summariesOf, List.mem_filterMap]
  constructor
  · rintro ⟨body, hbody, heq⟩
    cases body with
    | batch => cases heq
    | summary data' =>
      dsimp only at heq
      split at heq
      · next hkey =>
        obtain rfl := Option.some.inj heq
        exact ⟨hbody, hkey⟩
      · cases heq
  · rintro ⟨hmem, hkey⟩
    exact ⟨.summary data, hmem, if_pos hkey⟩

theorem summariesOf_batch (sessionId : String) (events : List TelemetryItemEvent) :
    summariesOf key (posts ++ [.batch sessionId events]) = summariesOf key posts := by
  rw [summariesOf, List.filterMap_append]
  exact List.append_nil _

theorem summariesOf_same (h : data.sessionKey = key) :
    summariesOf key (posts ++ [.summary data]) = summariesOf key posts ++ [data] := by
  rw [summariesOf, List.filterMap_append]
  simp [h, summariesOf]

theorem summariesOf_other (h : data.sessionKey ≠ key) :
    summariesOf key (posts ++ [.summary data]) = summariesOf key posts := by
  rw [summariesOf, List.filterMap_append]
  simp [h, summariesOf]

/-- The rows are those of the summaries that have been taken. -/
structure Summed (sessions : List StorefrontSession) (posts : List Post) : Prop where
  keys : (sessions.map (·.sessionKey)).Nodup
  sums : ∀ row ∈ sessions, row.Sums (summariesOf row.sessionKey posts)
  all : ∀ data, .summary data ∈ posts → data.sessionKey ∈ sessions.map (·.sessionKey)

theorem StorefrontSession.Sums.merge (h : row.Sums (summariesOf row.sessionKey posts))
    (hkey : data.sessionKey = row.sessionKey) :
    (AnalyticsRepository.merge data now row).Sums (summariesOf row.sessionKey (posts ++ [.summary data])) := by
  rw [summariesOf_same hkey]
  refine ⟨?_, ?_, data, List.getLast?_concat, rfl, rfl⟩
  · rcases Nat.le_total row.dwellTimeSeconds data.dwellTimeSeconds with hle | hle
    · exact ⟨data, List.mem_append_right _ List.mem_cons_self, (Nat.max_eq_right hle).symm⟩
    · obtain ⟨old, hold, heq⟩ := h.longest
      exact ⟨old, List.mem_append_left _ hold, heq.trans (Nat.max_eq_left hle).symm⟩
  · rw [List.forall_mem_append, List.forall_mem_singleton]
    exact ⟨fun old hold => (h.dwell old hold).trans (Nat.le_max_left _ _), Nat.le_max_right _ _⟩

theorem Summed.upsert (h : Summed sessions posts) :
    Summed (Table.upsert (·.sessionKey) ⟨data, now⟩ (AnalyticsRepository.merge data now) sessions)
      (posts ++ [.summary data]) where
  keys := Table.UniqueOn.upsert h.keys fun _ _ _ => rfl
  sums row hrow := by
    rcases Table.mem_upsert_cases hrow with ⟨hrow, hother⟩ | ⟨old, hold, hkey, rfl⟩ | ⟨rfl, hnew⟩
    · rw [summariesOf_other (Ne.symm hother)]
      exact h.sums row hrow
    · exact (h.sums old hold).merge hkey.symm
    · have hnone : summariesOf data.sessionKey posts = [] := by
        rw [List.eq_nil_iff_forall_not_mem]
        intro other hother
        obtain ⟨hmem, hkey⟩ := mem_summariesOf.1 hother
        obtain ⟨old, hold, heq⟩ := List.mem_map.1 (h.all other hmem)
        exact hnew old hold (heq.trans hkey)
      have hsummaries : summariesOf data.sessionKey (posts ++ [.summary data]) = [data] := by
        rw [summariesOf_same rfl, hnone, List.nil_append]
      rw [show (⟨data, now⟩ : StorefrontSession).sessionKey = data.sessionKey from rfl, hsummaries]
      exact ⟨⟨data, List.mem_singleton_self _, rfl⟩, List.forall_mem_singleton.2 (Nat.le_refl _), data, rfl, rfl, rfl⟩
  all other hother := by
    have hkeys : other.sessionKey ∈ (Table.upsert (·.sessionKey) ⟨data, now⟩ (AnalyticsRepository.merge data now)
        sessions).map (·.sessionKey) ↔ other.sessionKey ∈ sessions.map (·.sessionKey) ∨
          other.sessionKey = data.sessionKey := Table.mem_map_upsert fun _ _ => rfl
    refine hkeys.2 ?_
    rcases List.mem_append.1 hother with hother | hother
    · exact .inl (h.all other hother)
    · obtain rfl := Post.summary.inj (List.mem_singleton.1 hother)
      exact .inr rfl

theorem Summed.batch (h : Summed sessions posts) (sessionId : String) (events : List TelemetryItemEvent) :
    Summed sessions (posts ++ [.batch sessionId events]) where
  keys := h.keys
  sums row hrow := by
    rw [summariesOf_batch]
    exact h.sums row hrow
  all data hdata := h.all data ((List.mem_append.1 hdata).resolve_right fun hlast => by
    cases List.mem_singleton.1 hlast)

/-- What the server does with a post that it takes. -/
inductive Takes (body : Post) (s s' : TelemetryStore) : Prop
  | batch (sessionId : String) (events : List TelemetryItemEvent) (hbody : body = .batch sessionId events)
      (hsessions : s'.sessions = s.sessions)
      (hevents : s'.itemEvents.map (·.toTelemetryItemEvent) = s.itemEvents.map (·.toTelemetryItemEvent) ++ events)
  | summary (data : SessionSummary) (now : Instant) (hbody : body = .summary data)
      (hsessions : s'.sessions =
        Table.upsert (·.sessionKey) ⟨data, now⟩ (AnalyticsRepository.merge data now) s.sessions)
      (hevents : s'.itemEvents = s.itemEvents)

theorem post_cases {isUuid : String → Bool} {location : Option Id} {s s' : TelemetryStore}
    (h : AnalyticsService.post isUuid body location now s = .ok s') : Takes body s s' := by
  cases body with
  | batch sessionId events =>
    simp only [AnalyticsService.post, AnalyticsService.ingestTelemetryBatch] at h
    split at h
    · cases h
    · cases location with
      | none => cases h
      | some locationId =>
        cases h
        refine .batch sessionId events rfl rfl ?_
        simp [AnalyticsRepository.insertItemEvents, Function.comp_def]
  | summary data =>
    simp only [AnalyticsService.post, AnalyticsService.recordStorefrontSession] at h
    split at h
    · cases h
    · cases location with
      | none => cases h
      | some locationId =>
        cases h
        exact .summary data now rfl rfl rfl

end Server

/-! ## Runs -/

structure FloorInv (s : TelemetryFloor) : Prop where
  pages : ∀ p ∈ s.pages, PageInv p.activeExposures p
  accounted : (s.pages.flatMap (·.posts)).Perm (s.network ++ s.taken ++ s.dropped)
  stored : s.store.itemEvents.map (·.toTelemetryItemEvent) = s.taken.flatMap Post.events
  summed : Summed s.store.sessions s.taken
  converted : ∀ row ∈ s.store.sessions,
    row.cartCreated = false ∧ row.orderPlaced = false ∧ row.associatedOrderId = none

section Runs
variable {isUuid : String → Bool} {s s' : TelemetryFloor} {p : MenuPage} {body : Post} {i : Nat}

theorem MenuPage.fresh (sessionKey : String) (deviceType : DeviceType) :
    PageInv [] ({ sessionKey, deviceType } : MenuPage) where
  shipped := ⟨Nat.succ_pos _, rfl, fun _ h => absurd h List.not_mem_nil⟩
  books := ⟨fun _ => rfl, fun _ h => absurd h List.not_mem_nil, fun _ h => absurd h List.not_mem_nil,
    fun _ _ => Nat.le_refl _, fun _ h => absurd h List.not_mem_nil⟩
  categories := Nat.le_refl _

/-- A post that is taken or on its way is one of a page. -/
theorem FloorInv.post_of (h : FloorInv s) (hbody : body ∈ s.network ++ s.taken ++ s.dropped) :
    ∃ p ∈ s.pages, body.Of p := by
  obtain ⟨p, hp, hposted⟩ := List.mem_flatMap.1 (h.accounted.mem_iff.2 hbody)
  exact ⟨p, hp, (h.pages p hp).shipped.posts body hposted⟩

theorem count_network (h : s.network[i]? = some body) (b : Post) :
    s.network.count b = [body].count b + (s.network.eraseIdx i).count b := by
  obtain ⟨hi, rfl⟩ := List.getElem?_eq_some_iff.1 h
  rw [← (List.getElem_cons_eraseIdx_perm hi).count_eq b, ← List.count_append, List.singleton_append]

/-- The posts of the pages when one of them has gone on. -/
theorem count_posts {p' : MenuPage} (h : s.pages[i]? = some p) (hposts : p.posts <+: p'.posts) (b : Post) :
    ((s.pages.set i p').flatMap (·.posts)).count b =
      (s.pages.flatMap (·.posts)).count b + (p'.posts.drop p.posts.length).count b := by
  obtain ⟨new, hnew⟩ := hposts
  obtain ⟨hi, rfl⟩ := List.getElem?_eq_some_iff.1 h
  have hold := ((List.getElem_cons_eraseIdx_perm hi).flatMap_right (·.posts)).count_eq b
  have hset := ((List.set_perm_cons_eraseIdx hi p').flatMap_right (·.posts)).count_eq b
  rw [List.flatMap_cons, List.count_append] at hold hset
  rw [hset, ← hold, ← hnew, List.drop_left, List.count_append]
  omega

theorem FloorInv.openPage (h : FloorInv s) (sessionKey : String) (deviceType : DeviceType) :
    FloorInv { s with pages := s.pages ++ [{ sessionKey, deviceType }] } where
  pages := by
    rw [List.forall_mem_append, List.forall_mem_singleton]
    exact ⟨h.pages, MenuPage.fresh sessionKey deviceType⟩
  accounted := by
    rw [List.flatMap_append, List.flatMap_singleton, List.append_nil]
    exact h.accounted
  stored := h.stored
  summed := h.summed
  converted := h.converted

theorem FloorInv.page (h : FloorInv s) (hp : s.pages[i]? = some p) (e : PageEvent) :
    FloorInv { s with
      pages := s.pages.set i (p.handle e)
      network := s.network ++ (p.handle e).posts.drop p.posts.length } where
  pages q hq := by
    rcases List.mem_or_eq_of_mem_set hq with hq | rfl
    · exact h.pages q hq
    · exact ((h.pages p (List.mem_of_getElem? hp)).handle e).1
  accounted := by
    have hposts := ((h.pages p (List.mem_of_getElem? hp)).handle e).2.posts
    rw [List.perm_iff_count]
    intro b
    have hcount := h.accounted.count_eq b
    have hset := count_posts hp hposts b
    simp only [List.count_append] at hcount ⊢
    omega
  stored := h.stored
  summed := h.summed
  converted := h.converted

theorem FloorInv.drop (h : FloorInv s) (hbody : s.network[i]? = some body) :
    FloorInv { s with network := s.network.eraseIdx i, dropped := s.dropped ++ [body] } where
  pages := h.pages
  accounted := by
    rw [List.perm_iff_count]
    intro b
    have hcount := h.accounted.count_eq b
    have hnetwork := count_network hbody b
    simp only [List.count_append] at hcount ⊢
    omega
  stored := h.stored
  summed := h.summed
  converted := h.converted

theorem FloorInv.take (h : FloorInv s) (hbody : s.network[i]? = some body) {store : TelemetryStore}
    (hstore : Takes body s.store store) :
    FloorInv { s with network := s.network.eraseIdx i, store, taken := s.taken ++ [body] } where
  pages := h.pages
  accounted := by
    rw [List.perm_iff_count]
    intro b
    have hcount := h.accounted.count_eq b
    have hnetwork := count_network hbody b
    simp only [List.count_append] at hcount ⊢
    omega
  stored := by
    dsimp only
    rw [List.flatMap_append, List.flatMap_singleton, ← h.stored]
    cases hstore with
    | batch sessionId events hbody hsessions hevents => rw [hevents, hbody]; rfl
    | summary data now hbody hsessions hevents => rw [hevents, hbody]; exact (List.append_nil _).symm
  summed := by
    cases hstore with
    | batch sessionId events hbody hsessions hevents =>
      dsimp only
      rw [hsessions, hbody]
      exact h.summed.batch sessionId events
    | summary data now hbody hsessions hevents =>
      dsimp only
      rw [hsessions, hbody]
      exact h.summed.upsert
  converted := by
    cases hstore with
    | batch sessionId events hbody hsessions hevents => exact hsessions ▸ h.converted
    | summary data now hdata hsessions hevents =>
      have hmem : body ∈ s.network ++ s.taken ++ s.dropped :=
        List.mem_append_left _ (List.mem_append_left _ (List.mem_of_getElem? hbody))
      obtain ⟨p, -, hof⟩ := h.post_of hmem
      obtain ⟨hcart, horder, hid⟩ := (hof.summary data hdata).converted
      dsimp only
      rw [hsessions]
      intro row hrow
      rcases Table.mem_upsert_cases hrow with ⟨hrow, -⟩ | ⟨old, hold, -, rfl⟩ | ⟨rfl, -⟩
      · exact h.converted row hrow
      · obtain ⟨hcart', horder', hid'⟩ := h.converted old hold
        exact ⟨by simp [AnalyticsRepository.merge, hcart, hcart'],
          by simp [AnalyticsRepository.merge, horder, horder'], by simp [AnalyticsRepository.merge, hid, hid']⟩
      · exact ⟨hcart, horder, hid⟩

theorem FloorInv.step (h : FloorInv s) {a : TelemetryStep} (hs : telemetryStep isUuid s a = some s') :
    FloorInv s' := by
  cases a with
  | openPage sessionKey deviceType =>
    cases hs
    exact h.openPage sessionKey deviceType
  | page i e =>
    obtain ⟨p, hp, rfl⟩ := Option.map_eq_some_iff.1 hs
    exact h.page hp e
  | deliver i location now =>
    obtain ⟨body, hbody, rfl⟩ := Option.map_eq_some_iff.1 hs
    split
    · next store hstore => exact h.take hbody (post_cases hstore)
    · exact h.drop hbody
  | lose i =>
    obtain ⟨body, hbody, rfl⟩ := Option.map_eq_some_iff.1 hs
    exact h.drop hbody

theorem FloorInv.flatMap_queued (h : FloorInv s) :
    s.pages.flatMap (fun p => p.posts.flatMap Post.events ++ p.pendingEvents) = s.pages.flatMap (·.queued) :=
  List.flatMap_congr fun p hp => (h.pages p hp).shipped.order

/-- The events of a page that are stored are some of those that it has queued. -/
theorem FloorInv.countP_stored (h : FloorInv s) (P : TelemetryItemEvent → Bool) :
    (s.store.itemEvents.map (·.toTelemetryItemEvent)).countP P ≤ (s.pages.flatMap (·.queued)).countP P := by
  have hevents := (h.accounted.flatMap_right Post.events).countP_eq P
  have hpages := (List.flatMap_append_perm s.pages (fun p => p.posts.flatMap Post.events) (·.pendingEvents)).countP_eq P
  rw [h.flatMap_queued] at hpages
  rw [h.stored, ← hpages]
  simp only [List.flatMap_append, List.countP_append, List.flatMap_assoc] at hevents ⊢
  omega

/-- A page has queued no more events of a type than exposures have started. -/
theorem FloorInv.countP_queued (h : FloorInv s) (type : EventType) (P : Id → String → Bool) :
    (s.pages.flatMap (·.queued)).countP (·.of type P) ≤
      (s.pages.flatMap (·.started)).countP fun t => P t.itemId t.exposureId := by
  have hpages := h.pages
  generalize s.pages = pages at hpages ⊢
  induction pages with
  | nil => exact Nat.le_refl _
  | cons p pages ih =>
    obtain ⟨hp, hpages⟩ := List.forall_mem_cons.1 hpages
    rw [List.flatMap_cons, List.flatMap_cons, List.countP_append, List.countP_append]
    exact Nat.add_le_add ((Nat.le_add_right _ _).trans (hp.books.counted type P)) (ih hpages)

theorem FloorInv.complete (h : FloorInv s) (hnetwork : s.network = []) (hdropped : s.dropped = []) :
    (s.store.itemEvents.map (·.toTelemetryItemEvent) ++ s.pages.flatMap (·.pendingEvents)).Perm
      (s.pages.flatMap (·.queued)) := by
  have hposts := h.accounted
  rw [hnetwork, hdropped, List.nil_append, List.append_nil] at hposts
  have hevents := hposts.flatMap_right Post.events
  rw [List.flatMap_assoc] at hevents
  rw [h.stored, ← h.flatMap_queued]
  exact (hevents.symm.append_right _).trans (List.flatMap_append_perm _ _ _)

/-- A summary that has been taken is one of a page of its key. -/
theorem FloorInv.summary_of (h : FloorInv s) {key : String} {data : SessionSummary}
    (hdata : data ∈ summariesOf key s.taken) : ∃ p ∈ s.pages, p.sessionKey = key ∧ data.Of p := by
  obtain ⟨hmem, hkey⟩ := mem_summariesOf.1 hdata
  obtain ⟨p, hp, hof⟩ := h.post_of (List.mem_append_left _ (List.mem_append_right _ hmem))
  have hsummary := hof.summary data rfl
  exact ⟨p, hp, hsummary.key.symm.trans hkey, hsummary⟩

theorem FloorInv.bounded (h : FloorInv s) {row : StorefrontSession} (hrow : row ∈ s.store.sessions) :
    (row.categoryDwellMap.map (·.2)).sum ≤ row.dwellTimeSeconds ∧
      (∃ p ∈ s.pages, p.sessionKey = row.sessionKey ∧ row.dwellTimeSeconds ≤ p.dwellTime) ∧
      ∃ p ∈ s.pages, p.sessionKey = row.sessionKey ∧
        ∀ itemId, (row.itemViewsMap.lookup itemId).getD 0 ≤ p.queued.countP (·.views itemId) := by
  obtain ⟨⟨longest, hlongest, hdwell⟩, hall, last, hlast, hcategories, hviews⟩ := h.summed.sums row hrow
  have hmem := List.mem_of_getLast? hlast
  obtain ⟨p, hp, hkey, hof⟩ := h.summary_of hlongest
  obtain ⟨q, hq, hkey', hof'⟩ := h.summary_of hmem
  refine ⟨?_, ⟨p, hp, hkey, hdwell ▸ hof.dwell⟩, q, hq, hkey', fun itemId => ?_⟩
  · rw [hcategories]
    exact hof'.categories.trans (hall last hmem)
  · rw [hviews]
    exact hof'.views itemId

theorem FloorInv.knows (h : FloorInv s) : Knows s where
  small p hp := (h.pages p hp).shipped.small
  order p hp := (h.pages p hp).shipped.order
  posts p hp := (h.pages p hp).shipped.posts
  left p hp := ((h.pages p hp).sync true).2.2
  measured p hp := (h.pages p hp).books.measured
  accounted := h.accounted
  stored := h.stored
  complete := h.complete
  exposures type P := (h.countP_stored _).trans (h.countP_queued type P)
  sessions := h.summed.sums
  keys := h.summed.keys
  bounded row hrow := by
    obtain ⟨hcategories, hdwell, hviews⟩ := h.bounded hrow
    exact ⟨hcategories, hdwell, hviews, h.converted row hrow⟩

/-- Whatever happens to the pages, and whichever posts get through in which order. -/
theorem menus_known {steps : List TelemetryStep} (hr : Runs.exec (telemetryStep isUuid) {} steps = some s) :
    Knows s := by
  have hstart : FloorInv {} :=
    ⟨fun _ h => absurd h List.not_mem_nil, List.Perm.refl _, rfl,
      ⟨List.nodup_nil, fun _ h => absurd h List.not_mem_nil, fun _ h => absurd h List.not_mem_nil⟩,
      fun _ h => absurd h List.not_mem_nil⟩
  have hinv : FloorInv s := Runs.exec_inv (fun _ _ _ h _ hs => h.step hs) hstart
    (Runs.Along.of_forall fun _ _ => trivial) hr
  exact hinv.knows

end Runs

namespace Demo

def menuItem : Id := "3f2b8c1e-5d4a-4c6b-9e7f-0a1b2c3d4e5f"

/-- An item is seen for a second and a half; the summary overtakes the events, and the cart's post is lost. -/
def visit : List TelemetryStep :=
  [.openPage "s_1" .mobile, .page 0 (.category "drinks"), .page 0 (.item menuItem true 1000 .classic "exp_1"),
    .page 0 .dwellTick, .page 0 (.exposureCheck 1600 .classic), .page 0 .dwellTick,
    .page 0 (.exposureCheck 2500 .classic), .page 0 (.item menuItem false 2600 .classic "exp_2"), .page 0 .sync,
    .page 0 (.cartAdd menuItem .classic 3000), .page 0 .pageHide, .deliver 1 (some "location") 4000, .lose 1,
    .deliver 0 (some "location") 4100]

/-- The row of the session. -/
def visited : SessionSummary where
  sessionKey := "s_1"
  deviceType := .mobile
  dwellTimeSeconds := 2
  categoryDwellMap := [("drinks", 2)]
  itemViewsMap := [(menuItem, 1)]
  cartCreated := false
  orderPlaced := false

end Demo

open Telemetry.Demo in
theorem menus_known_visit : ∃ s, Runs.exec (telemetryStep fun id => id.length = 36) {} visit = some s ∧
    s.store.itemEvents.map (fun r => (r.eventType, r.exposureId)) =
      [(.impression, some "exp_1"), (.qualifiedView, some "exp_1")] ∧
    s.store.sessions.map (·.toSessionSummary) = [visited] ∧ Knows s := by
  have hread : (Runs.exec (telemetryStep fun id => id.length = 36) {} visit).map (fun s =>
      (s.store.itemEvents.map (fun r => (r.eventType, r.exposureId)), s.store.sessions.map (·.toSessionSummary))) =
      some ([(.impression, some "exp_1"), (.qualifiedView, some "exp_1")], [visited]) := by decide +kernel
  obtain ⟨s, hr, hread⟩ := Option.map_eq_some_iff.1 hread
  obtain ⟨hevents, hsessions⟩ := Prod.mk.inj hread
  exact ⟨s, hr, hevents, hsessions, menus_known hr⟩

end Komanda.Telemetry
