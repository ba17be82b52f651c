import Komanda.Lib.InsertionMap
import Komanda.Lib.Runs
import Komanda.Lib.Table
import Komanda.Idempotency

/-!
# What menus report (`useMenuAnalytics.ts`, `analytics.service.ts`, `analytics.repository.ts`)

A page that shows the menu counts the seconds that it is seen, watches which items are on the screen and for how long,
and posts events in batches and summaries of its session. Posts get lost and overtake each other; the server stores the
events of a batch as rows and keeps one row for each session. `isUuid` is what `z.string().uuid()` accepts.
-/

namespace Komanda.Telemetry

/-! ## Events and posts -/

inductive Surface
  | classic
  | reels
deriving DecidableEq, Repr

inductive EventType
  | impression
  | qualifiedView
  | dwellHeartbeat
  | cartAdd
deriving DecidableEq, Repr

structure TelemetryItemEvent where
  itemId : Id
  surface : Surface
  eventType : EventType
  dwellDurationMs : Nat
  exposureId : Option String := none
  occurredAt : Instant
deriving DecidableEq, Repr

inductive DeviceType
  | mobile
  | tablet
  | desktop
  | unknown
deriving DecidableEq, Repr

structure SessionSummary where
  sessionKey : String
  deviceType : DeviceType
  dwellTimeSeconds : Nat
  categoryDwellMap : List (String × Nat)
  itemViewsMap : List (Id × Nat)
  cartCreated : Bool
  orderPlaced : Bool
  associatedOrderId : Option Id := none
deriving DecidableEq, Repr

/-- The body of a post, which has `events` or has not. -/
inductive Post
  | batch (sessionId : String) (events : List TelemetryItemEvent)
  | summary (data : SessionSummary)
deriving DecidableEq, Repr

def Post.events : Post → List TelemetryItemEvent
  | batch _ events => events
  | summary _ => []

/-! ## A page -/

structure ExposureTracker where
  itemId : Id
  exposureId : String
  startTime : Instant
  impressionSent : Bool := false
  qualifiedViewSent : Bool := false
deriving DecidableEq, Repr

/-- The refs of the hook. -/
structure MenuPage where
  sessionKey : String
  deviceType : DeviceType
  dwellTime : Nat := 0
  categoryDwell : List (String × Nat) := []
  itemViewsMap : List (Id × Nat) := []
  activeCategory : Option String := none
  lastSyncDwell : Nat := 0
  pendingEvents : List TelemetryItemEvent := []
  activeExposures : List (Id × ExposureTracker) := []
  /-- `document.visibilityState` -/
  visible : Bool := true
  /-- For the record: what the page has posted, the events that it has queued, and the exposures that have started. -/
  posts : List Post := []
  queued : List TelemetryItemEvent := []
  started : List ExposureTracker := []
deriving DecidableEq, Repr

namespace MenuPage

def flushBatchEvents (p : MenuPage) : MenuPage :=
  if p.pendingEvents.length = 0 then p
  else
    let eventsToSend := p.pendingEvents.take 50
    { p with pendingEvents := p.pendingEvents.drop 50, posts := p.posts ++ [.batch p.sessionKey eventsToSend] }

/-- The seconds are whole, so that `Math.floor` leaves them as they are. -/
def sendSessionSummary (isFinal : Bool) (p : MenuPage) : MenuPage :=
  if !isFinal && p.dwellTime = p.lastSyncDwell then p
  else
    let data : SessionSummary := {
      sessionKey := p.sessionKey
      deviceType := p.deviceType
      dwellTimeSeconds := p.dwellTime
      categoryDwellMap := p.categoryDwell
      itemViewsMap := p.itemViewsMap
      cartCreated := false
      orderPlaced := false }
    { p with lastSyncDwell := p.dwellTime, posts := p.posts ++ [.summary data] }

def queueEvent (event : TelemetryItemEvent) (p : MenuPage) : MenuPage :=
  let p := { p with pendingEvents := p.pendingEvents ++ [event], queued := p.queued ++ [event] }
  if p.pendingEvents.length ≥ 20 then p.flushBatchEvents else p

/-- One more of a key. -/
def countUp (key : String) (counts : List (String × Nat)) : List (String × Nat) :=
  InsertionMap.set key ((counts.lookup key).getD 0 + 1) counts

/-- What the visibility checker does for one tracker. -/
def checkImpression (now : Instant) (surface : Surface) (x : ExposureTracker × MenuPage) : ExposureTracker × MenuPage :=
  if now - x.1.startTime ≥ 500 && !x.1.impressionSent then
    ({ x.1 with impressionSent := true }, x.2.queueEvent {
      itemId := x.1.itemId
      surface
      eventType := .impression
      dwellDurationMs := 500
      exposureId := some x.1.exposureId
      occurredAt := now })
  else x

def checkQualifiedView (now : Instant) (surface : Surface) (x : ExposureTracker × MenuPage) :
    ExposureTracker × MenuPage :=
  if now - x.1.startTime ≥ 1000 && !x.1.qualifiedViewSent then
    let p := { x.2 with itemViewsMap := countUp x.1.itemId x.2.itemViewsMap }
    ({ x.1 with qualifiedViewSent := true }, p.queueEvent {
      itemId := x.1.itemId
      surface
      eventType := .qualifiedView
      dwellDurationMs := 1000
      exposureId := some x.1.exposureId
      occurredAt := now })
  else x

/-- `activeExposures.forEach`; the trackers are changed where they are. -/
def checkAll (now : Instant) (surface : Surface) :
    List (Id × ExposureTracker) → MenuPage → List (Id × ExposureTracker) × MenuPage
  | [], p => ([], p)
  | (key, tracker) :: trackers, p =>
    let x := checkQualifiedView now surface (checkImpression now surface (tracker, p))
    let rest := checkAll now surface trackers x.2
    ((key, x.1) :: rest.1, rest.2)

def exposureCheck (now : Instant) (surface : Surface) (p : MenuPage) : MenuPage :=
  if !p.visible then p
  else
    let checked := checkAll now surface p.activeExposures p
    { checked.2 with activeExposures := checked.1 }

def dwellTick (p : MenuPage) : MenuPage :=
  if !p.visible then p
  else
    match p.activeCategory with
    | some category =>
      if category = "" then { p with dwellTime := p.dwellTime + 1 }
      else { p with dwellTime := p.dwellTime + 1, categoryDwell := countUp category p.categoryDwell }
    | none => { p with dwellTime := p.dwellTime + 1 }

/-- The periodic synchronization, and the unload of the page. -/
def sync (isFinal : Bool) (p : MenuPage) : MenuPage := p.flushBatchEvents.sendSessionSummary isFinal

def handleCartAdd (itemId : Id) (surface : Surface) (now : Instant) (p : MenuPage) : MenuPage :=
  if itemId = "" then p
  else
    (p.queueEvent { itemId, surface, eventType := .cartAdd, dwellDurationMs := 0, occurredAt := now }).flushBatchEvents

def handleVisibilityChange (visible : Bool) (p : MenuPage) : MenuPage :=
  let p := { p with visible }
  if !visible then p.sync false else p

/-- An entry of the observer of the items, of which half is to be seen or not; the id is for a new exposure. -/
def observeItem (itemId : Id) (seen : Bool) (now : Instant) (surface : Surface) (exposureId : String) (p : MenuPage) :
    MenuPage :=
  if itemId = "" then p
  else if seen then
    if (p.activeExposures.lookup itemId).isSome then p
    else
      let tracker : ExposureTracker := { itemId, exposureId, startTime := now }
      { p with
        activeExposures := InsertionMap.set itemId tracker p.activeExposures
        started := p.started ++ [tracker] }
  else
    match p.activeExposures.lookup itemId with
    | none => p
    | some tracker =>
      let dwellMs := now - tracker.startTime
      let p := if dwellMs ≥ 3000 then
          p.queueEvent {
            itemId
            surface
            eventType := .dwellHeartbeat
            dwellDurationMs := min dwellMs 10000
            exposureId := some tracker.exposureId
            occurredAt := now }
        else p
      { p with activeExposures := InsertionMap.erase itemId p.activeExposures }

end MenuPage

/-- What happens to a page. -/
inductive PageEvent
  | exposureCheck (now : Instant) (surface : Surface)
  | dwellTick
  | sync
  | cartAdd (itemId : Id) (surface : Surface) (now : Instant)
  | visibilityChange (visible : Bool)
  | pageHide
  | category (id : String)
  | item (itemId : Id) (seen : Bool) (now : Instant) (surface : Surface) (exposureId : String)
deriving DecidableEq, Repr

def MenuPage.handle (p : MenuPage) : PageEvent → MenuPage
  | .exposureCheck now surface => p.exposureCheck now surface
  | .dwellTick => p.dwellTick
  | .sync => p.sync false
  | .cartAdd itemId surface now => p.handleCartAdd itemId surface now
  | .visibilityChange visible => p.handleVisibilityChange visible
  | .pageHide => p.sync true
  | .category id => { p with activeCategory := some id }
  | .item itemId seen now surface exposureId => p.observeItem itemId seen now surface exposureId

/-! ## The server -/

/-- A row of `storefront_sessions` of the tenant. -/
structure StorefrontSession extends SessionSummary where
  lastActiveAt : Instant
deriving DecidableEq, Repr

/-- A row of `storefront_item_events` of the tenant. -/
structure StorefrontItemEvent extends TelemetryItemEvent where
  locationId : Id
  sessionId : String
deriving DecidableEq, Repr

structure TelemetryStore where
  sessions : List StorefrontSession := []
  itemEvents : List StorefrontItemEvent := []
deriving DecidableEq, Repr

namespace AnalyticsRepository

/-- The row of a session that sends another summary. -/
def merge (input : SessionSummary) (now : Instant) (row : StorefrontSession) : StorefrontSession :=
  { row with
    dwellTimeSeconds := max row.dwellTimeSeconds input.dwellTimeSeconds
    deviceType := if input.deviceType ≠ .unknown then input.deviceType else row.deviceType
    categoryDwellMap := input.categoryDwellMap
    itemViewsMap := input.itemViewsMap
    cartCreated := row.cartCreated || input.cartCreated
    orderPlaced := row.orderPlaced || input.orderPlaced
    associatedOrderId := input.associatedOrderId <|> row.associatedOrderId
    lastActiveAt := now }

def upsertSession (input : SessionSummary) (now : Instant) (s : TelemetryStore) : TelemetryStore :=
  { s with sessions := Table.upsert (·.sessionKey) ⟨input, now⟩ (merge input now) s.sessions }

def insertItemEvents (locationId : Id) (sessionId : String) (events : List TelemetryItemEvent) (s : TelemetryStore) :
    TelemetryStore :=
  { s with itemEvents := s.itemEvents ++ events.map (⟨·, locationId, sessionId⟩) }

end AnalyticsRepository

inductive TelemetryError
  /-- `ZodError` -/
  | validation
  /-- `PublicTenantNotFoundError` -/
  | tenantNotFound
deriving DecidableEq, Repr

namespace AnalyticsService
variable (isUuid : String → Bool)

/-- `recordStorefrontSessionSchema`, beside the types. -/
def summaryFits (data : SessionSummary) : Bool :=
  1 ≤ data.sessionKey.length && data.sessionKey.length ≤ 128 && data.dwellTimeSeconds ≤ 86400 &&
    data.associatedOrderId.all isUuid

/-- `telemetryItemEventSchema` -/
def eventFits (event : TelemetryItemEvent) : Bool :=
  isUuid event.itemId && event.exposureId.all (·.length ≤ 128)

/-- `ingestTelemetryBatchSchema` -/
def batchFits (sessionId : String) (events : List TelemetryItemEvent) : Bool :=
  1 ≤ sessionId.length && sessionId.length ≤ 128 && 1 ≤ events.length && events.length ≤ 100 &&
    events.all (eventFits isUuid)

/-- `recordStorefrontSession`; `location` is that of the tenant that the slug resolves to. -/
def recordStorefrontSession (data : SessionSummary) (location : Option Id) (now : Instant) (s : TelemetryStore) :
    Except TelemetryError TelemetryStore :=
  if !summaryFits isUuid data then .error .validation
  else
    match location with
    | none => .error .tenantNotFound
    | some _ => .ok (AnalyticsRepository.upsertSession data now s)

def ingestTelemetryBatch (sessionId : String) (events : List TelemetryItemEvent) (location : Option Id)
    (s : TelemetryStore) : Except TelemetryError TelemetryStore :=
  if !batchFits isUuid sessionId events then .error .validation
  else
    match location with
    | none => .error .tenantNotFound
    | some locationId => .ok (AnalyticsRepository.insertItemEvents locationId sessionId events s)

/-- `POST` of the route. -/
def post (body : Post) (location : Option Id) (now : Instant) (s : TelemetryStore) :
    Except TelemetryError TelemetryStore :=
  match body with
  | .batch sessionId events => ingestTelemetryBatch isUuid sessionId events location s
  | .summary data => recordStorefrontSession isUuid data location now s

end AnalyticsService

/-! ## Runs -/

inductive TelemetryStep
  | openPage (sessionKey : String) (deviceType : DeviceType)
  | page (i : Nat) (e : PageEvent)
  /-- The server gets the `i`-th post of those on their way. -/
  | deliver (i : Nat) (location : Option Id) (now : Instant)
  | lose (i : Nat)
deriving DecidableEq, Repr

/-- The pages, the posts on their way, and the server; for the record, what the server has taken. -/
structure TelemetryFloor where
  pages : List MenuPage := []
  network : List Post := []
  store : TelemetryStore := {}
  taken : List Post := []
  /-- The posts that were lost or refused. -/
  dropped : List Post := []
deriving DecidableEq, Repr

def telemetryStep (isUuid : String → Bool) (s : TelemetryFloor) : TelemetryStep → Option TelemetryFloor
  | .openPage sessionKey deviceType => some { s with pages := s.pages ++ [{ sessionKey, deviceType }] }
  | .page i e => s.pages[i]?.map fun p =>
    let p' := p.handle e
    { s with pages := s.pages.set i p', network := s.network ++ p'.posts.drop p.posts.length }
  | .deliver i location now => s.network[i]?.map fun body =>
    match AnalyticsService.post isUuid body location now s.store with
    | .ok store => { s with network := s.network.eraseIdx i, store, taken := s.taken ++ [body] }
    | .error _ => { s with network := s.network.eraseIdx i, dropped := s.dropped ++ [body] }
  | .lose i => s.network[i]?.map fun body =>
    { s with network := s.network.eraseIdx i, dropped := s.dropped ++ [body] }

end Komanda.Telemetry
