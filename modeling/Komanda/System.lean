import Komanda.Lib.ReadCommitted
import Komanda.PaymentConfirmation
import Komanda.CashShifts

/-!
# The system: every transaction that touches carts, payments, orders and cash

A `Request` is a call of one of the services with the values it draws; `exec` runs its transaction on a
view and a current state. `step` is the machine whose steps are whole transactions, `rcStep` the one
whose transactions overlap under READ COMMITTED. `configure` stands for the back office: the catalog,
the settings and the linked account change at any time.
-/

namespace Komanda
open Transaction

/-- What the back office sets. -/
structure Configuration where
  settings : Settings
  accounts : List IntegrationAccount
  items : List CatalogItem
  combos : List CatalogCombo
  addonGroups : List AddonGroup
  itemAddonGroups : List (Id × Id)
deriving DecidableEq, Repr

inductive Action
  | configure (c : Configuration)
  | createDiscount (d : Discount)
  | updateDiscount (id : Id) (input : DiscountRepository.UpdateInput) (currentVersion : Option Nat)
  | deleteDiscount (id : Id)
  | createCart (tenant : PublicTenant) (request : CreateCartRequest) (key : String) (recordId cartId : Id)
  | getCart (cartId : Id)
  | applyDiscount (cartId : Id) (code : String) (retryAfterSeconds : Option Nat)
  | removeDiscount (cartId : Id)
  | createCashOrder (tenant : PublicTenant) (cartId : Id) (request : CheckoutRequest) (key : String)
      (recordId : Id)
  | prepareSession (tenant : PublicTenant) (cartId : Id) (request : CheckoutRequest) (key : String)
      (recordId attemptId : Id)
  /-- The provider has issued the preference of the `i`-th session under way. -/
  | attachSession (i : Nat) (preference : Preference)
  /-- The `i`-th session under way has failed. -/
  | giveUpSession (i : Nat)
  | kioskSession (request : KioskPaymentSessionRequest) (key : String) (recordId cartId attemptId : Id)
      (preference : Except AppError Preference)
  | kioskCancel (attemptId : Id) (key : String) (recordId : Id)
  | webhook (event : ReceivedMercadoPagoWebhook) (payment : MercadoPagoPayment) (eventId : Id)
  | reconcile (attemptId : Id) (lookup : Option MercadoPagoPayment)
  | createDirect (cartId : Id) (customer : Customer) (notes : Option String) (key : String)
  | createDirectFromItems (request : CreateOrderService.DirectItemsRequest) (key : String) (cartId : Id)
  | createPaid (attemptId : Id) (approvedAt : Option Instant)
  | transition (orderId : Id) (expectedVersion : Nat) (request : TransitionOrderService.Request)
  | collect (actor : Actor) (orderId : Id) (key : String) (request : CollectCashRequest) (recordId : Id)
  | refund (actor : Actor) (orderId : Id) (key : String) (request : RefundCashRequest) (recordId : Id)
  | cancelUnpaid (orderId : Id) (pickupPin : String)
  | expire (orderId : Id)
  | openShift (userId : String) (openingBalance : Cents) (locationId : Option Id) (shiftId : Id)
  | closeShift (shiftId : Id) (closingBalance : Cents)

structure Request where
  action : Action
  draw : Draw

/-- What a request is answered with, as far as it names an order. -/
inductive Answer
  | done
  | order (order : Order)
  | cashOrder (response : CreateCashOrderResponse)
deriving DecidableEq, Repr

/-- Run `x` for its effect. -/
def effect {α : Type} (x : DbTx α) : DbTx Answer := do
  let _ ← x
  return .done

def configure (c : Configuration) : DbTx Unit :=
  write fun db => { db with
    settings := c.settings, accounts := c.accounts, items := c.items, combos := c.combos,
    addonGroups := c.addonGroups, itemAddonGroups := c.itemAddonGroups }

/-- `PaymentSessionService.create` up to its first commit. -/
def beginSession (prepare : DbTx PaymentSessionService.Prepared) : DbTx Unit := do
  let prepared ← prepare
  match prepared with
  | .replayed _ => pure ()
  | .ready session => write fun db => { db with sessions := db.sessions ++ [session] }

/-- The second transaction of the `i`-th session under way. -/
def endSession {α : Type} (i : Nat) (finish : PreparedSession → DbTx α) : DbTx Unit := do
  let found ← current fun db => db.sessions[i]?
  let session ← orThrow found (.internal "No such session.")
  let _ ← finish session
  write fun db => { db with sessions := db.sessions.eraseIdx i }

def Action.run (draw : Draw) : Action → DbTx Answer
  | configure c => effect (Komanda.configure c)
  | createDiscount d => effect (DiscountRepository.create d)
  | updateDiscount id input currentVersion => effect (DiscountRepository.update id input currentVersion)
  | deleteDiscount id => effect (DiscountRepository.softDelete id draw.now)
  | createCart tenant request key recordId cartId =>
    effect (CartService.create tenant request key recordId cartId draw.now)
  | getCart cartId => effect (CartService.get cartId draw.now)
  | applyDiscount cartId code retryAfterSeconds =>
    effect (CartService.applyDiscount cartId code retryAfterSeconds draw.now)
  | removeDiscount cartId => effect (CartService.removeDiscount cartId draw.now)
  | createCashOrder tenant cartId request key recordId => do
    let response ← CreateCashOrderService.create tenant cartId request key recordId draw
    return .cashOrder response
  | prepareSession tenant cartId request key recordId attemptId =>
    effect (beginSession
      (PaymentSessionService.prepare tenant cartId request key recordId attemptId draw.now))
  | attachSession i preference =>
    effect (endSession i fun session => PaymentSessionService.attach session preference)
  | giveUpSession i => effect (endSession i PaymentSessionService.giveUp)
  | kioskSession request key recordId cartId attemptId preference =>
    effect (KioskPaymentService.createSession request key recordId cartId attemptId preference draw.now)
  | kioskCancel attemptId key recordId =>
    effect (KioskPaymentService.cancelAttempt attemptId key recordId draw.now)
  | webhook event payment eventId => effect (Webhook.receive event payment eventId draw)
  | reconcile attemptId lookup => effect (Reconciliation.reconcilePaymentAttempt attemptId lookup draw)
  | createDirect cartId customer notes key => do
    let order ← CreateOrderService.createDirect cartId customer notes key draw
    return .order order
  | createDirectFromItems request key cartId => do
    let order ← CreateOrderService.createDirectFromItems request key cartId draw
    return .order order
  | createPaid attemptId approvedAt => do
    let order ← CreateOrderService.createPaidFromPaymentAttempt attemptId approvedAt draw
    return .order order
  | transition orderId expectedVersion request =>
    effect (TransitionOrderService.transition orderId expectedVersion request draw)
  | collect actor orderId key request recordId =>
    effect (CollectCashService.collect actor orderId key request recordId draw)
  | refund actor orderId key request recordId =>
    effect (RefundCashService.refund actor orderId key request recordId draw)
  | cancelUnpaid orderId pickupPin => effect (CancelUnpaidOrderService.cancel orderId pickupPin draw)
  | expire orderId => effect (ExpireUnpaidOrdersJob.run orderId draw)
  | openShift userId openingBalance locationId shiftId =>
    effect (CashShiftService.openShift userId openingBalance locationId none shiftId draw.now)
  | closeShift shiftId closingBalance =>
    effect (CashShiftService.close shiftId closingBalance none draw.now)

/-- The transaction of a request, if it commits. -/
def exec (q : Request) (view db : Db) : Option (Answer × Db) := (q.action.run q.draw view db).toOption

/-- A request whose transaction nothing overlaps. -/
def step (db : Db) (q : Request) : Option Db := (exec q db db).map (·.2)

/-- The parts of the database that a transaction may read again. -/
inductive Part
  | settings
  | catalog
  | discounts
  | carts
  | attempts
  | orders
  | cash
  | routes
  | billing
  | idempotency
deriving DecidableEq, Repr

def reread (part : Part) (view db : Db) : Db :=
  match part with
  | .settings => { view with settings := db.settings, accounts := db.accounts }
  | .catalog => { view with items := db.items, combos := db.combos, addonGroups := db.addonGroups,
                            itemAddonGroups := db.itemAddonGroups }
  | .discounts => { view with discounts := db.discounts }
  | .carts => { view with carts := db.carts }
  | .attempts => { view with attempts := db.attempts }
  | .orders => { view with orders := db.orders }
  | .cash => { view with shifts := db.shifts, movements := db.movements }
  | .routes => { view with routes := db.routes }
  | .billing => { view with billing := db.billing }
  | .idempotency => { view with idempotency := db.idempotency }

abbrev RcState := ReadCommitted.Session Db Request
abbrev RcEvent := ReadCommitted.Event Request Part

/-- A step of overlapping transactions. -/
def rcStep (s : RcState) (e : RcEvent) : Option RcState := ReadCommitted.step exec reread s e

/-- A tenant on its first day. -/
def Db.fresh (tenantId : Id) (settings : Settings) : Db := { tenantId, settings }

theorem exec_eq {q : Request} {view db db' : Db} {a : Answer} :
    exec q view db = some (a, db') ↔ Commits (q.action.run q.draw) view db a db' :=
  toOption_eq

theorem step_eq {q : Request} {db db' : Db} : step db q = some db' ↔ ∃ a, exec q db db = some (a, db') := by
  simp [step]

end Komanda
