import Komanda.Proofs.StoredAnswers
import Komanda.Proofs.FinalApprovals

/-!
# Whose order a key gives

Two layers make a checkout repeatable. The records of `StoredAnswers` are scoped by cart, so an answer that
is replayed names an order of the cart it is asked for (`RecordsInv.own`). Under them, the order repository
looks for an order with the same key, of whatever cart: a request gets the order of its own cart exactly when
the order it finds there is of this cart (`OwnKey`).
-/

namespace Komanda
open Transaction Idempotency ReadCommitted Runs Komanda.Core

/-- The order is made from the cart, and for the payment attempt if there is one. -/
def Order.IsOf (cartId : Id) (attemptId : Option Id) (o : Order) : Prop :=
  o.cartId = cartId ∧ ∀ a ∈ attemptId, o.paymentAttemptId = some a

/-- An order that holds the key is made from the cart. -/
def KeyIsOf (key : String) (cartId : Id) (attemptId : Option Id) (v : Db) : Prop :=
  ∀ o ∈ Table.lookup Order.idempotencyKey key v.orders, o.IsOf cartId attemptId

/-- The columns of the record of a cash checkout. -/
def cashIdentity (tenantId cartId : Id) (key : String) : Option Id × String × String :=
  (some tenantId, "cash-order:" ++ cartId, Text.trim key)

/-- The cash checkout of the cart has been answered under the key. -/
def Answered (tenantId cartId : Id) (key : String) (v : Db) : Prop :=
  ∃ r ∈ v.idempotency, identityOf r = cashIdentity tenantId cartId key ∧ r.state = .completed

/-- The key of a request that creates an order is free, or its own. -/
def OwnKey (q : Request) (v db : Db) : Prop :=
  match q.action with
  | .createCashOrder _ cartId _ key _ => Answered db.tenantId cartId key v ∨ KeyIsOf key cartId none v
  | .createDirect cartId _ _ key => KeyIsOf key cartId none v
  | .createDirectFromItems _ key cartId => KeyIsOf key cartId none v
  | .createPaid attemptId _ => ∀ a ∈ Table.lookup PaymentAttempt.id attemptId v.attempts,
      KeyIsOf ("payment-attempt:" ++ attemptId) a.cartId (some attemptId) v
  | _ => True

/-- What a request is answered with is an order of the cart it was made for. -/
def Answer.IsOwn (q : Request) (v db' : Db) (answer : Komanda.Answer) : Prop :=
  match q.action, answer with
  | .createCashOrder _ cartId _ _ _, .cashOrder response =>
    ∃ o ∈ db'.orders, o.id = response.orderId ∧ o.IsOf cartId none
  | .createDirect cartId _ _ _, .order o => o.IsOf cartId none
  | .createDirectFromItems _ _ cartId, .order o => o.IsOf cartId none
  | .createPaid attemptId _, .order o =>
    ∀ a ∈ Table.lookup PaymentAttempt.id attemptId v.attempts, o.IsOf a.cartId (some attemptId)
  | _, _ => True

/-- Whatever the request is answered with now is its own. -/
def AnswersOwn (q : Request) (v db : Db) : Prop :=
  ∀ answer db', exec q v db = some (answer, db') → answer.IsOwn q v db'

/-! ## The order repository -/

section Snapshot
variable {v s s' : Db} {input : SnapshotInput} {draw : Draw} {order : Order} {created : Bool}

theorem createFromCartSnapshotWith_own {readCart : DbTx (Option Cart)} (hread : Keeps id readCart)
    (h : Commits (OrderRepository.createFromCartSnapshotWith readCart input draw) v s (order, created) s') :
    order.IsOf input.cart.id input.paymentAttemptId ↔
      KeyIsOf input.idempotencyKey input.cart.id input.paymentAttemptId v := by
  rcases createFromCartSnapshotWith_core hread h with ⟨-, hkey, -⟩ | ⟨-, hkey, -, hins⟩
  · simp [KeyIsOf, hkey]
  · obtain ⟨⟨n, active, rfl⟩, -, -⟩ := insertSnapshot_core hins
    have hnew : (OrderRepository.newOrder input draw n active).IsOf input.cart.id input.paymentAttemptId :=
      ⟨rfl, fun a ha => ha⟩
    simp [KeyIsOf, hkey, hnew]

theorem createFromCartSnapshot_own
    (h : Commits (OrderRepository.createFromCartSnapshot input draw) v s (order, created) s') :
    order.IsOf input.cart.id input.paymentAttemptId ↔
      KeyIsOf input.idempotencyKey input.cart.id input.paymentAttemptId v :=
  createFromCartSnapshotWith_own (readCart_keeps _) h

/-- The order is in the table afterwards, or was in the view. -/
theorem createFromCartSnapshot_mem
    (h : Commits (OrderRepository.createFromCartSnapshot input draw) v s (order, created) s') :
    order ∈ s'.orders ∨ order ∈ v.orders ∧ s' = s := by
  rcases createFromCartSnapshotWith_core (readCart_keeps _) h with ⟨-, hkey, hs⟩ | ⟨-, -, -, hins⟩
  · exact .inr ⟨Table.lookup_mem hkey, hs⟩
  · have horders : s'.orders = s.orders ++ [order] :=
      (congrArg Core.orders (insertSnapshot_core hins).2.2).trans sell_orders
    exact .inl (by rw [horders]; simp)

end Snapshot

/-! ## Orders without a stored answer -/

section Direct
variable {v s s' : Db} {draw : Draw} {order : Order} {key : String} {cartId attemptId : Id}

theorem createDirect_own {customer : Customer} {notes : Option String}
    (h : Commits (CreateOrderService.createDirect cartId customer notes key draw) v s order s') :
    order.IsOf cartId none ↔ KeyIsOf key cartId none v := by
  simp only [CreateOrderService.createDirect, commits_bind, commits_look, commits_orThrow, commits_throwIf,
    commits_pure] at h
  obtain ⟨_, _, ⟨hfound, rfl⟩, cart, _, ⟨rfl, rfl⟩, _, _, ⟨-, rfl⟩, _, _, ⟨-, rfl⟩, ⟨o, created⟩, s₁, hcreate, h⟩ := h
  obtain ⟨_, _, -, rfl, -⟩ := h
  have hid : cart.id = cartId := Table.lookup_key hfound
  exact hid ▸ createFromCartSnapshot_own hcreate

theorem createDirectFromItems_own {request : CreateOrderService.DirectItemsRequest}
    (h : Commits (CreateOrderService.createDirectFromItems request key cartId draw) v s order s') :
    order.IsOf cartId none ↔ KeyIsOf key cartId none v := by
  simp only [CreateOrderService.createDirectFromItems, commits_bind, commits_look, commits_orThrow,
    commits_fromExcept] at h
  obtain ⟨settings, _, ⟨rfl, rfl⟩, locationId, _, ⟨-, rfl⟩, _, _, ⟨-, rfl⟩, lines, _, ⟨-, rfl⟩, _, _, ⟨-, rfl⟩,
    price, _, ⟨-, rfl⟩, cart, s₁, hcart, ⟨o, created⟩, s₂, hcreate, h⟩ := h
  obtain ⟨_, _, -, hp⟩ := h
  obtain ⟨rfl, -⟩ := commits_pure.1 hp
  have hid : cart.id = cartId := by rw [(create_core hcart).1]; rfl
  exact hid ▸ createFromCartSnapshotWith_own (currentCart_keeps _) hcreate

theorem createPaid_own {approvedAt : Option Instant}
    (h : Commits (CreateOrderService.createPaidFromPaymentAttempt attemptId approvedAt draw) v s order s') :
    ∃ a, Table.lookup PaymentAttempt.id attemptId v.attempts = some a ∧
      (order.IsOf a.cartId (some attemptId) ↔
        KeyIsOf ("payment-attempt:" ++ attemptId) a.cartId (some attemptId) v) := by
  simp only [CreateOrderService.createPaidFromPaymentAttempt, commits_bind, commits_look, commits_orThrow,
    commits_throwIf] at h
  obtain ⟨_, _, ⟨hfound, rfl⟩, attempt, _, ⟨rfl, rfl⟩, _, _, ⟨-, rfl⟩, _, _, ⟨hcart, rfl⟩, cart, _, ⟨rfl, rfl⟩,
    ⟨o, created⟩, s₁, hcreate, h⟩ := h
  obtain ⟨_, _, -, hp⟩ := h
  obtain ⟨rfl, -⟩ := commits_pure.1 hp
  have hid : attempt.id = attemptId := Table.lookup_key hfound
  have hcid : cart.id = attempt.cartId := Table.lookup_key hcart
  subst hid
  exact ⟨attempt, hfound, hcid ▸ createFromCartSnapshot_own hcreate⟩

end Direct

/-! ## The cash checkout -/

/-- The row that a completed checkout leaves. -/
def completed (response : CreateCashOrderResponse) (r : IdemRecord) : IdemRecord :=
  { r with state := .completed, responseStatus := some 201, responseBody := some (.cashOrder response) }

/-- A committed checkout: it replays the answer of its record, or gives the order that
`createFromCartSnapshot` returns and stores the answer in the record it claimed. -/
inductive Checkout (cartId : Id) (request : CheckoutRequest) (key : String) (recordId : Id) (draw : Draw)
    (v s : Db) (response : CreateCashOrderResponse) : Db → Prop
  | replayed (r : IdemRecord) (cached : CreateCashOrderResponse) (hr : r ∈ v.idempotency)
      (hid : identityOf r = cashIdentity s.tenantId cartId key) (hc : r.state = .completed)
      (hb : r.responseBody = some (.cashOrder cached)) (horder : response.orderId = cached.orderId) :
      Checkout cartId request key recordId draw v s response s
  | converted (input : ClaimInput IdemRequest) (claimId : Id) (hash : IdemRequest) (snapshot : SnapshotInput)
      (order : Order) (created : Bool) (s₁ s₂ s₃ : Db)
      (hi : claimIdentity input = cashIdentity s.tenantId cartId key)
      (hclaim : Claimed id input recordId draw.now v.idempotency s.idempotency (.claimed claimId hash)
        s₁.idempotency) (hcore : s₁.core = s.core)
      (hsnap : snapshot.cart.id = cartId ∧ snapshot.idempotencyKey = key ∧ snapshot.paymentAttemptId = none)
      (hcreate : Commits (OrderRepository.createFromCartSnapshot snapshot draw) v s₁ (order, created) s₂)
      (horder : response.orderId = order.id)
      (hs : s₃ = { s₂ with
        idempotency := Table.updateWhere (·.id = claimId) (completed response) s₂.idempotency }) :
      Checkout cartId request key recordId draw v s response s₃

theorem createCashOrder_cases {v s s' : Db} {tenant : PublicTenant} {cartId recordId : Id}
    {request : CheckoutRequest} {key : String} {draw : Draw} {response : CreateCashOrderResponse}
    (h : Commits (CreateCashOrderService.create tenant cartId request key recordId draw) v s response s') :
    Checkout cartId request key recordId draw v s response s' := by
  simp only [CreateCashOrderService.create, commits_look_bind, commits_throwIf_bind] at h
  rw [commits_bind] at h
  obtain ⟨-, -, claim, s₁, hidem, h⟩ := h
  rw [IdempotencyService.claim, commits_current_bind] at hidem
  obtain ⟨t, hclaim, rfl⟩ := commits_zoom.1 hidem
  have hcases := claim_cases hclaim
  cases claim with
  | replay status body =>
    dsimp only at h
    split at h
    · next cached =>
      obtain ⟨rfl, rfl⟩ := commits_pure.1 h
      generalize hb : some (IdemResponse.cashOrder cached) = body at hcases
      cases hcases with
      | replayed r hr hid hh hc => exact .replayed r cached hr (recordIdentity_iff.1 hid) hc hb.symm rfl
    · exact (commits_throw.1 h).elim
  | claimed claimId hash =>
    simp only [commits_look_bind, commits_orThrow_bind, commits_throwIf_bind, commits_fromExcept_bind,
      CreateCashOrderService.convert] at h
    obtain ⟨cart, hfound, -, -, -, -, -, -, date, -, h⟩ := h
    rw [commits_bind] at h
    obtain ⟨⟨order, created⟩, s₂, hcreate, h⟩ := h
    rw [commits_bind] at h
    obtain ⟨_, s₃, hcomplete, h⟩ := h
    rw [commits_pure] at h
    obtain ⟨hresponse, rfl⟩ := h
    simp only [IdempotencyService.complete, onIdempotency, Idempotency.complete, commits_zoom,
      commits_write] at hcomplete
    obtain ⟨t', hwrite, rfl⟩ := hcomplete
    have hid : cart.id = cartId := Table.lookup_key hfound
    refine .converted _ claimId hash _ order created { s with idempotency := t } s₂ _ rfl hcases rfl
      ⟨hid, rfl, rfl⟩ hcreate ?_ ?_
    · rw [← hresponse]
    · rw [← hwrite, ← hresponse]; rfl

/-! ## The records -/

/-- What the records of a view say about the database. -/
structure RecordsInv (v db : Db) : Prop where
  identities : Table.UniqueOn identityOf v.idempotency
  rows : ∀ r ∈ v.idempotency, ∃ q ∈ db.idempotency, q.id = r.id ∧ identityOf q = identityOf r
  own : ∀ r ∈ v.idempotency, ∀ response, r.responseBody = some (.cashOrder response) →
    ∃ cartId, r.scope = "cash-order:" ++ cartId ∧
      ∃ o ∈ db.orders, o.id = response.orderId ∧ o.IsOf cartId none

/-- What holds of the database. -/
structure OrdersInv (db : Db) : Prop where
  keyed : Keyed db.core
  ids : Table.UniqueOn Record.id db.idempotency
  records : RecordsInv db db

/-- What a view says. -/
structure Knows (v db : Db) : Prop where
  sees : Sees v db
  records : RecordsInv v db

section Invariant
variable {q : Request} {v w db db' : Db}

theorem OrdersInv.fresh {tenantId : Id} {settings : Settings} : OrdersInv (Db.fresh tenantId settings) :=
  ⟨.empty, .nil, ⟨.nil, fun _ h => (List.not_mem_nil h).elim, fun _ h => (List.not_mem_nil h).elim⟩⟩

/-- An order that a row of the table before stands for is still there. -/
theorem Order.IsOf.of_facts {o r : Order} {cartId : Id} {attemptId : Option Id} (h : r.facts = o.facts)
    (ho : o.IsOf cartId attemptId) : r.IsOf cartId attemptId :=
  ⟨(Order.column Order.cartId h).trans ho.1,
    fun a ha => (Order.column Order.paymentAttemptId h).trans (ho.2 a ha)⟩

theorem order_persists {c : Core} (h : Effect q v db c) {id cartId : Id}
    (ho : ∃ o ∈ db.orders, o.id = id ∧ o.IsOf cartId none) :
    ∃ o ∈ c.orders, o.id = id ∧ o.IsOf cartId none := by
  obtain ⟨o, ho, hid, hof⟩ := ho
  obtain ⟨r, hr, hf⟩ := h.facts.exists_mem ho
  exact ⟨r, hr, (Order.column Order.id hf).trans hid, hof.of_facts hf⟩

theorem RecordsInv.stable (h : RecordsInv w db) (hx : Effect q v db db'.core)
    (ht : Retains db.idempotency db'.idempotency) : RecordsInv w db' := by
  refine ⟨h.identities, fun r hr => ?_, fun r hr response hb => ?_⟩
  · obtain ⟨p, hp, hid, hidentity⟩ := h.rows r hr
    obtain ⟨p', hp', hid', hidentity'⟩ := ht.rows p hp
    exact ⟨p', hp', hid'.trans hid, hidentity'.trans hidentity⟩
  · obtain ⟨cartId, hscope, ho⟩ := h.own r hr response hb
    exact ⟨cartId, hscope, order_persists hx ho⟩

/-- Every answer of a cash checkout is an old one, or names an order of its cart. -/
def AnswersFrom (db db' : Db) : Prop :=
  ∀ r' ∈ db'.idempotency, ∀ response, r'.responseBody = some (.cashOrder response) →
    (∃ r ∈ db.idempotency, r.scope = r'.scope ∧ r.responseBody = some (.cashOrder response)) ∨
    ∃ cartId, r'.scope = "cash-order:" ++ cartId ∧
      ∃ o ∈ db'.orders, o.id = response.orderId ∧ o.IsOf cartId none

theorem OrdersInv.step (h : OrdersInv db) (hx : Effect q v db db'.core)
    (ht : Retains db.idempotency db'.idempotency) (ha : AnswersFrom db db') : OrdersInv db' := by
  refine ⟨hx.keyed h.keyed, ht.ids h.ids, ht.identities h.records.identities,
    fun r hr => ⟨r, hr, rfl, rfl⟩, fun r' hr' response hb => ?_⟩
  rcases ha r' hr' response hb with ⟨r, hr, hscope, hb⟩ | hown
  · obtain ⟨cartId, hs, ho⟩ := h.records.own r hr response hb
    exact ⟨cartId, hscope.symm.trans hs, order_persists hx ho⟩
  · exact hown

theorem Knows.refl (h : OrdersInv db) : Knows db db := ⟨.refl, h.records⟩

theorem Knows.reread (h : OrdersInv db) (hk : Knows v db) (part : Part) : Knows (reread part v db) db := by
  refine ⟨hk.sees.reread part, ?_⟩
  cases part with
  | idempotency => exact ⟨h.records.identities, h.records.rows, h.records.own⟩
  | _ => exact ⟨hk.records.identities, hk.records.rows, hk.records.own⟩

/-- The scopes of two carts differ. -/
theorem cashScope_inj {a b : Id} (h : "cash-order:" ++ a = "cash-order:" ++ b) : a = b := by
  have hl := congrArg String.toList h
  rw [String.toList_append, String.toList_append] at hl
  exact String.toList_inj.1 (List.append_cancel_left hl)

/-! ## A committed checkout -/

section Checkout
variable {cartId recordId : Id} {request : CheckoutRequest} {key : String} {draw : Draw}
  {response : CreateCashOrderResponse}

theorem Checkout.retains (h : Checkout cartId request key recordId draw v db response db') :
    Retains db.idempotency db'.idempotency := by
  cases h with
  | replayed => exact .refl
  | converted input claimId hash snapshot order created s₁ s₂ _ hi hclaim hcore hsnap hcreate horder hs =>
    subst hs
    have h₂ : Stored s₁ s₂ := stored_createFromCartSnapshot snapshot _ _ _ _ hcreate
    exact (hclaim.passes.toRetains.trans h₂.toRetains).trans (.update (fun _ => rfl) fun _ => rfl)

/-- The answer is own exactly when the key is. -/
theorem Checkout.own_iff (h : Checkout cartId request key recordId draw v db response db')
    (hx : Effect q v db db'.core) (hi : OrdersInv db) (hk : Knows v db) :
    (∃ o ∈ db'.orders, o.id = response.orderId ∧ o.IsOf cartId none) ↔
      Answered db.tenantId cartId key v ∨ KeyIsOf key cartId none v := by
  cases h with
  | replayed r cached hr hid hc hb horder =>
    refine iff_of_true ?_ (.inl ⟨r, hr, hid, hc⟩)
    obtain ⟨cartId', hscope, ho⟩ := hk.records.own r hr cached hb
    have hcart : cartId' = cartId := cashScope_inj (hscope.symm.trans (congrArg (·.2.1) hid))
    exact horder ▸ hcart ▸ ho
  | converted input claimId hash snapshot order created s₁ s₂ _ hident hclaim hcore hsnap hcreate horder hs =>
    obtain ⟨rfl, rfl, hattempt⟩ := hsnap
    have hkeyed := hx.keyed hi.keyed
    subst hs
    have hnot : ¬ Answered db.tenantId snapshot.cart.id snapshot.idempotencyKey v := by
      rintro ⟨r, hr, hid, hc⟩
      exact hclaim.not_completed hr (hid.trans hident.symm) hk.records.identities hk.records.rows hc
    have hown := createFromCartSnapshot_own hcreate
    rw [hattempt] at hown
    rw [or_iff_right hnot, ← hown, horder]
    -- the order stands in the new table, with the facts that the checkout has read
    have hmem : ∃ o ∈ s₂.orders, o.facts = order.facts := by
      rcases createFromCartSnapshot_mem hcreate with ho | ⟨ho, rfl⟩
      · exact ⟨order, ho, rfl⟩
      · have horders : s₂.orders = db.orders := congrArg Core.orders hcore
        exact horders ▸ hk.sees.orders order ho
    obtain ⟨o, ho, hf⟩ := hmem
    constructor
    · rintro ⟨r, hr, hid, hof⟩
      have hro : r = o := hkeyed.orders.eq hr ho (hid.trans (Order.column Order.id hf).symm)
      exact hof.of_facts (hro ▸ hf.symm)
    · exact fun hof => ⟨o, ho, Order.column Order.id hf, hof.of_facts hf⟩

/-- The answer is stored under the scope of the cart. -/
theorem Checkout.answers (h : Checkout cartId request key recordId draw v db response db')
    (hi : OrdersInv db) (hk : Knows v db)
    (hown : ∃ o ∈ db'.orders, o.id = response.orderId ∧ o.IsOf cartId none) : AnswersFrom db db' := by
  cases h with
  | replayed => exact fun r hr _ hb => .inl ⟨r, hr, rfl, hb⟩
  | converted input claimId hash snapshot order created s₁ s₂ _ hident hclaim hcore hsnap hcreate horder hs =>
    subst hs
    have h₂ : Stored s₁ s₂ := stored_createFromCartSnapshot snapshot _ _ _ _ hcreate
    have hpass := hclaim.passes.trans h₂
    intro r' hr' response' hb
    rcases Table.mem_updateWhere_cases hr' with ⟨hr', -⟩ | ⟨r, hr, hp, rfl⟩
    · exact .inl (hpass.answers r' hr' response' hb)
    · -- the record of the claim is the only one with its id
      obtain ⟨r₁, hr₁, hid₁, hident₁⟩ := hclaim.record hk.records.rows
      obtain ⟨r₂, hr₂, hid₂, hident₂⟩ := h₂.rows r₁ hr₁
      have hrr : r = r₂ :=
        (hpass.ids hi.ids).eq hr hr₂ ((of_decide_eq_true hp).trans (hid₂.trans hid₁).symm)
      have hscope : r.scope = "cash-order:" ++ cartId := by
        rw [hrr]; exact congrArg (·.2.1) (hident₂.trans (hident₁.trans hident))
      cases hb
      exact .inr ⟨cartId, hscope, hown⟩

end Checkout

/-! ## Every commit -/

theorem order_answer {α : Type} {x : DbTx α} {g : α → Komanda.Answer} {answer : Komanda.Answer}
    (h : Commits (do let a ← x; return g a) v db answer db') : ∃ a, Commits x v db a db' ∧ answer = g a := by
  obtain ⟨a, s, hx, hp⟩ := commits_bind.1 h
  obtain ⟨rfl, rfl⟩ := commits_pure.1 hp
  exact ⟨a, hx, rfl⟩

theorem isOwn_iff {answer : Komanda.Answer} (h : exec q v db = some (answer, db')) (hi : OrdersInv db)
    (hk : Knows v db) : answer.IsOwn q v db' ↔ OwnKey q v db := by
  have hx := exec_effect h
  have hrun := exec_eq.1 h
  unfold Answer.IsOwn OwnKey
  cases hq : q.action with
  | createCashOrder tenant cartId request key recordId =>
    rw [hq] at hrun
    obtain ⟨response, hcreate, rfl⟩ := order_answer hrun
    exact (createCashOrder_cases hcreate).own_iff hx hi hk
  | createDirect cartId customer notes key =>
    rw [hq] at hrun
    obtain ⟨order, hcreate, rfl⟩ := order_answer hrun
    exact createDirect_own hcreate
  | createDirectFromItems request key cartId =>
    rw [hq] at hrun
    obtain ⟨order, hcreate, rfl⟩ := order_answer hrun
    exact createDirectFromItems_own hcreate
  | createPaid attemptId approvedAt =>
    rw [hq] at hrun
    obtain ⟨order, hcreate, rfl⟩ := order_answer hrun
    obtain ⟨a, ha, hown⟩ := createPaid_own hcreate
    simpa [ha] using hown
  | _ => simp

theorem exec_answers {answer : Komanda.Answer} (h : exec q v db = some (answer, db')) (hi : OrdersInv db)
    (hk : Knows v db) (hc : OwnKey q v db) :
    Retains db.idempotency db'.idempotency ∧ AnswersFrom db db' := by
  have hrun := exec_eq.1 h
  by_cases hcash : ∃ tenant cartId request key recordId,
      q.action = .createCashOrder tenant cartId request key recordId
  · obtain ⟨tenant, cartId, request, key, recordId, hq⟩ := hcash
    have hown := (isOwn_iff h hi hk).2 hc
    rw [hq] at hrun
    obtain ⟨response, hcreate, rfl⟩ := order_answer hrun
    have hcases := createCashOrder_cases hcreate
    simp only [Answer.IsOwn, hq] at hown
    exact ⟨hcases.retains, hcases.answers hi hk hown⟩
  · have hstored : Stored db db' :=
      stored_run (fun _ _ _ _ _ hq => hcash ⟨_, _, _, _, _, hq⟩) _ _ _ _ hrun
    exact ⟨hstored.toRetains, fun r' hr' response hb => .inl (hstored.answers r' hr' response hb)⟩

theorem orders_rely : Rely exec reread OrdersInv Knows OwnKey where
  refl _ hi := .refl hi
  reread part _ _ hi hk := hk.reread hi part
  inv _ _ _ _ _ hi hk hc hx :=
    have ⟨ht, ha⟩ := exec_answers hx hi hk hc
    hi.step (exec_effect hx) ht ha
  stable _ _ _ _ _ hi hk hc hx _ hw :=
    have ⟨ht, _⟩ := exec_answers hx hi hk hc
    ⟨hw.sees.effect (exec_effect hx), hw.records.stable (exec_effect hx) ht⟩

end Invariant

/-- In every run of overlapping transactions, the answers are orders of the carts they were asked for exactly
when every commit finds its key free or its own; and so it is for each call of the order repository. -/
theorem orders_own_iff {tenantId : Id} {settings : Settings} {es : List RcEvent} {s : RcState}
    (hr : Runs.exec rcStep (RcState.fresh tenantId settings) es = some s) :
    (Along rcStep (AtCommit AnswersOwn) (RcState.fresh tenantId settings) es ↔
      Along rcStep (AtCommit OwnKey) (RcState.fresh tenantId settings) es) ∧
    ∀ (input : SnapshotInput) (draw : Draw) (v : Db) (order : Order) (created : Bool) (db' : Db),
      Commits (OrderRepository.createFromCartSnapshot input draw) v s.db (order, created) db' →
      (order.IsOf input.cart.id input.paymentAttemptId ↔
        KeyIsOf input.idempotencyKey input.cart.id input.paymentAttemptId v) := by
  refine ⟨?_, fun _ _ _ _ _ _ h => createFromCartSnapshot_own h⟩
  refine (along_commits_iff orders_rely ?_ ⟨.fresh, fun _ h => (List.not_mem_nil h).elim⟩ hr).symm
  intro q v db answer db' hi hk hx
  constructor
  · rintro hc answer' db'' hx'
    exact (isOwn_iff hx' hi hk).2 hc
  · exact fun h => (isOwn_iff hx hi hk).1 (h answer db' hx)

namespace Demo

/-- A checkout in cash of the cart, under a key of the client's choice. -/
def payInCashWith (n cartId key : String) : Request :=
  call 4 n (.createCashOrder tenant cartId { customer } key ("record-" ++ n))

/-- Two carts are paid in cash, the second under the key `key`; the first under `key-3`. -/
def twoCarts (key : String) : List RcEvent :=
  inTurn [setUp, fillCart "1" "cart-1", fillCart "2" "cart-2", payInCashWith "3" "cart-1" "key-3",
    payInCashWith "4" "cart-2" key]

end Demo

open Demo

theorem orders_own_two_carts :
    ∃ s, Runs.exec rcStep (RcState.fresh "tenant" settings) (twoCarts "key-4") = some s ∧
      (Along rcStep (AtCommit AnswersOwn) (RcState.fresh "tenant" settings) (twoCarts "key-4") ↔
        Along rcStep (AtCommit OwnKey) (RcState.fresh "tenant" settings) (twoCarts "key-4")) := by
  have hs : (Runs.exec rcStep (RcState.fresh "tenant" settings) (twoCarts "key-4")).isSome = true := by
    decide +kernel
  obtain ⟨s, hr⟩ := Option.isSome_iff_exists.1 hs
  exact ⟨s, hr, (orders_own_iff hr).1⟩

/-- The second customer is given the order of the first. -/
theorem key_gives_order_of_another_cart :
    ¬ ∀ (tenantId : Id) (settings : Settings) (es : List RcEvent) (s : RcState) (q : Request)
      (answer : Komanda.Answer) (db' : Db),
      Runs.exec rcStep (RcState.fresh tenantId settings) es = some s → exec q s.db s.db = some (answer, db') →
      answer.IsOwn q s.db db' := by
  intro h
  let es := inTurn [setUp, fillCart "1" "cart-1", fillCart "2" "cart-2", payInCashWith "3" "cart-1" "key-3"]
  let q := payInCashWith "4" "cart-2" "key-3"
  have hx : (Runs.exec rcStep (RcState.fresh "tenant" settings) es).any (fun s =>
      (exec q s.db s.db).any fun p => match p.1 with
        | .cashOrder response => p.2.orders.all fun o => o.id ≠ response.orderId || o.cartId ≠ "cart-2"
        | _ => false) = true := by
    decide +kernel
  obtain ⟨s, hr, hs⟩ := (Option.any_eq_true _ _).1 hx
  obtain ⟨⟨answer, db'⟩, hexec, ha⟩ := (Option.any_eq_true _ _).1 hs
  have hown := h _ _ _ s q answer db' hr hexec
  cases answer with
  | cashOrder response =>
    obtain ⟨o, ho, hid, hcart, -⟩ := hown
    have hne := List.all_eq_true.1 ha o ho
    simp [hid, hcart] at hne
  | done => cases ha
  | order o => cases ha

end Komanda
