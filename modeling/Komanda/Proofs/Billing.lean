import Komanda.Proofs.Tickets
import Komanda.Proofs.Views

/-!
# Billing documents

Three services issue a document, each at most one in a transaction, under the number after the largest that it
has read (`exec_issues`). So the series have no gaps, whatever overlaps; and the amounts of a document, computed
in doubles, are exact to the cent (`net_exact`, `split_exact`).
-/

namespace Komanda
open Transaction Binary64 Runs ReadCommitted

namespace BillingRepository

/-! ## Amounts -/

section Amounts
variable {total : ℕ}

/-- The quotient of the two doubles is near the exact one. -/
theorem abs_quotient_sub_le (total : ℕ) :
    |ofDecimal 2 total / ofDecimal 2 121 - total / 121| ≤ (total / 2 ^ 53 : ℚ) / 50 := by
  have hpos : (0 : ℚ) ≤ total := Nat.cast_nonneg _
  have ht := abs_le.1 (abs_ofDecimal_sub_le 2 total)
  have hc := abs_le.1 (abs_ofDecimal_sub_le 2 121)
  generalize ofDecimal 2 total = t at ht ⊢
  generalize ofDecimal 2 121 = c at hc ⊢
  norm_num at ht hc ⊢
  have hc₁ : 1 ≤ c := by linarith
  have hlow := mul_le_mul_of_nonneg_left hc.1 hpos
  have hhigh := mul_le_mul_of_nonneg_left hc.2 hpos
  have hscale : (total : ℚ) ≤ total * c := le_mul_of_one_le_right hpos hc₁
  rw [abs_le, neg_le_sub_iff_le_add, sub_le_iff_le_add, ← sub_le_iff_le_add, le_div_iff₀ (by linarith),
    div_le_iff₀ (by linarith)]
  constructor <;> linarith

/-- The nearest cent to `total / 1.21` is never a tie, and the errors of the roundings do not reach the next one. -/
theorem toFixed_quotient (h : total < maxAmount) :
    toFixed 2 (nearest (ofDecimal 2 total / ofDecimal 2 121)) = (200 * total + 121) / 242 := by
  have hmax : (total : ℚ) < 10 ^ 12 := mod_cast h
  have hpos : (0 : ℚ) ≤ total := Nat.cast_nonneg _
  have hodd : 242 * ((200 * total + 121) / 242) + 1 ≤ 200 * total + 121 ∧
      200 * total + 121 ≤ 242 * ((200 * total + 121) / 242) + 241 := by omega
  have hnear := abs_le.1 (abs_nearest_sub_le_of (abs_quotient_sub_le total))
  rw [abs_of_nonneg (by positivity : (0 : ℚ) ≤ total / 121)] at hnear
  generalize (200 * total + 121) / 242 = cents at hodd ⊢
  have hcents : (242 * cents + 1 : ℚ) ≤ 200 * total + 121 ∧ (200 * total + 121 : ℚ) ≤ 242 * cents + 241 :=
    ⟨mod_cast hodd.1, mod_cast hodd.2⟩
  refine toFixed_eq (abs_lt.2 ?_)
  norm_num at hnear ⊢
  constructor <;> linarith

theorem net_eq (h : total < maxAmount) : net (ofDecimal 2 total) = ofDecimal 2 ((200 * total + 121) / 242) := by
  rw [net, toFixed_quotient h]

theorem vat_eq (h : total < maxAmount) :
    vat (ofDecimal 2 total) = ofDecimal 2 (total - (200 * total + 121) / 242) := by
  have hmax : total < 2 ^ 50 := h.trans (by decide)
  rw [vat, net_eq h, toFixed_sub 2 (by omega) hmax]

/-- The stored amounts: the nearest cent to `total / 1.21`, and the rest. -/
theorem amounts_exact (h : total < maxAmount) :
    toFixed 2 (net (ofDecimal 2 total)) = (200 * total + 121) / 242 ∧
      toFixed 2 (vat (ofDecimal 2 total)) = total - (200 * total + 121) / 242 := by
  have hmax : total < 2 ^ 50 := h.trans (by decide)
  rw [net_eq h, vat_eq h]
  constructor <;> exact toFixed_ofDecimal 2 (by omega)

theorem net_add_vat (h : total < maxAmount) :
    toFixed 2 (net (ofDecimal 2 total)) + toFixed 2 (vat (ofDecimal 2 total)) = total := by
  obtain ⟨hnet, hvat⟩ := amounts_exact h
  rw [hnet, hvat]
  omega

end Amounts

/-! ## Issuing -/

section Issuing
variable {v s s' : Db} {draw : Draw} {order : Order}

/-- The documents stay, or an order of the table gets one, under a number that is after those of the view and
free. -/
def Issues (v s s' : Db) : Prop :=
  s'.billing = s.billing ∨ ∃ input, ∃ order ∈ s'.orders, ∃ documentType pointOfSale,
    order.total < maxAmount ∧
    getNextDocumentNumber pointOfSale documentType v ∉ documentNumbers pointOfSale documentType s ∧
    s'.billing = s.billing ++
      [document input order documentType pointOfSale (getNextDocumentNumber pointOfSale documentType v)]

/-- A service that issues its document between writes to other tables. -/
theorem Issues.of_call {S T : List TableName} {s₁ s₂ : Db} {input : IssueInput} {u : Unit} (hpre : Writes S s s₁)
    (hS : .billing ∉ S) (hb : Commits (issueDocument input) v s₁ u s₂) (hpost : Writes T s₂ s')
    (hT : .billing ∉ T ∧ .orders ∉ T) : Issues v s s' := by
  simp only [issueDocument, commits_bind, commits_current, commits_orThrow, commits_look, commits_throwIf,
    commits_write] at hb
  obtain ⟨_, _, ⟨rfl, rfl⟩, order, _, ⟨hfound, rfl⟩, _, _, ⟨rfl, rfl⟩, _, _, ⟨hmax, rfl⟩, _, _, ⟨rfl, rfl⟩, _, _,
    ⟨hfree, rfl⟩, rfl⟩ := hb
  have hsame : s₁.billing = s.billing := hpre .billing hS
  have hnumbers : documentNumbers (input.pointOfSale.getD 1) (input.documentType.getD .ticketInterno) s₁ =
      documentNumbers (input.pointOfSale.getD 1) (input.documentType.getD .ticketInterno) s := by
    rw [documentNumbers, documentNumbers, hsame]
  refine .inr ⟨input, order, ?_, input.documentType.getD .ticketInterno, input.pointOfSale.getD 1,
    not_le.1 fun hle => hmax (.inl hle), ?_, ?_⟩
  · rw [hpost.orders hT.2]; exact Table.lookup_mem hfound
  · rw [← hnumbers]; simpa using hfree
  · rw [hpost .billing hT.1, ← hsame]

theorem Issues.of_writes {S : List TableName} (h : Writes S s s') (hn : .billing ∉ S) : Issues v s s' :=
  .inl (h .billing hn)

/-- What a sale writes before its document. -/
def beforeDocument : List TableName := .printJobs :: beforeTicket

theorem createDirect_issues {cartId : Id} {customer : Customer} {notes : Option String} {key : String}
    (h : Commits (CreateOrderService.createDirect cartId customer notes key draw) v s order s') : Issues v s s' := by
  simp only [CreateOrderService.createDirect, commits_bind, commits_look, commits_orThrow, commits_throwIf] at h
  obtain ⟨_, _, ⟨-, rfl⟩, cart, _, ⟨-, rfl⟩, _, _, ⟨-, rfl⟩, _, _, ⟨-, rfl⟩, ⟨o, created⟩, s₁, hcreate, h⟩ := h
  simp only [commits_bind, commits_runIf, commits_pure] at h
  have hsnap : Writes beforeDocument s s₁ := writes_snapshot _ (by decide) _ _ _ _ hcreate
  obtain ⟨_, _, ⟨-, _, s₂, hdep, _, s₃, hann, _, s₄, htick, hbill⟩ | ⟨-, rfl⟩, -, rfl⟩ := h
  · have hdep : Writes beforeDocument s₁ s₂ := writes_movement _ _ (by decide) _ _ _ _ hdep
    have hann : Writes beforeDocument s₂ s₃ := writes_announce _ _ _ _ (by decide) (by decide) _ _ _ _ hann
    have htick : Writes beforeDocument s₃ s₄ := writes_ticket _ (by decide) _ _ _ _ htick
    exact .of_call (hsnap.trans (hdep.trans (hann.trans htick))) (by decide) hbill
      (Std.Refl.refl (r := Writes []) _) (by decide)
  · exact .of_writes hsnap (by decide)

theorem createDirectFromItems_issues {request : CreateOrderService.DirectItemsRequest} {key : String} {cartId : Id}
    (h : Commits (CreateOrderService.createDirectFromItems request key cartId draw) v s order s') :
    Issues v s s' := by
  simp only [CreateOrderService.createDirectFromItems, commits_bind, commits_look, commits_orThrow,
    commits_fromExcept] at h
  obtain ⟨settings, _, ⟨rfl, rfl⟩, locationId, _, ⟨-, rfl⟩, _, _, ⟨-, rfl⟩, lines, _, ⟨-, rfl⟩, _, _,
    ⟨-, rfl⟩, price, _, ⟨-, rfl⟩, cart, s₁, hcart, ⟨o, created⟩, s₂, hcreate, h⟩ := h
  simp only [commits_bind, commits_runIf, commits_pure] at h
  have hcart : Writes beforeDocument s s₁ := writes_createCart _ _ (by decide) _ _ _ _ hcart
  have hsnap : Writes beforeDocument s₁ s₂ :=
    writes_snapshotWith _ (Within.current _) (by decide) _ _ _ _ hcreate
  obtain ⟨_, s₇, ⟨-, _, s₃, hdep, _, s₄, hann, _, s₅, htick, _, s₆, hbill, hwa⟩ | ⟨-, rfl⟩, -, rfl⟩ := h
  · have hdep : Writes beforeDocument s₂ s₃ := by
      rcases hdep with ⟨-, hdep⟩ | ⟨-, rfl⟩
      · exact writes_movement _ _ (by decide) _ _ _ _ hdep
      · exact Std.Refl.refl _
    have hann : Writes beforeDocument s₃ s₄ := writes_announce _ _ _ _ (by decide) (by decide) _ _ _ _ hann
    have htick : Writes beforeDocument s₄ s₅ := writes_ticket _ (by decide) _ _ _ _ htick
    have hwa : Writes [.outbox] s₆ s₇ := by
      rcases hwa with ⟨-, hwa⟩ | ⟨-, rfl⟩
      · exact writes_outbox _ _ _ _ (by decide) _ _ _ _ hwa
      · exact Std.Refl.refl _
    have hpre := hcart.trans (hsnap.trans (hdep.trans (hann.trans htick)))
    rcases hbill with ⟨-, hbill⟩ | ⟨-, rfl⟩
    · exact .of_call hpre (by decide) hbill hwa (by decide)
    · exact .inl (Eq.trans (hwa .billing (by decide)) (hpre .billing (by decide)))
  · exact .of_writes (hcart.trans hsnap) (by decide)

theorem createPaid_issues {attemptId : Id} {approvedAt : Option Instant}
    (h : Commits (CreateOrderService.createPaidFromPaymentAttempt attemptId approvedAt draw) v s order s') :
    Issues v s s' := by
  simp only [CreateOrderService.createPaidFromPaymentAttempt, commits_bind, commits_look, commits_orThrow,
    commits_throwIf] at h
  obtain ⟨_, _, ⟨-, rfl⟩, attempt, _, ⟨-, rfl⟩, _, _, ⟨-, rfl⟩, _, _, ⟨-, rfl⟩, cart, _, ⟨-, rfl⟩,
    ⟨o, created⟩, s₁, hcreate, h⟩ := h
  simp only [commits_bind, commits_runIf, commits_pure] at h
  have hsnap : Writes beforeDocument s s₁ := writes_snapshot _ (by decide) _ _ _ _ hcreate
  obtain ⟨_, _, ⟨-, _, s₂, hann, _, s₃, htick, hbill⟩ | ⟨-, rfl⟩, -, rfl⟩ := h
  · have hann : Writes beforeDocument s₁ s₂ := writes_announce _ _ _ _ (by decide) (by decide) _ _ _ _ hann
    have htick : Writes beforeDocument s₂ s₃ := writes_ticket _ (by decide) _ _ _ _ htick
    exact .of_call (hsnap.trans (hann.trans htick)) (by decide) hbill (Std.Refl.refl (r := Writes []) _) (by decide)
  · exact .of_writes hsnap (by decide)

theorem exec_issues {q : Request} {db db' : Db} {a : Answer} (h : exec q v db = some (a, db')) :
    Issues v db db' := by
  by_cases hbilling : .billing ∈ q.action.tables
  · have hrun := exec_eq.1 h
    cases hq : q.action with
    | createDirect cartId customer notes key =>
      rw [hq] at hrun
      obtain ⟨_, hrun, -⟩ := order_answer hrun
      exact createDirect_issues hrun
    | createDirectFromItems request key cartId =>
      rw [hq] at hrun
      obtain ⟨_, hrun, -⟩ := order_answer hrun
      exact createDirectFromItems_issues hrun
    | createPaid attemptId approvedAt =>
      rw [hq] at hrun
      obtain ⟨_, hrun, -⟩ := order_answer hrun
      exact createPaid_issues hrun
    | _ => simp [hq, snapshotTables, operationTables] at hbilling
  · exact .inl (exec_frame h .billing hbilling)

end Issuing

end BillingRepository

/-! ## Runs -/

section Runs
open BillingRepository
variable {v s s' db db' : Db}

/-- The series of a tenant: a point of sale and a type of document. -/
def series (k : Nat × FiscalDocumentType) (db : Db) : List Nat := documentNumbers k.1 k.2 db

theorem BillingRepository.Issues.series (h : Issues v s s') (k : Nat × FiscalDocumentType) :
    Komanda.series k s' = Komanda.series k s ∨
      MaxNumbers.next (Komanda.series k v) ∉ Komanda.series k s ∧
        Komanda.series k s' = Komanda.series k s ++ [MaxNumbers.next (Komanda.series k v)] := by
  obtain ⟨pointOfSale, documentType⟩ := k
  rcases h with h | ⟨input, order, -, type, pos, -, hfree, h⟩
  · exact .inl (by rw [Komanda.series, documentNumbers, h]; rfl)
  · by_cases hk : pos = pointOfSale ∧ type = documentType
    · obtain ⟨rfl, rfl⟩ := hk
      refine .inr ⟨hfree, ?_⟩
      simp [Komanda.series, documentNumbers, h, document, getNextDocumentNumber]
    · refine .inl ?_
      simp [Komanda.series, documentNumbers, h, document, hk]

/-- A document splits its total, which is the total of its order. -/
structure BillingDocument.Exact (orders : List Order) (d : BillingDocument) : Prop where
  split : d.netAmount + d.vatAmount = d.totalAmount
  order : ∃ o ∈ orders, o.id = d.orderId ∧ o.total = d.totalAmount

theorem BillingDocument.Exact.extends {orders orders' : List Order} {d : BillingDocument} (h : d.Exact orders)
    (hx : Extends Order.facts orders orders') : d.Exact orders' := by
  obtain ⟨o, ho, hid, htotal⟩ := h.order
  obtain ⟨r, hr, hf⟩ := hx.exists_mem ho
  exact ⟨h.split, r, hr, (Order.column Order.id hf).trans hid, (Order.column Order.total hf).trans htotal⟩

theorem exec_exact {q : Request} {a : Answer} (hx : exec q v db = some (a, db'))
    (h : ∀ d ∈ db.billing, d.Exact db.orders) : ∀ d ∈ db'.billing, d.Exact db'.orders := by
  intro d hd
  have hfacts : Extends Order.facts db.orders db'.orders := (exec_effect hx).facts
  rcases exec_issues hx with hb | ⟨input, order, ho, type, pos, hmax, -, hb⟩
  · exact (h d (hb ▸ hd)).extends hfacts
  · rw [hb, List.mem_append, List.mem_singleton] at hd
    rcases hd with hd | rfl
    · exact (h d hd).extends hfacts
    · exact ⟨net_add_vat hmax, order, ho, rfl, rfl⟩

/-- Overlapping requests number every series without gaps. -/
theorem series_rely : Rely exec reread (fun db => ∀ k, MaxNumbers.Gapless (series k db))
    (fun v db => ∀ k, series k v <+: series k db) fun _ _ _ => True :=
  MaxNumbers.rely
    (fun part v db k => by cases part <;> first | exact .inl rfl | exact .inr rfl)
    (fun _ _ _ _ _ hx k => (exec_issues hx).series k)

/-- In every run of overlapping requests the documents of a series are numbered from one without gaps or duplicates,
and every document splits the total of its order exactly. -/
theorem documents_gapless {tenantId : Id} {settings : Settings} {es : List RcEvent} {s : RcState}
    (hr : Runs.exec rcStep (RcState.fresh tenantId settings) es = some s) :
    (∀ pointOfSale documentType, ∃ n, documentNumbers pointOfSale documentType s.db = List.range' 1 n) ∧
      ∀ d ∈ s.db.billing, d.netAmount + d.vatAmount = d.totalAmount ∧
        ∃ o ∈ s.db.orders, o.id = d.orderId ∧ d.totalAmount = o.total := by
  have hrely := series_rely.and (Q := fun db => ∀ d ∈ db.billing, d.Exact db.orders)
    fun _ _ _ _ _ _ _ _ hx => exec_exact hx
  have hstart : (∀ k, MaxNumbers.Gapless (series k (Db.fresh tenantId settings))) ∧
      ∀ d ∈ (Db.fresh tenantId settings).billing, d.Exact (Db.fresh tenantId settings).orders :=
    ⟨fun _ => .nil, fun _ hd => (List.not_mem_nil hd).elim⟩
  obtain ⟨hseries, hexact⟩ := (hrely.run_inv ⟨hstart, fun _ ho => (List.not_mem_nil ho).elim⟩ hr).db
  refine ⟨fun pointOfSale documentType => ⟨_, hseries (pointOfSale, documentType)⟩, fun d hd => ?_⟩
  obtain ⟨o, ho, hid, htotal⟩ := (hexact d hd).order
  exact ⟨(hexact d hd).split, o, ho, hid, htotal.symm⟩

end Runs

namespace Demo

/-- A sale at the counter. -/
def sellDirect (n cartId : String) : Request := call 5 n (.createDirect cartId customer none ("key-" ++ n))

/-- Two sales at the counter at once: the second to commit has read the same maximum as the first, and reads it
again when `again` holds. -/
def counterRush (again : Bool) : List RcEvent :=
  inTurn [setUp, fillCart "1" "cart", fillCart "2" "other"] ++
    [.start (sellDirect "3" "cart"), .start (sellDirect "4" "other"), .commit 0] ++
    (if again then [.reread 0 .billing] else []) ++ [.commit 0]

/-- The stale number is refused. -/
example : (Runs.exec rcStep (RcState.fresh "tenant" settings) (counterRush false)).isNone = true := by decide +kernel

end Demo

open Demo in
theorem documents_gapless_rush : ∃ s, Runs.exec rcStep (RcState.fresh "tenant" settings) (counterRush true) = some s ∧
    BillingRepository.documentNumbers 1 .ticketInterno s.db = [1, 2] ∧
    ∀ d ∈ s.db.billing, d.netAmount + d.vatAmount = d.totalAmount ∧
      ∃ o ∈ s.db.orders, o.id = d.orderId ∧ d.totalAmount = o.total := by
  have hx : (Runs.exec rcStep (RcState.fresh "tenant" settings) (counterRush true)).any
      (fun s => BillingRepository.documentNumbers 1 .ticketInterno s.db = [1, 2]) = true := by decide +kernel
  obtain ⟨s, hr, hnumbers⟩ := (Option.any_eq_true _ _).1 hx
  exact ⟨s, hr, of_decide_eq_true hnumbers, (documents_gapless hr).2⟩

end Komanda
