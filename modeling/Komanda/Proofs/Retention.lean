import Komanda.Proofs.ApprovedPayments
import Komanda.Retention

/-!
# What retention deletes

The statuses that the script names are not those of the services. It takes carts that are open or expired, and a service
writes neither of them; it takes failed print jobs for terminal, and an agent may claim a failed job again.
-/

namespace Komanda
open Transaction Retention

/-! ## The script -/

section Script
variable {cfg : MaintenanceRetentionOptions} {now : Instant} {days : Nat} {s : Estate}

/-- A table whose name is not noted is pruned. -/
theorem prune_complete {label : String} {d : Delete Estate} {p : Progress}
    (h : (prune cfg label d p).1.truncatedTables = []) :
    p.truncatedTables = [] ∧ (prune cfg label d p).1.store = d.all p.store := by
  cases htruncated : (runBatchedDelete d cfg.batchSize cfg.maxBatchesPerTable p.store).truncated with
  | true =>
    rw [prune, htruncated, if_pos rfl] at h
    exact absurd h (List.append_ne_nil_of_right_ne_nil _ (List.cons_ne_nil _ _))
  | false =>
    rw [prune, htruncated, if_neg Bool.false_ne_true] at h
    exact ⟨h, Delete.batches_all htruncated⟩

/-- The script without a ceiling. -/
def Estate.pruned (cfg : MaintenanceRetentionOptions) (now : Instant) (s : Estate) : Estate :=
  (carts cfg.abandonedCartsRetentionDays now).all ((cartLines cfg.abandonedCartsRetentionDays now).all
    ((cartLineOptions cfg.abandonedCartsRetentionDays now).all ((Retention.printJobs cfg.printJobsRetentionDays now).all
      ((Retention.printJobAttempts cfg.printJobsRetentionDays now).all ((idempotencyRecords now).all s)))))

theorem run_complete (h : (runDatabaseMaintenanceRetention cfg now s).2.truncatedTables = []) :
    (runDatabaseMaintenanceRetention cfg now s).1 = s.pruned cfg now := by
  obtain ⟨hlines, hcarts⟩ := prune_complete h
  obtain ⟨hoptions, hcartLines⟩ := prune_complete hlines
  obtain ⟨hjobs, hcartLineOptions⟩ := prune_complete hoptions
  obtain ⟨hattempts, hprintJobs⟩ := prune_complete hjobs
  obtain ⟨hrecords, hprintJobAttempts⟩ := prune_complete hattempts
  obtain ⟨-, hidempotency⟩ := prune_complete hrecords
  refine hcarts.trans ?_
  rw [hcartLines, hcartLineOptions, hprintJobs, hprintJobAttempts, hidempotency]
  rfl

/-- Orders and payment attempts. -/
def Estate.sales (s : Estate) : List Order × List PaymentAttempt := (s.db.orders, s.db.attempts)

theorem onCarts_sales {d : Estate → Delete (List Cart)} {hd : ∀ carts s, d { s with db := { s.db with carts } } = d s} :
    ((onCarts d hd).all s).sales = s.sales := rfl

theorem printJobs_sales : ((Retention.printJobs days now).all s).sales = s.sales := rfl

theorem printJobAttempts_sales : ((Retention.printJobAttempts days now).all s).sales = s.sales := rfl

theorem idempotencyRecords_sales : ((idempotencyRecords now).all s).sales = s.sales := rfl

theorem carts_sales : ((Retention.carts days now).all s).sales = s.sales := onCarts_sales

theorem cartLines_sales : ((Retention.cartLines days now).all s).sales = s.sales := onCarts_sales

theorem cartLineOptions_sales : ((Retention.cartLineOptions days now).all s).sales = s.sales := onCarts_sales

theorem pruned_sales : (s.pruned cfg now).sales = s.sales := by
  rw [Estate.pruned, carts_sales, cartLines_sales, cartLineOptions_sales, printJobs_sales, printJobAttempts_sales,
    idempotencyRecords_sales]

theorem cartEligibility_congr {s' : Estate} (h : s'.sales = s.sales) :
    cartEligibility days now s'.db = cartEligibility days now s.db := by
  obtain ⟨horders, hattempts⟩ := Prod.mk.inj h
  funext c
  rw [cartEligibility, cartEligibility, horders, hattempts]

theorem cartLineOptions_carts : ((Retention.cartLineOptions days now).all s).db.carts =
    s.db.carts.map fun c => if cartEligibility days now s.db c then
      { c with lines := c.lines.map fun l => if true then { l with options := l.options.filter fun _ => !true } else l }
      else c := rfl

theorem cartLines_carts : ((Retention.cartLines days now).all s).db.carts =
    s.db.carts.map fun c => if cartEligibility days now s.db c then
      { c with lines := c.lines.filter fun l => !l.options.isEmpty } else c := rfl

theorem carts_carts : ((Retention.carts days now).all s).db.carts =
    s.db.carts.filter fun c => !(cartEligibility days now s.db c && c.lines.isEmpty) := rfl

theorem printJobs_carts : ((Retention.printJobs days now).all s).db.carts = s.db.carts := rfl

theorem printJobAttempts_carts : ((Retention.printJobAttempts days now).all s).db.carts = s.db.carts := rfl

theorem idempotencyRecords_carts : ((idempotencyRecords now).all s).db.carts = s.db.carts := rfl

/-- What the deletes on the children, and then the one on the carts, leave of a cart. -/
theorem kept_of_children {eligible : Cart → Bool} (hlines : ∀ c lines, eligible { c with lines } = eligible c)
    (rows : List Cart) :
    (((rows.map fun c => if eligible c then
        { c with lines := c.lines.map fun l => if true then { l with options := l.options.filter fun _ => !true } else l }
        else c).map fun c => if eligible c then { c with lines := c.lines.filter fun l => !l.options.isEmpty } else c).filter
      fun c => !(eligible c && c.lines.isEmpty)) = rows.filter fun c => !eligible c := by
  induction rows with
  | nil => rfl
  | cons c rows ih =>
    rw [List.map_cons, List.map_cons, List.filter_cons, List.filter_cons, ih]
    cases he : eligible c with
    | true =>
      have hempty : ∀ lines : List CartLine, ((lines.map fun l =>
          { l with options := l.options.filter fun _ => false }).filter fun l => !l.options.isEmpty) = [] := by
        intro lines
        refine List.filter_eq_nil_iff.2 fun l hl => ?_
        obtain ⟨_, -, rfl⟩ := List.mem_map.1 hl
        simp
      simp only [if_true, hlines, he, hempty, List.isEmpty_nil, Bool.and_self, Bool.not_true, Bool.false_eq_true,
        if_false]
    | false => simp only [he, Bool.false_eq_true, if_false, Bool.false_and, Bool.not_false, if_true]

theorem pruned_carts :
    (s.pruned cfg now).db.carts = s.db.carts.filter fun c => !cartEligibility cfg.abandonedCartsRetentionDays now s.db c := by
  have hjobs : ((Retention.printJobs cfg.printJobsRetentionDays now).all
      ((Retention.printJobAttempts cfg.printJobsRetentionDays now).all ((idempotencyRecords now).all s))).sales = s.sales := by
    rw [printJobs_sales, printJobAttempts_sales, idempotencyRecords_sales]
  rw [Estate.pruned, carts_carts, cartLines_carts, cartLineOptions_carts, printJobs_carts, printJobAttempts_carts,
    idempotencyRecords_carts, cartEligibility_congr cartLines_sales, cartEligibility_congr cartLineOptions_sales,
    cartEligibility_congr hjobs]
  exact kept_of_children (fun _ _ => rfl) _

theorem pruned_printJobs :
    (s.pruned cfg now).db.printJobs = s.db.printJobs.filter fun j => !terminalJob cfg.printJobsRetentionDays now j := by
  have hall : (s.pruned cfg now).db.printJobs = s.db.printJobs.filter fun j =>
      !(terminalJob cfg.printJobsRetentionDays now j && !(s.printJobAttempts.filter fun a =>
        !s.db.printJobs.any fun j => j.id = a.printJobId && terminalJob cfg.printJobsRetentionDays now j).any
          (·.printJobId = j.id)) := rfl
  rw [hall]
  refine List.filter_congr fun j hj => ?_
  cases hterminal : terminalJob cfg.printJobsRetentionDays now j with
  | false => rfl
  | true =>
    rw [Bool.true_and, Bool.not_not, Bool.not_true, List.any_eq_false]
    intro a ha hown
    refine absurd (List.mem_filter.1 ha).2 ?_
    rw [Bool.not_eq_true', Bool.not_eq_false]
    exact List.any_eq_true.2 ⟨j, hj, by rw [of_decide_eq_true hown, hterminal]; simp⟩

end Script

/-! ## The law -/

/-- A cart without an order and a payment attempt that has expired long ago. -/
structure Cart.Abandoned (days : Nat) (now : Instant) (db : Db) (c : Cart) : Prop where
  old : olderThan days now c.expiresAt = true
  orders : ∀ o ∈ db.orders, o.cartId ≠ c.id
  attempts : ∀ a ∈ db.attempts, a.cartId ≠ c.id

theorem Cart.Abandoned.congr {days : Nat} {now : Instant} {s s' : Estate} {c : Cart} (h : c.Abandoned days now s.db)
    (hsales : s'.sales = s.sales) : c.Abandoned days now s'.db := by
  obtain ⟨horders, hattempts⟩ := Prod.mk.inj hsales
  exact ⟨h.old, horders ▸ h.orders, hattempts ▸ h.attempts⟩

/-- No abandoned cart remains, and no job is gone that an agent could claim now or later. -/
structure Purges (cfg : MaintenanceRetentionOptions) (now : Instant) (s s' : Estate) : Prop where
  dead : ∀ c ∈ s'.db.carts, ¬ c.Abandoned cfg.abandonedCartsRetentionDays now s'.db
  alive : ∀ j ∈ s.db.printJobs, j ∉ s'.db.printJobs →
    ∀ locationId later, now ≤ later → PrintJobRepository.claimable locationId later j = false

/-- Of a run of the script that was not truncated. -/
def EstateAction.Purges (a : EstateAction) (s : Estate) : Prop :=
  match a with
  | retention cfg now =>
    (runDatabaseMaintenanceRetention cfg now s).2.truncatedTables = [] →
      Komanda.Purges cfg now s (runDatabaseMaintenanceRetention cfg now s).1
  | _ => True

/-- Every abandoned cart is open or expired, and no failed job is old. -/
structure Separated (cfg : MaintenanceRetentionOptions) (now : Instant) (s : Estate) : Prop where
  carts : ∀ c ∈ s.db.carts, c.Abandoned cfg.abandonedCartsRetentionDays now s.db →
    c.status = .open ∨ c.status = .expired
  printJobs : ∀ j ∈ s.db.printJobs, j.status = .failed → olderThan cfg.printJobsRetentionDays now j.updatedAt = false

def EstateAction.Separated (a : EstateAction) (s : Estate) : Prop :=
  match a with
  | retention cfg now =>
    (runDatabaseMaintenanceRetention cfg now s).2.truncatedTables = [] → Komanda.Separated cfg now s
  | _ => True

section Law
variable {cfg : MaintenanceRetentionOptions} {now : Instant} {days : Nat} {s : Estate}

theorem cartEligibility_iff {db : Db} {c : Cart} : cartEligibility days now db c = true ↔
    (c.status = .open ∨ c.status = .expired) ∧ c.Abandoned days now db := by
  simp only [cartEligibility, Bool.and_eq_true, Bool.or_eq_true, decide_eq_true_eq, Bool.not_eq_true',
    List.any_eq_false]
  constructor
  · rintro ⟨⟨⟨hstatus, hold⟩, horders⟩, hattempts⟩
    exact ⟨hstatus, hold, horders, hattempts⟩
  · rintro ⟨hstatus, hold, horders, hattempts⟩
    exact ⟨⟨⟨hstatus, hold⟩, horders⟩, hattempts⟩

theorem claimable_failed (now : Instant) {j : PrintJob} (hstatus : j.status = .failed) :
    ∃ later, now ≤ later ∧ PrintJobRepository.claimable j.locationId later j = true := by
  refine ⟨max now (j.nextAttemptAt.getD 0), Nat.le_max_left _ _, ?_⟩
  rw [PrintJobRepository.claimable, hstatus]
  cases j.nextAttemptAt with
  | none => simp
  | some t => simp

theorem not_claimable {j : PrintJob} {locationId : Id} {later : Instant}
    (hstatus : j.status = .printed ∨ j.status = .cancelled) : PrintJobRepository.claimable locationId later j =
      false := by
  rw [PrintJobRepository.claimable]
  rcases hstatus with hstatus | hstatus <;> simp [hstatus]

theorem purges_iff : Purges cfg now s (s.pruned cfg now) ↔ Separated cfg now s := by
  constructor
  · intro h
    refine ⟨fun c hc habandoned => ?_, fun j hj hfailed => ?_⟩
    · by_contra hstatus
      refine h.dead c ?_ (habandoned.congr pruned_sales)
      rw [pruned_carts, List.mem_filter, Bool.not_eq_true']
      refine ⟨hc, Bool.eq_false_iff.2 fun heligible => ?_⟩
      exact hstatus (cartEligibility_iff.1 heligible).1
    · by_contra hold
      have hterminal : terminalJob cfg.printJobsRetentionDays now j = true := by
        rw [terminalJob, hfailed, Bool.eq_true_of_not_eq_false hold]
        rfl
      obtain ⟨later, hlater, hclaimable⟩ := claimable_failed now hfailed
      refine absurd hclaimable (Bool.eq_false_iff.1 (h.alive j hj ?_ j.locationId later hlater))
      rw [pruned_printJobs, List.mem_filter, hterminal]
      exact fun hkept => Bool.false_ne_true hkept.2
  · intro h
    refine ⟨fun c hc habandoned => ?_, fun j hj hgone locationId later _ => ?_⟩
    · rw [pruned_carts, List.mem_filter, Bool.not_eq_true'] at hc
      have habandoned : c.Abandoned cfg.abandonedCartsRetentionDays now s.db := habandoned.congr pruned_sales.symm
      rw [cartEligibility_iff.2 ⟨h.carts c hc.1 habandoned, habandoned⟩] at hc
      cases hc.2
    · rw [pruned_printJobs, List.mem_filter, Bool.not_eq_true', not_and, Bool.not_eq_false] at hgone
      have hterminal := hgone hj
      simp only [terminalJob, Bool.and_eq_true, Bool.or_eq_true, decide_eq_true_eq] at hterminal
      rcases hterminal with ⟨(hprinted | hfailed) | hcancelled, hold⟩
      · exact not_claimable (.inl hprinted)
      · rw [h.printJobs j hj hfailed] at hold
        cases hold
      · exact not_claimable (.inr hcancelled)

theorem EstateAction.purges_iff (a : EstateAction) (s : Estate) : a.Purges s ↔ a.Separated s := by
  cases a with
  | retention cfg now =>
    constructor
    · intro h hcomplete
      exact Komanda.purges_iff.1 (run_complete hcomplete ▸ h hcomplete)
    · intro h hcomplete
      rw [run_complete hcomplete]
      exact Komanda.purges_iff.2 (h hcomplete)
  | _ => exact Iff.rfl

end Law

/-- Along a run of overlapping calls and of the script, the script deletes what is dead and nothing that is alive
exactly as long as it finds every abandoned cart open or expired, and no old job failed. -/
theorem retention_purges_iff {tenantId : Id} {settings : Settings}
    {es : List (ReadCommitted.Event EstateAction EstatePart)} :
    Runs.Along estateStep (ReadCommitted.AtCommit fun a _ s => a.Purges s) ⟨.fresh tenantId settings, []⟩ es ↔
      Runs.Along estateStep (ReadCommitted.AtCommit fun a _ s => a.Separated s) ⟨.fresh tenantId settings, []⟩ es := by
  have hsame : (fun (a : EstateAction) (_ s : Estate) => a.Purges s) = fun a _ s => a.Separated s := by
    funext a view s
    exact propext (a.purges_iff s)
  rw [hsame]

namespace Demo

/-- A cart, and a run of the script long after it has expired. -/
def leftCart : List (ReadCommitted.Event EstateAction EstatePart) :=
  [.start (.request setUp), .commit 0, .start (.request (fillCart "1" "cart")), .commit 0]

def monthsLater : Instant := 10000000000

end Demo

open Demo

/-- The cart was left as the service wrote it, and the script does not take it. -/
theorem abandoned_cart_remains : ¬ ∀ (tenantId : Id) (settings : Settings)
    (es : List (ReadCommitted.Event EstateAction EstatePart)),
    Runs.Along estateStep (ReadCommitted.AtCommit fun a _ s => a.Purges s) ⟨.fresh tenantId settings, []⟩ es := by
  intro hlaw
  have hleft : ((Runs.exec estateStep ⟨.fresh "tenant" settings, []⟩ leftCart).any fun s =>
      let result := runDatabaseMaintenanceRetention {} monthsLater s.db
      decide (s.opens.length = 0) && decide (result.2.truncatedTables = []) &&
        result.1.db.carts.any fun c => olderThan 14 monthsLater c.expiresAt &&
          result.1.db.orders.all (fun o => decide (o.cartId ≠ c.id)) &&
            result.1.db.attempts.all fun a => decide (a.cartId ≠ c.id)) = true := by decide +kernel
  obtain ⟨s, hr, hleft⟩ := (Option.any_eq_true _ _).1 hleft
  obtain ⟨hrun, hcart⟩ := Bool.and_eq_true_iff.1 hleft
  obtain ⟨hopens, hcomplete⟩ := Bool.and_eq_true_iff.1 hrun
  obtain ⟨c, hc, habandoned⟩ := List.any_eq_true.1 hcart
  simp only [Bool.and_eq_true, List.all_eq_true, decide_eq_true_eq] at habandoned
  have hpurges := hlaw "tenant" settings (leftCart ++ [.start (.retention {} monthsLater), .commit 0])
  have hlast := (Runs.Along.append.1 hpurges).2 s hr
  have hcommit := ReadCommitted.along_call (List.length_eq_zero_iff.1 (of_decide_eq_true hopens)) hlast
  exact (hcommit (of_decide_eq_true hcomplete)).dead c hc ⟨habandoned.1.1, habandoned.1.2, habandoned.2⟩

/-! ## The statuses of the services -/

/-- No service leaves a cart open or expired. -/
def InService (rows : List Cart) : Prop := ∀ c ∈ rows, c.status = .validated ∨ c.status = .converted

section Statuses
variable {q : Request} {v db : Db} {c : Core}

theorem InService.append {rows : List Cart} {cart : Cart} (h : InService rows) (hs : cart.status = .validated) :
    InService (rows ++ [cart]) := by
  intro x hx
  rcases List.mem_append.1 hx with hx | hx
  · exact h x hx
  · exact .inl (List.mem_singleton.1 hx ▸ hs)

theorem InService.update {rows : List Cart} {p : Cart → Bool} {f : Cart → Cart} (h : InService rows)
    (hf : ∀ c, (f c).status = c.status ∨ (f c).status = .converted) : InService (Table.updateWhere p f rows) := by
  intro x hx
  rcases Table.mem_updateWhere_cases hx with ⟨hx, -⟩ | ⟨y, hy, -, rfl⟩
  · exact h x hx
  · rcases hf y with hsame | hconverted
    · exact hsame ▸ h y hy
    · exact .inr hconverted

theorem Effect.inService (h : Effect q v db c) (hi : InService db.carts) : InService c.carts := by
  cases h with
  | editCarts rows h =>
    cases h with
    | same => exact hi
    | add cart _ hs => exact hi.append hs
    | reprice cartId r => exact hi.update fun _ => .inl rfl
  | kiosk cart _ _ _ _ _ _ _ _ _ _ _ _ _ hs => exact hi.append hs
  | sold input order purchaseNumber activeCount cart movement attempts h =>
    rw [Core.book_carts, Core.sell_carts]
    refine InService.update ?_ fun _ => .inr rfl
    cases h with
    | items request hq hs hp ht ha hc => exact hi.append hc
    | _ => rw [Option.toList_none, List.append_nil]; exact hi
  | revised order row p f movement released attempts h =>
    rw [Core.release_carts, Core.book_carts, Core.revise_carts]
    exact hi
  | _ => exact hi

end Statuses

section Runs
variable {cfg : MaintenanceRetentionOptions} {now : Instant} {days : Nat}

/-- The carts of a progress of the script. -/
theorem prune_inService (label : String) {d : Delete Estate} {p : Progress}
    (hd : ∀ n s, InService s.db.carts → InService (d.run n s).1.db.carts) (h : InService p.store.db.carts) :
    InService (prune cfg label d p).1.store.db.carts :=
  Delete.batches_inv (P := fun s : Estate => InService s.db.carts) (fun s => hd _ s) h

theorem inside_inService {eligible : Cart → Bool} {d : Delete (List CartLine)} {n : Nat} {rows : List Cart}
    (h : InService rows) : InService (Delete.insideRun eligible (onLines d) n rows).1 := by
  intro x hx
  obtain ⟨c, hc, rfl | ⟨m, rfl⟩⟩ := Delete.mem_of_insideRun hx
  · exact h x hc
  · exact h c hc

/-- The script may take away lines, and whole carts. -/
theorem run_inService {s : Estate} (h : InService s.db.carts) :
    InService (runDatabaseMaintenanceRetention cfg now s).1.db.carts := by
  have hlines : ∀ n s, InService s.db.carts → InService ((cartLines cfg.abandonedCartsRetentionDays now).run n s).1.db.carts :=
    fun _ _ hs => inside_inService hs
  have hoptions : ∀ n s, InService s.db.carts →
      InService ((cartLineOptions cfg.abandonedCartsRetentionDays now).run n s).1.db.carts := fun _ _ hs => inside_inService hs
  have hcarts : ∀ n s, InService s.db.carts → InService ((carts cfg.abandonedCartsRetentionDays now).run n s).1.db.carts :=
    fun _ _ hs x hx => hs x (Delete.mem_of_first hx)
  refine prune_inService "carts" hcarts (prune_inService "cart_lines" hlines (prune_inService "cart_line_options" hoptions ?_))
  refine prune_inService "print_jobs" (fun _ _ hs => hs) (prune_inService "print_job_attempts" (fun _ _ hs => hs) ?_)
  exact prune_inService "idempotency_records" (fun _ _ hs => hs) h

theorem inService_rely : ReadCommitted.Rely EstateAction.exec rereadEstate (fun s => InService s.db.carts)
    (fun _ _ => True)
    fun _ _ _ => True where
  refl _ _ := trivial
  reread _ _ _ _ _ := trivial
  inv a v s answer s' hi _ _ hx := by
    cases a with
    | request q =>
      obtain ⟨p, hexec, hs⟩ := Option.map_eq_some_iff.1 hx
      obtain ⟨-, rfl⟩ := Prod.mk.inj hs
      exact (exec_effect hexec).inService hi
    | print c =>
      obtain ⟨p, -, hs⟩ := Option.map_eq_some_iff.1 hx
      obtain ⟨-, rfl⟩ := Prod.mk.inj hs
      exact hi
    | retention cfg now =>
      obtain ⟨-, rfl⟩ := Prod.mk.inj (Option.some.inj hx)
      exact run_inService hi
  stable _ _ _ _ _ _ _ _ _ _ _ := trivial

end Runs

/-- In every state that is reached the script finds no cart to delete, however many of them are abandoned. -/
theorem retention_finds_no_cart {tenantId : Id} {settings : Settings}
    {es : List (ReadCommitted.Event EstateAction EstatePart)} {s : ReadCommitted.Session Estate EstateAction}
    (hr : Runs.exec estateStep ⟨.fresh tenantId settings, []⟩ es = some s) (days : Nat) (now : Instant) :
    ∀ c ∈ s.db.db.carts, cartEligibility days now s.db.db c = false := by
  intro c hc
  have hserved := (inService_rely.run_inv ⟨fun _ hx => (List.not_mem_nil hx).elim, fun _ ho => (List.not_mem_nil ho).elim⟩ hr).db
  rw [Bool.eq_false_iff]
  intro heligible
  have hstatus := (cartEligibility_iff.1 heligible).1
  rcases hserved c hc with hvalidated | hconverted
  · rw [hvalidated] at hstatus
    rcases hstatus with h | h <;> cases h
  · rw [hconverted] at hstatus
    rcases hstatus with h | h <;> cases h

end Komanda
