import Komanda.OutboxDispatch
import Komanda.Lib.Table

/-!
# Safety of the outbox

A claim counts an attempt and names its worker; an outcome is written only while the worker is still named. So an
outcome reaches the row only under the latest claim, and what is published or dead-lettered names no worker and is not
claimed.
-/

namespace Komanda
open Transaction

def OutboxRow.settled (r : OutboxRow) : Prop := r.publishedAt.isSome = true ∨ r.deadLetterAt.isSome = true

/-! ## The law -/

section Law
variable (workers : String → OutboxWorker)

/-- The worker claims the event. -/
def Claims (workerId : String) (id : Id) (s s' : OutboxState) : Prop :=
  ∃ tenantId view locked now, outboxStep workers s (.claim workerId tenantId view locked now) = some s' ∧
    ∃ event ∈ (s'.tasks workerId).events, event.id = id

/-- The worker writes an outcome. -/
def ReportsBack (workerId : String) (s s' : OutboxState) : Prop :=
  (∃ answered now, outboxStep workers s (.publish workerId answered now) = some s') ∨
    ∃ message retryMs now, outboxStep workers s (.fail workerId message retryMs now) = some s'

structure OutboxSafe (s : OutboxState) : Prop where
  exclusive : ∀ r ∈ s.rows, ¬ (r.publishedAt.isSome = true ∧ r.deadLetterAt.isSome = true)
  /-- Nothing changes a settled event, and no worker claims it. -/
  settled : ∀ r ∈ s.rows, r.settled → ∀ as s₁, Runs.exec (outboxStep workers) s as = some s₁ →
    r ∈ s₁.rows ∧ ∀ workerId s₂, ¬ Claims workers workerId r.id s₁ s₂
  /-- While a worker is at a claim that another has taken over, its outcomes leave the event. -/
  takenOver : ∀ workerId, ∀ event ∈ (s.tasks workerId).events, ∀ other s₁, other ≠ workerId →
    Claims workers other event.id s s₁ → ∀ as s₂, Runs.exec (outboxStep workers) s₁ as = some s₂ →
      event ∈ (s₂.tasks workerId).events → ∀ s₃, ReportsBack workers workerId s₂ s₃ →
        ∀ r ∈ s₂.rows, r.id = event.id → r ∈ s₃.rows

end Law

/-! ## What a step does -/

/-- An outcome gives the row back, and sets one of the two marks at most. -/
structure GivesBack (f : OutboxRow → OutboxRow) : Prop where
  id : ∀ r, (f r).id = r.id
  attempts : ∀ r, (f r).attempts = r.attempts
  claimedBy : ∀ r, (f r).claimedBy = none
  marks : ∀ r, (f r).publishedAt = r.publishedAt ∨ (f r).deadLetterAt = r.deadLetterAt

/-- A worker that had no events claims some. -/
structure ClaimsRows (workerId : String) (s s' : OutboxState) (p : OutboxRow → Bool) (leaseMs : Nat) (now : Instant)
    (events : List ClaimedOutboxEvent) : Prop where
  claimable : ∀ r ∈ s.rows, p r = true → ∃ q ∈ s.rows, q.id = r.id ∧ q.claimable now = true
  taken : ∀ event ∈ events, ∃ r ∈ s.rows, p r = true ∧ event = (r.claimed workerId leaseMs now).claimedEvent
  rows : s'.rows = Table.updateWhere p (OutboxRow.claimed workerId leaseMs now) s.rows
  tasks : s'.tasks = Function.update s.tasks workerId { events }

/-- A worker writes the outcome of an event, and goes on with events that it had. -/
structure ReportsRow (workerId : String) (s s' : OutboxState) (id : Id) (task : OutboxTask)
    (f : OutboxRow → OutboxRow) : Prop where
  givesBack : GivesBack f
  events : task.events ⊆ (s.tasks workerId).events
  rows : s'.rows = Table.updateWhere (OutboxRow.heldBy workerId id) f s.rows
  tasks : s'.tasks = Function.update s.tasks workerId task

inductive OutboxMove (s s' : OutboxState) : Prop
  | append (row : OutboxRow) (hfresh : ∀ r ∈ s.rows, r.id ≠ row.id) (hnew : ¬ row.settled ∧ row.claimedBy = none)
      (hrows : s'.rows = s.rows ++ [row]) (htasks : s'.tasks = s.tasks)
  | claim (workerId : String) (p : OutboxRow → Bool) (leaseMs : Nat) (now : Instant) (events : List ClaimedOutboxEvent)
      (h : ClaimsRows workerId s s' p leaseMs now events)
  | report (workerId : String) (id : Id) (task : OutboxTask) (f : OutboxRow → OutboxRow)
      (h : ReportsRow workerId s s' id task f)
  | rest (workerId : String) (task : OutboxTask) (hrows : s'.rows = s.rows)
      (hevents : task.events ⊆ (s.tasks workerId).events)
      (htasks : s'.tasks = Function.update s.tasks workerId task)

section Steps
variable {workers : String → OutboxWorker} {s s' : OutboxState} {a : OutboxAction}

theorem claimRows_eq {workerId : String} {selects : OutboxRow → Bool} {limit leaseMs : Nat} {locked : List Id}
    {now : Instant} {view rows : List OutboxRow} : ∃ candidates : List OutboxRow,
      (∀ c ∈ candidates, c ∈ rows ∧ c.claimable now = true) ∧
        Commits (claimRows workerId selects limit leaseMs locked now) view rows
          (candidates.map fun r => (r.claimed workerId leaseMs now).claimedEvent)
          (Table.updateWhere (fun r => candidates.any (·.id = r.id)) (OutboxRow.claimed workerId leaseMs now) rows) := by
  refine ⟨_, fun c hc => ?_, rfl⟩
  have hfound := List.mem_of_mem_take hc
  rw [List.mem_insertionSort, List.mem_filter] at hfound
  simp only [Bool.and_eq_true] at hfound
  exact ⟨hfound.1, hfound.2.1.1.2⟩

/-- The claim of either kind of worker. -/
theorem OutboxWorker.claim_eq (worker : OutboxWorker) (workerId : String) (tenantId : Id) (locked : List Id)
    (now : Instant) (view rows : List OutboxRow) : ∃ (leaseMs : Nat) (candidates : List OutboxRow),
      (∀ c ∈ candidates, c ∈ rows ∧ c.claimable now = true) ∧
        Commits (worker.claim workerId tenantId locked now) view rows
          (candidates.map fun r => (r.claimed workerId leaseMs now).claimedEvent)
          (Table.updateWhere (fun r => candidates.any (·.id = r.id)) (OutboxRow.claimed workerId leaseMs now) rows) := by
  cases worker with
  | dispatcher options => exact ⟨_, claimRows_eq⟩
  | whatsApp eventType => exact ⟨_, claimRows_eq⟩

theorem OutboxWorker.markFailed_eq (worker : OutboxWorker) (workerId : String) (event : ClaimedOutboxEvent)
    (message : String) (retryMs : Nat) (now : Instant) (view rows : List OutboxRow) :
    ∃ f, GivesBack f ∧ Commits (worker.markFailed workerId event message retryMs now) view rows ()
      (Table.updateWhere (OutboxRow.heldBy workerId event.id) f rows) := by
  cases worker with
  | dispatcher options =>
    refine ⟨_, ?_, rfl⟩
    exact ⟨fun _ => rfl, fun _ => rfl, fun _ => rfl, fun _ => .inl rfl⟩
  | whatsApp eventType =>
    refine ⟨_, ?_, rfl⟩
    exact ⟨fun _ => rfl, fun _ => rfl, fun _ => rfl, fun _ => .inl rfl⟩

theorem OutboxState.after_eq {α : Type} {x : OutboxTx α} {view rows : List OutboxRow} {r : α × OutboxState} {b : α}
    (hc : Commits x view s.rows b rows) (h : s.after x view = some r) : r = (b, { s with rows }) := by
  rw [OutboxState.after, hc] at h
  exact (Option.some.inj h).symm

theorem claims_cases {workerId : String} {tenantId : Id} {view : List OutboxRow} {locked : List Id} {now : Instant}
    (h : outboxStep workers s (.claim workerId tenantId view locked now) = some s') :
    ∃ p leaseMs events, ClaimsRows workerId s s' p leaseMs now events := by
  rw [outboxStep, Option.ite_none_left_eq_some, Option.map_eq_some_iff] at h
  obtain ⟨-, r, hafter, rfl⟩ := h
  obtain ⟨leaseMs, candidates, hcandidates, hc⟩ := (workers workerId).claim_eq workerId tenantId locked now view s.rows
  obtain rfl := OutboxState.after_eq hc hafter
  refine ⟨_, leaseMs, _, fun r _ hp => ?_, fun event hevent => ?_, rfl, rfl⟩
  · obtain ⟨c, hmem, hid⟩ := List.any_eq_true.1 hp
    exact ⟨c, (hcandidates c hmem).1, of_decide_eq_true hid, (hcandidates c hmem).2⟩
  · obtain ⟨c, hmem, rfl⟩ := List.mem_map.1 hevent
    exact ⟨c, (hcandidates c hmem).1, List.any_eq_true.2 ⟨c, hmem, decide_eq_true rfl⟩, rfl⟩

theorem publish_cases {workerId : String} {answered : Bool} {now : Instant}
    (h : outboxStep workers s (.publish workerId answered now) = some s') : ∃ id task f, ReportsRow workerId s s' id task f := by
  rw [outboxStep] at h
  split at h
  · next event events htask =>
    obtain ⟨r, hafter, rfl⟩ := Option.map_eq_some_iff.1 h
    have hc : Commits (markPublished workerId event.id now) s.rows s.rows () _ := rfl
    obtain rfl := OutboxState.after_eq hc hafter
    refine ⟨event.id, _, _, ?_, ?_, rfl, rfl⟩
    · exact ⟨fun _ => rfl, fun _ => rfl, fun _ => rfl, fun _ => .inr rfl⟩
    · rw [htask]
      cases answered with
      | true => exact List.subset_cons_self _ _
      | false => exact List.Subset.refl _
  · cases h

theorem fail_cases {workerId message : String} {retryMs : Nat} {now : Instant}
    (h : outboxStep workers s (.fail workerId message retryMs now) = some s') :
    ∃ id task f, ReportsRow workerId s s' id task f := by
  rw [outboxStep] at h
  split at h
  · next event events htask =>
    obtain ⟨r, hafter, rfl⟩ := Option.map_eq_some_iff.1 h
    obtain ⟨f, hf, hc⟩ := (workers workerId).markFailed_eq workerId event message retryMs now s.rows s.rows
    obtain rfl := OutboxState.after_eq hc hafter
    refine ⟨event.id, _, f, hf, ?_, rfl, rfl⟩
    rw [htask]
    exact List.subset_cons_self _ _
  · cases h

theorem outboxStep_move (h : outboxStep workers s a = some s') : OutboxMove s s' := by
  cases a with
  | append id tenantId eventType sequence availableAt =>
    rw [outboxStep, Option.ite_none_left_eq_some] at h
    obtain ⟨hfresh, h⟩ := h
    obtain rfl := Option.some.inj h
    refine .append _ (fun r hr hid => hfresh ?_) ⟨?_, rfl⟩ rfl rfl
    · exact List.any_eq_true.2 ⟨r, hr, decide_eq_true hid⟩
    · simp [OutboxRow.settled, newOutboxRow]
  | claim workerId tenantId view locked now =>
    obtain ⟨p, leaseMs, events, hclaims⟩ := claims_cases h
    exact .claim workerId p leaseMs now events hclaims
  | publish workerId answered now =>
    obtain ⟨id, task, f, hreports⟩ := publish_cases h
    exact .report workerId id task f hreports
  | throws workerId =>
    rw [outboxStep] at h
    split at h
    · next event events htask =>
      obtain rfl := Option.some.inj h
      refine .rest workerId _ rfl ?_ rfl
      rw [htask]
      exact List.Subset.refl _
    · cases h
  | fail workerId message retryMs now =>
    obtain ⟨id, task, f, hreports⟩ := fail_cases h
    exact .report workerId id task f hreports
  | abandon workerId =>
    obtain rfl := Option.some.inj h
    exact .rest workerId _ rfl (List.nil_subset _) rfl

end Steps

/-! ## Invariants -/

section Invariants
variable {workers : String → OutboxWorker} {s s' : OutboxState} {r : OutboxRow}

theorem OutboxRow.claimable_unsettled {now : Instant} (h : r.claimable now = true) : ¬ r.settled := by
  simp only [OutboxRow.claimable, Bool.and_eq_true, Option.isNone_iff_eq_none] at h
  simp [OutboxRow.settled, h.1.1.1, h.1.1.2]

theorem OutboxRow.heldBy_iff {workerId : String} {id : Id} :
    r.heldBy workerId id = true ↔ r.id = id ∧ r.claimedBy = some workerId := by
  rw [OutboxRow.heldBy, Bool.and_eq_true, decide_eq_true_eq, decide_eq_true_eq]

/-- What is settled names no worker, and a worker that is named has the latest claim. -/
structure OutboxInv (s : OutboxState) : Prop where
  ids : Table.UniqueOn OutboxRow.id s.rows
  free : ∀ r ∈ s.rows, r.settled → r.claimedBy = none
  exclusive : ∀ r ∈ s.rows, ¬ (r.publishedAt.isSome = true ∧ r.deadLetterAt.isSome = true)
  latest : ∀ workerId, ∀ event ∈ (s.tasks workerId).events, ∃ r ∈ s.rows, r.id = event.id ∧
    event.attempts ≤ r.attempts ∧ (r.claimedBy = some workerId → r.attempts = event.attempts)

theorem OutboxInv.empty : OutboxInv {} where
  ids := .nil
  free _ hr := absurd hr List.not_mem_nil
  exclusive _ hr := absurd hr List.not_mem_nil
  latest _ _ he := absurd he List.not_mem_nil

/-- A claim takes rows that are not settled. -/
theorem OutboxInv.unsettled {workerId : String} {p : OutboxRow → Bool} {leaseMs : Nat} {now : Instant}
    {events : List ClaimedOutboxEvent} (hi : OutboxInv s) (h : ClaimsRows workerId s s' p leaseMs now events)
    (hr : r ∈ s.rows) (hp : p r = true) : ¬ r.settled := by
  obtain ⟨q, hq, hid, hclaimable⟩ := h.claimable r hr hp
  obtain rfl := hi.ids.eq hq hr hid
  exact OutboxRow.claimable_unsettled hclaimable

theorem OutboxInv.claims {workerId : String} {p : OutboxRow → Bool} {leaseMs : Nat} {now : Instant}
    {events : List ClaimedOutboxEvent} (hi : OutboxInv s) (h : ClaimsRows workerId s s' p leaseMs now events) :
    OutboxInv s' where
  ids := h.rows ▸ hi.ids.updateWhere fun _ _ => rfl
  free r hr hsettled := by
    rw [h.rows] at hr
    rcases Table.mem_updateWhere_cases hr with ⟨hr, -⟩ | ⟨q, hq, hp, rfl⟩
    · exact hi.free r hr hsettled
    · have hbefore : q.settled := hsettled
      exact absurd hbefore (hi.unsettled h hq hp)
  exclusive r hr := by
    rw [h.rows] at hr
    rcases Table.mem_updateWhere_cases hr with ⟨hr, -⟩ | ⟨q, hq, -, rfl⟩
    · exact hi.exclusive r hr
    · exact hi.exclusive q hq
  latest other event hevent := by
    rw [h.tasks] at hevent
    rw [h.rows]
    by_cases hother : other = workerId
    · subst hother
      rw [Function.update_self] at hevent
      obtain ⟨r, hr, hp, rfl⟩ := h.taken event hevent
      exact ⟨_, Table.mem_updateWhere_of hr hp, rfl, le_rfl, fun _ => rfl⟩
    · rw [Function.update_of_ne hother] at hevent
      obtain ⟨r, hr, hid, hle, hlatest⟩ := hi.latest other event hevent
      cases hp : p r with
      | false => exact ⟨r, Table.mem_updateWhere_of_not hr hp, hid, hle, hlatest⟩
      | true =>
        refine ⟨_, Table.mem_updateWhere_of hr hp, hid, Nat.le_succ_of_le hle, fun hclaimed => ?_⟩
        exact absurd (Option.some.inj hclaimed).symm hother

theorem OutboxInv.reports {workerId : String} {id : Id} {task : OutboxTask} {f : OutboxRow → OutboxRow}
    (hi : OutboxInv s) (h : ReportsRow workerId s s' id task f) : OutboxInv s' where
  ids := h.rows ▸ hi.ids.updateWhere fun q _ => h.givesBack.id q
  free r hr hsettled := by
    rw [h.rows] at hr
    rcases Table.mem_updateWhere_cases hr with ⟨hr, -⟩ | ⟨q, -, -, rfl⟩
    · exact hi.free r hr hsettled
    · exact h.givesBack.claimedBy q
  exclusive r hr := by
    rw [h.rows] at hr
    rcases Table.mem_updateWhere_cases hr with ⟨hr, -⟩ | ⟨q, hq, hheld, rfl⟩
    · exact hi.exclusive r hr
    · -- the row names a worker, so neither mark is set before
      have hunsettled : ¬ q.settled := fun hsettled => by
        have hnone := hi.free q hq hsettled
        rw [(OutboxRow.heldBy_iff.1 hheld).2] at hnone
        cases hnone
      rintro ⟨hpublished, hdead⟩
      rcases h.givesBack.marks q with hmark | hmark
      · exact hunsettled (.inl (hmark ▸ hpublished))
      · exact hunsettled (.inr (hmark ▸ hdead))
  latest other event hevent := by
    have hbefore : event ∈ (s.tasks other).events := by
      rw [h.tasks] at hevent
      by_cases hother : other = workerId
      · subst hother
        rw [Function.update_self] at hevent
        exact h.events hevent
      · rwa [Function.update_of_ne hother] at hevent
    obtain ⟨r, hr, hid, hle, hlatest⟩ := hi.latest other event hbefore
    rw [h.rows]
    cases hp : OutboxRow.heldBy workerId id r with
    | false => exact ⟨r, Table.mem_updateWhere_of_not hr hp, hid, hle, hlatest⟩
    | true =>
      refine ⟨_, Table.mem_updateWhere_of hr hp, (h.givesBack.id r).trans hid, ?_, fun hclaimed => ?_⟩
      · rw [h.givesBack.attempts]
        exact hle
      · rw [h.givesBack.claimedBy] at hclaimed
        cases hclaimed

theorem OutboxInv.move (hi : OutboxInv s) (h : OutboxMove s s') : OutboxInv s' := by
  cases h with
  | append row hfresh hnew hrows htasks =>
    refine ⟨hrows ▸ hi.ids.append fun q hq => hfresh q hq, fun r hr hsettled => ?_, fun r hr => ?_, ?_⟩
    · rw [hrows, List.mem_append, List.mem_singleton] at hr
      rcases hr with hr | rfl
      · exact hi.free r hr hsettled
      · exact hnew.2
    · rw [hrows, List.mem_append, List.mem_singleton] at hr
      rcases hr with hr | rfl
      · exact hi.exclusive r hr
      · exact fun hboth => hnew.1 (.inl hboth.1)
    · intro workerId event hevent
      rw [htasks] at hevent
      obtain ⟨r, hr, hlatest⟩ := hi.latest workerId event hevent
      exact ⟨r, hrows ▸ List.mem_append_left _ hr, hlatest⟩
  | claim workerId p leaseMs now events h => exact hi.claims h
  | report workerId id task f h => exact hi.reports h
  | rest workerId task hrows hevents htasks =>
    refine ⟨hrows ▸ hi.ids, hrows ▸ hi.free, hrows ▸ hi.exclusive, fun other event hevent => ?_⟩
    rw [hrows]
    rw [htasks] at hevent
    by_cases hother : other = workerId
    · subst hother
      rw [Function.update_self] at hevent
      exact hi.latest other event (hevents hevent)
    · rw [Function.update_of_ne hother] at hevent
      exact hi.latest other event hevent

/-- A settled row stays as it is. -/
theorem OutboxInv.settled (hi : OutboxInv s) (h : OutboxMove s s') (hr : r ∈ s.rows) (hsettled : r.settled) :
    r ∈ s'.rows := by
  cases h with
  | append row hfresh hnew hrows htasks => exact hrows ▸ List.mem_append_left _ hr
  | claim workerId p leaseMs now events h =>
    rw [h.rows]
    refine Table.mem_updateWhere_of_not hr ?_
    cases hp : p r with
    | false => rfl
    | true => exact absurd hsettled (hi.unsettled h hr hp)
  | report workerId id task f h =>
    rw [h.rows]
    refine Table.mem_updateWhere_of_not hr (Bool.eq_false_iff.2 fun hheld => ?_)
    have hnamed := (OutboxRow.heldBy_iff.1 hheld).2
    rw [hi.free r hr hsettled] at hnamed
    cases hnamed
  | rest workerId task hrows hevents htasks => exact hrows ▸ hr

/-- The attempts of a row do not go down. -/
theorem OutboxMove.attempts_le (h : OutboxMove s s') (hr : r ∈ s.rows) :
    ∃ r' ∈ s'.rows, r'.id = r.id ∧ r.attempts ≤ r'.attempts := by
  cases h with
  | append row hfresh hnew hrows htasks => exact ⟨r, hrows ▸ List.mem_append_left _ hr, rfl, le_rfl⟩
  | claim workerId p leaseMs now events h =>
    rw [h.rows]
    cases hp : p r with
    | false => exact ⟨r, Table.mem_updateWhere_of_not hr hp, rfl, le_rfl⟩
    | true => exact ⟨_, Table.mem_updateWhere_of hr hp, rfl, Nat.le_succ _⟩
  | report workerId id task f h =>
    rw [h.rows]
    cases hp : OutboxRow.heldBy workerId id r with
    | false => exact ⟨r, Table.mem_updateWhere_of_not hr hp, rfl, le_rfl⟩
    | true => exact ⟨_, Table.mem_updateWhere_of hr hp, h.givesBack.id r, (h.givesBack.attempts r).ge⟩
  | rest workerId task hrows hevents htasks => exact ⟨r, hrows ▸ hr, rfl, le_rfl⟩

end Invariants

/-! ## Runs -/

section OutboxRuns
variable {workers : String → OutboxWorker} {s s' : OutboxState} {r : OutboxRow} {as : List OutboxAction}

theorem OutboxInv.exec (hi : OutboxInv s) (h : Runs.exec (outboxStep workers) s as = some s') : OutboxInv s' :=
  Runs.exec_inv (C := fun _ _ => True) (fun _ _ _ hi _ hstep => hi.move (outboxStep_move hstep)) hi
    (.of_forall fun _ _ => trivial) h

theorem OutboxInv.settled_exec (hi : OutboxInv s) (hr : r ∈ s.rows) (hsettled : r.settled)
    (h : Runs.exec (outboxStep workers) s as = some s') : r ∈ s'.rows := by
  have hinv : OutboxInv s' ∧ r ∈ s'.rows :=
    Runs.exec_inv (I := fun s => OutboxInv s ∧ r ∈ s.rows) (C := fun _ _ => True)
      (fun _ _ _ hi _ hstep =>
        ⟨hi.1.move (outboxStep_move hstep), hi.1.settled (outboxStep_move hstep) hi.2 hsettled⟩)
      ⟨hi, hr⟩ (.of_forall fun _ _ => trivial) h
  exact hinv.2

/-- A row that has been claimed beyond an attempt stays beyond it. -/
theorem attempts_lt_exec {id : Id} {n : Nat} (hbeyond : ∃ r ∈ s.rows, r.id = id ∧ n < r.attempts)
    (h : Runs.exec (outboxStep workers) s as = some s') : ∃ r ∈ s'.rows, r.id = id ∧ n < r.attempts := by
  refine Runs.exec_inv (I := fun s => ∃ r ∈ s.rows, r.id = id ∧ n < r.attempts) (C := fun _ _ => True)
    (fun s₁ _ s₂ hbeyond _ hstep => ?_) hbeyond (.of_forall fun _ _ => trivial) h
  obtain ⟨r, hr, hid, hlt⟩ := hbeyond
  obtain ⟨r', hr', hid', hle⟩ := (outboxStep_move hstep).attempts_le hr
  exact ⟨r', hr', hid'.trans hid, hlt.trans_le hle⟩

/-- Who takes an event over goes beyond the attempt of the claim. -/
theorem OutboxInv.beyond {other workerId : String} {event : ClaimedOutboxEvent} (hi : OutboxInv s)
    (hevent : event ∈ (s.tasks workerId).events) (hclaims : Claims workers other event.id s s') :
    ∃ r ∈ s'.rows, r.id = event.id ∧ event.attempts < r.attempts := by
  obtain ⟨tenantId, view, locked, now, hstep, taken, htaken, hid⟩ := hclaims
  obtain ⟨p, leaseMs, events, h⟩ := claims_cases hstep
  rw [h.tasks, Function.update_self] at htaken
  obtain ⟨r, hr, hp, rfl⟩ := h.taken taken htaken
  obtain ⟨q, hq, hqid, hle, -⟩ := hi.latest workerId event hevent
  obtain rfl := hi.ids.eq hq hr (hqid.trans hid.symm)
  exact ⟨_, h.rows ▸ Table.mem_updateWhere_of hr hp, hid, Nat.lt_succ_of_le hle⟩

/-- An outcome under a claim that is not the latest leaves the row. -/
theorem OutboxInv.outdated {workerId : String} {event : ClaimedOutboxEvent} (hi : OutboxInv s)
    (hevent : event ∈ (s.tasks workerId).events) (hbeyond : ∃ r ∈ s.rows, r.id = event.id ∧ event.attempts < r.attempts)
    (hreports : ReportsBack workers workerId s s') (hr : r ∈ s.rows) (hid : r.id = event.id) : r ∈ s'.rows := by
  have hcases : ∃ id task f, ReportsRow workerId s s' id task f := by
    rcases hreports with ⟨answered, now, hstep⟩ | ⟨message, retryMs, now, hstep⟩
    · exact publish_cases hstep
    · exact fail_cases hstep
  obtain ⟨id, task, f, h⟩ := hcases
  rw [h.rows]
  refine Table.mem_updateWhere_of_not hr (Bool.eq_false_iff.2 fun hheld => ?_)
  obtain ⟨q, hq, hqid, hlt⟩ := hbeyond
  obtain rfl := hi.ids.eq hq hr (hqid.trans hid.symm)
  obtain ⟨p, hp, hpid, -, hlatest⟩ := hi.latest workerId event hevent
  obtain rfl := hi.ids.eq hp hq (hpid.trans hqid.symm)
  exact absurd (hlatest (OutboxRow.heldBy_iff.1 hheld).2) hlt.ne'

end OutboxRuns

/-- Whatever the workers do from an empty outbox, it is safe. -/
theorem outbox_dispatch_safe {workers : String → OutboxWorker} {as : List OutboxAction} {s : OutboxState}
    (h : Runs.exec (outboxStep workers) {} as = some s) : OutboxSafe workers s := by
  have hi : OutboxInv s := OutboxInv.empty.exec h
  refine ⟨hi.exclusive, fun r hr hsettled bs s₁ hrun => ?_, ?_⟩
  · have hi₁ := hi.exec hrun
    have hr₁ := hi.settled_exec hr hsettled hrun
    refine ⟨hr₁, ?_⟩
    rintro workerId s₂ ⟨tenantId, view, locked, now, hstep, taken, htaken, hid⟩
    obtain ⟨p, leaseMs, events, hclaims⟩ := claims_cases hstep
    rw [hclaims.tasks, Function.update_self] at htaken
    obtain ⟨q, hq, hp, rfl⟩ := hclaims.taken taken htaken
    obtain rfl := hi₁.ids.eq hq hr₁ hid
    exact hi₁.unsettled hclaims hq hp hsettled
  · intro workerId event hevent other s₁ _ hclaims bs s₂ hrun hstill s₃ hreports r hr hid
    have hi₁ : OutboxInv s₁ := by
      obtain ⟨tenantId, view, locked, now, hstep, -⟩ := hclaims
      exact hi.move (outboxStep_move hstep)
    exact (hi₁.exec hrun).outdated hstill (attempts_lt_exec (hi.beyond hevent hclaims) hrun) hreports hr hid

namespace Demo

/-- Two dispatchers and the job of the ready messages. -/
def dispatchers (workerId : String) : OutboxWorker :=
  if workerId = "whatsapp" then .whatsApp "order.whatsapp_ready" else .dispatcher {}

/-- The lease of the first dispatcher runs out while its consumer is at work, and the job takes the event over. -/
def slowConsumer : List OutboxAction :=
  let row := newOutboxRow "event" "tenant" "order.whatsapp_ready" 1 0
  [.append "event" "tenant" "order.whatsapp_ready" 1 0, .claim "first" "tenant" [row] [] 1000,
    .claim "whatsapp" "tenant" [row.claimed "first" 30000 1000] [] 40000, .publish "first" true 41000,
    .throws "whatsapp", .fail "whatsapp" "timeout" 0 42000]

end Demo

open Demo

theorem outbox_dispatch_safe_slow : ∃ s, Runs.exec (outboxStep dispatchers) {} slowConsumer = some s ∧
    OutboxSafe dispatchers s := by
  have hs : (Runs.exec (outboxStep dispatchers) {} slowConsumer).isSome = true := by decide +kernel
  obtain ⟨s, hs⟩ := Option.isSome_iff_exists.1 hs
  exact ⟨s, hs, outbox_dispatch_safe hs⟩

end Komanda
