import Komanda.PrintRuns

/-!
# Safety of the print queue

A claim raises the attempt number of the row it has locked, and a report is an update on agent and
attempt number. So a job is `processing` exactly while the agent in its column was given the attempt in
its column (`FloorInv.held`), every number up to that attempt was given once (`FloorInv.once`,
`FloorInv.given`), and a late report matches no row.
-/

namespace Komanda.Printing
open Transaction ReadCommitted Runs

variable {c : Call} {v s s' : PrintFloor} {a : Answer}

def ticketKey (orderId : Id) : String := "order:" ++ orderId ++ ":kitchen-ticket"

/-- What a committed call does to the jobs and hands out. -/
inductive Moves (c : Call) (s s' : PrintFloor) : Prop
  | same (hj : s'.queue.jobs = s.queue.jobs) (hh : s'.handouts = s.handouts)
  | enqueued (order : Order) (newId : Id) (now : Instant) (hc : c = .enqueue order true newId now)
      (hpaid : ¬ (order.tender = .cash ∧ order.paymentStatus ≠ .paid))
      (hnew : ∀ j ∈ s.queue.jobs, j.id ≠ newId ∧ j.idempotencyKey ≠ ticketKey order.id)
      (hj : s'.queue.jobs = s.queue.jobs ++
        [PrintJobRepository.newJob order.locationId order.id (ticketKey order.id) newId now])
      (hh : s'.handouts = s.handouts)
  | claimed (agent : PrintAgent) (leaseSeconds : Nat) (locked : List Id) (now : Instant) (j : PrintJob)
      (hc : c = .claimNext agent leaseSeconds locked now) (hm : j ∈ s.queue.jobs)
      (hj : PrintJobRepository.claimable agent.locationId now j = true)
      (hs : s'.queue.jobs = Table.updateWhere (·.id = j.id)
        (PrintJobRepository.claimed agent.agentId leaseSeconds now) s.queue.jobs)
      (number : Nat) (hn : ∃ p ∈ s.queue.jobs, p.id = j.id ∧ number = p.attemptCount + 1)
      (hh : s'.handouts = ⟨j.id, number, agent.agentId⟩ :: s.handouts)
  | reported (agent : PrintAgent) (jobId : Id) (key : String) (request : PrintJobResultRequest)
      (recordId : Id) (now : Instant) (hc : c = .reportResult agent jobId key request recordId now)
      (hj : s'.queue.jobs = Table.updateWhere
        (PrintJobRepository.heldBy agent jobId request.attemptNumber)
        (PrintJobRepository.reported request now) s.queue.jobs)
      (hh : s'.handouts = s.handouts)

section Bodies
variable {q q' w : PrintQueue}

theorem keeps_recordAttempt (attempt : PrintJobAttempt) : Keeps PrintQueue.jobs
    (PrintJobRepository.recordAttempt (ε := PrintingError) attempt) :=
  Within.write fun q => by
    split
    · rfl
    · rfl

theorem enqueueOrderTicket_cases {order : Order} {printingEnabled : Bool} {newId : Id} {now : Instant}
    {v jobs jobs' : List PrintJob} {job : Option PrintJob}
    (h : Commits (ε := PrintingError)
      (PrintJobService.enqueueOrderTicket order printingEnabled newId now) v jobs job jobs') :
    jobs' = jobs ∨ printingEnabled = true ∧ ¬ (order.tender = .cash ∧ order.paymentStatus ≠ .paid) ∧
      (∀ j ∈ jobs, j.id ≠ newId ∧ j.idempotencyKey ≠ ticketKey order.id) ∧
      jobs' = jobs ++
        [PrintJobRepository.newJob order.locationId order.id (ticketKey order.id) newId now] := by
  simp only [PrintJobService.enqueueOrderTicket, PrintJobRepository.create, commits_ite, commits_bind,
    commits_pure, commits_current, commits_write] at h
  rcases h with ⟨-, -, rfl⟩ | ⟨hpaid, ⟨-, -, rfl⟩ | ⟨hon, taken, _, ⟨rfl, rfl⟩, ⟨-, -, rfl⟩ | ⟨hfree, _, _, rfl, -, rfl⟩⟩⟩
  · exact .inl rfl
  · exact .inl rfl
  · exact .inl rfl
  · refine .inr ⟨by simpa using hon, hpaid, fun j hj => ?_, rfl⟩
    have hj' : ¬ (j.id = newId ∨ j.idempotencyKey = ticketKey order.id) := by
      intro hjk
      refine hfree (List.any_eq_true.2 ⟨j, hj, ?_⟩)
      simpa [ticketKey] using hjk
    exact not_or.1 hj'

theorem claimNext_cases {agent : PrintAgent} {leaseSeconds : Nat} {locked : List Id} {now : Instant}
    {claim : Option PrintJobClaim}
    (h : Commits (PrintJobRepository.claimNext agent leaseSeconds locked now) w q claim q') :
    (claim = none ∧ q'.jobs = q.jobs) ∨ ∃ j p e, j ∈ q.jobs ∧
      PrintJobRepository.claimable agent.locationId now j = true ∧
      q'.jobs = Table.updateWhere (·.id = j.id)
        (PrintJobRepository.claimed agent.agentId leaseSeconds now) q.jobs ∧
      p ∈ q.jobs ∧ p.id = j.id ∧ claim = some ⟨j.id, p.orderId, p.attemptCount + 1, e⟩ := by
  simp only [PrintJobRepository.claimNext, commits_bind, commits_look, commits_current] at h
  obtain ⟨candidates, _, ⟨-, rfl⟩, candidate, _, ⟨hc, rfl⟩, h⟩ := h
  cases candidate with
  | none =>
    obtain ⟨rfl, rfl⟩ := commits_pure.1 h
    exact .inl ⟨rfl, rfl⟩
  | some candidate =>
    simp only [PrintJobRepository.updateReturning, commits_bind, commits_current, commits_write,
      commits_pure, commits_orThrow] at h
    obtain ⟨updated, _, ⟨row, _, ⟨hrow, rfl⟩, _, _, rfl, rfl, rfl⟩, job, _, ⟨hjob, rfl⟩, _, _, hrec,
      e, _, ⟨-, rfl⟩, rfl, rfl⟩ := h
    obtain ⟨p, hp, rfl⟩ := Option.map_eq_some_iff.1 hjob
    rw [hp] at hrow
    have hfound := List.find?_some hc
    simp only [Bool.and_eq_true, List.any_eq_true, decide_eq_true_eq] at hfound
    obtain ⟨-, j, hj, hid, hclaim⟩ := hfound
    have hpid : p.id = candidate.id := by simpa using List.find?_some hrow
    have hjobs := keeps_recordAttempt _ _ _ _ _ hrec
    refine .inr ⟨j, p, e, hj, hclaim, ?_, List.mem_of_find?_eq_some hrow, hpid.trans hid.symm, ?_⟩
    · rw [hid]; exact hjobs
    · rw [hid, ← hpid]; rfl

theorem repository_reportResult_cases {agent : PrintAgent} {jobId : Id} {request : PrintJobResultRequest}
    {now : Instant} {job : Option PrintJob}
    (h : Commits (PrintJobRepository.reportResult agent jobId request now) w q job q') :
    q'.jobs = q.jobs ∨ q'.jobs = Table.updateWhere
      (PrintJobRepository.heldBy agent jobId request.attemptNumber)
      (PrintJobRepository.reported request now) q.jobs := by
  simp only [PrintJobRepository.reportResult, commits_bind, commits_look] at h
  obtain ⟨found, _, ⟨-, rfl⟩, h⟩ := h
  cases found with
  | none =>
    obtain ⟨-, rfl⟩ := commits_pure.1 h
    exact .inl rfl
  | some existing =>
    simp only [PrintJobRepository.updateReturning, commits_ite, commits_bind, commits_current,
      commits_write, commits_pure, commits_runIf, commits_throwIf] at h
    rcases h with ⟨-, -, rfl⟩ | ⟨-, ⟨-, -, rfl⟩ | ⟨-, _, _, ⟨-, rfl⟩, _, _, ⟨_, _, ⟨-, rfl⟩, _, _, rfl, -, rfl⟩, _, _, hrec,
      -, rfl⟩⟩
    · exact .inl rfl
    · exact .inl rfl
    · right
      rcases hrec with ⟨-, hrec⟩ | ⟨-, rfl⟩
      · exact keeps_recordAttempt _ _ _ _ _ hrec
      · rfl

theorem keeps_onIdempotency {α : Type}
    (x : Tx (List (Idempotency.Record PrintJobResultRequest PrintJobResultResponse))
      Idempotency.IdempotencyError α) : Keeps PrintQueue.jobs (PrintJobService.onIdempotency x) :=
  Keeps.zoom fun _ _ => rfl

theorem reportResult_cases {agent : PrintAgent} {jobId : Id} {key : String}
    {request : PrintJobResultRequest} {recordId : Id} {now : Instant}
    {response : Option PrintJobResultResponse}
    (h : Commits (PrintJobService.reportResult agent jobId key request recordId now) w q response q') :
    q'.jobs = q.jobs ∨ q'.jobs = Table.updateWhere
      (PrintJobRepository.heldBy agent jobId request.attemptNumber)
      (PrintJobRepository.reported request now) q.jobs := by
  simp only [PrintJobService.reportResult, commits_bind, commits_current] at h
  obtain ⟨_, _, ⟨-, rfl⟩, claim, q₁, hclaim, h⟩ := h
  have h₁ : q₁.jobs = q.jobs := keeps_onIdempotency _ _ _ _ _ hclaim
  cases claim with
  | replay _ body =>
    obtain ⟨-, rfl⟩ := commits_pure.1 h
    exact .inl h₁
  | claimed recordId _ =>
    simp only [commits_bind, commits_orThrow, commits_pure] at h
    obtain ⟨found, q₂, hrep, job, _, ⟨-, rfl⟩, _, q₃, hdone, -, rfl⟩ := h
    have h₃ : q₃.jobs = q₂.jobs := keeps_onIdempotency _ _ _ _ _ hdone
    rw [h₃, ← h₁]
    exact repository_reportResult_cases hrep

end Bodies

theorem exec_eq : exec c v s = some (a, s') ↔
    ∃ q, Commits c.run v.queue s.queue a q ∧ s' = ⟨q, c.handsOut a ++ s.handouts⟩ := by
  unfold exec Commits
  cases c.run v.queue s.queue with
  | error e => simp
  | ok p =>
    obtain ⟨answer, q⟩ := p
    simp only [Option.some.injEq, Prod.mk.injEq, Except.ok.injEq]
    constructor
    · rintro ⟨rfl, rfl⟩; exact ⟨q, ⟨rfl, rfl⟩, rfl⟩
    · rintro ⟨_, ⟨rfl, rfl⟩, rfl⟩; exact ⟨rfl, rfl⟩

theorem exec_moves (h : exec c v s = some (a, s')) : Moves c s s' := by
  obtain ⟨q, hq, rfl⟩ := exec_eq.1 h
  cases c with
  | enqueue order printingEnabled newId now =>
    simp only [Call.run, commits_bind, commits_zoom, commits_pure] at hq
    obtain ⟨job, _, ⟨jobs, hjobs, rfl⟩, rfl, rfl⟩ := hq
    rcases enqueueOrderTicket_cases hjobs with rfl | ⟨rfl, hpaid, hnew, rfl⟩
    · exact .same rfl rfl
    · exact .enqueued order newId now rfl hpaid hnew rfl rfl
  | claimNext agent leaseSeconds locked now =>
    simp only [Call.run, commits_bind, commits_pure] at hq
    obtain ⟨claim, _, hclaim, rfl, rfl⟩ := hq
    rcases claimNext_cases hclaim with ⟨rfl, hj⟩ | ⟨j, p, e, hm, hj, hs, hp, hid, rfl⟩
    · exact .same hj rfl
    · exact .claimed agent leaseSeconds locked now j rfl hm hj hs _ ⟨p, hp, hid, rfl⟩ rfl
  | reportResult agent jobId key request recordId now =>
    simp only [Call.run, commits_bind, commits_pure] at hq
    obtain ⟨response, _, hrep, rfl, rfl⟩ := hq
    rcases reportResult_cases hrep with hj | hj
    · exact .same hj rfl
    · exact .reported agent jobId key request recordId now rfl hj rfl

/-! ## The invariant -/

/-- The agent and the attempt in a job's columns, against what was handed out. -/
def Accounted (handouts : List Handout) (j : PrintJob) : Prop :=
  if j.status = .processing then
    ∃ agentId, j.claimedByAgentId = some agentId ∧ ⟨j.id, j.attemptCount, agentId⟩ ∈ handouts
  else j.claimedByAgentId = none

/-- What holds of the floor in every run. -/
structure FloorInv (s : PrintFloor) : Prop where
  ids : Table.UniqueOn PrintJob.id s.queue.jobs
  keys : ∀ j ∈ s.queue.jobs, j.idempotencyKey = ticketKey j.orderId
  orders : Table.UniqueOn PrintJob.orderId s.queue.jobs
  held : ∀ j ∈ s.queue.jobs, Accounted s.handouts j
  given : ∀ j ∈ s.queue.jobs, ∀ n, 1 ≤ n → n ≤ j.attemptCount → ∃ agentId, ⟨j.id, n, agentId⟩ ∈ s.handouts
  counted : ∀ h ∈ s.handouts, ∃ j ∈ s.queue.jobs, j.id = h.jobId ∧ h.attemptNumber ≤ j.attemptCount
  once : Table.UniqueOn (fun h => (h.jobId, h.attemptNumber)) s.handouts

theorem FloorInv.start (tenantId : Id) : FloorInv (Floor.start tenantId).db := by
  refine ⟨.nil, ?_, .nil, ?_, ?_, ?_, .nil⟩ <;> intro x hx <;> exact (List.not_mem_nil hx).elim

theorem Accounted.mono {handouts handouts' : List Handout} {j : PrintJob} (h : Accounted handouts j)
    (hsub : ∀ x ∈ handouts, x ∈ handouts') : Accounted handouts' j := by
  unfold Accounted at h ⊢
  split at h
  · next hp =>
    obtain ⟨agentId, hc, hm⟩ := h
    rw [if_pos hp]
    exact ⟨agentId, hc, hsub _ hm⟩
  · next hp => rw [if_neg hp]; exact h

theorem FloorInv.enqueued (hi : FloorInv s) {locationId orderId newId : Id} {now : Instant}
    (hnew : ∀ j ∈ s.queue.jobs, j.id ≠ newId ∧ j.idempotencyKey ≠ ticketKey orderId)
    (hj : s'.queue.jobs = s.queue.jobs ++
      [PrintJobRepository.newJob locationId orderId (ticketKey orderId) newId now])
    (hh : s'.handouts = s.handouts) : FloorInv s' := by
  have hid : ∀ j ∈ s.queue.jobs, j.id ≠ newId := fun j hm => (hnew j hm).1
  -- the key names the order, so an order without its key has no job
  have horder : ∀ j ∈ s.queue.jobs, j.orderId ≠ orderId := by
    intro j hm ho
    exact (hnew j hm).2 (ho ▸ hi.keys j hm)
  refine ⟨?_, ?_, ?_, ?_, ?_, ?_, hh ▸ hi.once⟩
  · rw [hj]; exact hi.ids.append hid
  · intro j hm
    rw [hj] at hm
    rcases List.mem_append.1 hm with hm | hm
    · exact hi.keys j hm
    · rw [List.mem_singleton] at hm; subst hm; rfl
  · rw [hj]; exact hi.orders.append horder
  · intro j hm
    rw [hj] at hm
    rw [hh]
    rcases List.mem_append.1 hm with hm | hm
    · exact hi.held j hm
    · rw [List.mem_singleton] at hm; subst hm; rfl
  · intro j hm n h₁ hn
    rw [hj] at hm
    rw [hh]
    rcases List.mem_append.1 hm with hm | hm
    · exact hi.given j hm n h₁ hn
    · rw [List.mem_singleton] at hm; subst hm
      have hz : n ≤ 0 := hn
      omega
  · intro h hm
    rw [hh] at hm
    obtain ⟨j, hjm, hjid, hjn⟩ := hi.counted h hm
    exact ⟨j, by rw [hj]; exact List.mem_append_left _ hjm, hjid, hjn⟩

theorem FloorInv.claimed (hi : FloorInv s) {agentId : Id} {leaseSeconds : Nat} {now : Instant}
    {p : PrintJob} (hp : p ∈ s.queue.jobs)
    (hj : s'.queue.jobs = Table.updateWhere (·.id = p.id)
      (PrintJobRepository.claimed agentId leaseSeconds now) s.queue.jobs)
    (hh : s'.handouts = ⟨p.id, p.attemptCount + 1, agentId⟩ :: s.handouts) : FloorInv s' := by
  have hsub : ∀ x ∈ s.handouts, x ∈ s'.handouts := fun x hx => hh ▸ List.mem_cons_of_mem _ hx
  have hnew : ⟨p.id, p.attemptCount + 1, agentId⟩ ∈ s'.handouts := hh ▸ List.mem_cons_self
  refine ⟨?_, ?_, ?_, ?_, ?_, ?_, ?_⟩
  · rw [hj]; exact hi.ids.updateWhere fun _ _ => rfl
  · intro j hm
    rw [hj] at hm
    rcases Table.mem_updateWhere_cases hm with ⟨hq, -⟩ | ⟨j, hq, -, rfl⟩
    · exact hi.keys j hq
    · exact hi.keys j hq
  · rw [hj]; exact hi.orders.updateWhere fun _ _ => rfl
  · intro j hm
    rw [hj] at hm
    rcases Table.mem_updateWhere_cases hm with ⟨hq, -⟩ | ⟨j, hq, hid, rfl⟩
    · exact (hi.held j hq).mono hsub
    · have hjp : j = p := hi.ids.eq hq hp (by simpa using hid)
      subst hjp
      exact ⟨agentId, rfl, hnew⟩
  · intro j hm n h₁ hn
    rw [hj] at hm
    rcases Table.mem_updateWhere_cases hm with ⟨hq, -⟩ | ⟨j, hq, hid, rfl⟩
    · obtain ⟨x, hx⟩ := hi.given j hq n h₁ hn
      exact ⟨x, hsub _ hx⟩
    · have hjp : j = p := hi.ids.eq hq hp (by simpa using hid)
      subst hjp
      have hle : n ≤ j.attemptCount + 1 := hn
      by_cases hlast : n = j.attemptCount + 1
      · subst hlast
        exact ⟨agentId, hnew⟩
      · obtain ⟨x, hx⟩ := hi.given j hq n h₁ (by omega)
        exact ⟨x, hsub _ hx⟩
  · intro h hm
    rw [hh] at hm
    rcases List.mem_cons.1 hm with rfl | hm
    · refine ⟨PrintJobRepository.claimed agentId leaseSeconds now p, ?_, rfl, Nat.le_refl _⟩
      rw [hj]; exact Table.mem_updateWhere_of hp (decide_eq_true rfl)
    · obtain ⟨j, hjm, hjid, hjn⟩ := hi.counted h hm
      by_cases hjp : j.id = p.id
      · refine ⟨PrintJobRepository.claimed agentId leaseSeconds now j, ?_, hjid, ?_⟩
        · rw [hj]; exact Table.mem_updateWhere_of hjm (decide_eq_true hjp)
        · show h.attemptNumber ≤ j.attemptCount + 1
          omega
      · exact ⟨j, hj ▸ Table.mem_updateWhere_of_not hjm (decide_eq_false hjp), hjid, hjn⟩
  · -- a number above the job's count was never handed out
    rw [hh]
    refine List.nodup_cons.2 ⟨fun hm => ?_, hi.once⟩
    obtain ⟨h, hmem, he⟩ := List.mem_map.1 hm
    obtain ⟨hjob, hnum⟩ := Prod.mk.inj he
    obtain ⟨j, hjm, hjid, hjn⟩ := hi.counted h hmem
    have hjp : j = p := hi.ids.eq hjm hp (hjid.trans hjob)
    subst hjp
    have hnum : h.attemptNumber = j.attemptCount + 1 := hnum
    omega

/-- A report leaves the job's identity and attempt, and nobody holds it. -/
theorem reported_row (request : PrintJobResultRequest) (now : Instant) (j : PrintJob) :
    let j' := PrintJobRepository.reported request now j
    j'.id = j.id ∧ j'.orderId = j.orderId ∧ j'.idempotencyKey = j.idempotencyKey ∧
      j'.attemptCount = j.attemptCount ∧ j'.status ≠ .processing ∧ j'.claimedByAgentId = none := by
  unfold PrintJobRepository.reported
  cases request.status with
  | printed => exact ⟨rfl, rfl, rfl, rfl, PrintJobStatus.noConfusion, rfl⟩
  | failed => exact ⟨rfl, rfl, rfl, rfl, PrintJobStatus.noConfusion, rfl⟩

theorem FloorInv.reported (hi : FloorInv s) {p : PrintJob → Bool} {request : PrintJobResultRequest}
    {now : Instant} (hj : s'.queue.jobs = Table.updateWhere p
      (PrintJobRepository.reported request now) s.queue.jobs)
    (hh : s'.handouts = s.handouts) : FloorInv s' := by
  have hrow := reported_row request now
  refine ⟨?_, ?_, ?_, ?_, ?_, ?_, hh ▸ hi.once⟩
  · rw [hj]; exact hi.ids.updateWhere fun j _ => (hrow j).1
  · intro j hm
    rw [hj] at hm
    rcases Table.mem_updateWhere_cases hm with ⟨hq, -⟩ | ⟨j, hq, -, rfl⟩
    · exact hi.keys j hq
    · rw [(hrow j).2.2.1, (hrow j).2.1]; exact hi.keys j hq
  · rw [hj]; exact hi.orders.updateWhere fun j _ => (hrow j).2.1
  · intro j hm
    rw [hj] at hm
    rw [hh]
    rcases Table.mem_updateWhere_cases hm with ⟨hq, -⟩ | ⟨j, hq, -, rfl⟩
    · exact hi.held j hq
    · obtain ⟨-, -, -, -, hns, hnone⟩ := hrow j
      rw [Accounted, if_neg hns]
      exact hnone
  · intro j hm n h₁ hn
    rw [hj] at hm
    rw [hh]
    rcases Table.mem_updateWhere_cases hm with ⟨hq, -⟩ | ⟨j, hq, -, rfl⟩
    · exact hi.given j hq n h₁ hn
    · obtain ⟨hid, -, -, hcount, -, -⟩ := hrow j
      rw [hcount] at hn
      rw [hid]
      exact hi.given j hq n h₁ hn
  · intro h hm
    rw [hh] at hm
    obtain ⟨j, hjm, hjid, hjn⟩ := hi.counted h hm
    cases hp : p j with
    | false => exact ⟨j, hj ▸ Table.mem_updateWhere_of_not hjm hp, hjid, hjn⟩
    | true =>
      obtain ⟨hid, -, -, hcount, -, -⟩ := hrow j
      exact ⟨_, hj ▸ Table.mem_updateWhere_of hjm hp, hid.trans hjid, hcount ▸ hjn⟩

theorem FloorInv.of_same (hi : FloorInv s) (hj : s'.queue.jobs = s.queue.jobs)
    (hh : s'.handouts = s.handouts) : FloorInv s' :=
  ⟨hj ▸ hi.ids, hj ▸ hi.keys, hj ▸ hi.orders, hj ▸ hh ▸ hi.held, hj ▸ hh ▸ hi.given, hj ▸ hh ▸ hi.counted,
    hh ▸ hi.once⟩

/-- Every committed call keeps the invariant, whatever its view. -/
theorem FloorInv.moves (hi : FloorInv s) (h : Moves c s s') : FloorInv s' := by
  cases h with
  | same hj hh => exact hi.of_same hj hh
  | enqueued order newId now hc hpaid hnew hj hh => exact hi.enqueued hnew hj hh
  | claimed agent leaseSeconds locked now j hc hm hj hs number hn hh =>
    obtain ⟨p, hp, hid, rfl⟩ := hn
    have hpj : p = j := hi.ids.eq hp hm hid
    subst hpj
    exact hi.claimed hp hs hh
  | reported agent jobId key request recordId now hc hj hh => exact hi.reported hj hh

theorem rely : Rely exec (fun (_ : Unit) _ db => db) FloorInv (fun _ _ => True) fun _ _ _ => True where
  refl _ _ := trivial
  reread _ _ _ _ _ := trivial
  inv _ _ _ _ _ hi _ _ hx := hi.moves (exec_moves hx)
  stable _ _ _ _ _ _ _ _ _ _ _ := trivial

/-! ## The laws -/

/-- The floor is safe: one holder of each job, one agent for each attempt, one job for each order. -/
structure Safe (s : PrintFloor) : Prop where
  holder : ∀ jobId x y, Holds s x jobId → Holds s y jobId → x = y
  column : ∀ j ∈ s.queue.jobs, ∀ x, j.claimedByAgentId = some x ↔ Holds s x j.id
  attempts : ∀ j ∈ s.queue.jobs, ∀ n, (1 ≤ n ∧ n ≤ j.attemptCount) → ∃! x, ⟨j.id, n, x⟩ ∈ s.handouts
  once : (s.handouts.map fun h => (h.jobId, h.attemptNumber)).Nodup
  tickets : ∀ orderId, (s.queue.jobs.filter (·.orderId = orderId)).length ≤ 1

/-- A report of another agent or attempt than the current one leaves the job as it is, and so does a claim
while the lease of the current one runs. -/
def Respects (s s' : PrintFloor) : Call → Prop
  | .enqueue _ _ _ _ => ∀ j ∈ s.queue.jobs, j ∈ s'.queue.jobs
  | .claimNext _ _ _ now => ∀ j ∈ s.queue.jobs, j.status = .processing →
      (∀ t ∈ j.leaseExpiresAt, now < t) → j ∈ s'.queue.jobs
  | .reportResult agent jobId _ request _ _ => ∀ j ∈ s.queue.jobs,
      ¬ (j.id = jobId ∧ j.claimedByAgentId = some agent.agentId ∧ j.attemptCount = request.attemptNumber) →
      j ∈ s'.queue.jobs

/-- Two agents that were given one attempt are one. -/
theorem FloorInv.given_once (hi : FloorInv s) {jobId x y : Id} {n : Nat} (hx : ⟨jobId, n, x⟩ ∈ s.handouts)
    (hy : ⟨jobId, n, y⟩ ∈ s.handouts) : x = y :=
  congrArg Handout.agentId (hi.once.eq hx hy rfl)

theorem FloorInv.column (hi : FloorInv s) {j : PrintJob} (hj : j ∈ s.queue.jobs) (x : Id) :
    j.claimedByAgentId = some x ↔ Holds s x j.id := by
  have ha := hi.held j hj
  unfold Accounted at ha
  constructor
  · intro hx
    split at ha
    · next hp =>
      obtain ⟨y, hy, hm⟩ := ha
      rw [hx] at hy
      cases hy
      exact ⟨j, hj, rfl, hp, hm⟩
    · rw [ha] at hx; cases hx
  · rintro ⟨p, hp, hid, hs, hm⟩
    have hpj : p = j := hi.ids.eq hp hj hid
    subst hpj
    rw [if_pos hs] at ha
    obtain ⟨y, hy, hm'⟩ := ha
    rw [hy, hi.given_once hm hm']

theorem FloorInv.safe (hi : FloorInv s) : Safe s where
  holder jobId x y := by
    rintro ⟨j, hj, hid, hs, hx⟩ ⟨p, hp, hpid, -, hy⟩
    have hpj : p = j := hi.ids.eq hp hj (hpid.trans hid.symm)
    subst hpj
    exact hi.given_once hx hy
  column j hj x := hi.column hj x
  attempts := by
    rintro j hj n ⟨h₁, hn⟩
    obtain ⟨x, hx⟩ := hi.given j hj n h₁ hn
    exact ⟨x, hx, fun y hy => hi.given_once hy hx⟩
  once := hi.once
  tickets orderId := by
    by_cases h : ∃ j ∈ s.queue.jobs, j.orderId = orderId
    · obtain ⟨j, hj, rfl⟩ := h
      rw [hi.orders.filter_eq hj]
      exact Nat.le_refl 1
    · have hnone : s.queue.jobs.filter (·.orderId = orderId) = [] := by
        refine List.filter_eq_nil_iff.2 fun j hj => ?_
        simpa using fun ho => h ⟨j, hj, ho⟩
      rw [hnone]
      exact Nat.zero_le 1

theorem FloorInv.respects (hi : FloorInv s) (h : Moves c s s') : Respects s s' c := by
  cases h with
  | same hj hh => cases c <;> intro j hm <;> intros <;> exact hj ▸ hm
  | enqueued order newId now hc hpaid hnew hj hh =>
    subst hc
    intro j hm
    rw [hj]; exact List.mem_append_left _ hm
  | claimed agent leaseSeconds locked now p hc hm hcl hj number hn hh =>
    subst hc
    intro j hjm hs hlease
    rw [hj]
    refine Table.mem_updateWhere_of_not hjm ?_
    -- the claimed row was due or its lease had run out
    by_contra hid
    have hjp : j = p := hi.ids.eq hjm hm (by simpa using hid)
    subst hjp
    simp only [PrintJobRepository.claimable, hs, Bool.and_eq_true, Bool.or_eq_true] at hcl
    obtain ⟨t, ht, hle⟩ : ∃ t, j.leaseExpiresAt = some t ∧ t ≤ now := by
      simpa [Option.any_eq_true] using hcl.2
    exact absurd (hlease t ht) (Nat.not_lt.2 hle)
  | reported agent jobId key request recordId now hc hj hh =>
    subst hc
    intro j hjm hother
    rw [hj]
    refine Table.mem_updateWhere_of_not hjm ?_
    by_contra hheld
    simp only [PrintJobRepository.heldBy, Bool.not_eq_false, Bool.and_eq_true, decide_eq_true_eq] at hheld
    obtain ⟨⟨⟨-, hid⟩, hagent⟩, hnum⟩ := hheld
    exact hother ⟨hid, hagent, hnum⟩

/-- A printed job stays as it is. -/
theorem FloorInv.printed (hi : FloorInv s) (h : Moves c s s') {j : PrintJob} (hj : j ∈ s.queue.jobs)
    (hp : j.status = .printed) : j ∈ s'.queue.jobs := by
  have hnone : j.claimedByAgentId = none := by
    have := hi.held j hj
    rwa [Accounted, if_neg (by rw [hp]; exact PrintJobStatus.noConfusion)] at this
  cases h with
  | same hs hh => exact hs ▸ hj
  | enqueued order newId now hc hpaid hnew hs hh =>
    rw [hs]; exact List.mem_append_left _ hj
  | claimed agent leaseSeconds locked now p hc hm hcl hs number hn hh =>
    rw [hs]
    refine Table.mem_updateWhere_of_not hj ?_
    by_contra hid
    have hjp : j = p := hi.ids.eq hj hm (by simpa using hid)
    subst hjp
    simp [PrintJobRepository.claimable, hp] at hcl
  | reported agent jobId key request recordId now hc hs hh =>
    rw [hs]
    refine Table.mem_updateWhere_of_not hj ?_
    simp [PrintJobRepository.heldBy, hnone]

/-- Print queue safety, over every interleaving of the calls. -/
theorem print_queue_safe (tenantId : Id) (es : List (Event Call Unit)) (s : Floor)
    (hr : Runs.exec floorStep (Floor.start tenantId) es = some s) :
    Safe s.db ∧
      (∀ c v a s', exec c v s.db = some (a, s') → Respects s.db s' c) ∧
      ∀ es' s', Runs.exec floorStep s es' = some s' →
        ∀ j ∈ s.db.queue.jobs, j.status = .printed → j ∈ s'.db.queue.jobs := by
  have hstart : Inv FloorInv (fun _ _ => True) (Floor.start tenantId) :=
    ⟨FloorInv.start tenantId, fun _ _ => trivial⟩
  have hi := rely.run_inv hstart hr
  refine ⟨hi.db.safe, fun c v a s' hx => hi.db.respects (exec_moves hx), fun es' s' hr' j hj hp => ?_⟩
  have hrely : Rely exec (fun (_ : Unit) _ db => db) (fun s => FloorInv s ∧ j ∈ s.queue.jobs)
      (fun _ _ => True) fun _ _ _ => True :=
    rely.and fun _ _ _ _ _ hi _ _ hx hm => hi.printed (exec_moves hx) hm hp
  exact (hrely.run_inv ⟨⟨hi.db, hj⟩, fun _ _ => trivial⟩ hr').db.2

namespace Demo

def ticket : Order where
  id := "order"
  locationId := "location"
  cartId := "cart"
  paymentAttemptId := none
  purchaseNumber := 1
  source := .adminDirect
  fulfillmentStatus := .approved
  paymentStatus := .paid
  tender := .cash
  customerSnapshot := { name := "NN" }
  notes := none
  subtotal := 1000
  discountTotal := 0
  total := 1000
  discountSnapshot := none
  pickupPin := none
  estimatedWaitMinutes := none
  estimatedReadyAt := none
  scheduledFor := none
  paymentExpiresAt := none
  currency := "ARS"
  idempotencyKey := "key"
  approvedAt := none
  deliveredAt := none
  version := 1
  createdAt := 0
  updatedAt := 0
  lines := []

def agent (agentId : Id) : PrintAgent := ⟨agentId, "location"⟩

def printed (attemptNumber : Nat) : PrintJobResultRequest := { status := .printed, attemptNumber }

/-- The first agent's lease runs out; its late report starts before the second claim commits. -/
def leaseRun : List (Event Call Unit) :=
  [.start (.enqueue ticket true "job" 0), .commit 0,
    .start (.claimNext (agent "first") 60 [] 0), .commit 0,
    .start (.claimNext (agent "second") 60 [] 60000),
    .start (.reportResult (agent "first") "job" "late" (printed 1) "record" 60000), .commit 0, .abort 0,
    .start (.reportResult (agent "second") "job" "key" (printed 2) "record" 61000), .commit 0]

end Demo

theorem print_queue_safe_lease : ∃ s : Floor, s.db.handouts = [⟨"job", 2, "second"⟩, ⟨"job", 1, "first"⟩] ∧
    Safe s.db := by
  have hrun : (Runs.exec floorStep (Floor.start "tenant") Demo.leaseRun).any (fun s =>
      s.db.handouts = [⟨"job", 2, "second"⟩, ⟨"job", 1, "first"⟩]) = true := by decide +kernel
  obtain ⟨s, hs, hh⟩ := (Option.any_eq_true _ _).1 hrun
  exact ⟨s, by simpa using hh, (print_queue_safe "tenant" Demo.leaseRun s hs).1⟩

end Komanda.Printing
