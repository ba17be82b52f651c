import Komanda.Proofs.PrintQueue

/-!
# Reports of failed attempts

Each failure doubles the wait for the next attempt, and nothing bounds the attempts: a claim after a lease that has run
out counts like any other. A report of the current attempt goes through as long as the date it is put off to is one
(`failure_reported_iff`); after that the job can neither be put off nor be given up.
-/

namespace Komanda.Printing
open Transaction ReadCommitted Runs

/-- The report goes through, and puts the job off to the retry date. -/
def PutsOff (agent : PrintAgent) (j : PrintJob) (request : PrintJobResultRequest) (now : Instant) (q : PrintQueue) :
    Prop :=
  ∃ job q', Commits (PrintJobRepository.reportResult agent j.id request now) q q (some job) q' ∧
    job.status = .failed ∧ job.nextAttemptAt = some (retryDate j.attemptCount now)

/-- The wait does not decrease. -/
theorem retryDate_mono (now : Instant) {m n : Nat} (h : m ≤ n) : retryDate m now ≤ retryDate n now := by
  have hpow : 2 ^ (m - 1) ≤ 2 ^ (n - 1) := Nat.pow_le_pow_right (by decide) (by omega)
  exact Nat.add_le_add_left (Nat.mul_le_mul_right 1000 (Nat.mul_le_mul_left 15 hpow)) now

section Reports
variable {agent : PrintAgent} {j : PrintJob} {request : PrintJobResultRequest} {now : Instant} {q : PrintQueue}

/-- On the current attempt of its agent, only the date can stop the report of a failure. -/
theorem putsOff_iff (hids : Table.UniqueOn PrintJob.id q.jobs) (hj : j ∈ q.jobs)
    (hlocation : j.locationId = agent.locationId)
    (hagent : j.claimedByAgentId = some agent.agentId) (hfailed : request.status = .failed)
    (hattempt : request.attemptNumber = j.attemptCount) :
    PutsOff agent j request now q ↔ retryDate j.attemptCount now ≤ dateMax := by
  have hfound : q.jobs.find? (fun p => p.locationId = agent.locationId && p.id = j.id) = some j := by
    refine hids.find?_eq hj (by simp [hlocation]) fun p hp => ?_
    rw [Bool.and_eq_true, decide_eq_true_iff, decide_eq_true_iff] at hp
    exact hp.2
  have hheld : q.jobs.find? (PrintJobRepository.heldBy agent j.id request.attemptNumber) = some j := by
    refine hids.find?_eq hj (by simp [PrintJobRepository.heldBy, hlocation, hagent, hattempt]) fun p hp => ?_
    simp only [PrintJobRepository.heldBy, Bool.and_eq_true, decide_eq_true_eq] at hp
    exact hp.1.1.2
  have hnotPrinted : ¬ (j.status = .printed ∧ request.status = .printed ∧ j.attemptCount = request.attemptNumber) := by
    rintro ⟨-, hprinted, -⟩
    rw [hfailed] at hprinted
    cases hprinted
  have hcurrent : ¬ (j.claimedByAgentId ≠ some agent.agentId ∨ j.attemptCount ≠ request.attemptNumber) := by
    rintro (hother | hother)
    · exact hother hagent
    · exact hother hattempt.symm
  have hrow : (PrintJobRepository.reported request now j).status = .failed ∧
      (PrintJobRepository.reported request now j).nextAttemptAt = some (retryDate j.attemptCount now) := by
    simp [PrintJobRepository.reported, hfailed, hattempt]
  have hbody {job : PrintJob} {q' : PrintQueue} (h : Commits (PrintJobRepository.reportResult agent j.id request now) q q
      (some job) q') : ¬ (request.status = .failed ∧ dateMax < retryDate request.attemptNumber now) := by
    rw [PrintJobRepository.reportResult, commits_look_bind] at h
    simp only [hfound] at h
    rw [if_neg hnotPrinted, if_neg hcurrent, commits_throwIf_bind] at h
    exact h.1
  constructor
  · rintro ⟨job, q', h, -⟩
    have hdate := hbody h
    rw [hattempt] at hdate
    exact not_lt.1 fun hlate => hdate ⟨hfailed, hlate⟩
  · intro hdate
    have hvalid : ¬ (request.status = .failed ∧ dateMax < retryDate request.attemptNumber now) := by
      rintro ⟨-, hlate⟩
      rw [hattempt] at hlate
      exact absurd hdate (not_le.2 hlate)
    have hcommits : ∃ q', Commits (PrintJobRepository.reportResult agent j.id request now) q q
        (some (PrintJobRepository.reported request now j)) q' := by
      rw [PrintJobRepository.reportResult]
      simp only [commits_look_bind, hfound]
      rw [if_neg hnotPrinted, if_neg hcurrent]
      simp only [commits_throwIf, PrintJobRepository.updateReturning, commits_bind, commits_current, commits_write,
        commits_pure, commits_runIf]
      exact ⟨_, (), _, ⟨hvalid, rfl⟩, _, _, ⟨_, _, ⟨hheld, rfl⟩, (), _, rfl, rfl, rfl⟩, (), _, .inl ⟨rfl, rfl⟩, rfl, rfl⟩
    obtain ⟨q', h⟩ := hcommits
    exact ⟨_, q', h, hrow⟩

end Reports

/-- In every state that a run reaches, the failure of the current attempt of a job can be reported exactly when the
date it is put off to does not lie beyond the last `Date`; and the wait does not decrease with the attempts. -/
theorem failure_reported_iff {tenantId : Id} {es : List (Event Call Unit)} {s : Floor}
    (hr : Runs.exec floorStep (Floor.start tenantId) es = some s) {agent : PrintAgent} {j : PrintJob}
    (hj : j ∈ s.db.queue.jobs) (hlocation : j.locationId = agent.locationId)
    (hagent : j.claimedByAgentId = some agent.agentId) {request : PrintJobResultRequest}
    (hfailed : request.status = .failed) (hattempt : request.attemptNumber = j.attemptCount) (now : Instant) :
    (PutsOff agent j request now s.db.queue ↔ now + 15000 * 2 ^ (j.attemptCount - 1) ≤ dateMax) ∧
      ∀ m n, m ≤ n → retryDate m now ≤ retryDate n now := by
  have hstart : Inv FloorInv (fun _ _ => True) (Floor.start tenantId) :=
    ⟨FloorInv.start tenantId, fun _ _ => trivial⟩
  have hi := (rely.run_inv hstart hr).db
  have hdate : retryDate j.attemptCount now = now + 15000 * 2 ^ (j.attemptCount - 1) := by
    rw [retryDate, Nat.mul_right_comm]
  refine ⟨?_, fun m n hle => retryDate_mono now hle⟩
  rw [putsOff_iff hi.ids hj hlocation hagent hfailed hattempt, hdate]

namespace Demo

def notPrinted (attemptNumber : Nat) : PrintJobResultRequest := { status := .failed, attemptNumber }

/-- The ticket is claimed as soon as the lease of the claim before has run out, `n` times. -/
def crashing (n : Nat) : List (Event Call Unit) :=
  [.start (.enqueue ticket true "job" 0), .commit 0] ++
    (List.range n).flatMap fun k => [.start (.claimNext (agent "first") 60 [] (60000 * k)), .commit 0]

end Demo

open Demo

theorem failure_reported_second : ∃ s j, Runs.exec floorStep (Floor.start "tenant") (crashing 2) = some s ∧
    j ∈ s.db.queue.jobs ∧
    (PutsOff (agent "first") j (notPrinted 2) 70000 s.db.queue ↔ 70000 + 15000 * 2 ^ (j.attemptCount - 1) ≤ dateMax) := by
  have hrun : (Runs.exec floorStep (Floor.start "tenant") (crashing 2)).any (fun s => s.db.queue.jobs.map (fun j =>
      (j.locationId, j.claimedByAgentId, j.attemptCount)) = [("location", some "first", 2)]) = true := by decide +kernel
  obtain ⟨s, hr, hjobs⟩ := (Option.any_eq_true _ _).1 hrun
  obtain ⟨j, hj, hcolumns⟩ := List.map_eq_singleton_iff.1 (of_decide_eq_true hjobs)
  simp only [Prod.mk.injEq] at hcolumns
  obtain ⟨hlocation, hagent, hcount⟩ := hcolumns
  have hmem : j ∈ s.db.queue.jobs := by rw [hj]; simp
  exact ⟨s, j, hr, hmem, (failure_reported_iff hr hmem hlocation hagent rfl hcount.symm 70000).1⟩

/-- Forty-one crashes in as many minutes, and the failure cannot be reported any more. -/
theorem failure_unreported : ¬ ∀ (tenantId : Id) (es : List (Event Call Unit)) (s : Floor) (agent : PrintAgent)
    (j : PrintJob) (request : PrintJobResultRequest) (now : Instant),
    Runs.exec floorStep (Floor.start tenantId) es = some s → j ∈ s.db.queue.jobs → j.locationId = agent.locationId →
    j.claimedByAgentId = some agent.agentId → request.status = .failed → request.attemptNumber = j.attemptCount →
    PutsOff agent j request now s.db.queue := by
  intro hlaw
  have hrun : (Runs.exec floorStep (Floor.start "tenant") (crashing 41)).any (fun s => s.db.queue.jobs.map (fun j =>
      (j.id, j.locationId, j.claimedByAgentId, j.attemptCount)) = [("job", "location", some "first", 41)] &&
      (PrintJobRepository.reportResult (agent "first") "job" (notPrinted 41) 2460000 s.db.queue s.db.queue).toOption =
        none) = true := by decide +kernel
  obtain ⟨s, hr, hs⟩ := (Option.any_eq_true _ _).1 hrun
  obtain ⟨hjobs, hfails⟩ := Bool.and_eq_true_iff.1 hs
  obtain ⟨j, hj, hcolumns⟩ := List.map_eq_singleton_iff.1 (of_decide_eq_true hjobs)
  simp only [Prod.mk.injEq] at hcolumns
  obtain ⟨hid, hlocation, hagent, hcount⟩ := hcolumns
  obtain ⟨job, q', hcommits, -⟩ := hlaw "tenant" (crashing 41) s (agent "first") j (notPrinted 41) 2460000 hr
    (by rw [hj]; simp) hlocation hagent rfl hcount.symm
  rw [hid] at hcommits
  have hsome := toOption_eq.2 hcommits
  rw [of_decide_eq_true hfails] at hsome
  cases hsome

end Komanda.Printing
