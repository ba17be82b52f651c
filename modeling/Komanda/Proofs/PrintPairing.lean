import Komanda.PrintPairing
import Komanda.Proofs.ServiceLookups

/-!
# Guessing pairing codes

A call of `claim` with a wrong code writes the attempt and throws, so the write is rolled back with the call: no attempt
is ever counted.
-/

namespace Komanda
open Transaction PrintPairingService

/-! ## The law -/

/-- A call with a code that is wrong for a pairing which is pending. -/
def wrongTry (digest : String → String) (id : Id) (v : PairingDesk × PairingStep) : Bool :=
  match v.2.call with
  | .claim code _ _ => v.1.platform.printAgentPairings.any fun r =>
      r.2.id = id && r.2.status = .pending && r.2.codeDigest ≠ digest code
  | _ => false

/-- A call makes an agent out of a pairing. -/
def Yields (digest : String → String) (id : Id) (v : PairingDesk × PairingStep) : Prop :=
  ∃ code name draw answer d', v.2.call = .claim code name draw ∧
    v.2.call.body digest v.2.view v.1 = .ok (answer, d') ∧
    ∃ r ∈ (pendingPairings v.1.platform).find? fun r => digest code = r.2.codeDigest, r.2.id = id

/-- A call is rejected for its code, and the youngest pending pairing has to answer for it. -/
def Rejects (digest : String → String) (pairing : Id × PairingRow) (v : PairingDesk × PairingStep) : Prop :=
  ∃ code name draw, v.2.call = .claim code name draw ∧ isCode code = true ∧ textWithin 1 120 name = true ∧
    (∀ r ∈ pendingPairings v.1.platform, digest code ≠ r.2.codeDigest) ∧
    (pendingPairings v.1.platform).head? = some pairing ∧ draw.now < pairing.2.expiresAt ∧ pairing.2.attempts < 5

structure ResistsGuessing (digest : String → String) (visits : List (PairingDesk × PairingStep)) : Prop where
  limited : ∀ before v after, visits = before ++ v :: after → ∀ id, Yields digest id v →
    (before.filter (wrongTry digest id)).length < 5
  recorded : ∀ v ∈ visits, ∀ pairing, Rejects digest pairing v →
    ∀ r ∈ (v.1.settle digest v.2).platform.printAgentPairings, r.2.id = pairing.2.id →
      r.2.attempts = pairing.2.attempts + 1
  once : visits.Pairwise fun v w => ∀ id, ¬ (Yields digest id v ∧ Yields digest id w)

section Guessing
variable {digest : String → String} {d : PairingDesk} {code name : String} {draw : PairingDraw}
  {v : PairingDesk × PairingStep}

theorem mem_pendingPairings {p : Platform} {r : Id × PairingRow} :
    r ∈ pendingPairings p ↔ r ∈ p.printAgentPairings ∧ r.2.status = .pending := by
  rw [pendingPairings, List.mem_insertionSort, select_of_service rfl, List.mem_filter, decide_eq_true_eq]

/-- `claim` throws, whatever it finds. -/
theorem claim_throws {p q p' : Platform} {answer : ClaimResponse} :
    ¬ Commits (claim digest code name draw) p q answer p' := by
  intro h
  unfold claim at h
  obtain ⟨-, h⟩ := commits_throwIf_bind.1 h
  obtain ⟨rows, s₁, -, h⟩ := commits_bind.1 h
  dsimp only at h
  split at h
  · obtain ⟨_, _, -, h⟩ := commits_bind.1 h
    exact commits_throw.1 h
  · obtain ⟨snapshot, s₂, hsnapshot, h⟩ := commits_bind.1 h
    obtain ⟨rfl, -⟩ := commits_look.1 hsnapshot
    rw [entitlement_eq_none] at h
    obtain ⟨hentitled, -⟩ := commits_throwIf_bind.1 h
    exact hentitled (by decide)

/-- The database is what it was after a call of `claim`. -/
theorem claim_body_throws {view d' : PairingDesk} {answer : PairingAnswer} :
    (PairingCall.claim code name draw).body digest view d ≠ .ok (answer, d') := by
  intro h
  have hcommits : Commits ((PairingCall.claim code name draw).body digest) view d answer d' := h
  obtain ⟨response, hzoom, -⟩ := commits_map.1 hcommits
  obtain ⟨p', hclaim, -⟩ := commits_zoom.1 hzoom
  exact claim_throws hclaim

theorem settle_claim (view : PairingDesk) : d.settle digest ⟨.claim code name draw, view⟩ = d := by
  unfold PairingDesk.settle
  split
  · next h => exact absurd h claim_body_throws
  · rfl

theorem not_yields {id : Id} : ¬ Yields digest id v := by
  rintro ⟨code, name, draw, answer, d', hcall, hbody, -⟩
  rw [hcall] at hbody
  exact claim_body_throws hbody

/-- A rejected attempt is never recorded. -/
theorem rejects_unrecorded {pairing : Id × PairingRow} (h : Rejects digest pairing v) :
    pairing ∈ (v.1.settle digest v.2).platform.printAgentPairings := by
  obtain ⟨code, name, draw, hcall, -, -, -, hhead, -⟩ := h
  have hsettle : v.1.settle digest v.2 = v.1 := by
    have hstep : v.2 = ⟨.claim code name draw, v.2.view⟩ := by rw [← hcall]
    rw [hstep, settle_claim]
  rw [hsettle]
  exact (mem_pendingPairings.1 (List.mem_of_mem_head? hhead)).1

/-- Guessing is resisted in a run exactly if none of its calls is rejected for its code while a pairing has to answer
for it. -/
theorem resists_guessing_iff (digest : String → String) (d : PairingDesk) (es : List PairingStep) :
    ResistsGuessing digest (d.visits digest es) ↔
      ∀ v ∈ d.visits digest es, ∀ pairing, ¬ Rejects digest pairing v := by
  constructor
  · intro h v hv pairing hrejects
    have hattempts := h.recorded v hv pairing hrejects pairing (rejects_unrecorded hrejects) rfl
    exact absurd hattempts (Nat.ne_of_lt (Nat.lt_succ_self _))
  · intro h
    refine ⟨fun before v after _ id hyields => ?_, fun v hv pairing hrejects => ?_, ?_⟩
    · exact absurd hyields not_yields
    · exact absurd hrejects (h v hv pairing)
    · refine List.pairwise_of_forall fun v w id hyields => ?_
      exact not_yields hyields.1

end Guessing

namespace Demo

def frontDesk : PairingDesk := { platform := city }

/-- Someone types a code that is not the one on the screen. -/
def guess : PairingStep := { call := .claim "0000" "Kitchen" printerDraw, view := frontDesk }

end Demo

open Demo

/-- The pairing still has no attempts after the guess. -/
theorem guess_unrecorded : ¬ ∀ (digest : String → String) (d : PairingDesk) (es : List PairingStep),
    ResistsGuessing digest (d.visits digest es) := by
  intro hlaw
  have hrejects : Rejects id ("tenant", printerPairing) (frontDesk, guess) := by
    refine ⟨"0000", "Kitchen", printerDraw, rfl, by decide, by decide, fun r hr => ?_, rfl, by decide, by decide⟩
    obtain ⟨hr, -⟩ := mem_pendingPairings.1 hr
    obtain rfl := List.mem_singleton.1 hr
    decide
  have hrecorded := (hlaw id frontDesk [guess]).recorded (frontDesk, guess) List.mem_cons_self _ hrejects _
    (rejects_unrecorded hrejects) rfl
  exact absurd hrecorded (by decide)

end Komanda
