import Komanda.Proofs.PrintPairing
import Mathlib.Data.List.Dedup

/-!
# Running out of pairing codes

The digest of a code is unique over all pairings that were ever created, and no pairing is ever deleted. So a code that
has been used once, by any tenant, cannot be drawn again, and the codes run out when each of them has been used.
-/

namespace Komanda
open Transaction PrintPairingService

/-! ## The law -/

/-- `code` can be inserted. -/
def FreeCode (digest : String → String) (d : PairingDesk) (code : String) : Prop :=
  ∀ r ∈ d.platform.printAgentPairings, r.2.codeDigest ≠ digest code

/-- The pairings that are pending and unexpired. -/
def PairingDesk.live (d : PairingDesk) (now : Instant) : List (Id × PairingRow) :=
  d.platform.printAgentPairings.filter fun r => r.2.status = .pending && now < r.2.expiresAt

/-- Some code can be inserted whenever fewer than 10000 pairings are live. -/
def CodesLast (digest : String → String) (d : PairingDesk) : Prop :=
  ∀ now, (d.live now).length < 10000 → ∃ n, FreeCode digest d (pairingCode n)

/-- The digests of all codes: 10000, unless two codes share one. -/
def codeDigests (digest : String → String) : List String :=
  ((List.finRange 10000).map fun n => digest (pairingCode n)).dedup

/-! ## Drawing a code -/

section Drawing
variable {digest : String → String} {tenantId : Id} {row : PairingRow} {codes : List (Fin 10000)}
  {v d d' : PairingDesk} {code : Option String}

theorem freeCode_iff {n : Fin 10000} : FreeCode digest d (pairingCode n) ↔
    d.platform.printAgentPairings.any (·.2.codeDigest = digest (pairingCode n)) = false := by
  rw [List.any_eq_false]
  exact forall₂_congr fun r _ => by rw [decide_eq_true_iff]

/-- What the loop comes to. -/
inductive Drawn (digest : String → String) (tenantId : Id) (row : PairingRow) (codes : List (Fin 10000))
    (d : PairingDesk) : Option String → PairingDesk → Prop
  | taken (h : ∀ n ∈ codes, ¬ FreeCode digest d (pairingCode n)) : Drawn digest tenantId row codes d none d
  | inserted (n : Fin 10000) (hn : n ∈ codes) (h : FreeCode digest d (pairingCode n)) :
      Drawn digest tenantId row codes d (some (pairingCode n)) { d with
        platform := insertPairing tenantId { row with codeDigest := digest (pairingCode n) } d.platform }

theorem insertFirst_drawn (digest : String → String) (tenantId : Id) (row : PairingRow) (v d : PairingDesk)
    (codes : List (Fin 10000)) : ∃ code d',
    Commits (insertFirst digest tenantId row codes) v d code d' ∧ Drawn digest tenantId row codes d code d' := by
  induction codes with
  | nil => exact ⟨none, d, commits_pure.2 ⟨rfl, rfl⟩, .taken fun n hn => by cases hn⟩
  | cons n codes ih =>
    by_cases hfree : FreeCode digest d (pairingCode n)
    · refine ⟨_, _, ?_, .inserted n List.mem_cons_self hfree⟩
      rw [insertFirst, commits_current_bind, freeCode_iff.1 hfree]
      exact commits_write_bind.2 (commits_pure.2 ⟨rfl, rfl⟩)
    · obtain ⟨code, d', hcommits, hdrawn⟩ := ih
      refine ⟨code, d', ?_, ?_⟩
      · rw [insertFirst, commits_current_bind, Bool.of_not_eq_false (mt freeCode_iff.2 hfree)]
        exact hcommits
      · cases hdrawn with
        | taken h =>
          refine .taken fun m hm => ?_
          rcases List.mem_cons.1 hm with rfl | hm
          · exact hfree
          · exact h m hm
        | inserted m hm h => exact .inserted m (List.mem_cons_of_mem _ hm) h

theorem insertFirst_cases (h : Commits (insertFirst digest tenantId row codes) v d code d') :
    Drawn digest tenantId row codes d code d' := by
  obtain ⟨code', d'', hcommits, hdrawn⟩ := insertFirst_drawn digest tenantId row v d codes
  rw [Commits, hcommits] at h
  cases h
  exact hdrawn

theorem commits_complete {recordId : Id} {responseStatus : Nat} {response : PairingResponse} :
    Commits (onRecords (Idempotency.complete recordId responseStatus response)) v d () d' ↔
      { d with records := Table.updateWhere (·.id = recordId) (fun r => { r with
          state := .completed, responseStatus := some responseStatus, responseBody := some response }) d.records } = d' := by
  rw [onRecords, commits_zoom]
  constructor
  · rintro ⟨t, ht, hd⟩
    exact commits_write.1 ht ▸ hd
  · intro hd
    exact ⟨_, commits_write.2 rfl, hd⟩

/-- A call that has its key, for a tenant with printing and an active location, goes through exactly if one of its
codes can be inserted. -/
theorem createClaimed_succeeds_iff {settings : TxSettings} {input : CreatePairing} {recordId : Id} {draw : CreateDraw}
    (hentitled : (findIn .tenantEntitlementSnapshots settings tenantId (fun e => !e.superseded)
      v.platform.tenantEntitlementSnapshots).any (·.printing) = true)
    (hlocation : (findIn .tenantLocations settings tenantId (fun l => l.id = input.locationId && l.active)
      v.platform.tenantLocations).isSome = true) :
    Succeeds (createClaimed digest settings tenantId input recordId draw) v d ↔
      ∃ n ∈ draw.codes.toList, FreeCode digest d (pairingCode n) := by
  rw [createClaimed, succeeds_look_bind, succeeds_throwIf_bind, succeeds_look_bind, succeeds_throwIf_bind]
  dsimp only
  rw [Option.isNone_eq_false_iff.2 hlocation]
  simp only [hentitled, not_true_eq_false, not_false_eq_true, true_and, Bool.false_eq_true]
  obtain ⟨code, d', hcommits, hdrawn⟩ := insertFirst_drawn digest tenantId _ v d draw.codes.toList
  rw [succeeds_bind hcommits]
  cases hdrawn with
  | taken h =>
    refine iff_of_false ?_ fun ⟨n, hn, hfree⟩ => h n hn hfree
    rintro ⟨a, s, hc⟩
    obtain ⟨_, hnone, -⟩ := commits_orThrow_bind.1 hc
    cases hnone
  | inserted n hn h =>
    refine iff_of_true ?_ ⟨n, hn, h⟩
    rw [succeeds_bind (commits_orThrow.2 ⟨rfl, rfl⟩), succeeds_bind (commits_complete.2 rfl)]
    exact ⟨_, _, commits_pure.2 ⟨rfl, rfl⟩⟩

end Drawing

/-! ## The rows -/

/-- The digests of all pairings that were ever created. -/
def PairingDesk.digests (d : PairingDesk) : List String := d.platform.printAgentPairings.map (·.2.codeDigest)

/-- No two pairings share a digest, and every digest is one of a code. -/
structure PairingDesk.Keyed (digest : String → String) (d : PairingDesk) : Prop where
  tenants : Table.UniqueOn (·.row.id) d.platform.tenants
  unique : d.digests.Nodup
  codes : ∀ x ∈ d.digests, x ∈ codeDigests digest

section Rows
variable {digest : String → String} {tenantId : Id} {row : PairingRow} {p : Platform} {d d' v : PairingDesk}

theorem modify_tenants {g : Tenancy → Tenancy} (hg : ∀ t, (g t).row = t.row) :
    (p.modify tenantId g).tenants.map (·.row.id) = p.tenants.map (·.row.id) :=
  Table.map_updateWhere fun t _ => congrArg TenantRow.id (hg t)

/-- A row is inserted once, if its tenant is there. -/
theorem insertPairing_perm (tenantId : Id) (row : PairingRow) (hid : Table.UniqueOn (·.row.id) p.tenants) :
    (insertPairing tenantId row p).printAgentPairings.Perm ((tenantId, row) :: p.printAgentPairings) ∨
      (insertPairing tenantId row p).printAgentPairings = p.printAgentPairings := by
  obtain ⟨tenants⟩ := p
  induction tenants with
  | nil => exact .inr rfl
  | cons t tenants ih =>
    rw [Table.UniqueOn, List.map_cons, List.nodup_cons] at hid
    have hsplit (u : Tenancy) (us : List Tenancy) : Platform.printAgentPairings ⟨u :: us⟩ =
        (u.pairings.map fun r => (u.row.id, r)) ++ Platform.printAgentPairings ⟨us⟩ := rfl
    by_cases ht : t.row.id = tenantId
    · have hrest : Table.updateWhere (fun u : Tenancy => u.row.id = tenantId)
          (fun u => { u with pairings := u.pairings ++ [row] }) tenants = tenants := by
        refine Table.updateWhere_eq_self fun u hu => decide_eq_false fun hsame => hid.1 ?_
        rw [ht, ← hsame]
        exact List.mem_map_of_mem hu
      have hhead : insertPairing tenantId row ⟨t :: tenants⟩ =
          ⟨{ t with pairings := t.pairings ++ [row] } :: tenants⟩ := by
        show (⟨(if _ then _ else _) :: Table.updateWhere _ _ tenants⟩ : Platform) = _
        rw [if_pos (decide_eq_true ht), hrest]
      rw [hhead, hsplit, hsplit, List.map_append, List.append_assoc, ht]
      exact .inl List.perm_middle
    · have hhead : insertPairing tenantId row ⟨t :: tenants⟩ =
          ⟨t :: (insertPairing tenantId row ⟨tenants⟩).tenants⟩ := by
        show (⟨(if _ then _ else _) :: Table.updateWhere _ _ tenants⟩ : Platform) = _
        rw [if_neg (by simpa using ht)]
        rfl
      rw [hhead, hsplit, hsplit]
      rcases ih hid.2 with hperm | heq
      · exact .inl ((hperm.append_left _).trans List.perm_middle)
      · exact .inr (congrArg _ heq)

theorem expirePairing_digests {pairingId : Id} {now : Instant} :
    (expirePairing tenantId pairingId now p).printAgentPairings.map (·.2.codeDigest) =
      p.printAgentPairings.map (·.2.codeDigest) := by
  refine Platform.map_table_modify fun t => ?_
  exact Table.map_updateWhere fun r _ => rfl

theorem PairingDesk.Keyed.same (h : d.Keyed digest)
    (htenants : d'.platform.tenants.map (·.row.id) = d.platform.tenants.map (·.row.id))
    (hdigests : d'.digests = d.digests) : d'.Keyed digest := by
  refine ⟨?_, hdigests ▸ h.unique, hdigests ▸ h.codes⟩
  rw [Table.UniqueOn, htenants]
  exact h.tenants

theorem PairingDesk.Keyed.insert (h : d.Keyed digest) {n : Fin 10000} (hfree : FreeCode digest d (pairingCode n))
    (hrow : row.codeDigest = digest (pairingCode n)) (hd : d'.platform = insertPairing tenantId row d.platform) :
    d'.Keyed digest := by
  have htenants : d'.platform.tenants.map (·.row.id) = d.platform.tenants.map (·.row.id) := by
    rw [hd]
    exact modify_tenants fun _ => rfl
  rcases insertPairing_perm tenantId row h.tenants with hperm | heq
  · have hdigests : d'.digests.Perm (digest (pairingCode n) :: d.digests) := by
      rw [PairingDesk.digests, hd, ← hrow]
      exact hperm.map _
    refine ⟨?_, hdigests.nodup_iff.2 (List.nodup_cons.2 ⟨fun hmem => ?_, h.unique⟩), fun x hx => ?_⟩
    · rw [Table.UniqueOn, htenants]
      exact h.tenants
    · obtain ⟨r, hr, hsame⟩ := List.mem_map.1 hmem
      exact hfree r hr hsame
    · rcases List.mem_cons.1 (hdigests.mem_iff.1 hx) with rfl | hx
      · exact List.mem_dedup.2 (List.mem_map_of_mem (List.mem_finRange n))
      · exact h.codes x hx
  · exact h.same htenants (by rw [PairingDesk.digests, hd, heq, PairingDesk.digests])

/-- `create` after its claim inserts a pairing with one of its codes. -/
theorem createClaimed_cases {settings : TxSettings} {input : CreatePairing} {recordId : Id} {draw : CreateDraw}
    {response : PairingResponse}
    (h : Commits (createClaimed digest settings tenantId input recordId draw) v d response d') :
    ∃ n ∈ draw.codes.toList, FreeCode digest d (pairingCode n) ∧
      d' = { platform := insertPairing tenantId
               { id := draw.pairingId, locationId := input.locationId, codeDigest := digest (pairingCode n),
                 status := .pending, attempts := 0, expiresAt := draw.now + 10 * 60 * 1000, createdAt := draw.now,
                 claimedAgentId := none } d.platform
             records := Table.updateWhere (·.id = recordId) (fun r => { r with
               state := .completed, responseStatus := some 201, responseBody := some response }) d.records } := by
  unfold createClaimed at h
  rw [commits_look_bind, commits_throwIf_bind, commits_look_bind, commits_throwIf_bind] at h
  obtain ⟨code, d₂, hdrawn, h⟩ := commits_bind.1 h.2.2
  obtain ⟨_, hcode, h⟩ := commits_orThrow_bind.1 h
  obtain ⟨_, d₃, hcomplete, h⟩ := commits_bind.1 h
  obtain ⟨rfl, rfl⟩ := commits_pure.1 h
  rw [← commits_complete.1 hcomplete]
  cases insertFirst_cases hdrawn with
  | taken => cases hcode
  | inserted n hn hfree => exact ⟨n, hn, hfree, rfl⟩

/-- `create` leaves the platform as it is, or inserts a pairing with a code that can be inserted. -/
theorem create_platform {actor : Actor} {input : CreatePairing} {idempotencyKey : String} {draw : CreateDraw}
    {answer : Option PairingResponse}
    (h : Commits (create digest actor tenantId input idempotencyKey draw) v d answer d') :
    d'.platform = d.platform ∨ ∃ n row, FreeCode digest d (pairingCode n) ∧
      row.codeDigest = digest (pairingCode n) ∧ d'.platform = insertPairing tenantId row d.platform := by
  unfold create at h
  obtain ⟨claim, d₁, hclaim, h⟩ := commits_bind.1 h
  obtain ⟨records, -, rfl⟩ := commits_zoom.1 hclaim
  cases claim with
  | replay _ body =>
    obtain ⟨-, rfl⟩ := commits_pure.1 h
    exact .inl rfl
  | claimed recordId _ =>
    obtain ⟨response, h, -⟩ := commits_map.1 h
    obtain ⟨n, -, hfree, rfl⟩ := createClaimed_cases h
    exact .inr ⟨n, _, hfree, rfl, rfl⟩

theorem PairingDesk.Keyed.settle (h : d.Keyed digest) (e : PairingStep) : (d.settle digest e).Keyed digest := by
  unfold PairingDesk.settle
  split
  · next answer d' hbody =>
    have hcommits : Commits (e.call.body digest) e.view d answer d' := hbody
    obtain ⟨call, view⟩ := e
    cases call with
    | create actor tenantId input idempotencyKey draw =>
      obtain ⟨_, hcreate, -⟩ := commits_map.1 hcommits
      rcases create_platform hcreate with heq | ⟨n, row, hfree, hrow, hd⟩
      · exact h.same (by rw [heq]) (by rw [PairingDesk.digests, heq, PairingDesk.digests])
      · exact h.insert hfree hrow hd
    | status actor tenantId pairingId now =>
      obtain ⟨_, hstatus, -⟩ := commits_map.1 hcommits
      obtain ⟨_, _, hwrite, hstatus⟩ := commits_bind.1 hstatus
      obtain ⟨_, _, hcurrent, hstatus⟩ := commits_bind.1 hstatus
      obtain ⟨_, -, hstatus⟩ := commits_orThrow_bind.1 hstatus
      obtain ⟨-, rfl⟩ := commits_pure.1 hstatus
      obtain ⟨-, rfl⟩ := commits_current.1 hcurrent
      rw [← commits_write.1 hwrite]
      exact h.same (modify_tenants fun _ => rfl) expirePairing_digests
    | claim code name draw => exact absurd hbody claim_body_throws
  · exact h

theorem PairingDesk.Keyed.run (h : d.Keyed digest) (es : List PairingStep) :
    (es.foldl (PairingDesk.settle digest) d).Keyed digest := by
  induction es generalizing d with
  | nil => exact h
  | cons e es ih => exact ih (h.settle e)

theorem freeCode_iff_not_mem {code : String} : FreeCode digest d code ↔ digest code ∉ d.digests := by
  constructor
  · intro h hmem
    obtain ⟨r, hr, hsame⟩ := List.mem_map.1 hmem
    exact h r hr hsame
  · intro h r hr hsame
    exact h (hsame ▸ List.mem_map_of_mem hr)

/-- A code can be inserted as long as there are fewer pairings than digests. -/
theorem PairingDesk.Keyed.freeCode_iff (h : d.Keyed digest) :
    (∃ n, FreeCode digest d (pairingCode n)) ↔
      d.platform.printAgentPairings.length < (codeDigests digest).length := by
  have hlength : d.digests.length = d.platform.printAgentPairings.length := List.length_map _
  rw [← hlength]
  constructor
  · rintro ⟨n, hfree⟩
    rw [freeCode_iff_not_mem] at hfree
    have hcode : digest (pairingCode n) ∈ codeDigests digest :=
      List.mem_dedup.2 (List.mem_map_of_mem (List.mem_finRange n))
    have hsub : digest (pairingCode n) :: d.digests ⊆ codeDigests digest := by
      intro x hx
      rcases List.mem_cons.1 hx with rfl | hx
      · exact hcode
      · exact h.codes x hx
    exact (List.subperm_of_subset (List.nodup_cons.2 ⟨hfree, h.unique⟩) hsub).length_le
  · intro hlt
    by_contra hnone
    have hsub : codeDigests digest ⊆ d.digests := by
      intro x hx
      obtain ⟨n, -, rfl⟩ := List.mem_map.1 (List.mem_dedup.1 hx)
      by_contra hmem
      exact hnone ⟨n, freeCode_iff_not_mem.2 hmem⟩
    have hle := (List.subperm_of_subset (List.nodup_dedup _) hsub).length_le
    exact absurd hlt (Nat.not_lt_of_le hle)

/-- There comes a time when no pairing is live any more. -/
theorem exists_live_eq_nil (d : PairingDesk) : ∃ now, d.live now = [] := by
  have hlast (rows : List (Id × PairingRow)) : ∃ now, ∀ r ∈ rows, r.2.expiresAt ≤ now := by
    induction rows with
    | nil => exact ⟨0, fun r hr => by cases hr⟩
    | cons r rows ih =>
      obtain ⟨now, hnow⟩ := ih
      refine ⟨max r.2.expiresAt now, fun q hq => ?_⟩
      rcases List.mem_cons.1 hq with rfl | hq
      · exact Nat.le_max_left _ _
      · exact (hnow q hq).trans (Nat.le_max_right _ _)
  obtain ⟨now, hnow⟩ := hlast d.platform.printAgentPairings
  refine ⟨now, List.filter_eq_nil_iff.2 fun r hr hlive => ?_⟩
  exact absurd (of_decide_eq_true (Bool.and_eq_true_iff.1 hlive).2) (Nat.not_lt_of_le (hnow r hr))

/-- After any history of calls on a platform that had no pairings, codes can be drawn as they should exactly if fewer
pairings were ever created than there are digests of codes. -/
theorem codes_last_iff (htenants : Table.UniqueOn (·.row.id) d.platform.tenants)
    (hnone : d.platform.printAgentPairings = []) (es : List PairingStep) :
    CodesLast digest (es.foldl (PairingDesk.settle digest) d) ↔
      (es.foldl (PairingDesk.settle digest) d).platform.printAgentPairings.length < (codeDigests digest).length := by
  have hfresh : d.Keyed digest := by
    have hdigests : d.digests = [] := by rw [PairingDesk.digests, hnone, List.map_nil]
    refine ⟨htenants, hdigests ▸ List.nodup_nil, fun x hx => ?_⟩
    rw [hdigests] at hx
    cases hx
  rw [← (hfresh.run es).freeCode_iff]
  constructor
  · intro hlast
    obtain ⟨now, hlive⟩ := exists_live_eq_nil (es.foldl (PairingDesk.settle digest) d)
    exact hlast now (by rw [hlive]; decide)
  · intro hfree now _
    exact hfree

end Rows

/-! ## The codes -/

section Codes
variable {n m : Fin 10000} {code : String}

/-- A number on a fixed width: digits, zeros first, that read as the number. -/
theorem padded_digits (width n : Nat) : ((Nat.toDigits 10 n).leftpad width '0').all Char.isDigit = true := by
  rw [List.leftpad, List.all_append, Bool.and_eq_true]
  refine ⟨List.all_replicate.trans (by simp), ?_⟩
  exact List.all_eq_true.2 fun c hc => Nat.isDigit_of_mem_toDigits (by decide) (by decide) hc

theorem padded_length {width n : Nat} (hwidth : 0 < width) (h : n < 10 ^ width) :
    ((Nat.toDigits 10 n).leftpad width '0').length = width := by
  rw [List.length_leftpad]
  exact max_eq_left ((Nat.length_toDigits_le_iff (by decide) hwidth).2 h)

theorem padded_value (width n : Nat) : Nat.ofDigitChars 10 ((Nat.toDigits 10 n).leftpad width '0') 0 = n := by
  rw [List.leftpad, Nat.ofDigitChars_append, Nat.ofDigitChars_replicate_zero, Nat.mul_zero,
    Nat.ofDigitChars_ten_toDigits]

theorem pairingCode_toList (n : Fin 10000) : (pairingCode n).toList = (Nat.toDigits 10 n).leftpad 4 '0' := by
  have hlist : (toString n.val).toList = Nat.toDigits 10 n := Nat.toList_repr
  rw [pairingCode, String.toList_ofList, hlist]

/-- `claimSchema` accepts every code that is created. -/
theorem isCode_pairingCode (n : Fin 10000) : isCode (pairingCode n) = true := by
  rw [isCode, pairingCode_toList, Bool.and_eq_true, decide_eq_true_iff]
  exact ⟨padded_length (by decide) n.isLt, padded_digits 4 n⟩

theorem pairingCode_injective (h : pairingCode m = pairingCode n) : m = n := by
  refine Fin.ext ?_
  rw [← padded_value 4 m, ← padded_value 4 n, ← pairingCode_toList, ← pairingCode_toList, h]

theorem trim_digits {text : String} (h : text.toList.all Char.isDigit = true) : Text.trim text = text :=
  Text.trim_eq_self fun c hc => Text.not_isSpace_of_digit (List.all_eq_true.1 h c hc)

/-- A code is an idempotency key as it stands. -/
theorem trim_code (h : isCode code = true) : Text.trim code = code := by
  rw [isCode, Bool.and_eq_true] at h
  exact trim_digits h.2

theorem key_code (h : isCode code = true) : ¬ (code = "" ∨ Text.length code > 255) := by
  rw [isCode, Bool.and_eq_true, decide_eq_true_iff] at h
  rintro (rfl | hlong)
  · exact absurd h.1 (by decide)
  · have hunits : (code.toList.map fun c => if c.toNat < 0x10000 then 1 else 2) =
        List.replicate code.toList.length 1 := by
      refine List.map_eq_replicate_iff.2 fun c hc => if_pos ?_
      have hrange := Text.digit_range (List.all_eq_true.1 h.2 c hc)
      omega
    rw [Text.length, hunits, h.1] at hlong
    exact absurd hlong (by decide)

end Codes

namespace Demo

def dinerWith (rows : List PairingRow) : Platform := { tenants := [{ openDiner with pairings := rows }] }

/-- The diner before its first pairing. -/
def quietDesk : PairingDesk := { platform := dinerWith [] }

def drawOf (n : Fin 10000) : CreateDraw where
  now := 0
  recordId := pairingCode n
  pairingId := pairingCode n
  codes := Vector.replicate 5 n

/-- A pairing is created whose code comes up as `n`. -/
def pair (n : Fin 10000) : PairingStep where
  call := .create (.user "owner" .owner) "tenant" { locationId := "location" } (pairingCode n) (drawOf n)
  view := quietDesk

/-- The row of this pairing. -/
def rowOf (n : Fin 10000) : PairingRow where
  id := pairingCode n
  locationId := "location"
  codeDigest := pairingCode n
  status := .pending
  attempts := 0
  expiresAt := (drawOf n).now + 10 * 60 * 1000
  createdAt := (drawOf n).now
  claimedAgentId := none

/-- The diner after it has created a pairing for each of these codes. -/
structure CodesGone (done : List (Fin 10000)) (d : PairingDesk) : Prop where
  pairings : ∃ rows, d.platform = dinerWith rows ∧
    rows.map (·.codeDigest) = done.map pairingCode ∧ ∀ r ∈ rows, r.expiresAt ≤ 600000
  records : ∀ r ∈ d.records, ∃ m ∈ done, r.id = pairingCode m ∧ r.idempotencyKey = pairingCode m

end Demo

open Demo

theorem codes_last_quiet : Table.UniqueOn (·.row.id) quietDesk.platform.tenants ∧
    quietDesk.platform.printAgentPairings = [] ∧
    (CodesLast id ([pair 7].foldl (PairingDesk.settle id) quietDesk) ↔
      ([pair 7].foldl (PairingDesk.settle id) quietDesk).platform.printAgentPairings.length <
        (codeDigests id).length) := by
  have htenants : Table.UniqueOn (fun t : Tenancy => t.row.id) quietDesk.platform.tenants := by decide
  have hnone : quietDesk.platform.printAgentPairings = [] := rfl
  exact ⟨htenants, hnone, codes_last_iff htenants hnone [pair 7]⟩

section History
variable {done : List (Fin 10000)} {d d' : PairingDesk} {n : Fin 10000} {rows : List PairingRow}

theorem dinerWith_pairings : (dinerWith rows).printAgentPairings = rows.map fun r => ("tenant", r) := List.append_nil _

theorem Demo.CodesGone.free (h : CodesGone done d) (hn : n ∉ done) : FreeCode id d (pairingCode n) := by
  obtain ⟨rows, hplatform, hdigests, -⟩ := h.pairings
  intro r hr hsame
  rw [hplatform, dinerWith_pairings] at hr
  obtain ⟨q, hq, rfl⟩ := List.mem_map.1 hr
  have hmem : q.codeDigest ∈ done.map pairingCode := hdigests ▸ List.mem_map_of_mem hq
  obtain ⟨m, hm, hcode⟩ := List.mem_map.1 hmem
  exact hn (pairingCode_injective (hcode.trans hsame) ▸ hm)

/-- A key that no record has is claimed. -/
theorem claim_fresh {input : CreatePairing} (h : CodesGone done d) (hn : n ∉ done) :
    Commits (onRecords (Idempotency.claim id (pairingClaim "tenant" input (pairingCode n)) (pairingCode n) 0))
      quietDesk d (.claimed (pairingCode n) input) { d with records :=
        d.records ++ [(pairingClaim "tenant" input (pairingCode n)).record id (pairingCode n) 0] } := by
  have htrim : Text.trim (pairingCode n) = pairingCode n := trim_code (isCode_pairingCode n)
  refine commits_zoom.2 ⟨_, ?_, rfl⟩
  rw [Idempotency.claim]
  refine commits_throwIf_bind.2 ⟨?_, commits_current_bind.2 ?_⟩
  · show ¬ (Text.trim (pairingCode n) = "" ∨ Text.length (Text.trim (pairingCode n)) > 255)
    rw [htrim]
    exact key_code (isCode_pairingCode n)
  · have hnone : d.records.find? (Idempotency.conflicts ((pairingClaim "tenant" input (pairingCode n)).record id
        (pairingCode n) 0)) = none := by
      refine List.find?_eq_none.2 fun r hr hconflict => ?_
      obtain ⟨m, hm, hid, hkey⟩ := h.records r hr
      have hother : pairingCode m ≠ pairingCode n := fun hsame => hn (pairingCode_injective hsame ▸ hm)
      rcases Bool.or_eq_true_iff.1 hconflict with hid' | hidentity
      · exact hother (hid.symm.trans (of_decide_eq_true hid'))
      · have hkey' := of_decide_eq_true (Bool.and_eq_true_iff.1 hidentity).2
        exact hother (hkey.symm.trans (hkey'.trans htrim))
    rw [hnone]
    exact commits_write_bind.2 (commits_pure.2 ⟨rfl, rfl⟩)

theorem Demo.CodesGone.step (h : CodesGone done d) (hn : n ∉ done) : CodesGone (done ++ [n]) (d.settle id (pair n)) := by
  have hinsertable := h.free hn
  obtain ⟨rows, hplatform, hdigests, hexpires⟩ := h.pairings
  let record := (pairingClaim "tenant" { locationId := "location" } (pairingCode n)).record
    (β := PairingResponse) id (pairingCode n) 0
  have hsucceeds : Succeeds (createClaimed id (tenantSettings "tenant" (.user "owner" .owner)) "tenant"
      { locationId := "location" } (pairingCode n) (drawOf n)) quietDesk
      { d with records := d.records ++ [record] } := by
    refine (createClaimed_succeeds_iff (by decide) (by decide)).2 ⟨n, ?_, hinsertable⟩
    exact Vector.mem_toList_iff.2 (Vector.mem_replicate.2 ⟨by decide, rfl⟩)
  obtain ⟨response, d', hcreated⟩ := hsucceeds
  have hbody : Commits ((pair n).call.body id) quietDesk d (.created (some response)) d' :=
    commits_map.2 ⟨_, commits_bind.2 ⟨_, _, claim_fresh h hn, commits_map.2 ⟨_, hcreated, rfl⟩⟩, rfl⟩
  have hsettle : d.settle id (pair n) = d' := by
    rw [PairingDesk.settle, show (pair n).call.body id (pair n).view d = _ from hbody]
  rw [hsettle]
  obtain ⟨m, hm, -, rfl⟩ := createClaimed_cases hcreated
  obtain rfl : m = n := (Vector.mem_replicate.1 (Vector.mem_toList_iff.1 hm)).2
  refine ⟨⟨rows ++ [rowOf m], ?_, ?_, ?_⟩, ?_⟩
  · dsimp only
    rw [hplatform]
    rfl
  · rw [List.map_append, List.map_append, hdigests]
    rfl
  · intro r hr
    rcases List.mem_append.1 hr with hr | hr
    · exact hexpires r hr
    · obtain rfl := List.mem_singleton.1 hr
      show 0 + 10 * 60 * 1000 ≤ 600000
      decide
  · intro r hr
    have hcolumns : ∃ q ∈ d.records ++ [record], q.id = r.id ∧ q.idempotencyKey = r.idempotencyKey := by
      rcases Table.mem_updateWhere_cases hr with ⟨hr, -⟩ | ⟨q, hq, -, rfl⟩
      · exact ⟨r, hr, rfl, rfl⟩
      · exact ⟨q, hq, rfl, rfl⟩
    obtain ⟨q, hq, hid, hkey⟩ := hcolumns
    rw [← hid, ← hkey]
    rcases List.mem_append.1 hq with hq | hq
    · obtain ⟨k, hk, hid, hkey⟩ := h.records q hq
      exact ⟨k, List.mem_append_left _ hk, hid, hkey⟩
    · obtain rfl := List.mem_singleton.1 hq
      exact ⟨m, List.mem_append_right _ List.mem_cons_self, rfl, trim_code (isCode_pairingCode m)⟩

theorem Demo.CodesGone.run (h : CodesGone done d) (codes : List (Fin 10000)) (hn : (done ++ codes).Nodup) :
    CodesGone (done ++ codes) ((codes.map pair).foldl (PairingDesk.settle id) d) := by
  induction codes generalizing done d with
  | nil =>
    rw [List.append_nil]
    exact h
  | cons n codes ih =>
    have hfresh : n ∉ done := fun hmem =>
      (List.nodup_append.1 hn).2.2 n hmem n List.mem_cons_self rfl
    have hsplit : done ++ n :: codes = done ++ [n] ++ codes := by rw [List.append_assoc, List.singleton_append]
    rw [hsplit, List.map_cons, List.foldl_cons]
    rw [hsplit] at hn
    exact ih (h.step hfresh) hn

end History

/-- After 10000 pairings, one for each code, none is live ten minutes later, and no code can be drawn. -/
theorem codes_run_out : ¬ ∀ (digest : String → String) (d : PairingDesk) (es : List PairingStep),
    (∀ m n, digest (pairingCode m) = digest (pairingCode n) → m = n) →
    Table.UniqueOn (·.row.id) d.platform.tenants → d.platform.printAgentPairings = [] →
    CodesLast digest (es.foldl (PairingDesk.settle digest) d) := by
  intro hlaw
  have hempty : CodesGone [] quietDesk :=
    ⟨⟨[], rfl, rfl, fun r hr => by cases hr⟩, fun r hr => by cases hr⟩
  have hnodup : (([] : List (Fin 10000)) ++ List.finRange 10000).Nodup := by
    rw [List.nil_append]
    exact List.nodup_finRange 10000
  have hstocked := hempty.run (List.finRange 10000) hnodup
  have hlast := hlaw id quietDesk ((List.finRange 10000).map pair) (fun m n => pairingCode_injective)
    (by decide) rfl
  rw [List.nil_append] at hstocked
  revert hstocked hlast
  generalize ((List.finRange 10000).map pair).foldl (PairingDesk.settle id) quietDesk = d
  intro hstocked hlast
  obtain ⟨rows, hplatform, hdigests, hexpires⟩ := hstocked.pairings
  have hlive : d.live 600000 = [] := by
    refine List.filter_eq_nil_iff.2 fun r hr hlive => ?_
    rw [hplatform, dinerWith_pairings] at hr
    obtain ⟨q, hq, rfl⟩ := List.mem_map.1 hr
    have hlt := of_decide_eq_true (Bool.and_eq_true_iff.1 hlive).2
    exact absurd hlt (Nat.not_lt_of_le (hexpires q hq))
  have hfew : (d.live 600000).length < 10000 := by
    rw [hlive]
    exact Nat.succ_pos _
  obtain ⟨n, hfree⟩ := hlast 600000 hfew
  have hused : pairingCode n ∈ rows.map (·.codeDigest) := by
    rw [hdigests]
    exact List.mem_map_of_mem (List.mem_finRange n)
  obtain ⟨q, hq, hcode⟩ := List.mem_map.1 hused
  refine hfree ("tenant", q) ?_ hcode
  rw [hplatform, dinerWith_pairings]
  exact List.mem_map_of_mem hq

end Komanda
