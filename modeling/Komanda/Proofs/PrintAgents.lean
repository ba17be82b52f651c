import Komanda.PrintAgents
import Komanda.Proofs.IdempotencyRuns
import Komanda.Proofs.ServiceLookups

/-!
# Whom a print agent's token opens the door to

The key of an enrollment is claimed and completed in one transaction, so every record that is committed is completed
(`AgentInv.completed`): a key never makes a second agent, and a claim is never taken over. The rows are the enrollments
that have been answered, and a row is active as long as nobody has confirmed its revocation.
-/

namespace Komanda
open Transaction ReadCommitted Runs PrintAgentService

/-! ## Tokens -/

theorem isHexDigit_hexDigit : ∀ n : Fin 16, isHexDigit (hexDigit n) = true := by decide

theorem not_isSpace_hexDigit : ∀ n : Fin 16, Text.isSpace (hexDigit n) = false := by decide

theorem isDot_base64urlDigit : ∀ n : Fin 64, isDot (base64urlDigit n) = true := by decide

theorem not_isSpace_base64urlDigit : ∀ n : Fin 64, Text.isSpace (base64urlDigit n) = false := by decide

section Tokens
variable (digestSecret : String → String) (draw : AgentDraw)

theorem toList_token : (makePrintAgentToken digestSecret draw).token.toList =
    'k' :: 'p' :: '_' :: (draw.hex.toList.map hexDigit ++ '_' :: draw.base64url.toList.map base64urlDigit) := by
  simp [makePrintAgentToken]

theorem trim_token : Text.trim (makePrintAgentToken digestSecret draw).token =
    (makePrintAgentToken digestSecret draw).token := by
  refine Text.trim_eq_self fun c hc => ?_
  rw [toList_token digestSecret draw] at hc
  simp only [List.mem_cons, List.mem_append, List.mem_map] at hc
  rcases hc with rfl | rfl | rfl | ⟨n, -, rfl⟩ | rfl | ⟨n, -, rfl⟩
  · rfl
  · rfl
  · rfl
  · exact not_isSpace_hexDigit n
  · rfl
  · exact not_isSpace_base64urlDigit n

/-- A token is read back as it was made. -/
theorem parseToken_made : parseToken (makePrintAgentToken digestSecret draw).token =
    some ((makePrintAgentToken digestSecret draw).tokenPrefix, (makePrintAgentToken digestSecret draw).secret) := by
  have hlength : (draw.hex.toList.map hexDigit).length = 16 := by simp
  have hhex : (draw.hex.toList.map hexDigit).all isHexDigit = true := by
    rw [List.all_map]
    exact List.all_eq_true.2 fun n _ => isHexDigit_hexDigit n
  have hdots : (draw.base64url.toList.map base64urlDigit).all isDot = true := by
    rw [List.all_map]
    exact List.all_eq_true.2 fun n _ => isDot_base64urlDigit n
  have hsecret : (draw.base64url.toList.map base64urlDigit).isEmpty = false := by
    rw [List.isEmpty_eq_false_iff, ← List.length_pos_iff]
    simp
  rw [parseToken, trim_token, toList_token, parseTokenChars, List.drop_left' hlength, List.take_left' hlength]
  simp only [hhex, hsecret, hdots, Bool.not_false, Bool.and_self, if_true]
  rfl

end Tokens

/-! ## The law -/

/-- Two texts that the service cannot tell apart: they name the same prefix, and their secrets have one digest. -/
def SameToken (digestSecret : String → String) (t u : String) : Prop :=
  ∃ tokenPrefix s s', parseToken t = some (tokenPrefix, s) ∧ parseToken u = some (tokenPrefix, s') ∧
    digestSecret s = digestSecret s'

def AgentEnrollment.resolved (e : AgentEnrollment) : ResolvedPrintAgent :=
  { agentId := e.agentId, tenantId := e.tenantId, locationId := e.locationId, status := .active }

/-- Exactly the tokens that were shown open the door, each to its own agent and until it is revoked. -/
structure Authenticates (digestSecret : String → String) (s : AgentFloor) : Prop where
  resolves : ∀ token a, resolveToken digestSecret token s.desk = .ok a ↔
    ∃ x ∈ s.answers, SameToken digestSecret token x.enrollment.token ∧
      (∀ q ∈ s.revocations, q.agentId ≠ x.enrollment.agentId) ∧ a = x.enrollment.resolved
  usable : ∀ x ∈ s.answers, SameToken digestSecret x.enrollment.token x.enrollment.token
  own : ∀ x ∈ s.answers, x.enrollment.tenantId = x.tenantId
  once : ∀ x ∈ s.answers, ∀ y ∈ s.answers, x.tenantId = y.tenantId → x.key = y.key → x = y
  distinct : ∀ x ∈ s.answers, ∀ y ∈ s.answers, x.enrollment.agentId = y.enrollment.agentId → x = y
  revoked : ∀ q ∈ s.revocations, ∃ x ∈ s.answers, x.tenantId = q.tenantId ∧ x.enrollment.agentId = q.agentId
  revokedOnce : Table.UniqueOn Revocation.agentId s.revocations

/-! ## One call -/

/-- The row of an agent is what its enrollment has answered. -/
def RowOf (digestSecret : String → String) (r : Id × PrintAgentRow) (e : AgentEnrollment) : Prop :=
  r.2.id = e.agentId ∧ r.1 = e.tenantId ∧ r.2.locationId = e.locationId ∧
    ∃ s, parseToken e.token = some (r.2.tokenPrefix, s) ∧ r.2.tokenDigest = digestSecret s

/-- The record keeps an answer. -/
structure KeepsAnswer (r : Idempotency.Record EnrollPrintAgent AgentEnrollment) (x : EnrollAnswer) : Prop where
  state : r.state = .completed
  identity : Idempotency.recordIdentity (some x.tenantId) "print-agent-enroll" x.key r = true
  body : r.responseBody = some x.enrollment

/-- What a committed call has found and done, when its view held completed records only. -/
inductive AgentMoves (digestSecret : String → String) (v s s' : AgentFloor) : Prop
  | enrolled (x : EnrollAnswer) (r : Id × PrintAgentRow)
      (record : Idempotency.Record EnrollPrintAgent AgentEnrollment)
      (hrow : RowOf digestSecret r x.enrollment) (hactive : r.2.status = .active) (hown : r.1 = x.tenantId)
      (hfree : ∀ q ∈ s.desk.agents, q.2.id ≠ r.2.id ∧ q.2.tokenPrefix ≠ r.2.tokenPrefix)
      (hkeeps : KeepsAnswer record x)
      (hnew : ∀ q ∈ s.desk.records,
        Idempotency.recordIdentity (some x.tenantId) "print-agent-enroll" x.key q = false)
      (hagents : s'.desk.agents = s.desk.agents ++ [r]) (hrecords : s'.desk.records = s.desk.records ++ [record])
      (hanswers : s'.answers = x :: s.answers) (hrevocations : s'.revocations = s.revocations)
  | replayed (x : EnrollAnswer) (record : Idempotency.Record EnrollPrintAgent AgentEnrollment)
      (hrecord : record ∈ v.desk.records) (hkeeps : KeepsAnswer record x) (hdesk : s'.desk = s.desk)
      (hanswers : s'.answers = x :: s.answers) (hrevocations : s'.revocations = s.revocations)
  | revoked (q : Revocation) (r : Id × PrintAgentRow) (hr : r ∈ s.desk.agents)
      (hrow : revocable q.tenantId q.agentId r = true)
      (hagents : s'.desk.agents = Table.updateWhere (revocable q.tenantId q.agentId)
        (fun r => (r.1, { r.2 with status := .revoked })) s.desk.agents)
      (hrecords : s'.desk.records = s.desk.records)
      (hanswers : s'.answers = s.answers) (hrevocations : s'.revocations = q :: s.revocations)

section Calls
variable {digestSecret : String → String} {v d d' : AgentDesk}

theorem insertAgent_commits {tenantId : Id} {row : PrintAgentRow} {u : Unit}
    (h : Commits (PrintAgentService.insertAgent tenantId row) v d u d') :
    (∀ q ∈ d.agents, q.2.id ≠ row.id ∧ q.2.tokenPrefix ≠ row.tokenPrefix) ∧
      d' = { d with agents := d.agents ++ [(tenantId, row)] } := by
  unfold PrintAgentService.insertAgent at h
  simp only [commits_bind, commits_current, commits_throwIf, commits_write] at h
  obtain ⟨_, _, ⟨rfl, rfl⟩, _, _, ⟨hfree, rfl⟩, rfl⟩ := h
  refine ⟨fun q hq => ?_, rfl⟩
  have hclash : clashes row q = false := by
    rw [Bool.eq_false_iff]
    exact fun hclash => hfree (List.any_eq_true.2 ⟨q, hq, hclash⟩)
  rw [clashes, Bool.or_eq_false_iff, decide_eq_false_iff_not, decide_eq_false_iff_not] at hclash
  exact hclash

theorem enrollClaimed_commits {tenantId : Id} {request : EnrollPrintAgent} {recordId : Id} {draw : EnrollDraw}
    {e : AgentEnrollment} (h : Commits (enrollClaimed digestSecret tenantId request recordId draw) v d e d') :
    ∃ row : PrintAgentRow, RowOf digestSecret (tenantId, row) e ∧ row.status = .active ∧
      (∀ q ∈ d.agents, q.2.id ≠ row.id ∧ q.2.tokenPrefix ≠ row.tokenPrefix) ∧
      d'.agents = d.agents ++ [(tenantId, row)] ∧ e.tenantId = tenantId ∧
      d'.records = Table.updateWhere (·.id = recordId)
        (fun r => { r with state := .completed, responseStatus := some 201, responseBody := some e }) d.records := by
  unfold enrollClaimed at h
  obtain ⟨u, d₁, hinsert, h⟩ := commits_bind.1 h
  obtain ⟨hfree, rfl⟩ := insertAgent_commits hinsert
  obtain ⟨u, d₂, hcomplete, h⟩ := commits_bind.1 h
  obtain ⟨rfl, rfl⟩ := commits_pure.1 h
  rw [onAgentRecords, commits_zoom] at hcomplete
  obtain ⟨records', hwrite, rfl⟩ := hcomplete
  rw [Idempotency.complete, commits_write] at hwrite
  refine ⟨_, ⟨rfl, rfl, rfl, _, parseToken_made digestSecret draw.token, rfl⟩, rfl, hfree, rfl, rfl, hwrite.symm⟩

/-- What `enroll` does: it answers from a completed record, or makes an agent. -/
theorem enroll_commits {actor : Actor} {tenantId : Id} {body : EnrollPrintAgent} {key : String} {draw : EnrollDraw}
    {response : Option AgentEnrollment} (hv : ∀ r ∈ v.records, r.state = .completed)
    (h : Commits (enroll digestSecret actor tenantId body key draw) v d response d') :
    (d' = d ∧ ∃ r ∈ v.records, r.responseBody = response ∧
        Idempotency.recordIdentity (some tenantId) "print-agent-enroll" (Text.trim key) r = true) ∨
      ∃ e row record, response = some e ∧ RowOf digestSecret (tenantId, row) e ∧ row.status = .active ∧
        (∀ q ∈ d.agents, q.2.id ≠ row.id ∧ q.2.tokenPrefix ≠ row.tokenPrefix) ∧
        KeepsAnswer record ⟨tenantId, Text.trim key, e⟩ ∧
        (∀ q ∈ d.records,
          Idempotency.recordIdentity (some tenantId) "print-agent-enroll" (Text.trim key) q = false) ∧
        d'.agents = d.agents ++ [(tenantId, row)] ∧ d'.records = d.records ++ [record] := by
  unfold enroll at h
  obtain ⟨request, -, h⟩ := commits_fromExcept_bind.1 h
  rw [commits_look_bind, commits_throwIf_bind, commits_look_bind, commits_throwIf_bind] at h
  obtain ⟨-, -, h⟩ := h
  obtain ⟨claim, d₁, hclaim, h⟩ := commits_bind.1 h
  rw [onAgentRecords, commits_zoom] at hclaim
  obtain ⟨records, hclaim, rfl⟩ := hclaim
  cases Idempotency.claim_cases hclaim with
  | inserted record hrecord hnew =>
    right
    obtain ⟨e, hclaimed, rfl⟩ := commits_map.1 h
    obtain ⟨row, hrow, hactive, hfree, hagents, hown, hrecords⟩ := enrollClaimed_commits hclaimed
    have hfresh : ∀ q ∈ d.records, q.id ≠ draw.recordId ∧
        Idempotency.recordIdentity (some tenantId) "print-agent-enroll" (Text.trim key) q = false := by
      intro q hq
      have hconflict := hnew q hq
      rw [hrecord, Idempotency.conflicts, Bool.or_eq_false_iff, decide_eq_false_iff_not] at hconflict
      exact hconflict
    refine ⟨e, row, { record with state := .completed, responseStatus := some 201, responseBody := some e }, rfl,
      hrow, hactive, hfree, ⟨rfl, ?_, rfl⟩, fun q hq => (hfresh q hq).2, hagents, ?_⟩
    · rw [hrecord]
      simp [Idempotency.recordIdentity, Idempotency.ClaimInput.record, enrollClaim]
    · have hid : record.id = draw.recordId := by rw [hrecord]; rfl
      rw [hrecords]
      exact Table.updateWhere_concat (fun q hq => decide_eq_false (hfresh q hq).1) (decide_eq_true hid)
  | replayed r hr hid hhash hstate =>
    left
    have hreplay : Commits (pure r.responseBody) v d response d' := h
    obtain ⟨hbody, hd⟩ := commits_pure.1 hreplay
    exact ⟨hd.symm, r, hr, hbody, hid⟩
  | reclaimed r hr hid hhash hstate hlock q hq hreclaim => exact absurd (hv r hr) hstate

theorem revoke_commits {tenantId agentId id : Id} (h : Commits (revoke tenantId agentId) v d id d') :
    id = agentId ∧ (∃ r ∈ d.agents, revocable tenantId agentId r = true) ∧
      d'.agents = Table.updateWhere (revocable tenantId agentId)
        (fun r => (r.1, { r.2 with status := .revoked })) d.agents ∧ d'.records = d.records := by
  unfold revoke at h
  rw [commits_current_bind, commits_write_bind, commits_orThrow_bind] at h
  obtain ⟨agent, hagent, h⟩ := h
  obtain ⟨rfl, rfl⟩ := commits_pure.1 h
  obtain ⟨hmem, hrow⟩ := List.mem_filter.1 (List.mem_of_mem_head? hagent)
  refine ⟨?_, ⟨agent, hmem, hrow⟩, rfl, rfl⟩
  simp only [revocable, Bool.and_eq_true, decide_eq_true_eq] at hrow
  exact hrow.1.1

end Calls

/-! ## Runs -/

structure AgentInv (digestSecret : String → String) (s : AgentFloor) : Prop where
  ids : Table.UniqueOn (fun r : Id × PrintAgentRow => r.2.id) s.desk.agents
  prefixes : Table.UniqueOn (fun r : Id × PrintAgentRow => r.2.tokenPrefix) s.desk.agents
  answered : ∀ r ∈ s.desk.agents, ∃ x ∈ s.answers, RowOf digestSecret r x.enrollment
  shown : ∀ x ∈ s.answers, ∃ r ∈ s.desk.agents, RowOf digestSecret r x.enrollment
  completed : ∀ r ∈ s.desk.records, r.state = .completed ∧ ∃ x ∈ s.answers, KeepsAnswer r x
  kept : ∀ x ∈ s.answers, ∃ r ∈ s.desk.records, KeepsAnswer r x
  own : ∀ x ∈ s.answers, x.enrollment.tenantId = x.tenantId
  once : ∀ x ∈ s.answers, ∀ y ∈ s.answers, x.tenantId = y.tenantId → x.key = y.key → x = y
  distinct : ∀ x ∈ s.answers, ∀ y ∈ s.answers, x.enrollment.agentId = y.enrollment.agentId → x = y
  status : ∀ r ∈ s.desk.agents, r.2.status = .active ↔ ∀ q ∈ s.revocations, q.agentId ≠ r.2.id
  revoked : ∀ q ∈ s.revocations, ∃ r ∈ s.desk.agents, r.1 = q.tenantId ∧ r.2.id = q.agentId
  revokedOnce : Table.UniqueOn Revocation.agentId s.revocations

/-- The records that a call has seen are still there. -/
def SeesRecords (v s : AgentFloor) : Prop := v.desk.records ⊆ s.desk.records

section Runs
variable {digestSecret : String → String} {v s s' : AgentFloor} {c : AgentCall} {a : AgentAnswer}

theorem exec_moves (hi : AgentInv digestSecret s) (hv : SeesRecords v s)
    (h : c.exec digestSecret v s = some (a, s')) : AgentMoves digestSecret v s s' := by
  unfold AgentCall.exec at h
  split at h
  · next answer desk hbody =>
    obtain ⟨rfl, rfl⟩ := Prod.mk.inj (Option.some.inj h)
    have hcommits : Commits (c.body digestSecret) v.desk s.desk answer desk := hbody
    cases c with
    | enroll actor tenantId body key draw =>
      obtain ⟨response, henroll, rfl⟩ := commits_map.1 hcommits
      have hcompleted : ∀ r ∈ v.desk.records, r.state = .completed := fun r hr => (hi.completed r (hv hr)).1
      rcases enroll_commits hcompleted henroll with ⟨rfl, r, hr, hbody, hid⟩ |
        ⟨e, row, record, rfl, hrow, hactive, hfree, hkeeps, hnew, hagents, hrecords⟩
      · obtain ⟨hstate, y, -, hy⟩ := hi.completed r (hv hr)
        obtain rfl : response = some y.enrollment := hbody.symm.trans hy.body
        exact .replayed ⟨tenantId, Text.trim key, y.enrollment⟩ r hr ⟨hstate, hid, hy.body⟩ rfl rfl rfl
      · exact .enrolled ⟨tenantId, Text.trim key, e⟩ (tenantId, row) record hrow hactive rfl hfree hkeeps hnew hagents
          hrecords rfl rfl
    | revoke tenantId agentId =>
      obtain ⟨id, hrevoke, rfl⟩ := commits_map.1 hcommits
      obtain ⟨rfl, ⟨r, hr, hrow⟩, hagents, hrecords⟩ := revoke_commits hrevoke
      exact .revoked ⟨tenantId, id⟩ r hr hrow hagents hrecords rfl rfl
  · cases h

theorem KeepsAnswer.unique {r : Idempotency.Record EnrollPrintAgent AgentEnrollment} {x y : EnrollAnswer}
    (hx : KeepsAnswer r x) (hy : KeepsAnswer r y) : x = y := by
  have hix := hx.identity
  have hiy := hy.identity
  simp only [Idempotency.recordIdentity, Bool.and_eq_true, decide_eq_true_eq] at hix hiy
  obtain ⟨xt, xk, xe⟩ := x
  obtain ⟨yt, yk, ye⟩ := y
  obtain rfl : xt = yt := Option.some.inj (hix.1.1.symm.trans hiy.1.1)
  obtain rfl : xk = yk := hix.2.symm.trans hiy.2
  obtain rfl : xe = ye := Option.some.inj (hx.body.symm.trans hy.body)
  rfl

/-- A replay answers what has been answered before. -/
theorem AgentInv.replayed (hi : AgentInv digestSecret s) {x : EnrollAnswer} (hx : x ∈ s.answers)
    (hdesk : s'.desk = s.desk) (hanswers : s'.answers = x :: s.answers)
    (hrevocations : s'.revocations = s.revocations) : AgentInv digestSecret s' := by
  have hmem : ∀ y, y ∈ s'.answers ↔ y ∈ s.answers := by
    intro y
    rw [hanswers, List.mem_cons]
    exact ⟨fun hy => hy.elim (fun h => h ▸ hx) id, .inr⟩
  constructor <;> simp only [hdesk, hmem, hrevocations]
  · exact hi.ids
  · exact hi.prefixes
  · exact hi.answered
  · exact hi.shown
  · exact hi.completed
  · exact hi.kept
  · exact hi.own
  · exact hi.once
  · exact hi.distinct
  · exact hi.status
  · exact hi.revoked
  · exact hi.revokedOnce

theorem AgentInv.enrolled (hi : AgentInv digestSecret s) {x : EnrollAnswer} {r : Id × PrintAgentRow}
    {record : Idempotency.Record EnrollPrintAgent AgentEnrollment}
    (hrow : RowOf digestSecret r x.enrollment) (hactive : r.2.status = .active) (hown : r.1 = x.tenantId)
    (hfree : ∀ q ∈ s.desk.agents, q.2.id ≠ r.2.id ∧ q.2.tokenPrefix ≠ r.2.tokenPrefix) (hkeeps : KeepsAnswer record x)
    (hnew : ∀ q ∈ s.desk.records, Idempotency.recordIdentity (some x.tenantId) "print-agent-enroll" x.key q = false)
    (hagents : s'.desk.agents = s.desk.agents ++ [r]) (hrecords : s'.desk.records = s.desk.records ++ [record])
    (hanswers : s'.answers = x :: s.answers) (hrevocations : s'.revocations = s.revocations) :
    AgentInv digestSecret s' := by
  have hkey : ∀ y ∈ s.answers, x.tenantId = y.tenantId → x.key = y.key → False := by
    intro y hy htenant hk
    obtain ⟨q, hq, hqy⟩ := hi.kept y hy
    have hid := hnew q hq
    rw [htenant, hk, hqy.identity] at hid
    exact Bool.noConfusion hid
  have hagent : ∀ y ∈ s.answers, y.enrollment.agentId ≠ x.enrollment.agentId := by
    intro y hy hid
    obtain ⟨q, hq, hqy⟩ := hi.shown y hy
    exact (hfree q hq).1 (hqy.1.trans (hid.trans hrow.1.symm))
  have hids := hi.ids.append fun q hq => (hfree q hq).1
  have hprefixes := hi.prefixes.append fun q hq => (hfree q hq).2
  constructor <;> simp only [hagents, hrecords, hanswers, hrevocations, List.mem_append, List.mem_cons,
    List.not_mem_nil, or_false]
  case ids => exact hids
  case prefixes => exact hprefixes
  case answered =>
    rintro q (hq | rfl)
    · obtain ⟨y, hy, hqy⟩ := hi.answered q hq
      exact ⟨y, .inr hy, hqy⟩
    · exact ⟨x, .inl rfl, hrow⟩
  case shown =>
    rintro y (rfl | hy)
    · exact ⟨r, .inr rfl, hrow⟩
    · obtain ⟨q, hq, hqy⟩ := hi.shown y hy
      exact ⟨q, .inl hq, hqy⟩
  case completed =>
    rintro q (hq | rfl)
    · obtain ⟨hstate, y, hy, hqy⟩ := hi.completed q hq
      exact ⟨hstate, y, .inr hy, hqy⟩
    · exact ⟨hkeeps.state, x, .inl rfl, hkeeps⟩
  case kept =>
    rintro y (rfl | hy)
    · exact ⟨record, .inr rfl, hkeeps⟩
    · obtain ⟨q, hq, hqy⟩ := hi.kept y hy
      exact ⟨q, .inl hq, hqy⟩
  case own =>
    rintro y (rfl | hy)
    · exact hrow.2.1.symm.trans hown
    · exact hi.own y hy
  case once =>
    rintro y (rfl | hy) z (rfl | hz) ht hk
    · rfl
    · exact (hkey z hz ht hk).elim
    · exact (hkey y hy ht.symm hk.symm).elim
    · exact hi.once y hy z hz ht hk
  case distinct =>
    rintro y (rfl | hy) z (rfl | hz) hid
    · rfl
    · exact absurd hid.symm (hagent z hz)
    · exact absurd hid (hagent y hy)
    · exact hi.distinct y hy z hz hid
  case status =>
    rintro q (hq | rfl)
    · exact hi.status q hq
    · refine iff_of_true hactive fun t ht hid => ?_
      obtain ⟨p, hp, -, hpid⟩ := hi.revoked t ht
      exact (hfree p hp).1 (hpid.trans hid)
  case revoked =>
    intro q hq
    obtain ⟨p, hp, hpq⟩ := hi.revoked q hq
    exact ⟨p, .inl hp, hpq⟩
  case revokedOnce => exact hi.revokedOnce

section Revoked
variable (digestSecret) {agents : List (Id × PrintAgentRow)} {p r : Id × PrintAgentRow} {tenantId agentId : Id}

theorem mem_revoked (h : r ∈ Table.updateWhere (revocable tenantId agentId)
    (fun r => (r.1, { r.2 with status := .revoked })) agents) :
    ∃ p ∈ agents, r.1 = p.1 ∧ r.2.id = p.2.id ∧ (∀ e, RowOf digestSecret p e → RowOf digestSecret r e) ∧
      (r.2.status = .active ↔ p.2.status = .active ∧ revocable tenantId agentId p = false) := by
  obtain ⟨p, hp, rfl⟩ := Table.mem_updateWhere.1 h
  refine ⟨p, hp, ?_⟩
  by_cases hrevocable : revocable tenantId agentId p = true
  · rw [if_pos hrevocable]
    exact ⟨rfl, rfl, fun e he => he, iff_of_false (fun h => nomatch h) fun h => by simp [hrevocable] at h⟩
  · rw [if_neg hrevocable]
    exact ⟨rfl, rfl, fun e he => he, fun h => ⟨h, Bool.eq_false_iff.2 hrevocable⟩, And.left⟩

theorem revoked_of_mem (h : p ∈ agents) : ∃ r ∈ Table.updateWhere (revocable tenantId agentId)
    (fun r => (r.1, { r.2 with status := .revoked })) agents, r.1 = p.1 ∧ r.2.id = p.2.id ∧
      ∀ e, RowOf digestSecret p e → RowOf digestSecret r e := by
  refine ⟨_, Table.mem_updateWhere.2 ⟨p, h, rfl⟩, ?_⟩
  split
  · exact ⟨rfl, rfl, fun e he => he⟩
  · exact ⟨rfl, rfl, fun e he => he⟩

end Revoked

/-- The one agent of the id is no longer active, and the revocation is the first of it. -/
theorem AgentInv.revoke (hi : AgentInv digestSecret s) {q : Revocation} {r : Id × PrintAgentRow}
    (hr : r ∈ s.desk.agents) (hrow : revocable q.tenantId q.agentId r = true)
    (hagents : s'.desk.agents = Table.updateWhere (revocable q.tenantId q.agentId)
      (fun r => (r.1, { r.2 with status := .revoked })) s.desk.agents)
    (hrecords : s'.desk.records = s.desk.records) (hanswers : s'.answers = s.answers)
    (hrevocations : s'.revocations = q :: s.revocations) : AgentInv digestSecret s' := by
  have hrevocable := hrow
  simp only [revocable, Bool.and_eq_true, decide_eq_true_eq] at hrow
  obtain ⟨⟨hid, htenant⟩, hactive⟩ := hrow
  constructor <;> simp only [hagents, hrecords, hanswers, hrevocations]
  case ids => exact hi.ids.updateWhere fun _ _ => rfl
  case prefixes => exact hi.prefixes.updateWhere fun _ _ => rfl
  case answered =>
    intro r' hr'
    obtain ⟨p, hp, -, -, hkeep, -⟩ := mem_revoked digestSecret hr'
    obtain ⟨x, hx, hpx⟩ := hi.answered p hp
    exact ⟨x, hx, hkeep _ hpx⟩
  case shown =>
    intro x hx
    obtain ⟨p, hp, hpx⟩ := hi.shown x hx
    obtain ⟨r', hr', -, -, hkeep⟩ := revoked_of_mem digestSecret hp
    exact ⟨r', hr', hkeep _ hpx⟩
  case completed => exact hi.completed
  case kept => exact hi.kept
  case own => exact hi.own
  case once => exact hi.once
  case distinct => exact hi.distinct
  case status =>
    intro r' hr'
    obtain ⟨p, hp, -, hpid, -, hstatus⟩ := mem_revoked digestSecret hr'
    rw [hstatus, hi.status p hp, List.forall_mem_cons, hpid, and_comm, ← hi.status p hp]
    refine and_congr_left fun hpactive => ⟨fun hnot heq => ?_, fun hne => ?_⟩
    · have hpr : p = r := hi.ids.eq hp hr (heq.symm.trans hid.symm)
      rw [hpr, hrevocable] at hnot
      cases hnot
    · simp [revocable, hne.symm]
  case revoked =>
    refine List.forall_mem_cons.2 ⟨?_, fun p hp => ?_⟩
    · obtain ⟨r', hr', h1, h2, -⟩ := revoked_of_mem digestSecret hr
      exact ⟨r', hr', h1.trans htenant, h2.trans hid⟩
    · obtain ⟨t, ht, htp, hti⟩ := hi.revoked p hp
      obtain ⟨r', hr', h1, h2, -⟩ := revoked_of_mem digestSecret ht
      exact ⟨r', hr', h1.trans htp, h2.trans hti⟩
  case revokedOnce =>
    rw [Table.UniqueOn, List.map_cons, List.nodup_cons]
    refine ⟨fun hmem => ?_, hi.revokedOnce⟩
    obtain ⟨p, hp, hpq⟩ := List.mem_map.1 hmem
    exact (hi.status r hr).1 hactive p hp (hpq.trans hid.symm)

/-- No call breaks the invariant, nor what the other calls have seen. -/
theorem agents_rely (digestSecret : String → String) :
    Rely (AgentCall.exec digestSecret) (fun (_ : Unit) _ db => db) (AgentInv digestSecret) SeesRecords
      fun _ _ _ => True where
  refl _ _ := List.Subset.refl _
  reread _ _ _ _ _ := List.Subset.refl _
  inv c v s a s' hi hv _ hx := by
    cases exec_moves hi hv hx with
    | enrolled x r record hrow hactive hown hfree hkeeps hnew hagents hrecords hanswers hrevocations =>
      exact hi.enrolled hrow hactive hown hfree hkeeps hnew hagents hrecords hanswers hrevocations
    | replayed x record hrecord hkeeps hdesk hanswers hrevocations =>
      obtain ⟨-, y, hy, hkeepsy⟩ := hi.completed record (hv hrecord)
      exact hi.replayed (hkeeps.unique hkeepsy ▸ hy) hdesk hanswers hrevocations
    | revoked q r hr hrow hagents hrecords hanswers hrevocations =>
      exact hi.revoke hr hrow hagents hrecords hanswers hrevocations
  stable c v s a s' hi hv _ hx w hw := by
    have hrecords : s.desk.records ⊆ s'.desk.records := by
      cases exec_moves hi hv hx with
      | enrolled x r record _ _ _ _ _ _ _ hrecords => exact hrecords ▸ List.subset_append_left _ _
      | replayed x record _ _ hdesk => exact hdesk ▸ List.Subset.refl _
      | revoked q r _ _ _ hrecords => exact hrecords ▸ List.Subset.refl _
    exact List.Subset.trans hw hrecords

theorem agents_start (platform : Platform) :
    ReadCommitted.Inv (AgentInv digestSecret) SeesRecords (AgentSession.start platform) := by
  refine ⟨?_, fun o ho => absurd ho List.not_mem_nil⟩
  constructor <;> simp [AgentSession.start, Table.UniqueOn]

/-! ## Tokens at the door -/

theorem resolveToken_ok {token : String} {d : AgentDesk} {a : ResolvedPrintAgent}
    (hunique : Table.UniqueOn (fun r : Id × PrintAgentRow => r.2.tokenPrefix) d.agents) :
    resolveToken digestSecret token d = .ok a ↔ ∃ tokenPrefix secret, parseToken token = some (tokenPrefix, secret) ∧
      ∃ r ∈ d.agents, r.2.tokenPrefix = tokenPrefix ∧ r.2.status = .active ∧
        digestSecret secret = r.2.tokenDigest ∧ a = ⟨r.2.id, r.1, r.2.locationId, .active⟩ := by
  unfold resolveToken
  cases hparse : parseToken token with
  | none => simp
  | some p =>
    obtain ⟨tokenPrefix, secret⟩ := p
    have hselect : select .printAgents authSettings (fun r : Id × PrintAgentRow => r.2.tokenPrefix = tokenPrefix)
        d.agents = d.agents.filter fun r => r.2.tokenPrefix = tokenPrefix := select_of_service rfl
    simp only [hselect]
    constructor
    · intro h
      split at h
      · cases h
      · next agent hagent =>
        obtain ⟨hmem, hsaid⟩ := List.mem_filter.1 (List.mem_of_mem_head? hagent)
        split at h
        · cases h
        · next hopen =>
          rw [not_or, not_not, not_not] at hopen
          obtain ⟨hactive, hdigest⟩ := hopen
          refine ⟨tokenPrefix, secret, rfl, agent, hmem, of_decide_eq_true hsaid, hactive, hdigest, ?_⟩
          rw [← Except.ok.inj h, hactive]
    · rintro ⟨_, _, hsame, r, hr, hsaid, hactive, hdigest, rfl⟩
      obtain ⟨rfl, rfl⟩ := Prod.mk.inj (Option.some.inj hsame)
      have hfound : d.agents.filter (fun q => q.2.tokenPrefix = tokenPrefix) = [r] := by
        rw [← hsaid]
        exact hunique.filter_eq hr
      rw [hfound]
      simp [hactive, hdigest]

theorem AgentInv.authenticates (hi : AgentInv digestSecret s) : Authenticates digestSecret s where
  resolves token a := by
    rw [resolveToken_ok hi.prefixes]
    constructor
    · rintro ⟨tokenPrefix, secret, hparse, r, hr, rfl, hactive, hdigest, rfl⟩
      obtain ⟨x, hx, hid, htenant, hlocation, secret', hparse', hdigest'⟩ := hi.answered r hr
      refine ⟨x, hx, ⟨_, secret, secret', hparse, hparse', hdigest.trans hdigest'⟩, ?_, ?_⟩
      · rw [← hid]
        exact (hi.status r hr).1 hactive
      · rw [AgentEnrollment.resolved, hid, htenant, hlocation]
    · rintro ⟨x, hx, ⟨tokenPrefix, secret, secret', hparse, hparse', hsame⟩, hlive, rfl⟩
      obtain ⟨r, hr, hid, htenant, hlocation, secret'', hparse'', hdigest⟩ := hi.shown x hx
      obtain ⟨hsaid, rfl⟩ := Prod.mk.inj (Option.some.inj (hparse'.symm.trans hparse''))
      refine ⟨tokenPrefix, secret, hparse, r, hr, hsaid.symm, (hi.status r hr).2 (hid ▸ hlive),
        hsame.trans hdigest.symm, ?_⟩
      rw [AgentEnrollment.resolved, hid, htenant, hlocation]
  usable x hx := by
    obtain ⟨r, -, -, -, -, secret, hparse, -⟩ := hi.shown x hx
    exact ⟨_, secret, secret, hparse, hparse, rfl⟩
  own := hi.own
  once := hi.once
  distinct := hi.distinct
  revoked q hq := by
    obtain ⟨r, hr, htenant, hid⟩ := hi.revoked q hq
    obtain ⟨x, hx, hxid, hxtenant, -⟩ := hi.answered r hr
    exact ⟨x, hx, (hi.own x hx).symm.trans (hxtenant.symm.trans htenant), hxid.symm.trans hid⟩
  revokedOnce := hi.revokedOnce

/-- After any run of enrollments and revocations, `resolveToken` takes exactly the tokens that an enrollment has
answered, as the agent of that enrollment, until the agent's revocation is confirmed. -/
theorem agents_authenticate (digestSecret : String → String) (platform : Platform)
    {es : List (Event AgentCall Unit)} {s : AgentSession}
    (hr : Runs.exec (agentStep digestSecret) (AgentSession.start platform) es = some s) :
    Authenticates digestSecret s.db :=
  ((agents_rely digestSecret).run_inv (agents_start platform) hr).db.authenticates

end Runs

namespace Demo

def enrollDraw (recordId agentId : Id) (digit : Fin 16) : EnrollDraw where
  now := 0
  recordId := recordId
  agentId := agentId
  token := { hex := Vector.replicate 16 digit, base64url := Vector.replicate 43 0 }

def enrollPrinter (key : String) (draw : EnrollDraw) : AgentCall :=
  .enroll (.user "owner" .owner) "tenant" { locationId := "location", name := " Kitchen " } key draw

/-- Two calls with one key overlap, a third makes a second agent, and the first agent is revoked. -/
def enrollments : List (Event AgentCall Unit) :=
  [.start (enrollPrinter "key" (enrollDraw "r1" "a1" 1)), .start (enrollPrinter "key" (enrollDraw "r2" "a2" 2)),
    .commit 0, .reread 0 (), .commit 0, .start (enrollPrinter "other" (enrollDraw "r3" "a3" 3)), .commit 0,
    .start (.revoke "tenant" "a1"), .commit 0]

def tokenOf (digit : Fin 16) : String := (makePrintAgentToken id (enrollDraw "" "" digit).token).token

end Demo

open Demo in
theorem agents_authenticate_enrollments :
    ∃ s, Runs.exec (agentStep id) (AgentSession.start city) enrollments = some s ∧
      s.db.answers.map (·.enrollment.agentId) = ["a3", "a1", "a1"] ∧
      ([tokenOf 1, tokenOf 2, tokenOf 3].map fun t => (resolveToken id t s.db.desk).toOption.map (·.agentId)) =
        [none, none, some "a3"] ∧
      Authenticates id s.db := by
  have hread : (Runs.exec (agentStep id) (AgentSession.start city) enrollments).map (fun s =>
      (s.db.answers.map (·.enrollment.agentId),
        [tokenOf 1, tokenOf 2, tokenOf 3].map fun t => (resolveToken id t s.db.desk).toOption.map (·.agentId))) =
      some (["a3", "a1", "a1"], [none, none, some "a3"]) := by decide +kernel
  obtain ⟨s, hr, hread⟩ := Option.map_eq_some_iff.1 hread
  obtain ⟨hanswers, hdoor⟩ := Prod.mk.inj hread
  exact ⟨s, hr, hanswers, hdoor, agents_authenticate id city hr⟩

end Komanda
