import Komanda.IdempotencyRuns

/-!
# The life of an idempotency record

Under the discipline of `Disciplined`, a record is `processing` exactly while its newest handle is
unsettled (`BoardInv.owned`). So a settling call meets a processing record and a takeover never meets
a completed one, which makes `completed` final. Without the discipline a superseded claimant, whose
call addresses the record by its id only, overwrites what the newer one wrote.
-/

namespace Komanda.Idempotency
open Transaction ReadCommitted Runs

section Claim
variable {ρ η β : Type} [DecidableEq η] {hashIdempotencyRequest : ρ → η} {input : ClaimInput ρ}
  {newId : Id} {now : Instant} {v s s' : List (Record η β)} {a : Answer η β}

/-- What an answered claim found and did. -/
inductive Claimed (hashIdempotencyRequest : ρ → η) (input : ClaimInput ρ) (newId : Id) (now : Instant)
    (v s : List (Record η β)) : Answer η β → List (Record η β) → Prop
  | inserted (record : Record η β) (hr : record = input.record hashIdempotencyRequest newId now)
      (hnew : ∀ q ∈ s, conflicts record q = false) :
      Claimed hashIdempotencyRequest input newId now v s (.claimed newId record.requestHash)
        (s ++ [record])
  | replayed (r : Record η β) (hv : r ∈ v)
      (hid : recordIdentity input.tenantId input.scope (Text.trim input.key) r = true)
      (hh : r.requestHash = hashIdempotencyRequest input.request) (hc : r.state = .completed) :
      Claimed hashIdempotencyRequest input newId now v s
        (.replay (r.responseStatus.getD 200) r.responseBody) s
  | reclaimed (r : Record η β) (hv : r ∈ v)
      (hid : recordIdentity input.tenantId input.scope (Text.trim input.key) r = true)
      (hh : r.requestHash = hashIdempotencyRequest input.request) (hc : r.state ≠ .completed)
      (hl : r.lockedUntil ≤ now) (q : Record η β) (hq : q ∈ s) (hqr : reclaimable r.id now q = true) :
      Claimed hashIdempotencyRequest input newId now v s (.claimed r.id r.requestHash)
        (Table.updateWhere (reclaimable r.id now) (fun r =>
          { r with state := .processing, lockedUntil := now + input.lockSeconds.getD 30 * 1000 }) s)

theorem reclaim_cases (h : Commits (reclaim hashIdempotencyRequest input now) v s a s') :
    Claimed hashIdempotencyRequest input newId now v s a s' := by
  simp only [reclaim, commits_bind, commits_look, commits_orThrow, commits_throwIf, commits_ite,
    commits_pure, commits_current, commits_write] at h
  obtain ⟨_, _, ⟨rfl, rfl⟩, r, _, ⟨hr, rfl⟩, _, _, ⟨hh, rfl⟩, h⟩ := h
  have hv := List.mem_of_find?_eq_some hr
  have hid := List.find?_some hr
  rcases h with ⟨hc, rfl, rfl⟩ | ⟨hc, _, _, ⟨hl, rfl⟩, _, _, ⟨rfl, rfl⟩, _, _, rfl, _, _, ⟨hne, rfl⟩, rfl, rfl⟩
  · exact .replayed r hv hid (not_not.1 hh) hc
  · obtain ⟨q, hq⟩ := List.exists_mem_of_length_pos (Nat.pos_of_ne_zero hne)
    obtain ⟨hq, hqr⟩ := List.mem_filter.1 hq
    exact .reclaimed r hv hid (not_not.1 hh) hc (Nat.not_lt.1 hl) q hq hqr

theorem claim_cases (h : Commits (claim hashIdempotencyRequest input newId now) v s a s') :
    Claimed hashIdempotencyRequest input newId now v s a s' := by
  simp only [claim, commits_bind, commits_throwIf, commits_current] at h
  obtain ⟨_, _, ⟨-, rfl⟩, found, _, ⟨hf, rfl⟩, h⟩ := h
  cases found with
  | none =>
    simp only [commits_bind, commits_write, commits_pure] at h
    obtain ⟨_, _, rfl, rfl, rfl⟩ := h
    exact .inserted _ rfl fun q hq => by simpa using List.find?_eq_none.1 hf q hq
  | some q => exact reclaim_cases h

/-- A granted claim leaves its record under the key. -/
theorem claim_leaves {rows rows' : List (Record η β)} {recordId : Id} {hash : η}
    (h : Commits (claim hashIdempotencyRequest input newId now) rows rows (.claimed recordId hash) rows') :
    ¬ (Text.trim input.key = "" ∨ Text.length (Text.trim input.key) > 255) ∧
      ∃ r, rows'.find? (recordIdentity input.tenantId input.scope (Text.trim input.key)) = some r ∧
        r.id = recordId ∧ r.requestHash = hashIdempotencyRequest input.request := by
  simp only [claim, commits_bind, commits_throwIf, commits_current] at h
  obtain ⟨_, _, ⟨hkey, rfl⟩, found, _, ⟨hf, rfl⟩, h⟩ := h
  refine ⟨hkey, ?_⟩
  cases found with
  | none =>
    simp only [commits_bind, commits_write, commits_pure] at h
    obtain ⟨_, _, rfl, hclaimed, rfl⟩ := h
    cases hclaimed
    refine ⟨input.record hashIdempotencyRequest newId now, ?_, rfl, rfl⟩
    have hnone : rows.find? (recordIdentity input.tenantId input.scope (Text.trim input.key)) = none := by
      rw [List.find?_eq_none]
      intro r hr hid
      have hfree := List.find?_eq_none.1 hf r hr
      exact hfree (Bool.or_eq_true_iff.2 (.inr hid))
    rw [List.find?_append, hnone]
    simp [recordIdentity, ClaimInput.record]
  | some q =>
    simp only [reclaim, commits_bind, commits_look, commits_orThrow, commits_throwIf, commits_ite, commits_pure,
      commits_current, commits_write] at h
    obtain ⟨_, _, ⟨rfl, rfl⟩, r, _, ⟨hr, rfl⟩, _, _, ⟨hh, rfl⟩, h⟩ := h
    rcases h with ⟨-, hclaimed, -⟩ | ⟨-, _, _, ⟨-, rfl⟩, _, _, ⟨rfl, rfl⟩, _, _, rfl, _, _, ⟨-, rfl⟩, hclaimed, rfl⟩
    · cases hclaimed
    · cases hclaimed
      refine ⟨_, (Table.find?_updateWhere (by intro _ _; rfl)).trans (congrArg (Option.map _) hr), ?_, ?_⟩
      · dsimp only
        split
        · rfl
        · rfl
      · dsimp only
        split
        · exact not_not.1 hh
        · exact not_not.1 hh

/-- A record that is not completed, and whose lock has run out, is granted to the same request. -/
theorem claim_granted (newId : Id) (now : Instant) {rows : List (Record η β)} {r : Record η β}
    (hkey : ¬ (Text.trim input.key = "" ∨ Text.length (Text.trim input.key) > 255))
    (hr : rows.find? (recordIdentity input.tenantId input.scope (Text.trim input.key)) = some r)
    (hh : r.requestHash = hashIdempotencyRequest input.request) (hs : r.state ≠ .completed)
    (hl : r.lockedUntil < now) : ∃ rows',
      Commits (claim hashIdempotencyRequest input newId now) rows rows (.claimed r.id r.requestHash) rows' := by
  have hmem := List.mem_of_find?_eq_some hr
  have hfound : (rows.find? (conflicts (input.record hashIdempotencyRequest newId now))).isSome = true := by
    rw [List.find?_isSome]
    exact ⟨r, hmem, Bool.or_eq_true_iff.2 (.inr (List.find?_some hr))⟩
  obtain ⟨q, hq⟩ := Option.isSome_iff_exists.1 hfound
  have hrows : (rows.filter (reclaimable r.id now)).length ≠ 0 := by
    have hr' : r ∈ rows.filter (reclaimable r.id now) := List.mem_filter.2 ⟨hmem, by simp [reclaimable, hl]⟩
    exact Nat.ne_of_gt (List.length_pos_of_mem hr')
  have hlock : ¬ r.lockedUntil > now := Nat.not_lt.2 (Nat.le_of_lt hl)
  let lock (r : Record η β) : Record η β :=
    { r with state := .processing, lockedUntil := now + input.lockSeconds.getD 30 * 1000 }
  refine ⟨Table.updateWhere (reclaimable r.id now) lock rows, ?_⟩
  simp only [claim, commits_bind, commits_throwIf, commits_current]
  refine ⟨(), rows, ⟨hkey, rfl⟩, some q, rows, ⟨hq, rfl⟩, ?_⟩
  simp only [reclaim, commits_bind, commits_look, commits_orThrow, commits_throwIf, commits_ite, commits_pure,
    commits_current, commits_write]
  exact ⟨_, rows, ⟨rfl, rfl⟩, r, rows, ⟨hr, rfl⟩, (), rows, ⟨not_not.2 hh, rfl⟩,
    .inr ⟨hs, (), rows, ⟨hlock, rfl⟩, _, rows,
    ⟨rfl, rfl⟩, (), _, rfl, (), _, ⟨hrows, rfl⟩, rfl, rfl⟩⟩

/-- A completed record answers the same request. -/
theorem claim_replays (newId : Id) (now : Instant) {rows : List (Record η β)} {r : Record η β}
    (hkey : ¬ (Text.trim input.key = "" ∨ Text.length (Text.trim input.key) > 255))
    (hr : rows.find? (recordIdentity input.tenantId input.scope (Text.trim input.key)) = some r)
    (hh : r.requestHash = hashIdempotencyRequest input.request) (hs : r.state = .completed) :
    Commits (claim hashIdempotencyRequest input newId now) rows rows
      (.replay (r.responseStatus.getD 200) r.responseBody) rows := by
  have hfound : (rows.find? (conflicts (input.record hashIdempotencyRequest newId now))).isSome = true := by
    rw [List.find?_isSome]
    exact ⟨r, List.mem_of_find?_eq_some hr, Bool.or_eq_true_iff.2 (.inr (List.find?_some hr))⟩
  obtain ⟨q, hq⟩ := Option.isSome_iff_exists.1 hfound
  rw [claim, commits_throwIf_bind, commits_current_bind, hq]
  refine ⟨hkey, ?_⟩
  rw [reclaim, commits_look_bind, commits_orThrow_bind]
  refine ⟨r, hr, ?_⟩
  rw [commits_throwIf_bind, if_pos hs]
  exact ⟨not_not.2 hh, commits_pure.2 ⟨rfl, rfl⟩⟩

theorem claim_key (h : Commits (claim hashIdempotencyRequest input newId now) v s a s') :
    ¬ (Text.trim input.key = "" ∨ Text.length (Text.trim input.key) > 255) := by
  rw [claim, commits_throwIf_bind] at h
  exact h.1

end Claim

section Invariant
variable {ρ η β : Type} {hashIdempotencyRequest : ρ → η} {b b' : Board η β}

/-- What holds of the table and the handles in every disciplined run. -/
structure BoardInv (b : Board η β) : Prop where
  ids : Table.UniqueOn Record.id b.records
  identities : Table.UniqueOn (fun r => (r.tenantId, r.scope, r.idempotencyKey)) b.records
  numbers : Table.UniqueOn Handle.number b.handles
  fresh : ∀ h ∈ b.handles, h.number < b.handles.length
  owned : ∀ r ∈ b.records, ∃ h, b.owner r.id = some h ∧ (h.settled = false ↔ r.state = .processing)

theorem recordIdentity_iff {tenantId : Option Id} {scope key : String} {r : Record η β} :
    recordIdentity tenantId scope key r = true ↔
      (r.tenantId, r.scope, r.idempotencyKey) = (tenantId, scope, key) := by
  simp [recordIdentity, and_assoc]

theorem BoardInv.empty : BoardInv (Board.empty : Board η β) :=
  ⟨.nil, .nil, .nil, fun _ h => (List.not_mem_nil h).elim, fun _ h => (List.not_mem_nil h).elim⟩

namespace Board

theorem owner_cons (b : Board η β) (h : Handle) (records : List (Record η β)) (id : Id) :
    owner ⟨records, h :: b.handles⟩ id = if h.recordId = id then some h else b.owner id := by
  by_cases hid : h.recordId = id <;> simp [owner, Table.lookup, hid]

theorem owner_settle (b : Board η β) (number : Nat) (records : List (Record η β)) (id : Id) :
    owner ⟨records, settle number b.handles⟩ id =
      (b.owner id).map fun h => if h.number = number then { h with settled := true } else h := by
  have := @Table.lookup_updateWhere _ _ _ Handle.recordId id (·.number = number)
    (fun h => { h with settled := true }) b.handles fun _ _ => rfl
  simpa [owner, settle] using this

end Board

/-- Under the invariant, an unsettled owner means that its record is being processed. -/
theorem BoardInv.processing (hi : BoardInv b) {hd : Handle} (ho : b.owner hd.recordId = some hd)
    (hs : hd.settled = false) {r : Record η β} (hr : r ∈ b.records) (hid : r.id = hd.recordId) :
    r.state = .processing := by
  obtain ⟨h, hh, hp⟩ := hi.owned r hr
  rw [hid, ho] at hh; cases hh
  exact hp.1 hs

/-- The row a settling call leaves. -/
def Settled (r r' : Record η β) : Prop :=
  r'.id = r.id ∧ r'.tenantId = r.tenantId ∧ r'.scope = r.scope ∧
    r'.idempotencyKey = r.idempotencyKey ∧ r'.requestHash = r.requestHash ∧ r'.state ≠ .processing

theorem BoardInv.answered (hi : BoardInv b) {input : ClaimInput ρ} {newId : Id} {now : Instant}
    {v : List (Record η β)}
    {answer : Answer η β} {records : List (Record η β)}
    (h : Claimed hashIdempotencyRequest input newId now v b.records answer records) :
    BoardInv (b.answered records answer) := by
  have hnum : ∀ h ∈ b.handles, h.number ≠ b.handles.length := fun h hh => Nat.ne_of_lt (hi.fresh h hh)
  have hnumbers (id : Id) : Table.UniqueOn Handle.number (⟨b.handles.length, id, false⟩ :: b.handles) := by
    refine List.nodup_cons.2 ⟨fun hm => ?_, hi.numbers⟩
    obtain ⟨h, hh, he⟩ := List.mem_map.1 hm
    exact hnum h hh he
  have hfresh (id : Id) : ∀ h ∈ (⟨b.handles.length, id, false⟩ : Handle) :: b.handles,
      h.number < b.handles.length + 1 := by
    intro h hh
    rcases List.mem_cons.1 hh with rfl | hh
    · exact Nat.lt_succ_self _
    · exact Nat.lt_succ_of_lt (hi.fresh h hh)
  cases h with
  | replayed r hv hid hh hc => exact hi
  | inserted record hr hnew =>
    have hne : ∀ q ∈ b.records, q.id ≠ record.id ∧
        (q.tenantId, q.scope, q.idempotencyKey) ≠ (record.tenantId, record.scope, record.idempotencyKey) := by
      intro q hq
      have := hnew q hq
      rw [conflicts, Bool.or_eq_false_iff] at this
      exact ⟨by simpa using this.1, fun he => by simp [recordIdentity_iff.2 he] at this⟩
    refine ⟨hi.ids.append fun q hq => (hne q hq).1, hi.identities.append fun q hq => (hne q hq).2,
      hnumbers _, hfresh _, fun q hq => ?_⟩
    have hrid : record.id = newId := by rw [hr]; rfl
    rw [Board.answered, Board.owner_cons]
    rcases List.mem_append.1 hq with hq | hq
    · rw [if_neg fun he => (hne q hq).1 (by rw [hrid]; exact he.symm)]
      exact hi.owned q hq
    · rw [List.mem_singleton] at hq; subst hq
      rw [if_pos hrid.symm]
      exact ⟨_, rfl, by simp [hr, ClaimInput.record]⟩
  | reclaimed r hv hid hh hc hl q hq hqr =>
    refine ⟨hi.ids.updateWhere fun _ _ => rfl, hi.identities.updateWhere fun _ _ => rfl,
      hnumbers _, hfresh _, fun p hp => ?_⟩
    rw [Board.answered, Board.owner_cons]
    rcases Table.mem_updateWhere_cases hp with ⟨hp, hn⟩ | ⟨p, hp', hn, rfl⟩
    · -- a row with this id is the reclaimed one, since ids are unique
      have hne : r.id ≠ p.id := by
        intro he
        have hqid : q.id = r.id := by simp [reclaimable] at hqr; exact hqr.1
        rw [hi.ids.eq hq hp (hqid.trans he)] at hqr
        rw [hqr] at hn; exact Bool.noConfusion hn
      rw [if_neg hne]; exact hi.owned p hp
    · have hpid : r.id = p.id := by simp [reclaimable] at hn; exact hn.1.symm
      rw [if_pos hpid]; exact ⟨_, rfl, by simp⟩

theorem BoardInv.settle (hi : BoardInv b) {hd : Handle} {f : Record η β → Record η β}
    (hf : ∀ r, Settled r (f r)) (hh : b.handle hd.number = some hd) (ho : b.owner hd.recordId = some hd) :
    BoardInv ⟨Table.updateWhere (·.id = hd.recordId) f b.records, Board.settle hd.number b.handles⟩ := by
  refine ⟨hi.ids.updateWhere fun r _ => (hf r).1, hi.identities.updateWhere fun r _ => ?_,
    hi.numbers.updateWhere fun _ _ => rfl, fun h hm => ?_, fun p hp => ?_⟩
  · obtain ⟨_, h₁, h₂, h₃, _⟩ := hf r
    rw [h₁, h₂, h₃]
  · rw [Board.settle, Table.length_updateWhere]
    rcases Table.mem_updateWhere_cases hm with ⟨hm', _⟩ | ⟨h', hm', _, rfl⟩
    · exact hi.fresh h hm'
    · exact hi.fresh h' hm'
  · rw [Board.owner_settle]
    rcases Table.mem_updateWhere_cases hp with ⟨hp, hn⟩ | ⟨p, hp', hn, rfl⟩
    · obtain ⟨h, hw, hs⟩ := hi.owned p hp
      have hne : h.number ≠ hd.number := by
        intro he
        have heq := hi.numbers.eq (Table.lookup_mem hw) (Table.lookup_mem hh) he
        have := Table.lookup_key hw
        rw [heq] at this; simp [this] at hn
      exact ⟨h, by simp [hw, hne], hs⟩
    · have hid : p.id = hd.recordId := by simpa using hn
      refine ⟨{ hd with settled := true }, ?_, ?_⟩
      · rw [(hf p).1, hid, ho]; simp
      · simp [(hf p).2.2.2.2.2]

/-- What a later state keeps of a row: its identity and request, and all of it once completed. -/
def Kept (b : Board η β) (r : Record η β) : Prop :=
  ∃ q ∈ b.records, q.id = r.id ∧ (q.tenantId, q.scope, q.idempotencyKey) =
    (r.tenantId, r.scope, r.idempotencyKey) ∧ q.requestHash = r.requestHash ∧
    (r.state = .completed → q = r)

theorem Kept.trans {r : Record η β} (hk : Kept b r) (h : ∀ r ∈ b.records, Kept b' r) : Kept b' r := by
  obtain ⟨q, hq, h₁, h₂, h₃, h₄⟩ := hk
  obtain ⟨p, hp, h₁', h₂', h₃', h₄'⟩ := h q hq
  refine ⟨p, hp, h₁'.trans h₁, h₂'.trans h₂, h₃'.trans h₃, fun hc => ?_⟩
  have hqr := h₄ hc
  exact (h₄' (hqr ▸ hc)).trans hqr

end Invariant

section Exec
variable {ρ η β : Type} [DecidableEq η] {hashIdempotencyRequest : ρ → η} {c : Call ρ β}
  {v b b' : Board η β} {a : Option (Answer η β)}

/-- The three kinds of committed calls: an answered claim, and the two that settle a handle. -/
theorem exec_cases (h : exec hashIdempotencyRequest c v b = some (a, b')) :
    (∃ input newId now answer records, c = .claim input newId now ∧ a = some answer ∧
      Claimed hashIdempotencyRequest input newId now v.records b.records answer records ∧
      b' = b.answered records answer) ∨
    ∃ hd f, ((∃ status body, c = .complete hd.number status body) ∨ c = .fail hd.number) ∧
      a = none ∧ b.handle hd.number = some hd ∧ (∀ r, Settled r (f r)) ∧
      b' = ⟨Table.updateWhere (·.id = hd.recordId) f b.records, Board.settle hd.number b.handles⟩ := by
  cases c with
  | claim input newId now =>
    simp only [exec] at h
    split at h
    · next answer records hx =>
      cases h
      exact .inl ⟨input, newId, now, answer, records, rfl, rfl, claim_cases hx, rfl⟩
    · cases h
  | complete number status body =>
    obtain ⟨hd, hh, h⟩ := Option.bind_eq_some_iff.1 h
    cases h
    have hn := Table.lookup_key hh; subst hn
    refine .inr ⟨hd, _, .inl ⟨status, body, rfl⟩, rfl, hh, fun r => ?_, rfl⟩
    exact ⟨rfl, rfl, rfl, rfl, rfl, RecordState.noConfusion⟩
  | fail number =>
    obtain ⟨hd, hh, h⟩ := Option.bind_eq_some_iff.1 h
    cases h
    have hn := Table.lookup_key hh; subst hn
    refine .inr ⟨hd, _, .inr rfl, rfl, hh, fun r => ?_, rfl⟩
    exact ⟨rfl, rfl, rfl, rfl, rfl, RecordState.noConfusion⟩

/-- Every committed call of a disciplined worker keeps every row. -/
theorem exec_kept (hi : BoardInv b) (hd : Disciplined c v b)
    (h : exec hashIdempotencyRequest c v b = some (a, b')) {r : Record η β} (hr : r ∈ b.records) :
    Kept b' r := by
  rcases exec_cases h with ⟨input, newId, now, answer, records, rfl, rfl, hc, rfl⟩ |
    ⟨hd', f, hcall, rfl, hh, hf, rfl⟩
  · cases hc with
    | inserted record _ _ => exact ⟨r, List.mem_append_left _ hr, rfl, rfl, rfl, fun _ => rfl⟩
    | replayed _ _ _ _ _ => exact ⟨r, hr, rfl, rfl, rfl, fun _ => rfl⟩
    | reclaimed r₀ hv hid hh hc hl _ _ _ =>
      cases hp : reclaimable r₀.id now r with
      | false => exact ⟨r, Table.mem_updateWhere_of_not hr hp, rfl, rfl, rfl, fun _ => rfl⟩
      | true => exact ⟨_, Table.mem_updateWhere_of hr hp, rfl, rfl, rfl, fun hrc =>
          absurd hrc (hd r₀ hv hid hc hl r hr hp)⟩
  · have how : b.owner hd'.recordId = some hd' ∧ hd'.settled = false := by
      rcases hcall with ⟨status, body, rfl⟩ | rfl <;> exact hd hd' hh
    cases hp : decide (r.id = hd'.recordId) with
    | false => exact ⟨r, Table.mem_updateWhere_of_not hr hp, rfl, rfl, rfl, fun _ => rfl⟩
    | true =>
      obtain ⟨h₁, h₂, h₃, h₄, h₅, _⟩ := hf r
      refine ⟨_, Table.mem_updateWhere_of hr hp, h₁, by rw [h₂, h₃, h₄], h₅, fun hrc => ?_⟩
      rw [hi.processing how.1 how.2 hr (by simpa using hp)] at hrc; cases hrc

theorem exec_inv (hi : BoardInv b) (hd : Disciplined c v b)
    (h : exec hashIdempotencyRequest c v b = some (a, b')) : BoardInv b' := by
  rcases exec_cases h with ⟨input, newId, now, answer, records, rfl, rfl, hc, rfl⟩ |
    ⟨hd', f, hcall, rfl, hh, hf, rfl⟩
  · exact hi.answered hc
  · refine hi.settle hf hh ?_
    rcases hcall with ⟨status, body, rfl⟩ | rfl <;> exact (hd hd' hh).1

/-- The views of open calls: every row a call has seen is kept. -/
theorem rely : Rely (exec (β := β) hashIdempotencyRequest) (fun (_ : Unit) _ b => b) BoardInv
    (fun v b => ∀ r ∈ v.records, Kept b r) Disciplined where
  refl _ _ r hr := ⟨r, hr, rfl, rfl, rfl, fun _ => rfl⟩
  reread _ _ _ _ _ r hr := ⟨r, hr, rfl, rfl, rfl, fun _ => rfl⟩
  inv _ _ _ _ _ hi _ hd h := exec_inv hi hd h
  stable _ _ _ _ _ hi _ hd h _ hw r hr := (hw r hr).trans fun _ hq => exec_kept hi hd h hq

/-- A claim whose record is completed when the claim commits is answered with the stored response. -/
def Answered (hashIdempotencyRequest : ρ → η) (c : Call ρ β) (v b : Board η β) : Prop :=
  ∀ input newId now, c = .claim input newId now → ∀ a b', exec hashIdempotencyRequest c v b = some (a, b') →
    ∀ r ∈ b.records, recordIdentity input.tenantId input.scope (Text.trim input.key) r = true →
      r.state = .completed →
      r.requestHash = hashIdempotencyRequest input.request ∧
        a = some (.replay (r.responseStatus.getD 200) r.responseBody) ∧ b' = b

end Exec

section Lifecycle
variable {ρ η β : Type} [DecidableEq η] {hashIdempotencyRequest : ρ → η}

/-- The columns that record an outcome. -/
def Record.outcome (r : Record η β) : Id × RecordState × Option Nat × Option β :=
  (r.id, r.state, r.responseStatus, r.responseBody)

end Lifecycle

end Komanda.Idempotency
