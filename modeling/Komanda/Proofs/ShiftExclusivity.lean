import Komanda.Proofs.FinalApprovals

/-!
# One shift at a time

`open` asks whether a shift of the tenant is open and inserts one afterwards; `close` asks whether its shift is open
and updates it by its id afterwards. Nothing holds between the question and the write: the unique index stands
between two open shifts of one location only, and a shift without a location is distinct from every other.
-/

namespace Komanda
open Transaction Komanda.Core Table Runs ReadCommitted

/-- At most one shift of the tenant is open. -/
def OneOpen (db : Db) : Prop :=
  ∀ x ∈ db.shifts, ∀ y ∈ db.shifts, x.status = .open → y.status = .open → x.id = y.id

instance (db : Db) : Decidable (OneOpen db) := by unfold OneOpen; infer_instance

/-- The closed shifts of `db` are the same rows in `db'`. -/
def ClosedKept (db db' : Db) : Prop := ∀ x ∈ db.shifts, x.status = .closed → x ∈ db'.shifts

/-- The shift that a request closes. -/
def Request.closing (q : Request) : Option Id :=
  match q.action with
  | .closeShift id _ => some id
  | _ => none

/-- The shift that an event closes, when it commits. -/
def closed (s : RcState) : RcEvent → Option Id
  | .commit i => s.opens[i]?.bind fun o => o.action.closing
  | _ => none

/-- The shifts that the commits of a run close, in their order. -/
def closings : RcState → List RcEvent → List Id
  | _, [] => []
  | s, e :: es =>
    match rcStep s e with
    | none => []
    | some s' => (closed s e).toList ++ closings s' es

/-- At most one shift is open at any time, no shift is closed twice, and the figures of a closed one stay. -/
structure ShiftsExclusive (s : RcState) (es : List RcEvent) : Prop where
  oneOpen : Along rcStep (fun s e => ∀ s' ∈ rcStep s e, OneOpen s'.db) s es
  closedOnce : (closings s es).Nodup
  figures : Along rcStep (fun s e => ∀ s' ∈ rcStep s e, ClosedKept s.db s'.db) s es

/-- What the request asked when it began is so when it commits: no shift is open yet, or its shift is not closed
yet. -/
def MeetsShifts (q : Request) (_v db : Db) : Prop :=
  match q.action with
  | .openShift .. => ∀ x ∈ db.shifts, x.status ≠ .open
  | .closeShift id _ => ∀ x ∈ db.shifts, x.id = id → x.status = .open
  | _ => True

instance (q : Request) (v db : Db) : Decidable (MeetsShifts q v db) := by
  apply Action.casesOn (motive := fun a => Decidable (MeetsShifts ⟨a, q.draw⟩ v db)) q.action <;> intros <;>
    dsimp only [MeetsShifts] <;> infer_instance

/-! ## One commit -/

/-- What a committed request does to the shifts. -/
inductive ShiftEdit (q : Request) (v db : Db) : List CashShift → Prop
  | opened (userId : String) (openingBalance : Cents) (locationId : Option Id) (shift : CashShift)
      (hq : q.action = .openShift userId openingBalance locationId shift.id) (hopen : shift.status = .open)
      (hid : ∀ x ∈ db.shifts, x.id ≠ shift.id) : ShiftEdit q v db (db.shifts ++ [shift])
  | closed (id : Id) (closingBalance : Cents) (f : CashShift → CashShift) (hq : q.action = .closeShift id closingBalance)
      (hread : ∃ x ∈ v.shifts, x.id = id) (hf : ∀ x, (f x).id = x.id ∧ (f x).status = .closed) :
      ShiftEdit q v db (updateWhere (·.id = id) f db.shifts)
  | same (hc : q.closing = none) (hm : MeetsShifts q v db) : ShiftEdit q v db db.shifts

section Commit
variable {q : Request} {v w db db' : Db} {a : Answer} {rows : List CashShift}

/-- Only the two operations on shifts write shifts. -/
theorem Effect.shifts_kept {c : Core} (h : Effect q v db c)
    (hq : match q.action with | .openShift .. | .closeShift .. => False | _ => True) : c.shifts = db.shifts := by
  cases h with
  | openShift _ _ _ _ hq' => rw [hq'] at hq; exact hq.elim
  | closeShift _ _ hq' => rw [hq'] at hq; exact hq.elim
  | sold => rw [book_shifts, sell_shifts]; rfl
  | revised => rw [release_shifts, book_shifts, revise_shifts]; rfl
  | _ => rfl

theorem exec_shiftEdit (h : exec q v db = some (a, db')) : ShiftEdit q v db db'.shifts := by
  have hrun := exec_eq.1 h
  cases hq : q.action with
  | openShift userId balance locationId id =>
    rw [hq] at hrun
    obtain ⟨shift, hrun⟩ := commits_effect hrun
    simp only [CashShiftService.openShift, commits_look_bind, commits_throwIf_bind, commits_current_bind,
      commits_write_bind, commits_pure] at hrun
    obtain ⟨-, htaken, -, rfl⟩ := hrun
    refine .opened userId balance locationId _ hq rfl fun x hx hid => htaken ?_
    exact List.any_eq_true.2 ⟨x, hx, by simp [hid]⟩
  | closeShift id balance =>
    rw [hq] at hrun
    obtain ⟨expected, hrun⟩ := commits_effect hrun
    simp only [CashShiftService.close, commits_look_bind, commits_orThrow_bind, commits_throwIf_bind,
      commits_write_bind, commits_pure] at hrun
    obtain ⟨shift, hfound, -, -, rfl⟩ := hrun
    exact .closed id balance _ hq ⟨shift, lookup_mem hfound, lookup_key hfound⟩ fun x => ⟨rfl, rfl⟩
  | _ =>
    rw [show db'.shifts = db.shifts from (exec_effect h).shifts_kept (by rw [hq]; trivial)]
    refine .same ?_ ?_
    · rw [Request.closing, hq]
    · rw [MeetsShifts, hq]; trivial

theorem ShiftEdit.unique (h : ShiftEdit q v db rows) (hu : UniqueOn CashShift.id db.shifts) :
    UniqueOn CashShift.id rows := by
  cases h with
  | opened _ _ _ shift _ _ hid => exact hu.append hid
  | closed id _ f _ _ hf => exact hu.updateWhere fun x _ => (hf x).1
  | same => exact hu

/-- Shifts are never deleted. -/
theorem ShiftEdit.ids (h : ShiftEdit q v db rows) : Extends CashShift.id db.shifts rows := by
  cases h with
  | opened _ _ _ shift => exact .append [shift]
  | closed id _ f _ _ hf => exact .of_eq (map_updateWhere fun x _ => (hf x).1)
  | same => exact .of_eq rfl

/-- A shift stays as it is, is opened, or is the one that the request closes. -/
theorem ShiftEdit.row_cases (h : ShiftEdit q v db rows) {x : CashShift} (hx : x ∈ rows) :
    x ∈ db.shifts ∨ x.status = .open ∨ q.closing = some x.id := by
  cases h with
  | opened _ _ _ shift _ hopen =>
    rcases List.mem_append.1 hx with hx | hx
    · exact .inl hx
    · rw [List.mem_singleton.1 hx]
      exact .inr (.inl hopen)
  | closed id _ f hq _ hf =>
    rcases mem_updateWhere_cases hx with ⟨hx, -⟩ | ⟨y, -, hid, rfl⟩
    · exact .inl hx
    · refine .inr (.inr ?_)
      rw [Request.closing, hq, (hf y).1, of_decide_eq_true hid]
  | same => exact .inl hx

/-- Every shift that a view has seen is still there. -/
def SeesShifts (v db : Db) : Prop := ∀ x ∈ v.shifts, ∃ y ∈ db.shifts, y.id = x.id

theorem seesShifts_rely : Rely exec reread (fun db => UniqueOn CashShift.id db.shifts) SeesShifts
    (fun _ _ _ => True) where
  refl _ _ := fun x hx => ⟨x, hx, rfl⟩
  reread part v db _ h := by
    cases part with
    | cash => exact fun x hx => ⟨x, hx, rfl⟩
    | _ => exact h
  inv _ _ _ _ _ hi _ _ hx := (exec_shiftEdit hx).unique hi
  stable _ _ _ _ _ _ _ _ hx w hw := by
    intro x hx'
    obtain ⟨y, hy, hid⟩ := hw x hx'
    obtain ⟨z, hz, hid'⟩ := (exec_shiftEdit hx).ids.exists_mem hy
    exact ⟨z, hz, hid'.trans hid⟩

/-- The shift that a commit closes is a row of the database, and closed. -/
theorem ShiftEdit.closing_row (h : ShiftEdit q v db rows) (hv : SeesShifts v db) {id : Id} (hid : q.closing = some id) :
    ∃ x ∈ rows, x.id = id ∧ x.status = .closed := by
  cases h with
  | opened _ _ _ _ hq =>
    rw [Request.closing, hq] at hid
    cases hid
  | closed id' _ f hq hread hf =>
    rw [Request.closing, hq] at hid
    cases hid
    obtain ⟨x, hx, hxid⟩ := hread
    obtain ⟨y, hy, hyid⟩ := hv x hx
    exact ⟨f y, mem_updateWhere_of hy (decide_eq_true (hyid.trans hxid)), (hf y).1.trans (hyid.trans hxid), (hf y).2⟩
  | same hc =>
    rw [hc] at hid
    cases hid

/-- A commit leaves one open shift and the closed ones as they are, and closes an open one, exactly when what it
has asked is still so. -/
theorem ShiftEdit.exclusive_iff (h : ShiftEdit q v db db'.shifts) (hone : OneOpen db) :
    MeetsShifts q v db ↔ OneOpen db' ∧ ClosedKept db db' ∧
      ∀ id ∈ q.closing, ∀ x ∈ db.shifts, x.id = id → x.status = .open := by
  generalize hrows : db'.shifts = rows at h
  cases h with
  | opened userId balance locationId shift hq hopen hid =>
    rw [MeetsShifts, hq, OneOpen, ClosedKept, hrows]
    constructor
    · intro hnone
      have heq (x : CashShift) (hx : x ∈ db.shifts ++ [shift]) (hs : x.status = .open) : x = shift := by
        rcases List.mem_append.1 hx with hx | hx
        · exact absurd hs (hnone x hx)
        · exact List.mem_singleton.1 hx
      refine ⟨fun x hx y hy hxo hyo => ?_, fun x hx _ => List.mem_append_left _ hx, fun id hid => ?_⟩
      · rw [heq x hx hxo, heq y hy hyo]
      · rw [Request.closing, hq] at hid; cases hid
    · rintro ⟨hone', -, -⟩ x hx hs
      exact hid x hx (hone' x (List.mem_append_left _ hx) shift (by simp) hs hopen)
  | closed id balance f hq hread hf =>
    rw [MeetsShifts, hq, OneOpen, ClosedKept, hrows]
    have hopened (x : CashShift) (hx : x ∈ updateWhere (·.id = id) f db.shifts) (hs : x.status = .open) :
        x ∈ db.shifts := by
      rcases mem_updateWhere_cases hx with ⟨hx, -⟩ | ⟨y, -, -, rfl⟩
      · exact hx
      · rw [(hf y).2] at hs; cases hs
    constructor
    · intro hmeets
      refine ⟨fun x hx y hy hxo hyo => hone x (hopened x hx hxo) y (hopened y hy hyo) hxo hyo, fun x hx hs => ?_,
        fun id' hid' => ?_⟩
      · refine mem_updateWhere_of_not hx (decide_eq_false fun hid => ?_)
        rw [hmeets x hx hid] at hs
        cases hs
      · rw [Request.closing, hq] at hid'
        cases hid'
        exact hmeets
    · rintro ⟨-, -, hmeets⟩
      exact hmeets id (by rw [Request.closing, hq]; rfl)
  | same hc hm =>
    refine iff_of_true hm ⟨?_, ?_, ?_⟩
    · rw [OneOpen, hrows]; exact hone
    · rw [ClosedKept, hrows]; exact fun x hx _ => hx
    · rw [hc]; intro id hid; cases hid

end Commit

/-! ## Runs -/

section Runs
variable {s s' : RcState} {e : RcEvent} {es : List RcEvent}

/-- The shifts that are to be closed are open. -/
def ToClose (s : RcState) (es : List RcEvent) : Prop :=
  ∀ id ∈ closings s es, ∀ x ∈ s.db.shifts, x.id = id → x.status = .open

theorem not_open_of_closed {x : CashShift} (h : x.status = .closed) : x.status ≠ .open := by
  rw [h]; exact fun h => by cases h

theorem closed_of_not_open {x : CashShift} (h : x.status ≠ .open) : x.status = .closed := by
  cases hs : x.status with
  | closed => rfl
  | _ => exact absurd hs h

/-- What a step does to the shifts: what it takes to keep the laws, the row of a shift that it closes, and where the
rows after it come from. -/
structure ShiftStep (s : RcState) (e : RcEvent) (s' : RcState) : Prop where
  meets : AtCommit MeetsShifts s e ↔ OneOpen s'.db ∧ ClosedKept s.db s'.db ∧
    ∀ id ∈ closed s e, ∀ x ∈ s.db.shifts, x.id = id → x.status = .open
  row : ∀ id ∈ closed s e, ∃ x ∈ s'.db.shifts, x.id = id ∧ x.status = .closed
  rows : ∀ x ∈ s'.db.shifts, x ∈ s.db.shifts ∨ x.status = .open ∨ closed s e = some x.id

theorem rcStep_shifts (hi : Inv (fun db => UniqueOn CashShift.id db.shifts) SeesShifts s) (hone : OneOpen s.db)
    (h : rcStep s e = some s') : ShiftStep s e s' := by
  have hquiet (hdb : s'.db = s.db) (hc : closed s e = none) (hm : AtCommit MeetsShifts s e) : ShiftStep s e s' := by
    constructor
    · rw [hdb, hc]
      exact iff_of_true hm ⟨hone, fun x hx _ => hx, by simp⟩
    · rw [hc]
      intro id hid
      cases hid
    · rw [hdb]
      exact fun x hx => .inl hx
  cases e with
  | start q => cases h; exact hquiet rfl rfl trivial
  | reread i part =>
    obtain ⟨o, -, rfl⟩ := Option.map_eq_some_iff.1 h
    exact hquiet rfl rfl trivial
  | abort i =>
    obtain ⟨o, -, rfl⟩ := Option.map_eq_some_iff.1 h
    exact hquiet rfl rfl trivial
  | commit i =>
    obtain ⟨o, ho, h⟩ := Option.bind_eq_some_iff.1 h
    obtain ⟨⟨a, db'⟩, hx, rfl⟩ := Option.map_eq_some_iff.1 h
    have hedit := exec_shiftEdit hx
    have hclosed : closed s (.commit i) = o.action.closing := by rw [closed, ho]; rfl
    have hmeets : AtCommit MeetsShifts s (.commit i : RcEvent) ↔ MeetsShifts o.action o.view s.db := by
      simp [AtCommit, ho]
    constructor
    · rw [hclosed, hmeets]
      exact hedit.exclusive_iff hone
    · rw [hclosed]
      exact fun id hid => hedit.closing_row (hi.views o (List.mem_of_getElem? ho)) hid
    · rw [hclosed]
      exact fun x hx => hedit.row_cases hx

/-- The laws of a run are those of its first step and those of the rest. -/
theorem shiftsExclusive_cons (hs : rcStep s e = some s') :
    ShiftsExclusive s (e :: es) ↔ OneOpen s'.db ∧ ClosedKept s.db s'.db ∧
      (∀ id ∈ closed s e, id ∉ closings s' es) ∧ ShiftsExclusive s' es := by
  have hclosings : closings s (e :: es) = (closed s e).toList ++ closings s' es := by simp only [closings, hs]
  have hnodup : (closings s (e :: es)).Nodup ↔
      (∀ id ∈ closed s e, id ∉ closings s' es) ∧ (closings s' es).Nodup := by
    rw [hclosings]
    cases closed s e with
    | none => simp
    | some id => simp
  constructor
  · rintro ⟨⟨hone, hones⟩, hclosed, hkept, hkepts⟩
    have hclosed := hnodup.1 hclosed
    exact ⟨hone s' hs, hkept s' hs, hclosed.1, hones s' hs, hclosed.2, hkepts s' hs⟩
  · rintro ⟨hone, hkept, hclosed, hrest⟩
    have hnext {P : RcState → Prop} (hp : P s') : ∀ s₁ ∈ rcStep s e, P s₁ := by
      intro s₁ hs₁
      cases hs.symm.trans hs₁
      exact hp
    exact ⟨⟨hnext hone, hnext hrest.oneOpen⟩, hnodup.2 ⟨hclosed, hrest.closedOnce⟩, hnext hkept, hnext hrest.figures⟩

/-- The laws of a run from a state in which one shift is open at most, and what they ask of its commits. -/
theorem exclusive_along_iff
    (hi : Inv (fun db => UniqueOn CashShift.id db.shifts) SeesShifts s) (hone : OneOpen s.db)
    (hr : Runs.exec rcStep s es = some s') :
    ShiftsExclusive s es ∧ ToClose s es ↔ Along rcStep (AtCommit MeetsShifts) s es := by
  induction es generalizing s with
  | nil =>
    exact iff_of_true ⟨⟨trivial, List.nodup_nil, trivial⟩, fun id hid => absurd hid List.not_mem_nil⟩ trivial
  | cons e es ih =>
    obtain ⟨s₁, hs, hr⟩ := exec_cons.1 hr
    have hi₁ := step_inv seesShifts_rely e hi (by cases e <;> simp [AtCommit]) hs
    obtain ⟨hmeets, hrow, hrows⟩ := rcStep_shifts hi hone hs
    have hclosings {id : Id} : id ∈ closings s (e :: es) ↔ closed s e = some id ∨ id ∈ closings s₁ es := by
      simp only [closings, hs, List.mem_append, Option.mem_toList]
    simp only [Along, hs, Option.mem_some_iff, forall_eq']
    rw [shiftsExclusive_cons hs, hmeets]
    constructor
    · rintro ⟨⟨hone₁, hkept, hfirst, hrest⟩, htoClose⟩
      refine ⟨⟨hone₁, hkept, fun id hid => htoClose id (hclosings.2 (.inl hid))⟩, ?_⟩
      refine (ih hi₁ hone₁ hr).1 ⟨hrest, fun id hid x hx hxid => ?_⟩
      -- a row of the next state is an old one, a new one, or the one that has just been closed
      rcases hrows x hx with hx | hopen | hclosed
      · exact htoClose id (hclosings.2 (.inr hid)) x hx hxid
      · exact hopen
      · exact absurd hid (hfirst id (hxid ▸ hclosed))
    · rintro ⟨⟨hone₁, hkept, hmeets⟩, halong⟩
      obtain ⟨hrest, htoClose⟩ := (ih hi₁ hone₁ hr).2 halong
      refine ⟨⟨hone₁, hkept, fun id hid hagain => ?_, hrest⟩, fun id hid x hx hxid => ?_⟩
      · obtain ⟨x, hx, hxid, hxs⟩ := hrow id hid
        exact not_open_of_closed hxs (htoClose id hagain x hx hxid)
      · rcases hclosings.1 hid with hid | hid
        · exact hmeets id hid x hx hxid
        · by_contra hne
          have hxs := closed_of_not_open hne
          exact hne (htoClose id hid x (hkept x hx hxs) hxid)

/-- One shift is open at most, no shift is closed twice, and closed shifts stay as they are, exactly along the runs in
which what a transaction has asked of the shifts is still so when it commits. -/
theorem shifts_exclusive_iff (tenantId : Id) (settings : Settings)
    (hr : Runs.exec rcStep (RcState.fresh tenantId settings) es = some s) :
    ShiftsExclusive (RcState.fresh tenantId settings) es ↔
      Along rcStep (AtCommit MeetsShifts) (RcState.fresh tenantId settings) es := by
  have hi : Inv (fun db => UniqueOn CashShift.id db.shifts) SeesShifts (RcState.fresh tenantId settings) :=
    ⟨.nil, fun o ho => absurd ho List.not_mem_nil⟩
  rw [← exclusive_along_iff hi (fun x hx => absurd hx List.not_mem_nil) hr]
  exact ⟨fun h => ⟨h, fun id _ x hx => absurd hx List.not_mem_nil⟩, And.left⟩

end Runs

namespace Demo

def openTill (now : Instant) (shiftId : Id) : Request :=
  call now shiftId (.openShift "operator" 5000 none shiftId)

def closeTill (now : Instant) (shiftId : Id) (counted : Cents) : Request :=
  call now shiftId (.closeShift shiftId counted)

/-- A day at the counter, and the next one. -/
def twoDays : List RcEvent :=
  inTurn [openTill 1 "monday", closeTill 2 "monday" 5000, openTill 3 "tuesday", closeTill 4 "tuesday" 4900]

/-- Two operators open a shift at the same time. -/
def openedTwice : List RcEvent :=
  [.start (openTill 1 "monday"), .start (openTill 1 "second"), .commit 0, .commit 0]

/-- Two operators close one shift at the same time, with different counts. -/
def closedTwice : List RcEvent :=
  inTurn [openTill 1 "monday"] ++
    [.start (closeTill 2 "monday" 5000), .start (closeTill 2 "monday" 4900), .commit 0, .commit 0]

end Demo

open Demo

theorem shifts_exclusive_two_days : ∃ s,
    Runs.exec rcStep (RcState.fresh "tenant" settings) twoDays = some s ∧
      (ShiftsExclusive (RcState.fresh "tenant" settings) twoDays ↔
        Along rcStep (AtCommit MeetsShifts) (RcState.fresh "tenant" settings) twoDays) ∧
      ShiftsExclusive (RcState.fresh "tenant" settings) twoDays := by
  have hx : (Runs.exec rcStep (RcState.fresh "tenant" settings) twoDays).isSome = true := by decide +kernel
  obtain ⟨s, hr⟩ := Option.isSome_iff_exists.1 hx
  have hiff := shifts_exclusive_iff "tenant" settings hr
  exact ⟨s, hr, hiff, hiff.2 (by decide +kernel)⟩

/-- Both operators have seen that no shift is open; and both of two others have seen the shift they close open. -/
theorem shifts_opened_and_closed_twice :
    ¬ ShiftsExclusive (RcState.fresh "tenant" settings) openedTwice ∧
      ¬ ShiftsExclusive (RcState.fresh "tenant" settings) closedTwice := by
  constructor
  · intro h
    exact absurd h.oneOpen (by decide +kernel)
  · intro h
    have hclosed : closings (RcState.fresh "tenant" settings) closedTwice = ["monday", "monday"] := by decide +kernel
    have hnodup := h.closedOnce
    rw [hclosed] at hnodup
    exact absurd hnodup (by decide)

end Komanda
