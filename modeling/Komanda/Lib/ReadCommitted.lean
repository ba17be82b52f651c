import Komanda.Lib.Runs

/-!
# Transactions under READ COMMITTED

A `Session` is the committed state with the transactions that are open on it. An open transaction
has not written anything others can see; its unlocked reads have been answered by its *view*, the
state it started on, parts of which it may read again later (`Event.reread`). A commit runs the body
on the view and the committed state of that moment; a body that rolls back does not commit.

`exec a view db` is the body of action `a`. The rule `step_inv` is the rely-guarantee principle for
such sessions: `I` is the invariant of the committed state, `J` relates every open view to it. An
action has to keep `I`, and `J` for the views of all others; it may use `I`, its own `J`, and the
condition `C` met by the commits of the run.
-/

namespace ReadCommitted
open Runs

variable {σ α β ρ : Type}

/-- An open transaction: its action, and what its unlocked reads have seen. -/
structure Open (σ α : Type) where
  action : α
  view : σ

/-- The committed state and the transactions open on it. -/
structure Session (σ α : Type) where
  db : σ
  opens : List (Open σ α)

inductive Event (α ρ : Type)
  /-- A transaction starts; its view is the committed state. -/
  | start (a : α)
  /-- The `i`-th open transaction reads the part `r` of the state again. -/
  | reread (i : Nat) (r : ρ)
  /-- The `i`-th open transaction commits. -/
  | commit (i : Nat)
  /-- The `i`-th open transaction rolls back. -/
  | abort (i : Nat)

variable (exec : α → σ → σ → Option (β × σ)) (reread : ρ → σ → σ → σ)

def step (s : Session σ α) : Event α ρ → Option (Session σ α)
  | .start a => some { s with opens := s.opens ++ [⟨a, s.db⟩] }
  | .reread i r => s.opens[i]?.map fun o =>
      { s with opens := s.opens.set i { o with view := reread r o.view s.db } }
  | .commit i => s.opens[i]?.bind fun o => (exec o.action o.view s.db).map fun p =>
      { db := p.2, opens := s.opens.eraseIdx i }
  | .abort i => s.opens[i]?.map fun _ => { s with opens := s.opens.eraseIdx i }

/-- A condition on the commits: on the action, its view, and the committed state it meets. -/
def AtCommit (C : α → σ → σ → Prop) (s : Session σ α) : Event α ρ → Prop
  | .commit i => ∀ o ∈ s.opens[i]?, C o.action o.view s.db
  | _ => True

instance AtCommit.decidable (C : α → σ → σ → Prop) [∀ a v s, Decidable (C a v s)]
    (s : Session σ α) : ∀ e : Event α ρ, Decidable (AtCommit C s e)
  | .commit i => inferInstanceAs (Decidable (∀ o ∈ s.opens[i]?, C o.action o.view s.db))
  | .start _ => inferInstanceAs (Decidable True)
  | .reread _ _ => inferInstanceAs (Decidable True)
  | .abort _ => inferInstanceAs (Decidable True)

/-- The committed state meets `I`, and every open view is related to it by `J`. -/
structure Inv (I : σ → Prop) (J : σ → σ → Prop) (s : Session σ α) : Prop where
  db : I s.db
  views : ∀ o ∈ s.opens, J o.view s.db

variable {exec reread} {I : σ → Prop} {J : σ → σ → Prop} {C : α → σ → σ → Prop}
  {s s' : Session σ α}

/-- What the actions owe each other: each keeps `I`, and `J` for every view open beside it. -/
structure Rely (exec : α → σ → σ → Option (β × σ)) (reread : ρ → σ → σ → σ) (I : σ → Prop)
    (J : σ → σ → Prop) (C : α → σ → σ → Prop) : Prop where
  refl : ∀ db, I db → J db db
  reread : ∀ r v db, I db → J v db → J (reread r v db) db
  inv : ∀ a v db b db', I db → J v db → C a v db → exec a v db = some (b, db') → I db'
  stable : ∀ a v db b db', I db → J v db → C a v db → exec a v db = some (b, db') →
    ∀ w, J w db → J w db'

/-- A property that the commits keep, given the invariant, may be added to it. -/
theorem Rely.and (h : Rely exec reread I J C) {Q : σ → Prop}
    (hQ : ∀ a v db b db', I db → J v db → C a v db → exec a v db = some (b, db') → Q db → Q db') :
    Rely exec reread (fun db => I db ∧ Q db) J C where
  refl db hi := h.refl db hi.1
  reread r v db hi := h.reread r v db hi.1
  inv a v db b db' hi hv hc hx :=
    ⟨h.inv a v db b db' hi.1 hv hc hx, hQ a v db b db' hi.1 hv hc hx hi.2⟩
  stable a v db b db' hi := h.stable a v db b db' hi.1

theorem step_inv (h : Rely exec reread I J C) (e : Event α ρ) (hi : Inv I J s) (hc : AtCommit C s e)
    (hs : step exec reread s e = some s') : Inv I J s' := by
  cases e with
  | start a =>
    cases hs
    refine ⟨hi.db, fun o ho => ?_⟩
    rcases List.mem_append.1 ho with ho | ho
    · exact hi.views o ho
    · rw [List.mem_singleton] at ho; subst ho; exact h.refl _ hi.db
  | reread i r =>
    obtain ⟨o, ho, rfl⟩ := Option.map_eq_some_iff.1 hs
    refine ⟨hi.db, fun o' ho' => ?_⟩
    rcases List.mem_or_eq_of_mem_set ho' with ho' | rfl
    · exact hi.views o' ho'
    · exact h.reread r _ _ hi.db (hi.views o (List.mem_of_getElem? ho))
  | commit i =>
    obtain ⟨o, ho, hs⟩ := Option.bind_eq_some_iff.1 hs
    obtain ⟨⟨b, db'⟩, hx, rfl⟩ := Option.map_eq_some_iff.1 hs
    have hv := hi.views o (List.mem_of_getElem? ho)
    have hco := hc o ho
    exact ⟨h.inv _ _ _ _ _ hi.db hv hco hx, fun o' ho' =>
      h.stable _ _ _ _ _ hi.db hv hco hx _ (hi.views o' (List.mem_of_mem_eraseIdx ho'))⟩
  | abort i =>
    obtain ⟨o, ho, rfl⟩ := Option.map_eq_some_iff.1 hs
    exact ⟨hi.db, fun o' ho' => hi.views o' (List.mem_of_mem_eraseIdx ho')⟩

/-- The invariant holds in every session that a run of such commits reaches. -/
theorem exec_inv (h : Rely exec reread I J C) {es : List (Event α ρ)} (h₀ : Inv I J s)
    (hC : Along (step exec reread) (AtCommit C) s es)
    (hr : Runs.exec (step exec reread) s es = some s') : Inv I J s' :=
  Runs.exec_inv (fun _ e _ hi hc hs => step_inv h e hi hc hs) h₀ hC hr

/-- What needs no condition on the commits is kept by every run. -/
theorem Rely.run_inv (h : Rely exec reread I J fun _ _ _ => True) {es : List (Event α ρ)} (h₀ : Inv I J s)
    (hr : Runs.exec (step exec reread) s es = some s') : Inv I J s' := by
  refine exec_inv h h₀ (Along.of_forall fun s e => ?_) hr
  cases e with
  | commit i => exact fun _ _ => trivial
  | start a => trivial
  | reread i r => trivial
  | abort i => trivial

/-- Every commit of such a run meets what follows from the invariant and the condition. -/
theorem along_commits (h : Rely exec reread I J C) {D : α → σ → σ → Prop} {es : List (Event α ρ)}
    (hD : ∀ a v db, I db → J v db → C a v db → D a v db) (h₀ : Inv I J s)
    (hC : Along (step exec reread) (AtCommit C) s es) :
    Along (step exec reread) (AtCommit D) s es := by
  refine Along.mono (fun _ e _ hi hc hs => step_inv h e hi hc hs) (fun s e hi hc => ?_) h₀ hC
  cases e with
  | commit i => exact fun o ho => hD _ _ _ hi.db (hi.views o (List.mem_of_getElem? ho)) (hc o ho)
  | start a => trivial
  | reread i r => trivial
  | abort i => trivial

/-- An action on which nothing overlaps commits on the state it has seen. -/
theorem along_call {a : α} (hnone : s.opens = [])
    (h : Along (step exec reread) (AtCommit C) s [(.start a : Event α ρ), .commit 0]) : C a s.db s.db := by
  have hstart : step exec reread s (.start a : Event α ρ) = some { s with opens := s.opens ++ [⟨a, s.db⟩] } := rfl
  have hcommit := (h.2 _ hstart).1
  rw [hnone] at hcommit
  exact hcommit ⟨a, s.db⟩ rfl

/-- Two conditions that a committed action meets together, given the invariant, hold along the same runs. -/
theorem along_commits_iff (h : Rely exec reread I J C) {D : α → σ → σ → Prop} {es : List (Event α ρ)}
    (hD : ∀ a v db b db', I db → J v db → exec a v db = some (b, db') → (C a v db ↔ D a v db))
    (h₀ : Inv I J s) (hr : Runs.exec (step exec reread) s es = some s') :
    Along (step exec reread) (AtCommit C) s es ↔ Along (step exec reread) (AtCommit D) s es := by
  refine Along.congr (fun _ e _ hi hc hs => step_inv h e hi hc hs) (fun s e s' hi hs => ?_) h₀ hr
  cases e with
  | commit i =>
    obtain ⟨o, ho, hs⟩ := Option.bind_eq_some_iff.1 hs
    obtain ⟨⟨b, db'⟩, hx, -⟩ := Option.map_eq_some_iff.1 hs
    have hcd := hD _ _ _ b db' hi.db (hi.views o (List.mem_of_getElem? ho)) hx
    simp [AtCommit, ho, hcd]
  | start a => exact Iff.rfl
  | reread i r => exact Iff.rfl
  | abort i => exact Iff.rfl

/-- A law of the committed state holds all along a run exactly when its commits meet the condition under which the
law survives one. The invariant and the views are kept whether it survives or not. -/
theorem Rely.along_law_iff {L : σ → Prop} {es : List (Event α ρ)} (h : Rely exec reread I J fun _ _ _ => True)
    (hlaw : ∀ a v db b db', I db → J v db → L db → exec a v db = some (b, db') → (L db' ↔ C a v db))
    (h₀ : Inv I J s) (hL : L s.db) (hr : Runs.exec (step exec reread) s es = some s') :
    Along (step exec reread) (fun s e => ∀ s' ∈ step exec reread s e, L s'.db) s es ↔
      Along (step exec reread) (AtCommit C) s es := by
  refine Along.congr (I := fun s => Inv I J s ∧ L s.db) ?_ ?_ ⟨h₀, hL⟩ hr
  · rintro s e s' ⟨hi, -⟩ hkept hs
    refine ⟨step_inv h e hi ?_ hs, hkept s' hs⟩
    cases e with
    | commit i => exact fun _ _ => trivial
    | start a => trivial
    | reread i r => trivial
    | abort i => trivial
  · rintro s e s' ⟨hi, hl⟩ hs
    have hself : (∀ s' ∈ step exec reread s e, L s'.db) ↔ L s'.db := by simp [hs]
    rw [hself]
    cases e with
    | start a => cases hs; exact iff_of_true hl trivial
    | reread i r =>
      obtain ⟨o, -, rfl⟩ := Option.map_eq_some_iff.1 hs
      exact iff_of_true hl trivial
    | commit i =>
      obtain ⟨o, ho, hs⟩ := Option.bind_eq_some_iff.1 hs
      obtain ⟨⟨b, db'⟩, hx, rfl⟩ := Option.map_eq_some_iff.1 hs
      rw [hlaw _ _ _ _ _ hi.db (hi.views o (List.mem_of_getElem? ho)) hl hx]
      simp [AtCommit, ho]
    | abort i =>
      obtain ⟨o, -, rfl⟩ := Option.map_eq_some_iff.1 hs
      exact iff_of_true hl trivial

/-- The same of a law that depends on no view. -/
theorem along_law_iff {L : σ → Prop} {es : List (Event α ρ)}
    (hinv : ∀ a v db b db', I db → exec a v db = some (b, db') → I db')
    (hlaw : ∀ a v db b db', I db → L db → exec a v db = some (b, db') → (L db' ↔ C a v db))
    (h₀ : I s.db) (hL : L s.db) (hr : Runs.exec (step exec reread) s es = some s') :
    Along (step exec reread) (fun s e => ∀ s' ∈ step exec reread s e, L s'.db) s es ↔
      Along (step exec reread) (AtCommit C) s es := by
  have hrely : Rely exec reread I (fun _ _ => True) fun _ _ _ => True :=
    { refl := fun _ _ => trivial
      reread := fun _ _ _ _ _ => trivial
      inv := fun a v db b db' hi _ _ hx => hinv a v db b db' hi hx
      stable := fun _ _ _ _ _ _ _ _ _ _ _ => trivial }
  exact hrely.along_law_iff (fun a v db b db' hi _ hl hx => hlaw a v db b db' hi hl hx) ⟨h₀, fun _ _ => trivial⟩ hL hr

end ReadCommitted
