import Mathlib.Data.List.Forall2

/-!
# Transactions over a view and a current state

`Tx σ ε α` is the body of one database transaction. It runs on two states: the *view*, which answers
the unlocked reads the body decides on, and the *current* state, which its locked reads and its
conditional writes meet. An exception rolls the transaction back, so only committed runs
(`Commits`) have a resulting state. A transaction that nobody interrupts runs with its own starting
state as the view (`CommitsAlone`); under READ COMMITTED the view may be older (`ReadCommitted`).

The simp set computes `Commits` of every combinator, so that `simp only [tx_simps..]` on a body gives
its guards and the state it leaves, in the order of the body. `Within R x` is the frame rule for a
preorder `R`: every committed run of `x` takes the state along `R`; its rules follow the syntax of a body.
`Keeps f x` is the case that `f` stays as it is.
-/

namespace Transaction

/-- A transaction body: view, current state, result or rolled back with an error. -/
abbrev Tx (σ ε α : Type) := ReaderT σ (StateT σ (Except ε)) α

variable {σ ε α β γ : Type}

/-- An unlocked read: answered by the view. -/
def look (f : σ → α) : Tx σ ε α := fun v s => .ok (f v, s)

/-- A read of the current state: of a locked row, or of what this transaction wrote. -/
def current (f : σ → α) : Tx σ ε α := fun _ s => .ok (f s, s)

/-- A write. -/
def write (f : σ → σ) : Tx σ ε Unit := fun _ s => .ok ((), f s)

/-- Roll back with `e` when `c` holds. -/
def throwIf (c : Prop) [Decidable c] (e : ε) : Tx σ ε Unit := if c then throw e else pure ()

/-- The value of `o`, or roll back with `e`. -/
def orThrow (o : Option α) (e : ε) : Tx σ ε α :=
  match o with
  | some a => pure a
  | none => throw e

/-- The value of `r`, or roll back with its error. -/
def fromExcept (r : Except ε α) : Tx σ ε α :=
  match r with
  | .ok a => pure a
  | .error e => throw e

/-- Run `x` only when `c` holds. -/
def runIf (c : Prop) [Decidable c] (x : Tx σ ε Unit) : Tx σ ε Unit := if c then x else pure ()

/-- Run `f` on the value of `o`, if it has one. -/
def forSome (o : Option α) (f : α → Tx σ ε Unit) : Tx σ ε Unit :=
  match o with
  | some a => f a
  | none => pure ()

/-- Run `f` on every element of a list, in order. -/
def each (f : α → Tx σ ε Unit) : List α → Tx σ ε Unit
  | [] => pure ()
  | a :: as => do f a; each f as

/-- A transaction body on a part `τ` of the state. -/
def zoom {τ ε' : Type} (get : σ → τ) (set : τ → σ → σ) (wrap : ε' → ε) (x : Tx τ ε' α) : Tx σ ε α :=
  fun v s =>
    match x (get v) (get s) with
    | .ok (a, t) => .ok (a, set t s)
    | .error e => .error (wrap e)

/-- The body, run with view `v` from `s`, commits with result `a` and state `s'`. -/
def Commits (x : Tx σ ε α) (v s : σ) (a : α) (s' : σ) : Prop := x v s = .ok (a, s')

/-- The body commits when nothing runs beside it. -/
def CommitsAlone (x : Tx σ ε α) (s : σ) (a : α) (s' : σ) : Prop := Commits x s s a s'

section Commits
variable {v s s' : σ} {a : α}

@[simp] theorem commits_pure {b : α} : Commits (ε := ε) (pure b) v s a s' ↔ b = a ∧ s = s' := by
  show Except.ok (b, s) = Except.ok (a, s') ↔ _
  rw [Except.ok.injEq, Prod.mk.injEq]

@[simp] theorem commits_throw {e : ε} : Commits (throw e : Tx σ ε α) v s a s' ↔ False :=
  iff_of_false (fun h => nomatch (show Except.error e = Except.ok (a, s') from h)) id

@[simp] theorem commits_bind {x : Tx σ ε β} {f : β → Tx σ ε α} :
    Commits (x >>= f) v s a s' ↔ ∃ b s₁, Commits x v s b s₁ ∧ Commits (f b) v s₁ a s' := by
  simp only [Commits, bind, ReaderT.bind, StateT.bind, Except.bind]
  cases hx : x v s with
  | error e => simp
  | ok p =>
    obtain ⟨b, s₁⟩ := p
    refine ⟨fun h => ⟨b, s₁, rfl, h⟩, ?_⟩
    rintro ⟨b', s₁', h, h'⟩
    cases h; exact h'

theorem commits_map {x : Tx σ ε β} {f : β → α} : Commits (f <$> x) v s a s' ↔ ∃ b, Commits x v s b s' ∧ f b = a := by
  rw [map_eq_pure_bind, commits_bind]
  constructor
  · rintro ⟨b, s₁, hx, hp⟩
    obtain ⟨hb, rfl⟩ := commits_pure.1 hp
    exact ⟨b, hx, hb⟩
  · rintro ⟨b, hx, hb⟩
    exact ⟨b, s', hx, commits_pure.2 ⟨hb, rfl⟩⟩

@[simp] theorem commits_look {f : σ → α} : Commits (ε := ε) (look f) v s a s' ↔ f v = a ∧ s = s' := by
  simp [Commits, look]

@[simp] theorem commits_current {f : σ → α} :
    Commits (ε := ε) (current f) v s a s' ↔ f s = a ∧ s = s' := by
  simp [Commits, current]

@[simp] theorem commits_write {f : σ → σ} {u : Unit} :
    Commits (ε := ε) (write f) v s u s' ↔ f s = s' := by
  simp [Commits, write]

@[simp] theorem commits_ite {c : Prop} [Decidable c] {x y : Tx σ ε α} :
    Commits (if c then x else y) v s a s' ↔ (c ∧ Commits x v s a s') ∨ (¬ c ∧ Commits y v s a s') := by
  split <;> simp_all

@[simp] theorem commits_throwIf {c : Prop} [Decidable c] {e : ε} {u : Unit} :
    Commits (throwIf c e) v s u s' ↔ ¬ c ∧ s = s' := by
  simp [throwIf]

@[simp] theorem commits_orThrow {o : Option α} {e : ε} :
    Commits (orThrow o e) v s a s' ↔ o = some a ∧ s = s' := by
  cases o <;> simp [orThrow]

@[simp] theorem commits_fromExcept {r : Except ε α} :
    Commits (fromExcept r) v s a s' ↔ r = .ok a ∧ s = s' := by
  cases r <;> simp [fromExcept]

@[simp] theorem commits_runIf {c : Prop} [Decidable c] {x : Tx σ ε Unit} {u : Unit} :
    Commits (runIf c x) v s u s' ↔ (c ∧ Commits x v s u s') ∨ (¬ c ∧ s = s') := by
  simp [runIf]

theorem commits_forSome {o : Option β} {f : β → Tx σ ε Unit} {u : Unit} :
    Commits (forSome o f) v s u s' ↔
      (∃ b, o = some b ∧ Commits (f b) v s u s') ∨ (o = none ∧ s = s') := by
  cases o <;> simp [forSome]

@[simp] theorem commits_zoom {τ ε' : Type} {get : σ → τ} {set : τ → σ → σ} {wrap : ε' → ε}
    {x : Tx τ ε' α} : Commits (zoom get set wrap x) v s a s' ↔
      ∃ t, Commits x (get v) (get s) a t ∧ set t s = s' := by
  simp only [Commits, zoom]
  cases x (get v) (get s) with
  | error e => simp
  | ok p => simp [Prod.ext_iff, and_assoc]

theorem toOption_eq {x : Tx σ ε α} : (x v s).toOption = some (a, s') ↔ Commits x v s a s' := by
  unfold Commits
  cases x v s with
  | error e => simp [Except.toOption]
  | ok p => simp [Except.toOption]

/-! What a first statement leaves of the body after it. -/

variable {g : β → Tx σ ε α} {k : Unit → Tx σ ε α}

theorem commits_look_bind {f : σ → β} : Commits (look f >>= g) v s a s' ↔ Commits (g (f v)) v s a s' := Iff.rfl

theorem commits_current_bind {f : σ → β} : Commits (current f >>= g) v s a s' ↔ Commits (g (f s)) v s a s' := Iff.rfl

theorem commits_write_bind {f : σ → σ} : Commits (write f >>= k) v s a s' ↔ Commits (k ()) v (f s) a s' := Iff.rfl

theorem commits_throwIf_bind {c : Prop} [Decidable c] {e : ε} :
    Commits (throwIf c e >>= k) v s a s' ↔ ¬ c ∧ Commits (k ()) v s a s' := by
  rw [commits_bind]
  constructor
  · rintro ⟨_, _, h, hk⟩
    obtain ⟨hc, rfl⟩ := commits_throwIf.1 h
    exact ⟨hc, hk⟩
  · rintro ⟨hc, hk⟩
    exact ⟨(), s, commits_throwIf.2 ⟨hc, rfl⟩, hk⟩

theorem commits_orThrow_bind {o : Option β} {e : ε} :
    Commits (orThrow o e >>= g) v s a s' ↔ ∃ b, o = some b ∧ Commits (g b) v s a s' := by
  simp only [commits_bind, commits_orThrow, and_assoc, exists_and_left, exists_eq_left']

theorem commits_fromExcept_bind {r : Except ε β} :
    Commits (fromExcept r >>= g) v s a s' ↔ ∃ b, r = .ok b ∧ Commits (g b) v s a s' := by
  simp only [commits_bind, commits_fromExcept, and_assoc, exists_and_left, exists_eq_left']

end Commits

/-- Every committed run of `x` takes the state along `R`. -/
def Within (R : σ → σ → Prop) (x : Tx σ ε α) : Prop := ∀ v s a s', Commits x v s a s' → R s s'

namespace Within
variable {R : σ → σ → Prop}

@[grind ←] theorem pure [Std.Refl R] (a : α) : Within R (Pure.pure a : Tx σ ε α) := by
  intro v s b s' h
  rw [(commits_pure.1 h).2]
  exact Std.Refl.refl s'

@[grind ←] theorem throw (e : ε) : Within R (MonadExcept.throw e : Tx σ ε α) := fun _ _ _ _ h =>
  absurd (commits_throw.1 h) id

@[grind ←] theorem bind [Trans R R R] {x : Tx σ ε β} {k : β → Tx σ ε α} (hx : Within R x)
    (hk : ∀ b, Within R (k b)) : Within R (x >>= k) := by
  intro v s a s' h
  obtain ⟨b, s₁, h₁, h₂⟩ := commits_bind.1 h
  exact Trans.trans (hx v s b s₁ h₁) (hk b v s₁ a s' h₂)

@[grind ←] theorem look [Std.Refl R] (g : σ → α) : Within R (Transaction.look g : Tx σ ε α) := by
  intro v s a s' h
  rw [(commits_look.1 h).2]
  exact Std.Refl.refl s'

@[grind ←] theorem current [Std.Refl R] (g : σ → α) : Within R (Transaction.current g : Tx σ ε α) := by
  intro v s a s' h
  rw [(commits_current.1 h).2]
  exact Std.Refl.refl s'

@[grind ←] theorem write {g : σ → σ} (hg : ∀ s, R s (g s)) :
    Within R (Transaction.write g : Tx σ ε Unit) := by
  intro v s a s' h
  rw [← commits_write.1 h]
  exact hg s

theorem zoom {τ ε' : Type} {get : σ → τ} {set : τ → σ → σ} {wrap : ε' → ε} {x : Tx τ ε' α}
    {Q : τ → τ → Prop} (hx : Within Q x) (hR : ∀ s t, Q (get s) t → R s (set t s)) :
    Within R (zoom get set wrap x) := by
  intro v s a s' h
  obtain ⟨t, ht, rfl⟩ := commits_zoom.1 h
  exact hR s t (hx _ _ _ _ ht)

theorem ite {c : Prop} [Decidable c] {x y : Tx σ ε α} (hx : Within R x) (hy : Within R y) :
    Within R (if c then x else y) := by
  split <;> assumption

@[grind ←] theorem throwIf [Std.Refl R] (c : Prop) [Decidable c] (e : ε) :
    Within R (Transaction.throwIf c e : Tx σ ε Unit) := ite (throw e) (pure ())

@[grind ←] theorem orThrow [Std.Refl R] (o : Option α) (e : ε) :
    Within R (Transaction.orThrow o e : Tx σ ε α) := by
  cases o with
  | none => exact throw e
  | some a => exact pure a

@[grind ←] theorem fromExcept [Std.Refl R] (r : Except ε α) :
    Within R (Transaction.fromExcept r : Tx σ ε α) := by
  cases r with
  | error e => exact throw e
  | ok a => exact pure a

@[grind ←] theorem runIf [Std.Refl R] {c : Prop} [Decidable c] {x : Tx σ ε Unit} (hx : Within R x) :
    Within R (Transaction.runIf c x) := ite hx (pure ())

@[grind ←] theorem forSome [Std.Refl R] {o : Option β} {k : β → Tx σ ε Unit}
    (hk : ∀ b, Within R (k b)) : Within R (Transaction.forSome o k) := by
  cases o with
  | none => exact pure ()
  | some b => exact hk b

@[grind ←] theorem each [Std.Refl R] [Trans R R R] {k : β → Tx σ ε Unit} (hk : ∀ b, Within R (k b))
    (bs : List β) : Within R (Transaction.each k bs) := by
  induction bs with
  | nil => exact pure ()
  | cons b bs ih => exact bind (hk b) fun _ => ih

end Within

/-- `f` reads the same. -/
def Same (f : σ → γ) (s s' : σ) : Prop := f s' = f s

instance (f : σ → γ) : Std.Refl (Same f) := ⟨fun _ => rfl⟩

instance (f : σ → γ) : Trans (Same f) (Same f) (Same f) := ⟨fun h h' => Eq.trans h' h⟩

/-- No committed run of `x` changes `f`. -/
abbrev Keeps (f : σ → γ) (x : Tx σ ε α) : Prop := Within (Same f) x

/-- A body on a part of the state keeps the rest. -/
theorem Keeps.zoom {τ ε' : Type} {get : σ → τ} {set : τ → σ → σ} {wrap : ε' → ε} {x : Tx τ ε' α}
    {f : σ → γ} (hf : ∀ t s, f (set t s) = f s) : Keeps f (zoom get set wrap x) := by
  intro v s a s' h
  obtain ⟨t, -, rfl⟩ := commits_zoom.1 h
  exact hf t s

/-! ## Rolling back -/

section RollingBack
variable {v s s' : σ} {b : β} {e : ε}

theorem bind_error {x : Tx σ ε β} {f : β → Tx σ ε α} (h : x v s = .error e) : (x >>= f) v s = .error e := by
  simp only [bind, ReaderT.bind, StateT.bind, Except.bind, h]

theorem bind_ok {x : Tx σ ε β} {f : β → Tx σ ε α} (h : Commits x v s b s') : (x >>= f) v s = f b v s' := by
  rw [Commits] at h
  simp only [bind, ReaderT.bind, StateT.bind, Except.bind, h]

/-! What a first statement makes of the run of the body after it. -/

variable {s₀ : σ} {g : β → Tx σ ε α} {k : Unit → Tx σ ε α}

theorem run_look_bind {f : σ → β} : (look f >>= g) v s₀ = g (f v) v s₀ := rfl

theorem run_current_bind {f : σ → β} : (current f >>= g) v s₀ = g (f s₀) v s₀ := rfl

theorem run_throwIf_bind {c : Prop} [Decidable c] : (throwIf c e >>= k) v s₀ = if c then .error e else k () v s₀ := by
  unfold throwIf
  split <;> rfl

theorem run_fromExcept_bind {a : β} : (fromExcept (.ok a) >>= g) v s₀ = g a v s₀ := rfl

end RollingBack

/-! ## Committing -/

/-- The run of the body commits. -/
def Succeeds (x : Tx σ ε α) (v s : σ) : Prop := ∃ a s', Commits x v s a s'

/-- The body commits whatever it meets. -/
def Total (x : Tx σ ε α) : Prop := ∀ v s, Succeeds x v s

section Succeeds
variable {v s s' : σ} {b : β} {x : Tx σ ε β} {f : β → Tx σ ε α}

theorem commits_bind_of {a : α} {s'' : σ} (h : Commits x v s b s') :
    Commits (x >>= f) v s a s'' ↔ Commits (f b) v s' a s'' := by
  simp only [Commits, bind_ok h]

/-- A statement that commits leaves the body to what follows. -/
theorem succeeds_bind (h : Commits x v s b s') : Succeeds (x >>= f) v s ↔ Succeeds (f b) v s' := by
  simp only [Succeeds, Commits, bind_ok h]

theorem succeeds_look_bind {g : σ → β} : Succeeds (look g >>= f) v s ↔ Succeeds (f (g v)) v s := Iff.rfl

theorem succeeds_current_bind {g : σ → β} : Succeeds (current g >>= f) v s ↔ Succeeds (f (g s)) v s := Iff.rfl

theorem succeeds_write_bind {g : σ → σ} {k : Unit → Tx σ ε α} :
    Succeeds (write g >>= k) v s ↔ Succeeds (k ()) v (g s) := Iff.rfl

theorem succeeds_throwIf_bind {c : Prop} [Decidable c] {e : ε} {k : Unit → Tx σ ε α} :
    Succeeds (throwIf c e >>= k) v s ↔ ¬ c ∧ Succeeds (k ()) v s := by
  simp only [Succeeds, commits_throwIf_bind, exists_and_left]

theorem succeeds_of_bind (h : Succeeds (x >>= f) v s) : Succeeds x v s := by
  obtain ⟨a, s', h⟩ := h
  obtain ⟨b, s₁, hx, -⟩ := commits_bind.1 h
  exact ⟨b, s₁, hx⟩

/-- Statements that cannot fail leave the body to what precedes them. -/
theorem succeeds_bind_total (hf : ∀ b, Total (f b)) : Succeeds (x >>= f) v s ↔ Succeeds x v s := by
  constructor
  · exact succeeds_of_bind
  · rintro ⟨b, s', hx⟩
    exact (succeeds_bind hx).2 (hf b v s')

end Succeeds

namespace Total

theorem pure (a : α) : Total (Pure.pure a : Tx σ ε α) := fun _ s => ⟨a, s, commits_pure.2 ⟨rfl, rfl⟩⟩

theorem bind {x : Tx σ ε β} {f : β → Tx σ ε α} (hx : Total x) (hf : ∀ b, Total (f b)) : Total (x >>= f) := by
  intro v s
  exact (succeeds_bind_total hf).2 (hx v s)

theorem look (g : σ → α) : Total (Transaction.look g : Tx σ ε α) := fun v s => ⟨g v, s, commits_look.2 ⟨rfl, rfl⟩⟩

theorem current (g : σ → α) : Total (Transaction.current g : Tx σ ε α) := fun _ s =>
  ⟨g s, s, commits_current.2 ⟨rfl, rfl⟩⟩

theorem write (g : σ → σ) : Total (Transaction.write g : Tx σ ε Unit) := fun _ s => ⟨(), g s, commits_write.2 rfl⟩

theorem runIf {c : Prop} [Decidable c] {x : Tx σ ε Unit} (hx : Total x) : Total (Transaction.runIf c x) := by
  unfold Transaction.runIf
  split
  · exact hx
  · exact pure ()

theorem forSome {o : Option β} {k : β → Tx σ ε Unit} (hk : ∀ b, Total (k b)) : Total (Transaction.forSome o k) := by
  cases o with
  | none => exact pure ()
  | some b => exact hk b

theorem zoom {τ ε' : Type} {get : σ → τ} {set : τ → σ → σ} {wrap : ε' → ε} {x : Tx τ ε' α} (hx : Total x) :
    Total (Transaction.zoom get set wrap x) := by
  intro v s
  obtain ⟨a, t, ht⟩ := hx (get v) (get s)
  exact ⟨a, set t s, commits_zoom.2 ⟨t, ht, rfl⟩⟩

end Total

/-! ## Loops that may fail -/

section Loops
variable {f : α → Except ε β} {as : List α} {bs : List β}

/-- A loop that succeeds has succeeded on every element, in order. -/
theorem mapM_ok_iff : as.mapM f = .ok bs ↔ List.Forall₂ (fun a b => f a = .ok b) as bs := by
  induction as generalizing bs with
  | nil =>
    rw [List.mapM_nil, List.forall₂_nil_left_iff]
    constructor
    · intro h; cases h; rfl
    · rintro rfl; rfl
  | cons a as ih =>
    rw [List.mapM_cons, List.forall₂_cons_left_iff]
    constructor
    · intro h
      cases ha : f a with
      | error e => rw [ha] at h; cases h
      | ok b =>
        cases has : as.mapM f with
        | error e => rw [ha, has] at h; cases h
        | ok bs' =>
          rw [ha, has] at h
          cases h
          exact ⟨b, bs', rfl, ih.1 has, rfl⟩
    · rintro ⟨b, bs', ha, has, rfl⟩
      rw [ha, ih.2 has]
      rfl

/-- Every element has its result, and every result its element. -/
theorem exists_of_forall₂ {R : α → β → Prop} (h : List.Forall₂ R as bs) :
    (∀ a ∈ as, ∃ b ∈ bs, R a b) ∧ ∀ b ∈ bs, ∃ a ∈ as, R a b := by
  induction h with
  | nil => exact ⟨fun _ h => (List.not_mem_nil h).elim, fun _ h => (List.not_mem_nil h).elim⟩
  | @cons a b as bs hab _ ih =>
    constructor
    · intro x hx
      rcases List.mem_cons.1 hx with rfl | hx
      · exact ⟨b, List.mem_cons_self, hab⟩
      · obtain ⟨y, hy, hxy⟩ := ih.1 x hx
        exact ⟨y, List.mem_cons_of_mem _ hy, hxy⟩
    · intro y hy
      rcases List.mem_cons.1 hy with rfl | hy
      · exact ⟨a, List.mem_cons_self, hab⟩
      · obtain ⟨x, hx, hxy⟩ := ih.2 y hy
        exact ⟨x, List.mem_cons_of_mem _ hx, hxy⟩

theorem forM_ok_iff {g : α → Except ε Unit} : as.forM g = .ok () ↔ ∀ a ∈ as, g a = .ok () := by
  induction as with
  | nil => exact iff_of_true rfl fun _ h => (List.not_mem_nil h).elim
  | cons a as ih =>
    rw [List.forall_mem_cons, ← ih]
    show (g a >>= fun _ => as.forM g) = _ ↔ _
    cases ha : g a with
    | error e =>
      constructor
      · intro h; cases h
      · rintro ⟨h, -⟩; cases h
    | ok u =>
      constructor
      · intro h; exact ⟨rfl, h⟩
      · rintro ⟨-, h⟩; exact h

end Loops
end Transaction
