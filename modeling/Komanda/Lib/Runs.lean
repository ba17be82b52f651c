import Mathlib.Data.List.Basic

/-!
# Runs of a machine with partial steps

`step s a = none` means that the machine refuses action `a` in state `s` and stays there, so a run
lists the accepted actions only. `exec` follows a list of actions, `Along C s as` says that every
step of the run from `s` meets the condition `C` in the state it starts from. The rules at the end
carry a step lemma to whole runs.
-/

namespace Runs

variable {σ α : Type} (step : σ → α → Option σ)

/-- The state after the actions, if each of them is accepted. -/
def exec : σ → List α → Option σ
  | s, [] => some s
  | s, a :: as => (step s a).bind fun s' => exec s' as

/-- Every step of the run from `s` meets `C`. -/
def Along (C : σ → α → Prop) : σ → List α → Prop
  | _, [] => True
  | s, a :: as => C s a ∧ ∀ s' ∈ step s a, Along C s' as

instance Along.decidable (C : σ → α → Prop) [∀ s a, Decidable (C s a)] :
    ∀ (s : σ) (as : List α), Decidable (Along step C s as)
  | _, [] => inferInstanceAs (Decidable True)
  | s, a :: as =>
    match h : step s a with
    | none => decidable_of_iff (C s a) (by simp [Along, h])
    | some s' =>
      have := Along.decidable C s' as
      decidable_of_iff (C s a ∧ Along step C s' as) (by simp [Along, h])

variable {step} {C D : σ → α → Prop} {s s' : σ} {a : α} {as bs : List α}

@[simp] theorem exec_nil : exec step s [] = some s' ↔ s = s' := by simp [exec]

@[simp] theorem exec_cons :
    exec step s (a :: as) = some s' ↔ ∃ s₁, step s a = some s₁ ∧ exec step s₁ as = some s' := by
  simp [exec, Option.bind_eq_some_iff]

theorem exec_append :
    exec step s (as ++ bs) = some s' ↔ ∃ s₁, exec step s as = some s₁ ∧ exec step s₁ bs = some s' := by
  induction as generalizing s with
  | nil => simp
  | cons a as ih =>
    simp only [List.cons_append, exec_cons, ih]
    constructor
    · rintro ⟨s₂, h, s₁, h₁, h₂⟩; exact ⟨s₁, ⟨s₂, h, h₁⟩, h₂⟩
    · rintro ⟨s₁, ⟨s₂, h, h₁⟩, h₂⟩; exact ⟨s₂, h, s₁, h₁, h₂⟩

theorem Along.of_forall (h : ∀ s a, C s a) : Along step C s as := by
  induction as generalizing s with
  | nil => trivial
  | cons a as ih => exact ⟨h s a, fun s' _ => ih⟩

/-- A condition on the actions alone. -/
theorem Along.of_mem {P : α → Prop} (h : ∀ a ∈ as, P a) : Along step (fun _ a => P a) s as := by
  induction as generalizing s with
  | nil => trivial
  | cons a as ih => exact ⟨h a List.mem_cons_self, fun s' _ => ih fun b hb => h b (List.mem_cons_of_mem _ hb)⟩

/-- A machine that refuses nothing runs through. -/
theorem exec_total (h : ∀ s a, ∃ s', step s a = some s') : ∃ s', exec step s as = some s' := by
  induction as generalizing s with
  | nil => exact ⟨s, exec_nil.2 rfl⟩
  | cons a as ih =>
    obtain ⟨s₁, hs⟩ := h s a
    obtain ⟨s', hr⟩ := ih (s := s₁)
    exact ⟨s', exec_cons.2 ⟨s₁, hs, hr⟩⟩

/-- What every step keeps holds in the state a run reaches. -/
theorem exec_inv {I : σ → Prop} (hstep : ∀ s a s', I s → C s a → step s a = some s' → I s')
    (h₀ : I s) (hC : Along step C s as) (h : exec step s as = some s') : I s' := by
  induction as generalizing s with
  | nil => rw [exec_nil] at h; exact h ▸ h₀
  | cons a as ih =>
    obtain ⟨s₁, hs, hr⟩ := exec_cons.1 h
    exact ih (hstep s a s₁ h₀ hC.1 hs) (hC.2 s₁ hs) hr

/-- An invariant that follows from the condition of the steps gives a condition of its own. -/
theorem Along.mono {I : σ → Prop} (hstep : ∀ s a s', I s → C s a → step s a = some s' → I s')
    (hD : ∀ s a, I s → C s a → D s a) (h₀ : I s) (hC : Along step C s as) : Along step D s as := by
  induction as generalizing s with
  | nil => trivial
  | cons a as ih =>
    exact ⟨hD s a h₀ hC.1, fun s' hs => ih (hstep s a s' h₀ hC.1 hs) (hC.2 s' hs)⟩

/-- Two conditions that an accepted step meets together, given the invariant, hold along the same runs. -/
theorem Along.congr {I : σ → Prop} (hstep : ∀ s a s', I s → C s a → step s a = some s' → I s')
    (hCD : ∀ s a s', I s → step s a = some s' → (C s a ↔ D s a)) (h₀ : I s) (h : exec step s as = some s') :
    Along step C s as ↔ Along step D s as := by
  induction as generalizing s with
  | nil => exact Iff.rfl
  | cons a as ih =>
    obtain ⟨s₁, hs, hr⟩ := exec_cons.1 h
    have hd := hCD s a s₁ h₀ hs
    simp only [Along, hs, Option.mem_some_iff, forall_eq']
    constructor
    · rintro ⟨hc, hA⟩
      exact ⟨hd.1 hc, (ih (hstep s a s₁ h₀ hc hs) hr).1 hA⟩
    · rintro ⟨hc, hA⟩
      have hc := hd.2 hc
      exact ⟨hc, (ih (hstep s a s₁ h₀ hc hs) hr).2 hA⟩

theorem Along.append : Along step C s (as ++ bs) ↔
    Along step C s as ∧ ∀ s', exec step s as = some s' → Along step C s' bs := by
  induction as generalizing s with
  | nil => simp [Along]
  | cons a as ih =>
    simp only [List.cons_append, Along, ih, exec_cons, Option.mem_def]
    constructor
    · rintro ⟨h, hr⟩
      exact ⟨⟨h, fun s₁ hs => (hr s₁ hs).1⟩, fun s' ⟨s₁, hs, he⟩ => (hr s₁ hs).2 s' he⟩
    · rintro ⟨⟨h, hr⟩, hb⟩
      exact ⟨h, fun s₁ hs => ⟨hr s₁ hs, fun s' he => hb s' ⟨s₁, hs, he⟩⟩⟩

end Runs
