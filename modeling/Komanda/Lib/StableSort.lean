import Mathlib.Data.List.Basic

/-!
# Stable sorting by a key

`sortBy` keeps the order of elements whose keys are tied. So it makes two lists equal exactly when each class of tied
keys stands in the same order in both (`sortBy_eq_iff`), and it commutes with what keeps the keys (`filterMap_sortBy`).
-/

namespace StableSort

/-- A total order in which different keys may be tied. -/
structure TotalPreorder {κ : Type} (le : κ → κ → Bool) : Prop where
  trans : ∀ a b c, le a b = true → le b c = true → le a c = true
  total : ∀ a b, (le a b || le b a) = true

def tied {κ : Type} (le : κ → κ → Bool) (a b : κ) : Bool := le a b && le b a

variable {α β κ : Type} {le : κ → κ → Bool} {key : α → κ} {l l' : List α}

def sortBy (le : κ → κ → Bool) (key : α → κ) (l : List α) : List α := l.mergeSort fun a b => le (key a) (key b)

theorem perm_sortBy (le : κ → κ → Bool) (key : α → κ) (l : List α) : (sortBy le key l).Perm l := List.mergeSort_perm _ _

theorem sorted_sortBy (h : TotalPreorder le) :
    (sortBy le key l).Pairwise fun a b => le (key a) (key b) = true :=
  List.pairwise_mergeSort (fun a b c => h.trans (key a) (key b) (key c)) (fun a b => h.total (key a) (key b)) l

theorem TotalPreorder.refl (h : TotalPreorder le) (a : κ) : le a a = true := by
  have hself := h.total a a
  rwa [Bool.or_self] at hself

theorem tied_iff {a b : κ} : tied le a b = true ↔ le a b = true ∧ le b a = true := Bool.and_eq_true_iff

theorem TotalPreorder.tied_self (h : TotalPreorder le) (a : κ) : tied le a a = true := tied_iff.2 ⟨h.refl a, h.refl a⟩

theorem filter_cons_tied {k : κ} {a : α} (h : tied le k (key a) = true) :
    (a :: l).filter (fun x => tied le k (key x)) = a :: l.filter fun x => tied le k (key x) := List.filter_cons_of_pos h

/-- A sorted list is determined by the order in each class of ties. -/
theorem eq_of_sorted (h : TotalPreorder le) (hl : l.Pairwise fun a b => le (key a) (key b) = true)
    (hl' : l'.Pairwise fun a b => le (key a) (key b) = true)
    (hclass : ∀ k, l.filter (fun a => tied le k (key a)) = l'.filter (fun a => tied le k (key a))) : l = l' := by
  induction l generalizing l' with
  | nil =>
    cases l' with
    | nil => rfl
    | cons b l' =>
      have hb := hclass (key b)
      rw [List.filter_nil, filter_cons_tied (h.tied_self _)] at hb
      cases hb
  | cons a l ih =>
    have hmem : a ∈ l' := by
      have ha : a ∈ (a :: l).filter fun x => tied le (key a) (key x) :=
        List.mem_filter.2 ⟨List.mem_cons_self, h.tied_self _⟩
      rw [hclass] at ha
      exact (List.mem_filter.1 ha).1
    cases l' with
    | nil => exact absurd hmem List.not_mem_nil
    | cons b l' =>
      have hbmem : b ∈ a :: l := by
        have hb : b ∈ (b :: l').filter fun x => tied le (key b) (key x) :=
          List.mem_filter.2 ⟨List.mem_cons_self, h.tied_self _⟩
        rw [← hclass] at hb
        exact (List.mem_filter.1 hb).1
      have hab : le (key a) (key b) = true := by
        rcases List.mem_cons.1 hbmem with rfl | hb
        · exact h.refl _
        · exact List.rel_of_pairwise_cons hl hb
      have hba : le (key b) (key a) = true := by
        rcases List.mem_cons.1 hmem with rfl | ha
        · exact h.refl _
        · exact List.rel_of_pairwise_cons hl' ha
      have hheads := hclass (key a)
      rw [filter_cons_tied (h.tied_self _), filter_cons_tied (tied_iff.2 ⟨hab, hba⟩)] at hheads
      obtain ⟨rfl, -⟩ := List.cons.inj hheads
      refine congrArg (a :: ·) (ih hl.of_cons hl'.of_cons fun k => ?_)
      have hk := hclass k
      rw [List.filter_cons, List.filter_cons] at hk
      split at hk
      · exact (List.cons.inj hk).2
      · exact hk

/-- Sorting keeps the order in each class of ties. -/
theorem filter_tied_sortBy (h : TotalPreorder le) (k : κ) :
    (sortBy le key l).filter (fun a => tied le k (key a)) = l.filter (fun a => tied le k (key a)) := by
  have hsub : (l.filter fun a => tied le k (key a)).Sublist (sortBy le key l) := by
    refine List.sublist_mergeSort (fun a b c => h.trans (key a) (key b) (key c)) (fun a b => h.total (key a) (key b)) ?_
      List.filter_sublist
    refine List.Pairwise.imp_of_mem ?_ (List.pairwise_of_forall fun _ _ => trivial)
    intro a b ha hb _
    obtain ⟨-, hak⟩ := tied_iff.1 (List.mem_filter.1 ha).2
    obtain ⟨hkb, -⟩ := tied_iff.1 (List.mem_filter.1 hb).2
    exact h.trans _ _ _ hak hkb
  have hfilter := hsub.filter fun a => tied le k (key a)
  rw [List.filter_filter] at hfilter
  simp only [Bool.and_self] at hfilter
  refine (hfilter.eq_of_length ?_).symm
  exact ((perm_sortBy le key l).filter _).length_eq.symm

theorem sortBy_eq_iff (h : TotalPreorder le) : sortBy le key l = sortBy le key l' ↔
    ∀ k, l.filter (fun a => tied le k (key a)) = l'.filter (fun a => tied le k (key a)) := by
  constructor
  · intro hsort k
    rw [← filter_tied_sortBy h, hsort, filter_tied_sortBy h]
  · intro hclass
    refine eq_of_sorted h (sorted_sortBy h) (sorted_sortBy h) fun k => ?_
    rw [filter_tied_sortBy h, filter_tied_sortBy h, hclass]

/-- What keeps the keys may be done before sorting or after it. -/
theorem filterMap_sortBy (h : TotalPreorder le) (key : α → κ) {key' : β → κ} {f : α → Option β}
    (hf : ∀ a, ∀ b ∈ f a, key' b = key a) :
    (sortBy le key l).filterMap f = sortBy le key' (l.filterMap f) := by
  have hclass (k : κ) (l : List α) : (l.filterMap f).filter (fun b => tied le k (key' b)) =
      (l.filter fun a => tied le k (key a)).filterMap f := by
    induction l with
    | nil => rfl
    | cons a l ih =>
      rw [List.filterMap_cons, List.filter_cons]
      cases hfa : f a with
      | none =>
        dsimp only
        split
        · rw [List.filterMap_cons, hfa]
          exact ih
        · exact ih
      | some b =>
        dsimp only
        rw [List.filter_cons, hf a b hfa]
        split
        · rw [List.filterMap_cons, hfa, ih]
        · exact ih
  refine eq_of_sorted h ?_ (sorted_sortBy h) fun k => ?_
  · refine List.Pairwise.filterMap f (fun a a' haa' b hb b' hb' => ?_) (sorted_sortBy h)
    rw [hf a b hb, hf a' b' hb']
    exact haa'
  · rw [filter_tied_sortBy h, hclass, hclass, filter_tied_sortBy h]

theorem filter_sortBy (h : TotalPreorder le) (p : α → Bool) :
    (sortBy le key l).filter p = sortBy le key (l.filter p) := by
  rw [← List.filterMap_eq_filter, filterMap_sortBy h key]
  intro a b hb
  rw [Option.mem_def, Option.guard_eq_some_iff] at hb
  rw [hb.1]

end StableSort
