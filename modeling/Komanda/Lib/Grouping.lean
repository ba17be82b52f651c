import Mathlib.Data.List.Induction
import Mathlib.Data.List.Nodup
import Mathlib.Data.List.Perm.Subperm
import Mathlib.Order.Basic

/-!
# Grouping a list by a key, up to a number of groups

The groups stand in the order in which their keys turn up. A key that turns up when there are `n` groups already gets
none, and its elements are left out. `Grouped` is what holds once the elements of `l` have been seen; `mem_groups_iff`
says for an increasing `l` which elements are in a group: those whose key is one of the first `n`.
-/

namespace Grouping

variable {α κ : Type} [DecidableEq κ]

/-- The groups with one more element. -/
def add (key : α → κ) (n : ℕ) (groups : List (κ × List α)) (a : α) : List (κ × List α) :=
  if groups.any (·.1 = key a) then groups.map fun g => if g.1 = key a then (g.1, g.2 ++ [a]) else g
  else if groups.length ≥ n then groups
  else groups ++ [(key a, [a])]

def groups (key : α → κ) (n : ℕ) (l : List α) : List (κ × List α) := l.foldl (add key n) []

/-- Fewer than `n` keys turn up before `k` does. -/
def AmongFirst [LT α] (P : α → Prop) (key : α → κ) (n : ℕ) (k : κ) : Prop :=
  ∃ ks : List κ, ks.length < n ∧ ∀ x, P x → (∀ u, P u → key u = k → x < u) → key x ∈ ks

theorem filter_append_of_ne {key : α → κ} {l : List α} {a : α} {k : κ} (h : key a ≠ k) :
    (l ++ [a]).filter (key · = k) = l.filter (key · = k) := by
  rw [List.filter_append, List.filter_singleton, decide_eq_false h]
  exact List.append_nil _

theorem filter_append_of_eq {key : α → κ} {l : List α} {a : α} {k : κ} (h : key a = k) :
    (l ++ [a]).filter (key · = k) = l.filter (key · = k) ++ [a] := by
  rw [List.filter_append, List.filter_singleton, decide_eq_true h]
  rfl

variable [Preorder α]

structure Grouped (key : α → κ) (n : ℕ) (l : List α) (gs : List (κ × List α)) : Prop where
  keys : (gs.map (·.1)).Nodup
  few : gs.length ≤ n
  elements : ∀ g ∈ gs, g.2 = l.filter (key · = g.1)
  inhabited : ∀ g ∈ gs, ∃ x ∈ l, key x = g.1
  /-- A key without a group has turned up after those of `n` groups. -/
  missing : ∀ a ∈ l, (∀ g ∈ gs, g.1 ≠ key a) →
    n ≤ gs.length ∧ ∀ g ∈ gs, ∃ x ∈ l, key x = g.1 ∧ ∀ u ∈ l, key u = key a → x < u
  /-- What turns up before the key of a group has a group before it. -/
  order : ∀ i g, gs[i]? = some g → ∀ x ∈ l, (∀ u ∈ l, key u = g.1 → x < u) → key x ∈ (gs.take i).map (·.1)

section Steps
variable {key : α → κ} {n : ℕ} {l : List α} {gs : List (κ × List α)} {a : α}

theorem Grouped.nil : Grouped key n [] [] where
  keys := List.nodup_nil
  few := Nat.zero_le n
  elements _ hg := absurd hg List.not_mem_nil
  inhabited _ hg := absurd hg List.not_mem_nil
  missing _ ha := absurd ha List.not_mem_nil
  order _ _ _ _ hx := absurd hx List.not_mem_nil

omit [DecidableEq κ] in
/-- Nothing that comes later is before the key of a group. -/
theorem Grouped.before {k : κ} {x : α} (hk : ∃ u ∈ l, key u = k) (hl : ∀ y ∈ l, y < a) (hx : x ∈ l ++ [a])
    (hbefore : ∀ u ∈ l ++ [a], key u = k → x < u) : x ∈ l ∧ ∀ u ∈ l, key u = k → x < u := by
  refine ⟨?_, fun u hu => hbefore u (List.mem_append_left _ hu)⟩
  rcases List.mem_append.1 hx with hx | hx
  · exact hx
  · obtain ⟨u, hu, huk⟩ := hk
    rw [List.mem_singleton] at hx
    exact absurd (hbefore u (List.mem_append_left _ hu) huk) (hx ▸ lt_asymm (hl u hu))

/-- An element whose key has a group goes there. -/
theorem Grouped.add_present (h : Grouped key n l gs) (hl : ∀ y ∈ l, y < a) (hk : ∃ g ∈ gs, g.1 = key a) :
    Grouped key n (l ++ [a]) (gs.map fun g => if g.1 = key a then (g.1, g.2 ++ [a]) else g) := by
  have hkey (g : κ × List α) : (if g.1 = key a then (g.1, g.2 ++ [a]) else g).1 = g.1 := by
    split
    · rfl
    · rfl
  have hkeys : (gs.map fun g => if g.1 = key a then (g.1, g.2 ++ [a]) else g).map (·.1) = gs.map (·.1) := by
    rw [List.map_map]
    exact List.map_congr_left fun g _ => hkey g
  refine ⟨?_, ?_, fun g' hg' => ?_, fun g' hg' => ?_, fun b hb hnone => ?_, fun i g' hi x hx hbefore => ?_⟩
  · rw [hkeys]
    exact h.keys
  · rw [List.length_map]
    exact h.few
  · obtain ⟨g, hg, rfl⟩ := List.mem_map.1 hg'
    rw [hkey]
    by_cases hga : g.1 = key a
    · rw [if_pos hga, filter_append_of_eq hga.symm, ← h.elements g hg]
    · rw [if_neg hga, filter_append_of_ne (Ne.symm hga)]
      exact h.elements g hg
  · obtain ⟨g, hg, rfl⟩ := List.mem_map.1 hg'
    obtain ⟨x, hx, hxk⟩ := h.inhabited g hg
    exact ⟨x, List.mem_append_left _ hx, hxk.trans (hkey g).symm⟩
  · have hnone : ∀ g ∈ gs, g.1 ≠ key b := fun g hg hgb =>
      hnone _ (List.mem_map_of_mem hg) ((hkey g).trans hgb)
    obtain ⟨g₀, hg₀, hg₀a⟩ := hk
    have hba : key a ≠ key b := fun hab => hnone g₀ hg₀ (hg₀a.trans hab)
    have hbl : b ∈ l := (List.mem_append.1 hb).resolve_right fun hb => hba (by rw [List.mem_singleton.1 hb])
    obtain ⟨hn, hfirst⟩ := h.missing b hbl hnone
    refine ⟨by rwa [List.length_map], fun g' hg' => ?_⟩
    obtain ⟨g, hg, rfl⟩ := List.mem_map.1 hg'
    obtain ⟨x, hx, hxk, hlt⟩ := hfirst g hg
    refine ⟨x, List.mem_append_left _ hx, hxk.trans (hkey g).symm, fun u hu huk => ?_⟩
    rcases List.mem_append.1 hu with hu | hu
    · exact hlt u hu huk
    · rw [List.mem_singleton.1 hu] at huk
      exact absurd huk hba
  · rw [List.getElem?_map] at hi
    obtain ⟨g, hg, rfl⟩ := Option.map_eq_some_iff.1 hi
    rw [hkey] at hbefore
    obtain ⟨hx, hbefore⟩ := Grouped.before (h.inhabited g (List.mem_of_getElem? hg)) hl hx hbefore
    rw [List.map_take, hkeys, ← List.map_take]
    exact h.order i g hg x hx hbefore

/-- An element whose key has none is left out when there are `n` groups. -/
theorem Grouped.add_full (h : Grouped key n l gs) (hl : ∀ y ∈ l, y < a) (hk : ∀ g ∈ gs, g.1 ≠ key a)
    (hn : n ≤ gs.length) : Grouped key n (l ++ [a]) gs := by
  refine ⟨h.keys, h.few, fun g hg => ?_, fun g hg => ?_, fun b hb hnone => ⟨hn, fun g hg => ?_⟩,
    fun i g hi x hx hbefore => ?_⟩
  · rw [filter_append_of_ne (Ne.symm (hk g hg))]
    exact h.elements g hg
  · obtain ⟨x, hx, hxk⟩ := h.inhabited g hg
    exact ⟨x, List.mem_append_left _ hx, hxk⟩
  · -- either the key of `b` has turned up before, or `a` is the first of it
    by_cases hold : ∃ u ∈ l, key u = key b
    · obtain ⟨u, hu, hub⟩ := hold
      obtain ⟨-, hfirst⟩ := h.missing u hu fun g hg hgu => hnone g hg (hgu.trans hub)
      obtain ⟨x, hx, hxk, hlt⟩ := hfirst g hg
      refine ⟨x, List.mem_append_left _ hx, hxk, fun v hv hvb => ?_⟩
      rcases List.mem_append.1 hv with hv | hv
      · exact hlt v hv (hvb.trans hub.symm)
      · rw [List.mem_singleton.1 hv]
        exact hl x hx
    · obtain ⟨x, hx, hxk⟩ := h.inhabited g hg
      refine ⟨x, List.mem_append_left _ hx, hxk, fun v hv hvb => ?_⟩
      rcases List.mem_append.1 hv with hv | hv
      · exact absurd ⟨v, hv, hvb⟩ hold
      · rw [List.mem_singleton.1 hv]
        exact hl x hx
  · obtain ⟨hx, hbefore⟩ := Grouped.before (h.inhabited g (List.mem_of_getElem? hi)) hl hx hbefore
    exact h.order i g hi x hx hbefore

/-- An element whose key has none opens a group while there are fewer. -/
theorem Grouped.add_new (h : Grouped key n l gs) (hl : ∀ y ∈ l, y < a) (hk : ∀ g ∈ gs, g.1 ≠ key a)
    (hn : gs.length < n) : Grouped key n (l ++ [a]) (gs ++ [(key a, [a])]) := by
  -- all that has been seen has a group
  have hseen : ∀ x ∈ l, ∃ g ∈ gs, g.1 = key x := by
    intro x hx
    by_contra hnone
    exact absurd (h.missing x hx fun g hg hgx => hnone ⟨g, hg, hgx⟩).1 (Nat.not_le.2 hn)
  have hnew : ∀ x ∈ l, key x ≠ key a := by
    intro x hx hxa
    obtain ⟨g, hg, hgx⟩ := hseen x hx
    exact hk g hg (hgx.trans hxa)
  refine ⟨?_, ?_, fun g hg => ?_, fun g hg => ?_, fun b hb hnone => ?_, fun i g hi x hx hbefore => ?_⟩
  · rw [List.map_append, List.map_singleton]
    refine List.nodup_append.2 ⟨h.keys, List.nodup_singleton _, fun k hk' k' hk'' heq => ?_⟩
    obtain ⟨g, hg, rfl⟩ := List.mem_map.1 hk'
    rw [List.mem_singleton] at hk''
    exact hk g hg (heq.trans hk'')
  · rw [List.length_append]
    exact hn
  · rcases List.mem_append.1 hg with hg | hg
    · rw [filter_append_of_ne (Ne.symm (hk g hg))]
      exact h.elements g hg
    · rw [List.mem_singleton.1 hg, filter_append_of_eq rfl,
        List.filter_eq_nil_iff.2 fun x hx hxa => hnew x hx (of_decide_eq_true hxa)]
      rfl
  · rcases List.mem_append.1 hg with hg | hg
    · obtain ⟨x, hx, hxk⟩ := h.inhabited g hg
      exact ⟨x, List.mem_append_left _ hx, hxk⟩
    · rw [List.mem_singleton.1 hg]
      exact ⟨a, List.mem_append_right _ (List.mem_singleton_self a), rfl⟩
  · rcases List.mem_append.1 hb with hb | hb
    · obtain ⟨g, hg, hgb⟩ := hseen b hb
      exact absurd hgb (hnone g (List.mem_append_left _ hg))
    · rw [List.mem_singleton.1 hb] at hnone
      exact absurd rfl (hnone (key a, [a]) (List.mem_append_right _ (List.mem_singleton_self _)))
  · by_cases hi' : i < gs.length
    · rw [List.getElem?_append_left hi'] at hi
      obtain ⟨hx, hbefore⟩ := Grouped.before (h.inhabited g (List.mem_of_getElem? hi)) hl hx hbefore
      rw [List.take_append_of_le_length (Nat.le_of_lt hi')]
      exact h.order i g hi x hx hbefore
    · have hg : g = (key a, [a]) := by
        rw [List.getElem?_append_right (Nat.not_lt.1 hi')] at hi
        exact List.mem_singleton.1 (List.mem_of_getElem? hi)
      have hxa : x < a := hbefore a (List.mem_append_right _ (List.mem_singleton_self a)) (by rw [hg])
      have hxl : x ∈ l := (List.mem_append.1 hx).resolve_right fun hx =>
        lt_irrefl a (by rwa [List.mem_singleton.1 hx] at hxa)
      obtain ⟨g', hg', hgx⟩ := hseen x hxl
      rw [List.take_append, List.take_of_length_le (Nat.not_lt.1 hi'), List.map_append]
      exact List.mem_append_left _ (List.mem_map.2 ⟨g', hg', hgx⟩)

theorem Grouped.add (h : Grouped key n l gs) (hl : ∀ y ∈ l, y < a) : Grouped key n (l ++ [a]) (add key n gs a) := by
  unfold Grouping.add
  split
  · next hany =>
    obtain ⟨g, hg, hga⟩ := List.any_eq_true.1 hany
    exact h.add_present hl ⟨g, hg, of_decide_eq_true hga⟩
  · next hnone =>
    have hk : ∀ g ∈ gs, g.1 ≠ key a := fun g hg hga => hnone (List.any_eq_true.2 ⟨g, hg, decide_eq_true hga⟩)
    split
    · next hn => exact h.add_full hl hk hn
    · next hn => exact h.add_new hl hk (Nat.not_le.1 hn)

/-- The groups of an increasing list. -/
theorem grouped (h : l.Pairwise (· < ·)) : Grouped key n l (groups key n l) := by
  induction l using List.reverseRecOn with
  | nil => exact .nil
  | append_singleton l a ih =>
    obtain ⟨hl, -, hla⟩ := List.pairwise_append.1 h
    rw [groups, List.foldl_append]
    exact (ih hl).add fun y hy => hla y hy a (List.mem_singleton_self a)

end Steps

section Members
variable {key : α → κ} {n : ℕ} {l : List α} {gs : List (κ × List α)} {a : α}

/-- An element has a group iff its key is one of the first. -/
theorem Grouped.mem_iff (h : Grouped key n l gs) :
    (∃ g ∈ gs, a ∈ g.2) ↔ a ∈ l ∧ AmongFirst (· ∈ l) key n (key a) := by
  constructor
  · rintro ⟨g, hg, ha⟩
    rw [h.elements g hg, List.mem_filter, decide_eq_true_eq] at ha
    obtain ⟨i, hi, hgi⟩ := List.getElem_of_mem hg
    have hat : gs[i]? = some g := by rw [List.getElem?_eq_getElem hi, hgi]
    refine ⟨ha.1, (gs.take i).map (·.1), ?_, fun x hx hbefore => ?_⟩
    · rw [List.length_map, List.length_take, Nat.min_eq_left (Nat.le_of_lt hi)]
      exact Nat.lt_of_lt_of_le hi h.few
    · rw [ha.2] at hbefore
      exact h.order i g hat x hx hbefore
  · rintro ⟨ha, ks, hlt, hks⟩
    by_contra hnone
    have hmissing : ∀ g ∈ gs, g.1 ≠ key a := by
      intro g hg hga
      refine hnone ⟨g, hg, ?_⟩
      rw [h.elements g hg, List.mem_filter, decide_eq_true_eq]
      exact ⟨ha, hga.symm⟩
    obtain ⟨hn, hfirst⟩ := h.missing a ha hmissing
    -- the keys of the groups all come before
    have hsub : gs.map (·.1) ⊆ ks := by
      intro k hk
      obtain ⟨g, hg, rfl⟩ := List.mem_map.1 hk
      obtain ⟨x, hx, hxk, hbefore⟩ := hfirst g hg
      exact hxk ▸ hks x hx hbefore
    have hle := (List.subperm_of_subset h.keys hsub).length_le
    rw [List.length_map] at hle
    omega

end Members
end Grouping
