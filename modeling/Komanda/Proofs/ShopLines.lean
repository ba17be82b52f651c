import Mathlib.Algebra.BigOperators.Group.List.Basic
import Mathlib.Data.List.Nodup
import Komanda.Lib.Runs
import Komanda.ShopCart

/-!
# The lines of the cart in the browser

A line is found by its id, which is made of the product and its add-ons when the line is added. Two operations change
the add-ons of a line that is there and give it the id of what it has become, without asking whether another line has
it: the lines keep their ids apart iff these operations never meet such a line.
-/

namespace Komanda.Shop
open Runs

/-- A cart as the server answers it: its lines are rows, each with an id of its own and at least one unit. -/
structure ServerCart where
  cart : OfficialCart
  ids : ∀ line ∈ cart.items, line.id ≠ none
  distinct : (cart.items.map (·.id)).Nodup
  units : ∀ line ∈ cart.items, 0 < line.quantity

inductive CartAction
  | addItem (item : MenuItem)
  | decrementItem (lineIdOrDocumentId : Id)
  | removeItem (lineIdOrDocumentId : Id)
  | removeAddonFromLine (targetLineId optionId : Id)
  | applyOfficialCart (answer : ServerCart)

def CartState.next (s : CartState) : CartAction → CartState
  | .addItem item => Shop.addItem item s
  | .decrementItem id => Shop.decrementItem id s
  | .removeItem id => Shop.removeItem id s
  | .removeAddonFromLine lineId optionId => Shop.removeAddonFromLine lineId optionId s
  | .applyOfficialCart answer => Shop.applyOfficialCart answer.cart s

/-- The machine refuses nothing. -/
def cartStep (s : CartState) (a : CartAction) : Option CartState := some (s.next a)

/-- The ids are distinct and the quantities positive after the step, and it counts as it says. -/
structure Counts (s : CartState) (a : CartAction) : Prop where
  distinct : ((s.next a).items.map (·.key)).Nodup
  positive : ∀ line ∈ (s.next a).items, 0 < line.quantity
  add : ∀ item, a = .addItem item → (s.next a).itemCount = s.itemCount + 1
  decrement : ∀ id, a = .decrementItem id → (∃ line ∈ s.items, line.key = id) → (s.next a).itemCount + 1 = s.itemCount
  addon : ∀ lineId optionId, a = .removeAddonFromLine lineId optionId → (s.next a).itemCount = s.itemCount

/-- Where the line of this id would pass its add-ons on, no third line has the id that the sibling gets. -/
def TransfersApart (transfers : CartLine → Bool) (id : Id) (items : List CartLine) : Prop :=
  ∀ target ∈ targetIndex id items, ∀ targetLine ∈ items[target]?, transfers targetLine = true →
    ∀ sibling ∈ siblingIndex target targetLine items, ∀ siblingLine ∈ items[sibling]?,
      ∀ p ∈ items.zipIdx, p.2 ≠ target → p.2 ≠ sibling → p.1.key ≠ cartLineId (mergedItem siblingLine targetLine)

/-- No other line has the id that a line gets with other add-ons. -/
def KeepsApart (s : CartState) : CartAction → Prop
  | .removeAddonFromLine lineId optionId => ∀ line ∈ s.items, line.key = lineId →
      ∀ other ∈ s.items, other.key ≠ lineId → other.key ≠ cartLineId (line.item.withoutAddon optionId)
  | .decrementItem id => TransfersApart CartLine.isLastWithAddons id s.items
  | .removeItem id => TransfersApart CartLine.hasAddons id s.items
  | _ => True

/-- The lines as they are between the operations. -/
structure Sound (items : List CartLine) : Prop where
  named : ∀ line ∈ items, line.lineId ≠ none
  distinct : (items.map (·.key)).Nodup
  positive : ∀ line ∈ items, 0 < line.quantity

/-- The units of the lines. -/
def units (items : List CartLine) : Nat := (items.map (·.quantity)).sum

/-! ## Lists and places in them -/

section Places
variable {α : Type} {a : α} {i : Nat} {l : List α} {ps : List (α × Nat)}

/-- What stands at a place, and the rest. -/
theorem perm_place (hn : (ps.map Prod.snd).Nodup) (h : (a, i) ∈ ps) :
    ps.Perm ((a, i) :: ps.filter (·.2 ≠ i)) := by
  induction ps with
  | nil => exact absurd h List.not_mem_nil
  | cons p ps ih =>
    obtain ⟨hp, hn⟩ := List.nodup_cons.1 hn
    by_cases hi : p.2 = i
    · have hrest : ∀ q ∈ ps, decide (q.2 ≠ i) = true := fun q hq => decide_eq_true fun hq' =>
        hp (List.mem_map.2 ⟨q, hq, hq'.trans hi.symm⟩)
      have hpa : p = (a, i) := by
        rcases List.mem_cons.1 h with rfl | h
        · rfl
        · exact absurd rfl (of_decide_eq_true (hrest _ h))
      rw [List.filter_cons_of_neg (by simp [hi]), List.filter_eq_self.2 hrest, hpa]
    · have hmem : (a, i) ∈ ps := (List.mem_cons.1 h).resolve_left fun hpa => hi (by rw [← hpa])
      rw [List.filter_cons_of_pos (by simp [hi])]
      exact ((ih hn hmem).cons p).trans (.swap _ _ _)

theorem places_nodup : (l.zipIdx.map Prod.snd).Nodup := by
  rw [List.zipIdx_map_snd]
  exact List.nodup_range'

theorem mem_places (h : l[i]? = some a) : (a, i) ∈ l.zipIdx := List.mem_zipIdx_iff_getElem?.2 h

theorem perm_at (h : l[i]? = some a) : l.zipIdx.Perm ((a, i) :: l.zipIdx.filter (·.2 ≠ i)) :=
  perm_place places_nodup (mem_places h)

/-- One row of a table in which no two rows agree. -/
theorem countP_eq_one {κ : Type} [DecidableEq κ] {k : α → κ} (hn : (l.map k).Nodup) (h : a ∈ l) :
    l.countP (fun x => k x = k a) = 1 := by
  have hcount : l.countP (fun x => k x = k a) = (l.map k).count (k a) := by
    rw [List.count_eq_countP, List.countP_map]
    rfl
  rw [hcount]
  exact List.count_eq_one_of_mem hn (List.mem_map_of_mem h)

theorem sum_map_if {w : α → Nat} {p : α → Bool} : (l.map fun x => if p x then w x + 1 else w x).sum =
    (l.map w).sum + l.countP p := by
  induction l with
  | nil => rfl
  | cons x l ih =>
    rw [List.map_cons, List.sum_cons, ih, List.map_cons, List.sum_cons, List.countP_cons]
    split
    · omega
    · omega

end Places

/-! ## The operations on the lines -/

section Operations
variable {items : List CartLine} {target sibling : Nat} {line targetLine siblingLine : CartLine} {id : Id}
  {item : MenuItem}

theorem map_places (f : CartLine × Nat → CartLine) {ps : List (CartLine × Nat)} (h : ∀ p ∈ ps, f p = p.1) :
    ps.map f = ps.map (·.1) := List.map_congr_left h

theorem removeAt_perm (h : items[target]? = some targetLine) :
    items.Perm (targetLine :: removeAt target items) := by
  have hperm := (perm_at h).map Prod.fst
  rw [List.zipIdx_map_fst] at hperm
  exact hperm

theorem decrementAt_perm (h : items[target]? = some targetLine) : (decrementAt target items).Perm
    ((if targetLine.quantity ≤ 1 then [] else [{ targetLine with quantity := targetLine.quantity - 1 }]) ++
      removeAt target items) := by
  unfold decrementAt
  refine ((perm_at h).flatMap_right _).trans (.of_eq ?_)
  rw [List.flatMap_cons, if_neg (not_not.2 rfl)]
  congr 1
  have hrest : ∀ p ∈ items.zipIdx.filter (·.2 ≠ target), (if p.2 ≠ target then [p.1]
      else if p.1.quantity ≤ 1 then [] else [{ p.1 with quantity := p.1.quantity - 1 }]) = [p.1] :=
    fun p hp => if_pos (of_decide_eq_true (List.mem_filter.1 hp).2)
  rw [List.flatMap_congr hrest, removeAt]
  exact List.flatMap_pure_eq_map _ _

/-- The lines that are neither the target nor its sibling. -/
def others (target sibling : Nat) (items : List CartLine) : List CartLine :=
  ((items.zipIdx.filter (·.2 ≠ target)).filter (·.2 ≠ sibling)).map (·.1)

theorem mem_others : line ∈ others target sibling items ↔
    ∃ p ∈ items.zipIdx, p.2 ≠ target ∧ p.2 ≠ sibling ∧ p.1 = line := by
  simp only [others, List.mem_map, List.mem_filter, decide_eq_true_eq, and_assoc]

/-- The rest of the lines has a sibling and others. -/
theorem perm_sibling (hs : items[sibling]? = some siblingLine) (hne : sibling ≠ target) :
    (items.zipIdx.filter (·.2 ≠ target)).Perm
      ((siblingLine, sibling) :: (items.zipIdx.filter (·.2 ≠ target)).filter (·.2 ≠ sibling)) :=
  perm_place (places_nodup.sublist (List.filter_sublist.map _))
    (List.mem_filter.2 ⟨mem_places hs, decide_eq_true hne⟩)

theorem items_perm (h : items[target]? = some targetLine) (hs : items[sibling]? = some siblingLine)
    (hne : sibling ≠ target) : items.Perm (targetLine :: siblingLine :: others target sibling items) :=
  (removeAt_perm h).trans (((perm_sibling hs hne).map Prod.fst).cons targetLine)

theorem transferAddons_perm (hs : items[sibling]? = some siblingLine) (hne : sibling ≠ target) :
    (transferAddons sibling target targetLine items).Perm
      (mergedLine siblingLine targetLine :: others target sibling items) := by
  unfold transferAddons
  rw [List.filter_map, List.map_map]
  refine ((perm_sibling hs hne).map _).trans (.of_eq ?_)
  rw [List.map_cons]
  congr 1
  · exact if_pos rfl
  · refine map_places _ fun p hp => ?_
    exact if_neg (of_decide_eq_true (List.mem_filter.1 hp).2)

theorem units_perm {items' : List CartLine} (h : items.Perm items') : units items = units items' :=
  (h.map _).sum_eq

theorem units_cons : units (line :: items) = line.quantity + units items := List.sum_cons

theorem units_append {items' : List CartLine} : units (items ++ items') = units items + units items' := by
  rw [units, List.map_append, List.sum_append, units, units]

/-! ### Finding a line -/

theorem targetIndex_some (h : targetIndex id items = some target) : ∃ targetLine, items[target]? = some targetLine ∧
    ((∃ line ∈ items, line.key = id) → targetLine.key = id) := by
  obtain ⟨hlt, hp, -⟩ := List.findIdx?_eq_some_iff_getElem.1 h
  refine ⟨items[target], List.getElem?_eq_getElem hlt, fun ⟨line, hline, hkey⟩ => ?_⟩
  have hany : items.any (·.key = id) = true := List.any_eq_true.2 ⟨line, hline, decide_eq_true hkey⟩
  simpa [hany] using hp

theorem targetIndex_exists (h : ∃ line ∈ items, line.key = id) : ∃ target, targetIndex id items = some target := by
  obtain ⟨line, hline, hkey⟩ := h
  have hany : items.any (·.key = id) = true := List.any_eq_true.2 ⟨line, hline, decide_eq_true hkey⟩
  rw [← Option.isSome_iff_exists, targetIndex, List.findIdx?_isSome]
  refine List.any_eq_true.2 ⟨line, hline, ?_⟩
  rw [if_pos hany]
  exact decide_eq_true hkey

theorem siblingIndex_some (h : siblingIndex target targetLine items = some sibling) : sibling ≠ target ∧
    ∃ siblingLine, items[sibling]? = some siblingLine := by
  obtain ⟨p, hp, rfl⟩ := Option.map_eq_some_iff.1 h
  have hmatch := List.find?_some hp
  simp only [Bool.and_eq_true, decide_eq_true_eq] at hmatch
  exact ⟨hmatch.1.1, p.1, List.mem_zipIdx_iff_getElem?.1 (List.mem_of_find?_eq_some hp)⟩

/-! ### Taking from a line -/

/-- How a line may be taken from. -/
inductive Taken (transfers : CartLine → Bool) (otherwise : Nat → List CartLine → List CartLine) (id : Id)
    (items : List CartLine) : List CartLine → Prop
  | absent (h : targetIndex id items = none) : Taken transfers otherwise id items items
  | transferred (target sibling : Nat) (targetLine siblingLine : CartLine) (h : targetIndex id items = some target)
      (hat : items[target]? = some targetLine) (ht : transfers targetLine = true)
      (hsib : siblingIndex target targetLine items = some sibling) (hs : items[sibling]? = some siblingLine)
      (hne : sibling ≠ target) : Taken transfers otherwise id items (transferAddons sibling target targetLine items)
  | kept (target : Nat) (targetLine : CartLine) (h : targetIndex id items = some target)
      (hat : items[target]? = some targetLine)
      (hnone : transfers targetLine = true → siblingIndex target targetLine items = none) :
      Taken transfers otherwise id items (otherwise target items)

variable {transfers : CartLine → Bool} {otherwise : Nat → List CartLine → List CartLine} {items' : List CartLine}

theorem taken : Taken transfers otherwise id items (takeFrom transfers otherwise id items) := by
  unfold takeFrom
  split
  · next h => exact .absent h
  · next target h =>
    obtain ⟨targetLine, hat, -⟩ := targetIndex_some h
    rw [hat]
    dsimp only
    split
    · next sibling hsib =>
      split at hsib
      · next ht =>
        obtain ⟨hne, siblingLine, hs⟩ := siblingIndex_some hsib
        exact .transferred target sibling targetLine siblingLine h hat ht hsib hs hne
      · cases hsib
    · next hnone =>
      refine .kept target targetLine h hat fun ht => ?_
      rw [if_pos ht] at hnone
      exact hnone

theorem Sound.perm (h : Sound items) (hp : items.Perm items') : Sound items' where
  named line hline := h.named line (hp.symm.subset hline)
  distinct := (hp.map _).nodup_iff.1 h.distinct
  positive line hline := h.positive line (hp.symm.subset hline)

theorem Sound.tail (h : Sound (line :: items)) : Sound items where
  named other hother := h.named other (List.mem_cons_of_mem _ hother)
  distinct := (List.nodup_cons.1 h.distinct).2
  positive other hother := h.positive other (List.mem_cons_of_mem _ hother)

theorem sound_cons : Sound (line :: items) ↔
    line.lineId ≠ none ∧ 0 < line.quantity ∧ (∀ other ∈ items, other.key ≠ line.key) ∧ Sound items := by
  constructor
  · intro h
    refine ⟨h.named line List.mem_cons_self, h.positive line List.mem_cons_self, fun other hother hkey => ?_, h.tail⟩
    exact (List.nodup_cons.1 h.distinct).1 (List.mem_map.2 ⟨other, hother, hkey⟩)
  · rintro ⟨hnamed, hpos, hkey, h⟩
    refine ⟨List.forall_mem_cons.2 ⟨hnamed, h.named⟩, List.nodup_cons.2 ⟨fun hmem => ?_, h.distinct⟩,
      List.forall_mem_cons.2 ⟨hpos, h.positive⟩⟩
    obtain ⟨other, hother, hoid⟩ := List.mem_map.1 hmem
    exact hkey other hother hoid

theorem Sound.removeAt (h : Sound items) (hat : items[target]? = some targetLine) :
    Sound (Shop.removeAt target items) := (h.perm (removeAt_perm hat)).tail

theorem Sound.decrementAt (h : Sound items) (hat : items[target]? = some targetLine) :
    Sound (Shop.decrementAt target items) := by
  refine Sound.perm ?_ (decrementAt_perm hat).symm
  have hall := h.perm (removeAt_perm hat)
  split
  · exact hall.tail
  · obtain ⟨hnamed, -, hkey, hrest⟩ := sound_cons.1 hall
    refine sound_cons.2 ⟨hnamed, ?_, hkey, hrest⟩
    dsimp only
    omega

/-- After a transfer the ids are distinct iff no third line has the new one. -/
theorem sound_transfer_iff (h : Sound items) (hat : items[target]? = some targetLine)
    (hs : items[sibling]? = some siblingLine) (hne : sibling ≠ target) :
    Sound (transferAddons sibling target targetLine items) ↔ ∀ p ∈ items.zipIdx, p.2 ≠ target → p.2 ≠ sibling →
      p.1.key ≠ cartLineId (mergedItem siblingLine targetLine) := by
  have hall := (h.perm (items_perm hat hs hne)).tail
  obtain ⟨-, hpos, -, hothers⟩ := sound_cons.1 hall
  have hperm : (transferAddons sibling target targetLine items).Perm
      (mergedLine siblingLine targetLine :: others target sibling items) := transferAddons_perm hs hne
  constructor
  · intro hsound p hp ht hsib
    exact (sound_cons.1 (hsound.perm hperm)).2.2.1 p.1 (mem_others.2 ⟨p, hp, ht, hsib, rfl⟩)
  · intro hapart
    have hmerged : Sound (mergedLine siblingLine targetLine :: others target sibling items) := by
      refine sound_cons.2 ⟨Option.some_ne_none _, hpos, fun other hother => ?_, hothers⟩
      obtain ⟨p, hp, ht, hsib, rfl⟩ := mem_others.1 hother
      exact hapart p hp ht hsib
    exact hmerged.perm hperm.symm

/-- What is taken from leaves lines with ids. -/
theorem named_takeFrom (h : Sound items)
    (ho : ∀ {target targetLine}, items[target]? = some targetLine → Sound (otherwise target items)) :
    ∀ line ∈ takeFrom transfers otherwise id items, line.lineId ≠ none := by
  have htaken : Taken transfers otherwise id items (takeFrom transfers otherwise id items) := taken
  generalize takeFrom transfers otherwise id items = result at htaken ⊢
  cases htaken with
  | absent => exact h.named
  | transferred target sibling targetLine siblingLine _ hat _ _ hs hne =>
    intro line hline
    rcases List.mem_cons.1 ((transferAddons_perm hs hne).subset hline) with rfl | hline
    · exact Option.some_ne_none _
    · exact (h.perm (items_perm hat hs hne)).tail.tail.named line hline
  | kept target targetLine _ hat => exact (ho hat).named

/-- What is taken from leaves sound lines iff the transfer, if there is one, keeps the ids apart. -/
theorem sound_takeFrom_iff (h : Sound items)
    (ho : ∀ {target targetLine}, items[target]? = some targetLine → Sound (otherwise target items)) :
    Sound (takeFrom transfers otherwise id items) ↔ TransfersApart transfers id items := by
  have htaken : Taken transfers otherwise id items (takeFrom transfers otherwise id items) := taken
  generalize takeFrom transfers otherwise id items = result at htaken ⊢
  cases htaken with
  | absent hnone =>
    refine iff_of_true h fun target htarget => ?_
    rw [hnone] at htarget
    cases htarget
  | transferred target sibling targetLine siblingLine htarget hat ht hsib hs hne =>
    rw [sound_transfer_iff h hat hs hne]
    constructor
    · intro hapart target' htarget' targetLine' hat' _ sibling' hsib' siblingLine' hs'
      cases htarget.symm.trans htarget'
      cases hat.symm.trans hat'
      cases hsib.symm.trans hsib'
      cases hs.symm.trans hs'
      exact hapart
    · intro hapart
      exact hapart target htarget targetLine hat ht sibling hsib siblingLine hs
  | kept target targetLine htarget hat hnone =>
    refine iff_of_true (ho hat) fun target' htarget' targetLine' hat' ht sibling hsib => ?_
    cases htarget.symm.trans htarget'
    cases hat.symm.trans hat'
    rw [hnone ht] at hsib
    cases hsib

/-- The decrement of a line that is there takes one unit. -/
theorem units_decrement (h : Sound items) (hid : ∃ line ∈ items, line.key = id) :
    units (takeFrom CartLine.isLastWithAddons Shop.decrementAt id items) + 1 = units items := by
  have htaken : Taken CartLine.isLastWithAddons Shop.decrementAt id items
    (takeFrom CartLine.isLastWithAddons Shop.decrementAt id items) := taken
  generalize takeFrom CartLine.isLastWithAddons Shop.decrementAt id items = result at htaken ⊢
  cases htaken with
  | absent hnone =>
    obtain ⟨target, htarget⟩ := targetIndex_exists hid
    rw [hnone] at htarget
    cases htarget
  | transferred target sibling targetLine siblingLine _ hat ht _ hs hne =>
    have hone : targetLine.quantity = 1 := of_decide_eq_true (Bool.and_eq_true_iff.1 ht).1
    rw [units_perm (transferAddons_perm hs hne), units_perm (items_perm hat hs hne), units_cons, units_cons, units_cons,
      hone, Nat.add_comm 1]
    rfl
  | kept target targetLine _ hat =>
    have hpos := h.positive targetLine (List.mem_of_getElem? hat)
    rw [units_perm (decrementAt_perm hat), units_append, units_perm (removeAt_perm hat), units_cons]
    split
    · next hle =>
      rw [units, List.map_nil, List.sum_nil]
      omega
    · rw [units, List.map_singleton, List.sum_singleton]
      dsimp only
      omega

end Operations

/-! ## A step -/

section Steps
variable {s : CartState} {items : List CartLine} {line : CartLine} {item : MenuItem} {targetLineId optionId : Id}

/-- Adding a product adds a line, or a unit to the one line of its id. -/
theorem sound_addItem (h : Sound s.items) :
    Sound (Shop.addItem item s).items ∧ (Shop.addItem item s).itemCount = s.itemCount + 1 := by
  unfold Shop.addItem
  dsimp only [CartState.itemCount]
  split
  · next hany =>
    obtain ⟨existing, hexisting, hkey⟩ := List.any_eq_true.1 hany
    have hkey := of_decide_eq_true hkey
    have hkeys : ∀ line ∈ s.items, (if line.key = cartLineId item then
        { line with item := line.item.spread item, quantity := line.quantity + 1 } else line).key = line.key := by
      intro line hline
      split
      · cases hid : line.lineId with
        | none => exact absurd hid (h.named line hline)
        | some id => rw [CartLine.key, CartLine.key, hid]; rfl
      · rfl
    refine ⟨⟨fun x hx => ?_, ?_, fun x hx => ?_⟩, ?_⟩
    · obtain ⟨line, hline, rfl⟩ := List.mem_map.1 hx
      have hnamed := h.named line hline
      split
      · exact hnamed
      · exact hnamed
    · rw [List.map_map]
      exact (List.map_congr_left hkeys).symm ▸ h.distinct
    · obtain ⟨line, hline, rfl⟩ := List.mem_map.1 hx
      split
      · exact Nat.succ_pos _
      · exact h.positive line hline
    · have hquantity : (s.items.map fun line => if line.key = cartLineId item then
          { line with item := line.item.spread item, quantity := line.quantity + 1 } else line).map (·.quantity) =
          s.items.map fun line => if decide (line.key = existing.key) then line.quantity + 1 else line.quantity := by
        rw [List.map_map]
        refine List.map_congr_left fun line _ => ?_
        rw [hkey, Function.comp_apply]
        simp only [decide_eq_true_eq]
        split
        · rfl
        · rfl
      rw [hquantity, sum_map_if, countP_eq_one h.distinct hexisting]
  · next hnone =>
    have hnew : ∀ line ∈ s.items, line.key ≠ cartLineId item := fun line hline hkey =>
      hnone (List.any_eq_true.2 ⟨line, hline, decide_eq_true hkey⟩)
    constructor
    · have hall : Sound ({ item, quantity := 1, lineId := some (cartLineId item) } :: s.items) :=
        sound_cons.2 ⟨Option.some_ne_none _, Nat.one_pos, hnew, h⟩
      exact hall.perm (List.perm_append_singleton _ _).symm
    · rw [List.map_append, List.sum_append]
      rfl

theorem named_removeAddon (h : Sound s.items) :
    ∀ x ∈ (Shop.removeAddonFromLine targetLineId optionId s).items, x.lineId ≠ none := by
  intro x hx
  obtain ⟨line, hline, rfl⟩ := List.mem_map.1 hx
  split
  · exact h.named line hline
  · exact Option.some_ne_none _

/-- Without an add-on the lines are sound iff what a line becomes has no other line's id. -/
theorem sound_removeAddon_iff (h : Sound s.items) : Sound (Shop.removeAddonFromLine targetLineId optionId s).items ↔
    KeepsApart s (.removeAddonFromLine targetLineId optionId) := by
  have hnodup : s.items.Nodup := h.distinct.of_map
  have hunique : ∀ x ∈ s.items, ∀ y ∈ s.items, x.key = y.key → x = y := fun x hx y hy hkey =>
    List.inj_on_of_nodup_map h.distinct hx hy hkey
  have hkept {line : CartLine} (hline : line.key ≠ targetLineId) : (if line.key ≠ targetLineId then line
      else { line with lineId := some (cartLineId (line.item.withoutAddon optionId)),
                       item := line.item.withoutAddon optionId }).key = line.key := by
    rw [if_pos hline]
  have hchanged {line : CartLine} (hline : line.key = targetLineId) : (if line.key ≠ targetLineId then line
      else { line with lineId := some (cartLineId (line.item.withoutAddon optionId)),
                       item := line.item.withoutAddon optionId }).key =
        cartLineId (line.item.withoutAddon optionId) := by
    rw [if_neg (not_not.2 hline)]
    rfl
  constructor
  · intro hsound line hline hkey other hother hne heq
    have hdistinct := hsound.distinct
    rw [Shop.removeAddonFromLine, List.map_map, List.nodup_map_iff_inj_on hnodup] at hdistinct
    have hsame := hdistinct line hline other hother (by
      rw [Function.comp_apply, Function.comp_apply, hkept hne, hchanged hkey, heq])
    exact hne (hsame ▸ hkey)
  · intro hapart
    refine ⟨named_removeAddon h, ?_, fun x hx => ?_⟩
    · rw [Shop.removeAddonFromLine, List.map_map, List.nodup_map_iff_inj_on hnodup]
      intro x hx y hy heq
      rw [Function.comp_apply, Function.comp_apply] at heq
      by_cases hxt : x.key = targetLineId
      · by_cases hyt : y.key = targetLineId
        · exact hunique x hx y hy (hxt.trans hyt.symm)
        · rw [hchanged hxt, hkept hyt] at heq
          exact absurd heq.symm (hapart x hx hxt y hy hyt)
      · by_cases hyt : y.key = targetLineId
        · rw [hkept hxt, hchanged hyt] at heq
          exact absurd heq (hapart y hy hyt x hx hxt)
        · rw [hkept hxt, hkept hyt] at heq
          exact hunique x hx y hy heq
    · obtain ⟨line, hline, rfl⟩ := List.mem_map.1 hx
      have hpos := h.positive line hline
      split
      · exact hpos
      · exact hpos

theorem itemCount_removeAddon : (Shop.removeAddonFromLine targetLineId optionId s).itemCount = s.itemCount := by
  rw [CartState.itemCount, Shop.removeAddonFromLine, List.map_map]
  refine congrArg List.sum (List.map_congr_left fun line _ => ?_)
  rw [Function.comp_apply]
  split
  · rfl
  · rfl

theorem sound_official (answer : ServerCart) : Sound (Shop.applyOfficialCart answer.cart s).items := by
  have hkey : ∀ line ∈ answer.cart.items, some (officialCartToLine line).key = line.id := by
    intro line hline
    obtain ⟨id, hid⟩ := Option.ne_none_iff_exists'.1 (answer.ids line hline)
    rw [CartLine.key, officialCartToLine, hid]
    rfl
  unfold Shop.applyOfficialCart officialCartToLines
  dsimp only
  refine ⟨fun x hx => ?_, ?_, fun x hx => ?_⟩
  · obtain ⟨line, hline, rfl⟩ := List.mem_map.1 hx
    obtain ⟨official, -, rfl⟩ := List.mem_map.1 hline
    exact Option.some_ne_none _
  · rw [List.map_map, List.map_map]
    refine List.Nodup.map_on (fun x hx y hy heq => ?_) answer.distinct.of_map
    refine List.inj_on_of_nodup_map answer.distinct hx hy ?_
    rw [← hkey x hx, ← hkey y hy]
    exact congrArg some heq
  · obtain ⟨line, hline, rfl⟩ := List.mem_map.1 hx
    obtain ⟨official, hofficial, rfl⟩ := List.mem_map.1 hline
    exact answer.units official hofficial

/-- From sound lines a step leads to sound lines iff it keeps the ids apart. -/
theorem sound_next_iff (h : Sound s.items) (a : CartAction) : Sound (s.next a).items ↔ KeepsApart s a := by
  cases a with
  | addItem item => exact iff_of_true (sound_addItem h).1 trivial
  | decrementItem id => exact sound_takeFrom_iff h h.decrementAt
  | removeItem id => exact sound_takeFrom_iff h h.removeAt
  | removeAddonFromLine lineId optionId => exact sound_removeAddon_iff h
  | applyOfficialCart answer => exact iff_of_true (sound_official answer) trivial

/-- Every operation leaves ids on the lines. -/
theorem named_next (h : Sound s.items) (a : CartAction) : ∀ line ∈ (s.next a).items, line.lineId ≠ none := by
  cases a with
  | addItem item => exact (sound_addItem h).1.named
  | decrementItem id => exact named_takeFrom h h.decrementAt
  | removeItem id => exact named_takeFrom h h.removeAt
  | removeAddonFromLine lineId optionId => exact named_removeAddon h
  | applyOfficialCart answer => exact (sound_official answer).named

/-- What a step counts, and what it leaves. -/
theorem counts_iff_sound (h : Sound s.items) (a : CartAction) : Counts s a ↔ Sound (s.next a).items := by
  constructor
  · intro hcounts
    exact ⟨named_next h a, hcounts.distinct, hcounts.positive⟩
  · intro hsound
    refine ⟨hsound.distinct, hsound.positive, ?_, ?_, ?_⟩
    · rintro item rfl
      exact (sound_addItem h).2
    · rintro id rfl hid
      exact units_decrement h hid
    · rintro lineId optionId rfl
      exact itemCount_removeAddon

end Steps

/-- Along a run from the empty cart the lines keep their ids apart, have units and count as they should, iff no
operation gives a line the id that another line has. -/
theorem line_identity_iff (actions : List CartAction) :
    Along cartStep Counts {} actions ↔ Along cartStep KeepsApart {} actions := by
  have hempty : Sound ({} : CartState).items :=
    ⟨fun _ h => absurd h List.not_mem_nil, List.nodup_nil, fun _ h => absurd h List.not_mem_nil⟩
  obtain ⟨s', hr⟩ : ∃ s', Runs.exec cartStep {} actions = some s' := exec_total fun s a => ⟨s.next a, rfl⟩
  refine Along.congr (I := fun s => Sound s.items) (fun s a s' hi hc hs => ?_) (fun s a s' hi _ => ?_) hempty hr
  · cases hs
    exact (counts_iff_sound hi a).1 hc
  · exact (counts_iff_sound hi a).trans (sound_next_iff hi a)

namespace Demo

def burger : MenuItem := { documentId := "burger", name := "Burger", price := 1000, basePrice := some 1000 }

def bacon : ProductModifierOption := { id := "bacon", name := "Bacon", priceDelta := 200 }

def baconBurger : MenuItem :=
  { burger with price := 1200, selectedOptionIds := some ["bacon"], selectedOptions := some [bacon] }

/-- A burger and one with bacon, whose bacon is taken off. -/
def baconOff : List CartAction :=
  [.addItem burger, .addItem baconBurger, .removeAddonFromLine "burger::bacon" "bacon", .addItem burger]

end Demo

/-- There are two lines of the same id then, and adding a burger adds two. -/
theorem same_id_twice : ¬ ∀ actions : List CartAction, Along cartStep Counts {} actions := by
  intro h
  obtain ⟨-, hrest⟩ := h Demo.baconOff
  obtain ⟨-, hrest⟩ := hrest _ rfl
  obtain ⟨hcounts, -⟩ := hrest _ rfl
  have hkeys : ¬ (((((({} : CartState).next (.addItem Demo.burger)).next (.addItem Demo.baconBurger)).next
      (.removeAddonFromLine "burger::bacon" "bacon")).items.map (·.key)).Nodup) := by decide
  exact hkeys hcounts.distinct

end Komanda.Shop
