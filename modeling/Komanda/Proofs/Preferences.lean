import Komanda.Lib.Proration
import Komanda.Preferences
import Komanda.Proofs.CartArithmetic

/-!
# What the provider charges is what the cart costs

Each line but the last gets its share of the discount, rounded on its own, and the last one what is left, as far as it
goes; the units of a line share what is left of it to the cent. So the items add up to the total of the cart iff its
last line can bear what the roundings add up to.
-/

namespace Komanda
open Komanda.Core Runs Proration PaymentSessionService

section Items
variable {cart : Cart} {line : CartLine} {lines : List CartLine} {s d allocated n unitPrice discounted : Cents}
  {items items' : List PreferenceItem} {amounts : List Cents}

theorem itemsTotal_append : itemsTotal (items ++ items') = itemsTotal items + itemsTotal items' := by
  rw [itemsTotal, List.map_append, List.sum_append, itemsTotal, itemsTotal]

theorem itemsTotal_single : itemsTotal [preferenceItem cart line n unitPrice] = n * unitPrice := by
  rw [itemsTotal, List.map_singleton, List.sum_singleton, preferenceItem]

/-- Items of one unit each. -/
theorem itemsTotal_units : itemsTotal (amounts.map (preferenceItem cart line 1)) = amounts.sum := by
  rw [itemsTotal, List.map_map]
  exact congrArg List.sum ((List.map_congr_left fun _ _ => Nat.one_mul _).trans (List.map_id _))

/-- The items of a line cost what is left of it. -/
theorem itemsTotal_line (h : discounted ≤ line.unitPriceSnapshot * line.quantity) :
    itemsTotal (discountedItems cart line discounted) = discounted := by
  unfold discountedItems
  split
  · rw [itemsTotal_single, Nat.one_mul]
  · have hunits : (List.range line.quantity).map (fun q => preferenceItem cart line 1
        (discounted / line.quantity + if q < discounted % line.quantity then 1 else 0)) =
          (units discounted line.quantity).map (preferenceItem cart line 1) := List.map_map.symm
    dsimp only
    rw [hunits, itemsTotal_units]
    rcases Nat.eq_zero_or_pos line.quantity with hzero | hpos
    · rw [hzero, Nat.mul_zero] at h
      rw [hzero, Nat.le_zero.1 h]
      rfl
    · exact sum_units hpos

/-- What is left of the lines is what their parts of the discount leave. -/
theorem proratedLines_amounts : (proratedLines s d allocated lines).map (·.2) =
    List.zipWith (· - ·) (lines.map (·.lineTotal)) (prorate (lineShare s d) d allocated (lines.map (·.lineTotal))) := by
  induction lines generalizing allocated with
  | nil => rfl
  | cons line rest ih =>
    rw [proratedLines, List.map_cons, ih]
    cases rest with
    | nil => rfl
    | cons line' rest => rfl

/-- Each line is there, and nothing is left of it that it did not cost. -/
theorem proratedLines_le : ∀ p ∈ proratedLines s d allocated lines, p.1 ∈ lines ∧ p.2 ≤ p.1.lineTotal := by
  induction lines generalizing allocated with
  | nil => exact fun p hp => absurd hp List.not_mem_nil
  | cons line rest ih =>
    intro p hp
    rcases List.mem_cons.1 hp with rfl | hp
    · exact ⟨List.mem_cons_self, Nat.sub_le ..⟩
    · exact ⟨List.mem_cons_of_mem _ (ih p hp).1, (ih p hp).2⟩

theorem itemsTotal_flatMap {ps : List (CartLine × Cents)}
    (h : ∀ p ∈ ps, itemsTotal (discountedItems cart p.1 p.2) = p.2) :
    itemsTotal (ps.flatMap fun p => discountedItems cart p.1 p.2) = (ps.map (·.2)).sum := by
  induction ps with
  | nil => rfl
  | cons p ps ih =>
    rw [List.flatMap_cons, itemsTotal_append, h p List.mem_cons_self, ih fun q hq => h q (List.mem_cons_of_mem _ hq),
      List.map_cons, List.sum_cons]

/-- Taking parts off takes their sum off. -/
theorem sum_zipWith_sub {parts totals : List Cents} (h : List.Forall₂ (· ≤ ·) parts totals) :
    (List.zipWith (· - ·) totals parts).sum + parts.sum = totals.sum := by
  induction h with
  | nil => rfl
  | @cons part total parts totals hle _ ih =>
    simp only [List.zipWith_cons_cons, List.sum_cons]
    have hpart : total - part + part = total := Nat.sub_add_cancel hle
    calc total - part + (List.zipWith (· - ·) totals parts).sum + (part + parts.sum)
        = (total - part + part) + ((List.zipWith (· - ·) totals parts).sum + parts.sum) := by ac_rfl
      _ = total + totals.sum := by rw [hpart, ih]

/-- The items of a cart without a discount cost its subtotal. -/
theorem itemsTotal_undiscounted (h : cart.AddsUp) (hd : cart.discountTotal = 0) :
    itemsTotal (buildMercadoPagoPreferenceItems cart) = cart.total := by
  have htotal := h.total
  rw [hd, Nat.zero_add] at htotal
  rw [buildMercadoPagoPreferenceItems, if_pos hd, itemsTotal, List.map_map, htotal, ← h.subtotal]
  refine congrArg List.sum (List.map_congr_left fun line hline => ?_)
  exact (Nat.mul_comm _ _).trans (h.lines line hline).symm

/-- What the items cost beside the parts of the discount is the subtotal. -/
theorem itemsTotal_discounted (h : cart.AddsUp) (hd : cart.discountTotal ≠ 0) :
    itemsTotal (buildMercadoPagoPreferenceItems cart) +
      (prorate (lineShare cart.subtotal cart.discountTotal) cart.discountTotal 0
        (cart.lines.map (·.lineTotal))).sum = cart.subtotal := by
  rw [buildMercadoPagoPreferenceItems, if_neg hd]
  dsimp only
  rw [itemsTotal_flatMap, proratedLines_amounts, h.subtotal]
  · exact (sum_zipWith_sub prorate_le).trans h.subtotal
  · intro p hp
    obtain ⟨hline, hle⟩ := proratedLines_le p hp
    exact itemsTotal_line (h.lines p.1 hline ▸ hle)

theorem itemsTotal_iff (h : cart.AddsUp) : itemsTotal (buildMercadoPagoPreferenceItems cart) = cart.total ↔
    cart.discountTotal = 0 ∨
      Tolerable (lineShare cart.subtotal cart.discountTotal) cart.discountTotal (cart.lines.map (·.lineTotal)) := by
  by_cases hd : cart.discountTotal = 0
  · exact iff_of_true (itemsTotal_undiscounted h hd) (.inl hd)
  · have hle : cart.discountTotal ≤ (cart.lines.map (·.lineTotal)).sum := by
      rw [h.subtotal, ← h.total]
      exact Nat.le_add_right ..
    have hpos : 0 < (cart.lines.map (·.lineTotal)).sum := Nat.lt_of_lt_of_le (Nat.pos_of_ne_zero hd) hle
    rw [or_iff_right hd, ← absorbed_iff_tolerable hpos, ← sum_prorate hle]
    have hitems := itemsTotal_discounted h hd
    have htotal := h.total
    generalize itemsTotal (buildMercadoPagoPreferenceItems cart) = charged at hitems ⊢
    generalize (prorate _ _ 0 _).sum = parts at hitems ⊢
    rw [← htotal] at hitems
    constructor
    · rintro rfl
      exact Nat.add_left_cancel (hitems.trans (Nat.add_comm ..))
    · rintro rfl
      exact Nat.add_right_cancel (hitems.trans (Nat.add_comm ..))

/-- The order of the lines, which the database does not fix, leaves the cart adding up. -/
theorem Cart.AddsUp.perm (h : cart.AddsUp) (hp : lines.Perm cart.lines) : ({ cart with lines } : Cart).AddsUp where
  lines line hline := h.lines line (hp.subset hline)
  subtotal := ((hp.map _).sum_eq).trans h.subtotal
  total := h.total

end Items

/-- The items of the preference of a cart cost what the cart does iff it has no discount, or its last line can bear what
the rounded shares of the others exceed or lack. -/
theorem preference_items_iff {tenantId : Id} {settings : Settings} {es : List RcEvent} {s : RcState} {cart : Cart}
    {lines : List CartLine} (hr : Runs.exec rcStep (RcState.fresh tenantId settings) es = some s)
    (hc : cart ∈ s.db.carts) (hp : lines.Perm cart.lines) :
    itemsTotal (buildMercadoPagoPreferenceItems { cart with lines }) = cart.total ↔
      cart.discountTotal = 0 ∨ Tolerable (lineShare cart.subtotal cart.discountTotal) cart.discountTotal
        (lines.map (·.lineTotal)) :=
  itemsTotal_iff (((CartsAddUp.reached hr).adds cart hc).perm hp)

namespace Demo

/-- Four burgers, on a line each. -/
def fillLines (n cartId : String) : Request := call 1 n (.createCart tenant
  { lines := List.replicate 4 { isCombo := false, resourceId := "burger", quantity := 1 } } ("key-" ++ n)
  ("record-" ++ n) cartId)

def couponOf (coupon : Discount) : List RcEvent :=
  inTurn [setUp, offer coupon, fillLines "1" "cart", useCoupon 2 "cart"]

end Demo

open Demo

theorem preference_items_ten_percent : ∃ s cart,
    Runs.exec rcStep (RcState.fresh "tenant" settings) (couponOf tenPercent) = some s ∧ cart ∈ s.db.carts ∧
      cart.total = 3600 ∧ itemsTotal (buildMercadoPagoPreferenceItems { cart with lines := cart.lines }) =
        cart.total := by
  have hx : (Runs.exec rcStep (RcState.fresh "tenant" settings) (couponOf tenPercent)).any (fun s =>
      s.db.carts.any fun cart => cart.total = 3600 &&
        Tolerable (lineShare cart.subtotal cart.discountTotal) cart.discountTotal (cart.lines.map (·.lineTotal))) =
          true := by decide +kernel
  obtain ⟨s, hr, hdb⟩ := (Option.any_eq_true _ _).1 hx
  obtain ⟨cart, hc, hcart⟩ := List.any_eq_true.1 hdb
  rw [Bool.and_eq_true, decide_eq_true_eq, decide_eq_true_eq] at hcart
  exact ⟨s, cart, hr, hc, hcart.1, (preference_items_iff hr hc (.refl _)).2 (.inr hcart.2)⟩

/-- A coupon of two cents: three of the four lines take a cent each. -/
theorem three_cents_off : ¬ ∀ (tenantId : Id) (settings : Settings) (es : List RcEvent) (s : RcState),
    Runs.exec rcStep (RcState.fresh tenantId settings) es = some s →
      ∀ cart ∈ s.db.carts, itemsTotal (buildMercadoPagoPreferenceItems cart) = cart.total := by
  intro h
  have hx : (Runs.exec rcStep (RcState.fresh "tenant" settings)
      (couponOf { tenPercent with discountType := .fixedAmount, discountValue := 2 })).any (fun s =>
        s.db.carts.any fun cart => cart.total = 3998 && itemsTotal (buildMercadoPagoPreferenceItems cart) = 3997) =
          true := by decide +kernel
  obtain ⟨s, hr, hdb⟩ := (Option.any_eq_true _ _).1 hx
  obtain ⟨cart, hc, hcart⟩ := List.any_eq_true.1 hdb
  rw [Bool.and_eq_true, decide_eq_true_eq, decide_eq_true_eq] at hcart
  have hitems := h _ _ _ _ hr cart hc
  rw [hcart.1, hcart.2] at hitems
  cases hitems

end Komanda
