import Komanda.TenantErasure

/-!
# Erasing a tenant

The order of the statements lets no key of the tenant's own rows stand in the way. Four keys name the row they refer to
by its id alone, and through these a row of another tenant can refer to one that is erased.
-/

namespace Komanda
open TenantErasure DbTable

/-- Nothing of the tenant remains and nothing else has changed. -/
structure Erased {Rest : Type} (tenantId : Id) (db db' : Tables Rest) : Prop where
  gone : ∀ t, ∀ r ∈ db' t, belongsTo tenantId t r = false
  others : ∀ t, (db' t).filter (fun r => !belongsTo tenantId t r) = (db t).filter fun r => !belongsTo tenantId t r

/-- No row of another tenant in `child` names one of the tenant's in `parent`. -/
def NoneNames {Rest : Type} (tenantId : Id) (db : Tables Rest) (child : DbTable) (column : DbColumn)
    (parent : DbTable) : Prop :=
  ∀ r ∈ db child, r.cell .tenantId ≠ some tenantId → ∀ q ∈ db parent, q.cell .tenantId = some tenantId →
    ¬((r.cell column).isSome = true ∧ r.cell column = q.cell .id)

/-- No cash movement or financial record of another tenant names an order of the tenant, no movement a shift, and no
cart a coupon. -/
structure UnnamedByOthers {Rest : Type} (tenantId : Id) (db : Tables Rest) : Prop where
  movementOrders : NoneNames tenantId db .cashRegisterMovements .orderId .orders
  recordOrders : NoneNames tenantId db .mpFinancialRecords .orderId .orders
  movementShifts : NoneNames tenantId db .cashRegisterMovements .shiftId .cashShifts
  cartDiscounts : NoneNames tenantId db .carts .appliedDiscountCodeId .discounts

namespace TenantErasure

theorem ordered : relations.Ordered tenantColumn deletionOrder where
  nodup := by decide +kernel
  owners := by decide +kernel
  children := by decide +kernel
  unreferenced := by decide +kernel
  unowned := by decide +kernel

/-- The keys of `foreignKeys` between tables of the tenant that do not name it. -/
def unconfined : List (ForeignKey DbTable DbColumn) := [
  byId .cashRegisterMovements .orderId .orders .restrict,
  byId .mpFinancialRecords .orderId .orders .restrict,
  byId .cashRegisterMovements .shiftId .cashShifts .noAction,
  byId .carts .appliedDiscountCodeId .discounts .setNull]

theorem filter_unconfined : (foreignKeys.filter fun k =>
    !Relations.confined tenantColumn k && decide (k.parent ∈ deletionOrder)) = unconfined := by
  rfl

variable {Rest : Type} {tenantId : Id} {db db' : Tables Rest}

theorem erased_iff : Erased tenantId db db' ↔ ∀ t, db' t = (db t).filter fun r => !belongsTo tenantId t r := by
  constructor
  · intro h t
    rw [← h.others t, List.filter_eq_self.2]
    intro r hr
    rw [h.gone t r hr]
    rfl
  · intro h
    constructor
    · intro t r hr
      rw [h t] at hr
      simpa using (List.mem_filter.1 hr).2
    · intro t
      rw [h t, List.filter_filter]
      simp only [Bool.and_self]

theorem belongsTo_eq : @belongsTo Rest tenantId = Relations.owned tenantColumn tenantId := rfl

theorem belongsTo_of {t : DbTable} (ht : tenantColumn t = some .tenantId) (r : StoredRow Rest) :
    belongsTo tenantId t r = decide (r.cell .tenantId = some tenantId) := by
  rw [belongsTo, Relations.owned, ht]

theorem refers_byId {child parent : DbTable} {column : DbColumn} {action : OnDelete} {r q : StoredRow Rest} :
    (byId child column parent action).refers r q = false ↔
      ¬((r.cell column).isSome = true ∧ r.cell column = q.cell .id) := by
  rw [← Bool.not_eq_true, ForeignKey.refers_iff]
  simp only [byId, List.mem_singleton, forall_eq]

theorem noneNames_iff {child parent : DbTable} {column : DbColumn} {action : OnDelete}
    (hchild : tenantColumn child = some .tenantId) (hparent : tenantColumn parent = some .tenantId) :
    (∀ r ∈ db child, belongsTo tenantId child r = false → ∀ q ∈ db parent, belongsTo tenantId parent q = true →
      (byId child column parent action).refers r q = false) ↔ NoneNames tenantId db child column parent := by
  simp only [belongsTo_of hchild, belongsTo_of hparent, decide_eq_false_iff_not, decide_eq_true_eq, refers_byId]
  exact Iff.rfl

theorem unnamedByOthers_iff : UnnamedByOthers tenantId db ↔
    Relations.Unreferenced relations tenantColumn tenantId deletionOrder db := by
  rw [Relations.unreferenced_iff]
  show _ ↔ ∀ k ∈ foreignKeys.filter fun k => !Relations.confined tenantColumn k && decide (k.parent ∈ deletionOrder), _
  rw [filter_unconfined]
  simp only [unconfined, List.forall_mem_cons, List.not_mem_nil, false_implies, implies_true, and_true]
  constructor
  · intro h
    exact ⟨(noneNames_iff rfl rfl).2 h.movementOrders, (noneNames_iff rfl rfl).2 h.recordOrders,
      (noneNames_iff rfl rfl).2 h.movementShifts, (noneNames_iff rfl rfl).2 h.cartDiscounts⟩
  · rintro ⟨h₁, h₂, h₃, h₄⟩
    exact ⟨(noneNames_iff rfl rfl).1 h₁, (noneNames_iff rfl rfl).1 h₂, (noneNames_iff rfl rfl).1 h₃,
      (noneNames_iff rfl rfl).1 h₄⟩

theorem deleteTenant_owner {userId : String} : deleteTenant ⟨tenantId, .user userId .owner⟩ db = .ok db' ↔
    relations.erase (belongsTo tenantId) deletionOrder db = .ok db' := by
  simp only [deleteTenant, requireOwner, bind, Except.bind]
  cases relations.erase (belongsTo tenantId) deletionOrder db with
  | ok db₁ => simp only [Except.ok.injEq]
  | error key => simp only [reduceCtorEq]

end TenantErasure

/-- An owner's request erases the tenant and nothing else, whatever the tables hold, iff no row of another tenant names
one of the tenant's by its id alone. -/
theorem tenant_erasure_iff {Rest : Type} (tenantId : Id) (userId : String) (db : Tables Rest) :
    (∃ db', deleteTenant ⟨tenantId, .user userId .owner⟩ db = .ok db' ∧ Erased tenantId db db') ↔
      UnnamedByOthers tenantId db := by
  simp only [deleteTenant_owner, erased_iff, unnamedByOthers_iff]
  exact ordered.erase_iff

namespace TenantErasure

def stored (cells : List (DbColumn × Id)) : StoredRow Unit := ⟨fun c => cells.lookup c, ()⟩

/-- Two stores, and a cash movement of one that names an order of the other. -/
def twoStores : Tables Unit
  | .tenants => [stored [(.id, "bakery")], stored [(.id, "grill")]]
  | .users => [stored [(.id, "ana")], stored [(.id, "bea")]]
  | .tenantMemberships =>
    [stored [(.tenantId, "bakery"), (.userId, "ana")], stored [(.tenantId, "grill"), (.userId, "bea")]]
  | .tenantLocations => [stored [(.tenantId, "bakery"), (.id, "oven")], stored [(.tenantId, "grill"), (.id, "fire")]]
  | .carts => [stored [(.tenantId, "bakery"), (.id, "cart"), (.locationId, "oven")]]
  | .orders => [stored [(.tenantId, "bakery"), (.id, "order"), (.locationId, "oven"), (.cartId, "cart")]]
  | .cashRegisterMovements => [stored [(.tenantId, "grill"), (.id, "movement"), (.orderId, "order")]]
  | _ => []

end TenantErasure

/-- The order stays, and with it the tenant. -/
theorem other_store_blocks_erasure : (∀ k ∈ foreignKeys, k.Holds twoStores) ∧
    ¬∃ db', deleteTenant ⟨"bakery", .user "ana" .owner⟩ twoStores = .ok db' ∧ Erased "bakery" twoStores db' := by
  constructor
  · decide +kernel
  · simp only [deleteTenant_owner, erased_iff]
    rw [belongsTo_eq, ordered.erase_iff, ← unnamedByOthers_iff]
    intro h
    exact h.movementOrders _ (List.mem_singleton_self _) (by decide) _ (List.mem_singleton_self _) (by decide)
      (by decide)

end Komanda
