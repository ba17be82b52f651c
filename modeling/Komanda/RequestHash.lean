import Komanda.Lib.JsonText
import Komanda.Lib.StableSort

/-!
# The hash of a request (`lib/idempotency/idempotency.service.ts`)

`hashIdempotencyRequest` hashes the text of `stableValue`, which sorts the fields of every object and takes a date for
an object, one without fields. `localeCompare` and `sha256` are parameters.
-/

namespace Komanda
open Json

/-- What `localeCompare` says of two strings; it may take different strings for equal. -/
structure Collation where
  le : String → String → Bool
  preorder : StableSort.TotalPreorder le

/-- The number of a key that is an array index. -/
def arrayIndex (key : String) : Option Nat := key.toNat?.filter fun n => n < 4294967295 ∧ toString n = key

/-- Array indices ascending, then the other keys. -/
def indexLe : Option Nat → Option Nat → Bool
  | some m, some n => m ≤ n
  | some _, none => true
  | none, some _ => false
  | none, none => true

/-- `Object.fromEntries`: an object has its array indices first, and then the other keys as they were set. -/
def fromEntries {β : Type} (entries : List (String × β)) : List (String × β) :=
  StableSort.sortBy indexLe (fun e => arrayIndex e.1) entries

mutual

def stableValue {δ : Type} (c : Collation) : Value δ → Value Empty
  | .array elements => .array (stableElements c elements)
  | .object fields => .object (fromEntries (StableSort.sortBy c.le (·.1) (stableFields c fields)))
  -- `Object.entries` of a date is empty
  | .date _ => .object []
  | .null => .null
  | .boolean b => .boolean b
  | .number n => .number n
  | .string s => .string s

def stableElements {δ : Type} (c : Collation) : List (Value δ) → List (Value Empty)
  | [] => []
  | v :: elements => stableValue c v :: stableElements c elements

/-- The sort looks at the keys only, so what they hold may be made stable before it. -/
def stableFields {δ : Type} (c : Collation) : List (String × Option (Value δ)) → List (String × Option (Value Empty))
  | [] => []
  | (key, some v) :: fields => (key, some (stableValue c v)) :: stableFields c fields
  | (key, none) :: fields => (key, none) :: stableFields c fields

end

def hashIdempotencyRequest {δ : Type} (sha256 : String → String) (c : Collation) (value : Value δ) : String :=
  sha256 (String.ofList (stableValue c value).text)

end Komanda
