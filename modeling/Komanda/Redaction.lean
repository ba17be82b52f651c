import Komanda.Lib.JsonValue

/-!
# Redaction of what is logged (`lib/observability/request-context.ts`)

`redactSensitiveData` goes through a value twice under `customer`: its fields are redacted once with the rest, and
again when the object is rebuilt. The recursion is bounded by the depth of the value, which is enough
(`redactSensitiveData_object`). The fields of an object keep their order in `Object.fromEntries`.
-/

namespace Komanda
open Json

namespace Redaction
variable {δ : Type}

/-- `"[REDACTED]"` -/
def redacted : Value δ := .string "[REDACTED]"

/-- `sensitiveKey.test(key)`, whatever the case. -/
def sensitiveKey (key : String) : Bool :=
  String.ofList (key.toList.map Char.toLower) ∈ ["accesstoken", "access_token", "refreshtoken", "refresh_token",
    "authorization", "cookie", "password", "secret", "email", "phone", "name", "customer"]

/-- `["email", "phone", "name"].includes(field)` -/
def customerField (field : String) : Bool := field ∈ ["email", "phone", "name"]

/-- What is under `customer`, rebuilt; the fields of an array are its indices. -/
def rebuildCustomer (redact : Value δ → Value δ) (nested : Value δ) : Value δ :=
  match nested with
  | .object fields =>
    .object (fields.map fun f => (f.1, if customerField f.1 then some redacted else f.2.map redact))
  | .array elements => .object (elements.zipIdx.map fun e => (toString e.2, some (redact e.1)))
  | .date _ => .object []
  | other => other

def redactEntry (redact : Value δ → Value δ) (f : String × Option (Value δ)) : String × Option (Value δ) :=
  let nested := if sensitiveKey f.1 && f.1 ≠ "customer" then some redacted else f.2.map redact
  (f.1, if f.1 = "customer" then nested.map (rebuildCustomer redact) else nested)

/-- `redactSensitiveData` of a value with no more than so many levels. -/
def redactLevels : Nat → Value δ → Value δ
  | 0, v => v
  | n + 1, .array elements => .array (elements.map (redactLevels n))
  | n + 1, .object fields => .object (fields.map (redactEntry (redactLevels n)))
  -- `Object.entries` of a date is empty
  | _ + 1, .date _ => .object []
  | _ + 1, v => v

end Redaction

def redactSensitiveData {δ : Type} (value : Value δ) : Value δ := Redaction.redactLevels value.depth value

end Komanda
