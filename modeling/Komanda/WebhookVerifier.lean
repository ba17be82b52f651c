import Komanda.Lib.JsonText
import Komanda.StorefrontAddresses
import Komanda.System

/-!
# Notifications of Mercado Pago (`mercadopago-webhook.verifier.ts`, `webhooks/[routingKey]/route.ts`)

Anybody may post to the route. A notification of the provider carries the HMAC of its resource, of the id of its request
and of a time, under a secret that the two share. A text is the list of its characters; `toLowerCase` and `hmac` are the
functions of the runtime.
-/

namespace Komanda.WebhookRoute
open Json

/-! ## The signature -/

/-- The value of a digit of `/[a-f0-9]/i`. -/
def hexValue (c : Char) : Option Nat :=
  if '0' ≤ c ∧ c ≤ '9' then some (c.toNat - 48)
  else if 'a' ≤ c ∧ c ≤ 'f' then some (c.toNat - 87)
  else if 'A' ≤ c ∧ c ≤ 'F' then some (c.toNat - 55)
  else none

/-- `Buffer.from(text, "hex")`, which ends where the digits do. -/
def bufferFromHex : List Char → List UInt8
  | a :: b :: rest =>
    match hexValue a, hexValue b with
    | some x, some y => UInt8.ofNat (16 * x + y) :: bufferFromHex rest
    | _, _ => []
  | _ => []

/-- `const [key, value] = part.trim().split("=")` -/
def partOf (part : List Char) : List Char × Option (List Char) :=
  let fields := (PublicSite.trim part).splitOn '='
  (fields.headD [], fields[1]?)

/-- A field of `Object.fromEntries`, in which the last entry of a key stays. -/
def field (key : String) (signature : List Char) : Option (List Char) :=
  (((signature.splitOn ',').map partOf).reverse.lookup key.toList).join

section Verifier
variable (toLowerCase : List Char → List Char) (hmac : List Char → List Char → List UInt8)

def manifest (dataId requestId timestamp : List Char) : List Char :=
  "id:".toList ++ toLowerCase dataId ++ ";request-id:".toList ++ requestId ++ ";ts:".toList ++ timestamp ++ ";".toList

end Verifier

/-! ## The body -/

structure SanitizedWebhook where
  providerEventId : String
  resourceId : String
  topic : String
  action : Option String
deriving DecidableEq, Repr

/-- `z.string()` -/
def text : Value Empty → Option String
  | .string s => some s
  | _ => none

def member (name : String) (fields : List (String × Option (Value Empty))) : Option (Value Empty) :=
  (fields.lookup name).join

/-- `body` is none if it is no JSON; the headers may be missing. -/
structure NotificationRequest where
  routingKey : String
  body : Option (Value Empty)
  signature : Option (List Char)
  requestId : Option (List Char)

section Route
variable (toLowerCase : List Char → List Char) (hmac : List Char → List Char → List UInt8)

/-- The event that `receiveMercadoPagoWebhook` is called with. -/
def received (request : NotificationRequest) (event : SanitizedWebhook) : ReceivedMercadoPagoWebhook where
  routingKey := request.routingKey
  providerEventId := event.providerEventId
  topic := event.topic

end Route

end Komanda.WebhookRoute
