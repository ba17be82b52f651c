import Komanda.Lib.DecimalSums
import Komanda.PaymentConfirmation

/-!
# The settlement of a payment in doubles (`mercadopago-webhook.service.ts`)

`Webhook.financialRecord` derives the fee and the net amount in cents. The service computes with the numbers of the
language: an amount of the payload is read as a double, a line of the details is printed with two digits and read
again, and each amount of the record is printed with two digits in the end.
-/

namespace Komanda.Webhook
open Binary64

/-- `Number(amount).toFixed(2)` of an amount in cents. -/
def printed (amount : Int) : Int := toFixedInt 2 (ofFixed 2 amount)

/-- The fee: as it is listed, or what gross and net amount leave for it. -/
def feeNum (payment : MercadoPagoPayment) (grossNum : ℚ) : ℚ :=
  let feeDetails := payment.feeDetails.map fun f => { f with amount := printed f.amount }
  if feeDetails.length > 0 then total (feeDetails.map fun f => ofFixed 2 f.amount)
  else match payment.netReceivedAmount with
    | some net => max 0 (nearest (nearest (grossNum - ofFixed 2 net) - ofFixed 2 (payment.taxesAmount.getD 0)))
    | none => 0

def taxesNum (payment : MercadoPagoPayment) : ℚ :=
  let taxesDetails := payment.taxes.map fun t => { t with amount := printed t.amount }
  match payment.taxesAmount with
  | some taxes => ofFixed 2 taxes
  | none => if taxesDetails.length > 0 then total (taxesDetails.map fun t => ofFixed 2 t.amount) else 0

def netNum (payment : MercadoPagoPayment) (grossNum feeNum taxesNum : ℚ) : ℚ :=
  match payment.netReceivedAmount with
  | some net => ofFixed 2 net
  | none => nearest (nearest (grossNum - feeNum) - taxesNum)

def financialRecordInDoubles (payment : MercadoPagoPayment) (attempt : PaymentAttempt) (order : Order) (now : Instant) :
    MpFinancialRecord :=
  let grossNum := ofFixed 2 (payment.transactionAmount.getD attempt.amount)
  let feeNum := feeNum payment grossNum
  let taxesNum := taxesNum payment
  let netNum := netNum payment grossNum feeNum taxesNum
  { locationId := order.locationId
    orderId := order.id
    mpPaymentId := payment.id
    grossAmount := toFixedInt 2 grossNum
    feeAmount := toFixedInt 2 feeNum
    feeDetails := payment.feeDetails.map fun f => { f with amount := printed f.amount }
    taxesAmount := toFixedInt 2 taxesNum
    taxesDetails := payment.taxes.map fun t => { t with amount := printed t.amount }
    netReceivedAmount := toFixedInt 2 netNum
    isFeeInclusiveOfTax := taxesNum = 0 && feeNum > 0 && payment.taxes.length = 0
    moneyReleased := payment.moneyReleased
    moneyReleaseExpectedAt := payment.moneyReleaseDate
    moneyReleasedAt := payment.dateReleased.or (if payment.moneyReleased then some now else none)
    settlementDate := payment.dateApproved.getD now }

end Komanda.Webhook
