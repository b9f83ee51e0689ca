import LightningGateway.PaymentAggregate

/-!
# What LND says and how the adapter reads it

The adapter turns wire messages into the types the application works with. A
message it cannot read is an error, and so is a call that LND may have acted on
before the connection broke: an error says that the gateway did not hear the
answer, not what happened.
-/
namespace LightningGateway.LndWire
open Primitives PaymentAggregate

/-- A gRPC status as the client library reports it. -/
structure Status where
  code : ℕ
  text : String
deriving DecidableEq, Repr

namespace Status

def cancelled : ℕ := 1
def unknown : ℕ := 2
def deadlineExceeded : ℕ := 4
def notFound : ℕ := 5
def unimplemented : ℕ := 12
def unavailable : ℕ := 14

end Status

inductive LndError where
  | connect (detail : String)
  | rpc (status : Status)
  | stub
  | invalidResponse (detail : String)
  | paymentNotFound
  | paymentTimeout
  | noRoute
  | incorrectPaymentDetails
deriving DecidableEq, Repr

def LndError.display : LndError → String
  | .connect detail => "LND connection failed: " ++ detail
  | .rpc status => "LND RPC returned status: " ++ status.text
  | .stub => "LND adapter is stubbed; real wiring is exercised through `tilt up`"
  | .invalidResponse detail => "invalid LND response: " ++ detail
  | .paymentNotFound => "LND has no record of this payment"
  | .paymentTimeout => "payment timed out before LND found a route"
  | .noRoute => "no route found to destination"
  | .incorrectPaymentDetails => "destination rejected payment details"

/-- The failure recorded when the synchronous send errs. -/
def lndErrorToFailureReason : LndError → FailureReason
  | .paymentTimeout => .timeout
  | .noRoute => .noRoute
  | .incorrectPaymentDetails => .incorrectPaymentDetails
  | other => .other ("LND error: " ++ other.display)

/-! ### Outgoing payments -/

structure WireHop where
  pubKey : String
  chanId : UInt64
  feeMsat : ℤ
  amtToForwardMsat : ℤ
  expiry : UInt32
deriving DecidableEq, Repr

/-- An HTLC attempt: how it went, and the hops of its route, if it has one. LND lists
the attempts that failed and were retried as well. -/
structure HtlcAttempt where
  status : ℤ
  route : Option (List WireHop)
deriving DecidableEq, Repr

/-- `lnrpc::Payment`. -/
structure WirePayment where
  paymentHash : String
  paymentPreimage : String
  status : ℤ
  feeMsat : ℤ
  htlcs : List HtlcAttempt
  failureReason : ℤ
deriving DecidableEq, Repr

/-- `routerrpc::SendPaymentRequest`. -/
structure WireSendRequest where
  paymentRequest : String
  feeLimitMsat : ℤ
  timeoutSeconds : ℤ
deriving DecidableEq, Repr

structure SendPaymentParams where
  boltInvoice : BoltInvoice
  maxFeeMsat : MilliSatoshi
  timeoutSeconds : UInt32
deriving DecidableEq, Repr

inductive SendPaymentStatus where
  | inFlight
  | succeeded
  | failed
deriving DecidableEq, Repr

structure SendPaymentResponse where
  paymentHash : PaymentHash
  paymentPreimage : Option Preimage
  status : SendPaymentStatus
  feesPaidMsat : MilliSatoshi
  routeHops : List Hop
  failureReason : Option FailureReason
deriving DecidableEq, Repr

/-- One update of the `TrackPayments` subscription. -/
structure PaymentUpdate where
  paymentHash : PaymentHash
  status : SendPaymentStatus
  paymentPreimage : Option Preimage
  feesPaidMsat : MilliSatoshi
  routeHops : List Hop
  failureReason : Option FailureReason
deriving DecidableEq, Repr

def parseHexPaymentHash (s : String) : Except LndError PaymentHash :=
  (PaymentHash.fromStr s).mapError fun e => .invalidResponse ("payment.payment_hash: " ++ e.display)

/-- Empty means absent; anything that is not 64 hex digits is dropped. -/
def parsePreimage (s : String) : Option Preimage :=
  if s.isEmpty then none
  else if s.utf8ByteSize ≠ 64 then none
  else (Preimage.fromStr s).toOption

def mapPaymentStatus (value : ℤ) : Except LndError SendPaymentStatus :=
  if value = 4 ∨ value = 1 then .ok .inFlight
  else if value = 2 then .ok .succeeded
  else if value = 3 then .ok .failed
  else if value = 0 then .error (.invalidResponse "LND returned PaymentStatus::Unknown")
  else .error (.invalidResponse ("unknown PaymentStatus: " ++ toString value))

def mapFailureReasonToTyped (value : ℤ) : FailureReason :=
  if value = 0 then .other "none"
  else if value = 1 then .timeout
  else if value = 2 then .noRoute
  else if value = 4 then .incorrectPaymentDetails
  else if value = 5 then .insufficientBalance
  else if value = 6 then .other "canceled"
  else .other "LND failure_reason: error"

/-- Signed wire amounts below zero count as zero; all are rounded up. -/
def wireMsat (v : ℤ) : MilliSatoshi := ((msatOfI64 v).getD .zero).roundUpToSat

def readHop (hop : WireHop) : Option Hop :=
  match Pubkey.fromStr hop.pubKey with
  | .error _ => none
  | .ok pubKey => some
      ⟨pubKey, hop.chanId, wireMsat hop.feeMsat, wireMsat hop.amtToForwardMsat, hop.expiry⟩

/-- Hops of the first attempt that has a route. -/
def firstRouteHops (htlcs : List HtlcAttempt) : List Hop :=
  match htlcs.findSome? HtlcAttempt.route with
  | some hops => hops.filterMap readHop
  | none => []

def lndPaymentToSendResponse (payment : WirePayment) : Except LndError SendPaymentResponse :=
  match parseHexPaymentHash payment.paymentHash with
  | .error e => .error e
  | .ok paymentHash =>
      match mapPaymentStatus payment.status with
      | .error e => .error e
      | .ok status => .ok
          { paymentHash
            paymentPreimage := parsePreimage payment.paymentPreimage
            status
            feesPaidMsat := wireMsat payment.feeMsat
            routeHops := firstRouteHops payment.htlcs
            failureReason :=
              if status = .failed then some (mapFailureReasonToTyped payment.failureReason)
              else none }

/-- What the `TrackPayments` subscription makes of a message. -/
def paymentToUpdate (payment : WirePayment) : Except LndError PaymentUpdate :=
  match lndPaymentToSendResponse payment with
  | .error e => .error e
  | .ok resp => .ok
      { paymentHash := resp.paymentHash
        status := resp.status
        paymentPreimage := resp.paymentPreimage
        feesPaidMsat := resp.feesPaidMsat
        routeHops := resp.routeHops
        failureReason := resp.failureReason }

def mapTrackPaymentStatus (status : Status) : LndError :=
  if status.code = Status.notFound then .paymentNotFound else .rpc status

/-- What the gateway hears when the first message of `SendPaymentV2` arrives. -/
def readSendMessage : Except Status (Option WirePayment) → Except LndError SendPaymentResponse
  | .error status => .error (.rpc status)
  | .ok none =>
      .error (.invalidResponse "SendPaymentV2 stream closed without yielding a Payment")
  | .ok (some payment) => lndPaymentToSendResponse payment

/-- What the gateway hears when the first message of `TrackPaymentV2` arrives. -/
def readTrackMessage (paymentHash : PaymentHash) :
    Except Status (Option WirePayment) → Except LndError SendPaymentResponse
  | .error status => .error (mapTrackPaymentStatus status)
  | .ok none =>
      .error (.invalidResponse "TrackPaymentV2 stream closed without yielding a Payment")
  | .ok (some payment) =>
      match lndPaymentToSendResponse payment with
      | .error e => .error e
      | .ok resp =>
          if resp.paymentHash ≠ paymentHash then
            .error (.invalidResponse ("lookup_payment: requested " ++ paymentHash.toHex ++
              ", LND returned " ++ resp.paymentHash.toHex))
          else .ok resp

/-- A lookup that answers answers for the hash it was asked about. -/
theorem readTrackMessage_hash {h : PaymentHash} {m : Except Status (Option WirePayment)}
    {resp : SendPaymentResponse} (hm : readTrackMessage h m = .ok resp) :
    resp.paymentHash = h := by
  unfold readTrackMessage at hm
  split at hm
  case h_1 => cases hm
  case h_2 => cases hm
  case h_3 =>
    split at hm
    case h_1 => cases hm
    case h_2 =>
      split_ifs at hm with hne
      cases hm
      exact not_not.mp hne

/-! ### Hold invoices -/

/-- `invoicesrpc::AddHoldInvoiceRequest`. -/
structure WireAddHoldRequest where
  hash : PaymentHash
  valueMsat : ℤ
  expiry : ℤ
  memo : String
deriving DecidableEq, Repr

structure AddHoldInvoiceParams where
  paymentHash : PaymentHash
  amountMsat : Option MilliSatoshi
  memo : Option String
  expirySeconds : UInt32
deriving DecidableEq, Repr

/-- `lnrpc::Invoice`. -/
structure WireInvoice where
  rHash : List UInt8
  state : ℤ
  amtPaidMsat : ℤ
  rPreimage : List UInt8
deriving DecidableEq, Repr

inductive LndInvoiceState where
  | opened
  | accepted
  | settled
  | canceled
deriving DecidableEq, Repr

structure InvoiceUpdate where
  paymentHash : PaymentHash
  state : LndInvoiceState
  amtPaidMsat : MilliSatoshi
  paymentPreimage : Option Preimage
deriving DecidableEq, Repr

def mapInvoiceState (value : ℤ) : Except LndError LndInvoiceState :=
  if value = 0 then .ok .opened
  else if value = 1 then .ok .settled
  else if value = 2 then .ok .canceled
  else if value = 3 then .ok .accepted
  else .error (.invalidResponse ("unknown InvoiceState: " ++ toString value))

/-- 32 bytes once settled; any other length counts as absent. -/
def parseInvoicePreimage (bytes : List UInt8) : Option Preimage :=
  if h : bytes.length = 32 then some ⟨bytes, h⟩ else none

def lndInvoiceToUpdate (invoice : WireInvoice) : Except LndError InvoiceUpdate :=
  if h : invoice.rHash.length = 32 then
    match mapInvoiceState invoice.state with
    | .error e => .error e
    | .ok state =>
        match msatOfI64 invoice.amtPaidMsat with
        | none => .error (.invalidResponse
            ("amt_paid_msat negative: " ++ toString invoice.amtPaidMsat))
        | some amtPaidMsat => .ok
            ⟨⟨invoice.rHash, h⟩, state, amtPaidMsat, parseInvoicePreimage invoice.rPreimage⟩
  else .error (.invalidResponse
    ("r_hash length " ++ toString invoice.rHash.length ++ ", expected 32"))

/-- What the gateway makes of the answer to `LookupInvoice`. -/
def readLookupInvoice (paymentHash : PaymentHash) :
    Except Status WireInvoice → Except LndError InvoiceUpdate
  | .error status => .error (.rpc status)
  | .ok invoice =>
      match lndInvoiceToUpdate invoice with
      | .error e => .error e
      | .ok update =>
          if update.paymentHash ≠ paymentHash then
            .error (.invalidResponse ("lookup_invoice: requested " ++ paymentHash.toHex ++
              ", LND returned " ++ update.paymentHash.toHex))
          else .ok update

end LightningGateway.LndWire
