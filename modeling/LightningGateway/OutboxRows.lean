import LightningGateway.Primitives

/-!
# Rows of the event outbox

Every accounting-relevant transition publishes one row, in the transaction that
records it. A row names a domain event, refers to its payment by the hex text
of the payment hash and carries a JSON object for the consumer.
-/
namespace LightningGateway.OutboxRows
open Primitives

/-- The JSON values the gateway writes; an object is its list of members. -/
inductive Json where
  | null
  | bool (b : Bool)
  | num (n : ℤ)
  | str (s : String)
  | arr (items : List Json)
  | obj (members : List (String × Json))

/-- Member `key` of an object. -/
def Json.get? : Json → String → Option Json
  | .obj members, key => (members.find? (fun m => m.1 = key)).map (·.2)
  | _, _ => none

/-- An unsigned amount as a JSON number. -/
def Json.u64 (x : UInt64) : Json := .num x.toNat

inductive GatewayEventType where
  | outgoingPaymentInitiated
  | outgoingPaymentCompleted
  | outgoingPaymentFailed
  | outgoingPaymentReversed
  | incomingPaymentReceived
  | incomingPaymentPending
  | incomingPaymentConfirmed
  | incomingPaymentCanceled
deriving DecidableEq, Repr

inductive GatewayDomainEvent where
  | lightningInvoiceSettled
  | lightningHtlcHeld
  | lightningInvoiceCanceled
  | lightningPaymentInitiated
  | lightningPaymentCompleted
  | lightningPaymentFailed
  | lightningPaymentReversed
  | lightningIntraledgerTransferCompleted
deriving DecidableEq, Repr

/-- `OutboxError`, as far as the rows themselves give rise to it. -/
inductive OutboxError where
  | unknownEventType (text : String)
deriving DecidableEq, Repr

namespace GatewayEventType

def asStr : GatewayEventType → String
  | outgoingPaymentInitiated => "OUTGOING_PAYMENT_INITIATED"
  | outgoingPaymentCompleted => "OUTGOING_PAYMENT_COMPLETED"
  | outgoingPaymentFailed => "OUTGOING_PAYMENT_FAILED"
  | outgoingPaymentReversed => "OUTGOING_PAYMENT_REVERSED"
  | incomingPaymentReceived => "INCOMING_PAYMENT_RECEIVED"
  | incomingPaymentPending => "INCOMING_PAYMENT_PENDING"
  | incomingPaymentConfirmed => "INCOMING_PAYMENT_CONFIRMED"
  | incomingPaymentCanceled => "INCOMING_PAYMENT_CANCELED"

def fromStr (s : String) : Except OutboxError GatewayEventType :=
  if s = "OUTGOING_PAYMENT_INITIATED" then .ok outgoingPaymentInitiated
  else if s = "OUTGOING_PAYMENT_COMPLETED" then .ok outgoingPaymentCompleted
  else if s = "OUTGOING_PAYMENT_FAILED" then .ok outgoingPaymentFailed
  else if s = "OUTGOING_PAYMENT_REVERSED" then .ok outgoingPaymentReversed
  else if s = "INCOMING_PAYMENT_RECEIVED" then .ok incomingPaymentReceived
  else if s = "INCOMING_PAYMENT_PENDING" then .ok incomingPaymentPending
  else if s = "INCOMING_PAYMENT_CONFIRMED" then .ok incomingPaymentConfirmed
  else if s = "INCOMING_PAYMENT_CANCELED" then .ok incomingPaymentCanceled
  else .error (.unknownEventType s)

/-- The texts that are read are those that are written. -/
theorem fromStr_ok {s : String} {t : GatewayEventType} : fromStr s = .ok t ↔ s = t.asStr := by
  constructor
  · intro h
    unfold fromStr at h
    split_ifs at h <;> cases h <;> assumption
  · rintro rfl
    cases t <;> rfl

end GatewayEventType

namespace GatewayDomainEvent

def asStr : GatewayDomainEvent → String
  | lightningInvoiceSettled => "lightning_invoice_settled"
  | lightningHtlcHeld => "lightning_htlc_held"
  | lightningInvoiceCanceled => "lightning_invoice_canceled"
  | lightningPaymentInitiated => "lightning_payment_initiated"
  | lightningPaymentCompleted => "lightning_payment_completed"
  | lightningPaymentFailed => "lightning_payment_failed"
  | lightningPaymentReversed => "lightning_payment_reversed"
  | lightningIntraledgerTransferCompleted => "lightning_intraledger_transfer_completed"

def fromStr (s : String) : Except OutboxError GatewayDomainEvent :=
  if s = "lightning_invoice_settled" then .ok lightningInvoiceSettled
  else if s = "lightning_htlc_held" then .ok lightningHtlcHeld
  else if s = "lightning_invoice_canceled" then .ok lightningInvoiceCanceled
  else if s = "lightning_payment_initiated" then .ok lightningPaymentInitiated
  else if s = "lightning_payment_completed" then .ok lightningPaymentCompleted
  else if s = "lightning_payment_failed" then .ok lightningPaymentFailed
  else if s = "lightning_payment_reversed" then .ok lightningPaymentReversed
  else if s = "lightning_intraledger_transfer_completed" then
    .ok lightningIntraledgerTransferCompleted
  else .error (.unknownEventType s)

theorem fromStr_ok {s : String} {d : GatewayDomainEvent} : fromStr s = .ok d ↔ s = d.asStr := by
  constructor
  · intro h
    unfold fromStr at h
    split_ifs at h <;> cases h <;> assumption
  · rintro rfl
    cases d <;> rfl

/-- The standardized vocabulary Symphony consumes. -/
def toStandardized : GatewayDomainEvent → GatewayEventType
  | lightningInvoiceSettled => .incomingPaymentConfirmed
  | lightningHtlcHeld => .incomingPaymentPending
  | lightningInvoiceCanceled => .incomingPaymentCanceled
  | lightningPaymentInitiated => .outgoingPaymentInitiated
  | lightningPaymentCompleted => .outgoingPaymentCompleted
  | lightningPaymentFailed => .outgoingPaymentFailed
  | lightningPaymentReversed => .outgoingPaymentReversed
  | lightningIntraledgerTransferCompleted => .outgoingPaymentCompleted

/-- Rows about a payment the gateway makes. -/
def isOutgoing : GatewayDomainEvent → Bool
  | lightningPaymentInitiated | lightningPaymentCompleted | lightningPaymentFailed
  | lightningPaymentReversed | lightningIntraledgerTransferCompleted => true
  | lightningInvoiceSettled | lightningHtlcHeld | lightningInvoiceCanceled => false

end GatewayDomainEvent

structure NewOutboxEvent where
  correlationId : String
  domainEvent : GatewayDomainEvent
  referenceId : String
  amountSat : ℤ
  timestamp : Timestamp
  gatewayMetadata : Json

/-- A persisted row. -/
structure OutboxEvent where
  sequence : ℤ
  correlationId : String
  domainEvent : GatewayDomainEvent
  eventType : GatewayEventType
  referenceId : String
  amountSat : ℤ
  timestamp : Timestamp
  gatewayMetadata : Json

namespace NewOutboxEvent

/-- The constructors differ only in the domain event they fix. -/
def new (domainEvent : GatewayDomainEvent) (correlationId paymentHashHex : String)
    (amountSat : ℤ) (timestamp : Timestamp) (gatewayMetadata : Json) : NewOutboxEvent :=
  ⟨correlationId, domainEvent, paymentHashHex, amountSat, timestamp, gatewayMetadata⟩

def forLightningInvoiceSettled := new .lightningInvoiceSettled
def forLightningPaymentInitiated := new .lightningPaymentInitiated
def forLightningPaymentCompleted := new .lightningPaymentCompleted
def forLightningPaymentFailed := new .lightningPaymentFailed
def forLightningHtlcHeld := new .lightningHtlcHeld
def forLightningIntraledgerTransferCompleted := new .lightningIntraledgerTransferCompleted
def forLightningInvoiceCanceled := new .lightningInvoiceCanceled

/-- The row an insert makes of it: the sequence comes from the table, the
standardized type from the domain event. -/
def row (e : NewOutboxEvent) (sequence : ℤ) : OutboxEvent :=
  ⟨sequence, e.correlationId, e.domainEvent, e.domainEvent.toStandardized, e.referenceId,
    e.amountSat, e.timestamp, e.gatewayMetadata⟩

@[simp] theorem row_sequence (e : NewOutboxEvent) (n : ℤ) : (e.row n).sequence = n := rfl
@[simp] theorem row_domainEvent (e : NewOutboxEvent) (n : ℤ) :
    (e.row n).domainEvent = e.domainEvent := rfl
@[simp] theorem row_referenceId (e : NewOutboxEvent) (n : ℤ) :
    (e.row n).referenceId = e.referenceId := rfl
@[simp] theorem row_correlationId (e : NewOutboxEvent) (n : ℤ) :
    (e.row n).correlationId = e.correlationId := rfl
@[simp] theorem row_amountSat (e : NewOutboxEvent) (n : ℤ) :
    (e.row n).amountSat = e.amountSat := rfl
@[simp] theorem row_gatewayMetadata (e : NewOutboxEvent) (n : ℤ) :
    (e.row n).gatewayMetadata = e.gatewayMetadata := rfl

end NewOutboxEvent

/-! ### The wire form -/

/-- `proto::PaymentEvent`; the gateway fills in the amount in satoshis only. -/
structure ProtoPaymentEvent where
  sequence : UInt64
  correlationId : String
  eventType : ℤ
  referenceId : String
  sats : UInt64
  timestampMs : ℤ
  gatewayMetadata : String
deriving DecidableEq, Repr

def GatewayEventType.toProto : GatewayEventType → ℤ
  | .outgoingPaymentInitiated => 1
  | .outgoingPaymentCompleted => 2
  | .outgoingPaymentFailed => 3
  | .outgoingPaymentReversed => 4
  | .incomingPaymentReceived => 5
  | .incomingPaymentPending => 6
  | .incomingPaymentConfirmed => 7
  | .incomingPaymentCanceled => 8

/-- The cast `v as u64` of a signed 64-bit value. -/
def asU64 (v : ℤ) : UInt64 := UInt64.ofNat (v % 2 ^ 64).toNat

/-- A negative amount is clamped to zero. -/
def safeAmountSat (amountSat : ℤ) : UInt64 := if 0 ≤ amountSat then asU64 amountSat else 0

/-- `toText` is the JSON printer; metadata it cannot print becomes an empty object. -/
def OutboxEvent.toProto (toText : Json → Option String) (e : OutboxEvent) : ProtoPaymentEvent :=
  { sequence := asU64 e.sequence
    correlationId := e.correlationId
    eventType := e.eventType.toProto
    referenceId := e.referenceId
    sats := safeAmountSat e.amountSat
    timestampMs := e.timestamp.nanos / 10 ^ 6
    gatewayMetadata := (toText e.gatewayMetadata).getD "\x7b\x7d" }

theorem asU64_toNat {v : ℤ} (h : 0 ≤ v) (hlt : v < 2 ^ 64) : ((asU64 v).toNat : ℤ) = v := by
  have hmod : v % 2 ^ 64 = v := Int.emod_eq_of_lt h hlt
  have hsmall : v.toNat < 2 ^ 64 := by omega
  rw [asU64, hmod, UInt64.toNat_ofNat_of_lt' hsmall]
  exact Int.toNat_of_nonneg h

/-- An amount that is not negative is not clamped. -/
theorem safeAmountSat_toNat {v : ℤ} (h : 0 ≤ v) (hlt : v < 2 ^ 64) :
    ((safeAmountSat v).toNat : ℤ) = v := by
  rw [safeAmountSat, if_pos h]
  exact asU64_toNat h hlt

end LightningGateway.OutboxRows
