import LightningGateway.Primitives
import LightningGateway.EventTables

/-!
# The incoming invoice aggregate

The mirror image of the payment aggregate on the receiving side. Every invoice
is a hold invoice whose preimage the gateway owns: it is `Open`, then `Held`
while an HTLC is parked on it, then `Settled` or `Canceled`; an intraledger
transfer settles it straight from `Open`, under an event of its own.
-/
namespace LightningGateway.InvoiceAggregate
open Primitives EventTables

def secsPerMin : ℕ := 60
def secsPerHour : ℕ := 60 * 60
def btcInvoiceMinSeconds : ℕ := secsPerMin
def btcInvoiceMaxSeconds : ℕ := secsPerHour * 24
def btcInvoiceDefaultSeconds : ℕ := secsPerHour * 4

inductive CancelReason where
  | expired
deriving DecidableEq, Repr

def CancelReason.asStr : CancelReason → String
  | .expired => "Expired"

inductive InvoiceEvent where
  | created (paymentHash : PaymentHash) (paymentPreimage : Preimage) (walletId : WalletId)
      (amountMsat : Option MilliSatoshi) (expiryAt : Timestamp) (boltInvoice : BoltInvoice)
      (externalId : String) (createdAt : Timestamp)
  | htlcHeld (heldAt : Timestamp) (htlcAmountMsat : MilliSatoshi)
  | settled (settledAt : Timestamp)
  | settledIntraledger (settledAt : Timestamp)
  | canceled (canceledAt : Timestamp) (reason : CancelReason)
deriving DecidableEq, Repr

namespace InvoiceEvent

def isHtlcHeld : InvoiceEvent → Bool
  | htlcHeld .. => true
  | _ => false

def isSettled : InvoiceEvent → Bool
  | settled _ => true
  | _ => false

def isSettledIntraledger : InvoiceEvent → Bool
  | settledIntraledger _ => true
  | _ => false

def isCanceled : InvoiceEvent → Bool
  | canceled .. => true
  | _ => false

end InvoiceEvent

inductive InvoiceState where
  | opened
  | held
  | settled
  | canceled
deriving DecidableEq, Repr

def InvoiceState.asStr : InvoiceState → String
  | .opened => "open"
  | .held => "held"
  | .settled => "settled"
  | .canceled => "canceled"

/-- Columns of the `invoices` table that a constraint can name. -/
inductive InvoiceColumn where
  | id
  | paymentHash
  | externalId
deriving DecidableEq, Repr

inductive InvoiceError where
  | invalidAmount
  | notFound (paymentHash : PaymentHash)
  | invalidStateTransition (source : InvoiceState) (attempted : String)
  | duplicateExternalId (detail : String)
  | invalidExternalId (externalId : String)
  | create (e : CreateError InvoiceColumn)
  | modify (e : ModifyError)
  | find (e : FindError)
  | sqlx
deriving DecidableEq, Repr

def InvoiceError.ofCreate : CreateError InvoiceColumn → InvoiceError
  | .constraintViolation (some .externalId) value => .duplicateExternalId (value.getD "")
  | e => .create e

/-! ### Construction -/

structure NewInvoice where
  id : InvoiceId
  paymentHash : PaymentHash
  paymentPreimage : Preimage
  walletId : WalletId
  amountMsat : Option MilliSatoshi
  expiryAt : Timestamp
  boltInvoice : BoltInvoice
  externalId : String
  createdAt : Timestamp
deriving DecidableEq, Repr

/-- Expiries outside one minute to one day become four hours. -/
def effectiveExpiry (expirySeconds : UInt32) : ℕ :=
  if btcInvoiceMinSeconds ≤ expirySeconds.toNat ∧ expirySeconds.toNat ≤ btcInvoiceMaxSeconds then
    expirySeconds.toNat
  else btcInvoiceDefaultSeconds

namespace NewInvoice

/-- The validating constructor. `id` is the freshly minted identifier. -/
def tryNew (id : InvoiceId) (paymentHash : PaymentHash) (paymentPreimage : Preimage)
    (walletId : WalletId) (amountMsat : Option MilliSatoshi) (expirySeconds : UInt32)
    (boltInvoice : BoltInvoice) (externalId : String) (now : Timestamp) :
    Except InvoiceError NewInvoice :=
  if amountMsat = some .zero then .error .invalidAmount
  else .ok ⟨id, paymentHash, paymentPreimage, walletId, amountMsat,
    ⟨now.nanos + effectiveExpiry expirySeconds * 10 ^ 9⟩, boltInvoice, externalId, now⟩

theorem tryNew_spec {id : InvoiceId} {paymentHash : PaymentHash} {paymentPreimage : Preimage}
    {walletId : WalletId} {amountMsat : Option MilliSatoshi} {expirySeconds : UInt32}
    {boltInvoice : BoltInvoice} {externalId : String} {now : Timestamp} {n : NewInvoice}
    (h : tryNew id paymentHash paymentPreimage walletId amountMsat expirySeconds boltInvoice
      externalId now = .ok n) :
    n.paymentHash = paymentHash ∧ n.paymentPreimage = paymentPreimage := by
  unfold tryNew at h
  split_ifs at h
  cases h
  exact ⟨rfl, rfl⟩

def stateStr (_ : NewInvoice) : String := InvoiceState.opened.asStr

/-- The event a new invoice starts its log with. -/
def createdEvent (n : NewInvoice) : InvoiceEvent :=
  .created n.paymentHash n.paymentPreimage n.walletId n.amountMsat n.expiryAt n.boltInvoice
    n.externalId n.createdAt

def intoEvents (n : NewInvoice) : EntityEvents InvoiceId InvoiceEvent :=
  .init n.id [n.createdEvent]

end NewInvoice

/-! ### The hydrated aggregate -/

structure Invoice where
  id : InvoiceId
  paymentHash : PaymentHash
  paymentPreimage : Preimage
  walletId : WalletId
  amountMsat : Option MilliSatoshi
  expiryAt : Timestamp
  boltInvoice : BoltInvoice
  externalId : String
  state : InvoiceState
  createdAt : Timestamp
  heldAmountMsat : Option MilliSatoshi
  canceledReason : Option CancelReason
  events : EntityEvents InvoiceId InvoiceEvent
deriving DecidableEq, Repr

namespace Invoice

def stateStr (i : Invoice) : String := i.state.asStr

/-- `Open → Held` on LND's `Accepted`. -/
def markHeld (i : Invoice) (htlcAmountMsat : MilliSatoshi) (heldAt : Timestamp) :
    Except InvoiceError (Idempotent × Invoice) :=
  if i.events.iterAll.any InvoiceEvent.isHtlcHeld then .ok (.alreadyApplied, i)
  else if i.state ≠ .opened then .error (.invalidStateTransition i.state "mark_held")
  else .ok (.executed,
    { i with
      events := i.events.push (.htlcHeld heldAt htlcAmountMsat)
      state := .held
      heldAmountMsat := some htlcAmountMsat })

/-- `Held → Settled`. -/
def settle (i : Invoice) (settledAt : Timestamp) : Except InvoiceError (Idempotent × Invoice) :=
  if i.events.iterAll.any InvoiceEvent.isSettled then .ok (.alreadyApplied, i)
  else if i.state ≠ .held then .error (.invalidStateTransition i.state "settle")
  else .ok (.executed, { i with events := i.events.push (.settled settledAt), state := .settled })

/-- `Open → Settled` by an intraledger transfer. -/
def settleIntraledger (i : Invoice) (settledAt : Timestamp) :
    Except InvoiceError (Idempotent × Invoice) :=
  if i.events.iterAll.any InvoiceEvent.isSettledIntraledger then .ok (.alreadyApplied, i)
  else if i.state ≠ .opened then .error (.invalidStateTransition i.state "settle_intraledger")
  else .ok (.executed,
    { i with events := i.events.push (.settledIntraledger settledAt), state := .settled })

/-- `(Open | Held) → Canceled`. -/
def cancel (i : Invoice) (reason : CancelReason) (canceledAt : Timestamp) :
    Except InvoiceError (Idempotent × Invoice) :=
  if i.events.iterAll.any InvoiceEvent.isCanceled then .ok (.alreadyApplied, i)
  else if i.state ≠ .opened ∧ i.state ≠ .held then
    .error (.invalidStateTransition i.state "cancel")
  else .ok (.executed,
    { i with
      events := i.events.push (.canceled canceledAt reason)
      state := .canceled
      canceledReason := some reason })

end Invoice

/-! ### Hydration -/

structure InvoiceBuilder where
  paymentHash : Option PaymentHash := none
  paymentPreimage : Option Preimage := none
  walletId : Option WalletId := none
  amountMsat : Option (Option MilliSatoshi) := none
  expiryAt : Option Timestamp := none
  boltInvoice : Option BoltInvoice := none
  externalId : Option String := none
  state : Option InvoiceState := none
  createdAt : Option Timestamp := none
  heldAmountMsat : Option (Option MilliSatoshi) := none
  canceledReason : Option (Option CancelReason) := none
deriving DecidableEq, Repr

namespace InvoiceBuilder

def apply (b : InvoiceBuilder) : InvoiceEvent → InvoiceBuilder
  | .created paymentHash paymentPreimage walletId amountMsat expiryAt boltInvoice externalId
      createdAt =>
      { b with
        paymentHash := some paymentHash
        paymentPreimage := some paymentPreimage
        walletId := some walletId
        amountMsat := some amountMsat
        expiryAt := some expiryAt
        boltInvoice := some boltInvoice
        externalId := some externalId
        createdAt := some createdAt }
  | .htlcHeld _ htlcAmountMsat =>
      { b with state := some .held, heldAmountMsat := some (some htlcAmountMsat) }
  | .settled _ | .settledIntraledger _ => { b with state := some .settled }
  | .canceled _ reason =>
      { b with state := some .canceled, canceledReason := some (some reason) }

/-- The first missing field without a default is the error, in declaration order. -/
def build (b : InvoiceBuilder) (events : EntityEvents InvoiceId InvoiceEvent) :
    Except FindError Invoice := do
  let paymentHash ← need "payment_hash" b.paymentHash
  let paymentPreimage ← need "payment_preimage" b.paymentPreimage
  let walletId ← need "wallet_id" b.walletId
  let amountMsat ← need "amount_msat" b.amountMsat
  let expiryAt ← need "expiry_at" b.expiryAt
  let boltInvoice ← need "bolt_invoice" b.boltInvoice
  let externalId ← need "external_id" b.externalId
  let createdAt ← need "created_at" b.createdAt
  return { id := events.id, paymentHash, paymentPreimage, walletId, amountMsat, expiryAt
           boltInvoice, externalId, createdAt, events
           state := b.state.getD .opened
           heldAmountMsat := b.heldAmountMsat.getD none
           canceledReason := b.canceledReason.getD none }
where
  need {α : Type} (field : String) : Option α → Except FindError α
    | some a => .ok a
    | none => .error (.hydration field)

end InvoiceBuilder

/-- Replay an event log into the aggregate. -/
def Invoice.tryFromEvents (events : EntityEvents InvoiceId InvoiceEvent) :
    Except FindError Invoice :=
  (events.iterAll.foldl InvoiceBuilder.apply {}).build events

end LightningGateway.InvoiceAggregate
