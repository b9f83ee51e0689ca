import LightningGateway.Primitives
import LightningGateway.EventTables

/-!
# The outgoing payment aggregate

`Payment` is event-sourced: its state is a projection of its event log, and a
command either pushes one event or reports why it does not. A command returns
the aggregate it leaves behind together with its outcome; on an error the
aggregate is unchanged.
-/
namespace LightningGateway.PaymentAggregate
open Primitives EventTables

inductive FailureReason where
  | timeout
  | noRoute
  | insufficientBalance
  | incorrectPaymentDetails
  | other (detail : String)
deriving DecidableEq, Repr

def FailureReason.asStr : FailureReason → String
  | .timeout => "Timeout"
  | .noRoute => "NoRoute"
  | .insufficientBalance => "InsufficientBalance"
  | .incorrectPaymentDetails => "IncorrectPaymentDetails"
  | .other _ => "Other"

/-- Tag and detail, as the outbox metadata shows it. -/
def FailureReason.detailStr : FailureReason → String
  | .other s => "Other: " ++ s
  | r => r.asStr

/-- One hop of the route LND used. -/
structure Hop where
  pubKey : Pubkey
  channelId : UInt64
  feeMsat : MilliSatoshi
  amtMsat : MilliSatoshi
  expiry : UInt32
deriving DecidableEq, Repr

inductive PaymentEvent where
  | initiated (paymentHash : PaymentHash) (walletId : WalletId) (amountMsat : MilliSatoshi)
      (maxFeeMsat : MilliSatoshi) (boltInvoice : BoltInvoice) (destination : String)
      (initiatedAt : Timestamp)
  | pending (sentAt : Timestamp)
  | completed (settledAt : Timestamp) (paymentPreimage : Preimage) (feesPaidMsat : MilliSatoshi)
      (routeHops : List Hop)
  | failed (failedAt : Timestamp) (failureReason : FailureReason)
  | reversed (reversedAt : Timestamp) (reason : String)
deriving DecidableEq, Repr

namespace PaymentEvent

def isPending : PaymentEvent → Bool
  | pending _ => true
  | _ => false

def isCompleted : PaymentEvent → Bool
  | completed .. => true
  | _ => false

def isFailed : PaymentEvent → Bool
  | failed .. => true
  | _ => false

def isReversed : PaymentEvent → Bool
  | reversed .. => true
  | _ => false

end PaymentEvent

inductive PaymentState where
  | initiated
  | pending
  | completed
  | failed
  | reversed
deriving DecidableEq, Repr

def PaymentState.asStr : PaymentState → String
  | .initiated => "initiated"
  | .pending => "pending"
  | .completed => "completed"
  | .failed => "failed"
  | .reversed => "reversed"

/-- Columns of the `payments` table that a constraint can name. -/
inductive PaymentColumn where
  | id
  | paymentHash
deriving DecidableEq, Repr

inductive PaymentError where
  | invalidAmount
  | amountRequired
  | amountOverspecified
  | amountMismatch
  | invalidMaxFee
  | emptyBoltInvoice
  | invalidBoltInvoice (detail : String)
  | expiredBoltInvoice
  | alreadyPaid (paymentHash : String)
  | selfPayment
  | recipientInvoiceCanceled
  | recipientInvoiceInProgress
  | recipientInvoiceExpired
  | invalidStateTransition (source : PaymentState) (attempted : String)
  | corruptEventLog
  | create (e : CreateError PaymentColumn)
  | modify (e : ModifyError)
  | find (e : FindError)
  | sqlx
deriving DecidableEq, Repr

/-- A violated `payment_hash` constraint means the hash is already being paid. -/
def PaymentError.ofCreate : CreateError PaymentColumn → PaymentError
  | .constraintViolation (some .paymentHash) value => .alreadyPaid (value.getD "")
  | e => .create e

/-! ### Construction -/

/-- What a BOLT11 string said, amounts already rounded up to whole satoshis. -/
structure DecodedInvoice where
  paymentHash : PaymentHash
  destination : String
  amountMsat : Option MilliSatoshi
  boltInvoice : BoltInvoice
deriving DecidableEq, Repr

structure NewPayment where
  id : PaymentId
  paymentHash : PaymentHash
  walletId : WalletId
  amountMsat : MilliSatoshi
  maxFeeMsat : MilliSatoshi
  boltInvoice : BoltInvoice
  destination : String
  initiatedAt : Timestamp
deriving DecidableEq, Repr

namespace NewPayment

/-- The validating constructor of the Lightning path. `id` is the freshly minted
identifier. -/
def tryNew (id : PaymentId) (decoded : DecodedInvoice) (walletId : WalletId)
    (requestedAmountMsat : Option MilliSatoshi) (maxFeeMsat : MilliSatoshi)
    (initiatedAt : Timestamp) : Except PaymentError NewPayment :=
  match decoded.amountMsat, requestedAmountMsat with
  | some _, some _ => .error .amountOverspecified
  | none, none => .error .amountRequired
  | some amountMsat, none => build amountMsat
  | none, some amountMsat => build amountMsat
where
  build (amountMsat : MilliSatoshi) : Except PaymentError NewPayment :=
    if amountMsat.msat = 0 then .error .invalidAmount
    else if maxFeeMsat.msat = 0 then .error .invalidMaxFee
    else if decoded.boltInvoice.text.isEmpty then .error .emptyBoltInvoice
    else .ok ⟨id, decoded.paymentHash, walletId, amountMsat, maxFeeMsat, decoded.boltInvoice,
      decoded.destination, initiatedAt⟩

/-- The amount of an intraledger transfer: the one the recipient's invoice
commits to wins, and a sender-carried amount that differs is refused. -/
def intraledgerAmount (decoded : DecodedInvoice) (invoiceAmountMsat : Option MilliSatoshi) :
    Except PaymentError MilliSatoshi :=
  match invoiceAmountMsat, decoded.amountMsat with
  | some invoiceAmount, some senderAmount =>
      if senderAmount ≠ invoiceAmount then .error .amountMismatch else .ok invoiceAmount
  | some invoiceAmount, none => .ok invoiceAmount
  | none, some senderAmount => .ok senderAmount
  | none, none => .error .amountRequired

/-- The constructor of the intraledger path: the fee is zero. -/
def tryNewIntraledger (id : PaymentId) (decoded : DecodedInvoice)
    (invoiceAmountMsat : Option MilliSatoshi) (walletId : WalletId) (initiatedAt : Timestamp) :
    Except PaymentError NewPayment := do
  let amountMsat ← intraledgerAmount decoded invoiceAmountMsat
  if amountMsat.msat = 0 then .error .invalidAmount
  else if decoded.boltInvoice.text.isEmpty then .error .emptyBoltInvoice
  else .ok ⟨id, decoded.paymentHash, walletId, amountMsat, .zero, decoded.boltInvoice,
    decoded.destination, initiatedAt⟩

def stateStr (_ : NewPayment) : String := PaymentState.initiated.asStr

/-- The event a new payment starts its log with. -/
def initiatedEvent (n : NewPayment) : PaymentEvent :=
  .initiated n.paymentHash n.walletId n.amountMsat n.maxFeeMsat n.boltInvoice n.destination
    n.initiatedAt

def intoEvents (n : NewPayment) : EntityEvents PaymentId PaymentEvent :=
  .init n.id [n.initiatedEvent]

theorem tryNew_spec {id : PaymentId} {decoded : DecodedInvoice} {walletId : WalletId}
    {maxFeeMsat : MilliSatoshi} {at_ : Timestamp} {n : NewPayment}
    (h : tryNew id decoded walletId none maxFeeMsat at_ = .ok n) :
    decoded.amountMsat = some n.amountMsat ∧ n.paymentHash = decoded.paymentHash ∧
      n.walletId = walletId ∧ n.maxFeeMsat = maxFeeMsat ∧ maxFeeMsat.msat ≠ 0 ∧
      n.boltInvoice = decoded.boltInvoice ∧ n.destination = decoded.destination := by
  unfold tryNew at h
  split at h
  case h_1 => cases h
  case h_2 => cases h
  case h_3 ha _ =>
    unfold tryNew.build at h
    split_ifs at h with h1 h2 h3
    cases h
    exact ⟨ha, rfl, rfl, rfl, h2, rfl, rfl⟩
  case h_4 hn => cases hn

/-- Whether the payment exists already is not for the constructor to say. -/
theorem tryNew_ne_alreadyPaid {id : PaymentId} {decoded : DecodedInvoice} {walletId : WalletId}
    {requested : Option MilliSatoshi} {maxFeeMsat : MilliSatoshi} {at_ : Timestamp} {x : String} :
    tryNew id decoded walletId requested maxFeeMsat at_ ≠ .error (.alreadyPaid x) := by
  intro h
  unfold tryNew at h
  split at h
  case h_1 | h_2 => cases h
  case h_3 | h_4 =>
    unfold tryNew.build at h
    split_ifs at h <;> cases h

theorem tryNewIntraledger_spec {id : PaymentId} {decoded : DecodedInvoice}
    {invoiceAmount : Option MilliSatoshi} {walletId : WalletId} {at_ : Timestamp} {n : NewPayment}
    (h : tryNewIntraledger id decoded invoiceAmount walletId at_ = .ok n) :
    n.paymentHash = decoded.paymentHash ∧ n.walletId = walletId ∧ n.maxFeeMsat = .zero ∧
      n.id = id := by
  unfold tryNewIntraledger at h
  cases ha : intraledgerAmount decoded invoiceAmount with
  | error e =>
      rw [ha] at h
      cases h
  | ok amount =>
      rw [ha] at h
      change (if _ then _ else _) = _ at h
      split_ifs at h
      cases h
      exact ⟨rfl, rfl, rfl, rfl⟩

end NewPayment

/-! ### The hydrated aggregate -/

structure Payment where
  id : PaymentId
  paymentHash : PaymentHash
  walletId : WalletId
  amountMsat : MilliSatoshi
  maxFeeMsat : MilliSatoshi
  state : PaymentState
  feesPaidMsat : Option MilliSatoshi
  paymentPreimage : Option Preimage
  initiatedAt : Timestamp
  settledAt : Option Timestamp
  events : EntityEvents PaymentId PaymentEvent
deriving DecidableEq, Repr

namespace Payment

def stateStr (p : Payment) : String := p.state.asStr

/-- `Initiated → Pending`. The terminal check comes before the idempotency
guard, so a terminal payment never silently absorbs another in-flight report. -/
def markPending (p : Payment) (sentAt : Timestamp) :
    Except PaymentError (Idempotent × Payment) :=
  match p.state with
  | .initiated =>
      .ok (.executed, { p with events := p.events.push (.pending sentAt), state := .pending })
  | .pending =>
      if p.events.iterAll.any PaymentEvent.isPending then .ok (.alreadyApplied, p)
      else .ok (.executed, { p with events := p.events.push (.pending sentAt), state := .pending })
  | .completed | .failed | .reversed =>
      .error (.invalidStateTransition p.state "mark_pending")

/-- `(Initiated | Pending) → Completed`. -/
def settle (p : Payment) (paymentPreimage : Preimage) (feesPaidMsat : MilliSatoshi)
    (routeHops : List Hop) (settledAt : Timestamp) : Except PaymentError (Idempotent × Payment) :=
  if p.events.iterAll.any PaymentEvent.isCompleted then .ok (.alreadyApplied, p)
  else if p.state ≠ .initiated ∧ p.state ≠ .pending then
    .error (.invalidStateTransition p.state "settle")
  else .ok (.executed,
    { p with
      events := p.events.push (.completed settledAt paymentPreimage feesPaidMsat routeHops)
      state := .completed
      feesPaidMsat := some feesPaidMsat
      paymentPreimage := some paymentPreimage
      settledAt := some settledAt })

/-- `(Initiated | Pending) → Failed`. -/
def fail (p : Payment) (failureReason : FailureReason) (failedAt : Timestamp) :
    Except PaymentError (Idempotent × Payment) :=
  if p.events.iterAll.any PaymentEvent.isFailed then .ok (.alreadyApplied, p)
  else if p.state ≠ .initiated ∧ p.state ≠ .pending then
    .error (.invalidStateTransition p.state "fail")
  else .ok (.executed,
    { p with events := p.events.push (.failed failedAt failureReason), state := .failed })

/-- `Completed → Reversed`; no current producer. -/
def reverse (p : Payment) (reason : String) (reversedAt : Timestamp) :
    Except PaymentError (Idempotent × Payment) :=
  if p.events.iterAll.any PaymentEvent.isReversed then .ok (.alreadyApplied, p)
  else if p.state ≠ .completed then .error (.invalidStateTransition p.state "reverse")
  else .ok (.executed,
    { p with events := p.events.push (.reversed reversedAt reason), state := .reversed })

variable {p : Payment}

theorem settle_ok {paymentPreimage : Preimage} {feesPaidMsat : MilliSatoshi}
    {routeHops : List Hop} {settledAt : Timestamp}
    (hany : ¬p.events.iterAll.any PaymentEvent.isCompleted = true)
    (hst : ¬(p.state ≠ .initiated ∧ p.state ≠ .pending)) :
    ∃ p', p.settle paymentPreimage feesPaidMsat routeHops settledAt = .ok (.executed, p') := by
  unfold settle
  rw [if_neg hany, if_neg hst]
  exact ⟨_, rfl⟩

theorem settle_eq {p' : Payment} {paymentPreimage : Preimage} {feesPaidMsat : MilliSatoshi}
    {routeHops : List Hop} {settledAt : Timestamp}
    (h : p.settle paymentPreimage feesPaidMsat routeHops settledAt = .ok (.executed, p')) :
    p' = { p with
      events := p.events.push (.completed settledAt paymentPreimage feesPaidMsat routeHops)
      state := .completed
      feesPaidMsat := some feesPaidMsat
      paymentPreimage := some paymentPreimage
      settledAt := some settledAt } := by
  unfold settle at h
  split_ifs at h
  · cases h
  · cases h
    rfl

theorem fail_ok {failureReason : FailureReason} {failedAt : Timestamp}
    (hany : ¬p.events.iterAll.any PaymentEvent.isFailed = true)
    (hst : ¬(p.state ≠ .initiated ∧ p.state ≠ .pending)) :
    ∃ p', p.fail failureReason failedAt = .ok (.executed, p') := by
  unfold fail
  rw [if_neg hany, if_neg hst]
  exact ⟨_, rfl⟩

theorem fail_eq {p' : Payment} {failureReason : FailureReason} {failedAt : Timestamp}
    (h : p.fail failureReason failedAt = .ok (.executed, p')) :
    p' = { p with
      events := p.events.push (.failed failedAt failureReason)
      state := .failed } := by
  unfold fail at h
  split_ifs at h
  · cases h
  · cases h
    rfl

end Payment

/-! ### Hydration -/

/-- The fields collected so far while an event log is replayed. -/
structure PaymentBuilder where
  paymentHash : Option PaymentHash := none
  walletId : Option WalletId := none
  amountMsat : Option MilliSatoshi := none
  maxFeeMsat : Option MilliSatoshi := none
  state : Option PaymentState := none
  feesPaidMsat : Option (Option MilliSatoshi) := none
  paymentPreimage : Option (Option Preimage) := none
  initiatedAt : Option Timestamp := none
  settledAt : Option (Option Timestamp) := none
deriving DecidableEq, Repr

namespace PaymentBuilder

def apply (b : PaymentBuilder) : PaymentEvent → PaymentBuilder
  | .initiated paymentHash walletId amountMsat maxFeeMsat _ _ initiatedAt =>
      { b with
        paymentHash := some paymentHash
        walletId := some walletId
        amountMsat := some amountMsat
        maxFeeMsat := some maxFeeMsat
        initiatedAt := some initiatedAt }
  | .pending _ => { b with state := some .pending }
  | .completed settledAt paymentPreimage feesPaidMsat _ =>
      { b with
        state := some .completed
        settledAt := some (some settledAt)
        paymentPreimage := some (some paymentPreimage)
        feesPaidMsat := some (some feesPaidMsat) }
  | .failed _ _ => { b with state := some .failed }
  | .reversed _ _ => { b with state := some .reversed }

/-- `derive_builder`'s `build`: the first missing field without a default is the
error, in declaration order. -/
def build (b : PaymentBuilder) (events : EntityEvents PaymentId PaymentEvent) :
    Except FindError Payment := do
  let paymentHash ← need "payment_hash" b.paymentHash
  let walletId ← need "wallet_id" b.walletId
  let amountMsat ← need "amount_msat" b.amountMsat
  let maxFeeMsat ← need "max_fee_msat" b.maxFeeMsat
  let initiatedAt ← need "initiated_at" b.initiatedAt
  return { id := events.id, paymentHash, walletId, amountMsat, maxFeeMsat, initiatedAt, events
           state := b.state.getD .initiated
           feesPaidMsat := b.feesPaidMsat.getD none
           paymentPreimage := b.paymentPreimage.getD none
           settledAt := b.settledAt.getD none }
where
  need {α : Type} (field : String) : Option α → Except FindError α
    | some a => .ok a
    | none => .error (.hydration field)

end PaymentBuilder

/-- Replay an event log into the aggregate. -/
def Payment.tryFromEvents (events : EntityEvents PaymentId PaymentEvent) :
    Except FindError Payment :=
  (events.iterAll.foldl PaymentBuilder.apply {}).build events

end LightningGateway.PaymentAggregate
