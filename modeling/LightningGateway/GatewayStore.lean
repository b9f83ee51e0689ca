import LightningGateway.PaymentAggregate
import LightningGateway.InvoiceAggregate
import LightningGateway.SymphonyWire

/-!
# The database and its transactions

Two event-sourced tables and the outbox. A transaction is a state transformer
that may fail; a failed one leaves no trace, because its state is dropped. The
transactions of the application are a closed family, so each of them is a value
that can be recorded, and `run` says what it does.
-/
namespace LightningGateway.GatewayStore
open Primitives EventTables PaymentAggregate InvoiceAggregate OutboxRows LndWire SymphonyWire

inductive AppError where
  | invoice (e : InvoiceError)
  | payment (e : PaymentError)
  | lnd (e : LndError)
  | outbox
  | symphony (e : SymphonyError)
  | db
  | invalidBoltInvoice (detail : String)
  | walletOwnership (detail : String)
deriving DecidableEq, Repr

/-! ### Tables -/

structure PaymentCols where
  walletId : WalletId
  amountMsat : ℤ
  maxFeeMsat : ℤ
  createdAt : Timestamp
deriving DecidableEq, Repr

structure InvoiceCols where
  paymentPreimage : Preimage
  boltInvoice : BoltInvoice
  walletId : WalletId
  amountMsat : Option ℤ
  expiryAt : Timestamp
  externalId : String
  createdAt : Timestamp
deriving DecidableEq, Repr

abbrev PaymentRow := Row PaymentId PaymentHash PaymentCols PaymentEvent
abbrev InvoiceRow := Row InvoiceId PaymentHash InvoiceCols InvoiceEvent

structure Db where
  payments : Table PaymentId PaymentHash PaymentCols PaymentEvent
  invoices : Table InvoiceId PaymentHash InvoiceCols InvoiceEvent
  outbox : List OutboxEvent
  nextSequence : ℤ

def Db.empty : Db := ⟨.empty, .empty, [], 1⟩

/-- A database transaction; an error rolls everything back. -/
abbrev Tx := StateT Db (Except AppError)

theorem tx_bind {α β : Type} {x : Tx α} {f : α → Tx β} {db db' : Db} {b : β} :
    (x >>= f) db = .ok (b, db') ↔
      ∃ a db₁, x db = .ok (a, db₁) ∧ f a db₁ = .ok (b, db') := by
  change (Except.bind (x db) fun p => f p.1 p.2) = _ ↔ _
  cases hx : x db with
  | error e => simp [Except.bind]
  | ok p =>
      obtain ⟨a, db₁⟩ := p
      simp [Except.bind]

theorem tx_bind_error {α β : Type} {x : Tx α} {f : α → Tx β} {db : Db} {e : AppError} :
    (x >>= f) db = .error e ↔
      x db = .error e ∨ ∃ a db₁, x db = .ok (a, db₁) ∧ f a db₁ = .error e := by
  change (Except.bind (x db) fun p => f p.1 p.2) = _ ↔ _
  cases hx : x db with
  | error e' => simp [Except.bind]
  | ok p =>
      obtain ⟨a, db₁⟩ := p
      simp [Except.bind]

theorem tx_pure {α : Type} {a b : α} {db db' : Db} :
    (pure a : Tx α) db = .ok (b, db') ↔ b = a ∧ db' = db := by
  change Except.ok (a, db) = _ ↔ _
  simp [eq_comm]

/-- A pure result inside a transaction. -/
def Tx.ofExcept {ε α : Type} (convert : ε → AppError) : Except ε α → Tx α
  | .ok a => pure a
  | .error e => throw (convert e)

theorem tx_ofExcept {ε α : Type} {convert : ε → AppError} {r : Except ε α} {a : α} {db db' : Db} :
    Tx.ofExcept convert r db = .ok (a, db') ↔ r = .ok a ∧ db' = db := by
  cases r with
  | ok b =>
      change (pure b : Tx α) db = _ ↔ _
      rw [tx_pure]
      simp [eq_comm]
  | error e =>
      change Except.error (convert e) = _ ↔ _
      simp

/-! ### The payments repository -/

/-- Text of a `BYTEA` value in a constraint message. -/
def byteaText (h : PaymentHash) : String := "\\x" ++ h.toHex

namespace Payments

def createInOp (n : NewPayment) (now : Timestamp) : Tx Payment := fun db =>
  match tryI64 n.amountMsat.msat, tryI64 n.maxFeeMsat.msat with
  | some amountMsat, some maxFeeMsat =>
      match db.payments.insert ⟨n.id, n.paymentHash, ⟨n.walletId, amountMsat, maxFeeMsat, now⟩,
          n.stateStr, n.intoEvents.iterAll⟩ with
      | .ok payments =>
          match Payment.tryFromEvents n.intoEvents.markPersisted with
          | .ok payment => .ok (payment, { db with payments })
          | .error _ => .error (.payment (.create (.hydration "payment")))
      | .error .id => .error (.payment (.ofCreate
          (.constraintViolation (some .id) (some n.id.toText))))
      | .error .key => .error (.payment (.ofCreate
          (.constraintViolation (some .paymentHash) (some (byteaText n.paymentHash)))))
  | _, _ => .error (.payment (.ofCreate .sqlx))

/-- Writes nothing when there is no new event. -/
def updateInOp (p : Payment) : Tx Payment := fun db =>
  if p.events.fresh = [] then .ok (p, db)
  else
    match db.payments.append p.id p.events.persisted.length p.stateStr p.events.fresh with
    | .ok payments => .ok ({ p with events := p.events.markPersisted }, { db with payments })
    | .error .stale => .error (.payment (.modify .concurrentModification))
    | .error .missing => .error (.payment (.modify .sqlx))

def hydrate (r : PaymentRow) : Except FindError Payment :=
  Payment.tryFromEvents ⟨r.id, r.events, []⟩

def findByPaymentHash (db : Db) (h : PaymentHash) : Except FindError Payment :=
  match db.payments.lookup h with
  | none => .error .notFound
  | some r => hydrate r

/-- Hashes of the payments that are still `initiated` and older than the cutoff. -/
def listStrandedInitiated (db : Db) (olderThan : Timestamp) (limit : ℤ) :
    Except PaymentError (List PaymentHash) :=
  if limit < 0 then .error .sqlx
  else .ok (((db.payments.rows.filter fun r =>
    r.state = "initiated" ∧ r.cols.createdAt.nanos < olderThan.nanos).take limit.toNat).map Row.key)

end Payments

/-! ### The invoices repository -/

namespace Invoices

/-- An optional amount into its nullable `BIGINT` column. -/
def encodeAmount : Option MilliSatoshi → Option (Option ℤ)
  | none => some none
  | some m => (tryI64 m.msat).map some

def createInOp (n : NewInvoice) (now : Timestamp) : Tx Invoice := fun db =>
  match encodeAmount n.amountMsat with
  | none => .error (.invoice (.ofCreate .sqlx))
  | some amountMsat =>
      match db.invoices.insert ⟨n.id, n.paymentHash, ⟨n.paymentPreimage, n.boltInvoice, n.walletId,
          amountMsat, n.expiryAt, n.externalId, now⟩, n.stateStr, n.intoEvents.iterAll⟩ with
      | .ok invoices =>
          if db.invoices.rows.any fun r =>
              r.cols.walletId = n.walletId ∧ r.cols.externalId = n.externalId then
            .error (.invoice (.ofCreate (.constraintViolation (some .externalId)
              (some (n.walletId.toText ++ ", " ++ n.externalId)))))
          else
            match Invoice.tryFromEvents n.intoEvents.markPersisted with
            | .ok invoice => .ok (invoice, { db with invoices })
            | .error _ => .error (.invoice (.create (.hydration "invoice")))
      | .error .id => .error (.invoice (.ofCreate
          (.constraintViolation (some .id) (some n.id.toText))))
      | .error .key => .error (.invoice (.ofCreate
          (.constraintViolation (some .paymentHash) (some (byteaText n.paymentHash)))))

/-- Writes nothing when there is no new event. -/
def updateInOp (i : Invoice) : Tx Invoice := fun db =>
  if i.events.fresh = [] then .ok (i, db)
  else
    match db.invoices.append i.id i.events.persisted.length i.stateStr i.events.fresh with
    | .ok invoices => .ok ({ i with events := i.events.markPersisted }, { db with invoices })
    | .error .stale => .error (.invoice (.modify .concurrentModification))
    | .error .missing => .error (.invoice (.modify .sqlx))

def hydrate (r : InvoiceRow) : Except FindError Invoice :=
  Invoice.tryFromEvents ⟨r.id, r.events, []⟩

def findByPaymentHash (db : Db) (h : PaymentHash) : Except FindError Invoice :=
  match db.invoices.lookup h with
  | none => .error .notFound
  | some r => hydrate r

def maybeFindByPaymentHash (db : Db) (h : PaymentHash) : Except FindError (Option Invoice) :=
  match findByPaymentHash db h with
  | .ok i => .ok (some i)
  | .error .notFound => .ok none
  | .error e => .error e

def findById (db : Db) (id : InvoiceId) : Except FindError Invoice :=
  match db.invoices.rows.find? (fun r => r.id = id) with
  | none => .error .notFound
  | some r => hydrate r

/-- The invoices that are `open` or `held` in `db`. Each is loaded by a read of its
own, which `load` answers; an invoice that fails to load is skipped. -/
def listOpenInvoices (db : Db) (load : InvoiceId → Except FindError Invoice) : List Invoice :=
  ((db.invoices.rows.filter fun r => r.state = "open" ∨ r.state = "held").map Row.id).filterMap
    fun id => (load id).toOption

/-- Hashes of the invoices that are `held`. -/
def listHeld (db : Db) (limit : ℤ) : Except InvoiceError (List PaymentHash) :=
  if limit < 0 then .error .sqlx
  else .ok (((db.invoices.rows.filter fun r => r.state = "held").take limit.toNat).map Row.key)

end Invoices

/-- Insert one outbox row; its sequence comes from the table's counter. -/
def publishInTx (e : NewOutboxEvent) : Tx ℤ := fun db =>
  .ok (db.nextSequence,
    { db with
      outbox := db.outbox ++ [e.row db.nextSequence]
      nextSequence := db.nextSequence + 1 })

/-! ### The transactions of the application -/

inductive Transaction where
  /-- A new payment and its `Initiated` row. -/
  | intent (newPayment : NewPayment) (initiated : NewOutboxEvent)
  /-- A payment that LND reports in flight; no outbox row. -/
  | pending (payment : Payment)
  /-- A payment with its terminal row. -/
  | payment (payment : Payment) (outcome : NewOutboxEvent)
  /-- An intraledger transfer: payment and recipient invoice at once. -/
  | transfer (newPayment : NewPayment) (preimage : Preimage) (now : Timestamp)
      (recipientInvoice : Invoice) (completed : NewOutboxEvent)
  | createInvoice (newInvoice : NewInvoice)
  /-- An invoice with the row of its transition. -/
  | invoice (invoice : Invoice) (transition : NewOutboxEvent)

namespace Transaction

abbrev Result : Transaction → Type
  | .intent .. | .pending _ | .payment .. | .transfer .. => Payment
  | .createInvoice _ | .invoice .. => Invoice

/-- The error a broken connection surfaces as. -/
def faultError : Transaction → AppError
  | .intent .. | .payment .. | .transfer .. | .invoice .. => .db
  | .pending _ => .payment (.modify .sqlx)
  | .createInvoice _ => .invoice (.create .sqlx)

/-- What a transaction does when the database's clock shows `clock`. -/
def run (clock : Timestamp) : (b : Transaction) → Tx b.Result
  | .intent newPayment initiated => do
      let created ← Payments.createInOp newPayment clock
      let _ ← publishInTx initiated
      pure created
  | .pending p => Payments.updateInOp p
  | .payment p outcome => do
      let written ← Payments.updateInOp p
      let _ ← publishInTx outcome
      pure written
  | .transfer newPayment preimage now recipientInvoice completed => do
      let created ← Payments.createInOp newPayment clock
      let settled ← Tx.ofExcept AppError.payment (created.settle preimage .zero [] now)
      let written ← Payments.updateInOp settled.2
      let recipient ← Tx.ofExcept AppError.invoice (recipientInvoice.settleIntraledger now)
      let _ ← Invoices.updateInOp recipient.2
      let _ ← publishInTx completed
      pure written
  | .createInvoice newInvoice => Invoices.createInOp newInvoice clock
  | .invoice i transition => do
      let written ← Invoices.updateInOp i
      let _ ← publishInTx transition
      pure written

end Transaction

end LightningGateway.GatewayStore
