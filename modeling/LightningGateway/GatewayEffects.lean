import LightningGateway.TaskPools
import LightningGateway.GatewayStore

/-!
# The world of the gateway

The operations a use case can perform, the world they act on and how the world
answers. The world holds the database, LND, Symphony's accepted requests and
the list of committed transactions; that list is a history nothing reads.

The interpretation is permissive. A clock may show anything, a peer may reply
anything, a database call may fail before or after it took effect. What a
result needs to assume about them is stated as a discipline of its own.
-/
namespace LightningGateway.GatewayEffects
open Primitives EventTables EffectPrograms PaymentAggregate InvoiceAggregate OutboxRows
open LndWire SymphonyWire GatewayStore

/-! ### Libraries -/

/-- A parsed BOLT11 invoice. The amount field counts tenths of a millisatoshi,
which bounds every amount it can express. -/
structure Bolt11Invoice where
  paymentHash : PaymentHash
  /-- The explicit payee, else the key recovered from the signature. -/
  payeePubKey : Pubkey
  amountMilliSatoshis : Option UInt64
  /-- Nanoseconds since the epoch. -/
  expiresAt : ℤ
  bounded : ∀ a ∈ amountMilliSatoshis, a.toNat ≤ (2 ^ 64 - 1) / 10

/-- What the gateway takes from libraries: the BOLT11 parser and SHA-256. -/
structure Crates where
  bolt11 : String → Except String Bolt11Invoice
  sha256 : Preimage → PaymentHash

/-! ### Requests -/

structure SendPaymentRequest where
  callerAuth : CallerAuth
  walletId : WalletId
  paymentRequest : String
  memo : Option String
deriving DecidableEq, Repr

structure NewInvoiceRequest where
  callerAuth : CallerAuth
  walletId : WalletId
  amountMsat : MilliSatoshi
  expirySeconds : UInt32
  memo : Option String
  externalId : Option String
deriving DecidableEq, Repr

/-! ### Operations -/

/-- Calls to LND. A payment stream is opened by one call and read by another, so
LND can act in between. -/
inductive LndOp where
  | sendPaymentV2 (request : WireSendRequest)
  | sendPaymentMessage (request : WireSendRequest)
  | trackPaymentV2 (paymentHash : PaymentHash)
  | trackPaymentMessage (paymentHash : PaymentHash)
  | addHoldInvoice (request : WireAddHoldRequest)
  | settleInvoice (preimage : Preimage)
  | cancelInvoice (paymentHash : PaymentHash)
  | lookupInvoice (paymentHash : PaymentHash)
deriving DecidableEq, Repr

namespace LndOp

abbrev Ans : LndOp → Type
  | .sendPaymentV2 _ | .trackPaymentV2 _ => Except Status Unit
  | .sendPaymentMessage _ | .trackPaymentMessage _ => Except Status (Option WirePayment)
  | .addHoldInvoice _ => Except Status String
  | .settleInvoice _ | .cancelInvoice _ => Except Status Unit
  | .lookupInvoice _ => Except Status WireInvoice

end LndOp

inductive Op where
  | now
  | newUuid
  | generatePreimage
  | checkOwnership (caller : CallerAuth) (walletId : WalletId)
  | findPayment (paymentHash : PaymentHash)
  | findInvoice (paymentHash : PaymentHash)
  | maybeFindInvoice (paymentHash : PaymentHash)
  | listStrandedInitiated (olderThan : Timestamp) (limit : ℤ)
  | tx (b : Transaction)
  | authorizeSpend (request : WireAuthorizeRequest)
  | lnd (o : LndOp)
  /-- Whether a deadline passes before the call it guards answers. -/
  | deadlineElapsed
  | spawnListenerFor (paymentHash : PaymentHash)
  /-- A panic ends the task; there is no answer to continue with. -/
  | panic (message : String)

namespace Op

abbrev Ans : Op → Type
  | .now => Timestamp
  | .newUuid => Uuid
  | .generatePreimage => Preimage
  | .checkOwnership .. => Except String Unit
  | .findPayment _ => Except FindError Payment
  | .findInvoice _ => Except FindError Invoice
  | .maybeFindInvoice _ => Except FindError (Option Invoice)
  | .listStrandedInitiated .. => Except PaymentError (List PaymentHash)
  | .tx b => Except AppError b.Result
  | .authorizeSpend _ => Except Status WireAuthorizeResponse
  | .lnd o => o.Ans
  | .deadlineElapsed => Bool
  | .spawnListenerFor _ => Unit
  | .panic _ => Empty

end Op

def gatewaySignature : Signature where
  Op := Op
  Ans := Op.Ans

abbrev App := Fallible gatewaySignature AppError

/-! ### The world -/

/-- LND's view of an outgoing payment. -/
inductive LndPayment where
  | notReceived
  | inFlight
  | succeeded
  | failed
deriving DecidableEq, Repr

structure Lnd where
  payments : PaymentHash → LndPayment
  /-- A send request is on its way to LND. -/
  transit : PaymentHash → Bool
  invoices : PaymentHash → Option LndInvoiceState

structure World where
  db : Db
  lnd : Lnd
  /-- The requests Symphony has acted on, latest last. -/
  authorized : List WireAuthorizeRequest
  /-- The committed transactions, latest last. -/
  commits : List Transaction

def Lnd.empty : Lnd := ⟨fun _ => .notReceived, fun _ => false, fun _ => none⟩

/-- Nothing has happened yet. -/
def World.empty : World := ⟨.empty, .empty, [], []⟩

namespace Lnd

def setPayment (l : Lnd) (h : PaymentHash) (p : LndPayment) : Lnd :=
  { l with payments := Function.update l.payments h p }

def setTransit (l : Lnd) (h : PaymentHash) (b : Bool) : Lnd :=
  { l with transit := Function.update l.transit h b }

def setInvoice (l : Lnd) (h : PaymentHash) (i : LndInvoiceState) : Lnd :=
  { l with invoices := Function.update l.invoices h (some i) }

@[simp] theorem setPayment_payments (l : Lnd) (h k : PaymentHash) (p : LndPayment) :
    (l.setPayment h p).payments k = if k = h then p else l.payments k := by
  simp [setPayment, Function.update_apply]
@[simp] theorem setPayment_transit (l : Lnd) (h : PaymentHash) (p : LndPayment) :
    (l.setPayment h p).transit = l.transit := rfl
@[simp] theorem setPayment_invoices (l : Lnd) (h : PaymentHash) (p : LndPayment) :
    (l.setPayment h p).invoices = l.invoices := rfl
@[simp] theorem setTransit_payments (l : Lnd) (h : PaymentHash) (b : Bool) :
    (l.setTransit h b).payments = l.payments := rfl
@[simp] theorem setTransit_transit (l : Lnd) (h k : PaymentHash) (b : Bool) :
    (l.setTransit h b).transit k = if k = h then b else l.transit k := by
  simp [setTransit, Function.update_apply]
@[simp] theorem setTransit_invoices (l : Lnd) (h : PaymentHash) (b : Bool) :
    (l.setTransit h b).invoices = l.invoices := rfl
@[simp] theorem setInvoice_payments (l : Lnd) (h : PaymentHash) (i : LndInvoiceState) :
    (l.setInvoice h i).payments = l.payments := rfl
@[simp] theorem setInvoice_transit (l : Lnd) (h : PaymentHash) (i : LndInvoiceState) :
    (l.setInvoice h i).transit = l.transit := rfl
@[simp] theorem setInvoice_invoices (l : Lnd) (h k : PaymentHash) (i : LndInvoiceState) :
    (l.setInvoice h i).invoices k = if k = h then some i else l.invoices k := by
  simp [setInvoice, Function.update_apply]

end Lnd

/-! ### Answers -/

/-- How the world answers one call. -/
inductive Choice where
  | clock (t : Timestamp)
  | uuid (u : Uuid)
  | preimage (p : Preimage)
  | ownership (r : Except String Unit)
  /-- The database serves the call, its clock showing `t`. -/
  | served (t : Timestamp)
  /-- The database fails before anything is committed. -/
  | dbFault
  /-- The commit takes effect and its acknowledgement is lost. -/
  | ackLost (t : Timestamp)
  /-- Symphony answers `r`; `posted` says whether it has acted on the request. -/
  | symphony (posted : Bool) (r : Except Status WireAuthorizeResponse)
  /-- LND answers `r`; `delivered` says whether the request leaves the gateway
  and, for invoice calls, takes effect. -/
  | lndUnit (delivered : Bool) (r : Except Status Unit)
  | lndPayment (r : Except Status (Option WirePayment))
  | lndInvoice (r : Except Status WireInvoice)
  | lndAdded (delivered : Bool) (r : Except Status String)
  | elapsed (b : Bool)
  | done

/-- A transaction that commits enters the history. -/
def World.commit (w : World) (b : Transaction) (t : Timestamp) :
    Except AppError b.Result × World :=
  match b.run t w.db with
  | .ok (a, db) => (.ok a, { w with db, commits := w.commits ++ [b] })
  | .error e => (.error e, w)

/-- LND holds an invoice only while it is open or accepted. -/
def Lnd.cancel (l : Lnd) (h : PaymentHash) : Lnd :=
  match l.invoices h with
  | some .opened | some .accepted => l.setInvoice h .canceled
  | _ => l

def Lnd.settle (l : Lnd) (h : PaymentHash) : Lnd :=
  match l.invoices h with
  | some .accepted => l.setInvoice h .settled
  | _ => l

def Lnd.add (l : Lnd) (h : PaymentHash) : Lnd :=
  match l.invoices h with
  | none => l.setInvoice h .opened
  | _ => l

def execLnd (crates : Crates) :
    (o : LndOp) → Choice → World → Option (o.Ans × World)
  | .sendPaymentV2 request, .lndUnit delivered r, w =>
      -- LND reads the invoice text itself and pays the hash it finds there.
      match crates.bolt11 request.paymentRequest, delivered with
      | .ok invoice, true => some (r, { w with lnd := w.lnd.setTransit invoice.paymentHash true })
      | _, _ => some (r, w)
  | .sendPaymentMessage _, .lndPayment r, w => some (r, w)
  | .trackPaymentV2 _, .lndUnit _ r, w => some (r, w)
  | .trackPaymentMessage _, .lndPayment r, w => some (r, w)
  | .addHoldInvoice request, .lndAdded delivered r, w =>
      some (r, if delivered then { w with lnd := w.lnd.add request.hash } else w)
  | .settleInvoice preimage, .lndUnit delivered r, w =>
      some (r, if delivered then { w with lnd := w.lnd.settle (crates.sha256 preimage) } else w)
  | .cancelInvoice paymentHash, .lndUnit delivered r, w =>
      some (r, if delivered then { w with lnd := w.lnd.cancel paymentHash } else w)
  | .lookupInvoice _, .lndInvoice r, w => some (r, w)
  | _, _, _ => none

def exec (crates : Crates) : (o : Op) → Choice → World → Option (o.Ans × World)
  | .now, .clock t, w => some (t, w)
  | .newUuid, .uuid u, w => some (u, w)
  | .generatePreimage, .preimage p, w => some (p, w)
  | .checkOwnership .., .ownership r, w => some (r, w)
  | .findPayment h, .served _, w => some (Payments.findByPaymentHash w.db h, w)
  | .findPayment _, .dbFault, w => some (.error .sqlx, w)
  | .findInvoice h, .served _, w => some (Invoices.findByPaymentHash w.db h, w)
  | .findInvoice _, .dbFault, w => some (.error .sqlx, w)
  | .maybeFindInvoice h, .served _, w => some (Invoices.maybeFindByPaymentHash w.db h, w)
  | .maybeFindInvoice _, .dbFault, w => some (.error .sqlx, w)
  | .listStrandedInitiated olderThan limit, .served _, w =>
      some (Payments.listStrandedInitiated w.db olderThan limit, w)
  | .listStrandedInitiated .., .dbFault, w => some (.error .sqlx, w)
  | .tx b, .served t, w => some (w.commit b t)
  | .tx b, .ackLost t, w => some (.error b.faultError, (w.commit b t).2)
  | .tx b, .dbFault, w => some (.error b.faultError, w)
  | .authorizeSpend request, .symphony posted r, w =>
      some (r, if posted then { w with authorized := w.authorized ++ [request] } else w)
  | .lnd o, c, w => execLnd crates o c w
  | .deadlineElapsed, .elapsed b, w => some (b, w)
  | .spawnListenerFor _, .done, w => some ((), w)
  | _, _, _ => none

/-! ### Steps the peers take on their own -/

inductive Env where
  /-- A send request in transit reaches LND. -/
  | receive (h : PaymentHash)
  /-- A send request in transit is lost. -/
  | lose (h : PaymentHash)
  /-- LND resolves a payment in flight. -/
  | resolve (h : PaymentHash) (succeeded : Bool)
  /-- An HTLC pays an open hold invoice. -/
  | acceptHtlc (h : PaymentHash)
  /-- LND cancels a hold invoice, as on expiry. -/
  | expire (h : PaymentHash)
  /-- A transaction that rolls back keeps the sequence number it drew. -/
  | drawSequence
deriving DecidableEq, Repr

def env : Env → World → Option World
  | .receive h, w =>
      if w.lnd.transit h then
        some { w with lnd := match w.lnd.payments h with
          | .notReceived => (w.lnd.setTransit h false).setPayment h .inFlight
          | _ => w.lnd.setTransit h false }
      else none
  | .lose h, w =>
      if w.lnd.transit h then some { w with lnd := w.lnd.setTransit h false } else none
  | .resolve h succeeded, w =>
      if w.lnd.payments h = .inFlight then
        some { w with lnd := w.lnd.setPayment h (if succeeded then .succeeded else .failed) }
      else none
  | .acceptHtlc h, w =>
      if w.lnd.invoices h = some .opened then
        some { w with lnd := w.lnd.setInvoice h .accepted }
      else none
  | .expire h, w => some { w with lnd := w.lnd.cancel h }
  | .drawSequence, w =>
      some { w with db := { w.db with nextSequence := w.db.nextSequence + 1 } }

end LightningGateway.GatewayEffects
