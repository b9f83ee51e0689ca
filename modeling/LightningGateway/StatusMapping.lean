import LightningGateway.InvoiceAggregate
import LightningGateway.OutboxRows
import LightningGateway.GatewayEffects

/-!
# Invoice statuses on the wire

What a client of `lnInvoicePaymentStatus` sees of an invoice: three statuses, the
last two of which end its stream. They are derived from the aggregate when the
stream starts and from outbox rows afterwards; an emitter suppresses repetitions.
-/
namespace LightningGateway.StatusMapping
open Primitives InvoiceAggregate OutboxRows GatewayEffects

inductive InvoicePaymentStatus where
  | expired
  | paid
  | pending
deriving DecidableEq, Repr

structure LnInvoicePaymentStatusPayload where
  errors : List String
  paymentHash : Option PaymentHash
  paymentPreimage : Option String
  paymentRequest : Option String
  status : Option InvoicePaymentStatus
deriving DecidableEq, Repr

def isTerminal : InvoicePaymentStatus → Bool
  | .paid | .expired => true
  | .pending => false

/-! ### Requests -/

/-- The inputs of the root fields: two of them take an invoice text. -/
inductive StatusInput where
  | byPaymentRequest (paymentRequest : String)
  | byHash (paymentHash : PaymentHash)
deriving DecidableEq, Repr

/-- Parsing alone does not enforce expiry. -/
def paymentHashFromRequest (crates : Crates) (paymentRequest : String) :
    Except String PaymentHash :=
  match crates.bolt11 paymentRequest with
  | .ok invoice => .ok invoice.paymentHash
  | .error e => .error ("invalid lightning invoice: " ++ e)

def StatusInput.hashResult (crates : Crates) : StatusInput → Except String PaymentHash
  | .byPaymentRequest paymentRequest => paymentHashFromRequest crates paymentRequest
  | .byHash paymentHash => .ok paymentHash

/-! ### Mapping -/

/-- The status of the stored aggregate. -/
def initialStatus (stateAndExpiry : Option (InvoiceState × Timestamp)) (now : Timestamp) :
    InvoicePaymentStatus :=
  match stateAndExpiry with
  | none => .expired
  | some (.settled, _) => .paid
  | some (.canceled, _) => .expired
  | some (.held, _) => .pending
  | some (.opened, expiryAt) => if expiryAt.nanos ≤ now.nanos then .expired else .pending

/-- The status a row announces; rows about outgoing payments share the reference and
announce none. -/
def statusFromEvent : GatewayDomainEvent → Option InvoicePaymentStatus
  | .lightningHtlcHeld => some .pending
  | .lightningInvoiceSettled => some .paid
  | .lightningIntraledgerTransferCompleted => some .paid
  | .lightningInvoiceCanceled => some .expired
  | .lightningPaymentInitiated | .lightningPaymentCompleted | .lightningPaymentFailed
  | .lightningPaymentReversed => none

/-- Only `PAID` carries the preimage and the request. -/
def buildPayload (status : InvoicePaymentStatus) (paymentHash : PaymentHash)
    (invoice : Option Invoice) : LnInvoicePaymentStatusPayload :=
  match status, invoice with
  | .paid, some inv =>
      ⟨[], some paymentHash, some inv.paymentPreimage.toHex, some inv.boltInvoice.text,
        some status⟩
  | _, _ => ⟨[], some paymentHash, none, none, some status⟩

def errorPayload (message : String) : LnInvoicePaymentStatusPayload :=
  ⟨[message], none, none, none, none⟩

@[simp] theorem buildPayload_status (status : InvoicePaymentStatus) (h : PaymentHash)
    (invoice : Option Invoice) : (buildPayload status h invoice).status = some status := by
  cases status <;> cases invoice <;> rfl

theorem buildPayload_preimage {status : InvoicePaymentStatus} {h : PaymentHash}
    {invoice : Option Invoice} (hp : (buildPayload status h invoice).paymentPreimage ≠ none) :
    status = .paid ∧ ∃ inv, invoice = some inv := by
  cases status with
  | paid =>
      cases invoice with
      | none => exact absurd rfl hp
      | some inv => exact ⟨rfl, inv, rfl⟩
  | expired | pending => exact absurd rfl hp

@[simp] theorem errorPayload_status (message : String) : (errorPayload message).status = none := rfl

/-! ### Repetitions -/

structure StatusEmitter where
  last : Option InvoicePaymentStatus
deriving DecidableEq, Repr

namespace StatusEmitter

def default : StatusEmitter := ⟨none⟩

/-- The status when it differs from the last one, and the emitter afterwards. -/
def next (e : StatusEmitter) (status : InvoicePaymentStatus) :
    Option InvoicePaymentStatus × StatusEmitter :=
  if e.last = some status then (none, e) else (some status, ⟨some status⟩)

/-- What an emitter lets through of a sequence of statuses. -/
def feed (e : StatusEmitter) : List InvoicePaymentStatus → List InvoicePaymentStatus
  | [] => []
  | status :: rest => (e.next status).1.toList ++ (e.next status).2.feed rest

variable {e : StatusEmitter} {status : InvoicePaymentStatus}

/-- Whether it was let through or not, a status is the last one afterwards. -/
theorem next_snd (e : StatusEmitter) (status : InvoicePaymentStatus) :
    (e.next status).2 = ⟨some status⟩ := by
  unfold next
  split_ifs with h
  · cases e
    exact congrArg StatusEmitter.mk h
  · rfl

theorem next_same (h : e.last = some status) : (e.next status).1 = none := by
  simp only [next, h, if_true]

theorem next_new (h : e.last ≠ some status) : (e.next status).1 = some status := by
  simp only [next, h, if_false]

theorem next_fst {s : InvoicePaymentStatus} (h : (e.next status).1 = some s) :
    s = status ∧ e.last ≠ some status := by
  unfold next at h
  split_ifs at h with hl
  cases h
  exact ⟨rfl, hl⟩

/-- The emitter at the end of a sequence. -/
def after (e : StatusEmitter) (l : List InvoicePaymentStatus) : StatusEmitter :=
  ⟨l.getLast?.or e.last⟩

theorem feed_append (e : StatusEmitter) (l l' : List InvoicePaymentStatus) :
    e.feed (l ++ l') = e.feed l ++ (e.after l).feed l' := by
  induction l generalizing e with
  | nil =>
      have hafter : e.after [] = e := rfl
      rw [hafter]
      rfl
  | cons status rest ih =>
      have hafter : (e.next status).2.after rest = e.after (status :: rest) := by
        rw [next_snd]
        cases rest with
        | nil => rfl
        | cons s rest =>
            simp only [after, List.getLast?_cons_cons]
            cases hl : (s :: rest).getLast? with
            | none => simp at hl
            | some x => rfl
      rw [List.cons_append, feed, feed, ih, hafter, List.append_assoc]

/-- Repetitions of the last status are suppressed. -/
theorem feed_repeated {l : List InvoicePaymentStatus} (h : ∀ s ∈ l, e.last = some s) :
    e.feed l = [] := by
  induction l generalizing e with
  | nil => rfl
  | cons status rest ih =>
      have hs : e.last = some status := h status List.mem_cons_self
      have hrest : (e.next status).2.feed rest = [] := by
        apply ih
        intro s hmem
        rw [next_snd, ← hs]
        exact h s (List.mem_cons_of_mem _ hmem)
      rw [feed, next_same hs, hrest]
      rfl

end StatusEmitter

end LightningGateway.StatusMapping
