import LightningGateway.PaymentFlows
import LightningGateway.InvoiceFlows

/-!
# The gateway as a pool of tasks

Every request, every update of a subscription and every tick of a sweep is a
task. Tasks share the database, LND and Symphony, and interleave at their calls.
-/
namespace LightningGateway.GatewayMachine
open Primitives EffectPrograms TaskPools PaymentAggregate InvoiceAggregate
open LndWire SymphonyWire GatewayStore GatewayEffects PaymentFlows InvoiceFlows

inductive Entry where
  | sendPayment (request : SendPaymentRequest)
  | handlePaymentUpdate (update : PaymentUpdate)
  | sweepOrphanHolds (idle : ℕ) (limit : ℤ)
  | createInvoice (request : NewInvoiceRequest)
  | handleInvoiceUpdate (update : InvoiceUpdate)
  | settleHoldInvoice (paymentHash : PaymentHash)
  | reconcileHeldInvoice (paymentHash : PaymentHash)
deriving DecidableEq, Repr

/-- What a task returns. -/
inductive Outcome where
  | payment (r : Except AppError Payment)
  | invoice (r : Except AppError Invoice)
  | count (r : Except AppError ℕ)
  | unit (r : Except AppError Unit)

/-- The fixed parameters of a deployment. -/
structure Deployment where
  crates : Crates
  mode : Mode

def program (g : Deployment) : Entry → Program gatewaySignature Outcome
  | .sendPayment request => do return .payment (← (sendPayment g.crates request).run)
  | .handlePaymentUpdate update => do return .unit (← (handlePaymentUpdate update).run)
  | .sweepOrphanHolds idle limit => do return .count (← (sweepOrphanHolds idle limit).run)
  | .createInvoice request => do return .invoice (← (createInvoice g.crates g.mode request).run)
  | .handleInvoiceUpdate update => do return .unit (← (handleInvoiceUpdate update).run)
  | .settleHoldInvoice h => do return .unit (← (settleHoldInvoice h).run)
  | .reconcileHeldInvoice h => do return .unit (← (reconcileHeldInvoice h).run)

def gateway (g : Deployment) : Machine gatewaySignature where
  World := World
  Choice := Choice
  exec := exec g.crates
  Env := Env
  env := env
  Entry := Entry
  Result := Outcome
  program := program g

/-- The gateway before its first task. -/
def boot (g : Deployment) : Pool (gateway g) := ⟨World.empty, []⟩

/-! ### A sample deployment

An invoice over 250000 satoshis, valid for one minute, with its preimage, and a
wallet that pays it. Runs that exhibit a behaviour use these values. -/

namespace Sample

def preimage : Preimage :=
  ⟨[0, 1, 2, 3, 4, 5, 6, 7, 8, 9, 10, 11, 12, 13, 14, 15, 16, 17, 18, 19, 20, 21, 22, 23, 24, 25,
    26, 27, 28, 29, 30, 31], rfl⟩

/-- The SHA-256 digest of `preimage`. -/
def hash : PaymentHash :=
  ⟨[99, 13, 205, 41, 102, 196, 51, 102, 145, 18, 84, 72, 187, 178, 91, 79, 244, 18, 164, 156, 115,
    45, 178, 200, 171, 193, 184, 88, 27, 215, 16, 221], rfl⟩

def payee : Pubkey :=
  ⟨[3, 231, 21, 106, 227, 59, 10, 32, 141, 7, 68, 25, 145, 99, 23, 126, 144, 158, 128, 23, 110, 85,
    217, 122, 47, 34, 30, 222, 15, 147, 77, 217, 173], rfl⟩

def text : String :=
  "lnbc2500u1pvjluezsp5zyg3zyg3zyg3zyg3zyg3zyg3zyg3zyg3zyg3zyg3zyg3zyg3zygspp5vvxu62txcsekdygj23y" ++
  "thvjmfl6p9fyuwvkm9j9tcxu9sx7hzrwsdq5xysxxatsyp3k7enxv4jsxqzpu9qrsgqag3khqxq9q8cmvr7sppeht4ekvz4" ++
  "mtl4uc4hwgyqsqcy80cl620380jj3j22wu3wntv2f5fy0rnc0fd5hxcqjy9z07gxmgng5kkhamsqacevwk"

/-- What `text` decodes to. -/
def invoice : Bolt11Invoice := ⟨hash, payee, some 250000000, 1496314718000000000, by simp⟩

def crates : Crates where
  bolt11 s := if s = text then .ok invoice else .error "not the sample invoice"
  sha256 p := if p = preimage then hash else ⟨p.bytes, p.size⟩

theorem bolt11_text : crates.bolt11 text = .ok invoice := by
  simp only [crates, if_true]

def deployment : Deployment := ⟨crates, .live⟩

def payerWallet : WalletId := ⟨⟨List.replicate 16 1, rfl⟩⟩
def payeeWallet : WalletId := ⟨⟨List.replicate 16 2, rfl⟩⟩
def caller : CallerAuth := ⟨"jwt", "subject"⟩

/-- Two seconds after the invoice was issued. -/
def noon : Timestamp := ⟨1496314660000000000⟩

def payRequest : SendPaymentRequest := ⟨caller, payerWallet, text, none⟩
def invoiceRequest : NewInvoiceRequest := ⟨caller, payeeWallet, ⟨250000000⟩, 60, none, none⟩

def paymentId : Uuid := ⟨List.replicate 16 3, rfl⟩
def invoiceId : Uuid := ⟨List.replicate 16 4, rfl⟩

/-- Symphony's approval of a request. -/
def approval : Except Status WireAuthorizeResponse := .ok ⟨true, "hold", 0, ""⟩

/-- The calls of task `i` from the start of a Lightning payment to LND's first
message, every one of them served. -/
def sendUpToMessage (i : ℕ) : List (Event (gateway deployment)) :=
  [.spawn (.sendPayment payRequest), .step i (.clock noon), .step i (.ownership (.ok ())),
    .step i (.clock noon), .step i (.served noon), .step i (.uuid paymentId),
    .step i (.clock noon), .step i (.served noon), .step i (.symphony true approval),
    .step i (.lndUnit true (.ok ()))]

/-- LND's message about a payment with the given status number. -/
def message (status : ℤ) (preimageText : String) : Except Status (Option WirePayment) :=
  .ok (some ⟨hash.toHex, preimageText, status, 0, [], 0⟩)

/-- The update that reports the payment settled. -/
def settledUpdate : PaymentUpdate := ⟨hash, .succeeded, some preimage, .zero, [], none⟩

/-- The calls of task `i` that issue the sample invoice. -/
def issueInvoice (i : ℕ) : List (Event (gateway deployment)) :=
  [.spawn (.createInvoice invoiceRequest), .step i (.clock noon), .step i (.ownership (.ok ())),
    .step i (.preimage preimage), .step i (.lndAdded true (.ok text)), .step i (.uuid invoiceId),
    .step i (.served noon), .step i .done]

/-- An update of the sample invoice. -/
def invoiceUpdate (state : LndInvoiceState) (amtPaidMsat : UInt64) : InvoiceUpdate :=
  ⟨hash, state, ⟨amtPaidMsat⟩, none⟩

end Sample

end LightningGateway.GatewayMachine
