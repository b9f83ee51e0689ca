import LightningGateway.PeerCalls

/-!
# Use cases of the paying side

`send_payment` with both of its paths, the `TrackPayments` handler and the
orphan-hold sweep. The two commit helpers are the only writers of terminal
payment rows.
-/
namespace LightningGateway.PaymentFlows
open Primitives EventTables EffectPrograms PaymentAggregate InvoiceAggregate OutboxRows
open LndWire SymphonyWire GatewayStore GatewayEffects PeerCalls

/-! ### Fee policy -/

def feeCapBasisPoints : UInt64 := 50
def feeCapMinSat : UInt64 := 10

/-- `u64::saturating_mul`. -/
def saturatingMul (a b : UInt64) : UInt64 :=
  if a.toNat * b.toNat < 2 ^ 64 then a * b else 18446744073709551615

/-- The largest routing fee allowed for a payment. -/
def LnFees.maxFor (amountMsat : MilliSatoshi) : MilliSatoshi :=
  let amountSat := amountMsat.wholeSat
  let scaled := saturatingMul amountSat feeCapBasisPoints
  let quotient := scaled / 10000
  let pctSat := if scaled % 10000 > 5000 then quotient + 1 else quotient
  let maxFeeSat := max pctSat feeCapMinSat
  ⟨maxFeeSat * 1000⟩

/-- The worst case a hold has to cover, in satoshis. -/
def holdSat (amountMsat maxFeeMsat : MilliSatoshi) : UInt64 :=
  (MilliSatoshi.mk (amountMsat.msat + maxFeeMsat.msat)).roundUpToSat.wholeSat

/-! ### Outbox rows of the paying side -/

def buildInitiatedOutbox (paymentHash : PaymentHash) (walletId : WalletId) (amountSat : ℤ)
    (maxFeeMsat : MilliSatoshi) (destination : String) (boltInvoice : BoltInvoice)
    (utcNow : Timestamp) : NewOutboxEvent :=
  .forLightningPaymentInitiated paymentHash.toHex paymentHash.toHex amountSat utcNow (.obj
    [("max_fee_msat", .u64 maxFeeMsat.msat),
     ("destination", .str destination),
     ("wallet_id", .str walletId.toText),
     ("bolt_invoice", .str boltInvoice.text)])

def hopsToJson (routeHops : List Hop) : Json :=
  .arr (routeHops.map fun h => .obj
    [("pub_key", .str h.pubKey.toHex),
     ("channel_id", .u64 h.channelId),
     ("fee_msat", .u64 h.feeMsat.msat),
     ("amt_msat", .u64 h.amtMsat.msat)])

def completedOutbox (paymentHash : PaymentHash) (amountSat : ℤ) (preimage : Preimage)
    (feesPaidMsat : MilliSatoshi) (routeHops : List Hop) (utcNow : Timestamp) : NewOutboxEvent :=
  .forLightningPaymentCompleted paymentHash.toHex paymentHash.toHex amountSat utcNow (.obj
    [("payment_preimage", .str preimage.toHex),
     ("fees_paid_msat", .u64 feesPaidMsat.msat),
     ("route_hops", hopsToJson routeHops)])

def failedOutbox (paymentHash : PaymentHash) (amountSat : ℤ) (failureReason : FailureReason)
    (utcNow : Timestamp) : NewOutboxEvent :=
  .forLightningPaymentFailed paymentHash.toHex paymentHash.toHex amountSat utcNow (.obj
    [("failure_reason", .str failureReason.detailStr)])

def transferOutbox (paymentHash : PaymentHash) (amountSat : ℤ)
    (senderWalletId recipientWalletId : WalletId) (amountMsat : MilliSatoshi)
    (utcNow : Timestamp) : NewOutboxEvent :=
  .forLightningIntraledgerTransferCompleted paymentHash.toHex paymentHash.toHex amountSat utcNow
    (.obj
      [("intraledger", .bool true),
       ("sender_wallet_id", .str senderWalletId.toText),
       ("recipient_wallet_id", .str recipientWalletId.toText),
       ("amount_msat", .u64 amountMsat.msat)])

/-! ### Terminal commits -/

/-- Settle the payment and publish `Completed` in one transaction; a duplicate
publishes nothing. -/
def commitCompleted (payment : Payment) (paymentHash : PaymentHash) (amountSat : ℤ)
    (preimage : Preimage) (feesPaidMsat : MilliSatoshi) (routeHops : List Hop) (at_ : Timestamp) :
    App Payment :=
  match payment.settle preimage feesPaidMsat routeHops at_ with
  | .error e => throw (.payment e)
  | .ok (.alreadyApplied, payment) => pure payment
  | .ok (.executed, payment) => do
      let utcNow ← now
      transact (.payment payment
        (completedOutbox paymentHash amountSat preimage feesPaidMsat routeHops utcNow))

/-- Fail the payment and publish `Failed` in one transaction; a duplicate
publishes nothing. -/
def commitFailed (payment : Payment) (paymentHash : PaymentHash) (amountSat : ℤ)
    (failureReason : FailureReason) (at_ : Timestamp) : App Payment :=
  match payment.fail failureReason at_ with
  | .error e => throw (.payment e)
  | .ok (.alreadyApplied, payment) => pure payment
  | .ok (.executed, payment) => do
      let utcNow ← now
      transact (.payment payment (failedOutbox paymentHash amountSat failureReason utcNow))

/-! ### Transitions inside the request -/

/-- `Initiated → Pending`. When another writer was faster, its result is reloaded
and returned. -/
def transitionToPending (payment : Payment) (paymentHash : PaymentHash) (at_ : Timestamp) :
    App Payment :=
  match payment.markPending at_ with
  | .error e => throw (.payment e)
  | .ok (.alreadyApplied, payment) => pure payment
  | .ok (.executed, payment) => do
      let updated ← Fallible.attempt (transact (.pending payment))
      match updated with
      | .ok payment => pure payment
      | .error (.payment (.modify .concurrentModification)) => do
          let reloaded ← findPayment paymentHash
          Fallible.ofExcept (fun e => .payment (.find e)) reloaded
      | .error e => throw e

/-- Record the `Pending` step, then settle. -/
def settleInline (payment : Payment) (paymentHash : PaymentHash) (amountSat : ℤ)
    (preimage : Preimage) (feesPaidMsat : MilliSatoshi) (routeHops : List Hop) (at_ : Timestamp) :
    App Payment :=
  match payment.markPending at_ with
  | .error e => throw (.payment e)
  | .ok (_, payment) =>
      commitCompleted payment paymentHash amountSat preimage feesPaidMsat routeHops at_

/-- Record the `Pending` step, then fail. -/
def failInline (payment : Payment) (paymentHash : PaymentHash) (amountSat : ℤ)
    (failureReason : FailureReason) (at_ : Timestamp) : App Payment :=
  match payment.markPending at_ with
  | .error e => throw (.payment e)
  | .ok (_, payment) => commitFailed payment paymentHash amountSat failureReason at_

/-! ### Sending over Lightning -/

def hashMismatchReason (expected got : PaymentHash) : FailureReason :=
  .other ("LND payment_hash mismatch: expected " ++ expected.toHex ++ ", got " ++ got.toHex)

def succeededWithoutPreimage : AppError :=
  .lnd (.invalidResponse "Succeeded status but payment_preimage missing/malformed")

/-- Dispatch on LND's answer to the send. -/
def dispatch (payment : Payment) (paymentHash : PaymentHash) (amountSat : ℤ)
    (answer : Except LndError SendPaymentResponse) (at_ : Timestamp) : App Payment :=
  match answer with
  | .error e => failInline payment paymentHash amountSat (lndErrorToFailureReason e) at_
  | .ok resp =>
      if resp.paymentHash ≠ paymentHash then
        failInline payment paymentHash amountSat
          (hashMismatchReason paymentHash resp.paymentHash) at_
      else
        match resp.status, resp.paymentPreimage with
        | .inFlight, _ => transitionToPending payment paymentHash at_
        | .succeeded, none => throw succeededWithoutPreimage
        | .succeeded, some preimage =>
            settleInline payment paymentHash amountSat preimage resp.feesPaidMsat resp.routeHops at_
        | .failed, _ => failInline payment paymentHash amountSat
            (resp.failureReason.getD (.other "LND returned Failed with no reason")) at_

/-- The hold request of the Lightning path. -/
def holdRequest (paymentHash : PaymentHash) (walletId : WalletId)
    (amountMsat maxFeeMsat : MilliSatoshi) : SymphonyAuthorizeRequest :=
  { correlationId := paymentHash.toHex
    account := ⟨.walletLiability, walletId.toText⟩
    satAmount := holdSat amountMsat maxFeeMsat
    idempotencyKey := paymentHash.toHex
    gatewayMetadata := .obj [] }

/-- Everything after the intent is durable: authorize, send, dispatch. -/
def authorizeAndSend (request : SendPaymentRequest) (paymentHash : PaymentHash)
    (boltInvoice : BoltInvoice) (amountMsat maxFeeMsat : MilliSatoshi) (payment : Payment)
    (at_ : Timestamp) : App Payment := do
  let amountSat := asI64 amountMsat.wholeSat
  let authorization ←
    authorizeSpend (holdRequest paymentHash request.walletId amountMsat maxFeeMsat)
  match authorization with
  | .error e => failInline payment paymentHash amountSat (authorizeErrorReason e) at_
  | .ok resp =>
      if resp.status = .declined then
        failInline payment paymentHash amountSat (declineFailureReason resp.declineReason) at_
      else do
        let answer ← LndClient.sendPayment ⟨boltInvoice, maxFeeMsat, 60⟩
        dispatch payment paymentHash amountSat answer at_

/-- The Lightning path: persist the intent, then authorize and send. -/
def sendOverLightning (request : SendPaymentRequest) (decoded : DecodedInvoice)
    (at_ : Timestamp) : App Payment :=
  match decoded.amountMsat with
  | none => throw (.payment .amountRequired)
  | some amountMsat => do
      let maxFeeMsat := LnFees.maxFor amountMsat
      let id ← newUuid
      let newPayment ← Fallible.ofExcept AppError.payment
        (NewPayment.tryNew id decoded request.walletId none maxFeeMsat at_)
      let utcNow ← now
      let payment ← transact (.intent newPayment
        (buildInitiatedOutbox decoded.paymentHash request.walletId (asI64 amountMsat.wholeSat)
          maxFeeMsat decoded.destination decoded.boltInvoice utcNow))
      authorizeAndSend request decoded.paymentHash decoded.boltInvoice amountMsat maxFeeMsat
        payment at_

/-! ### Intraledger transfers -/

/-- Only an open, unexpired recipient invoice of another wallet can be paid. -/
def recipientGuard (senderWalletId : WalletId) (paymentHash : PaymentHash)
    (recipientInvoice : Invoice) (at_ : Timestamp) : Except PaymentError Unit :=
  if recipientInvoice.walletId = senderWalletId then .error .selfPayment
  else
    match recipientInvoice.state with
    | .opened =>
        if recipientInvoice.expiryAt.nanos ≤ at_.nanos then .error .recipientInvoiceExpired
        else .ok ()
    | .settled => .error (.alreadyPaid paymentHash.toHex)
    | .canceled => .error .recipientInvoiceCanceled
    | .held => .error .recipientInvoiceInProgress

/-- The settle-inline request of the intraledger path. -/
def transferRequest (paymentHash : PaymentHash) (senderWalletId recipientWalletId : WalletId)
    (amountMsat : MilliSatoshi) : SymphonyAuthorizeRequest :=
  { correlationId := paymentHash.toHex
    account := ⟨.walletLiability, senderWalletId.toText⟩
    satAmount := amountMsat.wholeSat
    idempotencyKey := paymentHash.toHex
    gatewayMetadata := .obj
      [("intraledger", .bool true), ("recipient_wallet_id", .str recipientWalletId.toText)] }

/-- Authorize (which posts the journal), cancel at LND, then the local
transaction. -/
def authorizeAndTransfer (request : SendPaymentRequest) (newPayment : NewPayment)
    (paymentHash : PaymentHash) (recipientInvoice : Invoice) (at_ : Timestamp) : App Payment := do
  let authorization ← authorizeSpend (transferRequest paymentHash request.walletId
    recipientInvoice.walletId newPayment.amountMsat)
  match authorization with
  | .error e => throw (.symphony e)
  | .ok resp =>
      if resp.status = .declined then
        throw (.symphony (.declined (resp.declineReason.getD (.other "no reason"))))
      else do
        LndClient.cancelInvoice paymentHash
        let utcNow ← now
        transact (.transfer newPayment recipientInvoice.paymentPreimage at_ recipientInvoice
          (transferOutbox paymentHash (asI64 newPayment.amountMsat.wholeSat) request.walletId
            recipientInvoice.walletId newPayment.amountMsat utcNow))

/-- The intraledger path: every check first, then the money. -/
def sendIntraledgerPayment (request : SendPaymentRequest) (decoded : DecodedInvoice)
    (recipientInvoice : Invoice) (at_ : Timestamp) : App Payment := do
  let paymentHash := decoded.paymentHash
  checkWalletOwnership request.callerAuth request.walletId
  Fallible.ofExcept AppError.payment
    (recipientGuard request.walletId paymentHash recipientInvoice at_)
  let id ← newUuid
  let newPayment ← Fallible.ofExcept AppError.payment
    (NewPayment.tryNewIntraledger id decoded
      (recipientInvoice.amountMsat.map MilliSatoshi.roundUpToSat) request.walletId at_)
  authorizeAndTransfer request newPayment paymentHash recipientInvoice at_

/-- `send_payment`: a local invoice for the hash routes in-ledger. -/
def sendPayment (crates : Crates) (request : SendPaymentRequest) : App Payment := do
  let at_ ← now
  checkWalletOwnership request.callerAuth request.walletId
  let decoded ← decodeBolt11 crates request.paymentRequest
  let recipient ← Fallible.orThrow (fun e => AppError.invoice (.find e))
    (perform (.maybeFindInvoice decoded.paymentHash))
  match recipient with
  | some recipientInvoice => sendIntraledgerPayment request decoded recipientInvoice at_
  | none => sendOverLightning request decoded at_

/-! ### LND's reports -/

/-- Apply one `TrackPayments` update; an unknown hash is ignored. -/
def handlePaymentUpdate (update : PaymentUpdate) : App Unit := do
  let found ← findPayment update.paymentHash
  match found with
  | .error .notFound => pure ()
  | .error e => throw (.payment (.find e))
  | .ok payment => do
      let at_ ← now
      let amountSat := asI64 payment.amountMsat.wholeSat
      match update.status, update.paymentPreimage with
      | .inFlight, _ => pure ()
      | .succeeded, none => throw succeededWithoutPreimage
      | .succeeded, some preimage => do
          let _ ← commitCompleted payment payment.paymentHash amountSat preimage
            update.feesPaidMsat update.routeHops at_
          pure ()
      | .failed, _ => do
          let _ ← commitFailed payment payment.paymentHash amountSat
            (update.failureReason.getD
              (.other "LND TrackPayments emitted Failed with no reason")) at_
          pure ()

/-! ### The orphan-hold sweep -/

/-- Act on LND's answer for a stranded intent. -/
def reconcileLookup (payment : Payment) (paymentHash : PaymentHash)
    (lookup : Except LndError SendPaymentResponse) (at_ : Timestamp) : App Bool :=
  match lookup with
  | .error .paymentNotFound => pure false
  | .error e => throw (.lnd e)
  | .ok resp =>
      match resp.status, resp.paymentPreimage with
      | .inFlight, _ => pure false
      | .succeeded, none => throw (.lnd (.invalidResponse
          "lookup_payment: Succeeded but payment_preimage missing"))
      | .succeeded, some preimage => do
          let _ ← commitCompleted payment paymentHash (asI64 payment.amountMsat.wholeSat) preimage
            resp.feesPaidMsat resp.routeHops at_
          pure true
      | .failed, _ => do
          let _ ← commitFailed payment paymentHash (asI64 payment.amountMsat.wholeSat)
            (resp.failureReason.getD (.other "LND reported Failed with no reason")) at_
          pure true

/-- Reconcile one stranded intent; LND decides, within a deadline. -/
def reconcileOrphanHold (paymentHash : PaymentHash) : App Bool := do
  let found ← findPayment paymentHash
  let payment ← Fallible.ofExcept (fun e => AppError.payment (.find e)) found
  if payment.state ≠ .initiated then pure false
  else do
    let at_ ← now
    -- The lookup only reads, so a deadline that passes during it is a deadline
    -- that passes before it.
    let elapsed ← Fallible.lift (perform .deadlineElapsed)
    if elapsed then pure false
    else do
      let lookup ← LndClient.lookupPayment paymentHash
      reconcileLookup payment paymentHash lookup at_

/-- One intent after the other; an error leaves its intent for the next tick. -/
def sweepStranded : List PaymentHash → ℕ → App ℕ
  | [], reconciled => pure reconciled
  | h :: hs, reconciled => do
      let outcome ← Fallible.attempt (reconcileOrphanHold h)
      match outcome with
      | .ok true => sweepStranded hs (reconciled + 1)
      | .ok false => sweepStranded hs reconciled
      | .error _ => sweepStranded hs reconciled

/-- `chrono::Duration::from_std`, ten minutes when out of range. Nanoseconds. -/
def idleDuration (idle : ℕ) : ℤ :=
  if idle ≤ (2 ^ 63 - 1) * 10 ^ 6 then idle else 10 * 60 * 10 ^ 9

def sweepOrphanHolds (idle : ℕ) (limit : ℤ) : App ℕ := do
  let utcNow ← now
  let stranded ← Fallible.orThrow AppError.payment
    (perform (.listStrandedInitiated ⟨utcNow.nanos - idleDuration idle⟩ limit))
  sweepStranded stranded 0

end LightningGateway.PaymentFlows
