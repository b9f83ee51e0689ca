import LightningGateway.PeerCalls

/-!
# Use cases of the receiving side

`create_invoice`, the per-hash listener's handler with its automatic settle, and
the reconciliation of held invoices. The commit helpers are the only writers of
the settled and canceled rows.
-/
namespace LightningGateway.InvoiceFlows
open Primitives EventTables EffectPrograms PaymentAggregate InvoiceAggregate OutboxRows
open LndWire SymphonyWire GatewayStore GatewayEffects PeerCalls

/-! ### Outbox rows of the receiving side -/

def heldOutbox (paymentHash : PaymentHash) (amtPaidMsat : MilliSatoshi) (walletId : WalletId)
    (utcNow : Timestamp) : NewOutboxEvent :=
  .forLightningHtlcHeld paymentHash.toHex paymentHash.toHex (asI64 amtPaidMsat.wholeSat) utcNow
    (.obj
      [("amt_paid_msat", .u64 amtPaidMsat.msat),
       ("wallet_id", .str walletId.toText)])

def settledOutbox (paymentHash : PaymentHash) (amtPaidMsat heldAmountMsat : MilliSatoshi)
    (walletId : WalletId) (externalId : String) (utcNow : Timestamp) : NewOutboxEvent :=
  .forLightningInvoiceSettled paymentHash.toHex paymentHash.toHex (asI64 amtPaidMsat.wholeSat)
    utcNow (.obj
      [("wallet_id", .str walletId.toText),
       ("amt_paid_msat", .u64 amtPaidMsat.msat),
       ("held_amount_msat", .u64 heldAmountMsat.msat),
       ("external_id", .str externalId)])

/-- An optional amount as JSON. -/
def optionalMsat : Option MilliSatoshi → Json
  | some m => .u64 m.msat
  | none => .null

def canceledOutbox (paymentHash : PaymentHash) (amtPaidMsat : MilliSatoshi)
    (heldAmountMsat : Option MilliSatoshi) (walletId : WalletId) (reason : CancelReason)
    (utcNow : Timestamp) : NewOutboxEvent :=
  .forLightningInvoiceCanceled paymentHash.toHex paymentHash.toHex (asI64 amtPaidMsat.wholeSat)
    utcNow (.obj
      [("reason", .str reason.asStr),
       ("wallet_id", .str walletId.toText),
       ("amt_paid_msat", .u64 amtPaidMsat.msat),
       ("held_amount_msat", optionalMsat heldAmountMsat)])

/-! ### Commits -/

def commitSettle (invoice : Invoice) (paymentHash : PaymentHash) (amtPaidMsat : MilliSatoshi) :
    App Unit := do
  let at_ ← now
  match invoice.settle at_ with
  | .error e => throw (.invoice e)
  | .ok (.alreadyApplied, _) => pure ()
  | .ok (.executed, settled) =>
      match settled.heldAmountMsat with
      | none => do
          let unreachable ← Fallible.lift
            (perform (.panic "settle requires Held; mark_held sets held_amount_msat"))
          nomatch unreachable
      | some heldAmountMsat => do
          let utcNow ← now
          let _ ← transact (.invoice settled (settledOutbox paymentHash amtPaidMsat heldAmountMsat
            invoice.walletId invoice.externalId utcNow))
          pure ()

def commitCancel (invoice : Invoice) (paymentHash : PaymentHash) (reason : CancelReason)
    (amtPaidMsat : MilliSatoshi) : App Unit := do
  let at_ ← now
  match invoice.cancel reason at_ with
  | .error e => throw (.invoice e)
  | .ok (.alreadyApplied, _) => pure ()
  | .ok (.executed, canceled) => do
      let utcNow ← now
      let _ ← transact (.invoice canceled (canceledOutbox paymentHash amtPaidMsat
        canceled.heldAmountMsat invoice.walletId reason utcNow))
      pure ()

def transitionToHeld (invoice : Invoice) (paymentHash : PaymentHash) (amtPaidMsat : MilliSatoshi)
    (at_ : Timestamp) : App Unit :=
  match invoice.markHeld amtPaidMsat at_ with
  | .error e => throw (.invoice e)
  | .ok (.alreadyApplied, _) => pure ()
  | .ok (.executed, held) => do
      let utcNow ← now
      let _ ← transact (.invoice held (heldOutbox paymentHash amtPaidMsat invoice.walletId utcNow))
      pure ()

/-! ### Settling and reconciling held invoices -/

/-- Act on LND's view of an invoice that is `Held` locally. -/
def applyLndState (invoice : Invoice) (paymentHash : PaymentHash) (lnd : InvoiceUpdate) :
    App Unit :=
  match lnd.state with
  | .accepted => do
      LndClient.settleInvoice invoice.paymentPreimage
      commitSettle invoice paymentHash lnd.amtPaidMsat
  | .settled => commitSettle invoice paymentHash lnd.amtPaidMsat
  | .canceled => commitCancel invoice paymentHash .expired lnd.amtPaidMsat
  | .opened => pure ()

/-- Load the invoice, leave it alone unless it is `Held`, ask LND and act. -/
def resolveHeld (paymentHash : PaymentHash) : App Unit := do
  let found ← findInvoice paymentHash
  match found with
  | .error .notFound => pure ()
  | .error e => throw (.invoice (.find e))
  | .ok invoice =>
      if invoice.state ≠ .held then pure ()
      else do
        let lnd ← LndClient.lookupInvoice paymentHash
        applyLndState invoice paymentHash lnd

def settleHoldInvoice (paymentHash : PaymentHash) : App Unit := resolveHeld paymentHash

/-- The sweep's safety net takes the same decisions as the live path. -/
def reconcileHeldInvoice (paymentHash : PaymentHash) : App Unit := resolveHeld paymentHash

/-- One invoice after the other; an error leaves its invoice for the next tick. -/
def reconcileEach : List PaymentHash → App Unit
  | [] => pure ()
  | h :: hs => do
      let _ ← Fallible.attempt (reconcileHeldInvoice h)
      reconcileEach hs

/-- One tick of the reconciliation sweep, which begins with what `list_held` answers. -/
def invoiceReconciliationSweep (held : Except InvoiceError (List PaymentHash)) : App Unit := do
  let held ← Fallible.ofExcept AppError.invoice held
  reconcileEach held

/-! ### The listener's handler -/

/-- Apply one update of a per-hash listener. -/
def handleInvoiceUpdate (update : InvoiceUpdate) : App Unit := do
  let found ← findInvoice update.paymentHash
  match found with
  | .error .notFound => pure ()
  | .error e => throw (.invoice (.find e))
  | .ok invoice => do
      let at_ ← now
      match update.state with
      | .opened => pure ()
      | .accepted => do
          transitionToHeld invoice invoice.paymentHash update.amtPaidMsat at_
          let _ ← Fallible.attempt (settleHoldInvoice invoice.paymentHash)
          pure ()
      | .settled => pure ()
      | .canceled => commitCancel invoice invoice.paymentHash .expired update.amtPaidMsat

/-! ### Creating an invoice -/

inductive Mode where
  | live
  | dryRun
deriving DecidableEq, Repr

/-- `^[a-z0-9_-]{1,100}$`, checked on bytes. -/
def isValidExternalId (s : String) : Bool :=
  1 ≤ (utf8Bytes s).length ∧ (utf8Bytes s).length ≤ 100 ∧
    (utf8Bytes s).all fun b =>
      (97 ≤ b ∧ b ≤ 122) ∨ (48 ≤ b ∧ b ≤ 57) ∨ b = 45 ∨ b = 95

def resolveExternalId (supplied : Option String) (paymentHash : PaymentHash) :
    Except InvoiceError String :=
  let externalId := supplied.getD paymentHash.toHex
  if isValidExternalId externalId then .ok externalId else .error (.invalidExternalId externalId)

def createInvoice (crates : Crates) (mode : Mode) (request : NewInvoiceRequest) : App Invoice := do
  let at_ ← now
  checkWalletOwnership request.callerAuth request.walletId
  let paymentPreimage ← Fallible.lift (perform .generatePreimage)
  let paymentHash := crates.sha256 paymentPreimage
  let externalId ← Fallible.ofExcept AppError.invoice
    (resolveExternalId request.externalId paymentHash)
  let boltInvoice ← LndClient.addHoldInvoice
    ⟨paymentHash, some request.amountMsat, request.memo, request.expirySeconds⟩
  let id ← newUuid
  let newInvoice ← Fallible.ofExcept AppError.invoice
    (NewInvoice.tryNew id paymentHash paymentPreimage request.walletId (some request.amountMsat)
      request.expirySeconds boltInvoice externalId at_)
  match mode with
  | .dryRun => throw (.walletOwnership "DryRun mode not yet wired in slice 1a")
  | .live => do
      let invoice ← transact (.createInvoice newInvoice)
      Fallible.lift (perform (.spawnListenerFor invoice.paymentHash))
      pure invoice

/-! ### Stepping rules

What a use case of the receiving side may call, from what its branches may call. The
clock may be read throughout. -/

section
variable {J : Calls → Op → Prop} {past : Calls} {i : Invoice} {k : PaymentHash}
variable {amt : MilliSatoshi} {u : InvoiceUpdate}

theorem commitSettle_calls (hnow : ∀ past, J past .now)
    (hnone : ∀ t settled message, i.settle t = .ok (.executed, settled) →
      settled.heldAmountMsat = none → J (past ++ [⟨.now, t⟩]) (.panic message))
    (hsome : ∀ t utcNow settled held, i.settle t = .ok (.executed, settled) →
      settled.heldAmountMsat = some held →
      J (past ++ [⟨.now, t⟩] ++ [⟨.now, utcNow⟩]) (.tx (.invoice settled
        (settledOutbox k amt held i.walletId i.externalId utcNow)))) :
    Emits J (fun _ _ => True) past (commitSettle i k amt).run := by
  unfold commitSettle
  refine now_bind (hnow _) fun t => ?_
  split
  next => trivial
  next => trivial
  next settled hsettled =>
    split
    next hheld => exact ⟨hnone t settled _ hsettled hheld, fun absurd_ => nomatch absurd_⟩
    next held hheld =>
      refine now_bind (hnow _) fun utcNow => ?_
      exact transact_bind (hsome t utcNow settled held hsettled hheld) (fun _ => trivial)
        fun _ => trivial

theorem commitCancel_calls {reason : CancelReason} (hnow : ∀ past, J past .now)
    (hcancel : ∀ t utcNow canceled, i.cancel reason t = .ok (.executed, canceled) →
      J (past ++ [⟨.now, t⟩] ++ [⟨.now, utcNow⟩]) (.tx (.invoice canceled
        (canceledOutbox k amt canceled.heldAmountMsat i.walletId reason utcNow)))) :
    Emits J (fun _ _ => True) past (commitCancel i k reason amt).run := by
  unfold commitCancel
  refine now_bind (hnow _) fun t => ?_
  split
  next => trivial
  next => trivial
  next canceled hcanceled =>
    refine now_bind (hnow _) fun utcNow => ?_
    exact transact_bind (hcancel t utcNow canceled hcanceled) (fun _ => trivial) fun _ => trivial

theorem transitionToHeld_calls {t : Timestamp} (hnow : ∀ past, J past .now)
    (hmark : ∀ utcNow held, i.markHeld amt t = .ok (.executed, held) →
      J (past ++ [⟨.now, utcNow⟩]) (.tx (.invoice held (heldOutbox k amt i.walletId utcNow)))) :
    Emits J (fun _ _ => True) past (transitionToHeld i k amt t).run := by
  unfold transitionToHeld
  split
  next => trivial
  next => trivial
  next held hheld =>
    refine now_bind (hnow _) fun utcNow => ?_
    exact transact_bind (hmark utcNow held hheld) (fun _ => trivial) fun _ => trivial

theorem applyLndState_calls
    (hlnd : u.state = .accepted → J past (.lnd (.settleInvoice i.paymentPreimage)))
    (haccepted : u.state = .accepted → Emits J (fun _ _ => True)
      (past ++ [⟨.lnd (.settleInvoice i.paymentPreimage), .ok ()⟩])
      (commitSettle i k u.amtPaidMsat).run)
    (hsettled : u.state = .settled →
      Emits J (fun _ _ => True) past (commitSettle i k u.amtPaidMsat).run)
    (hcanceled : u.state = .canceled →
      Emits J (fun _ _ => True) past (commitCancel i k .expired u.amtPaidMsat).run) :
    Emits J (fun _ _ => True) past (applyLndState i k u).run := by
  unfold applyLndState
  split
  next hs => exact settleInvoice_bind (hlnd hs) (haccepted hs) fun _ => trivial
  next hs => exact hsettled hs
  next hs => exact hcanceled hs
  next => trivial

theorem resolveHeld_calls (hfind : J past (.findInvoice k))
    (hlookup : ∀ i, J (past ++ [⟨.findInvoice k, .ok i⟩]) (.lnd (.lookupInvoice k)))
    (happly : ∀ i m u, i.state = .held → readLookupInvoice k m = .ok u →
      Emits J (fun _ _ => True)
        (past ++ [⟨.findInvoice k, .ok i⟩] ++ [⟨.lnd (.lookupInvoice k), m⟩])
        (applyLndState i k u).run) :
    Emits J (fun _ _ => True) past (resolveHeld k).run := by
  unfold resolveHeld
  refine findInvoice_bind hfind fun found => ?_
  split
  next => trivial
  next => trivial
  next i =>
    split_ifs with hstate
    · trivial
    · exact lookupInvoice_bind (hlookup i) (fun m u hu => happly i m u (not_not.mp hstate) hu)
        fun _ _ => trivial

theorem handleInvoiceUpdate_calls (hnow : ∀ past, J past .now)
    (hfind : J past (.findInvoice u.paymentHash))
    (hheld : ∀ i t, u.state = .accepted → Emits J (fun _ _ => True)
      (past ++ [⟨.findInvoice u.paymentHash, .ok i⟩] ++ [⟨.now, t⟩])
      (transitionToHeld i i.paymentHash u.amtPaidMsat t).run)
    (hresolve : ∀ past k, Emits J (fun _ _ => True) past (resolveHeld k).run)
    (hcanceled : ∀ i t, u.state = .canceled → Emits J (fun _ _ => True)
      (past ++ [⟨.findInvoice u.paymentHash, .ok i⟩] ++ [⟨.now, t⟩])
      (commitCancel i i.paymentHash .expired u.amtPaidMsat).run) :
    Emits J (fun _ _ => True) past (handleInvoiceUpdate u).run := by
  unfold handleInvoiceUpdate
  refine findInvoice_bind hfind fun found => ?_
  split
  next => trivial
  next => trivial
  next i =>
    refine now_bind (hnow _) fun t => ?_
    split
    next => trivial
    next hs =>
      refine fallible_bind_any (hheld i t hs) fun past' _ => ?_
      exact fallible_bind
        (fallible_attempt (Emits.mono (fun _ _ _ => trivial) (hresolve past' i.paymentHash)))
    next => trivial
    next hs => exact hcanceled i t hs

end

end LightningGateway.InvoiceFlows
