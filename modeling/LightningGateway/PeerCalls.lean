import LightningGateway.GatewayEffects

/-!
# Calls to the clock, the database and the peers

The adapters between the use cases and the operations: each of them issues its
operations in the order of the source and reads the answer the way the source
does. `LndClient` is the connected client.
-/
namespace LightningGateway.PeerCalls
open Primitives EventTables EffectPrograms PaymentAggregate InvoiceAggregate OutboxRows
open LndWire SymphonyWire GatewayStore GatewayEffects

/-- One operation and its answer. -/
def perform (o : Op) : Program gatewaySignature o.Ans := Program.ask (S := gatewaySignature) o

def now : App Timestamp := .lift (perform .now)

def newUuid : App Uuid := .lift (perform .newUuid)

def checkWalletOwnership (caller : CallerAuth) (walletId : WalletId) : App Unit :=
  .orThrow .walletOwnership (perform (.checkOwnership caller walletId))

def findPayment (h : PaymentHash) : App (Except FindError Payment) :=
  .lift (perform (.findPayment h))

def findInvoice (h : PaymentHash) : App (Except FindError Invoice) :=
  .lift (perform (.findInvoice h))

/-- Run a transaction, propagating its error. -/
def transact (b : Transaction) : App b.Result := .orThrow id (perform (.tx b))

def authorizeSpend (request : SymphonyAuthorizeRequest) :
    App (Except SymphonyError SymphonyAuthorizeResponse) :=
  .lift (do
    let answer ← perform (.authorizeSpend (toWire request))
    pure (readAuthorize answer))

namespace LndClient

def sendPayment (params : SendPaymentParams) : App (Except LndError SendPaymentResponse) :=
  .lift (
    match tryI64 params.maxFeeMsat.msat with
    | none => pure (.error (.invalidResponse "max_fee_msat exceeds i64::MAX"))
    | some feeLimitMsat => do
        let request := ⟨params.boltInvoice.text, feeLimitMsat, params.timeoutSeconds.toNat⟩
        let opened ← perform (.lnd (.sendPaymentV2 request))
        match opened with
        | .error status => pure (.error (.rpc status))
        | .ok () => do
            let message ← perform (.lnd (.sendPaymentMessage request))
            pure (readSendMessage message))

def lookupPayment (paymentHash : PaymentHash) : App (Except LndError SendPaymentResponse) :=
  .lift (do
    let opened ← perform (.lnd (.trackPaymentV2 paymentHash))
    match opened with
    | .error status => pure (.error (mapTrackPaymentStatus status))
    | .ok () => do
        let message ← perform (.lnd (.trackPaymentMessage paymentHash))
        pure (readTrackMessage paymentHash message))

def addHoldInvoice (params : AddHoldInvoiceParams) : App BoltInvoice :=
  match addHoldValue params.amountMsat with
  | none => throw (.lnd (.invalidResponse "amount_msat exceeds i64::MAX"))
  | some valueMsat => do
      let text ← Fallible.orThrow (fun status => AppError.lnd (.rpc status))
        (perform (.lnd (.addHoldInvoice
          ⟨params.paymentHash, valueMsat, params.expirySeconds.toNat, params.memo.getD ""⟩)))
      pure ⟨text⟩
where
  addHoldValue : Option MilliSatoshi → Option ℤ
    | some a => tryI64 a.msat
    | none => some 0

def settleInvoice (preimage : Preimage) : App Unit :=
  .orThrow (fun status => .lnd (.rpc status)) (perform (.lnd (.settleInvoice preimage)))

def cancelInvoice (paymentHash : PaymentHash) : App Unit :=
  .orThrow (fun status => .lnd (.rpc status)) (perform (.lnd (.cancelInvoice paymentHash)))

def lookupInvoice (paymentHash : PaymentHash) : App InvoiceUpdate :=
  .orThrow .lnd (do
    let answer ← perform (.lnd (.lookupInvoice paymentHash))
    pure (readLookupInvoice paymentHash answer))

end LndClient

/-- `decode_bolt11`. -/
def decodeBolt11 (crates : Crates) (paymentRequest : String) : App DecodedInvoice :=
  match crates.bolt11 paymentRequest with
  | .error detail => throw (.invalidBoltInvoice detail)
  | .ok invoice => do
      let systemNow ← now
      if invoice.expiresAt < max systemNow.nanos 0 then throw (.payment .expiredBoltInvoice)
      else pure (decoded invoice)
where
  decoded (invoice : Bolt11Invoice) : DecodedInvoice :=
    { paymentHash := invoice.paymentHash
      destination := invoice.payeePubKey.toHex
      amountMsat := invoice.amountMilliSatoshis.map fun a => (MilliSatoshi.mk a).roundUpToSat
      boltInvoice := ⟨paymentRequest⟩ }

/-! ### Stepping rules

One rule for each adapter: to describe a program that starts with it, justify its
operations and describe the continuation for every answer. -/

abbrev Calls := List (Call gatewaySignature)

section
variable {J : Calls → Op → Prop} {β : Type} {Q : Calls → Except AppError β → Prop} {past : Calls}

theorem perform_bind {o : Op} {f : o.Ans → App β} (hJ : J past o)
    (h : ∀ a, Emits J Q (past ++ [⟨o, a⟩]) (f a).run) :
    Emits (S := gatewaySignature) J Q past (Fallible.lift (perform o) >>= f).run :=
  ⟨hJ, h⟩

theorem now_bind {f : Timestamp → App β} (hJ : J past .now)
    (h : ∀ t, Emits J Q (past ++ [⟨.now, t⟩]) (f t).run) :
    Emits (S := gatewaySignature) J Q past (now >>= f).run :=
  ⟨hJ, h⟩

theorem newUuid_bind {f : Uuid → App β} (hJ : J past .newUuid)
    (h : ∀ u, Emits J Q (past ++ [⟨.newUuid, u⟩]) (f u).run) :
    Emits (S := gatewaySignature) J Q past (newUuid >>= f).run :=
  ⟨hJ, h⟩

theorem findPayment_bind {k : PaymentHash} {f : Except FindError Payment → App β}
    (hJ : J past (.findPayment k))
    (h : ∀ r, Emits J Q (past ++ [⟨.findPayment k, r⟩]) (f r).run) :
    Emits (S := gatewaySignature) J Q past (findPayment k >>= f).run :=
  ⟨hJ, h⟩

theorem findInvoice_bind {k : PaymentHash} {f : Except FindError Invoice → App β}
    (hJ : J past (.findInvoice k))
    (h : ∀ r, Emits J Q (past ++ [⟨.findInvoice k, r⟩]) (f r).run) :
    Emits (S := gatewaySignature) J Q past (findInvoice k >>= f).run :=
  ⟨hJ, h⟩

theorem checkWalletOwnership_bind {caller : CallerAuth} {w : WalletId} {f : Unit → App β}
    (hJ : J past (.checkOwnership caller w))
    (hok : Emits J Q (past ++ [⟨.checkOwnership caller w, .ok ()⟩]) (f ()).run)
    (herr : ∀ e, Q (past ++ [⟨.checkOwnership caller w, .error e⟩]) (.error (.walletOwnership e))) :
    Emits (S := gatewaySignature) J Q past (checkWalletOwnership caller w >>= f).run := by
  refine ⟨hJ, fun r => ?_⟩
  cases r with
  | ok a => exact hok
  | error e => exact herr e

theorem transact_bind {b : Transaction} {f : b.Result → App β} (hJ : J past (.tx b))
    (hok : ∀ a, Emits J Q (past ++ [⟨.tx b, .ok a⟩]) (f a).run)
    (herr : ∀ e, Q (past ++ [⟨.tx b, .error e⟩]) (.error e)) :
    Emits (S := gatewaySignature) J Q past (transact b >>= f).run := by
  refine ⟨hJ, fun r => ?_⟩
  cases r with
  | ok a => exact hok a
  | error e => exact herr e

/-- A transaction in last position returns its answer. -/
theorem transact_last {b : Transaction} {Q : Calls → Except AppError b.Result → Prop}
    (hJ : J past (.tx b)) (h : ∀ r, Q (past ++ [⟨.tx b, r⟩]) r) :
    Emits (S := gatewaySignature) J Q past (transact b).run := by
  refine ⟨hJ, fun r => ?_⟩
  cases r with
  | ok a => exact h (.ok a)
  | error e => exact h (.error e)

theorem attempt_transact_bind {b : Transaction} {f : Except AppError b.Result → App β}
    (hJ : J past (.tx b)) (h : ∀ r, Emits J Q (past ++ [⟨.tx b, r⟩]) (f r).run) :
    Emits (S := gatewaySignature) J Q past (Fallible.attempt (transact b) >>= f).run := by
  refine ⟨hJ, fun r => ?_⟩
  cases r with
  | ok a => exact h (.ok a)
  | error e => exact h (.error e)

theorem authorizeSpend_bind (request : SymphonyAuthorizeRequest)
    {f : Except SymphonyError SymphonyAuthorizeResponse → App β}
    (hJ : J past (.authorizeSpend (toWire request)))
    (h : ∀ r, Emits J Q (past ++ [⟨.authorizeSpend (toWire request), r⟩])
      (f (readAuthorize r)).run) :
    Emits (S := gatewaySignature) J Q past (authorizeSpend request >>= f).run :=
  ⟨hJ, h⟩

theorem ofExcept_bind {δ α : Type} {convert : δ → AppError} {r : Except δ α} {f : α → App β}
    (hok : ∀ a, r = .ok a → Emits J Q past (f a).run)
    (herr : ∀ e, r = .error e → Q past (.error (convert e))) :
    Emits (S := gatewaySignature) J Q past (Fallible.ofExcept convert r >>= f).run := by
  cases r with
  | ok a => exact hok a rfl
  | error e => exact herr e rfl

theorem settleInvoice_bind {preimage : Preimage} {f : Unit → App β}
    (hJ : J past (.lnd (.settleInvoice preimage)))
    (hok : Emits J Q (past ++ [⟨.lnd (.settleInvoice preimage), .ok ()⟩]) (f ()).run)
    (herr : ∀ st, Q (past ++ [⟨.lnd (.settleInvoice preimage), .error st⟩])
      (.error (.lnd (.rpc st)))) :
    Emits (S := gatewaySignature) J Q past (LndClient.settleInvoice preimage >>= f).run := by
  refine ⟨hJ, fun r => ?_⟩
  cases r with
  | ok a => exact hok
  | error e => exact herr e

theorem cancelInvoice_bind {k : PaymentHash} {f : Unit → App β}
    (hJ : J past (.lnd (.cancelInvoice k)))
    (hok : Emits J Q (past ++ [⟨.lnd (.cancelInvoice k), .ok ()⟩]) (f ()).run)
    (herr : ∀ st, Q (past ++ [⟨.lnd (.cancelInvoice k), .error st⟩]) (.error (.lnd (.rpc st)))) :
    Emits (S := gatewaySignature) J Q past (LndClient.cancelInvoice k >>= f).run := by
  refine ⟨hJ, fun r => ?_⟩
  cases r with
  | ok a => exact hok
  | error e => exact herr e

theorem lookupInvoice_bind {k : PaymentHash} {f : InvoiceUpdate → App β}
    (hJ : J past (.lnd (.lookupInvoice k)))
    (hok : ∀ m u, readLookupInvoice k m = .ok u →
      Emits J Q (past ++ [⟨.lnd (.lookupInvoice k), m⟩]) (f u).run)
    (herr : ∀ m e, Q (past ++ [⟨.lnd (.lookupInvoice k), m⟩]) (.error (.lnd e))) :
    Emits (S := gatewaySignature) J Q past (LndClient.lookupInvoice k >>= f).run := by
  refine ⟨hJ, fun m => ?_⟩
  change Emits J Q _ (ExceptT.bindCont f ((readLookupInvoice k m).mapError AppError.lnd))
  cases hm : readLookupInvoice k m with
  | ok u => exact hok m u hm
  | error e => exact herr m e

end

end LightningGateway.PeerCalls
