import LightningGateway.GatewayMachine

/-!
# What each call site knows

The sequential half of every result about the gateway. `Justified` says, for the
operations that change something, what the task has learned by the time it
performs them: where the aggregate it writes was loaded, which answer made it
act, and what it has not done yet. `Returns` says how the results of the two
paying use cases relate to the answers behind them. `program_emits` proves both
for every task, without looking at the world.
-/
namespace LightningGateway.CallSites
open Primitives EventTables EffectPrograms PaymentAggregate InvoiceAggregate OutboxRows
open LndWire SymphonyWire GatewayStore GatewayEffects PeerCalls PaymentFlows InvoiceFlows
open GatewayMachine

/-! ### Reading a past -/

def Answered (past : Calls) (o : Op) (a : o.Ans) : Prop :=
  (⟨o, a⟩ : Call gatewaySignature) ∈ past

/-- No call of the kind `q` has been made. -/
def Never (q : Op → Bool) (past : Calls) : Prop := ∀ c ∈ past, q c.op = false

def isTx : Op → Bool
  | .tx _ => true
  | _ => false

def isAuthorize : Op → Bool
  | .authorizeSpend _ => true
  | _ => false

def isSend : Op → Bool
  | .lnd (.sendPaymentV2 _) => true
  | _ => false

/-- The transactions that record what became of a send. -/
def isConclusion : Op → Bool
  | .tx (.payment ..) | .tx (.pending _) => true
  | _ => false

variable {past : Calls} {q : Op → Bool} {o : Op} {a : o.Ans}

theorem Answered.later {more : Calls} (h : Answered past o a) : Answered (past ++ more) o a :=
  List.mem_append_left _ h

theorem answered_last : Answered (past ++ [⟨o, a⟩]) o a :=
  List.mem_append_right _ List.mem_cons_self

theorem never_nil : Never q [] := by
  intro c hc
  cases hc

theorem Never.snoc (h : Never q past) (ho : q o = false) : Never q (past ++ [⟨o, a⟩]) := by
  intro c hc
  rcases List.mem_append.mp hc with hc | hc
  · exact h c hc
  · obtain rfl := List.mem_singleton.mp hc
    exact ho

/-- Symphony has approved `request`. -/
def Approved (past : Calls) (request : SymphonyAuthorizeRequest) : Prop :=
  ∃ r resp, Answered past (.authorizeSpend (toWire request)) r ∧ readAuthorize r = .ok resp ∧
    resp.status = .approved

theorem Approved.later {request : SymphonyAuthorizeRequest} {more : Calls}
    (h : Approved past request) : Approved (past ++ more) request := by
  obtain ⟨r, resp, hr, hresp, hs⟩ := h
  exact ⟨r, resp, hr.later, hresp, hs⟩

/-! ### The Lightning path of `send_payment` -/

/-- `n` is the payment that `request` asks for over Lightning. -/
structure Requested (g : Deployment) (request : SendPaymentRequest) (n : NewPayment) : Prop where
  parsed : ∃ invoice amount, g.crates.bolt11 request.paymentRequest = .ok invoice ∧
    invoice.amountMilliSatoshis = some amount ∧ n.paymentHash = invoice.paymentHash ∧
    n.amountMsat = (MilliSatoshi.mk amount).roundUpToSat
  walletId : n.walletId = request.walletId
  maxFeeMsat : n.maxFeeMsat = LnFees.maxFor n.amountMsat
  boltInvoice : n.boltInvoice = ⟨request.paymentRequest⟩

/-- The row that announces a new payment. -/
def initiatedRow (n : NewPayment) (utcNow : Timestamp) : NewOutboxEvent :=
  buildInitiatedOutbox n.paymentHash n.walletId (asI64 n.amountMsat.wholeSat) n.maxFeeMsat
    n.destination n.boltInvoice utcNow

/-- The hold that covers a payment. -/
def holdFor (n : NewPayment) : SymphonyAuthorizeRequest :=
  holdRequest n.paymentHash n.walletId n.amountMsat n.maxFeeMsat

def IntentSite (g : Deployment) (entry : Entry) (past : Calls) (n : NewPayment)
    (e : NewOutboxEvent) : Prop :=
  ∃ request utcNow, entry = .sendPayment request ∧ Requested g request n ∧
    e = initiatedRow n utcNow ∧ Never isTx past ∧ Never isAuthorize past ∧ Never isSend past

/-- The task has made the payment intent `n` durable and holds it as `p`. -/
def Intends (g : Deployment) (entry : Entry) (past : Calls) (n : NewPayment) (p : Payment) : Prop :=
  ∃ request e, entry = .sendPayment request ∧ Requested g request n ∧
    Answered past (.tx (.intent n e)) (.ok p)

def HoldSite (g : Deployment) (entry : Entry) (past : Calls) (r : WireAuthorizeRequest) : Prop :=
  ∃ n p, Intends g entry past n p ∧ r = toWire (holdFor n) ∧ Never isAuthorize past ∧
    Never isSend past

def SendSite (g : Deployment) (entry : Entry) (past : Calls) (r : WireSendRequest) : Prop :=
  ∃ n p, Intends g entry past n p ∧ Approved past (holdFor n) ∧
    r.paymentRequest = n.boltInvoice.text ∧ tryI64 n.maxFeeMsat.msat = some r.feeLimitMsat ∧
    Never isSend past ∧ Never isConclusion past

/-! ### Terminal payment rows -/

/-- `p` was read from the row with key `k`; its hash and amount are known as `h`
and `amount`. -/
inductive LoadedPayment (past : Calls) :
    PaymentHash → PaymentHash → MilliSatoshi → Payment → Prop where
  | created {n : NewPayment} {e : NewOutboxEvent} {p : Payment} :
      Answered past (.tx (.intent n e)) (.ok p) →
      LoadedPayment past n.paymentHash n.paymentHash n.amountMsat p
  | found {k h : PaymentHash} {p : Payment} :
      Answered past (.findPayment k) (.ok p) → h = k ∨ h = p.paymentHash →
      LoadedPayment past k h p.amountMsat p

/-- As loaded, or with the `Pending` step recorded in memory. -/
inductive Readied (past : Calls) (k h : PaymentHash) (amount : MilliSatoshi) : Payment → Prop where
  | loaded {p : Payment} : LoadedPayment past k h amount p → Readied past k h amount p
  | pending {p p' : Payment} {t : Timestamp} {r : Idempotent} :
      LoadedPayment past k h amount p → p.markPending t = .ok (r, p') → Readied past k h amount p'

/-- LND has told the task that the payment `k` has status `s`. -/
inductive Told (entry : Entry) (past : Calls) (k : PaymentHash) (s : SendPaymentStatus) : Prop where
  | sent {r : WireSendRequest} {m : Except Status (Option WirePayment)}
      {resp : SendPaymentResponse} :
      Answered past (.lnd (.sendPaymentMessage r)) m → readSendMessage m = .ok resp →
      resp.paymentHash = k → resp.status = s → Told entry past k s
  | tracked {m : Except Status (Option WirePayment)} {resp : SendPaymentResponse} :
      Answered past (.lnd (.trackPaymentMessage k)) m → readTrackMessage k m = .ok resp →
      resp.status = s → Told entry past k s
  | update {u : PaymentUpdate} :
      entry = .handlePaymentUpdate u → u.paymentHash = k → u.status = s → Told entry past k s

/-- The task called LND for the payment `k` and did not hear what became of it. -/
def Unheard (g : Deployment) (past : Calls) (k : PaymentHash) : Prop :=
  ∃ r invoice, g.crates.bolt11 r.paymentRequest = .ok invoice ∧ invoice.paymentHash = k ∧
    ((∃ st, Answered past (.lnd (.sendPaymentV2 r)) (.error st)) ∨
      ∃ m, Answered past (.lnd (.sendPaymentMessage r)) m ∧
        ∀ resp, readSendMessage m = .ok resp → resp.paymentHash ≠ k)

/-- Why a payment is declared failed. -/
inductive FailedCause (g : Deployment) (entry : Entry) (past : Calls) (k : PaymentHash) : Prop where
  | unsent {n : NewPayment} {p : Payment} : Intends g entry past n p → n.paymentHash = k →
      Never isSend past → FailedCause g entry past k
  | unheard {n : NewPayment} {p : Payment} : Intends g entry past n p → n.paymentHash = k →
      Unheard g past k → FailedCause g entry past k
  | reported : Told entry past k .failed → FailedCause g entry past k

inductive Concludes (g : Deployment) (entry : Entry) (past : Calls) :
    Payment → NewOutboxEvent → Prop where
  | completed {k h : PaymentHash} {amount fees : MilliSatoshi} {p p' : Payment}
      {preimage : Preimage} {hops : List Hop} {t utcNow : Timestamp} :
      Readied past k h amount p → p.settle preimage fees hops t = .ok (.executed, p') →
      Told entry past k .succeeded →
      Concludes g entry past p'
        (completedOutbox h (asI64 amount.wholeSat) preimage fees hops utcNow)
  | failed {k h : PaymentHash} {amount : MilliSatoshi} {p p' : Payment} {reason : FailureReason}
      {t utcNow : Timestamp} :
      Readied past k h amount p → p.fail reason t = .ok (.executed, p') →
      FailedCause g entry past k →
      Concludes g entry past p' (failedOutbox h (asI64 amount.wholeSat) reason utcNow)

/-- Whose row a task of the paying side looks for. -/
def FindSite (g : Deployment) (entry : Entry) (past : Calls) (k : PaymentHash) : Prop :=
  match entry with
  | .sendPayment _ => ∃ n p, Intends g entry past n p ∧ n.paymentHash = k
  | .handlePaymentUpdate u => u.paymentHash = k
  | _ => True

/-- A request looks for an invoice of the gateway under the hash it is to pay. -/
def RecipientSite (g : Deployment) (entry : Entry) (k : PaymentHash) : Prop :=
  ∃ request invoice, entry = .sendPayment request ∧
    g.crates.bolt11 request.paymentRequest = .ok invoice ∧ invoice.paymentHash = k

def PendingSite (g : Deployment) (entry : Entry) (past : Calls) (p : Payment) : Prop :=
  ∃ n p₀ t, Intends g entry past n p₀ ∧ p₀.markPending t = .ok (.executed, p) ∧
    Told entry past n.paymentHash .inFlight

/-! ### Intraledger transfers -/

/-- The transfer `n` to `recipient` passed every check before authorization. -/
structure TransferPlan (g : Deployment) (entry : Entry) (past : Calls) (n : NewPayment)
    (recipient : Invoice) : Prop where
  planned : ∃ request decoded at_, entry = .sendPayment request ∧
    recipientGuard request.walletId n.paymentHash recipient at_ = .ok () ∧
    n.paymentHash = decoded.paymentHash ∧ n.walletId = request.walletId ∧
    NewPayment.tryNewIntraledger n.id decoded (recipient.amountMsat.map MilliSatoshi.roundUpToSat)
      request.walletId at_ = .ok n
  found : Answered past (.maybeFindInvoice n.paymentHash) (.ok (some recipient))

/-- The journal request of a transfer. -/
def journalFor (n : NewPayment) (recipient : Invoice) : SymphonyAuthorizeRequest :=
  transferRequest n.paymentHash n.walletId recipient.walletId n.amountMsat

def JournalSite (g : Deployment) (entry : Entry) (past : Calls) (r : WireAuthorizeRequest) : Prop :=
  ∃ n recipient, TransferPlan g entry past n recipient ∧ r = toWire (journalFor n recipient) ∧
    Never isTx past ∧ Never isAuthorize past ∧ Never isSend past

def CancelSite (g : Deployment) (entry : Entry) (past : Calls) (k : PaymentHash) : Prop :=
  ∃ n recipient, TransferPlan g entry past n recipient ∧ Approved past (journalFor n recipient) ∧
    k = n.paymentHash

/-- The row that reports a transfer. -/
def transferRow (n : NewPayment) (recipient : Invoice) (utcNow : Timestamp) : NewOutboxEvent :=
  transferOutbox n.paymentHash (asI64 n.amountMsat.wholeSat) n.walletId recipient.walletId
    n.amountMsat utcNow

def TransferSite (g : Deployment) (entry : Entry) (past : Calls) (n : NewPayment)
    (preimage : Preimage) (recipient : Invoice) (e : NewOutboxEvent) : Prop :=
  TransferPlan g entry past n recipient ∧ Approved past (journalFor n recipient) ∧
    Answered past (.lnd (.cancelInvoice n.paymentHash)) (.ok ()) ∧
    preimage = recipient.paymentPreimage ∧ (∃ utcNow, e = transferRow n recipient utcNow) ∧
    Never isTx past ∧ Never isSend past

/-! ### Invoices -/

def CreateInvoiceSite (g : Deployment) (entry : Entry) (past : Calls) (n : NewInvoice) : Prop :=
  ∃ request text added, entry = .createInvoice request ∧
    n.paymentHash = g.crates.sha256 n.paymentPreimage ∧
    Answered past .generatePreimage n.paymentPreimage ∧ added.hash = n.paymentHash ∧
    Answered past (.lnd (.addHoldInvoice added)) (.ok text)

/-- LND has told the task that its hold invoice `k` is in state `s`. -/
inductive ToldInvoice (entry : Entry) (past : Calls) (k : PaymentHash) (s : LndInvoiceState) :
    Prop where
  | lookup {m : Except Status WireInvoice} {u : InvoiceUpdate} :
      Answered past (.lnd (.lookupInvoice k)) m → readLookupInvoice k m = .ok u → u.state = s →
      ToldInvoice entry past k s
  | update {u : InvoiceUpdate} :
      entry = .handleInvoiceUpdate u → u.paymentHash = k → u.state = s → ToldInvoice entry past k s

/-- The task has loaded a held invoice, and a lookup has shown its HTLC accepted. -/
def SettleSite (past : Calls) (preimage : Preimage) : Prop :=
  ∃ k i m u, Answered past (.findInvoice k) (.ok i) ∧ i.state = .held ∧
    preimage = i.paymentPreimage ∧ Answered past (.lnd (.lookupInvoice k)) m ∧
    readLookupInvoice k m = .ok u ∧ u.state = .accepted

inductive InvoiceMove (entry : Entry) (past : Calls) : Invoice → NewOutboxEvent → Prop where
  | held {k : PaymentHash} {i i' : Invoice} {amount : MilliSatoshi} {t utcNow : Timestamp} :
      Answered past (.findInvoice k) (.ok i) → ToldInvoice entry past k .accepted →
      i.markHeld amount t = .ok (.executed, i') →
      InvoiceMove entry past i' (heldOutbox i.paymentHash amount i.walletId utcNow)
  | settled {k : PaymentHash} {i i' : Invoice} {amount heldAmount : MilliSatoshi}
      {t utcNow : Timestamp} :
      Answered past (.findInvoice k) (.ok i) → i.settle t = .ok (.executed, i') →
      i'.heldAmountMsat = some heldAmount →
      (ToldInvoice entry past k .settled ∨
        Answered past (.lnd (.settleInvoice i.paymentPreimage)) (.ok ())) →
      InvoiceMove entry past i'
        (settledOutbox k amount heldAmount i.walletId i.externalId utcNow)
  | canceled {k h : PaymentHash} {i i' : Invoice} {amount : MilliSatoshi} {t utcNow : Timestamp} :
      Answered past (.findInvoice k) (.ok i) → h = k ∨ h = i.paymentHash →
      ToldInvoice entry past k .canceled → i.cancel .expired t = .ok (.executed, i') →
      InvoiceMove entry past i'
        (canceledOutbox h amount i'.heldAmountMsat i.walletId .expired utcNow)

/-! ### All call sites -/

def Justified (g : Deployment) (entry : Entry) (past : Calls) : Op → Prop
  | .findPayment k => FindSite g entry past k
  | .maybeFindInvoice k => RecipientSite g entry k
  | .authorizeSpend r => HoldSite g entry past r ∨ JournalSite g entry past r
  | .lnd (.sendPaymentV2 r) => SendSite g entry past r
  | .lnd (.sendPaymentMessage r) => Answered past (.lnd (.sendPaymentV2 r)) (.ok ())
  | .lnd (.settleInvoice preimage) => SettleSite past preimage
  | .lnd (.cancelInvoice k) => CancelSite g entry past k
  | .tx (.intent n e) => IntentSite g entry past n e
  | .tx (.pending p) => PendingSite g entry past p
  | .tx (.payment p e) => Concludes g entry past p e
  | .tx (.transfer n preimage _ recipient e) => TransferSite g entry past n preimage recipient e
  | .tx (.createInvoice n) => CreateInvoiceSite g entry past n
  | .tx (.invoice i e) => InvoiceMove entry past i e
  | _ => True

/-! ### Results -/

/-- Why a request is told that its payment exists already. -/
inductive ExistsCause (past : Calls) (x : String) : Prop where
  /-- The payments table has the hash. -/
  | recorded {n : NewPayment} {e : NewOutboxEvent} :
      Answered past (.tx (.intent n e)) (.error (.payment (.alreadyPaid x))) → ExistsCause past x
  /-- The hash is that of an invoice of the gateway. -/
  | ours {k : PaymentHash} {i : Invoice} :
      Answered past (.maybeFindInvoice k) (.ok (some i)) → ExistsCause past x

/-- What a result of `send_payment` says about the task's past. -/
inductive SendReturn (g : Deployment) (entry : Entry) (past : Calls) :
    Except AppError Payment → Prop where
  /-- Nothing was authorized. -/
  | early {r : Except AppError Payment} :
      (∀ n e p, ¬Answered past (.tx (.intent n e)) (.ok p)) → Never isAuthorize past →
      (∀ x, r = .error (.payment (.alreadyPaid x)) → ExistsCause past x) →
      SendReturn g entry past r
  /-- The aggregate refused a command it always accepts in its initial state. -/
  | refused {n : NewPayment} {p : Payment} {r : Except AppError Payment} :
      Intends g entry past n p → ¬(p.state = .initiated ∧ p.events.iterAll = [n.initiatedEvent]) →
      SendReturn g entry past r
  | concluded {n : NewPayment} {p q : Payment} {e : NewOutboxEvent} {r : Except AppError Payment} :
      Intends g entry past n p → Concludes g entry past q e →
      Answered past (.tx (.payment q e)) r → SendReturn g entry past r
  | pended {n : NewPayment} {p q : Payment} {r : Except AppError Payment} :
      Intends g entry past n p → PendingSite g entry past q → Answered past (.tx (.pending q)) r →
      r ≠ .error (.payment (.modify .concurrentModification)) → SendReturn g entry past r
  | reloaded {n : NewPayment} {p : Payment} {r : Except FindError Payment} :
      Intends g entry past n p → Answered past (.findPayment n.paymentHash) r →
      SendReturn g entry past (r.mapError fun e => .payment (.find e))
  /-- LND reported success without a readable preimage. -/
  | unreadable {n : NewPayment} {p : Payment} {q : WireSendRequest}
      {m : Except Status (Option WirePayment)} {resp : SendPaymentResponse} :
      Intends g entry past n p → Answered past (.lnd (.sendPaymentMessage q)) m →
      readSendMessage m = .ok resp → resp.paymentHash = n.paymentHash →
      resp.status = .succeeded → resp.paymentPreimage = none →
      SendReturn g entry past (.error succeededWithoutPreimage)
  /-- Symphony did not approve the journal. -/
  | unposted {q : WireAuthorizeRequest} {a : Except Status WireAuthorizeResponse} {e : AppError} :
      Answered past (.authorizeSpend q) a →
      (∀ resp, readAuthorize a = .ok resp → resp.status ≠ .approved) →
      (∀ n e p, ¬Answered past (.tx (.intent n e)) (.ok p)) →
      SendReturn g entry past (.error e)
  | uncanceled {n : NewPayment} {recipient : Invoice} {st : Status} :
      TransferPlan g entry past n recipient → Approved past (journalFor n recipient) →
      Answered past (.lnd (.cancelInvoice n.paymentHash)) (.error st) →
      (∀ n e p, ¬Answered past (.tx (.intent n e)) (.ok p)) →
      SendReturn g entry past (.error (.lnd (.rpc st)))
  | transferred {n : NewPayment} {preimage : Preimage} {t : Timestamp} {recipient : Invoice}
      {e : NewOutboxEvent} {r : Except AppError Payment} :
      TransferPlan g entry past n recipient → Approved past (journalFor n recipient) →
      Answered past (.tx (.transfer n preimage t recipient e)) r →
      (∀ n e p, ¬Answered past (.tx (.intent n e)) (.ok p)) → SendReturn g entry past r

/-- What a result of `handle_payment_update` says about the task's past. -/
inductive UpdateReturn (g : Deployment) (u : PaymentUpdate) (past : Calls) :
    Except AppError Unit → Prop where
  | unloaded {e : FindError} {r : Except AppError Unit} :
      Answered past (.findPayment u.paymentHash) (.error e) → UpdateReturn g u past r
  | nothing {r : Except AppError Unit} :
      u.status = .inFlight ∨ (u.status = .succeeded ∧ u.paymentPreimage = none) →
      UpdateReturn g u past r
  | concluded {q : Payment} {e : NewOutboxEvent} {r : Except AppError Payment} :
      Concludes g (.handlePaymentUpdate u) past q e → Answered past (.tx (.payment q e)) r →
      UpdateReturn g u past (r.map fun _ => ())
  /-- The loaded log already had the outcome, or contradicts it. -/
  | settled {p : Payment} {r : Except AppError Unit} :
      Answered past (.findPayment u.paymentHash) (.ok p) →
      (p.events.iterAll.any PaymentEvent.isCompleted = true ∨
        p.events.iterAll.any PaymentEvent.isFailed = true ∨
        (p.state ≠ .initiated ∧ p.state ≠ .pending)) → UpdateReturn g u past r

def Returns (g : Deployment) (entry : Entry) (past : Calls) : Outcome → Prop
  | .payment r => SendReturn g entry past r
  | .unit r => ∀ u, entry = .handlePaymentUpdate u → UpdateReturn g u past r
  | _ => True

end LightningGateway.CallSites
