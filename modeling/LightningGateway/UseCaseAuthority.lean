import LightningGateway.HeldAmounts

/-!
# What each use case may do

Every use case is given the whole `App`, with all its peers and tables. This module says
which of them each one turns to, on any path through its code: who may move money, who may
write which table, who only reads. A panic is within nobody's authority. The receiving side
has one on its path to a settled row, so there the answers of the database count.
-/
namespace LightningGateway.UseCaseAuthority
open Primitives EventTables EffectPrograms TaskPools PaymentAggregate InvoiceAggregate LndWire
open GatewayStore StoreSpecs GatewayEffects PeerCalls PaymentFlows InvoiceFlows GatewayMachine
open HeldAmounts

/-! ### Authority -/

/-- The operations of the receiving side: LND is asked about an invoice and told to settle
it, and the invoice is written with its row of the outbox. -/
def receivingMay : Op → Bool
  | .now | .findInvoice _ | .lnd (.lookupInvoice _) | .lnd (.settleInvoice _)
  | .tx (.invoice _ _) => true
  | _ => false

/-- What a use case may call. -/
def mayPerform : Entry → Op → Bool
  | .sendPayment _, o =>
      match o with
      | .now | .newUuid | .checkOwnership _ _ | .maybeFindInvoice _ | .findPayment _
      | .authorizeSpend _ | .lnd (.sendPaymentV2 _) | .lnd (.sendPaymentMessage _)
      | .lnd (.cancelInvoice _) | .tx (.intent _ _) | .tx (.pending _) | .tx (.payment _ _)
      | .tx (.transfer _ _ _ _ _) => true
      | _ => false
  | .handlePaymentUpdate _, o =>
      match o with
      | .now | .findPayment _ | .tx (.payment _ _) => true
      | _ => false
  | .sweepOrphanHolds _ _, o =>
      match o with
      | .now | .listStrandedInitiated _ _ | .findPayment _ | .deadlineElapsed
      | .lnd (.trackPaymentV2 _) | .lnd (.trackPaymentMessage _) | .tx (.payment _ _) => true
      | _ => false
  | .createInvoice _, o =>
      match o with
      | .now | .newUuid | .generatePreimage | .checkOwnership _ _ | .lnd (.addHoldInvoice _)
      | .tx (.createInvoice _) | .spawnListenerFor _ => true
      | _ => false
  | .handleInvoiceUpdate _, o | .settleHoldInvoice _, o | .reconcileHeldInvoice _, o =>
      receivingMay o

theorem mayPerform_panic (entry : Entry) (message : String) :
    mayPerform entry (.panic message) = false := by
  cases entry <;> rfl

/-- What a use case can change outside itself. -/
inductive Part where
  | payments
  | invoices
  | outbox
  | symphony
  | lndPayments
  | lndInvoices
deriving DecidableEq, Repr

def Part.Same (w w' : World) : Part → Prop
  | .payments => w'.db.payments = w.db.payments
  | .invoices => w'.db.invoices = w.db.invoices
  | .outbox => w'.db.outbox = w.db.outbox
  | .symphony => w'.authorized = w.authorized
  | .lndPayments => w'.lnd.payments = w.lnd.payments ∧ w'.lnd.transit = w.lnd.transit
  | .lndInvoices => w'.lnd.invoices = w.lnd.invoices

def mayChange : Entry → Part → Bool
  | .sendPayment _, _ => true
  | .handlePaymentUpdate _, x | .sweepOrphanHolds _ _, x => x = .payments ∨ x = .outbox
  | .createInvoice _, x => x = .invoices ∨ x = .lndInvoices
  | .handleInvoiceUpdate _, x | .settleHoldInvoice _, x | .reconcileHeldInvoice _, x =>
      x = .invoices ∨ x = .outbox ∨ x = .lndInvoices

/-! ### What one call changes -/

/-- The parts that a transaction writes. -/
def writes : Transaction → Part → Bool
  | .intent _ _, x | .payment _ _, x => x = .payments ∨ x = .outbox
  | .pending _, x => x = .payments
  | .transfer _ _ _ _ _, x => x = .payments ∨ x = .invoices ∨ x = .outbox
  | .createInvoice _, x => x = .invoices
  | .invoice _ _, x => x = .invoices ∨ x = .outbox

def changes : Op → Part → Bool
  | .tx b, x => writes b x
  | .authorizeSpend _, x => x = .symphony
  | .lnd (.sendPaymentV2 _), x => x = .lndPayments
  | .lnd (.addHoldInvoice _), x | .lnd (.settleInvoice _), x | .lnd (.cancelInvoice _), x =>
      x = .lndInvoices
  | _, _ => false

/-- A use case that may call what changes a part may change it. -/
theorem mayChange_of_changes {entry : Entry} {o : Op} {x : Part}
    (ho : mayPerform entry o = true) (hx : changes o x = true) : mayChange entry x = true := by
  cases entry with
  | sendPayment request => rfl
  | handlePaymentUpdate | sweepOrphanHolds | createInvoice | handleInvoiceUpdate
  | settleHoldInvoice | reconcileHeldInvoice =>
      cases o with
      | tx b => cases b <;> grind [mayPerform, receivingMay, changes, writes, mayChange]
      | lnd o => cases o <;> grind [mayPerform, receivingMay, changes, mayChange]
      | authorizeSpend request => cases ho
      | _ => cases hx

section
variable {db db' : Db} {clock t : Timestamp} {w w' : World}

theorem payments_createInOp_frame {n : NewPayment} {p : Payment}
    (h : Payments.createInOp n clock db = .ok (p, db')) :
    db'.invoices = db.invoices ∧ db'.outbox = db.outbox := by
  obtain ⟨r, t, -, -, -, -, -, -, rfl, -⟩ := payments_createInOp h
  exact ⟨rfl, rfl⟩

theorem payments_updateInOp_frame {p q : Payment}
    (h : Payments.updateInOp p db = .ok (q, db')) :
    db'.invoices = db.invoices ∧ db'.outbox = db.outbox := by
  by_cases hf : p.events.fresh = []
  · unfold Payments.updateInOp at h
    rw [if_pos hf] at h
    cases h
    exact ⟨rfl, rfl⟩
  · obtain ⟨t, -, rfl, -⟩ := payments_updateInOp hf h
    exact ⟨rfl, rfl⟩

/-- A transaction leaves the tables alone that it does not name. -/
theorem run_frame {b : Transaction} {a : b.Result} (h : b.run clock db = .ok (a, db')) :
    (writes b .payments = false → db'.payments = db.payments) ∧
      (writes b .invoices = false → db'.invoices = db.invoices) ∧
      (writes b .outbox = false → db'.outbox = db.outbox) := by
  cases b with
  | intent n e =>
      obtain ⟨db₁, h₁, rfl⟩ := published_after h
      have hframe := payments_createInOp_frame h₁
      exact ⟨fun hx => (by cases hx), fun _ => hframe.1, fun hx => (by cases hx)⟩
  | pending p =>
      have hframe := payments_updateInOp_frame h
      exact ⟨fun hx => (by cases hx), fun _ => hframe.1, fun _ => hframe.2⟩
  | payment p e =>
      obtain ⟨db₁, h₁, rfl⟩ := published_after h
      have hframe := payments_updateInOp_frame h₁
      exact ⟨fun hx => (by cases hx), fun _ => hframe.1, fun hx => (by cases hx)⟩
  | transfer => exact ⟨fun hx => (by cases hx), fun hx => (by cases hx), fun hx => (by cases hx)⟩
  | createInvoice n =>
      obtain ⟨r, u, -, -, -, -, rfl⟩ := invoices_createInOp h
      exact ⟨fun _ => rfl, fun hx => (by cases hx), fun _ => rfl⟩
  | invoice i e =>
      obtain ⟨db₁, h₁, rfl⟩ := published_after h
      have hframe : db₁.payments = db.payments := invoices_updateInOp_payments h₁
      exact ⟨fun _ => hframe, fun hx => (by cases hx), fun hx => (by cases hx)⟩

theorem commit_same {b : Transaction} {x : Part} (hx : writes b x = false) :
    x.Same w (w.commit b t).2 := by
  unfold World.commit
  cases hrun : b.run t w.db with
  | error e => cases x <;> first | rfl | exact ⟨rfl, rfl⟩
  | ok r =>
      obtain ⟨a, db⟩ := r
      obtain ⟨hp, hi, ho⟩ := run_frame hrun
      cases x with
      | payments => exact hp hx
      | invoices => exact hi hx
      | outbox => exact ho hx
      | symphony | lndInvoices => rfl
      | lndPayments => exact ⟨rfl, rfl⟩

@[simp] theorem Part.same_self {x : Part} : x.Same w w := by
  cases x <;> first | rfl | exact ⟨rfl, rfl⟩

/-- A call about an invoice leaves LND's payments as they are. -/
theorem Part.same_invoice {x : Part} {h : PaymentHash} {i : LndInvoiceState}
    (hx : x ≠ .lndInvoices) : x.Same w { w with lnd := w.lnd.setInvoice h i } := by
  cases x with
  | lndPayments => exact ⟨rfl, rfl⟩
  | lndInvoices => exact absurd rfl hx
  | payments | invoices | outbox | symphony => rfl

theorem Part.same_transit {x : Part} {h : PaymentHash} {b : Bool} (hx : x ≠ .lndPayments) :
    x.Same w { w with lnd := w.lnd.setTransit h b } := by
  cases x with
  | lndPayments => exact absurd rfl hx
  | payments | invoices | outbox | symphony | lndInvoices => rfl

theorem execLnd_same {crates : Crates} {o : LndOp} {c : Choice} {a : o.Ans} {x : Part}
    (h : execLnd crates o c w = some (a, w')) (hx : changes (.lnd o) x = false) :
    x.Same w w' := by
  cases o with
  | sendPaymentV2 request =>
      have hne : x ≠ .lndPayments := of_decide_eq_false hx
      cases c <;> simp only [execLnd, reduceCtorEq] at h
      split at h
      · cases h
        exact Part.same_transit hne
      · cases h
        exact Part.same_self
  | addHoldInvoice request =>
      have hne : x ≠ .lndInvoices := of_decide_eq_false hx
      cases c <;> simp only [execLnd, reduceCtorEq] at h
      cases h
      unfold Lnd.add
      split_ifs
      · split
        · exact Part.same_invoice hne
        · exact Part.same_self
      · exact Part.same_self
  | settleInvoice preimage =>
      have hne : x ≠ .lndInvoices := of_decide_eq_false hx
      cases c <;> simp only [execLnd, reduceCtorEq] at h
      cases h
      unfold Lnd.settle
      split_ifs
      · split
        · exact Part.same_invoice hne
        · exact Part.same_self
      · exact Part.same_self
  | cancelInvoice k =>
      have hne : x ≠ .lndInvoices := of_decide_eq_false hx
      cases c <;> simp only [execLnd, reduceCtorEq] at h
      cases h
      unfold Lnd.cancel
      split_ifs
      · split
        · exact Part.same_invoice hne
        · exact Part.same_invoice hne
        · exact Part.same_self
      · exact Part.same_self
  | sendPaymentMessage | trackPaymentV2 | trackPaymentMessage | lookupInvoice =>
      cases c <;> cases h
      exact Part.same_self

/-- A call leaves everything alone but what it is for. -/
theorem exec_same {crates : Crates} {o : Op} {c : Choice} {a : o.Ans} {x : Part}
    (h : exec crates o c w = some (a, w')) (hx : changes o x = false) : x.Same w w' := by
  cases o with
  | tx b =>
      cases c <;> simp only [exec, reduceCtorEq] at h
      case served t =>
        obtain rfl : (w.commit b t).2 = w' := congrArg Prod.snd (Option.some.inj h)
        exact commit_same hx
      case ackLost t =>
        cases h
        exact commit_same hx
      case dbFault =>
        cases h
        exact Part.same_self
  | authorizeSpend request =>
      have hne : x ≠ .symphony := of_decide_eq_false hx
      cases c <;> simp only [exec, reduceCtorEq] at h
      cases h
      split_ifs
      · cases x with
        | symphony => exact absurd rfl hne
        | lndPayments => exact ⟨rfl, rfl⟩
        | payments | invoices | outbox | lndInvoices => rfl
      · exact Part.same_self
  | lnd o => exact execLnd_same h hx
  | now | newUuid | generatePreimage | checkOwnership | findPayment | findInvoice
  | maybeFindInvoice | listStrandedInitiated | deadlineElapsed | spawnListenerFor | panic =>
      cases c <;> cases h <;> exact Part.same_self

end

/-- Every operation of the use case is in `P`. -/
abbrev Within (P : Op → Prop) {α : Type} (past : Calls) (use : App α) : Prop :=
  Emits (S := gatewaySignature) (fun _ => P) (fun _ _ => True) past use.run

/-! ### The paying side -/

section
variable {P : Op → Prop} {past : Calls} {p : Payment} {k : PaymentHash} {amount : ℤ}
variable {t : Timestamp} {preimage : Preimage} {fees : MilliSatoshi} {hops : List Hop}
variable {reason : FailureReason}

theorem commitCompleted_within (hnow : P .now) (htx : ∀ p e, P (.tx (.payment p e))) :
    Within P past (commitCompleted p k amount preimage fees hops t) := by
  unfold commitCompleted
  split
  next => trivial
  next => trivial
  next settled _ =>
    refine now_bind hnow fun utcNow => ?_
    exact transact_last (b := .payment settled _) (htx _ _) fun _ => trivial

theorem commitFailed_within (hnow : P .now) (htx : ∀ p e, P (.tx (.payment p e))) :
    Within P past (commitFailed p k amount reason t) := by
  unfold commitFailed
  split
  next => trivial
  next => trivial
  next failed _ =>
    refine now_bind hnow fun utcNow => ?_
    exact transact_last (b := .payment failed _) (htx _ _) fun _ => trivial

end

section
variable {request : SendPaymentRequest} {past : Calls} {p : Payment} {k : PaymentHash}
variable {amount : ℤ} {t : Timestamp}

/-- What `send_payment` may do. -/
abbrev Sends (request : SendPaymentRequest) (o : Op) : Prop :=
  mayPerform (.sendPayment request) o = true

theorem transitionToPending_within : Within (Sends request) past (transitionToPending p k t) := by
  unfold transitionToPending
  split
  next => trivial
  next => trivial
  next pending _ =>
    refine attempt_transact_bind rfl fun updated => ?_
    split
    next => trivial
    next => exact findPayment_bind rfl fun reloaded => by cases reloaded <;> trivial
    next => trivial

theorem failInline_within {reason : FailureReason} :
    Within (Sends request) past (failInline p k amount reason t) := by
  unfold failInline
  split
  next => trivial
  next => exact commitFailed_within rfl fun _ _ => rfl

theorem settleInline_within {preimage : Preimage} {fees : MilliSatoshi} {hops : List Hop} :
    Within (Sends request) past (settleInline p k amount preimage fees hops t) := by
  unfold settleInline
  split
  next => trivial
  next => exact commitCompleted_within rfl fun _ _ => rfl

theorem dispatch_within {answer : Except LndError SendPaymentResponse} :
    Within (Sends request) past (dispatch p k amount answer t) := by
  unfold dispatch
  split
  next => exact failInline_within
  next resp =>
    split_ifs
    · exact failInline_within
    · split
      next => exact transitionToPending_within
      next => trivial
      next => exact settleInline_within
      next => exact failInline_within

theorem sendPaymentCall_within {params : SendPaymentParams} :
    Within (Sends request) past (LndClient.sendPayment params) := by
  unfold LndClient.sendPayment
  refine fallible_lift ?_
  split
  next => trivial
  next feeLimitMsat _ =>
    refine ⟨rfl, fun opened => ?_⟩
    cases opened with
    | error status => trivial
    | ok _ => exact ⟨rfl, fun _ => trivial⟩

theorem authorizeAndSend_within {boltInvoice : BoltInvoice} {amountMsat maxFeeMsat : MilliSatoshi} :
    Within (Sends request) past
      (authorizeAndSend request k boltInvoice amountMsat maxFeeMsat p t) := by
  unfold authorizeAndSend
  refine authorizeSpend_bind _ rfl fun answer => ?_
  split
  next => exact failInline_within
  next resp _ =>
    split_ifs
    · exact failInline_within
    · exact fallible_bind_any sendPaymentCall_within fun _ _ => dispatch_within

theorem sendOverLightning_within {decoded : DecodedInvoice} :
    Within (Sends request) past (sendOverLightning request decoded t) := by
  unfold sendOverLightning
  split
  next => trivial
  next amountMsat _ =>
    refine newUuid_bind rfl fun id => ofExcept_bind (fun n _ => ?_) fun _ _ => trivial
    refine now_bind rfl fun utcNow => transact_bind rfl (fun payment => ?_) fun _ => trivial
    exact authorizeAndSend_within

theorem authorizeAndTransfer_within {n : NewPayment} {recipient : Invoice} :
    Within (Sends request) past (authorizeAndTransfer request n k recipient t) := by
  unfold authorizeAndTransfer
  refine authorizeSpend_bind _ rfl fun answer => ?_
  split
  next => trivial
  next resp _ =>
    split_ifs
    · trivial
    · refine cancelInvoice_bind rfl ?_ fun _ => trivial
      refine now_bind rfl fun utcNow => ?_
      exact transact_last (b := .transfer n _ _ _ _) rfl fun _ => trivial

theorem sendIntraledgerPayment_within {decoded : DecodedInvoice} {recipient : Invoice} :
    Within (Sends request) past (sendIntraledgerPayment request decoded recipient t) := by
  unfold sendIntraledgerPayment
  refine checkWalletOwnership_bind rfl ?_ fun _ => trivial
  refine ofExcept_bind (fun _ _ => ?_) fun _ _ => trivial
  refine newUuid_bind rfl fun id => ofExcept_bind (fun n _ => ?_) fun _ _ => trivial
  exact authorizeAndTransfer_within

theorem sendPayment_within {crates : Crates} :
    Within (Sends request) past (sendPayment crates request) := by
  unfold sendPayment
  refine now_bind rfl fun t => checkWalletOwnership_bind rfl ?_ fun _ => trivial
  refine fallible_bind_any ?_ fun past' decoded => ?_
  · unfold decodeBolt11
    split
    next => trivial
    next invoice _ =>
      refine now_bind rfl fun systemNow => ?_
      split_ifs <;> trivial
  · refine ⟨rfl, fun recipient => ?_⟩
    cases recipient with
    | error e => trivial
    | ok found =>
        cases found with
        | some recipient => exact sendIntraledgerPayment_within
        | none => exact sendOverLightning_within

end

section
variable {past : Calls} {t : Timestamp}

theorem handlePaymentUpdate_within (u : PaymentUpdate) :
    Within (fun o => mayPerform (.handlePaymentUpdate u) o = true) past
      (handlePaymentUpdate u) := by
  unfold handlePaymentUpdate
  refine findPayment_bind rfl fun found => ?_
  split
  next => trivial
  next => trivial
  next payment =>
    refine now_bind rfl fun t => ?_
    split
    next => trivial
    next => trivial
    next => exact fallible_bind_any (commitCompleted_within rfl fun _ _ => rfl) fun _ _ => trivial
    next => exact fallible_bind_any (commitFailed_within rfl fun _ _ => rfl) fun _ _ => trivial

variable {idle : ℕ} {limit : ℤ}

/-- What `sweep_orphan_holds` may do. -/
abbrev Sweeps (idle : ℕ) (limit : ℤ) (o : Op) : Prop :=
  mayPerform (.sweepOrphanHolds idle limit) o = true

theorem reconcileLookup_within {p : Payment} {k : PaymentHash}
    {lookup : Except LndError SendPaymentResponse} :
    Within (Sweeps idle limit) past (reconcileLookup p k lookup t) := by
  unfold reconcileLookup
  split
  next => trivial
  next => trivial
  next resp =>
    split
    next => trivial
    next => trivial
    next => exact fallible_bind_any (commitCompleted_within rfl fun _ _ => rfl) fun _ _ => trivial
    next => exact fallible_bind_any (commitFailed_within rfl fun _ _ => rfl) fun _ _ => trivial

theorem lookupPaymentCall_within {k : PaymentHash} :
    Within (Sweeps idle limit) past (LndClient.lookupPayment k) := by
  unfold LndClient.lookupPayment
  refine fallible_lift ⟨rfl, fun opened => ?_⟩
  cases opened with
  | error status => trivial
  | ok _ => exact ⟨rfl, fun _ => trivial⟩

theorem reconcileOrphanHold_within {k : PaymentHash} :
    Within (Sweeps idle limit) past (reconcileOrphanHold k) := by
  unfold reconcileOrphanHold
  refine findPayment_bind rfl fun found => ofExcept_bind (fun payment _ => ?_) fun _ _ => trivial
  split_ifs
  · trivial
  · refine now_bind rfl fun t => perform_bind rfl fun elapsed => ?_
    split_ifs
    · trivial
    · exact fallible_bind_any lookupPaymentCall_within fun _ _ => reconcileLookup_within

/-- By induction on the hashes that are left. -/
theorem sweepStranded_within (hashes : List PaymentHash) (reconciled : ℕ) :
    Within (Sweeps idle limit) past (sweepStranded hashes reconciled) := by
  induction hashes generalizing past reconciled with
  | nil => trivial
  | cons h hs ih =>
      have hone : Within (Sweeps idle limit) past (reconcileOrphanHold h) :=
        reconcileOrphanHold_within
      refine fallible_bind_any (fallible_attempt (Emits.mono (fun _ _ _ => trivial) hone))
        fun past' outcome => ?_
      split <;> exact ih _

theorem sweepOrphanHolds_within :
    Within (Sweeps idle limit) past (sweepOrphanHolds idle limit) := by
  unfold sweepOrphanHolds
  refine now_bind rfl fun utcNow => ⟨rfl, fun stranded => ?_⟩
  cases stranded with
  | error e => trivial
  | ok hashes => exact sweepStranded_within hashes 0

end

/-! ### The receiving side -/

theorem createInvoice_within {past : Calls} {crates : Crates} {mode : Mode}
    (request : NewInvoiceRequest) :
    Within (fun o => mayPerform (.createInvoice request) o = true) past
      (createInvoice crates mode request) := by
  unfold createInvoice
  refine now_bind rfl fun t => checkWalletOwnership_bind rfl ?_ fun _ => trivial
  refine perform_bind rfl fun preimage => ofExcept_bind (fun externalId _ => ?_) fun _ _ => trivial
  unfold LndClient.addHoldInvoice
  split
  next => trivial
  next value _ =>
    refine ⟨rfl, fun added => ?_⟩
    cases added with
    | error st => trivial
    | ok text =>
        refine newUuid_bind rfl fun id => ofExcept_bind (fun n _ => ?_) fun _ _ => trivial
        split
        next => trivial
        next => exact transact_bind rfl (fun i => ⟨rfl, fun _ => trivial⟩) fun _ => trivial

section
variable {past : Calls} {i : Invoice} {k : PaymentHash} {amt : MilliSatoshi}

/-- What the receiving side may do. -/
abbrev Receives (o : Op) : Prop := receivingMay o = true

/-- The panic is out of reach, as the invoice has the amount that its state calls for. -/
theorem commitSettle_within (h : Parked i) : Within Receives past (commitSettle i k amt) := by
  refine commitSettle_calls (fun _ => rfl) (fun t settled _ hs hnone => ?_) fun _ _ _ _ _ _ => rfl
  obtain ⟨m, hm, -⟩ := settle_parked h hs
  cases hnone.symm.trans hm

theorem commitCancel_within {reason : CancelReason} :
    Within Receives past (commitCancel i k reason amt) :=
  commitCancel_calls (fun _ => rfl) fun _ _ _ _ => rfl

theorem transitionToHeld_within {t : Timestamp} :
    Within Receives past (transitionToHeld i k amt t) :=
  transitionToHeld_calls (fun _ => rfl) fun _ _ _ => rfl

theorem applyLndState_within (h : Parked i) (u : InvoiceUpdate) :
    Within Receives past (applyLndState i k u) :=
  applyLndState_calls (fun _ => rfl) (fun _ => commitSettle_within h)
    (fun _ => commitSettle_within h) fun _ => commitCancel_within

/-- As long as the database hands out invoices as they are hydrated. -/
abbrev WithinParked {α : Type} (P : Op → Prop) (past : Calls) (use : App α) : Prop :=
  Emits (S := gatewaySignature) (Given ParkedAnswer fun _ => P) (fun _ _ => True) past use.run

theorem Within.parked {α : Type} {P : Op → Prop} {use : App α} (h : Within P past use) :
    WithinParked P past use :=
  Emits.weaken (fun _ _ ho _ => ho) h

theorem resolveHeld_within : WithinParked Receives past (resolveHeld k) := by
  refine resolveHeld_calls (fun _ => rfl) (fun _ _ => rfl) fun i m u _ _ => ?_
  refine emits_given fun hpast => ?_
  -- The invoice is the answer to the first call.
  have hi : Parked i := hpast ⟨.findInvoice k, .ok i⟩ (by simp) k i rfl
  exact Within.parked (applyLndState_within hi u)

theorem handleInvoiceUpdate_within (u : InvoiceUpdate) :
    WithinParked Receives past (handleInvoiceUpdate u) :=
  handleInvoiceUpdate_calls (fun _ _ => rfl) (fun _ => rfl)
    (fun _ _ _ => Within.parked transitionToHeld_within) (fun _ _ => resolveHeld_within)
    fun _ _ _ => Within.parked commitCancel_within

end

/-! ### All use cases -/

theorem program_within (g : Deployment) (entry : Entry) :
    Emits (S := gatewaySignature) (Given ParkedAnswer fun _ o => mayPerform entry o = true)
      (fun _ _ => True) [] (program g entry) := by
  have outcome {α : Type} {use : App α} {wrap : Except AppError α → Outcome}
      (h : WithinParked (fun o => mayPerform entry o = true) [] use) :
      Emits (S := gatewaySignature) (Given ParkedAnswer fun _ o => mayPerform entry o = true)
        (fun _ _ => True) [] (use.run >>= fun r => pure (wrap r)) :=
    emits_bind (Emits.mono (fun _ _ _ => trivial) h)
  cases entry with
  | sendPayment request => exact outcome (Within.parked sendPayment_within)
  | handlePaymentUpdate u => exact outcome (Within.parked (handlePaymentUpdate_within u))
  | sweepOrphanHolds idle limit => exact outcome (Within.parked sweepOrphanHolds_within)
  | createInvoice request => exact outcome (Within.parked (createInvoice_within request))
  | handleInvoiceUpdate u => exact outcome (handleInvoiceUpdate_within u)
  | settleHoldInvoice k => exact outcome resolveHeld_within
  | reconcileHeldInvoice k => exact outcome resolveHeld_within

/-- In every run over every database, whatever its rows are and however the peers answer:
what a task is about to call is within the authority of its use case, so no task comes to
a panic; and the step that makes the call leaves every part of the world alone that its
use case may not change. -/
theorem use_cases_keep_to_authority (g : Deployment) (D : Discipline (gateway g)) (w : World)
    (es : List (Event (gateway g))) (s : Pool (gateway g)) (hrun : Runs D ⟨w, []⟩ es s) (i : ℕ)
    (t : Task (gateway g)) (ht : s.tasks[i]? = some t) :
    (∀ o k, t.rest = some (.call o k) → mayPerform t.entry o = true) ∧
      (∀ message k, t.rest ≠ some (.call (.panic message) k)) ∧
      ∀ c u, s.next (.step i c) = some u → ∀ x : Part, mayChange t.entry x = false →
        x.Same s.world u.world := by
  have hmay (o : Op) (k : o.Ans → Program gatewaySignature Outcome)
      (hr : t.rest = some (.call o k)) : mayPerform t.entry o = true :=
    justified_next (program_within g) (fun _ _ _ _ _ hx => exec_parked hx) hrun
      (List.mem_of_getElem? ht) hr
  refine ⟨hmay, fun message k hr => ?_, fun c u hu x hx => ?_⟩
  · have hpanic := hmay (.panic message) k hr
    cases (mayPerform_panic t.entry message).symm.trans hpanic
  · rcases next_cases hu with ⟨_, he, -⟩ | ⟨j, c', t', o, k, a, w', he, ht', hr, hexec, rfl⟩ |
      ⟨_, _, he, -⟩ | ⟨he, -⟩
    · cases he
    · cases he
      cases ht.symm.trans ht'
      refine exec_same hexec ?_
      by_contra hchanges
      have hmayChange := mayChange_of_changes (hmay o k hr) (Bool.of_not_eq_false hchanges)
      rw [hx] at hmayChange
      cases hmayChange
    · cases he
    · cases he

/-- LND has settled the sample invoice, and the listener's task is about to write it. -/
def settling : List (Event (gateway Sample.deployment)) :=
  Sample.issueInvoice 0 ++
    [.env (.acceptHtlc Sample.hash),
      .spawn (.handleInvoiceUpdate (Sample.invoiceUpdate .accepted 250000000)),
      .step 1 (.served Sample.noon), .step 1 (.clock Sample.noon), .step 1 (.clock Sample.noon),
      .step 1 (.served Sample.noon), .step 1 (.served Sample.noon),
      .step 1 (.lndInvoice (.ok ⟨Sample.hash.bytes, 3, 250000000, []⟩)),
      .step 1 (.lndUnit true (.ok ())), .step 1 (.clock Sample.noon), .step 1 (.clock Sample.noon)]

theorem use_cases_keep_to_authority_settling :
    ∃ s u, Runs {} (boot Sample.deployment) settling s ∧
      s.next (.step 1 (.served Sample.noon)) = some u ∧
      u.world.db.outbox.length = s.world.db.outbox.length + 1 ∧
      u.world.db.payments = s.world.db.payments ∧ u.world.authorized = s.world.authorized := by
  obtain ⟨s, hrun, hs⟩ := exists_run_of_play {} (boot Sample.deployment) settling
    (fun s => s.tasks[1]?.any fun t => (s.next (.step 1 (.served Sample.noon))).any fun u =>
      mayChange t.entry .payments = false ∧ mayChange t.entry .symphony = false ∧
        u.world.db.outbox.length = s.world.db.outbox.length + 1) (by decide +kernel)
  obtain ⟨t, ht, hs⟩ := (Option.any_eq_true _ _).mp hs
  obtain ⟨u, hu, hs⟩ := (Option.any_eq_true _ _).mp hs
  obtain ⟨hpayments, hsymphony, houtbox⟩ := of_decide_eq_true hs
  obtain ⟨-, -, hsame⟩ :=
    use_cases_keep_to_authority Sample.deployment {} World.empty settling s hrun 1 t ht
  exact ⟨s, u, hrun, hu, houtbox, hsame _ u hu .payments hpayments,
    hsame _ u hu .symphony hsymphony⟩

end LightningGateway.UseCaseAuthority
