import LightningGateway.EventSourcing
import LightningGateway.PaymentAggregate
import LightningGateway.InvoiceAggregate

/-!
# The command methods of the two aggregates

The commands again, this time as the methods the source has: they work on the
aggregate in place, one assignment after the other. Each of them agrees with the
function of the same name, and each updates exactly the fields that hydration
rebuilds from the event it pushes. So an aggregate that has been through any
commands is the one its log hydrates to.
-/
namespace LightningGateway.AggregateMethods
open Primitives EventTables EventSourcing PaymentAggregate InvoiceAggregate

/-! ### Hydration, one event at a time -/

/-- The fields of a payment after one more event. -/
def projectPayment (p : Payment) : PaymentEvent → Payment
  | .initiated paymentHash walletId amountMsat maxFeeMsat _ _ initiatedAt =>
      { p with paymentHash, walletId, amountMsat, maxFeeMsat, initiatedAt }
  | .pending _ => { p with state := .pending }
  | .completed settledAt paymentPreimage feesPaidMsat _ =>
      { p with
        state := .completed
        settledAt := some settledAt
        paymentPreimage := some paymentPreimage
        feesPaidMsat := some feesPaidMsat }
  | .failed _ _ => { p with state := .failed }
  | .reversed _ _ => { p with state := .reversed }

/-- The fields of an invoice after one more event. -/
def projectInvoice (i : Invoice) : InvoiceEvent → Invoice
  | .created paymentHash paymentPreimage walletId amountMsat expiryAt boltInvoice externalId
      createdAt =>
      { i with
        paymentHash, paymentPreimage, walletId, amountMsat, expiryAt, boltInvoice, externalId
        createdAt }
  | .htlcHeld _ htlcAmountMsat =>
      { i with state := .held, heldAmountMsat := some htlcAmountMsat }
  | .settled _ | .settledIntraledger _ => { i with state := .settled }
  | .canceled _ reason => { i with state := .canceled, canceledReason := some reason }

theorem needPayment_bind {α β : Type} {field : String} {o : Option α} {k : α → Except FindError β}
    {b : β} : (PaymentBuilder.build.need field o >>= k) = .ok b ↔ ∃ a, o = some a ∧ k a = .ok b := by
  cases o with
  | none => simp [PaymentBuilder.build.need, bind, Except.bind]
  | some a => simp [PaymentBuilder.build.need, bind, Except.bind]

theorem needInvoice_bind {α β : Type} {field : String} {o : Option α} {k : α → Except FindError β}
    {b : β} : (InvoiceBuilder.build.need field o >>= k) = .ok b ↔ ∃ a, o = some a ∧ k a = .ok b := by
  cases o with
  | none => simp [InvoiceBuilder.build.need, bind, Except.bind]
  | some a => simp [InvoiceBuilder.build.need, bind, Except.bind]

/-- A builder that has its fields builds the same payment over any events of the
same identifier. -/
theorem buildPayment_move {b : PaymentBuilder} {es es' : EntityEvents PaymentId PaymentEvent}
    {p : Payment} (h : b.build es = .ok p) (hid : es'.id = es.id) :
    b.build es' = .ok { p with events := es' } := by
  simp only [PaymentBuilder.build, needPayment_bind] at h ⊢
  obtain ⟨a, ha, w, hw, m, hm, f, hf, i, hi, hp⟩ := h
  cases hp
  exact ⟨a, ha, w, hw, m, hm, f, hf, i, hi, by rw [hid]; rfl⟩

theorem buildPayment_apply {b : PaymentBuilder} {es es' : EntityEvents PaymentId PaymentEvent}
    {p : Payment} (e : PaymentEvent) (h : b.build es = .ok p) (hid : es'.id = es.id) :
    (b.apply e).build es' = .ok { projectPayment p e with events := es' } := by
  simp only [PaymentBuilder.build, needPayment_bind] at h ⊢
  obtain ⟨a, ha, w, hw, m, hm, f, hf, i, hi, hp⟩ := h
  cases hp
  cases e with
  | initiated => exact ⟨_, rfl, _, rfl, _, rfl, _, rfl, _, rfl, by rw [hid]; rfl⟩
  | pending | completed | failed | reversed =>
      exact ⟨a, ha, w, hw, m, hm, f, hf, i, hi, by rw [hid]; rfl⟩

theorem buildInvoice_move {b : InvoiceBuilder} {es es' : EntityEvents InvoiceId InvoiceEvent}
    {i : Invoice} (h : b.build es = .ok i) (hid : es'.id = es.id) :
    b.build es' = .ok { i with events := es' } := by
  simp only [InvoiceBuilder.build, needInvoice_bind] at h ⊢
  obtain ⟨a, ha, p, hp, w, hw, m, hm, x, hx, o, ho, d, hd, c, hc, hi⟩ := h
  cases hi
  exact ⟨a, ha, p, hp, w, hw, m, hm, x, hx, o, ho, d, hd, c, hc, by rw [hid]; rfl⟩

theorem buildInvoice_apply {b : InvoiceBuilder} {es es' : EntityEvents InvoiceId InvoiceEvent}
    {i : Invoice} (e : InvoiceEvent) (h : b.build es = .ok i) (hid : es'.id = es.id) :
    (b.apply e).build es' = .ok { projectInvoice i e with events := es' } := by
  simp only [InvoiceBuilder.build, needInvoice_bind] at h ⊢
  obtain ⟨a, ha, p, hp, w, hw, m, hm, x, hx, o, ho, d, hd, c, hc, hi⟩ := h
  cases hi
  cases e with
  | created =>
      exact ⟨_, rfl, _, rfl, _, rfl, _, rfl, _, rfl, _, rfl, _, rfl, _, rfl, by rw [hid]; rfl⟩
  | htlcHeld | settled | settledIntraledger | canceled =>
      exact ⟨a, ha, p, hp, w, hw, m, hm, x, hx, o, ho, d, hd, c, hc, by rw [hid]; rfl⟩

def paymentSourcing : Sourcing Payment PaymentId PaymentEvent FindError where
  events p := p.events
  place p es := { p with events := es }
  project := projectPayment
  hydrate := Payment.tryFromEvents
  events_place _ _ := rfl
  hydrate_move h hid hlog := by
    unfold Payment.tryFromEvents at h ⊢
    rw [hlog]
    exact buildPayment_move h hid
  hydrate_snoc h hid hlog := by
    unfold Payment.tryFromEvents at h ⊢
    rw [hlog, List.foldl_append]
    exact buildPayment_apply _ h hid

def invoiceSourcing : Sourcing Invoice InvoiceId InvoiceEvent FindError where
  events i := i.events
  place i es := { i with events := es }
  project := projectInvoice
  hydrate := Invoice.tryFromEvents
  events_place _ _ := rfl
  hydrate_move h hid hlog := by
    unfold Invoice.tryFromEvents at h ⊢
    rw [hlog]
    exact buildInvoice_move h hid
  hydrate_snoc h hid hlog := by
    unfold Invoice.tryFromEvents at h ⊢
    rw [hlog, List.foldl_append]
    exact buildInvoice_apply _ h hid

@[simp] theorem paymentSourcing_events (p : Payment) : paymentSourcing.events p = p.events := rfl
@[simp] theorem invoiceSourcing_events (i : Invoice) : invoiceSourcing.events i = i.events := rfl

/-! ### The methods of a payment -/

/-- A command with its arguments. -/
inductive PaymentCommand where
  | markPending (sentAt : Timestamp)
  | settle (paymentPreimage : Preimage) (feesPaidMsat : MilliSatoshi) (routeHops : List Hop)
      (settledAt : Timestamp)
  | fail (failureReason : FailureReason) (failedAt : Timestamp)
  | reverse (reason : String) (reversedAt : Timestamp)
deriving DecidableEq, Repr

namespace PaymentMethods

def isLive (p : Payment) : Bool := p.state = .initiated || p.state = .pending

def invalidTransition (attempted : String) (p : Payment) : PaymentError :=
  .invalidStateTransition p.state attempted

/-- The only method that looks at the state before the log. -/
def markPending (sentAt : Timestamp) : Method Payment PaymentError Idempotent := do
  match (← get).state with
  | .initiated => do
      modify fun p => { p with events := p.events.push (.pending sentAt) }
      modify fun p => { p with state := .pending }
      return .executed
  | .pending => do
      if (← get).events.iterAll.reverse.any PaymentEvent.isPending then
        return .alreadyApplied
      -- Unreachable: a payment is pending only when its log says so.
      modify fun p => { p with events := p.events.push (.pending sentAt) }
      modify fun p => { p with state := .pending }
      return .executed
  | .completed | .failed | .reversed => do
      throw (invalidTransition "mark_pending" (← get))

def settle (paymentPreimage : Preimage) (feesPaidMsat : MilliSatoshi) (routeHops : List Hop)
    (settledAt : Timestamp) : Method Payment PaymentError Idempotent :=
  transition paymentSourcing PaymentEvent.isCompleted isLive (invalidTransition "settle")
    (.completed settledAt paymentPreimage feesPaidMsat routeHops) fun p =>
      { p with
        state := .completed
        feesPaidMsat := some feesPaidMsat
        paymentPreimage := some paymentPreimage
        settledAt := some settledAt }

def fail (failureReason : FailureReason) (failedAt : Timestamp) :
    Method Payment PaymentError Idempotent :=
  transition paymentSourcing PaymentEvent.isFailed isLive (invalidTransition "fail")
    (.failed failedAt failureReason) fun p => { p with state := .failed }

def reverse (reason : String) (reversedAt : Timestamp) : Method Payment PaymentError Idempotent :=
  transition paymentSourcing PaymentEvent.isReversed (fun p => p.state = .completed)
    (invalidTransition "reverse") (.reversed reversedAt reason) fun p =>
      { p with state := .reversed }

end PaymentMethods

def PaymentCommand.method : PaymentCommand → Method Payment PaymentError Idempotent
  | markPending sentAt => PaymentMethods.markPending sentAt
  | settle paymentPreimage feesPaidMsat routeHops settledAt =>
      PaymentMethods.settle paymentPreimage feesPaidMsat routeHops settledAt
  | fail failureReason failedAt => PaymentMethods.fail failureReason failedAt
  | reverse reason reversedAt => PaymentMethods.reverse reason reversedAt

/-- The same command as a function. -/
def PaymentCommand.function (p : Payment) :
    PaymentCommand → Except PaymentError (Idempotent × Payment)
  | markPending sentAt => p.markPending sentAt
  | settle paymentPreimage feesPaidMsat routeHops settledAt =>
      p.settle paymentPreimage feesPaidMsat routeHops settledAt
  | fail failureReason failedAt => p.fail failureReason failedAt
  | reverse reason reversedAt => p.reverse reason reversedAt

theorem markPending_on (sentAt : Timestamp) (p : Payment) :
    (PaymentMethods.markPending sentAt).on p = Method.outcome p (p.markPending sentAt) := by
  unfold PaymentMethods.markPending Payment.markPending
  rw [Method.on_get]
  cases hs : p.state with
  | initiated => rfl
  | pending =>
      simp only
      rw [Method.on_get, List.any_reverse]
      split_ifs <;> rfl
  | completed | failed | reversed =>
      simp [Method.outcome, PaymentMethods.invalidTransition, hs]

theorem not_isLive {p : Payment} :
    p.state ≠ .initiated ∧ p.state ≠ .pending ↔ ¬PaymentMethods.isLive p = true := by
  simp [PaymentMethods.isLive]

/-- Method and function agree, on errors too. -/
theorem PaymentCommand.method_on (c : PaymentCommand) (p : Payment) :
    c.method.on p = Method.outcome p (c.function p) := by
  cases c with
  | markPending t => exact markPending_on t p
  | settle x f hops t =>
      refine (transition_outcome ..).trans ?_
      simp only [function, Payment.settle, not_isLive]
      rfl
  | fail r t =>
      refine (transition_outcome ..).trans ?_
      simp only [function, Payment.fail, not_isLive]
      rfl
  | reverse r t =>
      refine (transition_outcome ..).trans ?_
      simp only [function, Payment.reverse, decide_eq_true_eq]
      rfl

/-- Every payment method updates the fields as hydration does. -/
theorem PaymentCommand.records (c : PaymentCommand) : Records paymentSourcing c.method := by
  cases c with
  | markPending t =>
      intro p
      change (∃ e, (PaymentMethods.markPending t).on p = _) ∨
        ((PaymentMethods.markPending t).on p).1 ≠ _ ∧ ((PaymentMethods.markPending t).on p).2 = _
      rw [markPending_on]
      unfold Payment.markPending
      split
      · exact .inl ⟨.pending t, rfl⟩
      · split_ifs
        · exact .inr ⟨by simp [Method.outcome], rfl⟩
        · exact .inl ⟨.pending t, rfl⟩
      all_goals exact .inr ⟨by simp [Method.outcome], rfl⟩
  | settle | fail | reverse => exact transition_records fun _ => rfl

/-! ### The methods of an invoice -/

inductive InvoiceCommand where
  | markHeld (htlcAmountMsat : MilliSatoshi) (heldAt : Timestamp)
  | settle (settledAt : Timestamp)
  | settleIntraledger (settledAt : Timestamp)
  | cancel (reason : CancelReason) (canceledAt : Timestamp)
deriving DecidableEq, Repr

namespace InvoiceMethods

def invalidTransition (attempted : String) (i : Invoice) : InvoiceError :=
  .invalidStateTransition i.state attempted

def markHeld (htlcAmountMsat : MilliSatoshi) (heldAt : Timestamp) :
    Method Invoice InvoiceError Idempotent :=
  transition invoiceSourcing InvoiceEvent.isHtlcHeld (fun i => i.state = .opened)
    (invalidTransition "mark_held") (.htlcHeld heldAt htlcAmountMsat) fun i =>
      { i with state := .held, heldAmountMsat := some htlcAmountMsat }

def settle (settledAt : Timestamp) : Method Invoice InvoiceError Idempotent :=
  transition invoiceSourcing InvoiceEvent.isSettled (fun i => i.state = .held)
    (invalidTransition "settle") (.settled settledAt) fun i => { i with state := .settled }

def settleIntraledger (settledAt : Timestamp) : Method Invoice InvoiceError Idempotent :=
  transition invoiceSourcing InvoiceEvent.isSettledIntraledger (fun i => i.state = .opened)
    (invalidTransition "settle_intraledger") (.settledIntraledger settledAt) fun i =>
      { i with state := .settled }

def cancel (reason : CancelReason) (canceledAt : Timestamp) :
    Method Invoice InvoiceError Idempotent :=
  transition invoiceSourcing InvoiceEvent.isCanceled
    (fun i => i.state = .opened || i.state = .held) (invalidTransition "cancel")
    (.canceled canceledAt reason) fun i =>
      { i with state := .canceled, canceledReason := some reason }

end InvoiceMethods

def InvoiceCommand.method : InvoiceCommand → Method Invoice InvoiceError Idempotent
  | markHeld htlcAmountMsat heldAt => InvoiceMethods.markHeld htlcAmountMsat heldAt
  | settle settledAt => InvoiceMethods.settle settledAt
  | settleIntraledger settledAt => InvoiceMethods.settleIntraledger settledAt
  | cancel reason canceledAt => InvoiceMethods.cancel reason canceledAt

/-- The same command as a function. -/
def InvoiceCommand.function (i : Invoice) :
    InvoiceCommand → Except InvoiceError (Idempotent × Invoice)
  | markHeld htlcAmountMsat heldAt => i.markHeld htlcAmountMsat heldAt
  | settle settledAt => i.settle settledAt
  | settleIntraledger settledAt => i.settleIntraledger settledAt
  | cancel reason canceledAt => i.cancel reason canceledAt

theorem InvoiceCommand.method_on (c : InvoiceCommand) (i : Invoice) :
    c.method.on i = Method.outcome i (c.function i) := by
  cases c with
  | markHeld a t =>
      refine (transition_outcome ..).trans ?_
      simp only [function, Invoice.markHeld, decide_eq_true_eq]
      rfl
  | settle t =>
      refine (transition_outcome ..).trans ?_
      simp only [function, Invoice.settle, decide_eq_true_eq]
      rfl
  | settleIntraledger t =>
      refine (transition_outcome ..).trans ?_
      simp only [function, Invoice.settleIntraledger, decide_eq_true_eq]
      rfl
  | cancel r t =>
      refine (transition_outcome ..).trans ?_
      simp only [function, Invoice.cancel, Bool.or_eq_true, decide_eq_true_eq, not_or]
      rfl

theorem InvoiceCommand.records (c : InvoiceCommand) : Records invoiceSourcing c.method := by
  cases c <;> exact transition_records fun _ => rfl

/-! ### Hydrated and live -/

theorem newPayment_faithful (n : NewPayment) :
    ∃ p, Payment.tryFromEvents n.intoEvents = .ok p ∧ paymentSourcing.Faithful p :=
  ⟨_, rfl, rfl⟩

theorem newInvoice_faithful (n : NewInvoice) :
    ∃ i, Invoice.tryFromEvents n.intoEvents = .ok i ∧ invoiceSourcing.Faithful i :=
  ⟨_, rfl, rfl⟩

/-- Whatever commands a new aggregate has been through and whatever they returned, its
log hydrates to it, field by field; and a command that does not execute changes neither
the log nor a field. -/
theorem hydration_equals_live :
    (∀ n : NewPayment, ∃ p₀, Payment.tryFromEvents n.intoEvents = .ok p₀ ∧
      ∀ (commands : List PaymentCommand) (es : EntityEvents PaymentId PaymentEvent),
        let p := obey PaymentCommand.method p₀ commands
        es.id = p.events.id → es.iterAll = p.events.iterAll →
          Payment.tryFromEvents es = .ok { p with events := es }) ∧
    (∀ n : NewInvoice, ∃ i₀, Invoice.tryFromEvents n.intoEvents = .ok i₀ ∧
      ∀ (commands : List InvoiceCommand) (es : EntityEvents InvoiceId InvoiceEvent),
        let i := obey InvoiceCommand.method i₀ commands
        es.id = i.events.id → es.iterAll = i.events.iterAll →
          Invoice.tryFromEvents es = .ok { i with events := es }) ∧
    (∀ (c : PaymentCommand) (p : Payment), (c.method.on p).1 ≠ .ok .executed →
      (c.method.on p).2 = p) ∧
    ∀ (c : InvoiceCommand) (i : Invoice), (c.method.on i).1 ≠ .ok .executed →
      (c.method.on i).2 = i := by
  refine ⟨fun n => ?_, fun n => ?_, fun c _ h => Records.unchanged c.records h,
    fun c _ h => Records.unchanged c.records h⟩
  · obtain ⟨p₀, hp₀, hf⟩ := newPayment_faithful n
    refine ⟨p₀, hp₀, fun commands es hid hlog => ?_⟩
    have hlive := faithful_obey PaymentCommand.records hf commands
    exact hlive.rehydrate hid hlog
  · obtain ⟨i₀, hi₀, hf⟩ := newInvoice_faithful n
    refine ⟨i₀, hi₀, fun commands es hid hlog => ?_⟩
    have hlive := faithful_obey InvoiceCommand.records hf commands
    exact hlive.rehydrate hid hlog

end LightningGateway.AggregateMethods
