import LightningGateway.EventWords

/-!
# What the guards of the aggregates let through

A payment's commands are documented by state: in which state they take effect, which
state they absorb as a repetition, and that everything else is an error. Three of
them look for their own event in the log before they look at the state, so a log that
holds the event and has moved on is answered as a repetition. A reversed payment is
such a log, and `settle` is the only command it misleads.

Hydration has no guard at all. It collects fields from whatever event carries them
and only asks at the end whether they are there, so the event of creation is
accepted in any position.
-/
namespace LightningGateway.AggregateGuards
open Primitives EventTables EventSourcing PaymentAggregate InvoiceAggregate AggregateMethods
open PaymentLogs EventWords

/-! ### Answers of a payment's commands -/

/-- The answer the commands' comments give for each state. -/
def documented (s : PaymentState) : PaymentCommand → Except PaymentError Idempotent
  | .markPending _ =>
      match s with
      | .initiated => .ok .executed
      | .pending => .ok .alreadyApplied
      | _ => .error (.invalidStateTransition s "mark_pending")
  | .settle .. =>
      match s with
      | .initiated | .pending => .ok .executed
      | .completed => .ok .alreadyApplied
      | _ => .error (.invalidStateTransition s "settle")
  | .fail .. =>
      match s with
      | .initiated | .pending => .ok .executed
      | .failed => .ok .alreadyApplied
      | _ => .error (.invalidStateTransition s "fail")
  | .reverse .. =>
      match s with
      | .completed => .ok .executed
      | .reversed => .ok .alreadyApplied
      | _ => .error (.invalidStateTransition s "reverse")

def isSettle : PaymentCommand → Bool
  | .settle .. => true
  | _ => false

section
variable {n : NewPayment} {p : Payment}

theorem any_isReversed {log : List PaymentEvent} {s : PaymentState} (h : PaymentLog n log s) :
    log.any PaymentEvent.isReversed = true ↔ s = .reversed := by
  induction h with
  | initiated => simp [PaymentEvent.isReversed, NewPayment.initiatedEvent]
  | pending t _ ih => simpa [PaymentEvent.isReversed] using ih
  | completed t p f o hs _ ih =>
      rcases hs with rfl | rfl <;> simpa [PaymentEvent.isReversed] using ih
  | failed t r hs _ ih => rcases hs with rfl | rfl <;> simpa [PaymentEvent.isReversed] using ih
  | reversed => simp [PaymentEvent.isReversed]

/-- In a reachable log the pending event is there whenever the state says so. -/
theorem markPending_answer (h : Tracks n p) (t : Timestamp) :
    ((PaymentCommand.markPending t).method.on p).1 = documented p.state (.markPending t) := by
  rw [PaymentCommand.method_on]
  cases hs : p.state <;>
    simp [PaymentCommand.function, Payment.markPending, Method.outcome, documented, hs,
      h.log.any_isPending.2]

/-- The answer by state of a command that scans the log first. -/
theorem transition_answer {applied : PaymentEvent → Bool} {allowed : Payment → Bool}
    {refuse : Payment → PaymentError} {event : PaymentEvent} {update : Payment → Payment} :
    ((transition paymentSourcing applied allowed refuse event update).on p).1 =
      if p.events.iterAll.any applied then .ok .alreadyApplied
      else if allowed p then .ok .executed else .error (refuse p) := by
  rw [transition_on, apply_ite Prod.fst, apply_ite Prod.fst]
  rfl

theorem settle_answer (h : Tracks n p) (x : Preimage) (f : MilliSatoshi) (hops : List Hop)
    (t : Timestamp) :
    ((PaymentCommand.settle x f hops t).method.on p).1 =
      if p.state = .reversed then .ok .alreadyApplied
      else documented p.state (.settle x f hops t) := by
  refine transition_answer.trans ?_
  simp only [h.log.any_isCompleted]
  cases hs : p.state <;>
    simp [documented, PaymentMethods.isLive, PaymentMethods.invalidTransition, hs]

theorem fail_answer (h : Tracks n p) (r : FailureReason) (t : Timestamp) :
    ((PaymentCommand.fail r t).method.on p).1 = documented p.state (.fail r t) := by
  refine transition_answer.trans ?_
  simp only [h.log.any_isFailed]
  cases hs : p.state <;>
    simp [documented, PaymentMethods.isLive, PaymentMethods.invalidTransition, hs]

theorem reverse_answer (h : Tracks n p) (r : String) (t : Timestamp) :
    ((PaymentCommand.reverse r t).method.on p).1 = documented p.state (.reverse r t) := by
  refine transition_answer.trans ?_
  simp only [any_isReversed h.log]
  cases hs : p.state <;> simp [documented, PaymentMethods.invalidTransition, hs]

/-- A reversed payment answers `settle` as a repetition; that is the only deviation. -/
theorem answers_iff (h : Tracks n p) (c : PaymentCommand) :
    (c.method.on p).1 = documented p.state c ↔ ¬(p.state = .reversed ∧ isSettle c = true) := by
  cases c with
  | markPending t => simp [markPending_answer h, isSettle]
  | fail r t => simp [fail_answer h, isSettle]
  | reverse r t => simp [reverse_answer h, isSettle]
  | settle x f hops t =>
      rw [settle_answer h]
      split_ifs with hs
      · simp [hs, documented, isSettle]
      · simp [hs]

end

/-- After any commands and restarts, each command answers as documented unless it is
`settle` and the payment is reversed. -/
theorem commands_answer_as_documented_iff (n : NewPayment) :
    ∃ p₀, Payment.tryFromEvents n.intoEvents = .ok p₀ ∧
      ∀ acts : List (Act PaymentCommand),
        ∃ p, live paymentSourcing PaymentCommand.method p₀ acts = .ok p ∧
          ∀ c : PaymentCommand, (c.method.on p).1 = documented p.state c ↔
            ¬(p.state = .reversed ∧ isSettle c = true) := by
  obtain ⟨p₀, hp₀, ht⟩ := newPayment_tracks n
  refine ⟨p₀, hp₀, fun acts => ?_⟩
  obtain ⟨p, hp, hlog⟩ := live_invariant (S := paymentSourcing)
    (fun c p => PaymentCommand.tracks (n := n) c) (fun p => reload_payment) ht acts
  exact ⟨p, hp, fun c => answers_iff hlog c⟩

def someCreation : NewPayment where
  id := ⟨List.replicate 16 21, rfl⟩
  paymentHash := ⟨List.replicate 32 27, rfl⟩
  walletId := ⟨⟨List.replicate 16 22, rfl⟩⟩
  amountMsat := ⟨1000⟩
  maxFeeMsat := ⟨1000⟩
  boltInvoice := ⟨"lnbc1"⟩
  destination := "02"
  initiatedAt := ⟨0⟩

def someSettle : PaymentCommand := .settle ⟨List.replicate 32 29, rfl⟩ ⟨50⟩ [] ⟨2⟩

/-- Settled, reversed, and then settled again without an error. -/
theorem settle_after_reversal :
    ∃ p₀ p, Payment.tryFromEvents someCreation.intoEvents = .ok p₀ ∧
      live paymentSourcing PaymentCommand.method p₀
        [.command someSettle, .command (.reverse "dispute" ⟨1⟩)] = .ok p ∧
      p.state = .reversed ∧ (someSettle.method.on p).1 = .ok .alreadyApplied ∧
      documented p.state someSettle = .error (.invalidStateTransition .reversed "settle") ∧
      (someSettle.method.on p).1 ≠ documented p.state someSettle :=
  ⟨_, _, rfl, rfl, rfl, rfl, rfl, by rintro ⟨⟩⟩

/-! ### Logs that hydrate -/

/-- What the comments on hydration say about a log: it is accepted when its first event
is the one of creation, and otherwise refused with an uninitialized field. -/
def RejectsCorrupt {I E A : Type} (hydrate : EntityEvents I E → Except FindError A)
    (origin : E → Bool) (es : EntityEvents I E) : Prop :=
  ((∃ a, hydrate es = .ok a) ↔ es.iterAll.head?.any origin = true) ∧
    (es.iterAll.head?.any origin = false → ∃ field, hydrate es = .error (.hydration field))

section
variable {I E A B : Type}

/-- What the origin establishes and every event keeps holds once the origin occurred. -/
theorem foldl_established {apply : B → E → B} {origin : E → Bool} (filled : B → Prop)
    (happly : ∀ b e, origin e = true ∨ filled b → filled (apply b e)) {b : B} {log : List E}
    (h : log.any origin = true ∨ filled b) : filled (log.foldl apply b) := by
  induction log generalizing b with
  | nil => simpa using h
  | cons e log ih =>
      rw [List.any_cons, Bool.or_eq_true] at h
      refine ih ?_
      rcases h with (he | hlog) | hb
      · exact .inr (happly b e (.inl he))
      · exact .inl hlog
      · exact .inr (happly b e (.inr hb))

/-- What only the origin changes is unchanged without it. -/
theorem foldl_untouched {V : Type} {apply : B → E → B} {origin : E → Bool} (field : B → V)
    (happly : ∀ b e, origin e = false → field (apply b e) = field b) {b : B} {log : List E}
    (h : log.any origin = false) : field (log.foldl apply b) = field b := by
  induction log generalizing b with
  | nil => rfl
  | cons e log ih =>
      rw [List.any_cons, Bool.or_eq_false_iff] at h
      exact (ih h.2).trans (happly b e h.1)

/-- A hydration that accepts the origin anywhere keeps the comments' promise for the
logs that have it in front or not at all. -/
theorem rejectsCorrupt_iff {hydrate : EntityEvents I E → Except FindError A} {origin : E → Bool}
    {es : EntityEvents I E} {field : String}
    (hok : es.iterAll.any origin = true → ∃ a, hydrate es = .ok a)
    (herror : es.iterAll.any origin = false → hydrate es = .error (.hydration field)) :
    RejectsCorrupt hydrate origin es ↔
      es.iterAll.head?.any origin = true ∨ es.iterAll.any origin = false := by
  constructor
  · intro h
    cases hany : es.iterAll.any origin with
    | false => exact .inr rfl
    | true => exact .inl (h.1.mp (hok hany))
  · rintro (hhead | hnone)
    · have hany : es.iterAll.any origin = true := by
        cases hl : es.iterAll with
        | nil => rw [hl] at hhead; cases hhead
        | cons e log =>
            rw [hl] at hhead
            exact List.any_eq_true.mpr ⟨e, List.mem_cons_self, hhead⟩
      exact ⟨⟨fun _ => hhead, fun _ => hok hany⟩, fun hf => by rw [hhead] at hf; cases hf⟩
    · have hhead : es.iterAll.head?.any origin = false := by
        cases hl : es.iterAll with
        | nil => rfl
        | cons e log =>
            rw [hl, List.any_cons, Bool.or_eq_false_iff] at hnone
            exact hnone.1
      refine ⟨⟨?_, fun h => by rw [hhead] at h; cases h⟩, fun _ => ⟨field, herror hnone⟩⟩
      rintro ⟨a, ha⟩
      rw [herror hnone] at ha
      cases ha

end

def isCreated : InvoiceEvent → Bool
  | .created .. => true
  | _ => false

def isInitiated : PaymentEvent → Bool
  | .initiated .. => true
  | _ => false

theorem invoice_hydrates {es : EntityEvents InvoiceId InvoiceEvent}
    (h : es.iterAll.any isCreated = true) : ∃ i, Invoice.tryFromEvents es = .ok i := by
  refine foldl_established (fun b : InvoiceBuilder => ∃ i, b.build es = .ok i)
    (fun b e hb => ?_) (.inl h)
  rcases hb with he | ⟨i, hi⟩
  · cases e with
    | created => exact ⟨_, rfl⟩
    | htlcHeld | settled | settledIntraledger | canceled => cases he
  · exact ⟨_, buildInvoice_apply e hi rfl⟩

theorem invoice_uninitialized {es : EntityEvents InvoiceId InvoiceEvent}
    (h : es.iterAll.any isCreated = false) :
    Invoice.tryFromEvents es = .error (.hydration "payment_hash") := by
  have hhash : (es.iterAll.foldl InvoiceBuilder.apply {}).paymentHash = none :=
    foldl_untouched InvoiceBuilder.paymentHash
      (fun b e he => by cases e <;> first | rfl | cases he) h
  unfold Invoice.tryFromEvents InvoiceBuilder.build
  rw [hhash]
  rfl

theorem payment_hydrates {es : EntityEvents PaymentId PaymentEvent}
    (h : es.iterAll.any isInitiated = true) : ∃ p, Payment.tryFromEvents es = .ok p := by
  refine foldl_established (fun b : PaymentBuilder => ∃ p, b.build es = .ok p)
    (fun b e hb => ?_) (.inl h)
  rcases hb with he | ⟨p, hp⟩
  · cases e with
    | initiated => exact ⟨_, rfl⟩
    | pending | completed | failed | reversed => cases he
  · exact ⟨_, buildPayment_apply e hp rfl⟩

theorem payment_uninitialized {es : EntityEvents PaymentId PaymentEvent}
    (h : es.iterAll.any isInitiated = false) :
    Payment.tryFromEvents es = .error (.hydration "payment_hash") := by
  have hhash : (es.iterAll.foldl PaymentBuilder.apply {}).paymentHash = none :=
    foldl_untouched PaymentBuilder.paymentHash
      (fun b e he => by cases e <;> first | rfl | cases he) h
  unfold Payment.tryFromEvents PaymentBuilder.build
  rw [hhash]
  rfl

/-- Hydration rejects corrupt logs as its comments say exactly for the logs that start
with the event of creation or do not hold it at all. -/
theorem hydration_rejects_corrupt_iff (es : EntityEvents InvoiceId InvoiceEvent)
    (ps : EntityEvents PaymentId PaymentEvent) :
    (RejectsCorrupt Invoice.tryFromEvents isCreated es ↔
      es.iterAll.head?.any isCreated = true ∨ es.iterAll.any isCreated = false) ∧
    (RejectsCorrupt Payment.tryFromEvents isInitiated ps ↔
      ps.iterAll.head?.any isInitiated = true ∨ ps.iterAll.any isInitiated = false) :=
  ⟨rejectsCorrupt_iff invoice_hydrates invoice_uninitialized,
    rejectsCorrupt_iff payment_hydrates payment_uninitialized⟩

def someInvoiceCreation : NewInvoice where
  id := ⟨List.replicate 16 23, rfl⟩
  paymentHash := ⟨List.replicate 32 27, rfl⟩
  paymentPreimage := ⟨List.replicate 32 29, rfl⟩
  walletId := ⟨⟨List.replicate 16 22, rfl⟩⟩
  amountMsat := some ⟨1000⟩
  expiryAt := ⟨10⟩
  boltInvoice := ⟨"lnbc1"⟩
  externalId := "order-1"
  createdAt := ⟨0⟩

/-- A held HTLC before the creation, and the log is accepted. -/
theorem misplaced_creation_hydrates :
    let es : EntityEvents InvoiceId InvoiceEvent :=
      ⟨someInvoiceCreation.id, [.htlcHeld ⟨1⟩ ⟨1000⟩, someInvoiceCreation.createdEvent], []⟩
    (∃ i, Invoice.tryFromEvents es = .ok i) ∧ ¬RejectsCorrupt Invoice.tryFromEvents isCreated es :=
  ⟨⟨_, rfl⟩, fun h => by cases h.1.mp ⟨_, rfl⟩⟩

end LightningGateway.AggregateGuards
