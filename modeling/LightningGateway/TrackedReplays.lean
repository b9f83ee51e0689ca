import LightningGateway.AggregateMethods
import LightningGateway.GatewayInvariant
import LightningGateway.InputTurns

/-!
# Replays of the payment subscription

LND tells the whole history again whenever the `TrackPayments` stream reconnects, so the
handler meets the end of a payment any number of times, between any number of in-flight
reports, and some of its database calls fail. An update that says how the payment has
ended makes one change, and only if it is due: the payment is live and its log does not
hold that kind of end. After the change it is not due, so everything else is absorbed.
-/
namespace LightningGateway.TrackedReplays
open Primitives EventTables EffectPrograms TaskPools SoloRuns InputTurns EventSourcing
open PaymentAggregate AggregateMethods OutboxRows LndWire GatewayStore StoreSpecs GatewayEffects
open PeerCalls PaymentFlows GatewayMachine GatewayInvariant

/-! ### How a payment ends -/

/-- What a terminal update says, as far as the gateway uses it. -/
inductive Ending where
  | completed (preimage : Preimage) (feesPaidMsat : MilliSatoshi) (routeHops : List Hop)
  | failed (failureReason : FailureReason)
deriving DecidableEq, Repr

namespace Ending

/-- A success without its preimage is an error and says nothing. -/
def ofUpdate (update : PaymentUpdate) : Option Ending :=
  match update.status, update.paymentPreimage with
  | .inFlight, _ => none
  | .succeeded, none => none
  | .succeeded, some preimage => some (.completed preimage update.feesPaidMsat update.routeHops)
  | .failed, _ => some (.failed (update.failureReason.getD
      (.other "LND TrackPayments emitted Failed with no reason")))

def event : Ending → Timestamp → PaymentEvent
  | completed preimage fees hops, t => .completed t preimage fees hops
  | failed reason, t => .failed t reason

def recorded : Ending → PaymentEvent → Bool
  | completed .. => PaymentEvent.isCompleted
  | failed _ => PaymentEvent.isFailed

def outbox : Ending → PaymentHash → ℤ → Timestamp → NewOutboxEvent
  | completed preimage fees hops, h, amountSat, utcNow =>
      completedOutbox h amountSat preimage fees hops utcNow
  | failed reason, h, amountSat, utcNow => failedOutbox h amountSat reason utcNow

def state : Ending → PaymentState
  | completed .. => .completed
  | failed _ => .failed

/-- The helper that writes it. -/
def commit : Ending → Payment → Timestamp → App Payment
  | completed preimage fees hops, p, at_ =>
      commitCompleted p p.paymentHash (asI64 p.amountMsat.wholeSat) preimage fees hops at_
  | failed reason, p, at_ =>
      commitFailed p p.paymentHash (asI64 p.amountMsat.wholeSat) reason at_

/-- The payment is live, and no such end is in its log. -/
def Due (o : Ending) (p : Payment) : Prop :=
  p.events.iterAll.any o.recorded = false ∧ (p.state = .initiated ∨ p.state = .pending)

instance (o : Ending) (p : Payment) : Decidable (o.Due p) := inferInstanceAs (Decidable (_ ∧ _))

variable {o : Ending} {p : Payment}

@[simp] theorem recorded_event (o : Ending) (t : Timestamp) : o.recorded (o.event t) = true := by
  cases o <;> rfl

/-- An end that is due is recorded and published. -/
theorem commit_due (hdue : o.Due p) (t : Timestamp) :
    ∃ p', p'.id = p.id ∧ p'.events = p.events.push (o.event t) ∧ p'.state = o.state ∧
      o.commit p t = (do
        let utcNow ← now
        transact (.payment p' (o.outbox p.paymentHash (asI64 p.amountMsat.wholeSat) utcNow))) := by
  obtain ⟨hlog, hlive⟩ := hdue
  have hany : ¬p.events.iterAll.any o.recorded = true := by rw [hlog]; exact Bool.false_ne_true
  have hst : ¬(p.state ≠ .initiated ∧ p.state ≠ .pending) := by
    rintro ⟨hi, hp⟩
    exact hlive.elim hi hp
  cases o with
  | completed preimage fees hops =>
      obtain ⟨p', hset⟩ := @Payment.settle_ok p preimage fees hops t hany hst
      refine ⟨p', ?_, ?_, ?_, ?_⟩
      · rw [Payment.settle_eq hset]
      · rw [Payment.settle_eq hset]; rfl
      · rw [Payment.settle_eq hset]; rfl
      · rw [commit, commitCompleted, hset]; rfl
  | failed reason =>
      obtain ⟨p', hfail⟩ := @Payment.fail_ok p reason t hany hst
      refine ⟨p', ?_, ?_, ?_, ?_⟩
      · rw [Payment.fail_eq hfail]
      · rw [Payment.fail_eq hfail]; rfl
      · rw [Payment.fail_eq hfail]; rfl
      · rw [commit, commitFailed, hfail]; rfl

/-- An end that is not due is ignored or refused. -/
theorem commit_idle (hdue : ¬o.Due p) (t : Timestamp) :
    o.commit p t = pure p ∨ ∃ e, o.commit p t = throw e := by
  by_cases hany : p.events.iterAll.any o.recorded = true
  · left
    cases o with
    | completed preimage fees hops =>
        have hset : p.settle preimage fees hops t = .ok (.alreadyApplied, p) := if_pos hany
        rw [commit, commitCompleted, hset]
    | failed reason =>
        have hfail : p.fail reason t = .ok (.alreadyApplied, p) := if_pos hany
        rw [commit, commitFailed, hfail]
  · right
    have hst : p.state ≠ .initiated ∧ p.state ≠ .pending :=
      not_or.mp fun hlive => hdue ⟨Bool.eq_false_iff.mpr hany, hlive⟩
    cases o with
    | completed preimage fees hops =>
        have hset : p.settle preimage fees hops t =
            .error (.invalidStateTransition p.state "settle") :=
          (if_neg hany).trans (if_pos hst)
        exact ⟨_, by rw [commit, commitCompleted, hset]⟩
    | failed reason =>
        have hfail : p.fail reason t = .error (.invalidStateTransition p.state "fail") :=
          (if_neg hany).trans (if_pos hst)
        exact ⟨_, by rw [commit, commitFailed, hfail]⟩

end Ending

/-! ### One update -/

/-- The database serves the call. -/
def serves : Call gatewaySignature → Bool
  | ⟨.findPayment _, r⟩ => match r with
      | .error e => decide (e ≠ .sqlx)
      | .ok _ => true
  | ⟨.tx b, r⟩ => match r with
      | .error e => decide (e ≠ b.faultError)
      | .ok _ => true
  | _ => true

/-- Calls may be answered in any way. -/
def anyAnswers : Answering gatewaySignature := ⟨Unit, fun _ _ => true, fun _ _ => ()⟩

theorem accepts_any (calls : Calls) : anyAnswers.accepts () calls = true := by
  induction calls with
  | nil => rfl
  | cons c calls ih => exact ih

/-- The end is due for the payment of this hash. -/
def DueIn (h : PaymentHash) (o : Ending) (db : Db) : Prop :=
  ∃ p, Payments.findByPaymentHash db h = .ok p ∧ o.Due p

/-- The payment of this hash has ended: its log has one more event and the outbox one more
row, in one transaction. -/
def Concluded (h : PaymentHash) (o : Ending) (db db' : Db) : Prop :=
  ∃ r p t utcNow sequence, db.payments.lookup h = some r ∧ Payments.hydrate r = .ok p ∧ o.Due p ∧
    WritesPayment db db' h (r.grow o.state.asStr [o.event t]) ∧ db'.invoices = db.invoices ∧
    db'.outbox = db.outbox ++
      [(o.outbox p.paymentHash (asI64 p.amountMsat.wholeSat) utcNow).row sequence]

/-- The handler in terms of what the update says. -/
theorem handlePaymentUpdate_eq (update : PaymentUpdate) :
    handlePaymentUpdate update = (do
      let found ← findPayment update.paymentHash
      match found with
      | .error .notFound => pure ()
      | .error e => throw (.payment (.find e))
      | .ok payment => do
          let at_ ← now
          match Ending.ofUpdate update with
          | some o => do
              let _ ← o.commit payment at_
              pure ()
          | none => if update.status = .inFlight then pure () else throw succeededWithoutPreimage) := by
  obtain ⟨h, status, preimage, fees, hops, reason⟩ := update
  cases status with
  | inFlight => rfl
  | succeeded =>
      cases preimage with
      | none => rfl
      | some preimage => rfl
  | failed => rfl

section
variable {g : Deployment} {w w' : World} {h : PaymentHash} {o : Ending} {r : PaymentRow}
variable {p : Payment} {db db' db'' : Db}

theorem hydrate_row (hp : Payments.hydrate r = .ok p) :
    p.events = ⟨r.id, r.events, []⟩ ∧ p.id = r.id := by
  simp only [Payments.hydrate, Payment.tryFromEvents, PaymentBuilder.build, needPayment_bind] at hp
  obtain ⟨a, -, b, -, c, -, d, -, e, -, hp⟩ := hp
  cases hp
  exact ⟨rfl, rfl⟩

/-- One more event in the row is one more projection of the payment. -/
theorem hydrate_grow (state : String) (e : PaymentEvent) (hp : Payments.hydrate r = .ok p) :
    Payments.hydrate (r.grow state [e]) =
      .ok { projectPayment p e with events := ⟨r.id, r.events ++ [e], []⟩ } :=
  paymentSourcing.hydrate_snoc hp rfl (by simp [EntityEvents.iterAll, Row.grow])

theorem found_row (hl : db.payments.lookup h = some r) :
    Payments.findByPaymentHash db h = Payments.hydrate r := by
  rw [Payments.findByPaymentHash, hl]

/-- Once concluded, a payment is not concluded again. -/
theorem Concluded.not_due (hc : Concluded h o db db') : ¬DueIn h o db' := by
  obtain ⟨r, p, t, utcNow, sequence, -, hp, -, hw, -⟩ := hc
  rintro ⟨p', hp', hlog, -⟩
  rw [found_row hw.at, hydrate_grow _ _ hp] at hp'
  cases hp'
  simp [EntityEvents.iterAll] at hlog

/-- Writing an end: it happens if it is due and the database serves the transaction. -/
theorem commit_turn (hl : w.db.payments.lookup h = some r) (hp : Payments.hydrate r = .ok p)
    (t : Timestamp) :
    Alone (gateway g) anyAnswers w () (o.commit p t >>= fun _ => (pure () : App Unit)).run
      fun calls _ w' => w' = w ∧ (o.Due p → calls.all serves = false) ∨
        Concluded h o w.db w'.db := by
  obtain ⟨hev, hid⟩ := hydrate_row hp
  by_cases hdue : o.Due p
  · obtain ⟨p', hid', hev', hstate, hcommit⟩ := o.commit_due hdue t
    rw [hev] at hev'
    have hrow : r.id = p'.id := by rw [hid', hid]
    rw [hcommit]
    refine alone_call fun utcNow c w₁ hx _ => ?_
    cases c <;> simp only [gateway, exec, reduceCtorEq] at hx
    cases hx
    refine alone_call fun a c w₂ hx _ => ?_
    obtain ⟨clock, q, db', hr, rfl, -⟩ | ⟨rfl, ⟨clock, e, -, he, -⟩ | ⟨-, rfl⟩⟩ := exec_tx hx
    · obtain ⟨hw, hinv, hout, -⟩ := run_payment_loaded hl hrow hev' hr
      rw [Payment.stateStr, hstate] at hw
      have hc : Concluded h o w.db db' := ⟨r, p, t, utcNow, _, hl, hp, hdue, hw, hinv, hout⟩
      cases a with
      | ok q => exact alone_ret (.inr hc)
      | error e => exact alone_ret (.inr hc)
    · obtain ⟨q, db', hok⟩ : ∃ q db', (Transaction.payment p' _).run clock w₂.db = .ok (q, db') :=
        run_payment_ok hl hrow (by rw [hev']; rfl)
      rw [hok] at he
      cases he
    · exact alone_ret (.inl ⟨rfl, fun _ => rfl⟩)
  · rcases o.commit_idle hdue t with hidle | ⟨e, hidle⟩ <;> rw [hidle] <;>
      exact alone_ret (.inl ⟨rfl, fun h => absurd h hdue⟩)

/-- One update leaves the world as it was, or the payment has ended as it says. -/
theorem handlePaymentUpdate_turn (update : PaymentUpdate) :
    Alone (gateway g) anyAnswers w () (handlePaymentUpdate update).run fun calls _ w' =>
      w' = w ∧ (∀ o, Ending.ofUpdate update = some o → DueIn update.paymentHash o w.db →
        calls.all serves = false) ∨
      ∃ o, Ending.ofUpdate update = some o ∧ Concluded update.paymentHash o w.db w'.db := by
  rw [handlePaymentUpdate_eq]
  refine alone_call fun found c w₁ hx _ => ?_
  cases c <;> simp only [gateway, exec, reduceCtorEq] at hx
  case dbFault =>
    cases hx
    exact alone_ret (.inl ⟨rfl, fun _ _ _ => rfl⟩)
  case served clock =>
    cases hx
    cases hfound : Payments.findByPaymentHash w.db update.paymentHash with
    | error e =>
        have hnone : ∀ o, ¬DueIn update.paymentHash o w.db := by
          rintro o ⟨p, hp, -⟩
          cases hfound.symm.trans hp
        cases e <;> exact alone_ret (.inl ⟨rfl, fun o _ hdue => absurd hdue (hnone o)⟩)
    | ok p =>
        refine alone_call fun t c w₂ hx _ => ?_
        cases c <;> simp only [gateway, exec, reduceCtorEq] at hx
        cases hx
        obtain ⟨r, hl, hp⟩ : ∃ r, w.db.payments.lookup update.paymentHash = some r ∧
            Payments.hydrate r = .ok p := by
          cases hl : w.db.payments.lookup update.paymentHash with
          | none => rw [Payments.findByPaymentHash, hl] at hfound; cases hfound
          | some r => exact ⟨r, rfl, (found_row hl).symm.trans hfound⟩
        have hsaid : ∀ o, Ending.ofUpdate update = some o → DueIn update.paymentHash o w.db →
            o.Due p := by
          rintro o - ⟨q, hq, hdue⟩
          cases hfound.symm.trans hq
          exact hdue
        cases ho : Ending.ofUpdate update with
        | none =>
            change Alone (gateway g) anyAnswers w ()
              (if update.status = .inFlight then (pure () : App Unit)
                else throw succeededWithoutPreimage).run _
            split_ifs <;> exact alone_ret (.inl ⟨rfl, fun o ho' => by cases ho'⟩)
        | some o =>
            refine Alone.mono ?_ (commit_turn hl hp t)
            rintro calls x w' (⟨rfl, hnone⟩ | hc)
            · refine .inl ⟨rfl, fun o' ho' hdue => ?_⟩
              cases ho'
              exact hnone (hsaid o ho hdue)
            · exact .inr ⟨o, rfl, hc⟩

/-- An update for a hash without a payment changes nothing. -/
theorem handlePaymentUpdate_unknown {update : PaymentUpdate} {calls : Calls}
    {a : Except AppError Unit} (hnone : w.db.payments.lookup update.paymentHash = none)
    (ht : Traces (handlePaymentUpdate update).run calls a)
    (hs : Served (gateway g) w calls w') : w' = w := by
  rcases handlePaymentUpdate_turn update calls a w' ht hs (accepts_any calls) with
    ⟨hw, -⟩ | ⟨o, -, r, p, t, utcNow, sequence, hl, -⟩
  · exact hw
  · cases hnone.symm.trans hl

end

/-! ### Many updates -/

/-- The update says how the payment has ended. -/
def Terminal (update : PaymentUpdate) : Prop := update.status ≠ .inFlight

/-- Two updates carry the same status, preimage, fee, hops and failure reason. -/
def SameReport (u v : PaymentUpdate) : Prop :=
  u.status = v.status ∧ u.paymentPreimage = v.paymentPreimage ∧ u.feesPaidMsat = v.feesPaidMsat ∧
    u.routeHops = v.routeHops ∧ u.failureReason = v.failureReason

/-- Updates of the stream, handled one after the other. -/
abbrev Tracked (g : Deployment) (w : World) (turns : List (Turn gatewaySignature PaymentUpdate))
    (w' : World) : Prop :=
  InTurn (gateway g) (fun update => (handlePaymentUpdate update).run) w turns w'

/-- The update is terminal and the database serves its handling. -/
def Told (t : Turn gatewaySignature PaymentUpdate) : Prop :=
  Terminal t.input ∧ t.calls.all serves = true

theorem ofUpdate_inFlight {update : PaymentUpdate} (h : ¬Terminal update) :
    Ending.ofUpdate update = none := by
  unfold Ending.ofUpdate
  rw [not_not.mp h]

theorem SameReport.ofUpdate {u v : PaymentUpdate} (h : SameReport u v) :
    Ending.ofUpdate u = Ending.ofUpdate v := by
  obtain ⟨hs, hp, hf, hh, hr⟩ := h
  unfold Ending.ofUpdate
  rw [hs, hp, hf, hh, hr]

/-- The tables and the rows of the outbox are the same. -/
def SameRows (db db' : Db) : Prop :=
  db'.payments = db.payments ∧ db'.invoices = db.invoices ∧ db'.outbox = db.outbox

section
variable {h : PaymentHash} {o : Ending} {db₁ db₂ db₃ : Db}

theorem SameRows.trans (h₁ : SameRows db₁ db₂) (h₂ : SameRows db₂ db₃) : SameRows db₁ db₃ :=
  ⟨h₂.1.trans h₁.1, h₂.2.1.trans h₁.2.1, h₂.2.2.trans h₁.2.2⟩

theorem SameRows.due (hs : SameRows db₁ db₂) (hdue : DueIn h o db₁) : DueIn h o db₂ := by
  obtain ⟨p, hp, hd⟩ := hdue
  refine ⟨p, ?_, hd⟩
  rw [Payments.findByPaymentHash] at hp ⊢
  rwa [hs.1]

theorem SameRows.concluded (hs : SameRows db₁ db₂) (hc : Concluded h o db₂ db₃) :
    Concluded h o db₁ db₃ := by
  obtain ⟨hp, hi, ho⟩ := hs
  unfold Concluded WritesPayment at hc ⊢
  rwa [hp, hi, ho] at hc

theorem Concluded.sameRows (hc : Concluded h o db₁ db₂) (hs : SameRows db₂ db₃) :
    Concluded h o db₁ db₃ := by
  obtain ⟨hp, hi, ho⟩ := hs
  unfold Concluded WritesPayment at hc ⊢
  rwa [hp, hi, ho]

theorem Concluded.due (hc : Concluded h o db₁ db₂) : DueIn h o db₁ := by
  obtain ⟨r, p, t, utcNow, sequence, hl, hp, hdue, -⟩ := hc
  exact ⟨p, by rw [found_row hl, hp], hdue⟩

end

/-- A payment ends at most once, however often LND says so. -/
def endsOnce (g : Deployment) (h : PaymentHash) (said : Option Ending) :
    Once (gateway g) (fun update => (handlePaymentUpdate update).run)
      (fun update => update.paymentHash = h ∧ (Terminal update → Ending.ofUpdate update = said))
      Told where
  Same w w' := SameRows w.db w'.db
  Change w w' := ∃ o, said = some o ∧ Concluded h o w.db w'.db
  due w := ∃ o, said = some o ∧ DueIn h o w.db
  refl _ := ⟨rfl, rfl, rfl⟩
  trans := SameRows.trans
  same_change := by
    rintro _ _ _ hs ⟨o, ho, hc⟩
    exact ⟨o, ho, hs.concluded hc⟩
  change_same := by
    rintro _ _ _ ⟨o, ho, hc⟩ hs
    exact ⟨o, ho, hc.sameRows hs⟩
  due_same := by
    rintro _ _ hs ⟨o, ho, hdue⟩
    exact ⟨o, ho, hs.due hdue⟩
  due_change := by
    rintro _ _ ⟨o, rfl, hc⟩
    refine ⟨⟨o, rfl, hc.due⟩, ?_⟩
    rintro ⟨o', ho', hdue⟩
    cases ho'
    exact hc.not_due hdue
  env := by
    intro x w w' hx
    obtain ⟨hp, hi, ho, -⟩ := env_frame hx
    exact ⟨hp, hi, ho⟩
  turn := by
    rintro u calls a w w' ⟨rfl, hsaid⟩ ht hs
    rcases handlePaymentUpdate_turn u calls a w' ht hs (accepts_any calls) with
      ⟨rfl, hnone⟩ | ⟨o, ho, hc⟩
    · refine .inl ⟨⟨rfl, rfl, rfl⟩, ?_⟩
      rintro ⟨o, rfl, hdue⟩ ⟨hterminal, hserved⟩
      exact absurd (hnone o (hsaid hterminal) hdue) (by rw [hserved]; exact Bool.noConfusion)
    · have hterminal : Terminal u := by
        intro hflight
        rw [ofUpdate_inFlight (not_not.mpr hflight)] at ho
        cases ho
      exact .inr ⟨o, (hsaid hterminal).symm.trans ho, hc⟩

/-! ### Equality up to times -/

def epoch : Timestamp := ⟨0⟩

/-- The event without its time. -/
def undatedEvent : PaymentEvent → PaymentEvent
  | .initiated h walletId amount fee text destination _ =>
      .initiated h walletId amount fee text destination epoch
  | .pending _ => .pending epoch
  | .completed _ preimage fees hops => .completed epoch preimage fees hops
  | .failed _ reason => .failed epoch reason
  | .reversed _ reason => .reversed epoch reason

def undatedRow (r : PaymentRow) : PaymentRow := { r with events := r.events.map undatedEvent }

def undatedPayment (p : Payment) : Payment :=
  { p with
    initiatedAt := epoch
    settledAt := p.settledAt.map fun _ => epoch
    events := ⟨p.events.id, p.events.persisted.map undatedEvent,
      p.events.fresh.map undatedEvent⟩ }

/-- The outbox row without its time and its place in the sequence. -/
def undatedOutbox (e : OutboxEvent) : OutboxEvent := { e with sequence := 0, timestamp := epoch }

/-- Two databases are the same up to times and sequence numbers: the row of the payment with
its log, its columns and its state text, the payment it hydrates to, and the outbox. All
other rows are equal. -/
structure Agree (h : PaymentHash) (db₁ db₂ : Db) : Prop where
  row : (db₁.payments.lookup h).map undatedRow = (db₂.payments.lookup h).map undatedRow
  payment : (Payments.findByPaymentHash db₁ h).map undatedPayment =
    (Payments.findByPaymentHash db₂ h).map undatedPayment
  outbox : db₁.outbox.map undatedOutbox = db₂.outbox.map undatedOutbox
  others : ∀ k, k ≠ h → db₁.payments.lookup k = db₂.payments.lookup k
  invoices : db₁.invoices = db₂.invoices

section
variable {h : PaymentHash} {o : Ending} {db db₁ db₂ : Db}

theorem undatedEvent_event (o : Ending) (t t' : Timestamp) :
    undatedEvent (o.event t) = undatedEvent (o.event t') := by
  cases o <;> rfl

theorem undatedOutbox_row (o : Ending) (h : PaymentHash) (amountSat : ℤ) (t t' : Timestamp)
    (n n' : ℤ) : undatedOutbox ((o.outbox h amountSat t).row n) =
      undatedOutbox ((o.outbox h amountSat t').row n') := by
  cases o <;> rfl

/-- The fields of a payment that has ended differ in their times only. -/
theorem undatedPayment_project (o : Ending) (p : Payment) (r : PaymentRow) (t t' : Timestamp) :
    undatedPayment
        { projectPayment p (o.event t) with events := ⟨r.id, r.events ++ [o.event t], []⟩ } =
      undatedPayment
        { projectPayment p (o.event t') with events := ⟨r.id, r.events ++ [o.event t'], []⟩ } := by
  simp only [undatedPayment, List.map_append, List.map_cons, undatedEvent_event o t t']
  cases o <;> rfl

theorem SameRows.agree (h₁ : SameRows db db₁) (h₂ : SameRows db db₂) : Agree h db₁ db₂ := by
  obtain ⟨hp₁, hi₁, ho₁⟩ := h₁
  obtain ⟨hp₂, hi₂, ho₂⟩ := h₂
  have hp : db₁.payments = db₂.payments := hp₁.trans hp₂.symm
  have hfound : Payments.findByPaymentHash db₁ h = Payments.findByPaymentHash db₂ h := by
    rw [Payments.findByPaymentHash, hp]
    rfl
  exact ⟨by rw [hp], by rw [hfound], by rw [ho₁, ho₂], fun k _ => by rw [hp], hi₁.trans hi₂.symm⟩

/-- Two ways to the same end agree. -/
theorem Concluded.agree (h₁ : Concluded h o db db₁) (h₂ : Concluded h o db db₂) :
    Agree h db₁ db₂ := by
  obtain ⟨r, p, t₁, u₁, n₁, hl, hp, -, hw₁, hi₁, ho₁⟩ := h₁
  obtain ⟨r', p', t₂, u₂, n₂, hl', hp', -, hw₂, hi₂, ho₂⟩ := h₂
  cases hl.symm.trans hl'
  cases hp.symm.trans hp'
  constructor
  · rw [hw₁.at, hw₂.at]
    simp only [Option.map_some, undatedRow, Row.grow, List.map_append, List.map_cons,
      undatedEvent_event o t₁ t₂]
  · rw [found_row hw₁.at, found_row hw₂.at, hydrate_grow _ _ hp, hydrate_grow _ _ hp]
    exact congrArg Except.ok (undatedPayment_project o p r t₁ t₂)
  · rw [ho₁, ho₂]
    simp only [List.map_append, List.map_cons, undatedOutbox_row o _ _ u₁ u₂ n₁ n₂]
  · intro k hk
    rw [hw₁.other hk, hw₂.other hk]
  · rw [hi₁, hi₂]

end

section
variable {g : Deployment} {h : PaymentHash} {w w₁ w₂ : World}
variable {us vs : List (Turn gatewaySignature PaymentUpdate)}

/-- What is said by the terminal updates among those for one hash that all report the same. -/
theorem said_of_sameReport (hhash : ∀ t ∈ us, t.input.paymentHash = h)
    (hsame : ∀ t ∈ us, ∀ t' ∈ us, Terminal t.input → Terminal t'.input →
      SameReport t.input t'.input) :
    ∃ said, ∀ t ∈ us, t.input.paymentHash = h ∧
      (Terminal t.input → Ending.ofUpdate t.input = said) := by
  by_cases hterminal : ∃ t ∈ us, Terminal t.input
  · obtain ⟨t, ht, hti⟩ := hterminal
    exact ⟨_, fun t' ht' => ⟨hhash t' ht', fun hti' => (hsame t' ht' t ht hti' hti).ofUpdate⟩⟩
  · exact ⟨none, fun t ht => ⟨hhash t ht, fun hti => absurd ⟨t, ht, hti⟩ hterminal⟩⟩

/-- Every end that is said of a live payment of a reachable state is due. -/
theorem due_of_live {p : Payment} (hdb : DbOk g w.db)
    (hp : Payments.findByPaymentHash w.db h = .ok p)
    (hlive : p.state = .initiated ∨ p.state = .pending) (o : Ending) : DueIn h o w.db := by
  refine ⟨p, hp, ?_, hlive⟩
  cases hl : w.db.payments.lookup h with
  | none => rw [Payments.findByPaymentHash, hl] at hp; cases hp
  | some r =>
      rw [found_row hl] at hp
      obtain ⟨n, s, hlog, -⟩ := hdb.payments h r hl
      obtain ⟨-, -, hs, ht⟩ := PaymentLogs.hydrate_tracks hlog hp
      rw [Bool.eq_false_iff]
      cases o with
      | completed preimage fees hops =>
          intro hany
          have hend := ht.log.any_isCompleted.mp hany
          rcases hlive with hlive | hlive <;> rw [hlive] at hend <;> simp at hend
      | failed reason =>
          intro hany
          have hend := ht.log.any_isFailed.mp hany
          rcases hlive with hlive | hlive <;> rw [hlive] at hend <;> cases hend

/-- A live payment ends as LND says, by one event and one row of the outbox, whatever else the
stream repeats. -/
theorem tracked_concludes {o : Ending} {p : Payment} {s : Pool (gateway g)}
    {es : List (Event (gateway g))} (hrun : Runs {} (boot g) es s)
    (hp : Payments.findByPaymentHash s.world.db h = .ok p)
    (hlive : p.state = .initiated ∨ p.state = .pending) (hus : Tracked g s.world us w)
    (hsaid : ∀ t ∈ us, t.input.paymentHash = h ∧
      (Terminal t.input → Ending.ofUpdate t.input = some o))
    (htold : ∃ t ∈ us, Told t) : Concluded h o s.world.db w.db := by
  obtain ⟨o', ho', hc⟩ := (endsOnce g h (some o)).run_change hus hsaid htold
    ⟨o, rfl, due_of_live (dbOk_run hrun) hp hlive o⟩
  cases ho'
  exact hc

/-- Replays are absorbed: two sequences of updates for one hash whose terminal updates report
the same lead to databases that agree, if the database serves the handling of one terminal
update of each. An update for a hash without a payment changes nothing. -/
theorem tracked_replays_absorbed (g : Deployment) :
    (∀ (h : PaymentHash) (w w₁ w₂ : World) (us vs : List (Turn gatewaySignature PaymentUpdate)),
      Tracked g w us w₁ → Tracked g w vs w₂ →
      (∀ t ∈ us ++ vs, t.input.paymentHash = h) →
      (∀ t ∈ us ++ vs, ∀ t' ∈ us ++ vs, Terminal t.input → Terminal t'.input →
        SameReport t.input t'.input) →
      (∃ t ∈ us, Told t) → (∃ t ∈ vs, Told t) → Agree h w₁.db w₂.db) ∧
    ∀ (update : PaymentUpdate) (calls : Calls) (a : Except AppError Unit) (w w' : World),
      w.db.payments.lookup update.paymentHash = none →
      Traces (handlePaymentUpdate update).run calls a → Served (gateway g) w calls w' →
      w' = w := by
  constructor
  · intro h w w₁ w₂ us vs hus hvs hhash hsame htold₁ htold₂
    obtain ⟨said, hsaid⟩ := said_of_sameReport hhash hsame
    obtain ⟨hsaid₁, hsaid₂⟩ := List.forall_mem_append.mp hsaid
    by_cases hdue : (endsOnce g h said).due w
    · obtain ⟨o, rfl, hc₁⟩ := (endsOnce g h said).run_change hus hsaid₁ htold₁ hdue
      obtain ⟨o', ho', hc₂⟩ := (endsOnce g h (some o)).run_change hvs hsaid₂ htold₂ hdue
      cases ho'
      exact hc₁.agree hc₂
    · have hs₁ : SameRows w.db w₁.db := (endsOnce g h said).run_same hus hsaid₁ hdue
      have hs₂ : SameRows w.db w₂.db := (endsOnce g h said).run_same hvs hsaid₂ hdue
      exact hs₁.agree hs₂
  · intro update calls a w w' hnone ht hs
    exact handlePaymentUpdate_unknown hnone ht hs

end

namespace Stream
open Sample

def inFlightUpdate : PaymentUpdate := ⟨hash, .inFlight, none, .zero, [], none⟩

/-- The end meets a broken connection, is told again after an in-flight report, and again. -/
def first : List (PaymentUpdate × List Choice) :=
  [(settledUpdate, [.served noon, .clock noon, .clock noon, .dbFault]),
    (inFlightUpdate, [.served noon, .clock noon]),
    (settledUpdate, [.served noon, .clock noon, .clock noon, .served noon]),
    (settledUpdate, [.served noon, .clock noon])]

/-- The end is told at once, at another time. -/
def second : List (PaymentUpdate × List Choice) :=
  [(settledUpdate, [.served noon, .clock ⟨0⟩, .clock ⟨0⟩, .served noon]),
    (inFlightUpdate, [.served noon, .clock noon])]

def play (w : World) (inputs : List (PaymentUpdate × List Choice)) :
    Option (List (Turn gatewaySignature PaymentUpdate) × World) :=
  playTurns (gateway deployment) (fun update => (handlePaymentUpdate update).run) w inputs

/-- The inputs are the given ones, and the turn at place `i` is served. -/
def plays (w : World) (inputs : List (PaymentUpdate × List Choice)) (i : ℕ) : Bool :=
  (play w inputs).any fun r => decide (r.1.map Turn.input = inputs.map Prod.fst) &&
    (r.1[i]?).any fun t => decide (t.input = settledUpdate) && t.calls.all serves

theorem told_of_plays {w : World} {inputs : List (PaymentUpdate × List Choice)} {i : ℕ}
    (h : plays w inputs i = true) : ∃ turns w', play w inputs = some (turns, w') ∧
      turns.map Turn.input = inputs.map Prod.fst ∧ ∃ t ∈ turns, Told t := by
  simp only [plays, Option.any_eq_true, Bool.and_eq_true, decide_eq_true_eq] at h
  obtain ⟨⟨turns, w'⟩, hplay, hinputs, t, ht, hinput, hserved⟩ := h
  refine ⟨turns, w', hplay, hinputs, t, List.mem_of_getElem? ht, ?_, hserved⟩
  rw [Terminal, hinput]
  decide

end Stream

/-- The payment ends at the third turn, after a fault and before a duplicate. -/
theorem tracked_concludes_first :
    ∃ s us w, Runs {} (boot Sample.deployment) (Sample.sendUpToMessage 0) s ∧
      Stream.play s.world Stream.first = some (us, w) ∧
      Concluded Sample.hash (.completed Sample.preimage .zero []) s.world.db w.db := by
  obtain ⟨s, hrun, hc⟩ := exists_run_of_play {} (boot Sample.deployment) (Sample.sendUpToMessage 0)
    (fun s => Stream.plays s.world Stream.first 2 &&
      (Payments.findByPaymentHash s.world.db Sample.hash).toOption.any (·.state = .initiated))
    (by decide +kernel)
  obtain ⟨hplays, hfound⟩ := (Bool.and_eq_true _ _).mp hc
  obtain ⟨us, w, hus, hinputs, htold⟩ := Stream.told_of_plays hplays
  cases hp : Payments.findByPaymentHash s.world.db Sample.hash with
  | error e =>
      rw [hp] at hfound
      cases hfound
  | ok p =>
      rw [hp] at hfound
      refine ⟨s, us, w, hrun, hus, tracked_concludes hrun hp (.inl (of_decide_eq_true hfound))
        (inTurn_of_play hus) (fun t ht => ?_) htold⟩
      have hmem : t.input ∈ Stream.first.map Prod.fst := hinputs ▸ List.mem_map_of_mem ht
      obtain ⟨⟨update, choices⟩, hfirst, heq⟩ := List.mem_map.mp hmem
      rw [← heq]
      simp only [Stream.first, List.mem_cons, Prod.mk.injEq, List.not_mem_nil, or_false] at hfirst
      rcases hfirst with ⟨rfl, -⟩ | ⟨rfl, -⟩ | ⟨rfl, -⟩ | ⟨rfl, -⟩
      · exact ⟨rfl, fun _ => rfl⟩
      · exact ⟨rfl, fun hterminal => absurd rfl hterminal⟩
      · exact ⟨rfl, fun _ => rfl⟩
      · exact ⟨rfl, fun _ => rfl⟩

/-- Two streams about the sample payment, one of them with a fault and a duplicate. -/
theorem tracked_replays_absorbed_streams :
    ∃ s us w₁ vs w₂, Runs {} (boot Sample.deployment) (Sample.sendUpToMessage 0) s ∧
      Stream.play s.world Stream.first = some (us, w₁) ∧
      Stream.play s.world Stream.second = some (vs, w₂) ∧ Agree Sample.hash w₁.db w₂.db := by
  obtain ⟨s, hrun, hc⟩ := exists_run_of_play {} (boot Sample.deployment) (Sample.sendUpToMessage 0)
    (fun s => Stream.plays s.world Stream.first 2 && Stream.plays s.world Stream.second 0)
    (by decide +kernel)
  obtain ⟨h₁, h₂⟩ := (Bool.and_eq_true _ _).mp hc
  obtain ⟨us, w₁, hus, hinputs₁, htold₁⟩ := Stream.told_of_plays h₁
  obtain ⟨vs, w₂, hvs, hinputs₂, htold₂⟩ := Stream.told_of_plays h₂
  have hinputs : ∀ t ∈ us ++ vs, t.input = Sample.settledUpdate ∨
      t.input = Stream.inFlightUpdate := by
    intro t ht
    have hmem : t.input ∈ Stream.first.map Prod.fst ++ Stream.second.map Prod.fst := by
      rw [← hinputs₁, ← hinputs₂, ← List.map_append]
      exact List.mem_map_of_mem ht
    revert hmem
    generalize t.input = u
    simp only [Stream.first, Stream.second, List.map_cons, List.map_nil, List.cons_append,
      List.nil_append, List.mem_cons, List.not_mem_nil]
    tauto
  refine ⟨s, us, w₁, vs, w₂, hrun, hus, hvs, ?_⟩
  refine (tracked_replays_absorbed Sample.deployment).1 Sample.hash s.world w₁ w₂ us vs
    (inTurn_of_play hus) (inTurn_of_play hvs) ?_ ?_ htold₁ htold₂
  · intro t ht
    rcases hinputs t ht with h | h <;> rw [h] <;> rfl
  · intro t ht t' ht' hterminal hterminal'
    have hsettled : ∀ t ∈ us ++ vs, Terminal t.input → t.input = Sample.settledUpdate := by
      intro t ht hterminal
      refine (hinputs t ht).resolve_right fun h => hterminal ?_
      rw [h]
      rfl
    rw [hsettled t ht hterminal, hsettled t' ht' hterminal']
    exact ⟨rfl, rfl, rfl, rfl, rfl⟩

end LightningGateway.TrackedReplays
