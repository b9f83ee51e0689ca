import LightningGateway.IncomingAmounts
import LightningGateway.AggregateGuards

/-!
# A settled invoice has its parked amount

`commit_settle` reads the amount of the HTLC from the invoice it has just settled, and
panics when there is none. State and amount are two fields, linked by nothing but the
event that sets both. No event takes the amount away again, so the link holds for every
log that hydration accepts, in whatever order its events came. An aggregate is always
the one its log hydrates to, so every command and every restart keeps it.
-/
namespace LightningGateway.HeldAmounts
open Primitives EventTables EventSourcing EffectPrograms TaskPools InvoiceAggregate
open AggregateMethods LndWire GatewayStore GatewayEffects PeerCalls InvoiceFlows GatewayMachine
open IncomingAmounts (receives program_receives)
open AggregateGuards (someInvoiceCreation)

/-! ### The link between state and amount -/

/-- The amount an event parks. -/
def parkedAmount : InvoiceEvent → Option MilliSatoshi
  | .htlcHeld _ htlcAmountMsat => some htlcAmountMsat
  | _ => none

/-- The amount of the last `HtlcHeld` of a log. -/
def lastHeld (log : List InvoiceEvent) : Option MilliSatoshi := lastWritten parkedAmount log

/-- The parked amount is that of the last `HtlcHeld`, and a held invoice has one. -/
structure Parked (i : Invoice) : Prop where
  amount : i.heldAmountMsat = lastHeld i.events.iterAll
  held : i.state = .held → ∃ m, i.heldAmountMsat = some m

variable {i i' : Invoice} {es : EntityEvents InvoiceId InvoiceEvent}

theorem replay_amount (log : List InvoiceEvent) :
    (log.foldl InvoiceBuilder.apply {}).heldAmountMsat.getD none = lastHeld log := by
  have happly (b : InvoiceBuilder) (e : InvoiceEvent) :
      (b.apply e).heldAmountMsat.getD none =
        (parkedAmount e).or (b.heldAmountMsat.getD none) := by
    cases e <;> rfl
  have hfold := foldl_lastWritten (fun b : InvoiceBuilder => b.heldAmountMsat.getD none) happly {}
    log
  exact hfold.trans (Option.or_none)

/-- A builder is in state `Held` only once it has an amount. -/
theorem replay_held (log : List InvoiceEvent) :
    let b := log.foldl InvoiceBuilder.apply {}
    b.state.getD .opened = .held → ∃ m, b.heldAmountMsat.getD none = some m := by
  induction log using List.reverseRecOn with
  | nil => exact fun h => by cases h
  | append_singleton log e ih =>
      rw [List.foldl_concat]
      cases e with
      | created => exact ih
      | htlcHeld => exact fun _ => ⟨_, rfl⟩
      | settled | settledIntraledger | canceled => exact fun h => by cases h

/-- Hydration links the two, whatever log it accepts. -/
theorem hydrate_parked (h : Invoice.tryFromEvents es = .ok i) : i.events = es ∧ Parked i := by
  have hamount := replay_amount es.iterAll
  have hheld := replay_held es.iterAll
  unfold Invoice.tryFromEvents at h
  generalize es.iterAll.foldl InvoiceBuilder.apply {} = b at h hamount hheld
  simp only [InvoiceBuilder.build, needInvoice_bind] at h
  obtain ⟨_, -, _, -, _, -, _, -, _, -, _, -, _, -, _, -, hi⟩ := h
  cases hi
  exact ⟨rfl, hamount, hheld⟩

/-- Settling takes a held invoice, and leaves the amount and the last `HtlcHeld`. -/
theorem settle_parked (h : Parked i) {t : Timestamp} (hs : i.settle t = .ok (.executed, i')) :
    ∃ m, i'.heldAmountMsat = some m ∧ lastHeld i'.events.iterAll = some m := by
  unfold Invoice.settle at hs
  split_ifs at hs with hany hstate
  · cases hs
  · cases hs
    obtain ⟨m, hm⟩ := h.held (not_not.mp hstate)
    have hlast : lastHeld (i.events.push (.settled t)).iterAll = lastHeld i.events.iterAll := by
      rw [EntityEvents.iterAll_push]
      exact lastWritten_snoc
    exact ⟨m, hm, by rw [hlast, ← h.amount, hm]⟩

/-! ### The commits -/

variable {past : Calls} {k : PaymentHash} {amt : MilliSatoshi}

def NoPanic : Op → Prop
  | .panic _ => False
  | _ => True

theorem commitSettle_calm (h : Parked i) :
    Emits (fun _ => NoPanic) (fun _ _ => True) past (commitSettle i k amt).run := by
  refine commitSettle_calls (fun _ => trivial) (fun t settled _ hs hnone => ?_)
    fun _ _ _ _ _ _ => trivial
  obtain ⟨m, hm, -⟩ := settle_parked h hs
  cases hnone.symm.trans hm

theorem commitCancel_calm {reason : CancelReason} :
    Emits (fun _ => NoPanic) (fun _ _ => True) past (commitCancel i k reason amt).run :=
  commitCancel_calls (fun _ => trivial) fun _ _ _ _ => trivial

theorem transitionToHeld_calm {t : Timestamp} :
    Emits (fun _ => NoPanic) (fun _ _ => True) past (transitionToHeld i k amt t).run :=
  transitionToHeld_calls (fun _ => trivial) fun _ _ _ => trivial

theorem applyLndState_calm (h : Parked i) (u : InvoiceUpdate) :
    Emits (fun _ => NoPanic) (fun _ _ => True) past (applyLndState i k u).run := by
  refine applyLndState_calls (fun _ => trivial) (fun _ => ?_) (fun _ => ?_) fun _ => ?_
  · exact commitSettle_calm h
  · exact commitSettle_calm h
  · exact commitCancel_calm

/-! ### The tasks of the receiving side -/

/-- An invoice in an answer has the amount that its state calls for. -/
def ParkedAnswer (c : Call gatewaySignature) : Prop :=
  ∀ k i, c = ⟨.findInvoice k, .ok i⟩ → Parked i

theorem exec_parked {crates : Crates} {o : Op} {c : Choice} {w w' : World} {a : o.Ans}
    (hx : exec crates o c w = some (a, w')) : ParkedAnswer ⟨o, a⟩ := by
  rintro k i hc
  cases hc
  cases c with
  | served t =>
      obtain ⟨hf, -⟩ := Prod.mk.inj (Option.some.inj hx)
      unfold Invoices.findByPaymentHash at hf
      split at hf
      next => cases hf
      next => exact (hydrate_parked hf).2
  | _ => cases hx

/-- No panic, as long as the database hands out such invoices. -/
abbrev Calm : Calls → Op → Prop := Given ParkedAnswer fun _ => NoPanic

theorem calm {α : Type} {p : Program gatewaySignature α}
    (h : Emits (fun _ => NoPanic) (fun _ _ => True) past p) :
    Emits Calm (fun _ _ => True) past p :=
  Emits.weaken (fun _ _ ho _ => ho) h

theorem resolveHeld_calm : Emits Calm (fun _ _ => True) past (resolveHeld k).run := by
  refine resolveHeld_calls (fun _ => trivial) (fun _ _ => trivial) fun i m u _ _ => ?_
  refine emits_given fun hpast => ?_
  -- The invoice is the answer to the first call.
  have hi : Parked i := hpast ⟨.findInvoice k, .ok i⟩ (by simp) k i rfl
  exact calm (applyLndState_calm hi u)

theorem handleInvoiceUpdate_calm (u : InvoiceUpdate) :
    Emits Calm (fun _ _ => True) past (handleInvoiceUpdate u).run := by
  refine handleInvoiceUpdate_calls (fun _ _ => trivial) (fun _ => trivial) (fun i t _ => ?_)
    (fun _ _ => resolveHeld_calm) fun i t _ => ?_
  · exact calm transitionToHeld_calm
  · exact calm commitCancel_calm

/-- What the tasks of the receiving side keep to; the others are left open. -/
def CalmSite (entry : Entry) (_ : Calls) (o : Op) : Prop := receives entry = true → NoPanic o

theorem program_calm (g : Deployment) (entry : Entry) :
    Emits (S := gatewaySignature) (Given ParkedAnswer (CalmSite entry)) (fun _ _ => True) []
      (program g entry) :=
  program_receives (J := fun entry => Given ParkedAnswer (CalmSite entry)) g
    (fun u => Emits.weaken (fun _ _ ho hpast _ => ho hpast) (handleInvoiceUpdate_calm u))
    (fun _ _ => Emits.weaken (fun _ _ ho hpast _ => ho hpast) resolveHeld_calm)
    (fun _ _ _ hf _ hr => by rw [hf] at hr; cases hr) entry

/-- In every run over every database, whatever its logs are, no task of the receiving
side comes to a panic. -/
theorem receiving_never_panics (g : Deployment) (D : Discipline (gateway g)) (w : World)
    (es : List (Event (gateway g))) (s : Pool (gateway g)) (hrun : Runs D ⟨w, []⟩ es s)
    (t : Task (gateway g)) (ht : t ∈ s.tasks) (hin : receives t.entry = true) (message : String)
    (k : Op.Ans (.panic message) → Program gatewaySignature Outcome) :
    t.rest ≠ some (.call (.panic message) k) :=
  fun hr => justified_next (program_calm g) (fun _ _ _ _ _ hx => exec_parked hx) hrun ht hr hin

/-! ### Any accepted log, any life -/

/-- Whatever log an invoice was hydrated from and whatever commands and restarts it went
through since: when `settle` executes, the parked amount is there and is that of the last
`HtlcHeld` in the log, and `commit_settle` does not panic. -/
theorem commit_settle_never_panics (es : EntityEvents InvoiceId InvoiceEvent) (i₀ : Invoice)
    (haccepted : Invoice.tryFromEvents es = .ok i₀) (acts : List (Act InvoiceCommand)) :
    ∃ i, live invoiceSourcing InvoiceCommand.method i₀ acts = .ok i ∧
      es.iterAll <+: i.events.iterAll ∧
      (∀ t i', i.settle t = .ok (.executed, i') →
        ∃ m, i'.heldAmountMsat = some m ∧ lastHeld i'.events.iterAll = some m) ∧
      ∀ (past : Calls) (h : PaymentHash) (amtPaidMsat : MilliSatoshi),
        Emits (fun _ (o : Op) => ∀ message, o ≠ .panic message) (fun _ _ => True) past
          (commitSettle i h amtPaidMsat).run := by
  obtain ⟨hes, -⟩ := hydrate_parked haccepted
  have hfaithful : invoiceSourcing.Faithful i₀ := by rwa [← hes] at haccepted
  obtain ⟨i, hi, hlive, hlog⟩ := live_faithful InvoiceCommand.records hfaithful acts
  have hparked : Parked i := (hydrate_parked hlive).2
  refine ⟨i, hi, hes ▸ hlog, fun t i' hs => settle_parked hparked hs, fun past h amtPaidMsat => ?_⟩
  refine Emits.weaken (fun _ o ho message hm => ?_) (commitSettle_calm hparked)
  rw [hm] at ho
  exact ho

/-- A log that no commands produce: parked before the creation, and once more after it. -/
def parkedTwice : EntityEvents InvoiceId InvoiceEvent :=
  ⟨someInvoiceCreation.id,
    [.htlcHeld ⟨1⟩ ⟨1000⟩, someInvoiceCreation.createdEvent, .htlcHeld ⟨2⟩ ⟨3000⟩], []⟩

theorem commit_settle_never_panics_twice :
    ∃ i₀ i i', Invoice.tryFromEvents parkedTwice = .ok i₀ ∧
      live invoiceSourcing InvoiceCommand.method i₀ [.command (.markHeld ⟨5000⟩ ⟨3⟩), .rehydrate] =
        .ok i ∧
      i.settle ⟨4⟩ = .ok (.executed, i') ∧
      (∃ m, i'.heldAmountMsat = some m ∧ lastHeld i'.events.iterAll = some m) ∧
      i'.heldAmountMsat = some ⟨3000⟩ := by
  obtain ⟨i, hi, -, hsettle, -⟩ := commit_settle_never_panics parkedTwice _ rfl
    [.command (.markHeld ⟨5000⟩ ⟨3⟩), .rehydrate]
  obtain rfl := Except.ok.inj hi
  exact ⟨_, _, _, rfl, rfl, rfl, hsettle _ _ rfl, rfl⟩

end LightningGateway.HeldAmounts
