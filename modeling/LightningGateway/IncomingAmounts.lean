import LightningGateway.OutboxHistory

/-!
# Amounts of incoming payments

LND reports what an invoice was paid in millisatoshis, and the rows about the invoice
carry both that number and its whole satoshis. Nothing rounds the report before it is
divided, so the two agree exactly for the reports that are whole numbers of satoshis.
-/
namespace LightningGateway.IncomingAmounts
open Primitives EventTables EffectPrograms TaskPools InvoiceAggregate OutboxRows LndWire
open GatewayStore StoreSpecs GatewayEffects PeerCalls InvoiceFlows GatewayMachine CallSites
open GatewayInvariant

/-! ### One row -/

/-- A row reports that `amtPaidMsat` was paid. -/
structure ReportsPaid (amtPaidMsat : MilliSatoshi) (e : NewOutboxEvent) : Prop where
  metadata : e.gatewayMetadata.get? "amt_paid_msat" = some (.u64 amtPaidMsat.msat)
  amountSat : e.amountSat = asI64 amtPaidMsat.wholeSat

theorem heldOutbox_reports (h : PaymentHash) (amount : MilliSatoshi) (w : WalletId)
    (utcNow : Timestamp) : ReportsPaid amount (heldOutbox h amount w utcNow) :=
  ⟨by simp [heldOutbox, NewOutboxEvent.forLightningHtlcHeld, NewOutboxEvent.new, Json.get?], rfl⟩

theorem settledOutbox_reports (h : PaymentHash) (amount heldAmount : MilliSatoshi) (w : WalletId)
    (externalId : String) (utcNow : Timestamp) :
    ReportsPaid amount (settledOutbox h amount heldAmount w externalId utcNow) :=
  ⟨by simp [settledOutbox, NewOutboxEvent.forLightningInvoiceSettled, NewOutboxEvent.new,
    Json.get?], rfl⟩

theorem canceledOutbox_reports (h : PaymentHash) (amount : MilliSatoshi)
    (heldAmount : Option MilliSatoshi) (w : WalletId) (reason : CancelReason)
    (utcNow : Timestamp) :
    ReportsPaid amount (canceledOutbox h amount heldAmount w reason utcNow) :=
  ⟨by simp [canceledOutbox, NewOutboxEvent.forLightningInvoiceCanceled, NewOutboxEvent.new,
    Json.get?], rfl⟩

/-- The satoshis of a row are the whole amount exactly when it is whole. -/
theorem ReportsPaid.exact_iff {amtPaidMsat : MilliSatoshi} {e : NewOutboxEvent}
    (h : ReportsPaid amtPaidMsat e) :
    e.amountSat * 1000 = amtPaidMsat.msat.toNat ↔ 1000 ∣ amtPaidMsat.msat.toNat := by
  rw [h.amountSat, asI64_wholeSat]
  omega

/-- An amount in a row and in its metadata agree exactly when the latter is whole. -/
def PaidRowOk (r : OutboxEvent) : Prop :=
  ∃ amt : UInt64, r.gatewayMetadata.get? "amt_paid_msat" = some (.u64 amt) ∧
    (r.amountSat * 1000 = amt.toNat ↔ 1000 ∣ amt.toNat)

theorem ReportsPaid.row {amtPaidMsat : MilliSatoshi} {e : NewOutboxEvent}
    (h : ReportsPaid amtPaidMsat e) (n : ℤ) : PaidRowOk (e.row n) :=
  ⟨amtPaidMsat.msat, h.metadata, h.exact_iff⟩

/-! ### What the receiving side writes -/

variable {g : Deployment} {entry : Entry} {past more : Calls} {u : InvoiceUpdate}
variable {i : Invoice} {k : PaymentHash}

/-- The task works on the update `u`: it was handed over by a listener or read by a
lookup. -/
inductive Heard (entry : Entry) (past : Calls) (u : InvoiceUpdate) : Prop where
  | update : entry = .handleInvoiceUpdate u → Heard entry past u
  | lookup {k : PaymentHash} {m : Except Status WireInvoice} :
      Answered past (.lnd (.lookupInvoice k)) m → readLookupInvoice k m = .ok u →
      Heard entry past u

theorem Heard.later (h : Heard entry past u) : Heard entry (past ++ more) u := by
  cases h with
  | update he => exact .update he
  | lookup ha hr => exact .lookup ha.later hr

/-- The tasks that move invoices on. -/
def receives : Entry → Bool
  | .handleInvoiceUpdate _ | .settleHoldInvoice _ | .reconcileHeldInvoice _ => true
  | _ => false

/-- Every row about an invoice reports an update that the task has heard. -/
def PaidSite (entry : Entry) (past : Calls) : Op → Prop
  | .tx (.invoice _ e) => ∃ u, Heard entry past u ∧ ReportsPaid u.amtPaidMsat e
  | _ => True

theorem commitSettle_reports (hu : Heard entry past u) :
    Emits (PaidSite entry) (fun _ _ => True) past (commitSettle i k u.amtPaidMsat).run := by
  refine commitSettle_calls (fun _ => trivial) (fun _ _ _ _ _ => trivial)
    fun t utcNow settled heldAmount _ _ => ?_
  exact ⟨u, hu.later.later, settledOutbox_reports ..⟩

theorem commitCancel_reports {reason : CancelReason} (hu : Heard entry past u) :
    Emits (PaidSite entry) (fun _ _ => True) past (commitCancel i k reason u.amtPaidMsat).run := by
  refine commitCancel_calls (fun _ => trivial) fun t utcNow canceled _ => ?_
  exact ⟨u, hu.later.later, canceledOutbox_reports ..⟩

theorem transitionToHeld_reports {t : Timestamp} (hu : Heard entry past u) :
    Emits (PaidSite entry) (fun _ _ => True) past (transitionToHeld i k u.amtPaidMsat t).run := by
  refine transitionToHeld_calls (fun _ => trivial) fun utcNow held _ => ?_
  exact ⟨u, hu.later, heldOutbox_reports ..⟩

theorem applyLndState_reports (hu : Heard entry past u) :
    Emits (PaidSite entry) (fun _ _ => True) past (applyLndState i k u).run := by
  refine applyLndState_calls (fun _ => trivial) (fun _ => ?_) (fun _ => ?_) fun _ => ?_
  · exact commitSettle_reports hu.later
  · exact commitSettle_reports hu
  · exact commitCancel_reports hu

theorem resolveHeld_reports :
    Emits (PaidSite entry) (fun _ _ => True) past (resolveHeld k).run := by
  refine resolveHeld_calls trivial (fun _ => trivial) fun i m u _ hu => ?_
  exact applyLndState_reports (.lookup answered_last hu)

theorem handleInvoiceUpdate_reports (u : InvoiceUpdate) :
    Emits (PaidSite (.handleInvoiceUpdate u)) (fun _ _ => True) []
      (handleInvoiceUpdate u).run := by
  refine handleInvoiceUpdate_calls (fun _ => trivial) trivial (fun i t _ => ?_)
    (fun _ _ => resolveHeld_reports) fun i t _ => ?_
  · exact transitionToHeld_reports (.update rfl)
  · exact commitCancel_reports (.update rfl)

/-- What the tasks of the receiving side keep to; the others are left open. -/
def PaidSites (entry : Entry) (past : Calls) (o : Op) : Prop :=
  receives entry = true → PaidSite entry past o

/-- A description of the receiving side that leaves the other tasks open. -/
theorem program_receives {J : Entry → Calls → Op → Prop} (g : Deployment)
    (hupdate : ∀ u, Emits (J (.handleInvoiceUpdate u)) (fun _ _ => True) []
      (handleInvoiceUpdate u).run)
    (hheld : ∀ entry k, Emits (J entry) (fun _ _ => True) [] (resolveHeld k).run)
    (hopen : ∀ entry past o, receives entry = false → J entry past o) (entry : Entry) :
    Emits (S := gatewaySignature) (J entry) (fun _ _ => True) [] (program g entry) := by
  have receiving {use : App Unit} (h : Emits (J entry) (fun _ _ => True) [] use.run) :
      Emits (S := gatewaySignature) (J entry) (fun _ _ => True) []
        (use.run >>= fun r => pure (Outcome.unit r)) :=
    emits_bind (Emits.mono (fun _ _ _ => trivial) h)
  have other (h : receives entry = false) :
      Emits (S := gatewaySignature) (J entry) (fun _ _ => True) [] (program g entry) :=
    Emits.weaken (fun past o _ => hopen entry past o h) (emits_any _)
  cases entry with
  | handleInvoiceUpdate u => exact receiving (hupdate u)
  | settleHoldInvoice k => exact receiving (hheld _ k)
  | reconcileHeldInvoice k => exact receiving (hheld _ k)
  | _ => exact other rfl

theorem program_reports (g : Deployment) (entry : Entry) :
    Emits (S := gatewaySignature) (PaidSites entry) (fun _ _ => True) [] (program g entry) :=
  program_receives (J := PaidSites) g
    (fun u => Emits.weaken (fun _ _ ho _ => ho) (handleInvoiceUpdate_reports u))
    (fun _ _ => Emits.weaken (fun _ _ ho _ => ho) resolveHeld_reports)
    (fun _ _ _ hf hr => by rw [hf] at hr; cases hr) entry

/-! ### Runs -/

/-- Every incoming row of the outbox is exact as far as its amount is whole. -/
def PaidRows (db : Db) : Prop := ∀ r ∈ db.outbox, r.domainEvent.isOutgoing = false → PaidRowOk r

section
variable {db db' : Db} {e : NewOutboxEvent} {b : Transaction}

theorem PaidRows.publish (hI : PaidRows db) (hp : Publishes db db' e)
    (he : e.domainEvent.isOutgoing = false → ∃ m, ReportsPaid m e) : PaidRows db' := by
  intro r hr hin
  rw [hp.1] at hr
  rcases List.mem_append.mp hr with hr | hr
  · exact hI r hr hin
  · obtain rfl := List.mem_singleton.mp hr
    obtain ⟨m, hm⟩ := he hin
    exact hm.row _

theorem PaidRows.silent (hI : PaidRows db) (hs : Silent db db') : PaidRows db' := by
  unfold PaidRows
  rw [hs.1]
  exact hI

theorem PaidRows.step (hI : PaidRows db) (hb : LedgerStep g entry past db db' b) :
    PaidRows db' := by
  cases hb with
  | intent hsite _ _ _ _ _ hpub =>
      obtain ⟨request, utcNow, -, -, rfl, -⟩ := hsite
      exact hI.publish hpub fun h => by cases h
  | transfer hsite _ _ _ _ _ _ _ _ _ hpub =>
      obtain ⟨-, -, -, -, ⟨utcNow, rfl⟩, -⟩ := hsite
      exact hI.publish hpub fun h => by cases h
  | pending _ _ _ _ _ _ _ hsil | createInvoice _ _ _ _ _ hsil => exact hI.silent hsil
  | completed _ _ _ _ _ _ _ _ hpub | failed _ _ _ _ _ _ _ _ hpub =>
      exact hI.publish hpub fun h => by cases h
  | held _ _ _ _ _ _ _ hpub => exact hI.publish hpub fun _ => ⟨_, heldOutbox_reports ..⟩
  | settled _ _ _ _ _ _ _ hpub => exact hI.publish hpub fun _ => ⟨_, settledOutbox_reports ..⟩
  | canceled _ _ _ _ _ _ _ _ hpub => exact hI.publish hpub fun _ => ⟨_, canceledOutbox_reports ..⟩

end

/-- In every run an incoming row carries the amount that was reported to the task which
wrote it, and its satoshis are that amount exactly when the report is a whole number of
satoshis. -/
theorem paid_amount_exact_iff (g : Deployment) (D : Discipline (gateway g))
    (es : List (Event (gateway g))) (s : Pool (gateway g)) (hrun : Runs D (boot g) es s) :
    (∀ r ∈ s.world.db.outbox, r.domainEvent.isOutgoing = false →
      ∃ amt : UInt64, r.gatewayMetadata.get? "amt_paid_msat" = some (.u64 amt) ∧
        (r.amountSat * 1000 = amt.toNat ↔ 1000 ∣ amt.toNat)) ∧
    (∀ p ∈ s.pasts, receives p.entry = true → ∀ before i e a after,
      p.calls = before ++ ⟨.tx (.invoice i e), a⟩ :: after →
      ∃ u, Heard p.entry before u ∧
        e.gatewayMetadata.get? "amt_paid_msat" = some (.u64 u.amtPaidMsat.msat) ∧
        (e.amountSat * 1000 = (u.amtPaidMsat.msat.toNat : ℤ) ↔ 1000 ∣ u.amtPaidMsat.msat.toNat)) := by
  constructor
  · have hinit : PaidRows Db.empty := fun r hr => by cases hr
    exact (ledger_invariant D (I := fun db _ => PaidRows db) hinit
      (fun _ _ _ _ _ _ hb _ hI => hI.step hb) (fun _ _ hI => hI) hrun).2
  · obtain ⟨-, hexplained⟩ := described_run (program_reports g) hrun
    intro p hp hin before i e a after hcalls
    obtain ⟨u, hu, hreports⟩ := hexplained p hp before _ after hcalls hin
    exact ⟨u, hu, hreports.metadata, hreports.exact_iff⟩

/-- An HTLC over half a satoshi more than the invoice asks for is parked. -/
def oddRun : List (Event (gateway Sample.deployment)) :=
  Sample.issueInvoice 0 ++
    [.env (.acceptHtlc Sample.hash),
      .spawn (.handleInvoiceUpdate (Sample.invoiceUpdate .accepted 250000500)),
      .step 1 (.served Sample.noon), .step 1 (.clock Sample.noon), .step 1 (.clock Sample.noon),
      .step 1 (.served Sample.noon)]

/-- The held rows of a state: the satoshis and the amount in the metadata. -/
def heldAmounts {g : Deployment} (s : Pool (gateway g)) : List (ℤ × Option ℤ) :=
  (s.world.db.outbox.filter fun r => r.domainEvent = .lightningHtlcHeld).map fun r =>
    (r.amountSat, match r.gatewayMetadata.get? "amt_paid_msat" with
      | some (.num n) => some n
      | _ => none)

/-- Its row reports 250000 satoshis, half a satoshi less than LND did. -/
theorem half_satoshi_lost :
    ∃ s, Runs {} (boot Sample.deployment) oddRun s ∧
      heldAmounts s = [(250000, some 250000500)] ∧ (250000 : ℤ) * 1000 ≠ 250000500 := by
  obtain ⟨s, hrun, hc⟩ := exists_run_of_play {} (boot Sample.deployment) oddRun
    (fun s => decide (heldAmounts s = [(250000, some 250000500)])) (by decide +kernel)
  exact ⟨s, hrun, of_decide_eq_true hc, by decide⟩

theorem paid_amount_exact_iff_odd :
    ∃ s, Runs {} (boot Sample.deployment) oddRun s ∧
      ∀ r ∈ s.world.db.outbox, r.domainEvent.isOutgoing = false →
        ∃ amt : UInt64, r.gatewayMetadata.get? "amt_paid_msat" = some (.u64 amt) ∧
          (r.amountSat * 1000 = amt.toNat ↔ 1000 ∣ amt.toNat) := by
  obtain ⟨s, hrun, -⟩ := exists_run_of_play {} (boot Sample.deployment) oddRun
    (fun _ => true) (by decide +kernel)
  exact ⟨s, hrun, (paid_amount_exact_iff Sample.deployment {} oddRun s hrun).1⟩

end LightningGateway.IncomingAmounts
