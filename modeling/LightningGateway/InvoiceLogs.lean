import LightningGateway.InvoiceAggregate

/-!
# The logs of an invoice

The receiving counterpart of the payment logs. The amount an HTLC parked is part
of the index, because the terminal rows of a held invoice must repeat it.
-/
namespace LightningGateway.InvoiceLogs
open Primitives EventTables InvoiceAggregate

/-- `InvoiceLog n log s held`: `log` is a log of the invoice created from `n`, it
stands for state `s`, and `held` is the amount of its HTLC, if it ever had one. -/
inductive InvoiceLog (n : NewInvoice) :
    List InvoiceEvent → InvoiceState → Option MilliSatoshi → Prop where
  | created : InvoiceLog n [n.createdEvent] .opened none
  | htlcHeld {log : List InvoiceEvent} (heldAt : Timestamp) (amount : MilliSatoshi) :
      InvoiceLog n log .opened none →
      InvoiceLog n (log ++ [.htlcHeld heldAt amount]) .held (some amount)
  | settled {log : List InvoiceEvent} {amount : MilliSatoshi} (settledAt : Timestamp) :
      InvoiceLog n log .held (some amount) →
      InvoiceLog n (log ++ [.settled settledAt]) .settled (some amount)
  | settledIntraledger {log : List InvoiceEvent} (settledAt : Timestamp) :
      InvoiceLog n log .opened none →
      InvoiceLog n (log ++ [.settledIntraledger settledAt]) .settled none
  | canceled {log : List InvoiceEvent} {s : InvoiceState} {held : Option MilliSatoshi}
      (canceledAt : Timestamp) (reason : CancelReason) :
      s = .opened ∨ s = .held → InvoiceLog n log s held →
      InvoiceLog n (log ++ [.canceled canceledAt reason]) .canceled held

variable {n : NewInvoice} {log : List InvoiceEvent} {s : InvoiceState}
variable {held : Option MilliSatoshi}

namespace InvoiceLog

theorem held_of_opened (h : InvoiceLog n log .opened held) : held = none := by
  cases h
  rfl

theorem held_of_held (h : InvoiceLog n log .held held) : ∃ amount, held = some amount := by
  cases h with
  | htlcHeld t amount _ => exact ⟨amount, rfl⟩

theorem any_isHtlcHeld (h : InvoiceLog n log s held) :
    log.any InvoiceEvent.isHtlcHeld = held.isSome := by
  induction h with
  | created => rfl
  | htlcHeld => simp [InvoiceEvent.isHtlcHeld]
  | settled t _ ih | settledIntraledger t _ ih | canceled t r _ _ ih =>
      simpa [InvoiceEvent.isHtlcHeld] using ih

theorem any_isSettled (h : InvoiceLog n log s held) :
    log.any InvoiceEvent.isSettled = true → s = .settled := by
  induction h with
  | created => simp [InvoiceEvent.isSettled, NewInvoice.createdEvent]
  | htlcHeld t a _ ih => simpa [InvoiceEvent.isSettled] using ih
  | settled | settledIntraledger => exact fun _ => rfl
  | canceled t r hs _ ih => rcases hs with rfl | rfl <;> simpa [InvoiceEvent.isSettled] using ih

theorem any_isSettledIntraledger (h : InvoiceLog n log s held) :
    log.any InvoiceEvent.isSettledIntraledger = true → s = .settled := by
  induction h with
  | created => simp [InvoiceEvent.isSettledIntraledger, NewInvoice.createdEvent]
  | htlcHeld t a _ ih => simpa [InvoiceEvent.isSettledIntraledger] using ih
  | settled | settledIntraledger => exact fun _ => rfl
  | canceled t r hs _ ih =>
      rcases hs with rfl | rfl <;> simpa [InvoiceEvent.isSettledIntraledger] using ih

theorem any_isCanceled (h : InvoiceLog n log s held) :
    log.any InvoiceEvent.isCanceled = true ↔ s = .canceled := by
  induction h with
  | created => simp [InvoiceEvent.isCanceled, NewInvoice.createdEvent]
  | htlcHeld t a _ ih | settled t _ ih | settledIntraledger t _ ih =>
      simpa [InvoiceEvent.isCanceled] using ih
  | canceled => simp [InvoiceEvent.isCanceled]

/-- An invoice with an HTLC on record is held, settled or canceled. -/
theorem state_of_htlcHeld (h : InvoiceLog n log s held)
    (hany : log.any InvoiceEvent.isHtlcHeld = true) :
    s = .held ∨ s = .settled ∨ s = .canceled := by
  rw [h.any_isHtlcHeld] at hany
  cases h with
  | created => cases hany
  | htlcHeld => exact .inl rfl
  | settled | settledIntraledger => exact .inr (.inl rfl)
  | canceled => exact .inr (.inr rfl)

/-- It was not settled by a transfer. -/
theorem not_settledIntraledger (h : InvoiceLog n log s held)
    (hany : log.any InvoiceEvent.isHtlcHeld = true) :
    log.any InvoiceEvent.isSettledIntraledger = false := by
  have hheld : held.isSome = true := h.any_isHtlcHeld.symm.trans hany
  have live : ∀ {log s held}, InvoiceLog n log s held → s = .opened ∨ s = .held →
      log.any InvoiceEvent.isSettledIntraledger = false := by
    intro log s held h hs
    rw [Bool.eq_false_iff]
    intro ht
    have hst := h.any_isSettledIntraledger ht
    rcases hs with rfl | rfl <;> cases hst
  cases h with
  | created => rfl
  | htlcHeld t a h => simpa [InvoiceEvent.isSettledIntraledger] using live h (.inl rfl)
  | settled t h => simpa [InvoiceEvent.isSettledIntraledger] using live h (.inr rfl)
  | settledIntraledger => cases hheld
  | canceled t r hs h => simpa [InvoiceEvent.isSettledIntraledger] using live h hs

/-- A log starts with the event of its creation. -/
theorem head (h : InvoiceLog n log s held) : ∃ rest, log = n.createdEvent :: rest := by
  induction h with
  | created => exact ⟨[], rfl⟩
  | htlcHeld t a _ ih | settled t _ ih | settledIntraledger t _ ih | canceled t r _ _ ih =>
      obtain ⟨rest, rfl⟩ := ih
      exact ⟨rest ++ [_], rfl⟩

/-- What replaying a log collects; the preimage is the creation's own. -/
theorem replay (h : InvoiceLog n log s held) :
    let b := log.foldl InvoiceBuilder.apply {}
    (b.paymentHash = some n.paymentHash ∧ b.paymentPreimage = some n.paymentPreimage ∧
      b.walletId = some n.walletId ∧ b.amountMsat = some n.amountMsat ∧
      b.expiryAt = some n.expiryAt ∧ b.boltInvoice = some n.boltInvoice ∧
      b.externalId = some n.externalId ∧ b.createdAt = some n.createdAt) ∧
      b.state.getD .opened = s ∧ b.heldAmountMsat.getD none = held := by
  induction h with
  | created => exact ⟨⟨rfl, rfl, rfl, rfl, rfl, rfl, rfl, rfl⟩, rfl, rfl⟩
  | htlcHeld t a _ ih =>
      simp only [List.foldl_append, List.foldl_cons, List.foldl_nil, InvoiceBuilder.apply]
      exact ⟨ih.1, rfl, rfl⟩
  | settled t _ ih | settledIntraledger t _ ih | canceled t r _ _ ih =>
      simp only [List.foldl_append, List.foldl_cons, List.foldl_nil, InvoiceBuilder.apply]
      exact ⟨ih.1, rfl, ih.2.2⟩

/-- State and parked amount are determined by the log. -/
theorem index_unique {n' : NewInvoice} {s' : InvoiceState} {held' : Option MilliSatoshi}
    (h : InvoiceLog n log s held) (h' : InvoiceLog n' log s' held') : s = s' ∧ held = held' :=
  ⟨h.replay.2.1.symm.trans h'.replay.2.1, h.replay.2.2.symm.trans h'.replay.2.2⟩

/-- An invoice that still waits has waited all along. -/
theorem live_prefix {n' : NewInvoice} {s' : InvoiceState} {held' : Option MilliSatoshi}
    {more : List InvoiceEvent} (h : InvoiceLog n log s held)
    (h' : InvoiceLog n' (log ++ more) s' held') (hs' : s' = .opened ∨ s' = .held) :
    s = .opened ∨ s = .held := by
  induction more using List.reverseRecOn generalizing s' held' with
  | nil =>
      rw [List.append_nil] at h'
      rwa [(h.index_unique h').1]
  | append_singleton more e ih =>
      rw [← List.append_assoc] at h'
      generalize hl : log ++ more ++ [e] = l at h'
      cases h' with
      | created =>
          obtain ⟨rest, rfl⟩ := h.head
          simp at hl
      | htlcHeld t amount hlog =>
          obtain ⟨rfl, -⟩ := List.append_inj' hl rfl
          exact ih hlog (.inl rfl)
      | settled | settledIntraledger | canceled => rcases hs' with hs' | hs' <;> cases hs'

end InvoiceLog

/-- An aggregate in memory that stands for a log of `n`, its unwritten events
included. -/
structure Tracks (n : NewInvoice) (i : Invoice) : Prop where
  log : InvoiceLog n i.events.iterAll i.state i.heldAmountMsat
  paymentHash : i.paymentHash = n.paymentHash
  paymentPreimage : i.paymentPreimage = n.paymentPreimage
  walletId : i.walletId = n.walletId
  amountMsat : i.amountMsat = n.amountMsat
  externalId : i.externalId = n.externalId

/-- Replaying a log succeeds and yields an aggregate that tracks it. -/
theorem hydrate_log (id : InvoiceId) (h : InvoiceLog n log s held) :
    ∃ i, Invoice.tryFromEvents ⟨id, log, []⟩ = .ok i ∧ i.events = ⟨id, log, []⟩ ∧ i.id = id ∧
      i.state = s ∧ i.heldAmountMsat = held ∧ Tracks n i := by
  obtain ⟨⟨hh, hp, hw, ha, he, hb, hx, hc⟩, hs, hm⟩ := h.replay
  have hall : (⟨id, log, []⟩ : EntityEvents InvoiceId InvoiceEvent).iterAll = log := by
    simp [EntityEvents.iterAll]
  unfold Invoice.tryFromEvents InvoiceBuilder.build
  rw [hall, hh, hp, hw, ha, he, hb, hx, hc]
  refine ⟨_, rfl, rfl, rfl, hs, hm, ?_⟩
  exact ⟨by simpa only [hall, hs, hm] using h, rfl, rfl, rfl, rfl, rfl⟩

/-- The expiry is the creation's own, like the preimage. -/
theorem hydrate_expiryAt {id : InvoiceId} {i : Invoice} (h : InvoiceLog n log s held)
    (hi : Invoice.tryFromEvents ⟨id, log, []⟩ = .ok i) : i.expiryAt = n.expiryAt := by
  obtain ⟨⟨hh, hp, hw, ha, he, hb, hx, hc⟩, -, -⟩ := h.replay
  have hall : (⟨id, log, []⟩ : EntityEvents InvoiceId InvoiceEvent).iterAll = log := by
    simp [EntityEvents.iterAll]
  unfold Invoice.tryFromEvents InvoiceBuilder.build at hi
  rw [hall, hh, hp, hw, ha, he, hb, hx, hc] at hi
  cases hi
  rfl

theorem hydrate_tracks {id : InvoiceId} {i : Invoice} (h : InvoiceLog n log s held)
    (hi : Invoice.tryFromEvents ⟨id, log, []⟩ = .ok i) :
    i.events = ⟨id, log, []⟩ ∧ i.id = id ∧ i.state = s ∧ i.heldAmountMsat = held ∧ Tracks n i := by
  obtain ⟨j, hj, he, hid, hs, hm, ht⟩ := hydrate_log id h
  cases hi.symm.trans hj
  exact ⟨he, hid, hs, hm, ht⟩

/-- The aggregate a successful insert hands back. -/
theorem created_tracks (n : NewInvoice) :
    ∃ i, Invoice.tryFromEvents n.intoEvents.markPersisted = .ok i ∧
      i.events = ⟨n.id, [n.createdEvent], []⟩ ∧ i.id = n.id ∧ i.state = .opened ∧ Tracks n i := by
  obtain ⟨i, hi, he, hid, hs, -, ht⟩ := hydrate_log n.id (InvoiceLog.created (n := n))
  exact ⟨i, hi, he, hid, hs, ht⟩

/-! ### Commands -/

variable {i i' : Invoice}

theorem markHeld_executed {amount : MilliSatoshi} {t : Timestamp} (h : Tracks n i)
    (hm : i.markHeld amount t = .ok (.executed, i')) :
    i.state = .opened ∧ i'.state = .held ∧ i'.heldAmountMsat = some amount ∧ i'.id = i.id ∧
      i'.events = i.events.push (.htlcHeld t amount) ∧ Tracks n i' := by
  unfold Invoice.markHeld at hm
  split_ifs at hm with hany hst
  · cases hm
  · cases hm
    have hs : i.state = .opened := not_not.mp hst
    have hlog := h.log
    rw [hs] at hlog
    have hnone := hlog.held_of_opened
    rw [hnone] at hlog
    refine ⟨hs, rfl, rfl, rfl, rfl, ?_, h.paymentHash, h.paymentPreimage, h.walletId, h.amountMsat,
      h.externalId⟩
    simpa using InvoiceLog.htlcHeld t amount hlog

theorem settle_executed {t : Timestamp} (h : Tracks n i)
    (hm : i.settle t = .ok (.executed, i')) :
    i.state = .held ∧ i'.state = .settled ∧ i'.id = i.id ∧ i'.heldAmountMsat = i.heldAmountMsat ∧
      i'.events = i.events.push (.settled t) ∧ Tracks n i' := by
  unfold Invoice.settle at hm
  split_ifs at hm with hany hst
  · cases hm
  · cases hm
    have hs : i.state = .held := not_not.mp hst
    have hlog := h.log
    rw [hs] at hlog
    obtain ⟨amount, ha⟩ := hlog.held_of_held
    rw [ha] at hlog
    refine ⟨hs, rfl, rfl, rfl, rfl, ?_, h.paymentHash, h.paymentPreimage, h.walletId, h.amountMsat,
      h.externalId⟩
    simpa [ha] using InvoiceLog.settled t hlog

theorem cancel_executed {reason : CancelReason} {t : Timestamp} (h : Tracks n i)
    (hm : i.cancel reason t = .ok (.executed, i')) :
    (i.state = .opened ∨ i.state = .held) ∧ i'.state = .canceled ∧ i'.id = i.id ∧
      i'.heldAmountMsat = i.heldAmountMsat ∧
      i'.events = i.events.push (.canceled t reason) ∧ Tracks n i' := by
  unfold Invoice.cancel at hm
  split_ifs at hm with hany hst
  · cases hm
  · cases hm
    have hs : i.state = .opened ∨ i.state = .held := by
      by_contra hne
      exact hst (not_or.mp hne)
    refine ⟨hs, rfl, rfl, rfl, rfl, ?_, h.paymentHash, h.paymentPreimage, h.walletId, h.amountMsat,
      h.externalId⟩
    simpa using InvoiceLog.canceled t reason hs h.log

/-- A held invoice can always be settled. -/
theorem settle_held (t : Timestamp) (h : Tracks n i) (hs : i.state = .held) :
    ∃ i', i.settle t = .ok (.executed, i') := by
  have hany : i.events.iterAll.any InvoiceEvent.isSettled = false := by
    rw [Bool.eq_false_iff]
    intro hc
    rw [h.log.any_isSettled hc] at hs
    cases hs
  unfold Invoice.settle
  rw [hany, if_neg (not_not.mpr hs)]
  exact ⟨_, rfl⟩

/-- A held invoice can always be canceled. -/
theorem cancel_held (reason : CancelReason) (t : Timestamp) (h : Tracks n i)
    (hs : i.state = .held) : ∃ i', i.cancel reason t = .ok (.executed, i') := by
  have hany : i.events.iterAll.any InvoiceEvent.isCanceled = false := by
    rw [Bool.eq_false_iff]
    intro hc
    rw [h.log.any_isCanceled.mp hc] at hs
    cases hs
  have hlive : ¬(i.state ≠ .opened ∧ i.state ≠ .held) := fun hne => hne.2 hs
  unfold Invoice.cancel
  rw [hany, if_neg hlive]
  exact ⟨_, rfl⟩

/-- Settling intraledger changes an open invoice only. -/
theorem settleIntraledger_ok {t : Timestamp} {r : Idempotent} (h : Tracks n i)
    (hs : i.state = .opened) (hm : i.settleIntraledger t = .ok (r, i')) :
    i'.state = .settled ∧ i'.id = i.id ∧ i'.heldAmountMsat = none ∧
      i'.events = i.events.push (.settledIntraledger t) ∧ Tracks n i' := by
  have hlog := h.log
  rw [hs] at hlog
  have hnone := hlog.held_of_opened
  rw [hnone] at hlog
  unfold Invoice.settleIntraledger at hm
  split_ifs at hm with hany
  · cases hlog.any_isSettledIntraledger hany
  · cases hm
    refine ⟨rfl, rfl, hnone, rfl, ?_, h.paymentHash, h.paymentPreimage, h.walletId, h.amountMsat,
      h.externalId⟩
    simpa [hnone] using InvoiceLog.settledIntraledger t hlog

theorem settleIntraledger_executed {t : Timestamp} (h : Tracks n i)
    (hm : i.settleIntraledger t = .ok (.executed, i')) : i.state = .opened ∧ Tracks n i' := by
  have hs : i.state = .opened := by
    unfold Invoice.settleIntraledger at hm
    split_ifs at hm with hany hst
    · cases hm
    · exact not_not.mp hst
  exact ⟨hs, (settleIntraledger_ok h hs hm).2.2.2.2⟩

/-- An open invoice can always be settled intraledger. -/
theorem settleIntraledger_open (t : Timestamp) (h : Tracks n i) (hs : i.state = .opened) :
    ∃ i', i.settleIntraledger t = .ok (.executed, i') := by
  have hany : i.events.iterAll.any InvoiceEvent.isSettledIntraledger = false := by
    rw [Bool.eq_false_iff]
    intro hc
    rw [h.log.any_isSettledIntraledger hc] at hs
    cases hs
  unfold Invoice.settleIntraledger
  simp only [hany, hs]
  exact ⟨_, rfl⟩

end LightningGateway.InvoiceLogs
