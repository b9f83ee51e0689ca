import LightningGateway.PaymentAggregate

/-!
# The logs of a payment

`PaymentLog n log s` generates the event logs of the payment created from `n`,
together with the state they stand for. Replaying such a log yields an aggregate
in that state, and every command that takes effect appends one event and stays
inside the family.
-/
namespace LightningGateway.PaymentLogs
open Primitives EventTables PaymentAggregate

inductive PaymentLog (n : NewPayment) : List PaymentEvent → PaymentState → Prop where
  | initiated : PaymentLog n [n.initiatedEvent] .initiated
  | pending {log : List PaymentEvent} (sentAt : Timestamp) :
      PaymentLog n log .initiated → PaymentLog n (log ++ [.pending sentAt]) .pending
  | completed {log : List PaymentEvent} {s : PaymentState} (settledAt : Timestamp)
      (preimage : Preimage) (fees : MilliSatoshi) (hops : List Hop) :
      s = .initiated ∨ s = .pending → PaymentLog n log s →
      PaymentLog n (log ++ [.completed settledAt preimage fees hops]) .completed
  | failed {log : List PaymentEvent} {s : PaymentState} (failedAt : Timestamp)
      (reason : FailureReason) :
      s = .initiated ∨ s = .pending → PaymentLog n log s →
      PaymentLog n (log ++ [.failed failedAt reason]) .failed
  | reversed {log : List PaymentEvent} (reversedAt : Timestamp) (reason : String) :
      PaymentLog n log .completed → PaymentLog n (log ++ [.reversed reversedAt reason]) .reversed

variable {n : NewPayment} {log : List PaymentEvent} {s : PaymentState}

namespace PaymentLog

theorem any_isPending (h : PaymentLog n log s) :
    (s = .initiated → log.any PaymentEvent.isPending = false) ∧
      (s = .pending → log.any PaymentEvent.isPending = true) := by
  cases h <;> simp [PaymentEvent.isPending, NewPayment.initiatedEvent]

theorem any_isCompleted (h : PaymentLog n log s) :
    log.any PaymentEvent.isCompleted = true ↔ s = .completed ∨ s = .reversed := by
  induction h with
  | initiated => simp [PaymentEvent.isCompleted, NewPayment.initiatedEvent]
  | pending t _ ih => simpa [PaymentEvent.isCompleted] using ih
  | completed => simp [PaymentEvent.isCompleted]
  | failed t r hs _ ih => rcases hs with rfl | rfl <;> simpa [PaymentEvent.isCompleted] using ih
  | reversed t r _ ih => simpa [PaymentEvent.isCompleted] using ih

theorem any_isFailed (h : PaymentLog n log s) :
    log.any PaymentEvent.isFailed = true ↔ s = .failed := by
  induction h with
  | initiated => simp [PaymentEvent.isFailed, NewPayment.initiatedEvent]
  | pending t _ ih => simpa [PaymentEvent.isFailed] using ih
  | completed t p f o hs _ ih => rcases hs with rfl | rfl <;> simpa [PaymentEvent.isFailed] using ih
  | failed => simp [PaymentEvent.isFailed]
  | reversed t r _ ih => simpa [PaymentEvent.isFailed] using ih

/-- A log starts with the event of its creation. -/
theorem head (h : PaymentLog n log s) : ∃ rest, log = n.initiatedEvent :: rest := by
  induction h with
  | initiated => exact ⟨[], rfl⟩
  | pending t _ ih | completed t p f o _ _ ih | failed t r _ _ ih | reversed t r _ ih =>
      obtain ⟨rest, rfl⟩ := ih
      exact ⟨rest ++ [_], rfl⟩

theorem replay (h : PaymentLog n log s) :
    let b := log.foldl PaymentBuilder.apply {}
    b.paymentHash = some n.paymentHash ∧ b.walletId = some n.walletId ∧
      b.amountMsat = some n.amountMsat ∧ b.maxFeeMsat = some n.maxFeeMsat ∧
      b.initiatedAt = some n.initiatedAt ∧ b.state.getD .initiated = s := by
  induction h with
  | initiated => exact ⟨rfl, rfl, rfl, rfl, rfl, rfl⟩
  | pending t _ ih | completed t p f o _ _ ih | failed t r _ _ ih | reversed t r _ ih =>
      simp only [List.foldl_append, List.foldl_cons, List.foldl_nil, PaymentBuilder.apply]
      exact ⟨ih.1, ih.2.1, ih.2.2.1, ih.2.2.2.1, ih.2.2.2.2.1, rfl⟩

/-- The creation event fixes the columns of the payment for good. -/
theorem origin_unique {n' : NewPayment} {s' : PaymentState} {m : List PaymentEvent}
    (h : PaymentLog n log s) (h' : PaymentLog n' (log ++ m) s') :
    n.paymentHash = n'.paymentHash ∧ n.walletId = n'.walletId ∧ n.amountMsat = n'.amountMsat ∧
      n.maxFeeMsat = n'.maxFeeMsat := by
  obtain ⟨rest, hrest⟩ := h.head
  obtain ⟨rest', hrest'⟩ := h'.head
  rw [hrest, List.cons_append] at hrest'
  have hhead := (List.cons.inj hrest').1
  unfold NewPayment.initiatedEvent at hhead
  injection hhead with hh hw ha hf
  exact ⟨hh, hw, ha, hf⟩

/-- Only a live payment takes another event, its reversal apart. -/
theorem init_live {x : PaymentEvent} (h : PaymentLog n (log ++ [x]) s) (hlog : log ≠ [])
    (hs : s ≠ .reversed) : ∃ s', (s' = .initiated ∨ s' = .pending) ∧ PaymentLog n log s' := by
  generalize hl : log ++ [x] = l at h
  cases h with
  | initiated =>
      rw [List.append_eq_singleton_iff] at hl
      obtain ⟨rfl, -⟩ | ⟨-, hx⟩ := hl
      · exact absurd rfl hlog
      · cases hx
  | pending t h =>
      obtain ⟨rfl, -⟩ := List.append_inj' hl rfl
      exact ⟨_, .inl rfl, h⟩
  | completed t p f o hs' h | failed t r hs' h =>
      obtain ⟨rfl, -⟩ := List.append_inj' hl rfl
      exact ⟨_, hs', h⟩
  | reversed t r h => exact absurd rfl hs

/-- What precedes new events is the log of a live payment. -/
theorem live_prefix {n₀ : NewPayment} {s₀ : PaymentState} {more : List PaymentEvent}
    (h₀ : PaymentLog n₀ log s₀) (h : PaymentLog n (log ++ more) s) (hm : more ≠ [])
    (hs : s ≠ .reversed) : s₀ = .initiated ∨ s₀ = .pending := by
  obtain ⟨init, x, rfl⟩ := (List.eq_nil_or_concat more).resolve_left hm
  obtain ⟨rest, hrest⟩ := h₀.head
  rw [List.concat_eq_append, ← List.append_assoc] at h
  obtain ⟨s', hs', h'⟩ := h.init_live (by simp [hrest]) hs
  have hc : (log ++ init).any PaymentEvent.isCompleted = false := by
    rw [Bool.eq_false_iff]
    intro hc
    rcases h'.any_isCompleted.mp hc with rfl | rfl <;> rcases hs' with hs' | hs' <;> cases hs'
  have hf : (log ++ init).any PaymentEvent.isFailed = false := by
    rw [Bool.eq_false_iff]
    intro hf
    obtain rfl := h'.any_isFailed.mp hf
    rcases hs' with hs' | hs' <;> cases hs'
  rw [List.any_append, Bool.or_eq_false_iff] at hc hf
  cases s₀ with
  | initiated => exact .inl rfl
  | pending => exact .inr rfl
  | completed => rw [h₀.any_isCompleted.mpr (.inl rfl)] at hc; cases hc.1
  | reversed => rw [h₀.any_isCompleted.mpr (.inr rfl)] at hc; cases hc.1
  | failed => rw [h₀.any_isFailed.mpr rfl] at hf; cases hf.1

end PaymentLog

/-- An aggregate in memory that stands for a log of `n`, its unwritten events
included. -/
structure Tracks (n : NewPayment) (p : Payment) : Prop where
  log : PaymentLog n p.events.iterAll p.state
  paymentHash : p.paymentHash = n.paymentHash
  walletId : p.walletId = n.walletId
  amountMsat : p.amountMsat = n.amountMsat
  maxFeeMsat : p.maxFeeMsat = n.maxFeeMsat

/-- Replaying a log succeeds and yields an aggregate that tracks it. -/
theorem hydrate_log (id : PaymentId) (h : PaymentLog n log s) :
    ∃ p, Payment.tryFromEvents ⟨id, log, []⟩ = .ok p ∧ p.events = ⟨id, log, []⟩ ∧ p.id = id ∧
      p.state = s ∧ Tracks n p := by
  obtain ⟨hh, hw, ha, hf, hi, hs⟩ := h.replay
  have hall : (⟨id, log, []⟩ : EntityEvents PaymentId PaymentEvent).iterAll = log := by
    simp [EntityEvents.iterAll]
  unfold Payment.tryFromEvents PaymentBuilder.build
  rw [hall, hh, hw, ha, hf, hi]
  refine ⟨_, rfl, rfl, rfl, hs, ?_⟩
  exact ⟨by simpa only [hall, hs] using h, rfl, rfl, rfl, rfl⟩

theorem hydrate_tracks {id : PaymentId} {p : Payment} (h : PaymentLog n log s)
    (hp : Payment.tryFromEvents ⟨id, log, []⟩ = .ok p) :
    p.events = ⟨id, log, []⟩ ∧ p.id = id ∧ p.state = s ∧ Tracks n p := by
  obtain ⟨q, hq, he, hid, hs, ht⟩ := hydrate_log id h
  cases hp.symm.trans hq
  exact ⟨he, hid, hs, ht⟩

/-- The aggregate a successful insert hands back. -/
theorem created_tracks (n : NewPayment) :
    ∃ p, Payment.tryFromEvents n.intoEvents.markPersisted = .ok p ∧
      p.events = ⟨n.id, [n.initiatedEvent], []⟩ ∧ p.id = n.id ∧ p.state = .initiated ∧
      Tracks n p :=
  hydrate_log n.id PaymentLog.initiated

/-! ### Commands -/

variable {p p' : Payment}

theorem markPending_executed {t : Timestamp} (h : Tracks n p)
    (hm : p.markPending t = .ok (.executed, p')) :
    p.state = .initiated ∧ p' = { p with events := p.events.push (.pending t), state := .pending } ∧
      Tracks n p' := by
  have hpend := h.log.any_isPending
  unfold Payment.markPending at hm
  cases hs : p.state with
  | initiated =>
      rw [hs] at hm
      cases hm
      refine ⟨rfl, rfl, ?_, h.paymentHash, h.walletId, h.amountMsat, h.maxFeeMsat⟩
      simpa using PaymentLog.pending t (hs ▸ h.log)
  | pending =>
      rw [hs] at hm
      simp only [hpend.2 hs, if_true] at hm
      cases hm
  | completed | failed | reversed =>
      rw [hs] at hm
      cases hm

theorem settle_executed {preimage : Preimage} {fees : MilliSatoshi} {hops : List Hop}
    {t : Timestamp} (h : Tracks n p) (hm : p.settle preimage fees hops t = .ok (.executed, p')) :
    (p.state = .initiated ∨ p.state = .pending) ∧ p'.state = .completed ∧ p'.id = p.id ∧
      p'.events = p.events.push (.completed t preimage fees hops) ∧ Tracks n p' := by
  unfold Payment.settle at hm
  split_ifs at hm with hany hst
  · cases hm
  · cases hm
    have hs : p.state = .initiated ∨ p.state = .pending := by
      by_contra hne
      exact hst (not_or.mp hne)
    refine ⟨hs, rfl, rfl, rfl, ?_, h.paymentHash, h.walletId, h.amountMsat, h.maxFeeMsat⟩
    simpa using PaymentLog.completed t preimage fees hops hs h.log

theorem fail_executed {reason : FailureReason} {t : Timestamp} (h : Tracks n p)
    (hm : p.fail reason t = .ok (.executed, p')) :
    (p.state = .initiated ∨ p.state = .pending) ∧ p'.state = .failed ∧ p'.id = p.id ∧
      p'.events = p.events.push (.failed t reason) ∧ Tracks n p' := by
  unfold Payment.fail at hm
  split_ifs at hm with hany hst
  · cases hm
  · cases hm
    have hs : p.state = .initiated ∨ p.state = .pending := by
      by_contra hne
      exact hst (not_or.mp hne)
    refine ⟨hs, rfl, rfl, rfl, ?_, h.paymentHash, h.walletId, h.amountMsat, h.maxFeeMsat⟩
    simpa using PaymentLog.failed t reason hs h.log

theorem reverse_executed {reason : String} {t : Timestamp} (h : Tracks n p)
    (hm : p.reverse reason t = .ok (.executed, p')) :
    p.state = .completed ∧ p'.state = .reversed ∧ p'.id = p.id ∧
      p'.events = p.events.push (.reversed t reason) ∧ Tracks n p' := by
  unfold Payment.reverse at hm
  split_ifs at hm with hany hst
  · cases hm
  · cases hm
    have hs : p.state = .completed := not_not.mp hst
    refine ⟨hs, rfl, rfl, rfl, ?_, h.paymentHash, h.walletId, h.amountMsat, h.maxFeeMsat⟩
    simpa using PaymentLog.reversed t reason (hs ▸ h.log)

/-- A live payment can always be settled. -/
theorem settle_live (preimage : Preimage) (fees : MilliSatoshi) (hops : List Hop) (t : Timestamp)
    (h : Tracks n p) (hs : p.state = .initiated ∨ p.state = .pending) :
    ∃ p', p.settle preimage fees hops t = .ok (.executed, p') := by
  refine Payment.settle_ok (fun hc => ?_) (by rcases hs with hs | hs <;> simp [hs])
  rcases h.log.any_isCompleted.mp hc with hc | hc <;> rcases hs with hs | hs <;>
    rw [hs] at hc <;> cases hc

/-- A live payment can always be failed. -/
theorem fail_live (reason : FailureReason) (t : Timestamp) (h : Tracks n p)
    (hs : p.state = .initiated ∨ p.state = .pending) :
    ∃ p', p.fail reason t = .ok (.executed, p') := by
  refine Payment.fail_ok (fun hf => ?_) (by rcases hs with hs | hs <;> simp [hs])
  rcases hs with hs | hs <;> rw [h.log.any_isFailed, hs] at hf <;> cases hf

end LightningGateway.PaymentLogs
