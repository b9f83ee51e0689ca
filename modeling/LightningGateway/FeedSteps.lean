import LightningGateway.StatusFeed
import LightningGateway.StatusRows
import LightningGateway.StreamGaps

/-!
# The steps of the status feed

What one step can do to a status stream, said once: `Stepped` lists the steps of the
stream itself, `Surrounds` those of everything around it. `stream_invariant` is the
induction rule for facts about every stream of every run.
-/
namespace LightningGateway.FeedSteps
open Primitives TaskPools GuardedRuns InvoiceAggregate OutboxRows GatewayStore GatewayEffects
open GatewayMachine GatewayInvariant CursorFeeds StatusMapping StatusFeed StatusRows
open EventStream (Listener Notification fetchAfterBatch countAfter findBySequence
  maxBackfillEvents)

/-! ### The steps of a stream -/

variable {db : Db} {s t : StatusStream} {row : OutboxEvent} {k : Phase}

/-- The row refers to the invoice of the stream. -/
def About (s : StatusStream) (row : OutboxEvent) : Prop :=
  row.referenceId = s.paymentHash.toHex

/-- After a status was sent, the stream ends because the status is terminal or the
subscriber is gone, or it goes on with `k`. -/
def GoesOn (st : InvoicePaymentStatus) (k : Phase) (gone : Bool) (phase : Phase) : Prop :=
  phase = .closed ∧ (isTerminal st = true ∨ gone = true) ∨ phase = k ∧ st = .pending

theorem isTerminal_eq_false {st : InvoicePaymentStatus} (h : isTerminal st = false) :
    st = .pending := by
  cases st <;> first | rfl | cases h

theorem send_spec (m : Emission) (accepted : Bool) (st : InvoicePaymentStatus) :
    ∃ gone phase, s.send m accepted (if isTerminal st then .closed else k) =
        { s with sent := s.sent ++ [m], gone, phase } ∧ GoesOn st k gone phase := by
  cases accepted with
  | false => exact ⟨true, .closed, rfl, .inl ⟨rfl, .inr rfl⟩⟩
  | true =>
      refine ⟨s.gone, if isTerminal st then .closed else k, rfl, ?_⟩
      by_cases hterm : isTerminal st = true
      · exact .inl ⟨if_pos hterm, .inl hterm⟩
      · exact .inr ⟨if_neg hterm, isTerminal_eq_false (Bool.eq_false_iff.mpr hterm)⟩

theorem send_closed (m : Emission) (accepted : Bool) :
    ∃ gone, s.send m accepted .closed = { s with sent := s.sent ++ [m], gone, phase := .closed } := by
  cases accepted
  · exact ⟨true, rfl⟩
  · exact ⟨s.gone, rfl⟩

/-- What a row does to a stream that goes on with `k`. -/
inductive Handled (db : Db) (s : StatusStream) (row : OutboxEvent) (k : Phase) :
    StatusStream → Prop where
  | quiet :
      (About s row → ∀ st, statusFromEvent row.domainEvent = some st → s.emitter.last = some st) →
      Handled db s row k
        { s with cursor := row.sequence, processed := s.processed ++ [row], phase := k }
  | paying :
      About s row → statusFromEvent row.domainEvent = some .paid → s.emitter.last ≠ some .paid →
      Handled db s row k
        { s with
          cursor := row.sequence
          processed := s.processed ++ [row]
          emitter := ⟨some .paid⟩
          phase := .paying row }
  | emitted {st : InvoicePaymentStatus} {gone : Bool} {phase : Phase} :
      About s row → statusFromEvent row.domainEvent = some st → st ≠ .paid →
      s.emitter.last ≠ some st → GoesOn st k gone phase →
      Handled db s row k
        { s with
          cursor := row.sequence
          processed := s.processed ++ [row]
          emitter := ⟨some st⟩
          sent := s.sent ++ [⟨buildPayload st s.paymentHash none, db, none⟩]
          gone
          phase }

theorem handle_spec (accepted : Bool) : Handled db s row k (s.handle db row accepted k) := by
  unfold StatusStream.handle
  by_cases href : row.referenceId = s.paymentHash.toHex
  case neg =>
    simp only [href, if_false]
    exact .quiet fun ha => absurd ha href
  case pos =>
    simp only [href, if_true]
    unfold StatusStream.emitForEvent
    cases hst : statusFromEvent row.domainEvent with
    | none =>
        refine .quiet fun _ st h => ?_
        cases hst.symm.trans h
    | some st =>
        by_cases hlast : s.emitter.last = some st
        · simp only [StatusEmitter.next, hlast, if_true]
          refine .quiet fun _ st' h => ?_
          cases hst.symm.trans h
          exact hlast
        · simp only [StatusEmitter.next, hlast, if_false]
          have emitted (hne : st ≠ .paid) :
              Handled db s row k
                ({ s with
                  cursor := row.sequence
                  processed := s.processed ++ [row]
                  emitter := ⟨some st⟩ }.send ⟨buildPayload st s.paymentHash none, db, none⟩
                    accepted (if isTerminal st then .closed else k)) := by
            obtain ⟨gone, phase, hsend, hgo⟩ := send_spec (k := k)
              (s := { s with
                cursor := row.sequence
                processed := s.processed ++ [row]
                emitter := ⟨some st⟩ })
              ⟨buildPayload st s.paymentHash none, db, none⟩ accepted st
            rw [hsend]
            exact .emitted href hst hne hlast hgo
          cases st with
          | paid => exact .paying href hst hlast
          | expired | pending => exact emitted (by simp)

/-- What every way of handling a row has in common. -/
theorem Handled.frame (h : Handled db s row k t) :
    (t.paymentHash = s.paymentHash ∧ t.resume = s.resume ∧ t.attachedAt = s.attachedAt ∧
      t.derived = s.derived ∧ t.buffer = s.buffer ∧ t.lagged = s.lagged) ∧
    t.cursor = row.sequence ∧ t.processed = s.processed ++ [row] ∧
    (t.phase = k ∨ t.phase = .closed ∨
      (t.phase = .paying row ∧ About s row ∧ statusFromEvent row.domainEvent = some .paid)) := by
  cases h with
  | quiet => exact ⟨⟨rfl, rfl, rfl, rfl, rfl, rfl⟩, rfl, rfl, .inl rfl⟩
  | paying ha hst => exact ⟨⟨rfl, rfl, rfl, rfl, rfl, rfl⟩, rfl, rfl, .inr (.inr ⟨rfl, ha, hst⟩)⟩
  | emitted _ _ _ _ hp =>
      refine ⟨⟨rfl, rfl, rfl, rfl, rfl, rfl⟩, rfl, rfl, ?_⟩
      rcases hp with ⟨hp, -⟩ | ⟨hp, -⟩
      · exact .inr (.inl hp)
      · exact .inl hp

/-- How a row is handled does not depend on the phase. -/
theorem Handled.anyPhase (h : Handled db s row k t) (p : Phase) :
    Handled db { s with phase := p } row k t := by
  cases h with
  | quiet hq => exact .quiet hq
  | paying ha hst hne => exact .paying ha hst hne
  | emitted ha hst hp hne hgo => exact .emitted ha hst hp hne hgo

/-- The status that a lookup stands for. -/
def lookedUpStatus (source : Db) (h : PaymentHash) (read : Bool) (now : Timestamp) :
    InvoicePaymentStatus :=
  initialStatus ((lookupInvoice source h read).map fun i => (i.state, i.expiryAt)) now

/-- Where a scan goes on. -/
def afterRow (rows : List OutboxEvent) (first : Bool) : Phase :=
  match rows with
  | [] => .paging first
  | rows => .scanning rows first

/-- The steps of a stream. -/
inductive Stepped (db : Db) (s : StatusStream) : StreamStep → StatusStream → Prop where
  | lookedUp {read : Bool} : s.phase = .lookingUp →
      Stepped db s (.lookUp read) { s with phase := .lookedUp db read }
  | kept {source : Db} {read accepted : Bool} {now : Timestamp} {st : InvoicePaymentStatus}
      {phase : Phase} :
      s.phase = .lookedUp source read → lookedUpStatus source s.paymentHash read now = st →
      (s.resume ≠ none ∧ st = .pending) ∨ s.emitter.last = some st →
      (isTerminal st = true ∧ phase = .closed ∨ st = .pending ∧ phase = .live) →
      Stepped db s (.derive now accepted) { s with derived := some st, phase }
  | reported {source : Db} {read accepted gone : Bool} {now : Timestamp}
      {st : InvoicePaymentStatus} {phase : Phase} :
      s.phase = .lookedUp source read → lookedUpStatus source s.paymentHash read now = st →
      s.resume = none ∨ isTerminal st = true → s.emitter.last ≠ some st →
      GoesOn st .live gone phase →
      Stepped db s (.derive now accepted)
        { s with
          derived := some st
          emitter := ⟨some st⟩
          sent := s.sent ++ [⟨buildPayload st s.paymentHash
            (lookupInvoice source s.paymentHash read), source, some now⟩]
          gone
          phase }
  | counted {first accepted : Bool} : s.phase = .counting first →
      countAfter db.outbox s.cursor ≤ maxBackfillEvents →
      Stepped db s (.count true accepted) { s with phase := .paging first }
  | refused {first accepted gone : Bool} : s.phase = .counting first →
      maxBackfillEvents < countAfter db.outbox s.cursor →
      Stepped db s (.count true accepted)
        { s with
          sent := s.sent ++
            [⟨errorPayload (StatusStream.tooMany (countAfter db.outbox s.cursor)), db, none⟩]
          gone
          phase := .closed }
  | drained {first : Bool} : s.phase = .paging first →
      fetchAfterBatch db.outbox s.cursor = [] →
      Stepped db s (.page true) { s with phase := if first then .lookingUp else .live }
  | paged {first : Bool} {rows : List OutboxEvent} : s.phase = .paging first →
      fetchAfterBatch db.outbox s.cursor = rows → rows ≠ [] →
      Stepped db s (.page true) { s with phase := .scanning rows first }
  | scanned {row : OutboxEvent} {rows : List OutboxEvent} {first accepted : Bool}
      {t : StatusStream} : s.phase = .scanning (row :: rows) first →
      Handled db s row (afterRow rows first) t → Stepped db s (.scan accepted) t
  | paid {row : OutboxEvent} {read accepted gone : Bool} : s.phase = .paying row →
      Stepped db s (.pay read accepted)
        { s with
          sent := s.sent ++
            [⟨buildPayload .paid s.paymentHash (lookupInvoice db s.paymentHash read), db, none⟩]
          gone
          phase := .closed }
  | told {accepted : Bool} : s.phase = .live → s.lagged = true →
      Stepped db s (.receive accepted) { s with lagged := false, phase := .counting false }
  | skipped {row : OutboxEvent} {rest : List OutboxEvent} {accepted : Bool} : s.phase = .live →
      s.lagged = false → s.buffer = row :: rest → row.sequence ≤ s.cursor →
      Stepped db s (.receive accepted) { s with buffer := rest }
  | received {row : OutboxEvent} {rest : List OutboxEvent} {accepted : Bool} {t : StatusStream} :
      s.phase = .live → s.lagged = false → s.buffer = row :: rest → s.cursor < row.sequence →
      Handled db { s with buffer := rest } row .live t → Stepped db s (.receive accepted) t
  | overflowed {n : ℕ} : s.phase.isClosed = false → 0 < n → n ≤ s.buffer.length →
      Stepped db s (.overflow n) { s with buffer := s.buffer.drop n, lagged := true }
  | failedCount {first accepted : Bool} : s.phase = .counting first →
      Stepped db s (.count false accepted) s.close
  | failedPage {first : Bool} : s.phase = .paging first → Stepped db s (.page false) s.close
  | left : s.phase = .live → Stepped db s .leave { s with gone := true, phase := .closed }

/-- No step changes what the stream was started with. -/
theorem Stepped.frame {x : StreamStep} (h : Stepped db s x t) :
    t.paymentHash = s.paymentHash ∧ t.resume = s.resume ∧ t.attachedAt = s.attachedAt := by
  cases h with
  | scanned _ hh | received _ _ _ _ hh =>
      obtain ⟨⟨h₁, h₂, h₃, -⟩, -⟩ := hh.frame
      exact ⟨h₁, h₂, h₃⟩
  | _ => exact ⟨rfl, rfl, rfl⟩

theorem derive_spec {now : Timestamp} {accepted : Bool} (h : s.derive now accepted = some t) :
    Stepped db s (.derive now accepted) t := by
  unfold StatusStream.derive at h
  split at h
  case h_2 => cases h
  case h_1 source read hp =>
    simp only at h
    generalize hst : initialStatus ((lookupInvoice source s.paymentHash read).map
      fun i => (i.state, i.expiryAt)) now = st at h
    have hphase : isTerminal st = true ∧ (if isTerminal st then Phase.closed else .live) = .closed ∨
        st = .pending ∧ (if isTerminal st then Phase.closed else .live) = .live := by
      cases st
      · exact .inl ⟨rfl, rfl⟩
      · exact .inl ⟨rfl, rfl⟩
      · exact .inr ⟨rfl, rfl⟩
    by_cases hsay : s.resume = none ∨ isTerminal st = true
    · simp only [hsay, if_true] at h
      by_cases hlast : s.emitter.last = some st
      · simp only [StatusEmitter.next, hlast, if_true] at h
        cases h
        exact .kept hp hst (.inr hlast) hphase
      · simp only [StatusEmitter.next, hlast, if_false] at h
        cases h
        obtain ⟨gone, phase, hsend, hgo⟩ := send_spec (k := .live)
          (s := { s with derived := some st, emitter := ⟨some st⟩ })
          ⟨buildPayload st s.paymentHash (lookupInvoice source s.paymentHash read), source,
            some now⟩ accepted st
        rw [hsend]
        exact .reported hp hst hsay hlast hgo
    · simp only [hsay, if_false] at h
      cases h
      rw [not_or] at hsay
      have hpend : st = .pending := isTerminal_eq_false (Bool.eq_false_iff.mpr hsay.2)
      exact .kept hp hst (.inl ⟨hsay.1, hpend⟩) hphase

/-- Every step of a stream is one of those listed. -/
theorem step_spec {x : StreamStep} (h : s.step db x = some t) : Stepped db s x t := by
  cases x with
  | lookUp read =>
      simp only [StatusStream.step, StatusStream.lookUp] at h
      split at h
      case h_1 hp =>
        cases h
        exact .lookedUp hp
      case h_2 => cases h
  | derive now accepted => exact derive_spec h
  | count read accepted =>
      simp only [StatusStream.step, StatusStream.count] at h
      split at h
      case h_2 => cases h
      case h_1 first hp =>
        cases read with
        | false =>
            cases h
            exact .failedCount hp
        | true =>
            simp only [if_true] at h
            split_ifs at h with hmany
            · obtain ⟨gone, hsend⟩ := send_closed (s := s) ⟨errorPayload (StatusStream.tooMany
                (countAfter db.outbox s.cursor)), db, none⟩ accepted
              rw [hsend] at h
              cases h
              exact .refused hp hmany
            · cases h
              exact .counted hp (not_lt.mp hmany)
  | page read =>
      simp only [StatusStream.step, StatusStream.page] at h
      split at h
      case h_2 => cases h
      case h_1 first hp =>
        cases read with
        | false =>
            cases h
            exact .failedPage hp
        | true =>
            cases hf : fetchAfterBatch db.outbox s.cursor with
            | nil =>
                simp only [hf, if_true] at h
                cases h
                exact .drained hp hf
            | cons r rows =>
                simp only [hf, if_true] at h
                cases h
                exact .paged hp hf (List.cons_ne_nil r rows)
  | scan accepted =>
      simp only [StatusStream.step, StatusStream.scan] at h
      split at h
      case h_2 => cases h
      case h_1 row rows first hp =>
        cases h
        exact .scanned hp (handle_spec accepted)
  | pay read accepted =>
      simp only [StatusStream.step, StatusStream.pay] at h
      split at h
      case h_2 => cases h
      case h_1 row hp =>
        obtain ⟨gone, hsend⟩ := send_closed (s := s) ⟨buildPayload .paid s.paymentHash
          (lookupInvoice db s.paymentHash read), db, none⟩ accepted
        rw [hsend] at h
        cases h
        exact .paid hp
  | receive accepted =>
      simp only [StatusStream.step, StatusStream.receive] at h
      split at h
      case h_2 => cases h
      case h_1 hp =>
        split_ifs at h with hlag
        · cases h
          exact .told hp hlag
        · have hlag' : s.lagged = false := Bool.eq_false_iff.mpr hlag
          split at h
          case h_1 => cases h
          case h_2 row rest hb =>
            split_ifs at h with hle
            · cases h
              exact .skipped hp hlag' hb hle
            · cases h
              exact .received hp hlag' hb (not_le.mp hle) (handle_spec accepted)
  | overflow n =>
      simp only [StatusStream.step, StatusStream.overflow] at h
      split_ifs at h with hno
      cases h
      rw [not_or, not_or] at hno
      exact .overflowed (Bool.eq_false_iff.mpr hno.1) (Nat.pos_of_ne_zero hno.2.1)
        (not_lt.mp hno.2.2)
  | leave =>
      simp only [StatusStream.step, StatusStream.leave] at h
      split at h
      case h_1 hp =>
        cases h
        exact .left hp
      case h_2 => cases h

end LightningGateway.FeedSteps
