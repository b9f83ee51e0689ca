import LightningGateway.EventStream

/-!
# Making the session again

`connection_loop` doubles its pause from attempt to attempt until a session is up. Whenever
a session is lost or cannot be made it sends one report before it pauses, and the
subscription loop answers every report by one check of the backfill limit. Both sides only
share a channel, and the books balance all the same. A loop whose subscriber has gone finds
out by the next thing it wants to send.
-/
namespace LightningGateway.Reconnects
open GuardedRuns EventStream

/-! ### Counting -/

/-- The pauses that have ended since the last session was made. -/
def pause : ℕ → StreamEvent → ℕ
  | _, .connect true => 0
  | n, .wake => n + 1
  | n, _ => n

def pauses (es : List StreamEvent) : ℕ := es.foldl pause 0

def isWake : StreamEvent → Bool
  | .wake => true
  | _ => false

def isRecount : StreamEvent → Bool
  | .recount _ => true
  | _ => false

def isConnect : StreamEvent → Bool
  | .connect _ => true
  | _ => false

def isRecounting : Phase → Bool
  | .recounting => true
  | _ => false

def isClosed : Phase → Bool
  | .closed => true
  | _ => false

/-- The reports that have not been answered yet. -/
def unanswered (s : Subscription) : ℕ :=
  s.channel.count .listenDisconnected + (isRecounting s.phase).toNat

/-- The pause that has not ended yet. -/
def pausing (s : Subscription) : ℕ := (decide (s.listener = .backoff)).toNat

/-! ### What one step does about the session -/

/-- Events that are counted. -/
def counted : StreamEvent → Bool
  | .connect _ | .wake | .recount _ => true
  | _ => false

/-- What a step leaves alone that is not about the session. -/
structure Quiet (s t : Subscription) : Prop where
  backoffMs : t.backoffMs = s.backoffMs
  pausing : t.listener = .backoff ↔ s.listener = .backoff
  connecting : t.listener = .connecting → s.listener = .connecting
  stopped : s.listener = .stopped → t.listener = .stopped
  reports : t.channel.count .listenDisconnected = s.channel.count .listenDisconnected
  recounting : isRecounting t.phase = isRecounting s.phase
  idle : t.phase = .idle → s.phase = .idle
  closed : isClosed s.phase = true → isClosed t.phase = true ∧ t.channel = s.channel

inductive Moves (s : Subscription) : StreamEvent → Subscription → Prop where
  | quiet {e : StreamEvent} {t : Subscription} : counted e = false → Quiet s t → Moves s e t
  /-- The receiver is gone. -/
  | refused : isClosed s.phase = true → s.listener = .connecting →
      Moves s (.connect false) { s with listener := .stopped, notified := [] }
  | connected : s.listener = .connecting →
      Moves s (.connect true) { s with listener := .connected, backoffMs := baseBackoffMs }
  | reported {e : StreamEvent} : counted e = false ∨ e = .connect false →
      s.listener ≠ .backoff → s.listener ≠ .stopped → isClosed s.phase = false →
      Moves s e { s with
        channel := s.channel ++ [.listenDisconnected]
        listener := .backoff }
  | woken : s.listener = .backoff → Moves s .wake
      { s with listener := .connecting, backoffMs := min (s.backoffMs * 2) maxBackoffMs }
  | subscribed {a : UInt64} {read : Bool} {cursor : ℤ} : s.phase = .idle →
      Moves s (.subscribe a read) { s with
        phase := .backfill
        afterSequence := cursor
        lastSentSequence := cursor
        listener := .connecting }
  | noticed {rest : List Notification} : s.phase = .live →
      s.channel = .listenDisconnected :: rest →
      Moves s .recv { s with channel := rest, phase := .recounting }
  | checked {read : Bool} {phase : Phase} : s.phase = .recounting →
      phase = .backfill ∨ phase = .closed → Moves s (.recount read) { s with phase }

variable {s t : Subscription} {e : StreamEvent}

/-- A step that only moves the loop on. -/
theorem quiet_phase {phase : Phase} (hidle : phase ≠ .idle) (hs : isRecounting s.phase = false)
    (hclosed : isClosed s.phase = false) (ht : isRecounting phase = false) (sequence : ℤ)
    (sent : List OutboxRows.OutboxEvent) :
    Quiet s { s with phase, lastSentSequence := sequence, sent } :=
  ⟨rfl, .rfl, id, id, rfl, ht.trans hs.symm, fun h => absurd h hidle,
    fun h => absurd h (by simp [hclosed])⟩

/-- A step of the writers, or one of the session that sends nothing. -/
theorem quiet_listener {listener : Listener} {inserted committed : List OutboxRows.OutboxEvent}
    {nextSequence : ℤ} {notified : List ℤ}
    (hpausing : listener = .backoff ↔ s.listener = .backoff)
    (hconnecting : listener = .connecting → s.listener = .connecting)
    (hstopped : s.listener = .stopped → listener = .stopped) :
    Quiet s { s with nextSequence, inserted, committed, notified, listener } :=
  ⟨rfl, hpausing, hconnecting, hstopped, rfl, rfl, id, fun h => ⟨h, rfl⟩⟩

theorem deliver_closed (h : isClosed s.phase = true) (n : Notification) (listener : Listener) :
    s.deliver n listener = { s with listener := .stopped, notified := [] } := by
  unfold Subscription.deliver
  cases hp : s.phase with
  | closed => rfl
  | _ => rw [hp] at h; cases h

theorem deliver_open (h : isClosed s.phase = false) (n : Notification) (listener : Listener) :
    s.deliver n listener = { s with channel := s.channel ++ [n], listener } := by
  unfold Subscription.deliver
  cases hp : s.phase with
  | closed => rw [hp] at h; cases h
  | _ => rfl

/-- A report that ends in a pause, or in nothing when the receiver is gone. -/
theorem report_moves
    (he : counted e = false ∨ (e = .connect false ∧ s.listener = .connecting))
    (hpausing : s.listener ≠ .backoff) (hstopped : s.listener ≠ .stopped) :
    Moves s e (s.deliver .listenDisconnected .backoff) := by
  cases hclosed : isClosed s.phase with
  | false =>
      rw [deliver_open hclosed]
      exact .reported (he.imp_right And.left) hpausing hstopped hclosed
  | true =>
      rw [deliver_closed hclosed]
      rcases he with he | ⟨rfl, hconnecting⟩
      · exact .quiet he (quiet_listener ⟨nofun, fun h => absurd h hpausing⟩ nofun fun _ => rfl)
      · exact .refused hclosed hconnecting

theorem connect_moves {ok : Bool} (h : s.connect ok = some t) : Moves s (.connect ok) t := by
  unfold Subscription.connect at h
  split at h
  case h_1 hlistener =>
    cases ok with
    | true =>
        cases h
        exact .connected hlistener
    | false =>
        cases h
        exact report_moves (.inr ⟨rfl, hlistener⟩) (by simp [hlistener]) (by simp [hlistener])
  case h_2 => cases h

theorem listen_moves {ok : Bool} (h : s.listen ok = some t) : Moves s (.listen ok) t := by
  unfold Subscription.listen at h
  split at h
  case h_1 hlistener =>
    cases ok with
    | true =>
        cases h
        exact .quiet rfl (quiet_listener (by simp [hlistener]) nofun (by simp [hlistener]))
    | false =>
        cases h
        exact report_moves (.inl rfl) (by simp [hlistener]) (by simp [hlistener])
  case h_2 => cases h

/-- The next notification of a session goes out; a receiver that is gone ends the loop. -/
theorem pass_moves {q : ℤ} {rest : List ℤ} (hpausing : s.listener ≠ .backoff) :
    Moves s .forward ({ s with notified := rest }.deliver (.sequence q) s.listener) := by
  refine .quiet rfl ?_
  cases hclosed : isClosed s.phase with
  | true =>
      rw [deliver_closed (s := { s with notified := rest }) hclosed]
      exact quiet_listener ⟨nofun, fun h => absurd h hpausing⟩ nofun fun _ => rfl
  | false =>
      rw [deliver_open (s := { s with notified := rest }) hclosed]
      exact ⟨rfl, .rfl, id, id, by simp, rfl, id, fun h => absurd h (by simp [hclosed])⟩

theorem forward_moves (h : s.forward = some t) : Moves s .forward t := by
  unfold Subscription.forward at h
  split at h
  case h_1 hlistener _ =>
    cases h
    exact pass_moves (by simp [hlistener])
  case h_2 hlistener _ =>
    cases h
    exact pass_moves (by simp [hlistener])
  case h_3 hlistener _ =>
    cases h
    exact report_moves (.inl rfl) (by simp [hlistener]) (by simp [hlistener])
  case h_4 => cases h

theorem lose_moves (h : s.lose = some t) : Moves s .lose t := by
  unfold Subscription.lose at h
  split at h
  case h_1 hlistener =>
    cases h
    exact .quiet rfl (quiet_listener (by simp [hlistener]) nofun (by simp [hlistener]))
  case h_2 => cases h

theorem wake_moves (h : s.wake = some t) : Moves s .wake t := by
  unfold Subscription.wake at h
  split at h
  case h_1 hlistener =>
    cases h
    exact .woken hlistener
  case h_2 => cases h

theorem cancelListener_moves (h : s.cancelListener = some t) : Moves s .cancelListener t := by
  unfold Subscription.cancelListener at h
  split at h
  case h_4 => cases h
  case h_1 hlistener | h_2 hlistener | h_3 hlistener =>
    cases h
    exact .quiet rfl (quiet_listener (by simp [hlistener]) nofun fun _ => rfl)

theorem commit_moves {q : ℤ} (h : s.commit q = some t) : Moves s (.commit q) t := by
  obtain ⟨row, -, rfl⟩ := Option.map_eq_some_iff.mp h
  exact .quiet rfl (quiet_listener .rfl id id)

theorem subscribe_moves {a : UInt64} {read : Bool} (h : s.subscribe a read = some t) :
    Moves s (.subscribe a read) t := by
  unfold Subscription.subscribe at h
  split at h
  case h_1 hphase =>
    split_ifs at h
    · cases h
      exact .subscribed hphase
    · cases h
      exact .quiet rfl (quiet_listener .rfl id id)
  case h_2 => cases h

theorem readPage_moves {read : Bool} (h : s.readPage read = some t) :
    Moves s (.readPage read) t := by
  unfold Subscription.readPage at h
  split at h
  case h_1 hphase =>
    have hs : isRecounting s.phase = false := by rw [hphase]; rfl
    have hopen : isClosed s.phase = false := by rw [hphase]; rfl
    split_ifs at h
    · split at h
      · cases h
        exact .quiet rfl (quiet_phase (by simp) hs hopen rfl _ _)
      · cases h
        exact .quiet rfl (quiet_phase (by simp) hs hopen rfl _ _)
    · cases h
      exact .quiet rfl (quiet_phase (by simp) hs hopen rfl _ _)
  case h_2 => cases h

theorem send_moves {accepted : Bool} (h : s.send accepted = some t) :
    Moves s (.send accepted) t := by
  unfold Subscription.send at h
  split at h
  case h_1 row rows backfilling hphase =>
    have hs : isRecounting s.phase = false := by rw [hphase]; rfl
    have hopen : isClosed s.phase = false := by rw [hphase]; rfl
    split_ifs at h
    · cases h
      refine .quiet rfl (quiet_phase ?_ hs hopen ?_ _ _)
      · split <;> nofun
      · split <;> rfl
    · cases h
      exact .quiet rfl (quiet_phase (by simp) hs hopen rfl _ _)
  case h_2 => cases h

theorem recv_moves (h : s.recv = some t) : Moves s .recv t := by
  unfold Subscription.recv at h
  split at h
  case h_1 q rest hphase hchannel =>
    have hcount : rest.count .listenDisconnected = s.channel.count .listenDisconnected := by
      rw [hchannel, List.count_cons_of_ne (by simp)]
    split_ifs at h
    · cases h
      exact .quiet rfl ⟨rfl, .rfl, id, id, hcount, rfl, id, fun hc => by simp [hphase, isClosed] at hc⟩
    · cases h
      exact .quiet rfl ⟨rfl, .rfl, id, id, hcount, by simp [hphase, isRecounting], nofun,
        fun hc => by simp [hphase, isClosed] at hc⟩
  case h_2 rest hphase hchannel =>
    cases h
    exact .noticed hphase hchannel
  case h_3 hphase _ =>
    split_ifs at h
    cases h
    exact .quiet rfl (quiet_phase (by simp) (by rw [hphase]; rfl) (by rw [hphase]; rfl) rfl _ _)
  case h_4 => cases h

theorem lookUp_moves {read : Bool} (h : s.lookUp read = some t) : Moves s (.lookUp read) t := by
  unfold Subscription.lookUp at h
  split at h
  case h_1 q hphase =>
    have hs : isRecounting s.phase = false := by rw [hphase]; rfl
    have hopen : isClosed s.phase = false := by rw [hphase]; rfl
    split at h
    · cases h
      exact .quiet rfl (quiet_phase (by simp) hs hopen rfl _ _)
    · cases h
      exact .quiet rfl (quiet_phase (by simp) hs hopen rfl _ _)
  case h_2 => cases h

theorem recount_moves {read : Bool} (h : s.recount read = some t) : Moves s (.recount read) t := by
  unfold Subscription.recount at h
  split at h
  case h_1 hphase =>
    split_ifs at h
    · cases h
      exact .checked hphase (.inl rfl)
    · cases h
      exact .checked hphase (.inr rfl)
  case h_2 => cases h

theorem cancelSubscription_moves (h : s.cancelSubscription = some t) :
    Moves s .cancelSubscription t := by
  unfold Subscription.cancelSubscription at h
  split at h
  case h_1 hphase | h_2 hphase =>
    cases h
    exact .quiet rfl (quiet_phase (by simp) (by rw [hphase]; rfl) (by rw [hphase]; rfl) rfl _ _)
  case h_3 => cases h

theorem next_moves (h : next s e = some t) : Moves s e t := by
  cases e with
  | insert event =>
      cases h
      exact .quiet rfl (quiet_listener .rfl id id)
  | rollback q =>
      cases h
      exact .quiet rfl (quiet_listener .rfl id id)
  | commit q => exact commit_moves h
  | connect ok => exact connect_moves h
  | listen ok => exact listen_moves h
  | lose => exact lose_moves h
  | forward => exact forward_moves h
  | wake => exact wake_moves h
  | cancelListener => exact cancelListener_moves h
  | subscribe a read => exact subscribe_moves h
  | readPage read => exact readPage_moves h
  | send accepted => exact send_moves h
  | recv => exact recv_moves h
  | lookUp read => exact lookUp_moves h
  | recount read => exact recount_moves h
  | cancelSubscription => exact cancelSubscription_moves h

/-! ### The books -/

theorem counted_false (h : counted e = false) :
    (∀ n, pause n e = n) ∧ isWake e = false ∧ isRecount e = false ∧ isConnect e = false := by
  cases e with
  | connect | wake | recount => cases h
  | _ => exact ⟨fun _ => rfl, rfl, rfl, rfl⟩

/-- The pause follows the failures, and every report is answered, queued or being sent. -/
structure Kept (es : List StreamEvent) (s : Subscription) : Prop where
  waits : s.backoffMs = min maxBackoffMs (baseBackoffMs * 2 ^ pauses es)
  idle : s.phase = .idle → s.listener = .stopped
  balance : isClosed s.phase = false →
    es.countP isRecount + unanswered s = es.countP isWake + pausing s

variable {es : List StreamEvent}

theorem pauses_snoc : pauses (es ++ [e]) = pause (pauses es) e := by
  rw [pauses, List.foldl_append]
  rfl

theorem countP_snoc (p : StreamEvent → Bool) :
    (es ++ [e]).countP p = es.countP p + (p e).toNat := by
  rw [List.countP_append]
  cases hp : p e with
  | _ => simp [hp]

/-- Doubling up to a bound, from one pause to the next. -/
theorem doubled (n : ℕ) : min (min maxBackoffMs (baseBackoffMs * 2 ^ n) * 2) maxBackoffMs =
    min maxBackoffMs (baseBackoffMs * 2 ^ (n + 1)) := by
  rw [pow_succ, maxBackoffMs, baseBackoffMs]
  omega

theorem Kept.step (hI : Kept es s) (h : Moves s e t) : Kept (es ++ [e]) t := by
  cases h with
  | quiet he hq =>
      obtain ⟨hpause, hwake, hrecount, -⟩ := counted_false he
      refine ⟨?_, fun hidle => hq.stopped (hI.idle (hq.idle hidle)), fun hopen => ?_⟩
      · rw [hq.backoffMs, pauses_snoc, hpause, hI.waits]
      · have hbefore : isClosed s.phase = false := by
          by_contra hclosed
          rw [(hq.closed (Bool.of_not_eq_false hclosed)).1] at hopen
          cases hopen
        have hbalance := hI.balance hbefore
        unfold unanswered pausing at *
        rw [countP_snoc, countP_snoc, hwake, hrecount, hq.reports, hq.recounting]
        simp only [hq.pausing, Bool.toNat_false]
        omega
  | refused hclosed hlistener =>
      refine ⟨?_, fun _ => rfl, fun hopen => ?_⟩
      · rw [pauses_snoc]
        exact hI.waits
      · exact absurd hclosed (by simp [hopen])
  | connected hlistener =>
      refine ⟨?_, fun hidle => ?_, fun hopen => ?_⟩
      · rw [pauses_snoc]
        rfl
      · exact absurd (hI.idle hidle) (by simp [hlistener])
      · have hbalance := hI.balance hopen
        unfold unanswered pausing at *
        rw [countP_snoc, countP_snoc]
        simp only [hlistener] at hbalance
        exact hbalance
  | reported he hpausing hstopped hopen =>
      have hcounts : (∀ n, pause n e = n) ∧ isWake e = false ∧ isRecount e = false := by
        rcases he with he | rfl
        · obtain ⟨hpause, hwake, hrecount, -⟩ := counted_false he
          exact ⟨hpause, hwake, hrecount⟩
        · exact ⟨fun _ => rfl, rfl, rfl⟩
      obtain ⟨hpause, hwake, hrecount⟩ := hcounts
      refine ⟨?_, fun hidle => absurd (hI.idle hidle) hstopped, fun _ => ?_⟩
      · rw [pauses_snoc, hpause]
        exact hI.waits
      · have hbalance := hI.balance hopen
        unfold unanswered pausing at *
        rw [countP_snoc, countP_snoc, hwake, hrecount, List.count_append]
        simp only [hpausing, decide_false, Bool.toNat_false] at hbalance
        simp only [List.count_singleton_self, decide_true, Bool.toNat_true, Bool.toNat_false]
        omega
  | woken hlistener =>
      refine ⟨?_, fun hidle => ?_, fun hopen => ?_⟩
      · rw [pauses_snoc]
        change min (s.backoffMs * 2) maxBackoffMs = _
        rw [hI.waits]
        exact doubled _
      · exact absurd (hI.idle hidle) (by simp [hlistener])
      · have hbalance := hI.balance hopen
        unfold unanswered pausing at *
        rw [countP_snoc, countP_snoc]
        simp only [hlistener, decide_true, Bool.toNat_true] at hbalance
        simp only [isRecount, isWake, Bool.toNat_true, Bool.toNat_false, reduceCtorEq, decide_false]
        omega
  | subscribed hphase =>
      refine ⟨?_, nofun, fun _ => ?_⟩
      · rw [pauses_snoc]
        exact hI.waits
      · have hbalance := hI.balance (by rw [hphase]; rfl)
        unfold unanswered pausing at *
        rw [countP_snoc, countP_snoc]
        simp only [hphase, hI.idle hphase] at hbalance
        exact hbalance
  | noticed hphase hchannel =>
      refine ⟨?_, nofun, fun _ => ?_⟩
      · rw [pauses_snoc]
        exact hI.waits
      · have hbalance := hI.balance (by rw [hphase]; rfl)
        unfold unanswered pausing at *
        rw [countP_snoc, countP_snoc]
        rw [hphase, hchannel, List.count_cons_self] at hbalance
        simp only [isRecounting, isRecount, isWake, Bool.toNat_true, Bool.toNat_false] at hbalance ⊢
        omega
  | checked hphase hafter =>
      have hbalance := hI.balance (by rw [hphase]; rfl)
      refine ⟨?_, fun hidle => ?_, fun hopen => ?_⟩
      · rw [pauses_snoc]
        exact hI.waits
      · rcases hafter with rfl | rfl <;> cases hidle
      · rcases hafter with rfl | rfl
        · unfold unanswered pausing at *
          rw [countP_snoc, countP_snoc]
          rw [hphase] at hbalance
          simp only [isRecounting, isRecount, isWake, Bool.toNat_true, Bool.toNat_false]
            at hbalance ⊢
          omega
        · cases hopen

/-- The attempts that a loop without a subscriber may still make. -/
def attempts (s : Subscription) : ℕ :=
  (decide (s.listener = .connecting ∨ s.listener = .backoff)).toNat

theorem closed_step (h : Moves s e t) (hs : isClosed s.phase = true) :
    isClosed t.phase = true ∧ t.channel = s.channel ∧
      attempts t + (isConnect e).toNat ≤ attempts s := by
  cases h with
  | quiet he hq =>
      obtain ⟨-, -, -, hconnect⟩ := counted_false he
      obtain ⟨hclosed, hchannel⟩ := hq.closed hs
      refine ⟨hclosed, hchannel, ?_⟩
      unfold attempts
      rw [hconnect]
      have himp : t.listener = .connecting ∨ t.listener = .backoff →
          s.listener = .connecting ∨ s.listener = .backoff :=
        Or.imp hq.connecting hq.pausing.mp
      by_cases ht : t.listener = .connecting ∨ t.listener = .backoff
      · simp [ht, himp ht]
      · simp [ht]
  | refused _ hlistener | connected hlistener => exact ⟨hs, rfl, by simp [attempts, hlistener, isConnect]⟩
  | reported _ _ _ hopen => rw [hs] at hopen; cases hopen
  | woken hlistener => exact ⟨hs, rfl, by simp [attempts, hlistener, isConnect]⟩
  | subscribed hphase | noticed hphase | checked hphase => rw [hphase] at hs; cases hs

/-- In every run of the stream: each pause is twice as long as the one before, up to the
bound, and starts again from a second once a session was made; as long as the subscriber is
there, every failed attempt and every lost session has been answered by one check of the
backfill limit, or its report is on the way. When the subscriber has gone, the loop makes one
more attempt at most and sends nothing more. -/
theorem reconnects_accounted {guard : Subscription → StreamEvent → Prop}
    (hrun : Run next guard .empty es s) :
    s.backoffMs = min maxBackoffMs (baseBackoffMs * 2 ^ pauses es) ∧
      (isClosed s.phase = false →
        es.countP isRecount + unanswered s = es.countP isWake + pausing s) ∧
      ∀ more t, isClosed s.phase = true → Run next guard s more t →
        more.countP isConnect ≤ 1 ∧ t.channel = s.channel ∧ isClosed t.phase = true := by
  have hkept : Kept es s := by
    refine hrun.history (fun es s e t _ hnext hs => hs.step (next_moves hnext)) ?_
    exact ⟨rfl, fun _ => rfl, fun _ => rfl⟩
  refine ⟨hkept.waits, hkept.balance, fun more t hclosed hmore => ?_⟩
  have hafter : isClosed t.phase = true ∧ t.channel = s.channel ∧
      attempts t + more.countP isConnect ≤ attempts s := by
    refine hmore.history (J := fun more u => isClosed u.phase = true ∧ u.channel = s.channel ∧
      attempts u + more.countP isConnect ≤ attempts s) ?_ ⟨hclosed, rfl, le_rfl⟩
    rintro more u e v - hnext ⟨hu, hchannel, hle⟩
    obtain ⟨hv, hsame, hstep⟩ := closed_step (next_moves hnext) hu
    refine ⟨hv, hsame.trans hchannel, ?_⟩
    rw [countP_snoc]
    omega
  obtain ⟨ht, hchannel, hle⟩ := hafter
  have hone : attempts s ≤ 1 := Bool.toNat_le _
  exact ⟨by omega, hchannel, ht⟩

/-- Two attempts fail, the third makes a session, and it is lost before anything happens. -/
def flaky : List StreamEvent :=
  [.subscribe 0 true, .connect false, .wake, .readPage true, .connect false, .recv, .wake,
    .connect true, .listen true, .recount true, .lose, .forward, .readPage true]

theorem reconnects_accounted_flaky :
    ∃ s, Run next (fun _ _ => true = true) .empty flaky s ∧ s.listener = .backoff ∧
      s.backoffMs = 1000 ∧ unanswered s = 2 := by
  obtain ⟨s, hrun, hs⟩ := exists_run_of_play next (fun _ _ => true) .empty flaky
    (fun s => s.listener = .backoff ∧ isClosed s.phase = false) (by decide +kernel)
  obtain ⟨hlistener, hopen⟩ := of_decide_eq_true hs
  obtain ⟨hwaits, hbalance, -⟩ := reconnects_accounted hrun
  have hunanswered := hbalance hopen
  rw [pausing, hlistener] at hunanswered
  have hrecounts : flaky.countP isRecount = 1 := by decide
  have hwakes : flaky.countP isWake = 2 := by decide
  rw [hrecounts, hwakes] at hunanswered
  simp only [decide_true, Bool.toNat_true] at hunanswered
  exact ⟨s, hrun, hlistener, hwaits, by omega⟩

end LightningGateway.Reconnects
