import LightningGateway.EventStream

/-!
# Gaps in the event stream

The subscription loop remembers one number, the last sequence it sent, and skips
everything that is not above it. That is sound as long as no row becomes visible
behind the cursor or unseen. Two things break it: a transaction that commits after
a later sequence was sent or queued, and a row that commits while nobody listens
after the loop has read its last page. Without them the rows sent are at all times
exactly the visible rows up to the cursor, in order.
-/
namespace LightningGateway.StreamGaps
open GuardedRuns CursorFeeds OutboxRows EventStream

/-! ### Assumptions -/

/-- Database reads succeed. -/
def readsSucceed : StreamEvent → Bool
  | .subscribe _ read | .readPage read | .lookUp read | .recount read => read
  | _ => true

/-- Rows commit in the order of their sequences. -/
def commitsInOrder (s : Subscription) : StreamEvent → Bool
  | .commit sequence => s.committed.all fun r => r.sequence < sequence
  | _ => true

/-- From the subscriber's first step on, the session listens. -/
def staysConnected (s : Subscription) : StreamEvent → Bool
  | .connect ok | .listen ok => ok
  | .lose | .cancelListener => false
  | .commit _ | .readPage _ | .send _ | .recv | .lookUp _ | .recount _ =>
      match s.phase with
      | .idle => true
      | _ => s.listener = .listening
  | _ => true

/-- The loop has read its last page and acts on notifications. -/
def streaming : Phase → Bool
  | .live | .fetching _ | .sending _ false => true
  | _ => false

/-- The rows the loop is about to send. -/
def rowsInHand : Phase → List OutboxEvent
  | .sending rows _ => rows
  | _ => []

/-- There is no session that listens, and the loss of the last one, if there was
one, has been reported. -/
def betweenSessions : Listener → Bool
  | .connecting | .connected | .backoff => true
  | _ => false

/-- No row commits unseen: between two sessions the loop is still to read a page, or
has been told to. -/
def commitsCovered (s : Subscription) : StreamEvent → Bool
  | .commit _ => !(betweenSessions s.listener && streaming s.phase &&
      decide (.listenDisconnected ∉ s.channel))
  | _ => true

/-! ### What is on its way to the loop -/

def announces : Notification → Option ℤ
  | .sequence q => some q
  | .listenDisconnected => none

/-- What the loop has taken from its channel and not finished. -/
def inHand : Phase → List Notification
  | .fetching q => [.sequence q]
  | .sending rows false => rows.map fun r => .sequence r.sequence
  | _ => []

/-- What will come when nothing else happens: a lost session is reported, and after
the end of the connection loop comes the end of the stream. -/
def ending : Listener → List Notification
  | .lost | .stopped => [.listenDisconnected]
  | _ => []

def ahead (s : Subscription) : List Notification :=
  (inHand s.phase ++ s.channel) ++ (s.notified.map Notification.sequence ++ ending s.listener)

/-- The notification of `q` is still to be processed. -/
def outstanding (s : Subscription) (q : ℤ) : Prop := .sequence q ∈ ahead s

/-- A row that commits is not behind the loop: no later sequence was sent or is in
hand, nor, once the loop streams, is the notification of one queued before it. -/
def commitsInFront (s : Subscription) : StreamEvent → Bool
  | .commit q => s.afterSequence < q →
      s.lastSentSequence < q ∧ (∀ x ∈ rowsInHand s.phase, x.sequence < q) ∧
        (streaming s.phase = true → ∀ n ∈ ahead s, ∀ k ∈ announces n, k < q)
  | _ => true

/-! ### The invariant -/

/-- Every visible row above the cursor is reached before anything larger. -/
def AllCovered (s : Subscription) : Prop :=
  ∀ r ∈ s.committed, s.lastSentSequence < r.sequence → Covers announces r.sequence (ahead s)

/-- The rows in hand are visible rows above the cursor, in order. -/
def RowsAbove (s : Subscription) (rows : List OutboxEvent) : Prop :=
  rows.Pairwise (fun a b => a.sequence < b.sequence) ∧
    ∀ x ∈ rows, x ∈ s.committed ∧ s.lastSentSequence < x.sequence

/-- A page leaves out only rows above it. -/
def PageComplete (s : Subscription) (rows : List OutboxEvent) : Prop :=
  ∀ r ∈ s.committed, s.lastSentSequence < r.sequence →
    r ∈ rows ∨ ∀ x ∈ rows, x.sequence < r.sequence

def PhaseOk (s : Subscription) : Phase → Prop
  | .sending rows true => RowsAbove s rows ∧ PageComplete s rows
  | .sending rows false => RowsAbove s rows ∧ AllCovered s
  | .fetching q => s.lastSentSequence < q ∧ AllCovered s
  | .live => AllCovered s
  | _ => True

structure Following (s : Subscription) : Prop where
  distinct : (s.committed ++ s.inserted).Pairwise fun a b => a.sequence ≠ b.sequence
  bounded : ∀ r ∈ s.committed ++ s.inserted, r.sequence < s.nextSequence
  silent : s.listener ≠ .listening → s.listener ≠ .lost → s.notified = []
  cursor : s.lastSentSequence = s.afterSequence ∨
    ∃ r ∈ s.committed, r.sequence = s.lastSentSequence
  start_le : s.afterSequence ≤ s.lastSentSequence
  ordered : s.sent.Pairwise fun a b => a.sequence < b.sequence
  sent : ∀ r, r ∈ s.sent ↔
    r ∈ s.committed ∧ s.afterSequence < r.sequence ∧ r.sequence ≤ s.lastSentSequence
  known : ∀ q, .sequence q ∈ ahead s → ∃ r ∈ s.committed, r.sequence = q
  phase : PhaseOk s s.phase
  idle : s.phase = .idle → s.sent = [] ∧ s.listener = .stopped

variable {s t : Subscription}

/-! ### The rows of the table -/

/-- A row is determined by its sequence. -/
theorem eq_of_sequence_eq {rows : List OutboxEvent} {r r' : OutboxEvent}
    (hd : rows.Pairwise fun a b => a.sequence ≠ b.sequence) (hr : r ∈ rows) (hr' : r' ∈ rows)
    (h : r.sequence = r'.sequence) : r = r' :=
  have hnodup : (rows.map OutboxEvent.sequence).Nodup := List.pairwise_map.mpr hd
  List.inj_on_of_nodup_map hnodup hr hr' h

theorem insert_rows (event : NewOutboxEvent) :
    (s.insert event).committed ++ (s.insert event).inserted =
      (s.committed ++ s.inserted) ++ [event.row s.nextSequence] :=
  (List.append_assoc ..).symm

/-- A new row is numbered above all others. -/
theorem insert_distinct (event : NewOutboxEvent)
    (hd : (s.committed ++ s.inserted).Pairwise fun a b => a.sequence ≠ b.sequence)
    (hb : ∀ r ∈ s.committed ++ s.inserted, r.sequence < s.nextSequence) :
    ((s.insert event).committed ++ (s.insert event).inserted).Pairwise
      fun a b => a.sequence ≠ b.sequence := by
  rw [insert_rows]
  refine List.pairwise_append.mpr ⟨hd, List.pairwise_singleton _ _, ?_⟩
  intro a ha b hb'
  obtain rfl := List.mem_singleton.mp hb'
  exact (hb a ha).ne

theorem rollback_sublist (q : ℤ) : ((s.rollback q).committed ++ (s.rollback q).inserted).Sublist
    (s.committed ++ s.inserted) :=
  List.Sublist.append (.refl _) List.filter_sublist

/-- A commit moves a row from the open transactions to the visible rows. -/
theorem reveal_subset {row : OutboxEvent} (hrow : row ∈ s.inserted) :
    (s.reveal row).committed ++ (s.reveal row).inserted ⊆ s.committed ++ s.inserted := by
  intro r hr
  rcases List.mem_append.mp hr with hr | hr
  · rcases List.mem_append.mp hr with hr | hr
    · exact List.mem_append_left _ hr
    · exact List.mem_append_right _ (List.mem_singleton.mp hr ▸ hrow)
  · exact List.mem_append_right _ (List.filter_sublist.subset hr)

theorem reveal_distinct {row : OutboxEvent} (hrow : row ∈ s.inserted)
    (hd : (s.committed ++ s.inserted).Pairwise fun a b => a.sequence ≠ b.sequence) :
    ((s.reveal row).committed ++ (s.reveal row).inserted).Pairwise
      fun a b => a.sequence ≠ b.sequence := by
  obtain ⟨hc, hi, hci⟩ := List.pairwise_append.mp hd
  have hsub := List.filter_sublist (p := fun r => decide (r.sequence ≠ row.sequence))
    (l := s.inserted)
  refine List.pairwise_append.mpr ⟨List.pairwise_append.mpr
    ⟨hc, List.pairwise_singleton _ _, ?_⟩, hi.sublist hsub, ?_⟩
  · intro a ha b hb
    exact List.mem_singleton.mp hb ▸ hci a ha row hrow
  · intro a ha b hb
    rcases List.mem_append.mp ha with ha | ha
    · exact hci a ha b (hsub.subset hb)
    · obtain rfl := List.mem_singleton.mp ha
      exact (of_decide_eq_true (List.mem_filter.mp hb).2).symm

theorem findBySequence_spec {rows : List OutboxEvent} {q : ℤ} {row : OutboxEvent}
    (h : findBySequence rows q = some row) : row ∈ rows ∧ row.sequence = q :=
  ⟨List.mem_of_find?_eq_some h, by simpa using List.find?_some h⟩

theorem following_empty : Following Subscription.empty := by
  refine ⟨.nil, fun r hr => (by cases hr), fun _ _ => rfl, .inl rfl, le_rfl, .nil, fun r => ?_,
    fun q hq => ?_, trivial, fun _ => ⟨rfl, rfl⟩⟩
  · simp [Subscription.empty]
  · simp [ahead, inHand, ending, Subscription.empty] at hq

theorem Following.distinct_committed (hI : Following s) :
    s.committed.Pairwise fun a b => a.sequence ≠ b.sequence :=
  (List.pairwise_append.mp hI.distinct).1

/-! ### The connection loop -/

/-- A step of the connection loop changes only what is on its way, and covers what
was covered. -/
theorem Following.relay {l : Listener} {b : ℕ} {n : List ℤ} {ch : List Notification}
    (hI : Following s) (hrun : s.listener ≠ .stopped)
    (ht : t = { s with listener := l, backoffMs := b, notified := n, channel := ch })
    (hsil : l ≠ .listening → l ≠ .lost → n = [])
    (hknown : ∀ q, .sequence q ∈ ahead t → .sequence q ∈ ahead s)
    (hcov : ∀ q, Covers announces q (ahead s) → Covers announces q (ahead t)) : Following t := by
  subst ht
  refine ⟨hI.distinct, hI.bounded, hsil, hI.cursor, hI.start_le, hI.ordered, hI.sent,
    fun q hq => hI.known q (hknown q hq), ?_, fun hidle => absurd (hI.idle hidle).2 hrun⟩
  have hall (h : AllCovered s) : AllCovered { s with
      listener := l, backoffMs := b, notified := n, channel := ch } :=
    fun r hr hlt => hcov _ (h r hr hlt)
  have hok := hI.phase
  change PhaseOk _ s.phase
  unfold PhaseOk at hok ⊢
  split at hok
  · exact hok
  · exact ⟨hok.1, hall hok.2⟩
  · exact ⟨hok.1, hall hok.2⟩
  · exact hall hok
  · trivial

/-- The loop returns, and what it has not forwarded is dropped. -/
theorem Following.stop (hI : Following s) (hrun : s.listener ≠ .stopped) :
    Following { s with listener := .stopped, notified := [] } := by
  refine hI.relay hrun rfl (fun _ _ => rfl) (fun q hq => ?_) fun q hq => ?_
  · simp only [ahead, ending, List.mem_append, List.map_nil, List.mem_singleton, List.not_mem_nil,
      reduceCtorEq, or_false] at hq ⊢
    exact .inl hq
  · exact hq.cut rfl

/-- The loop goes on between two sessions, or from one to listening. -/
theorem Following.proceed {l : Listener} {b : ℕ} (hI : Following s)
    (hl : betweenSessions s.listener = true) (hl' : ending l = []) :
    Following { s with listener := l, backoffMs := b } := by
  have hrun : s.listener ≠ .stopped := fun h => by rw [h] at hl; cases hl
  have hn : s.notified = [] := by
    refine hI.silent (fun h => ?_) fun h => ?_ <;>
    · rw [h] at hl
      cases hl
  have hend : ending s.listener = [] := by
    cases hs : s.listener <;> first | rfl | (rw [hs] at hl; cases hl)
  have hsame : ahead { s with listener := l, backoffMs := b } = ahead s := by
    simp only [ahead, hl', hend]
  exact hI.relay hrun rfl (fun _ _ => hn) (fun q hq => hsame ▸ hq)
    fun q hq => hsame ▸ hq

/-- The loop reports a loss and backs off, or finds its receiver gone. -/
theorem Following.disconnect (hI : Following s) (hrun : s.listener ≠ .stopped)
    (hn : s.notified = []) : Following (s.deliver .listenDisconnected .backoff) := by
  unfold Subscription.deliver
  split
  case h_1 => exact hI.stop hrun
  case h_2 =>
    refine hI.relay hrun rfl (fun _ _ => hn) (fun q hq => ?_) fun q hq => ?_
    · simp only [ahead, ending, hn, List.mem_append, List.map_nil, List.mem_singleton,
        List.not_mem_nil, reduceCtorEq, or_false] at hq ⊢
      exact .inl hq
    · have hcut := hq.cut (m := .listenDisconnected) rfl
      simpa only [ahead, ending, hn, List.map_nil, List.append_nil, List.append_assoc] using hcut

theorem Following.connect {ok : Bool} (hI : Following s) (h : s.connect ok = some t) :
    Following t := by
  unfold Subscription.connect at h
  split at h
  case h_2 => cases h
  case h_1 hl =>
    split_ifs at h
    · cases h
      exact hI.proceed (by rw [hl]; rfl) rfl
    · cases h
      exact hI.disconnect (by simp [hl]) (hI.silent (by simp [hl]) (by simp [hl]))

theorem Following.listen {ok : Bool} (hI : Following s) (h : s.listen ok = some t) :
    Following t := by
  unfold Subscription.listen at h
  split at h
  case h_2 => cases h
  case h_1 hl =>
    split_ifs at h
    · cases h
      exact hI.proceed (b := s.backoffMs) (by rw [hl]; rfl) rfl
    · cases h
      exact hI.disconnect (by simp [hl]) (hI.silent (by simp [hl]) (by simp [hl]))

theorem Following.lose (hI : Following s) (h : s.lose = some t) : Following t := by
  unfold Subscription.lose at h
  split at h
  case h_2 => cases h
  case h_1 hl =>
    cases h
    refine hI.relay (by simp [hl]) rfl (fun _ h => absurd rfl h) (fun q hq => ?_)
      fun q hq => ?_
    · simpa [ahead, ending, hl] using hq
    · have happ := hq.append [.listenDisconnected]
      simpa only [ahead, ending, hl, List.append_nil, List.append_assoc] using happ

theorem Following.forward (hI : Following s) (h : s.forward = some t) : Following t := by
  have pass {q : ℤ} {rest : List ℤ} (hn : s.notified = q :: rest)
      (hl : s.listener = .listening ∨ s.listener = .lost) :
      Following ({ s with notified := rest }.deliver (.sequence q) s.listener) := by
    have hrun : s.listener ≠ .stopped := fun h => by simp [h] at hl
    unfold Subscription.deliver
    split
    case h_1 => exact hI.stop hrun
    case h_2 =>
      refine hI.relay hrun rfl (fun h₁ h₂ => ?_) (fun q' hq => ?_) fun q' hq => ?_
      · rcases hl with hl | hl
        · exact absurd hl h₁
        · exact absurd hl h₂
      · simpa [ahead, hn] using hq
      · simpa [ahead, hn] using hq
  unfold Subscription.forward at h
  split at h
  case h_1 q rest hl hn =>
    cases h
    exact pass hn (.inl hl)
  case h_2 q rest hl hn =>
    cases h
    exact pass hn (.inr hl)
  case h_3 hl hn =>
    cases h
    exact hI.disconnect (by simp [hl]) hn
  case h_4 => cases h

theorem Following.wake (hI : Following s) (h : s.wake = some t) : Following t := by
  unfold Subscription.wake at h
  split at h
  case h_2 => cases h
  case h_1 hl =>
    cases h
    exact hI.proceed (by rw [hl]; rfl) rfl

theorem Following.cancelListener (hI : Following s) (h : s.cancelListener = some t) :
    Following t := by
  unfold Subscription.cancelListener at h
  split at h
  case h_4 => cases h
  all_goals
    cases h
    exact hI.stop (by simp_all)

/-! ### Writers -/

theorem Following.insert (hI : Following s) (event : NewOutboxEvent) :
    Following (s.insert event) := by
  refine ⟨insert_distinct event hI.distinct hI.bounded, fun r hr => ?_, hI.silent, hI.cursor,
    hI.start_le, hI.ordered, hI.sent, hI.known, hI.phase, hI.idle⟩
  change r.sequence < s.nextSequence + 1
  rw [insert_rows] at hr
  rcases List.mem_append.mp hr with hr | hr
  · have := hI.bounded r hr
    omega
  · obtain rfl := List.mem_singleton.mp hr
    simp

theorem Following.rollback (hI : Following s) (q : ℤ) : Following (s.rollback q) :=
  ⟨hI.distinct.sublist (rollback_sublist q),
    fun r hr => hI.bounded r ((rollback_sublist q).subset hr), hI.silent, hI.cursor,
    hI.start_le, hI.ordered, hI.sent, hI.known, hI.phase, hI.idle⟩

/-- What a commit adds to the notifications. -/
theorem reveal_ahead (row : OutboxEvent) :
    ∃ more, ahead (s.reveal row) = ahead s ++ more ∧ (∀ x ∈ more, x = .sequence row.sequence) ∧
      (s.listener = .listening → .sequence row.sequence ∈ more) := by
  by_cases hl : s.listener = .listening
  · refine ⟨[.sequence row.sequence], ?_, fun x hx => List.mem_singleton.mp hx, fun _ => ?_⟩
    · simp [ahead, ending, Subscription.reveal, hl]
    · exact List.mem_cons_self
  · refine ⟨[], ?_, fun x hx => (by cases hx), fun h => absurd h hl⟩
    simp [ahead, Subscription.reveal, hl]

/-- What a committing row must find: the loop has not passed it, and will reach it
before anything larger. -/
structure Timely (s : Subscription) (row : OutboxEvent) : Prop where
  not_passed : s.afterSequence < row.sequence → s.lastSentSequence < row.sequence
  not_in_hand : s.lastSentSequence < row.sequence → ∀ x ∈ rowsInHand s.phase,
    x.sequence < row.sequence
  covered : s.lastSentSequence < row.sequence → streaming s.phase = true →
    Covers announces row.sequence (ahead (s.reveal row))

theorem AllCovered.reveal {row : OutboxEvent} (hall : AllCovered s) (ht : Timely s row)
    (hstream : streaming s.phase = true) : AllCovered (s.reveal row) := by
  intro r hr hlt
  rcases List.mem_append.mp hr with hr | hr
  · obtain ⟨more, hmore, -⟩ := reveal_ahead (s := s) row
    rw [hmore]
    exact (hall r hr hlt).append _
  · obtain rfl := List.mem_singleton.mp hr
    exact ht.covered hlt hstream

theorem Following.reveal {row : OutboxEvent} (hI : Following s) (hrow : row ∈ s.inserted)
    (ht : Timely s row) : Following (s.reveal row) := by
  refine ⟨reveal_distinct hrow hI.distinct, fun r hr => hI.bounded r (reveal_subset hrow hr),
    fun h₁ h₂ => ?_, ?_, hI.start_le, hI.ordered, fun r => ?_, fun q hq => ?_, ?_, hI.idle⟩
  · change (if s.listener = .listening then _ else s.notified) = []
    rw [if_neg (show s.listener ≠ .listening from h₁)]
    exact hI.silent h₁ h₂
  · exact hI.cursor.imp_right fun ⟨r, hr, hc⟩ => ⟨r, List.mem_append_left _ hr, hc⟩
  · refine (hI.sent r).trans ⟨fun ⟨hr, h⟩ => ⟨List.mem_append_left _ hr, h⟩, fun ⟨hr, h⟩ => ?_⟩
    rcases List.mem_append.mp hr with hr | hr
    · exact ⟨hr, h⟩
    · obtain rfl := List.mem_singleton.mp hr
      exact absurd h.2 (ht.not_passed h.1).not_ge
  · obtain ⟨more, hmore, hkind, -⟩ := reveal_ahead (s := s) row
    rw [hmore] at hq
    rcases List.mem_append.mp hq with hq | hq
    · obtain ⟨r, hr, hrq⟩ := hI.known q hq
      exact ⟨r, List.mem_append_left _ hr, hrq⟩
    · cases hkind _ hq
      exact ⟨row, List.mem_append_right _ List.mem_cons_self, rfl⟩
  · have hrows {rows : List OutboxEvent} (h : RowsAbove s rows) : RowsAbove (s.reveal row) rows :=
      ⟨h.1, fun x hx => ⟨List.mem_append_left _ (h.2 x hx).1, (h.2 x hx).2⟩⟩
    have hall (hstream : streaming s.phase = true) (h : AllCovered s) : AllCovered (s.reveal row) :=
      h.reveal ht hstream
    have hhand := ht.not_in_hand
    have hok := hI.phase
    change PhaseOk (s.reveal row) s.phase
    cases hp : s.phase with
    | sending rows backfilling =>
        rw [hp] at hok hall hhand
        cases backfilling with
        | true =>
            refine ⟨hrows hok.1, fun r hr hlt => ?_⟩
            rcases List.mem_append.mp hr with hr | hr
            · exact hok.2 r hr hlt
            · obtain rfl := List.mem_singleton.mp hr
              exact .inr (hhand hlt)
        | false => exact ⟨hrows hok.1, hall rfl hok.2⟩
    | fetching q =>
        rw [hp] at hok hall
        exact ⟨hok.1, hall rfl hok.2⟩
    | live =>
        rw [hp] at hok hall
        exact hall rfl hok
    | _ => trivial

/-! ### Commits that are in time -/

/-- A row that commits in front of the loop, with a session that listens. -/
theorem timely_of_connected {row : OutboxEvent} (hI : Following s)
    (hd : commitsInFront s (.commit row.sequence) = true)
    (hl : streaming s.phase = true → s.listener = .listening) : Timely s row := by
  have hfront : s.afterSequence < row.sequence →
      s.lastSentSequence < row.sequence ∧ (∀ x ∈ rowsInHand s.phase, x.sequence < row.sequence) ∧
        (streaming s.phase = true → ∀ n ∈ ahead s, ∀ k ∈ announces n, k < row.sequence) :=
    of_decide_eq_true hd
  have hstart (h : s.lastSentSequence < row.sequence) : s.afterSequence < row.sequence :=
    hI.start_le.trans_lt h
  refine ⟨fun h => (hfront h).1, fun h => (hfront (hstart h)).2.1, fun h hstream => ?_⟩
  obtain ⟨more, hmore, hkind, hlisten⟩ := reveal_ahead (s := s) row
  rw [hmore]
  refine covers_of_mem (m := .sequence row.sequence) (fun x hx k hk => ?_)
    (List.mem_append_right _ (hlisten (hl hstream))) (.inr rfl)
  rcases List.mem_append.mp hx with hx | hx
  · exact ((hfront (hstart h)).2.2 hstream x hx k hk).le
  · obtain rfl := hkind x hx
    cases hk
    exact le_rfl

/-- A row that commits after all smaller ones, and not unseen. -/
theorem timely_of_covered {row : OutboxEvent} {q : ℤ} (hI : Following s)
    (ho : ∀ r ∈ s.committed, r.sequence < row.sequence)
    (hd : commitsCovered s (.commit q) = true) : Timely s row := by
  refine ⟨fun hstart => ?_, fun _ x hx => ?_, fun _ hstream => ?_⟩
  · rcases hI.cursor with hc | ⟨r, hr, hc⟩
    · rw [hc]
      exact hstart
    · rw [← hc]
      exact ho r hr
  · have hok := hI.phase
    cases hp : s.phase with
    | sending rows backfilling =>
        rw [hp] at hok hx
        cases backfilling with
        | true => exact ho x (hok.1.2 x hx).1
        | false => exact ho x (hok.1.2 x hx).1
    | _ =>
        rw [hp] at hx
        cases hx
  · obtain ⟨more, hmore, hkind, hlisten⟩ := reveal_ahead (s := s) row
    rw [hmore]
    have hbelow : ∀ x ∈ ahead s ++ more, ∀ k, announces x = some k → k ≤ row.sequence := by
      intro x hx k hk
      rcases List.mem_append.mp hx with hx | hx
      · cases x with
        | sequence q' =>
            cases hk
            obtain ⟨r', hr', hk⟩ := hI.known _ hx
            exact hk ▸ (ho r' hr').le
        | listenDisconnected => cases hk
      · obtain rfl := hkind x hx
        cases hk
        exact le_rfl
    by_cases hl : s.listener = .listening
    · exact covers_of_mem hbelow (List.mem_append_right _ (hlisten hl)) (.inr rfl)
    · refine covers_of_mem (m := .listenDisconnected) hbelow (List.mem_append_left _ ?_) (.inl rfl)
      simp only [commitsCovered, hstream, Bool.and_true, Bool.not_eq_true', Bool.and_eq_false_iff,
        decide_eq_false_iff_not, not_not] at hd
      simp only [ahead, List.mem_append]
      rcases hd with hd | hd
      · refine .inr (.inr ?_)
        cases hs : s.listener <;> simp_all [ending, betweenSessions]
      · exact .inl (.inr hd)

/-! ### The subscription loop -/

/-- A step of the subscription loop that sends nothing. -/
theorem Following.enter {p : Phase} {q : List Notification} (hI : Following s) (hp : p ≠ .idle)
    (hknown : ∀ k, .sequence k ∈ inHand p ++ q → .sequence k ∈ inHand s.phase ++ s.channel)
    (hok : PhaseOk { s with phase := p, channel := q } p) :
    Following { s with phase := p, channel := q } := by
  refine ⟨hI.distinct, hI.bounded, hI.silent, hI.cursor, hI.start_le, hI.ordered, hI.sent,
    fun k hk => hI.known k ?_, hok, fun h => absurd h hp⟩
  rcases List.mem_append.mp hk with hk | hk
  · exact List.mem_append_left _ (hknown k hk)
  · exact List.mem_append_right _ hk

/-- The stream ends. -/
theorem Following.close (hI : Following s) : Following { s with phase := .closed } :=
  hI.enter (q := s.channel) (by simp) (fun q hq => List.mem_append_right _ hq) trivial

theorem Following.subscribe {a : UInt64} {read : Bool} (hI : Following s)
    (h : s.subscribe a read = some t) : Following t := by
  unfold Subscription.subscribe at h
  split at h
  case h_2 => cases h
  case h_1 hp =>
    obtain ⟨hsent, hl⟩ := hI.idle hp
    split_ifs at h
    · cases h
      refine ⟨hI.distinct, hI.bounded, fun _ _ => hI.silent (by simp [hl]) (by simp [hl]),
        .inl rfl, le_rfl, hI.ordered, fun r => ?_, fun q hq => hI.known q ?_, trivial,
        fun h => (by cases h)⟩
      · change r ∈ s.sent ↔ _
        rw [hsent]
        exact ⟨fun h => (by cases h), fun ⟨_, h₁, h₂⟩ => absurd h₁ h₂.not_gt⟩
      · simp only [ahead, inHand, ending, hp, hl, List.mem_append] at hq ⊢
        simpa using hq
    · cases h
      exact hI

theorem Following.readPage {read : Bool} (hI : Following s) (h : s.readPage read = some t) :
    Following t := by
  unfold Subscription.readPage at h
  split at h
  case h_2 => cases h
  case h_1 hp =>
    split_ifs at h
    · split at h
      case h_1 hnil =>
        cases h
        refine hI.enter (q := s.channel) (by simp) (fun q hq => List.mem_append_right _ hq) ?_
        exact fun r hr hlt => absurd hlt (page_eq_nil (by decide) hnil hr).not_gt
      case h_2 =>
        cases h
        refine hI.enter (q := s.channel) (by simp) (fun q hq => List.mem_append_right _ hq)
          ⟨⟨page_pairwise hI.distinct_committed, fun x hx => mem_page hx⟩, ?_⟩
        exact fun r hr hlt => page_complete hI.distinct_committed hr hlt
    · cases h
      exact hI.close

/-- What is left of the rows in hand after the first of them was sent. -/
theorem RowsAbove.tail {row : OutboxEvent} {rows : List OutboxEvent}
    (h : RowsAbove s (row :: rows)) (ht : t.committed = s.committed)
    (hl : t.lastSentSequence = row.sequence) : RowsAbove t rows := by
  obtain ⟨hhead, htail⟩ := List.pairwise_cons.mp h.1
  refine ⟨htail, fun x hx => ?_⟩
  rw [ht, hl]
  exact ⟨(h.2 x (List.mem_cons_of_mem _ hx)).1, hhead x hx⟩

/-- Nothing visible lies between the cursor and the next row in hand. -/
theorem next_row {row : OutboxEvent} {rows : List OutboxEvent} {backfilling : Bool}
    (hI : Following s) (hp : s.phase = .sending (row :: rows) backfilling) :
    RowsAbove s (row :: rows) ∧
      ∀ r ∈ s.committed, s.lastSentSequence < r.sequence → row.sequence ≤ r.sequence := by
  have hok := hI.phase
  rw [hp] at hok
  cases backfilling with
  | true =>
      refine ⟨hok.1, fun r hr hlt => ?_⟩
      rcases hok.2 r hr hlt with hmem | hall
      · rcases List.mem_cons.mp hmem with rfl | hmem
        · exact le_rfl
        · exact ((List.pairwise_cons.mp hok.1.1).1 r hmem).le
      · exact (hall row List.mem_cons_self).le
  | false =>
      refine ⟨hok.1, fun r hr hlt => ?_⟩
      have hcov := hok.2 r hr hlt
      simp only [ahead, hp, inHand, List.map_cons, List.cons_append] at hcov
      have hrow : announces (.sequence row.sequence) = some row.sequence := rfl
      rcases (covers_cons_some hrow).mp hcov with heq | ⟨hlt, -⟩
      · exact heq.le
      · exact hlt.le

/-- Sending the next row keeps the rows sent in order. -/
theorem Following.ordered_snoc {row : OutboxEvent} (hI : Following s)
    (hlt : s.lastSentSequence < row.sequence) :
    (s.sent ++ [row]).Pairwise fun a b => a.sequence < b.sequence := by
  refine List.pairwise_append.mpr ⟨hI.ordered, List.pairwise_singleton _ _, ?_⟩
  intro a ha b hb
  obtain rfl := List.mem_singleton.mp hb
  exact ((hI.sent a).mp ha).2.2.trans_lt hlt

/-- Moving the cursor to the next row adds exactly that row to those sent. -/
theorem Following.sent_snoc {row : OutboxEvent} (hI : Following s) (hrow : row ∈ s.committed)
    (hlt : s.lastSentSequence < row.sequence)
    (hno : ∀ r ∈ s.committed, s.lastSentSequence < r.sequence → row.sequence ≤ r.sequence)
    (r : OutboxEvent) : r ∈ s.sent ++ [row] ↔
      r ∈ s.committed ∧ s.afterSequence < r.sequence ∧ r.sequence ≤ row.sequence := by
  rw [List.mem_append, List.mem_singleton, hI.sent]
  constructor
  · rintro (⟨hr, h₁, h₂⟩ | rfl)
    · exact ⟨hr, h₁, h₂.trans hlt.le⟩
    · exact ⟨hrow, hI.start_le.trans_lt hlt, le_rfl⟩
  · rintro ⟨hr, h₁, h₂⟩
    rcases le_or_gt r.sequence s.lastSentSequence with hle | hgt
    · exact .inl ⟨hr, h₁, hle⟩
    · exact .inr (eq_of_sequence_eq hI.distinct_committed hr hrow (h₂.antisymm (hno r hr hgt)))

/-- The cursor moves to the next row. -/
theorem Following.advance {row : OutboxEvent} {p : Phase} (hI : Following s)
    (hrow : row ∈ s.committed) (hlt : s.lastSentSequence < row.sequence)
    (hno : ∀ r ∈ s.committed, s.lastSentSequence < r.sequence → row.sequence ≤ r.sequence)
    (hp : p ≠ .idle) (hhand : ∀ q, .sequence q ∈ inHand p → .sequence q ∈ inHand s.phase)
    (hok : PhaseOk
      { s with lastSentSequence := row.sequence, sent := s.sent ++ [row], phase := p } p) :
    Following { s with lastSentSequence := row.sequence, sent := s.sent ++ [row], phase := p } := by
  refine ⟨hI.distinct, hI.bounded, hI.silent, .inr ⟨row, hrow, rfl⟩, hI.start_le.trans hlt.le,
    hI.ordered_snoc hlt, hI.sent_snoc hrow hlt hno, fun q hq => hI.known q ?_, hok,
    fun h => absurd h hp⟩
  simp only [ahead, List.mem_append] at hq ⊢
  exact hq.imp_left (Or.imp_left (hhand q))

theorem Following.send {accepted : Bool} (hI : Following s) (h : s.send accepted = some t) :
    Following t := by
  unfold Subscription.send at h
  split at h
  case h_2 => cases h
  case h_1 row rows backfilling hp =>
    obtain ⟨hrows, hno⟩ := next_row hI hp
    obtain ⟨hvisible, hlt⟩ := hrows.2 row List.mem_cons_self
    split_ifs at h
    case neg =>
      cases h
      exact hI.close
    case pos =>
      have hok := hI.phase
      rw [hp] at hok
      cases backfilling with
      | true =>
          cases rows with
          | nil =>
              cases h
              exact hI.advance hvisible hlt hno nofun (fun q hq => (by cases hq)) trivial
          | cons x xs =>
              cases h
              refine hI.advance hvisible hlt hno nofun (fun q hq => (by cases hq))
                ⟨hrows.tail rfl rfl, fun r hr hr' => ?_⟩
              rcases hok.2 r hr (hlt.trans hr') with hmem | hall
              · rcases List.mem_cons.mp hmem with rfl | hmem
                · exact absurd hr' (lt_irrefl _)
                · exact .inl hmem
              · exact .inr fun y hy => hall y (List.mem_cons_of_mem _ hy)
      | false =>
          have hcovered : ∀ r ∈ s.committed, row.sequence < r.sequence →
              Covers announces r.sequence (rows.map (fun r => .sequence r.sequence) ++ s.channel ++
                (s.notified.map Notification.sequence ++ ending s.listener)) := by
            intro r hr hr'
            have hcov := hok.2 r hr (hlt.trans hr')
            simp only [ahead, hp, inHand, List.map_cons, List.cons_append] at hcov
            exact (hcov.tail rfl hr'.ne).2
          cases rows with
          | nil =>
              cases h
              exact hI.advance hvisible hlt hno nofun (fun q hq => (by cases hq)) hcovered
          | cons x xs =>
              cases h
              refine hI.advance hvisible hlt hno nofun (fun q hq => ?_)
                ⟨hrows.tail rfl rfl, hcovered⟩
              rw [hp]
              exact List.mem_cons_of_mem _ hq

theorem Following.recv (hI : Following s) (h : s.recv = some t) : Following t := by
  have hok := hI.phase
  unfold Subscription.recv at h
  split at h
  case h_1 q rest hp hch =>
    rw [hp] at hok
    split_ifs at h with hle
    · cases h
      rw [show ({ s with channel := rest } : Subscription) =
        { s with phase := .live, channel := rest } by rw [← hp]]
      refine hI.enter (by simp) (fun q' hq' => ?_) fun r hr hlt => ?_
      · rw [hp, hch]
        exact List.mem_cons_of_mem _ hq'
      · have hcov := hok r hr hlt
        simp only [ahead, hp, inHand, hch, List.nil_append, List.cons_append] at hcov
        exact (hcov.tail rfl (hle.trans_lt hlt).ne).2
    · cases h
      refine hI.enter (by simp) (fun q' hq' => ?_) ⟨not_le.mp hle, fun r hr hlt => ?_⟩
      · rw [hp, hch]
        exact hq'
      · have hcov := hok r hr hlt
        simpa only [ahead, hp, inHand, hch, List.nil_append, List.cons_append] using hcov
  case h_2 rest hp hch =>
    cases h
    refine hI.enter (by simp) (fun q' hq' => ?_) trivial
    rw [hp, hch]
    exact List.mem_cons_of_mem _ hq'
  case h_3 hp hch =>
    split_ifs at h
    cases h
    exact hI.close
  case h_4 => cases h

theorem Following.lookUp {read : Bool} (hI : Following s) (h : s.lookUp read = some t)
    (hread : readsSucceed (.lookUp read) = true) : Following t := by
  obtain rfl : read = true := hread
  have hok := hI.phase
  unfold Subscription.lookUp at h
  split at h
  case h_2 => cases h
  case h_1 q hp =>
    rw [hp] at hok
    cases hf : findBySequence s.committed q with
    | none =>
        -- The row was visible when it was notified, so it is found.
        obtain ⟨r, hr, hrq⟩ := hI.known q (by simp [ahead, hp, inHand])
        exact absurd hrq (by simpa using List.find?_eq_none.mp hf r hr)
    | some row =>
        rw [hf] at h
        cases h
        obtain ⟨hmem, rfl⟩ := findBySequence_spec hf
        refine hI.enter (q := s.channel) (by simp) (fun q' hq' => ?_)
          ⟨⟨List.pairwise_singleton _ _, fun x hx => ?_⟩, fun r hr hlt => ?_⟩
        · rw [hp]
          exact hq'
        · obtain rfl := List.mem_singleton.mp hx
          exact ⟨hmem, hok.1⟩
        · have hcov := hok.2 r hr hlt
          simpa only [ahead, hp, inHand, List.map_cons, List.map_nil] using hcov

theorem Following.recount {read : Bool} (hI : Following s) (h : s.recount read = some t) :
    Following t := by
  unfold Subscription.recount at h
  split at h
  case h_2 => cases h
  case h_1 hp =>
    split_ifs at h
    · cases h
      exact hI.enter (q := s.channel) (by simp) (fun q hq => List.mem_append_right _ hq) trivial
    · cases h
      exact hI.close

theorem Following.cancelSubscription (hI : Following s) (h : s.cancelSubscription = some t) :
    Following t := by
  unfold Subscription.cancelSubscription at h
  split at h
  case h_3 => cases h
  all_goals
    cases h
    exact hI.close

/-! ### Runs -/

theorem Following.step {e : StreamEvent} (hI : Following s) (hread : readsSucceed e = true)
    (htime : ∀ row ∈ s.inserted, e = .commit row.sequence → Timely s row)
    (h : next s e = some t) : Following t := by
  cases e with
  | insert event =>
      cases h
      exact hI.insert event
  | commit q =>
      obtain ⟨row, hrow, rfl⟩ := Option.map_eq_some_iff.mp h
      obtain ⟨hmem, rfl⟩ := findBySequence_spec hrow
      exact hI.reveal hmem (htime row hmem rfl)
  | rollback q =>
      cases h
      exact hI.rollback q
  | connect ok => exact hI.connect h
  | listen ok => exact hI.listen h
  | lose => exact hI.lose h
  | forward => exact hI.forward h
  | wake => exact hI.wake h
  | cancelListener => exact hI.cancelListener h
  | subscribe a read => exact hI.subscribe h
  | readPage read => exact hI.readPage h
  | send accepted => exact hI.send h
  | recv => exact hI.recv h
  | lookUp read => exact hI.lookUp h hread
  | recount read => exact hI.recount h
  | cancelSubscription => exact hI.cancelSubscription h

/-- The runs of the stream under a guard. -/
abbrev Streams (admits : Subscription → StreamEvent → Bool) :
    List StreamEvent → Subscription → Prop :=
  Run next (fun s e => admits s e = true) Subscription.empty

/-- Whoever was sent a row was sent the visible rows before it, in order. -/
def SentInOrder (s : Subscription) : Prop :=
  ∀ before x after, s.sent = before ++ x :: after → ∀ r ∈ s.committed,
    s.afterSequence < r.sequence → r.sequence < x.sequence → r ∈ before

theorem Following.sentInOrder (hI : Following s) : SentInOrder s := by
  intro before x after hsent r hr hstart hlt
  have hp := hI.ordered
  have hx : x ∈ s.sent := by
    rw [hsent]
    exact List.mem_append_right _ List.mem_cons_self
  have hmem : r ∈ s.sent :=
    (hI.sent r).mpr ⟨hr, hstart, hlt.le.trans ((hI.sent x).mp hx).2.2⟩
  rw [hsent] at hmem hp
  have hafter := (List.pairwise_cons.mp (List.pairwise_append.mp hp).2.1).1
  rcases List.mem_append.mp hmem with hmem | hmem
  · exact hmem
  · rcases List.mem_cons.mp hmem with rfl | hmem
    · exact absurd hlt (lt_irrefl _)
    · exact absurd hlt (hafter r hmem).not_gt

/-- A visible row that the stream has passed was sent, unless its own notification is
still to be processed. -/
def Gapless (s : Subscription) : Prop :=
  ∀ r ∈ s.committed, s.afterSequence < r.sequence → (∃ x ∈ s.sent, r.sequence < x.sequence) →
    r ∈ s.sent ∨ outstanding s r.sequence

theorem SentInOrder.gapless (h : SentInOrder s) : Gapless s := by
  rintro r hr hstart ⟨x, hx, hlt⟩
  obtain ⟨before, after, hsent⟩ := List.append_of_mem hx
  left
  rw [hsent]
  exact List.mem_append_left _ (h before x after hsent r hr hstart hlt)

/-! ### Concurrent writers -/

/-- Reads succeed and the session listens throughout. -/
def connectedStream (s : Subscription) (e : StreamEvent) : Bool :=
  readsSucceed e && staysConnected s e

/-- With a session that listens throughout, the stream has no gaps as long as no row
commits behind it. -/
theorem gapless_of_commitsInFront (es : List StreamEvent) (s : Subscription)
    (hrun : Streams (fun s e => connectedStream s e && commitsInFront s e) es s) : Gapless s := by
  have hI : Following s := by
    refine hrun.invariant (fun s e t hd hstep hI => ?_) following_empty
    simp only [connectedStream, Bool.and_eq_true] at hd
    obtain ⟨⟨hread, hconn⟩, hfront⟩ := hd
    refine hI.step hread (fun row _ he => ?_) hstep
    subst he
    refine timely_of_connected hI hfront fun hstream => ?_
    simp only [staysConnected] at hconn
    split at hconn
    case h_1 hp =>
      rw [hp] at hstream
      cases hstream
    case h_2 => exact of_decide_eq_true hconn
  exact hI.sentInOrder.gapless

/-- An event whose content plays no role. -/
def someEvent : NewOutboxEvent :=
  .forLightningPaymentInitiated "correlation" "reference" 1 ⟨0⟩ (.obj [])

/-- Subscribe from the start, listen, and end the backfill. -/
def goLive : List StreamEvent :=
  [.subscribe 0 true, .connect true, .listen true, .readPage true]

/-- Commit one row and stream it. -/
def stream (q : ℤ) : List StreamEvent :=
  [.commit q, .forward, .recv, .lookUp true, .send true]

/-- Two rows that commit against the order of their sequences, both before the first
page is read. -/
def crossedInTime : List StreamEvent :=
  [.insert someEvent, .insert someEvent, .subscribe 0 true, .connect true, .listen true, .commit 2,
    .commit 1, .readPage true, .send true, .send true]

theorem gapless_of_commitsInFront_crossed :
    ∃ s, Streams (fun s e => connectedStream s e && commitsInFront s e) crossedInTime s ∧
      s.sent.map OutboxEvent.sequence = [1, 2] ∧ Gapless s := by
  obtain ⟨s, hrun, hsent⟩ := exists_run_of_play next
    (fun s e => connectedStream s e && commitsInFront s e) Subscription.empty
    crossedInTime
    (fun s => decide (s.sent.map OutboxEvent.sequence = [1, 2])) (by decide +kernel)
  exact ⟨s, hrun, of_decide_eq_true hsent, gapless_of_commitsInFront _ s hrun⟩

/-- Two transactions that commit against the order of their sequences. -/
def crossedCommits : List StreamEvent :=
  [.insert someEvent, .insert someEvent] ++ goLive ++ stream 2 ++ [.commit 1, .forward, .recv]

/-- The row that commits late is skipped for good. -/
theorem crossed_commits_leave_gap :
    ∃ s, Streams connectedStream crossedCommits s ∧ ¬Gapless s := by
  obtain ⟨s, hrun, hc⟩ := exists_run_of_play next connectedStream
    Subscription.empty crossedCommits
    (fun s => decide (s.afterSequence = 0) &&
      s.committed.any (fun r => r.sequence = 1) && s.sent.any (fun r => r.sequence = 2) &&
      s.sent.all (fun r => r.sequence ≠ 1) && decide (.sequence 1 ∉ ahead s)) (by decide +kernel)
  simp only [Bool.and_eq_true, List.any_eq_true, List.all_eq_true, decide_eq_true_eq] at hc
  obtain ⟨⟨⟨⟨hstart, r, hr, hr1⟩, x, hx, hx2⟩, hnot⟩, hdone⟩ := hc
  refine ⟨s, hrun, fun hgap => ?_⟩
  rcases hgap r hr (by omega) ⟨x, hx, by omega⟩ with hsent | hout
  · exact hnot r hsent hr1
  · exact hdone (hr1 ▸ hout)

/-! ### Startup and reconnects -/

/-- Reads succeed and rows commit in the order of their sequences. -/
def orderedStream (s : Subscription) (e : StreamEvent) : Bool :=
  readsSucceed e && commitsInOrder s e

/-- With rows that commit in the order of their sequences, the subscriber is sent
every row before any later one, as long as no row commits between two sessions while
the loop is past its last page and has not been told of a loss. -/
theorem sent_in_order_of_commitsCovered (es : List StreamEvent) (s : Subscription)
    (hrun : Streams (fun s e => orderedStream s e && commitsCovered s e) es s) :
    SentInOrder s := by
  have hI : Following s := by
    refine hrun.invariant (fun s e t hd hstep hI => ?_) following_empty
    simp only [orderedStream, Bool.and_eq_true] at hd
    obtain ⟨⟨hread, horder⟩, hcov⟩ := hd
    refine hI.step hread (fun row _ he => ?_) hstep
    subst he
    exact timely_of_covered hI
      (fun r hr => of_decide_eq_true (List.all_eq_true.mp horder r hr)) hcov
  exact hI.sentInOrder

/-- A row commits after the session is lost, and the next one after the reconnect. -/
def coveredReconnect : List StreamEvent :=
  [.insert someEvent, .insert someEvent] ++ goLive ++
    [.lose, .commit 1, .forward, .recv, .recount true, .readPage true, .send true, .wake,
      .connect true, .readPage true, .listen true] ++ stream 2

theorem sent_in_order_of_commitsCovered_reconnect :
    ∃ s, Streams (fun s e => orderedStream s e && commitsCovered s e) coveredReconnect s ∧
      s.sent.map OutboxEvent.sequence = [1, 2] ∧ SentInOrder s := by
  obtain ⟨s, hrun, hsent⟩ := exists_run_of_play next
    (fun s e => orderedStream s e && commitsCovered s e) Subscription.empty
    coveredReconnect
    (fun s => decide (s.sent.map OutboxEvent.sequence = [1, 2])) (by decide +kernel)
  exact ⟨s, hrun, of_decide_eq_true hsent, sent_in_order_of_commitsCovered _ s hrun⟩

/-- The backfill ends before `LISTEN` completes, and a row commits in between. -/
def unseenCommit : List StreamEvent :=
  [.insert someEvent, .insert someEvent, .subscribe 0 true, .readPage true, .commit 1,
    .connect true, .listen true] ++ stream 2

/-- The row that nobody saw is passed over. -/
theorem unseen_commit_leaves_gap :
    ∃ s, Streams orderedStream unseenCommit s ∧ ¬SentInOrder s := by
  obtain ⟨s, hrun, hc⟩ := exists_run_of_play next orderedStream
    Subscription.empty unseenCommit
    (fun s => decide (s.afterSequence = 0) &&
      s.committed.any (fun r => r.sequence = 1) && s.sent.any (fun r => r.sequence = 2) &&
      s.sent.all (fun r => r.sequence ≠ 1)) (by decide +kernel)
  simp only [Bool.and_eq_true, List.any_eq_true, List.all_eq_true, decide_eq_true_eq] at hc
  obtain ⟨⟨⟨hstart, r, hr, hr1⟩, x, hx, hx2⟩, hnot⟩ := hc
  refine ⟨s, hrun, fun hord => ?_⟩
  obtain ⟨before, after, hsent⟩ := List.append_of_mem hx
  have hmem := hord before x after hsent r hr (by omega) (by omega)
  exact hnot r (hsent ▸ List.mem_append_left _ hmem) hr1

end LightningGateway.StreamGaps
