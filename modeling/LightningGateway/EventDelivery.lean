import LightningGateway.StreamGaps

/-!
# Order of the event stream

Whatever happens to the table, to the reads and to the channel of notifications, the
subscription loop sends rows in the order of their sequences and no row twice. The
three places that send share one cursor, and each of them only takes rows above it.
-/
namespace LightningGateway.EventDelivery
open Primitives GuardedRuns CursorFeeds OutboxRows EventStream StreamGaps

/-! ### Steps -/

/-- A step of the stream and its parties, or a change of what the channel holds: its
notifications may be duplicated, stale, out of order, missing or made up. -/
inductive DeliveryEvent where
  | stream (e : StreamEvent)
  | channel (notifications : List Notification)

def step (s : Subscription) : DeliveryEvent → Option Subscription
  | .stream e => next s e
  | .channel notifications => some { s with channel := notifications }

/-- Where the loop may go without sending. -/
inductive Entered (s : Subscription) : Phase → Prop where
  | backfill : Entered s .backfill
  | page : Entered s (.sending (fetchAfterBatch s.committed s.lastSentSequence) true)
  | live : Entered s .live
  | fetching {q : ℤ} : s.lastSentSequence < q → Entered s (.fetching q)
  | found {q : ℤ} {row : OutboxEvent} : s.phase = .fetching q →
      findBySequence s.committed q = some row → Entered s (.sending [row] false)
  | recounting : Entered s .recounting
  | closed : Entered s .closed

/-- What one step can be. -/
inductive Advance (s : Subscription) : Subscription → Prop where
  | relay (listener : Listener) (backoffMs : ℕ) (notified : List ℤ) (channel : List Notification) :
      Advance s { s with listener, backoffMs, notified, channel }
  | insert (event : NewOutboxEvent) : Advance s (s.insert event)
  | rollback (q : ℤ) : Advance s (s.rollback q)
  | reveal {row : OutboxEvent} : row ∈ s.inserted → Advance s (s.reveal row)
  | subscribe (cursor : ℤ) : s.phase = .idle →
      Advance s { s with
        phase := .backfill
        afterSequence := cursor
        lastSentSequence := cursor
        listener := .connecting }
  | enter {phase : Phase} (channel : List Notification) : s.phase ≠ .idle → Entered s phase →
      Advance s { s with phase, channel }
  | send {row : OutboxEvent} {rows : List OutboxEvent} {backfilling : Bool} {phase : Phase} :
      s.phase = .sending (row :: rows) backfilling →
      (phase = .sending rows backfilling ∨ phase = .backfill ∨ phase = .live) →
      Advance s { s with lastSentSequence := row.sequence, sent := s.sent ++ [row], phase }

section
variable {s t : Subscription}

theorem deliver_advance (n : Notification) (listener : Listener) :
    Advance s (s.deliver n listener) := by
  unfold Subscription.deliver
  split
  · exact .relay .stopped s.backoffMs [] s.channel
  · exact .relay listener s.backoffMs s.notified (s.channel ++ [n])

/-- The connection loop changes only what is on its way. -/
theorem connect_advance {ok : Bool} (h : s.connect ok = some t) : Advance s t := by
  unfold Subscription.connect at h
  split at h
  case h_2 => cases h
  case h_1 =>
    split_ifs at h
    · cases h
      exact .relay .connected baseBackoffMs s.notified s.channel
    · cases h
      exact deliver_advance _ _

theorem listen_advance {ok : Bool} (h : s.listen ok = some t) : Advance s t := by
  unfold Subscription.listen at h
  split at h
  case h_2 => cases h
  case h_1 =>
    split_ifs at h
    · cases h
      exact .relay .listening s.backoffMs s.notified s.channel
    · cases h
      exact deliver_advance _ _

theorem forward_advance (h : s.forward = some t) : Advance s t := by
  have pass (rest : List ℤ) (q : ℤ) :
      Advance s ({ s with notified := rest }.deliver (.sequence q) s.listener) := by
    unfold Subscription.deliver
    split
    · exact .relay .stopped s.backoffMs [] s.channel
    · exact .relay s.listener s.backoffMs rest (s.channel ++ [.sequence q])
  unfold Subscription.forward at h
  split at h
  case h_1 q rest _ _ =>
    cases h
    exact pass rest q
  case h_2 q rest _ _ =>
    cases h
    exact pass rest q
  case h_3 =>
    cases h
    exact deliver_advance _ _
  case h_4 => cases h

theorem lose_advance (h : s.lose = some t) : Advance s t := by
  unfold Subscription.lose at h
  split at h
  case h_2 => cases h
  case h_1 =>
    cases h
    exact .relay .lost s.backoffMs s.notified s.channel

theorem wake_advance (h : s.wake = some t) : Advance s t := by
  unfold Subscription.wake at h
  split at h
  case h_2 => cases h
  case h_1 =>
    cases h
    exact .relay .connecting (min (s.backoffMs * 2) maxBackoffMs) s.notified s.channel

theorem cancelListener_advance (h : s.cancelListener = some t) : Advance s t := by
  unfold Subscription.cancelListener at h
  split at h
  case h_4 => cases h
  all_goals
    cases h
    exact .relay .stopped s.backoffMs [] s.channel

theorem commit_advance {q : ℤ} (h : s.commit q = some t) : Advance s t := by
  obtain ⟨row, hrow, rfl⟩ := Option.map_eq_some_iff.mp h
  exact .reveal (findBySequence_spec hrow).1

/-! ### The subscription loop -/

theorem subscribe_advance {a : UInt64} {read : Bool} (h : s.subscribe a read = some t) :
    Advance s t := by
  unfold Subscription.subscribe at h
  split at h
  case h_2 => cases h
  case h_1 hp =>
    split_ifs at h
    · cases h
      exact .subscribe (asI64 a) hp
    · cases h
      exact .relay s.listener s.backoffMs s.notified s.channel

theorem readPage_advance {read : Bool} (h : s.readPage read = some t) : Advance s t := by
  unfold Subscription.readPage at h
  split at h
  case h_2 => cases h
  case h_1 hp =>
    have hne : s.phase ≠ .idle := by simp [hp]
    split_ifs at h
    · split at h
      case h_1 =>
        cases h
        exact .enter s.channel hne .live
      case h_2 =>
        cases h
        exact .enter s.channel hne .page
    · cases h
      exact .enter s.channel hne .closed

theorem send_advance {accepted : Bool} (h : s.send accepted = some t) : Advance s t := by
  unfold Subscription.send at h
  split at h
  case h_2 => cases h
  case h_1 row rows backfilling hp =>
    split_ifs at h
    · cases h
      refine .send hp ?_
      split
      · exact .inr (.inl rfl)
      · exact .inr (.inr rfl)
      · exact .inl rfl
    · cases h
      exact .enter s.channel (by simp [hp]) .closed

theorem recv_advance (h : s.recv = some t) : Advance s t := by
  unfold Subscription.recv at h
  split at h
  case h_1 q rest hp hch =>
    split_ifs at h with hle
    · cases h
      exact .relay s.listener s.backoffMs s.notified rest
    · cases h
      exact .enter rest (by simp [hp]) (.fetching (not_le.mp hle))
  case h_2 rest hp hch =>
    cases h
    exact .enter rest (by simp [hp]) .recounting
  case h_3 hp hch =>
    split_ifs at h
    cases h
    exact .enter s.channel (by simp [hp]) .closed
  case h_4 => cases h

theorem lookUp_advance {read : Bool} (h : s.lookUp read = some t) : Advance s t := by
  unfold Subscription.lookUp at h
  split at h
  case h_2 => cases h
  case h_1 q hp =>
    have hne : s.phase ≠ .idle := by simp [hp]
    split at h
    case h_1 row hrow =>
      cases h
      exact .enter s.channel hne (.found hp hrow)
    case h_2 =>
      cases h
      exact .enter s.channel hne .live

theorem recount_advance {read : Bool} (h : s.recount read = some t) : Advance s t := by
  unfold Subscription.recount at h
  split at h
  case h_2 => cases h
  case h_1 hp =>
    have hne : s.phase ≠ .idle := by simp [hp]
    split_ifs at h
    · cases h
      exact .enter s.channel hne .backfill
    · cases h
      exact .enter s.channel hne .closed

theorem cancelSubscription_advance (h : s.cancelSubscription = some t) : Advance s t := by
  unfold Subscription.cancelSubscription at h
  split at h
  case h_3 => cases h
  all_goals
    cases h
    exact .enter s.channel (by simp_all) .closed

theorem step_advance {e : DeliveryEvent} (h : step s e = some t) : Advance s t := by
  cases e with
  | channel notifications =>
      cases h
      exact .relay s.listener s.backoffMs s.notified notifications
  | stream e =>
      change next s e = some t at h
      cases e with
      | insert event =>
          cases h
          exact .insert event
      | rollback q =>
          cases h
          exact .rollback q
      | commit q => exact commit_advance h
      | connect ok => exact connect_advance h
      | listen ok => exact listen_advance h
      | lose => exact lose_advance h
      | forward => exact forward_advance h
      | wake => exact wake_advance h
      | cancelListener => exact cancelListener_advance h
      | subscribe a read => exact subscribe_advance h
      | readPage read => exact readPage_advance h
      | send accepted => exact send_advance h
      | recv => exact recv_advance h
      | lookUp read => exact lookUp_advance h
      | recount read => exact recount_advance h
      | cancelSubscription => exact cancelSubscription_advance h

end

/-! ### The invariant -/

/-- The loop holds nothing that it could send out of order. -/
def Ready (s : Subscription) : Phase → Prop
  | .sending rows _ => RowsAbove s rows
  | .fetching q => s.lastSentSequence < q
  | _ => True

/-- What was sent is visible, above the start cursor and in order. -/
structure Ordered (s : Subscription) : Prop where
  distinct : (s.committed ++ s.inserted).Pairwise fun a b => a.sequence ≠ b.sequence
  bounded : ∀ r ∈ s.committed ++ s.inserted, 0 < r.sequence ∧ r.sequence < s.nextSequence
  positive : 0 < s.nextSequence
  ordered : s.sent.Pairwise fun a b => a.sequence < b.sequence
  sent : ∀ r ∈ s.sent,
    r ∈ s.committed ∧ s.afterSequence < r.sequence ∧ r.sequence ≤ s.lastSentSequence
  start_le : s.afterSequence ≤ s.lastSentSequence
  ready : Ready s s.phase
  idle : s.phase = .idle → s.sent = []

section
variable {s t : Subscription}

theorem ordered_empty : Ordered Subscription.empty := by
  constructor
  · exact .nil
  · exact fun r hr => absurd hr List.not_mem_nil
  · decide
  · exact .nil
  · exact fun r hr => absurd hr List.not_mem_nil
  · exact le_rfl
  · trivial
  · exact fun _ => rfl

theorem Ordered.distinct_committed (hI : Ordered s) :
    s.committed.Pairwise fun a b => a.sequence ≠ b.sequence :=
  (List.pairwise_append.mp hI.distinct).1

/-- A visible row is what the lookup of its sequence finds. -/
theorem Ordered.findBySequence_eq (hI : Ordered s) {r : OutboxEvent} (hr : r ∈ s.committed) :
    findBySequence s.committed r.sequence = some r := by
  obtain ⟨r', hfound⟩ : ∃ r', findBySequence s.committed r.sequence = some r' := by
    rw [← Option.isSome_iff_exists]
    unfold findBySequence
    rw [List.find?_isSome]
    exact ⟨r, hr, decide_eq_true rfl⟩
  obtain ⟨hr', hseq⟩ := findBySequence_spec hfound
  rw [hfound, eq_of_sequence_eq hI.distinct_committed hr' hr hseq]

/-- More visible rows do not matter while the cursor stays. -/
theorem Ready.grow {p : Phase} (h : Ready s p) (hc : s.committed ⊆ t.committed)
    (hl : t.lastSentSequence = s.lastSentSequence) : Ready t p := by
  cases p with
  | sending rows backfilling => exact ⟨h.1, fun x hx => ⟨hc (h.2 x hx).1, hl ▸ (h.2 x hx).2⟩⟩
  | fetching q =>
      change t.lastSentSequence < q
      rw [hl]
      exact h
  | _ => trivial

/-- A step that keeps the rows, the cursor and the phase. -/
theorem Ordered.relay {l : Listener} {b : ℕ} {n : List ℤ} {ch : List Notification}
    (hI : Ordered s) :
    Ordered { s with listener := l, backoffMs := b, notified := n, channel := ch } :=
  ⟨hI.distinct, hI.bounded, hI.positive, hI.ordered, hI.sent, hI.start_le,
    hI.ready.grow (List.Subset.refl _) rfl, hI.idle⟩

theorem Ordered.insert (hI : Ordered s) (event : NewOutboxEvent) : Ordered (s.insert event) := by
  have hpos := hI.positive
  refine ⟨insert_distinct event hI.distinct fun r hr => (hI.bounded r hr).2, fun r hr => ?_, ?_,
    hI.ordered, hI.sent, hI.start_le, hI.ready.grow (List.Subset.refl _) rfl, hI.idle⟩
  · rw [insert_rows] at hr
    change 0 < r.sequence ∧ r.sequence < s.nextSequence + 1
    rcases List.mem_append.mp hr with hr | hr
    · have h := hI.bounded r hr
      omega
    · obtain rfl := List.mem_singleton.mp hr
      rw [NewOutboxEvent.row_sequence]
      omega
  · change 0 < s.nextSequence + 1
    omega

theorem Ordered.rollback (hI : Ordered s) (q : ℤ) : Ordered (s.rollback q) :=
  ⟨hI.distinct.sublist (rollback_sublist q),
    fun r hr => hI.bounded r ((rollback_sublist q).subset hr), hI.positive, hI.ordered, hI.sent,
    hI.start_le, hI.ready.grow (List.Subset.refl _) rfl, hI.idle⟩

theorem Ordered.reveal {row : OutboxEvent} (hI : Ordered s) (hrow : row ∈ s.inserted) :
    Ordered (s.reveal row) := by
  have hgrow : s.committed ⊆ (s.reveal row).committed := List.subset_append_left _ _
  refine ⟨reveal_distinct hrow hI.distinct, fun r hr => hI.bounded r (reveal_subset hrow hr),
    hI.positive, hI.ordered, fun r hr => ?_, hI.start_le, hI.ready.grow hgrow rfl, hI.idle⟩
  obtain ⟨hvisible, hbounds⟩ := hI.sent r hr
  exact ⟨hgrow hvisible, hbounds⟩

/-- What the loop takes in hand lies above the cursor. -/
theorem Ordered.enter {p : Phase} {ch : List Notification} (hI : Ordered s)
    (hp : Entered s p) : Ordered { s with phase := p, channel := ch } := by
  have hready : Ready { s with phase := p, channel := ch } p := by
    cases hp with
    | page => exact ⟨page_pairwise hI.distinct_committed, fun x hx => mem_page hx⟩
    | fetching hlt => exact hlt
    | found hphase hfound =>
        have h := hI.ready
        rw [hphase] at h
        obtain ⟨hmem, rfl⟩ := findBySequence_spec hfound
        refine ⟨List.pairwise_singleton _ _, fun x hx => ?_⟩
        obtain rfl := List.mem_singleton.mp hx
        exact ⟨hmem, h⟩
    | _ => trivial
  have hidle : p = .idle → s.sent = [] := by
    rintro rfl
    cases hp
  exact ⟨hI.distinct, hI.bounded, hI.positive, hI.ordered, hI.sent, hI.start_le, hready, hidle⟩

/-- Sending moves the cursor to a larger row. -/
theorem Ordered.send {row : OutboxEvent} {rows : List OutboxEvent} {backfilling : Bool}
    {p : Phase} (hI : Ordered s) (hphase : s.phase = .sending (row :: rows) backfilling)
    (hp : p = .sending rows backfilling ∨ p = .backfill ∨ p = .live) :
    Ordered { s with lastSentSequence := row.sequence, sent := s.sent ++ [row], phase := p } := by
  have habove := hI.ready
  rw [hphase] at habove
  obtain ⟨hvisible, hlt⟩ := habove.2 row List.mem_cons_self
  have hstart := hI.start_le
  refine ⟨hI.distinct, hI.bounded, hI.positive, ?_, ?_, hstart.trans hlt.le, ?_, ?_⟩
  · refine List.pairwise_append.mpr ⟨hI.ordered, List.pairwise_singleton _ _, ?_⟩
    intro a ha b hb
    obtain rfl := List.mem_singleton.mp hb
    exact (hI.sent a ha).2.2.trans_lt hlt
  · intro r hr
    rcases List.mem_append.mp hr with hr | hr
    · obtain ⟨hmem, hafter, hle⟩ := hI.sent r hr
      exact ⟨hmem, hafter, hle.trans hlt.le⟩
    · obtain rfl := List.mem_singleton.mp hr
      exact ⟨hvisible, hstart.trans_lt hlt, le_rfl⟩
  · rcases hp with rfl | rfl | rfl
    · exact habove.tail rfl rfl
    · trivial
    · trivial
  · rcases hp with rfl | rfl | rfl <;> exact nofun

theorem Ordered.advance (hI : Ordered s) (h : Advance s t) : Ordered t := by
  cases h with
  | relay l b n ch => exact hI.relay
  | insert event => exact hI.insert event
  | rollback q => exact hI.rollback q
  | reveal hrow => exact hI.reveal hrow
  | subscribe cursor hidle =>
      have hsent := hI.idle hidle
      refine ⟨hI.distinct, hI.bounded, hI.positive, hI.ordered, ?_, le_rfl, trivial, nofun⟩
      intro r hr
      change r ∈ s.sent at hr
      rw [hsent] at hr
      cases hr
  | enter ch hne hp => exact hI.enter hp
  | send hphase hp => exact hI.send hphase hp

/-- Once the loop runs, its start cursor stays. -/
theorem started_advance {cursor : ℤ} (h : Advance s t)
    (hs : s.phase ≠ .idle ∧ s.afterSequence = cursor) :
    t.phase ≠ .idle ∧ t.afterSequence = cursor := by
  cases h with
  | subscribe c hidle => exact absurd hidle hs.1
  | enter ch hne hp =>
      refine ⟨?_, hs.2⟩
      rintro rfl
      cases hp
  | send hphase hp =>
      refine ⟨?_, hs.2⟩
      rcases hp with rfl | rfl | rfl <;> exact nofun
  | _ => exact hs

end

/-! ### Runs -/

/-- Any events at all. -/
def anyEvent (_ : Subscription) (_ : DeliveryEvent) : Prop := True

/-- The events that the loop has put on the subscriber's channel. -/
def delivered (toText : Json → Option String) (s : Subscription) : List ProtoPaymentEvent :=
  s.sent.map (OutboxEvent.toProto toText)

section
variable {s s₀ s₁ : Subscription} {es es' : List DeliveryEvent} {a : UInt64} {read : Bool}

theorem ordered_run (hI : Ordered s₀) (hrun : Run step anyEvent s₀ es s) : Ordered s :=
  hrun.invariant (fun _ _ _ _ hstep hI => hI.advance (step_advance hstep)) hI

/-- The subscription that has started keeps to the cursor it was asked for. -/
theorem started_run (hsub : s₀.subscribe a read = some s₁) (hstarted : s₁.phase = .backfill)
    (hrun : Run step anyEvent s₁ es s) : s.afterSequence = asI64 a := by
  have hcursor : s₁.phase ≠ .idle ∧ s₁.afterSequence = asI64 a := by
    refine ⟨by simp [hstarted], ?_⟩
    unfold Subscription.subscribe at hsub
    split at hsub
    case h_2 => cases hsub
    case h_1 hidle =>
      split_ifs at hsub
      · cases hsub
        rfl
      · cases hsub
        rw [hstarted] at hidle
        cases hidle
  have hkept := hrun.invariant (J := fun s => s.phase ≠ .idle ∧ s.afterSequence = asI64 a)
    (fun _ _ _ _ hstep hs => started_advance (step_advance hstep) hs) hcursor
  exact hkept.2

/-- Sequences that fit their column reach the wire as they are. -/
theorem Ordered.wire_sequence (hI : Ordered s) {r : OutboxEvent} (hr : r ∈ s.sent)
    (hfits : ∀ r ∈ s.committed, r.sequence < 2 ^ 63) (toText : Json → Option String) :
    ((r.toProto toText).sequence.toNat : ℤ) = r.sequence := by
  have hvisible := (hI.sent r hr).1
  have hpos := (hI.bounded r (List.mem_append_left _ hvisible)).1
  have hlt := hfits r hvisible
  exact asU64_toNat hpos.le (by omega)

/-- In every run of a subscription the rows sent are visible rows above its start cursor,
in strictly increasing order, and the events on the channel are their images. -/
theorem delivery_is_ordered (hbefore : Run step anyEvent Subscription.empty es s₀)
    (hsub : s₀.subscribe a read = some s₁) (hstarted : s₁.phase = .backfill)
    (hrun : Run step anyEvent s₁ es' s) (toText : Json → Option String) :
    s.sent.Pairwise (fun r r' => r.sequence < r'.sequence) ∧ s.sent.Nodup ∧
    (∀ r ∈ s.sent, asI64 a < r.sequence ∧ findBySequence s.committed r.sequence = some r) ∧
    ((∀ r ∈ s.committed, r.sequence < 2 ^ 63) →
      (delivered toText s).Pairwise (fun m m' => m.sequence < m'.sequence) ∧
      ∀ m ∈ delivered toText s, asI64 a < m.sequence.toNat ∧
        ∃ r, findBySequence s.committed m.sequence.toNat = some r ∧ m = r.toProto toText) := by
  have hI₀ : Ordered s₀ := ordered_run ordered_empty hbefore
  have hI : Ordered s := ordered_run (hI₀.advance (subscribe_advance hsub)) hrun
  have hstart := started_run hsub hstarted hrun
  have hsent : ∀ r ∈ s.sent,
      asI64 a < r.sequence ∧ findBySequence s.committed r.sequence = some r := by
    intro r hr
    obtain ⟨hvisible, hafter, -⟩ := hI.sent r hr
    exact ⟨hstart ▸ hafter, hI.findBySequence_eq hvisible⟩
  refine ⟨hI.ordered, ?_, hsent, fun hfits => ⟨?_, ?_⟩⟩
  · apply hI.ordered.imp
    rintro r r' hlt rfl
    exact lt_irrefl _ hlt
  · refine List.pairwise_map.mpr (hI.ordered.imp_of_mem fun {r r'} hr hr' hlt => ?_)
    have hw := hI.wire_sequence hr hfits toText
    have hw' := hI.wire_sequence hr' hfits toText
    apply UInt64.lt_iff_toNat_lt.mpr
    omega
  · intro m hm
    obtain ⟨r, hr, rfl⟩ := List.mem_map.mp hm
    rw [hI.wire_sequence hr hfits toText]
    exact ⟨(hsent r hr).1, r, (hsent r hr).2, rfl⟩

end

/-- A subscriber of everything, in an outbox that is still empty. -/
def started : Subscription :=
  { Subscription.empty with phase := .backfill, listener := .connecting }

/-- Two rows reach the loop through a page, through notifications in the wrong order and
through a page that is read again. -/
def overlapping : List DeliveryEvent :=
  [.stream (.insert someEvent), .stream (.insert someEvent), .stream (.commit 1),
    .stream (.readPage true), .stream (.send true), .stream (.readPage true),
    .channel [.sequence 1, .sequence 2, .sequence 7, .sequence 2, .listenDisconnected, .sequence 2],
    .stream .recv, .stream .recv, .stream (.lookUp true), .stream .recv, .stream (.lookUp false),
    .stream (.commit 2), .stream .recv, .stream (.lookUp true), .stream (.send true), .stream .recv,
    .stream (.recount true), .stream (.readPage true), .stream .recv]

theorem delivery_is_ordered_overlapping :
    ∃ s, Run step anyEvent started overlapping s ∧
      s.sent.map OutboxEvent.sequence = [1, 2] ∧ s.sent.Nodup := by
  obtain ⟨s, hplayed, hsent⟩ := exists_run_of_play step (fun _ _ => true) started overlapping
    (fun s => decide (s.sent.map OutboxEvent.sequence = [1, 2])) (by decide +kernel)
  have hrun : Run step anyEvent started overlapping s :=
    hplayed.admitted (J := fun _ => True) (fun _ _ _ _ _ _ => trivial) (fun _ _ _ _ => trivial)
      trivial
  have hsub : Subscription.empty.subscribe 0 true = some started := rfl
  exact ⟨s, hrun, of_decide_eq_true hsent,
    (delivery_is_ordered (run_nil.mpr rfl) hsub rfl hrun fun _ => none).2.1⟩

end LightningGateway.EventDelivery
