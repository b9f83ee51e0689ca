import LightningGateway.PagedReads
import LightningGateway.EventDelivery
import LightningGateway.FeedInvariant

/-!
# The three backfill loops

`subscription_loop` pages through the outbox when a subscriber arrives and again after
the `LISTEN` connection was lost, and a status stream does so in `drain_backfill`. Each
of them fetches a thousand rows above its cursor, moves the cursor to each row, and
stops at an empty page. So each is a reader of the outbox, and visits what the plain
query returns.
-/
namespace LightningGateway.BackfillPaging
open GuardedRuns CursorFeeds PagedReads OutboxRows EventStream StreamGaps EventDelivery

theorem backfillBatchSize_pos : 0 < backfillBatchSize := by decide

/-- A step of the loop on the rows that the outbox shows at the time. -/
abbrev fetchOrVisit (s : Reader OutboxEvent ℤ) (rows : List OutboxEvent) :
    Option (Reader OutboxEvent ℤ) :=
  s.step OutboxEvent.sequence backfillBatchSize rows

/-! ### `subscription_loop` -/

/-- The reader that a subscription contains while it backfills. -/
def subscriptionView (s : Subscription) : Option (Reader OutboxEvent ℤ) :=
  match s.phase with
  | .backfill => some ⟨s.lastSentSequence, [], s.sent, false⟩
  | .sending rows true => some ⟨s.lastSentSequence, rows, s.sent, false⟩
  | .live => some ⟨s.lastSentSequence, [], s.sent, true⟩
  | _ => none

def isLoopEvent : StreamEvent → Bool
  | .readPage _ | .send _ => true
  | _ => false

section
variable {s t : Subscription} {y z : Reader OutboxEvent ℤ}

/-- The view reads the phase, the cursor and what was sent. -/
theorem view_congr (hp : t.phase = s.phase) (hl : t.lastSentSequence = s.lastSentSequence)
    (hs : t.sent = s.sent) : subscriptionView t = subscriptionView s := by
  unfold subscriptionView
  rw [hp, hl, hs]

theorem deliver_view (n : Notification) (l : Listener) :
    subscriptionView (s.deliver n l) = subscriptionView s := by
  unfold Subscription.deliver
  split <;> exact view_congr rfl rfl rfl

/-- A subscription that backfills reads or sends. -/
theorem view_reading (h : subscriptionView s = some y) (hf : y.finished = false) :
    s.phase = .backfill ∨ ∃ rows, s.phase = .sending rows true := by
  unfold subscriptionView at h
  split at h
  case h_1 hp => exact .inl hp
  case h_2 rows hp => exact .inr ⟨rows, hp⟩
  case h_3 =>
    cases h
    cases hf
  case h_4 => cases h

/-- What is not a step of the loop leaves its view alone, or ends it. -/
theorem other_view {e : StreamEvent} (h : next s e = some t) (hown : isLoopEvent e = false)
    (hp : s.phase = .backfill ∨ ∃ rows, s.phase = .sending rows true) :
    subscriptionView t = subscriptionView s ∨ subscriptionView t = none := by
  have hne (p : Phase) (h : p ≠ .backfill) (h' : ∀ rows, p ≠ .sending rows true) : s.phase ≠ p := by
    rintro rfl
    rcases hp with hp | ⟨rows, hp⟩
    · exact h hp
    · exact h' rows hp
  cases e with
  | readPage read | send accepted => cases hown
  | insert event | rollback q =>
      cases h
      exact .inl (view_congr rfl rfl rfl)
  | commit q =>
      obtain ⟨row, -, rfl⟩ := Option.map_eq_some_iff.mp h
      exact .inl (view_congr rfl rfl rfl)
  | connect ok =>
      simp only [next, Subscription.connect] at h
      split at h
      · split_ifs at h <;> cases h
        · exact .inl (view_congr rfl rfl rfl)
        · exact .inl (deliver_view _ _)
      · cases h
  | listen ok =>
      simp only [next, Subscription.listen] at h
      split at h
      · split_ifs at h <;> cases h
        · exact .inl (view_congr rfl rfl rfl)
        · exact .inl (deliver_view _ _)
      · cases h
  | lose =>
      simp only [next, Subscription.lose] at h
      split at h <;> cases h
      exact .inl (view_congr rfl rfl rfl)
  | forward =>
      simp only [next, Subscription.forward] at h
      split at h <;> cases h
      · exact .inl ((deliver_view _ _).trans (view_congr rfl rfl rfl))
      · exact .inl ((deliver_view _ _).trans (view_congr rfl rfl rfl))
      · exact .inl (deliver_view _ _)
  | wake =>
      simp only [next, Subscription.wake] at h
      split at h <;> cases h
      exact .inl (view_congr rfl rfl rfl)
  | cancelListener =>
      simp only [next, Subscription.cancelListener] at h
      split at h <;> cases h
      all_goals exact .inl (view_congr rfl rfl rfl)
  | subscribe a read =>
      simp only [next, Subscription.subscribe] at h
      split at h
      case h_1 hidle => exact absurd hidle (hne _ (by simp) (by simp))
      case h_2 => cases h
  | recv =>
      simp only [next, Subscription.recv] at h
      split at h
      case h_4 => cases h
      all_goals exact absurd ‹s.phase = .live› (hne _ (by simp) (by simp))
  | lookUp read =>
      simp only [next, Subscription.lookUp] at h
      split at h
      case h_1 q hfetching => exact absurd hfetching (hne _ (by simp) (by simp))
      case h_2 => cases h
  | recount read =>
      simp only [next, Subscription.recount] at h
      split at h
      case h_1 hre => exact absurd hre (hne _ (by simp) (by simp))
      case h_2 => cases h
  | cancelSubscription =>
      simp only [next, Subscription.cancelSubscription] at h
      split at h <;> cases h
      all_goals exact .inr rfl

theorem subscription_reads :
    Reads OutboxEvent.sequence backfillBatchSize next Subscription.committed subscriptionView
      isLoopEvent := by
  intro s e t y z h hy hf hz
  have hp := view_reading hy hf
  cases hown : isLoopEvent e with
  | false =>
      simp only [Bool.false_eq_true, if_false]
      rcases other_view h hown hp with hsame | hnone
      · rw [hsame, hy] at hz
        exact (Option.some.inj hz).symm
      · rw [hnone] at hz
        cases hz
  | true =>
      simp only [if_true]
      cases e with
      | readPage read =>
          simp only [next, Subscription.readPage] at h
          split at h
          case h_2 => cases h
          case h_1 hphase =>
            simp only [subscriptionView, hphase] at hy
            cases hy
            cases read with
            | false =>
                cases h
                cases hz
            | true =>
                simp only [if_true] at h
                split at h
                case h_1 hpage =>
                  cases h
                  cases hz
                  exact step_finish rfl rfl hpage
                case h_2 rows hne =>
                  cases h
                  cases hz
                  cases hpage : fetchAfterBatch s.committed s.lastSentSequence with
                  | nil => exact absurd hpage hne
                  | cons row rows => exact step_fetch rfl rfl hpage
      | send accepted =>
          simp only [next, Subscription.send] at h
          split at h
          case h_2 => cases h
          case h_1 row rows backfilling hphase =>
            rcases hp with hp | ⟨rows', hp⟩
            · rw [hp] at hphase
              cases hphase
            · rw [hp] at hphase
              cases hphase
              simp only [subscriptionView, hp] at hy
              cases hy
              cases accepted with
              | false =>
                  cases h
                  cases hz
              | true =>
                  cases h
                  cases rows <;> cases hz <;> exact step_visit rfl rfl
      | _ => cases hown

end

/-! ### `drain_backfill` -/

section
open Primitives StatusFeed FeedSteps FeedInvariant GatewayStore GatewayMachine GatewayInvariant

variable {g : Deployment}

/-- The reader that a status stream contains while it drains the backfill. -/
def streamView (s : StatusStream) : Option (Reader OutboxEvent ℤ) :=
  match s.phase with
  | .paging _ => some ⟨s.cursor, [], s.processed, false⟩
  | .scanning rows _ => some ⟨s.cursor, rows, s.processed, false⟩
  | .lookingUp | .live => some ⟨s.cursor, [], s.processed, true⟩
  | _ => none

/-- The reader of the `i`-th stream. -/
def feedView (i : ℕ) (f : Feed g) : Option (Reader OutboxEvent ℤ) :=
  f.streams[i]?.bind streamView

def isDrainEvent (i : ℕ) : FeedEvent g → Bool
  | .stream j (.page _) | .stream j (.scan _) => j = i
  | _ => false

def isDrainStep : StreamStep → Bool
  | .page _ | .scan _ => true
  | _ => false

variable {db : Db} {s t : StatusStream} {y z : Reader OutboxEvent ℤ} {i : ℕ}

theorem offer_view (row : OutboxEvent) : streamView (s.offer row) = streamView s := by
  unfold StatusStream.offer
  split_ifs <;> rfl

/-- A stream that drains the backfill pages or scans. -/
theorem stream_reading (h : streamView s = some y) (hf : y.finished = false) :
    (∃ first, s.phase = .paging first) ∨ ∃ rows first, s.phase = .scanning rows first := by
  unfold streamView at h
  split at h
  case h_1 first hp => exact .inl ⟨first, hp⟩
  case h_2 rows first hp => exact .inr ⟨rows, first, hp⟩
  case h_5 => cases h
  all_goals
    cases h
    cases hf

/-- A step of the stream is one of its reader, an overflow of its buffer, or its end. -/
theorem stream_reads {x : StreamStep} (h : s.step db x = some t) (hy : streamView s = some y)
    (hf : y.finished = false) (hz : streamView t = some z) :
    if isDrainStep x then fetchOrVisit y db.outbox = some z else z = y := by
  have hs := step_spec h
  rcases stream_reading hy hf with ⟨first, hp⟩ | ⟨rows, first, hp⟩
  · simp only [streamView, hp] at hy
    cases hy
    cases hs with
    | drained hp' hpage =>
        rw [hp] at hp'
        cases hp'
        have hz' : z = ⟨s.cursor, [], s.processed, true⟩ := by
          cases first <;> exact (Option.some.inj hz).symm
        subst hz'
        exact step_finish rfl rfl hpage
    | @paged _ rows hp' hpage hne =>
        cases hz
        cases rows with
        | nil => exact absurd rfl hne
        | cons row rows => exact step_fetch rfl rfl hpage
    | overflowed =>
        simp only [streamView, hp] at hz
        exact (Option.some.inj hz).symm
    | failedPage => cases hz
    | _ => simp_all
  · simp only [streamView, hp] at hy
    cases hy
    cases hs with
    | @scanned row rest _ _ _ hp' hh =>
        rw [hp] at hp'
        cases hp'
        obtain ⟨-, hcursor, hprocessed, hphase⟩ := hh.frame
        rcases hphase with hk | hc | ⟨hpay, -⟩
        · have hz' : z = ⟨row.sequence, rest, s.processed ++ [row], false⟩ := by
            cases rest <;>
              simp only [streamView, hk, afterRow, hcursor, hprocessed] at hz <;>
              exact (Option.some.inj hz).symm
          subst hz'
          exact step_visit rfl rfl
        · simp [streamView, hc] at hz
        · simp [streamView, hpay] at hz
    | overflowed =>
        simp only [streamView, hp] at hz
        exact (Option.some.inj hz).symm
    | _ => simp_all

theorem feedView_some {f : Feed g} (h : feedView i f = some y) :
    ∃ s, f.streams[i]? = some s ∧ streamView s = some y :=
  Option.bind_eq_some_iff.mp h

/-- Steps around the streams leave every reader alone. -/
theorem feedView_map {f f' : Feed g} {φ : StatusStream → StatusStream}
    (hφ : ∀ s, streamView (φ s) = streamView s) (h : f'.streams = f.streams.map φ) :
    feedView i f' = feedView i f := by
  unfold feedView
  rw [h, List.getElem?_map]
  cases f.streams[i]? with
  | none => rfl
  | some s => exact hφ s

theorem feedView_set {f : Feed g} {j : ℕ} (hj : f.streams[j]? = some s) (t : StatusStream) :
    feedView i { f with streams := f.streams.set j t } =
      if j = i then streamView t else feedView i f := by
  unfold feedView
  rw [List.getElem?_set]
  split_ifs with hij hlt
  · rfl
  · exact absurd (List.getElem?_eq_some_iff.mp hj).1 (hij ▸ hlt)
  · rfl

/-- What is not a step of the streams leaves every reader alone, or ends it. -/
theorem around_view {f f' : Feed g} {e : FeedEvent g} (h : f.next e = some f')
    (he : ∀ j x, e ≠ .stream j x) (hy : feedView i f = some y) (hz : feedView i f' = some z) :
    z = y := by
  have hsame {φ : StatusStream → StatusStream} (hφ : ∀ s, streamView (φ s) = streamView s)
      (hmap : f'.streams = f.streams.map φ) : z = y := by
    rw [feedView_map hφ hmap, hy] at hz
    exact (Option.some.inj hz).symm
  have hkept (hstreams : f'.streams = f.streams) : z = y :=
    hsame (fun _ => rfl) (hstreams.trans (List.map_id _).symm)
  cases e with
  | app e =>
      simp only [Feed.next, Feed.app] at h
      split at h
      case h_1 => cases h
      case h_2 =>
        split at h <;> cases h
        · cases hz
        · exact hkept rfl
  | relay x =>
      obtain ⟨ingest, -, rfl⟩ := Option.map_eq_some_iff.mp h
      exact hkept rfl
  | ingest read =>
      simp only [Feed.next, Feed.ingestNext] at h
      split at h
      case h_1 => cases h
      case h_2 =>
        cases h
        exact hkept rfl
      case h_3 =>
        split at h <;> cases h
        · exact hsame (fun s => offer_view _) rfl
        · exact hkept rfl
  | subscribe input configured resume =>
      obtain ⟨s, hs, hview⟩ := feedView_some hy
      have happend (new : StatusStream) (hstreams : f'.streams = f.streams ++ [new]) : z = y := by
        obtain ⟨s', hs', hview'⟩ := feedView_some hz
        rw [hstreams, List.getElem?_append_left (List.getElem?_eq_some_iff.mp hs).1, hs] at hs'
        cases hs'
        exact Option.some.inj (hview'.symm.trans hview)
      have hsub : f.subscribe input configured resume = f' := Option.some.inj h
      unfold Feed.subscribe at hsub
      split at hsub <;> subst hsub
      · exact happend _ rfl
      · exact hkept rfl
      · exact hkept rfl
  | stream j x => exact absurd rfl (he j x)

theorem feed_reads (i : ℕ) :
    Reads OutboxEvent.sequence backfillBatchSize (Feed.next (g := g)) (fun f => f.db.outbox)
      (feedView i) (isDrainEvent i) := by
  intro f e f' y z h hy hf hz
  cases e with
  | stream j x =>
      simp only [Feed.next] at h
      split at h
      case h_1 => cases h
      case h_2 s hs =>
        obtain ⟨t, ht, rfl⟩ := Option.map_eq_some_iff.mp h
        rw [feedView_set hs] at hz
        by_cases hij : j = i
        · subst hij
          rw [if_pos rfl] at hz
          obtain ⟨s', hs', hview⟩ := feedView_some hy
          cases hs.symm.trans hs'
          have hstep := stream_reads ht hview hf hz
          cases x <;> simpa [isDrainEvent, isDrainStep] using hstep
        · rw [if_neg hij, hy] at hz
          cases x <;> simp [isDrainEvent, hij, Option.some.inj hz]
  | _ => exact around_view h (by simp) hy hz

theorem feed_grows {f f' : Feed g} {e : FeedEvent g} (hI : FeedOk f)
    (h : f.next e = some f') : f.db.outbox ⊆ f'.db.outbox := by
  obtain ⟨db, ingest, φ, hs, hdb, -⟩ | ⟨_, _, _, _, -, rfl⟩ | ⟨_, _, _, _, -, -, -, rfl⟩ |
    ⟨hdb, -⟩ := feed_cases hI h
  · rw [hdb]
    cases hs with
    | commit _ ha _ => exact fun r hr => Appends.mem ha hr
    | relayed | broadcast | dropped => exact List.Subset.refl _
  · exact List.Subset.refl _
  · exact List.Subset.refl _
  · rw [hdb]
    exact List.Subset.refl _

theorem feed_equalsQuery {f : Feed g} {cursor : ℤ} {processed : List OutboxEvent}
    (hI : FeedOk f) (hview : feedView i f = some (.start cursor processed)) :
    EqualsQuery OutboxEvent.sequence Feed.next (fun f : Feed g => f.db.outbox) (feedView i)
      (isDrainEvent i) f (.start cursor processed) :=
  (feed_reads i).equalsQuery backfillBatchSize_pos (fun _ _ _ h hI => FeedOk.next hI h)
    (fun _ hI => hI.facts.sequenced.increasing.imp fun hlt => hlt.ne)
    (fun _ _ _ h hI => feed_grows hI h) hview hI

end

/-! ### The plain query -/

theorem committed_grows {s t : Subscription} (h : Advance s t) : s.committed ⊆ t.committed := by
  cases h with
  | reveal => exact List.subset_append_left _ _
  | _ => exact List.Subset.refl _

theorem subscription_equalsQuery {s : Subscription} {cursor : ℤ} {sent : List OutboxEvent}
    (hI : Ordered s) (hview : subscriptionView s = some (.start cursor sent)) :
    EqualsQuery OutboxEvent.sequence next Subscription.committed subscriptionView isLoopEvent s
      (.start cursor sent) :=
  have hadvance {s t : Subscription} {e : StreamEvent} (h : next s e = some t) : Advance s t :=
    step_advance (e := .stream e) h
  subscription_reads.equalsQuery backfillBatchSize_pos
    (fun _ _ _ h hI => hI.advance (hadvance h)) (fun _ hI => hI.distinct_committed)
    (fun _ _ _ h _ => committed_grows (hadvance h)) hview hI

/-- The loop by itself, on the outbox `rows` from the cursor `c`. -/
structure LoopEqualsQuery (rows : List OutboxEvent) (c : ℤ) : Prop where
  terminates : ∃ Ts t, Run fetchOrVisit (fun _ T => T = rows) (.start c []) Ts t ∧
    t.finished = true
  bounded : ∀ Ts t, Run fetchOrVisit (fun _ T => T = rows) (.start c []) Ts t →
    Ts.length ≤ 2 * countAfter rows c + 1
  /-- It visits the rows above `c`, in order, and ends at the largest of them. -/
  drained : ∀ Ts t, Run fetchOrVisit (fun _ T => T = rows) (.start c []) Ts t →
    t.finished = true → Drained OutboxEvent.sequence rows (.start c []) t
  /-- Further rows may appear while it runs. -/
  covered : ∀ Ts t, Run fetchOrVisit
      (fun _ T => T.Pairwise (fun a b => a.sequence ≠ b.sequence) ∧ rows ⊆ T) (.start c []) Ts t →
    t.finished = true → ∀ r ∈ rows, c < r.sequence → r ∈ t.visited

theorem loop_equalsQuery {rows : List OutboxEvent}
    (hd : rows.Pairwise fun a b => a.sequence ≠ b.sequence) (c : ℤ) : LoopEqualsQuery rows c where
  terminates := finishes backfillBatchSize_pos hd (progress_start c [])
  bounded Ts t hrun := by
    have h := weight_run backfillBatchSize_pos hd (progress_start c []) hrun
    simp only [weight, Reader.start, List.isEmpty_nil, Bool.false_eq_true, if_false,
      if_true] at h
    exact (Nat.le_add_right _ _).trans h
  drained Ts t hrun hf := by
    have hsame : ∀ T, T = rows → Shows OutboxEvent.sequence rows {r | r ∈ rows} T := by
      rintro T rfl
      exact ⟨hd, List.Subset.refl _, fun _ h => h⟩
    have hshows := hrun.admitted (J := fun _ => True) (fun _ _ _ _ _ _ => trivial)
      (fun _ T hT _ => hsame T hT) trivial
    exact (progress_run backfillBatchSize_pos (progress_start c []) hshows).drained hf
  covered Ts t hrun hf r hr hc := by
    have hshows := hrun.admitted (J := fun _ => True) (fun _ _ _ _ _ _ => trivial)
      (fun _ T hT _ => (⟨hT.1, hT.2, fun _ _ => trivial⟩ :
        Shows OutboxEvent.sequence rows Set.univ T)) trivial
    exact (progress_run backfillBatchSize_pos (progress_start c []) hshows).none_skipped hf hr hc

/-- Backfill paging is the plain query: for the loop by itself, for both backfills of a
subscription, and for the backfill of a status stream. -/
theorem backfill_equals_query (g : GatewayMachine.Deployment) :
    (∀ rows : List OutboxEvent, rows.Pairwise (fun a b => a.sequence ≠ b.sequence) →
      ∀ c, LoopEqualsQuery rows c) ∧
    (∀ es s, Run step anyEvent Subscription.empty es s → s.phase = .backfill →
      EqualsQuery OutboxEvent.sequence next Subscription.committed subscriptionView isLoopEvent s
        (.start s.lastSentSequence s.sent)) ∧
    ∀ (es : List (StatusFeed.FeedEvent g)) (f : StatusFeed.Feed g) (i : ℕ)
      (s : StatusFeed.StatusStream) (first : Bool),
      StatusFeed.Feeds (fun _ _ => true) es f → f.streams[i]? = some s → s.phase = .paging first →
      EqualsQuery OutboxEvent.sequence StatusFeed.Feed.next
        (fun f : StatusFeed.Feed g => f.db.outbox) (feedView i) (isDrainEvent i) f
        (.start s.cursor s.processed) := by
  refine ⟨fun rows hd c => loop_equalsQuery hd c, fun es s hrun hphase => ?_,
    fun es f i s first hrun hs hphase => ?_⟩
  · have hview : subscriptionView s = some (.start s.lastSentSequence s.sent) := by
      simp only [subscriptionView, hphase, Reader.start]
    exact subscription_equalsQuery (ordered_run ordered_empty hrun) hview
  · have hview : feedView i f = some (.start s.cursor s.processed) := by
      simp only [feedView, hs, Option.bind_some, streamView, hphase, Reader.start]
    exact feed_equalsQuery (FeedInvariant.feedOk_run hrun) hview

/-- Two rows out of order, and a subscriber of an outbox that is still empty. -/
theorem backfill_equals_query_two :
    LoopEqualsQuery [someEvent.row 2, someEvent.row 1] 0 ∧
      EqualsQuery OutboxEvent.sequence next Subscription.committed subscriptionView isLoopEvent
        started (.start 0 []) :=
  ⟨(backfill_equals_query GatewayMachine.Sample.deployment).1 _ (by simp) 0,
    (backfill_equals_query GatewayMachine.Sample.deployment).2.1 [.stream (.subscribe 0 true)]
      started ⟨trivial, started, rfl, rfl⟩ rfl⟩

end LightningGateway.BackfillPaging
