import LightningGateway.EventDelivery

/-!
# The resume position of a subscription

A subscriber asks for the events after a sequence, an unsigned number. The queries and
the loop work with a signed one, and the cast between them keeps the bits. For the
lower half of the range the loop honours what was asked; from 2^63 on the cursor is
negative, every row lies above it, and the whole outbox is counted and sent again.
-/
namespace LightningGateway.ResumePosition
open Primitives GuardedRuns CursorFeeds OutboxRows EventStream StreamGaps EventDelivery

theorem asI64_of_lt {a : UInt64} (h : a.toNat < 2 ^ 63) : asI64 a = a.toNat := if_pos h

theorem asI64_neg {a : UInt64} (h : ¬a.toNat < 2 ^ 63) : asI64 a < 0 := by
  have hlt := a.toNat_lt
  rw [asI64, if_neg h]
  omega

/-- What a subscriber is promised that asks for the events after `a` while the outbox is
as in `s₀`: the limit of the backfill counts the rows after `a`, and unless the request is
refused, only events after `a` are ever sent. Rows fit the `BIGINT` column. -/
structure Honoured (toText : Json → Option String) (s₀ : Subscription) (a : UInt64) : Prop where
  counted : countAfter s₀.committed (asI64 a) =
    s₀.committed.countP fun r => (a.toNat : ℤ) < r.sequence
  sent : ∀ read s₁, s₀.subscribe a read = some s₁ → s₁.phase = .backfill →
    ∀ es s, Run step anyEvent s₁ es s → (∀ r ∈ s.committed, r.sequence < 2 ^ 63) →
      ∀ m ∈ delivered toText s, a < m.sequence

section
variable {toText : Json → Option String} {s₀ : Subscription} {a : UInt64}

/-- Below 2^63 the signed comparison is the unsigned one. -/
theorem honoured_of_lt (hI : Ordered s₀) (ha : a.toNat < 2 ^ 63) : Honoured toText s₀ a := by
  constructor
  · rw [countAfter, asI64_of_lt ha]
  · intro read s₁ hsub hstarted es s hrun hfits m hm
    have hs : Ordered s := ordered_run (hI.advance (subscribe_advance hsub)) hrun
    obtain ⟨r, hr, rfl⟩ := List.mem_map.mp hm
    have hafter := (hs.sent r hr).2.1
    have hwire := hs.wire_sequence hr hfits toText
    rw [started_run hsub hstarted hrun, asI64_of_lt ha] at hafter
    exact UInt64.lt_iff_toNat_lt.mpr (by omega)

/-- A row that commits, is read as the first page and is sent. -/
def oneRow (event : NewOutboxEvent) (sequence : ℤ) : List DeliveryEvent :=
  [.stream (.insert event), .stream (.commit sequence), .stream (.readPage true),
    .stream (.send true)]

/-- The next row of an outbox without visible rows is sent to whoever starts below it. -/
theorem oneRow_sent {s : Subscription} (event : NewOutboxEvent) (hphase : s.phase = .backfill)
    (hempty : s.committed = []) (hlt : s.lastSentSequence < s.nextSequence) :
    ∃ t row, Run step anyEvent s (oneRow event s.nextSequence) t ∧
      row.sequence = s.nextSequence ∧ t.committed = [row] ∧ t.sent = s.sent ++ [row] := by
  -- The lookup finds a row of that sequence, the inserted one if no other.
  obtain ⟨row, hrow⟩ : ∃ row, findBySequence (s.insert event).inserted s.nextSequence = some row :=
    Option.isSome_iff_exists.mp (List.find?_isSome.mpr
      ⟨event.row s.nextSequence, List.mem_append_right _ List.mem_cons_self,
        decide_eq_true rfl⟩)
  have hseq := (findBySequence_spec hrow).2
  have hpage : fetchAfterBatch [row] s.lastSentSequence = [row] := by
    simp [fetchAfterBatch, page, backfillBatchSize, hseq, hlt]
  refine ⟨_, row, ⟨trivial, s.insert event, rfl, trivial, (s.insert event).reveal row, ?_,
    trivial, { (s.insert event).reveal row with phase := .sending [row] true }, ?_, trivial,
    _, rfl, rfl⟩, hseq, ?_, rfl⟩
  · exact Option.map_eq_some_iff.mpr ⟨row, hrow, rfl⟩
  · change ((s.insert event).reveal row).readPage true = _
    unfold Subscription.readPage
    simp only [Subscription.insert, Subscription.reveal, hphase, hempty, List.nil_append, hpage]
    rfl
  · change s.committed ++ [row] = [row]
    rw [hempty, List.nil_append]

/-- A position that the cast makes negative counts every row. -/
theorem empty_of_counted (hI : Ordered s₀) (hroom : s₀.nextSequence < 2 ^ 63)
    (ha : ¬a.toNat < 2 ^ 63) (h : countAfter s₀.committed (asI64 a) =
      s₀.committed.countP fun r => (a.toNat : ℤ) < r.sequence) : s₀.committed = [] := by
  have hneg := asI64_neg ha
  have hall : countAfter s₀.committed (asI64 a) = s₀.committed.length := by
    refine List.countP_eq_length.mpr fun r hr => decide_eq_true ?_
    have hpos := (hI.bounded r (List.mem_append_left _ hr)).1
    omega
  have hnone : s₀.committed.countP (fun r => (a.toNat : ℤ) < r.sequence) = 0 := by
    refine List.countP_eq_zero.mpr fun r hr => ?_
    have hlt := (hI.bounded r (List.mem_append_left _ hr)).2
    rw [decide_eq_true_eq]
    omega
  exact List.length_eq_zero_iff.mp (by omega)

/-- From 2^63 on the count is wrong or the next row is sent from behind the position. -/
theorem not_honoured (hI : Ordered s₀) (hidle : s₀.phase = .idle)
    (hroom : s₀.nextSequence < 2 ^ 63) (ha : ¬a.toNat < 2 ^ 63) :
    ¬Honoured toText s₀ a := by
  intro h
  have hempty := empty_of_counted hI hroom ha h.counted
  obtain ⟨s₁, hsub, hphase, hcommitted, hsent, hnext, hlast⟩ : ∃ s₁,
      s₀.subscribe a true = some s₁ ∧ s₁.phase = .backfill ∧ s₁.committed = [] ∧
        s₁.sent = [] ∧ s₁.nextSequence = s₀.nextSequence ∧ s₁.lastSentSequence = asI64 a := by
    unfold Subscription.subscribe
    simp only [hidle, hempty]
    exact ⟨_, if_pos ⟨trivial, Nat.zero_le _⟩, rfl, rfl, hI.idle hidle, rfl, rfl⟩
  have hI₁ : Ordered s₁ := hI.advance (subscribe_advance hsub)
  have hneg := asI64_neg ha
  have hpos := hI.positive
  obtain ⟨t, row, hrun, hseq, ht, hrow⟩ :=
    oneRow_sent someEvent hphase hcommitted (by omega)
  rw [hsent, List.nil_append] at hrow
  have hfits : ∀ r ∈ t.committed, r.sequence < 2 ^ 63 := by
    intro r hr
    rw [ht] at hr
    obtain rfl := List.mem_singleton.mp hr
    omega
  have hmem : row ∈ t.sent := by rw [hrow]; exact List.mem_cons_self
  have hafter := h.sent true s₁ hsub hphase _ t hrun hfits (row.toProto toText)
    (List.mem_map_of_mem hmem)
  have hwire := (ordered_run hI₁ hrun).wire_sequence hmem hfits toText
  have := UInt64.lt_iff_toNat_lt.mp hafter
  omega

end

/-- Whatever the outbox holds when a subscriber arrives, its position is honoured if and
only if it is below 2^63. -/
theorem resume_position_honoured_iff {es : List DeliveryEvent} {s₀ : Subscription}
    (hbefore : Run step anyEvent Subscription.empty es s₀) (hidle : s₀.phase = .idle)
    (hroom : s₀.nextSequence < 2 ^ 63) (toText : Json → Option String) (a : UInt64) :
    Honoured toText s₀ a ↔ a.toNat < 2 ^ 63 := by
  have hI := ordered_run ordered_empty hbefore
  constructor
  · intro h
    by_contra ha
    exact not_honoured hI hidle hroom ha h
  · exact honoured_of_lt hI

/-- An outbox with one row. -/
def oneCommitted : List DeliveryEvent := [.stream (.insert someEvent), .stream (.commit 1)]

theorem oneCommitted_run : ∃ s₀, Run step anyEvent Subscription.empty oneCommitted s₀ ∧
    s₀.phase = .idle ∧ s₀.nextSequence = 2 ∧ s₀.committed.map OutboxEvent.sequence = [1] :=
  ⟨_, ⟨trivial, _, rfl, trivial, _, rfl, rfl⟩, rfl, rfl, rfl⟩

theorem resume_position_honoured_iff_one : ∃ s₀,
    Run step anyEvent Subscription.empty oneCommitted s₀ ∧
      (Honoured (fun _ => none) s₀ 1 ↔ (1 : UInt64).toNat < 2 ^ 63) := by
  obtain ⟨s₀, hrun, hidle, hnext, -⟩ := oneCommitted_run
  exact ⟨s₀, hrun, resume_position_honoured_iff hrun hidle (by omega) _ 1⟩

/-- The largest position: the subscriber is sent the first row of the outbox. -/
theorem largest_position_replays : ∃ s₀ s₁ s,
    Run step anyEvent Subscription.empty oneCommitted s₀ ∧
      s₀.subscribe 18446744073709551615 true = some s₁ ∧ s₁.phase = .backfill ∧
      Run step anyEvent s₁ [.stream (.readPage true), .stream (.send true)] s ∧
      (delivered (fun _ => none) s).map ProtoPaymentEvent.sequence = [1] ∧
      ¬Honoured (fun _ => none) s₀ 18446744073709551615 := by
  obtain ⟨s₀, s₁, s, hbefore, hsub, hphase, hrun, hsent, hfits⟩ : ∃ s₀ s₁ s,
      Run step anyEvent Subscription.empty oneCommitted s₀ ∧
        s₀.subscribe 18446744073709551615 true = some s₁ ∧ s₁.phase = .backfill ∧
        Run step anyEvent s₁ [.stream (.readPage true), .stream (.send true)] s ∧
        (delivered (fun _ => none) s).map ProtoPaymentEvent.sequence = [1] ∧
        ∀ r ∈ s.committed, r.sequence < 2 ^ 63 :=
    ⟨_, _, _, ⟨trivial, _, rfl, trivial, _, rfl, rfl⟩, rfl, rfl,
      ⟨trivial, _, rfl, trivial, _, rfl, rfl⟩, by decide, by decide⟩
  refine ⟨s₀, s₁, s, hbefore, hsub, hphase, hrun, hsent, fun h => ?_⟩
  obtain ⟨m, hm, hseq⟩ : ∃ m ∈ delivered (fun _ => none) s, m.sequence = 1 := by
    rw [← List.mem_map, hsent]
    exact List.mem_cons_self
  have hafter := h.sent true s₁ hsub hphase _ s hrun hfits m hm
  rw [hseq] at hafter
  exact absurd hafter (by decide)

end LightningGateway.ResumePosition
