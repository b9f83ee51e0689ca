import LightningGateway.FeedGaps

/-!
# What a stream tells does not depend on lags

When the ingest task loses nothing, a stream that has lagged finds the overwritten
rows in a backfill. That backfill starts at the cursor, which for a fresh stream is
the beginning of the table, so it meets rows that are older than the status the
stream started with; all of these announce `PENDING`. What the client has been told
is therefore a function of that status and of the rows up to the cursor.
-/
namespace LightningGateway.LagRecovery
open Primitives GuardedRuns InvoiceAggregate OutboxRows GatewayStore GatewayMachine
open StatusMapping StatusFeed StatusRows FeedSteps FeedInvariant StatusReplay FeedGaps
open EventStream (countAfter maxBackfillEvents)
open InvoiceLogs (InvoiceLog)

variable {g : Deployment} {db db' : Db} {ingest ingest' : Ingest} {s t : StatusStream}
  {h : PaymentHash} {st : InvoicePaymentStatus}

/-! ### Runs without losses -/

/-- Every row is broadcast: rows commit only while the session listens, and the ingest
task's reads succeed. Clients resume from assigned sequences, the reads of their
streams succeed and no backfill is too long. -/
def lossless (f : Feed g) : FeedEvent g → Bool
  | .app e =>
      decide (f.ingest.listener = .listening) ||
        (f.app e).all fun f' => f'.db.outbox.length = f.db.outbox.length
  | .relay _ => true
  | .ingest read => read = .served
  | .subscribe _ _ resume => resume.all fun c => c < f.db.nextSequence
  | .stream i x =>
      match x with
      | .lookUp read | .page read | .pay read _ => read
      | .count read _ =>
          read && (f.streams[i]?).all fun s => countAfter f.db.outbox s.cursor ≤ maxBackfillEvents
      | _ => true

/-- Nothing has been dropped, and no stream waits for a row to be committed at or below
the sequence it was resumed from. -/
def Intact (f : Feed g) : Prop :=
  f.ingest.dropped = [] ∧ ∀ s ∈ f.streams, s.resume.getD 0 < s.attachedAt

theorem offer_frame (s : StatusStream) (row : OutboxEvent) :
    s.offer row = { s with buffer := (s.offer row).buffer } := by
  unfold StatusStream.offer
  split_ifs <;> rfl

theorem Surrounds.frame {f : Feed g} {e : FeedEvent g} {φ : StatusStream → StatusStream}
    (h : Surrounds f e db ingest φ) (s : StatusStream) :
    φ s = { s with buffer := (φ s).buffer } := by
  cases h with
  | @broadcast row _ _ _ _ _ => exact offer_frame s row
  | _ => rfl

theorem Intact.next {f f' : Feed g} {e : FeedEvent g} (hok : FeedOk f) (hadm : lossless f e = true)
    (h : f.next e = some f') (hI : Intact f) : Intact f' := by
  obtain ⟨hdropped, hall⟩ := hI
  obtain ⟨db, ingest, φ, hs, hdb, hin, hst, -⟩ | ⟨input, c, resume, k, rfl, rfl⟩ |
    ⟨i, x, s, t, -, hget, ht, rfl⟩ | ⟨-, hin, hst, -⟩ := feed_cases hok h
  · constructor
    · rw [hin]
      cases hs with
      | @commit e pool new hnext happ hfacts =>
          obtain ⟨-, -, hd⟩ | ⟨hquiet, -, hd⟩ := hear_cases f.ingest (new.map OutboxEvent.sequence)
          · exact hd.trans hdropped
          · have hlen : f'.db.outbox.length = f.db.outbox.length := by
              have happ' : f.app e = some f' := h
              simpa [lossless, hquiet, happ'] using hadm
            have hnew : new = [] := by
              rw [hdb, happ.outbox, List.length_append] at hlen
              exact List.length_eq_zero_iff.mp (by omega)
            rw [hd, hdropped, hnew]
            rfl
      | relayed _ hd | broadcast _ _ hd => exact hd.trans hdropped
      | @dropped q ingest read hread _ _ => exact absurd (by simpa [lossless] using hadm) hread
    · intro s hmem
      rw [hst] at hmem
      obtain ⟨s₀, hs₀, rfl⟩ := List.mem_map.mp hmem
      rw [Surrounds.frame hs s₀]
      exact hall s₀ hs₀
  · refine ⟨hdropped, fun s hmem => ?_⟩
    rcases List.mem_append.mp hmem with hmem | hmem
    · exact hall s hmem
    · obtain rfl := List.mem_singleton.mp hmem
      have hpos := hok.facts.counter_pos
      cases resume with
      | none => exact hpos
      | some c =>
          have hc : c < f.db.nextSequence := by simpa [lossless] using hadm
          exact hc
  · refine ⟨hdropped, fun u hmem => ?_⟩
    rcases List.mem_or_eq_of_mem_set hmem with hmem | rfl
    · exact hall u hmem
    · obtain ⟨-, hres, hat⟩ := (step_spec ht).frame
      rw [hres, hat]
      exact hall s (List.mem_of_getElem? hget)
  · refine ⟨by rw [hin]; rfl, fun s hmem => ?_⟩
    rw [hst] at hmem
    cases hmem

theorem intact_run {es : List (FeedEvent g)} {f : Feed g} (hrun : Feeds lossless es f) :
    Intact f := by
  refine (hrun.invariant (J := fun f => FeedOk f ∧ Intact f) ?_ ⟨feedOk_boot g, rfl, ?_⟩).2
  · rintro f e f' hadm h ⟨hok, hI⟩
    exact ⟨hok.next h, hI.next hok hadm h⟩
  · exact fun s hs => by cases hs

/-- Without losses, no row is passed over. -/
theorem Intact.unbroken {f : Feed g} (hI : Intact f) (e : FeedEvent g) :
    unbroken f e = true := by
  cases e with
  | stream i x =>
      simp only [FeedGaps.unbroken]
      cases hget : f.streams[i]? with
      | none => rfl
      | some s =>
          cases htaken : taken s x with
          | none => simp only [htaken]
          | some row =>
              simp only [htaken, List.all_eq_true]
              intro r hr
              have hres := hI.2 s (List.mem_of_getElem? hget)
              have hread : unread f s r = false := by
                simp only [unread, hI.1, List.not_mem_nil, and_false, decide_false, Bool.and_false,
                  Bool.or_false, Bool.and_eq_false_iff, decide_eq_false_iff_not]
                omega
              simp only [hread, Bool.not_false, Bool.or_true]
  | _ => rfl

theorem unbroken_of_lossless {es : List (FeedEvent g)} {f : Feed g} (hrun : Feeds lossless es f) :
    Feeds unbroken es f := by
  refine hrun.admitted (J := fun f => FeedOk f ∧ Intact f) ?_ ?_ ⟨feedOk_boot g, rfl, ?_⟩
  · rintro f e f' hadm h ⟨hok, hI⟩
    exact ⟨hok.next h, hI.next hok hadm h⟩
  · exact fun f e _ hJ => hJ.2.unbroken e
  · exact fun s hs => by cases hs

/-! ### The status at the start -/

/-- An invoice that was looked up as `PENDING` has no row that announces its end. -/
theorem pending_of_lookup {read : Bool} {now : Timestamp} (hf : DbFacts g db)
    (hl : lookedUpStatus db h read now = .pending) {r : OutboxEvent} (hr : r ∈ db.outbox)
    (hst : statusOf h r = some st) : st = .pending := by
  unfold statusOf at hst
  split_ifs at hst with href
  have hc := hf.concluded r hr h href st hst
  cases read with
  | false =>
      rw [lookedUpStatus_none rfl] at hl
      cases hl
  | true =>
      obtain ⟨-, hnone⟩ | ⟨row, i, n, hrow, -, hfound, hlog⟩ := lookupInvoice_cases hf h
      · rw [lookedUpStatus_none hnone] at hl
        cases hl
      · rw [lookedUpStatus_some hfound] at hl
        cases st with
        | pending => rfl
        | paid =>
            obtain ⟨row', hrow', hpaid⟩ := hc
            cases hrow.symm.trans hrow'
            have hsettled : i.state = .settled :=
              (Bool.or_eq_true_iff.mp hpaid).elim hlog.any_isSettled hlog.any_isSettledIntraledger
            rw [hsettled] at hl
            cases hl
        | expired =>
            obtain ⟨row', hrow', hcan⟩ := hc
            cases hrow.symm.trans hrow'
            rw [hlog.any_isCanceled.mp hcan] at hl
            cases hl

/-- The rows that are older than the stream announce nothing but `PENDING`, once the
aggregate was. -/
def Snapshot (db : Db) (s : StatusStream) : Prop :=
  s.derived = some .pending → ∀ r ∈ db.outbox, r.sequence < s.attachedAt →
    ∀ st, statusOf s.paymentHash r = some st → st = .pending

theorem Snapshot.derive {source : Db} {read : Bool} {now : Timestamp}
    (hg : PhaseGrounded g db s (.lookedUp source read))
    (hst : lookedUpStatus source s.paymentHash read now = st) (hp : st = .pending) :
    ∀ r ∈ db.outbox, r.sequence < s.attachedAt →
      ∀ st, statusOf s.paymentHash r = some st → st = .pending := by
  intro r hr hlt st' htells
  obtain ⟨hf, hat, new, happ⟩ := hg
  have hold : r ∈ source.outbox := by
    rw [happ.outbox] at hr
    refine (List.mem_append.mp hr).resolve_right fun hnew => ?_
    have hfresh := happ.fresh r hnew
    omega
  exact pending_of_lookup hf (hst.trans hp) hold htells

theorem snapshot_run {admits : Feed g → FeedEvent g → Bool} {es : List (FeedEvent g)}
    {f : Feed g} (hrun : Feeds admits es f) : ∀ s ∈ f.streams, Snapshot f.db s := by
  refine (stream_invariant (J := fun db _ s => Snapshot db s) ?_ ?_ ?_ hrun).2
  · intro f input c resume h _ _ hd
    cases hd
  · intro f e db ingest φ s hok hs _ hsur hI
    rw [Surrounds.frame hsur s]
    intro hd r hr hlt
    have hold : r ∈ f.db.outbox := by
      cases hsur with
      | commit hnext happ hfacts =>
          rw [happ.outbox] at hr
          refine (List.mem_append.mp hr).resolve_right fun hnew => ?_
          have hfresh := happ.fresh r hnew
          have hat := (hok.streams s hs).attached
          simp only at hlt
          omega
      | _ => exact hr
    exact hI hd r hold hlt
  · intro f i x s t hok hs _ _ hstep hI
    have hg := (hok.streams s hs).phase
    cases hstep with
    | kept hp hst _ _ | reported hp hst _ _ _ =>
        rw [hp] at hg
        intro hd
        exact Snapshot.derive hg hst (Option.some.inj hd)
    | scanned _ hh | received _ _ _ _ hh =>
        obtain ⟨⟨hhash, -, hat, hd, -⟩, -⟩ := hh.frame
        intro hpend r hr hlt st htells
        rw [hhash] at htells
        rw [hat] at hlt
        exact hI (hd ▸ hpend) r hr hlt st htells
    | _ => exact hI

/-! ### The same without lags -/

/-- The rows for the stream to follow, up to its cursor. -/
def covered (db : Db) (s : StatusStream) : List OutboxEvent :=
  db.outbox.filter fun r =>
    tells s.paymentHash r ∧ start s < r.sequence ∧ r.sequence ≤ s.cursor

/-- What the client is told when the stream receives these rows one after the other. -/
def unlagged (db : Db) (s : StatusStream) : List InvoicePaymentStatus :=
  StatusEmitter.default.feed (observations s.resume s.derived
    ((covered db s).filterMap (statusOf s.paymentHash)))

theorem mem_covered {r : OutboxEvent} : r ∈ covered db s ↔
    r ∈ db.outbox ∧ tells s.paymentHash r = true ∧ start s < r.sequence ∧
      r.sequence ≤ s.cursor := by
  simp only [covered, List.mem_filter, decide_eq_true_eq]

/-- All of them have been processed, in their order. -/
theorem Followed.covered_eq (hf : DbFacts g db) (hg : Grounded g db ingest s)
    (hI : Followed db ingest s) :
    covered db s = s.processed.filter fun r => tells s.paymentHash r ∧ start s < r.sequence := by
  have : Std.Irrefl fun a b : OutboxEvent => a.sequence < b.sequence := ⟨fun a => lt_irrefl _⟩
  apply List.Pairwise.eq_of_mem_iff (r := fun a b : OutboxEvent => a.sequence < b.sequence)
  · exact hf.sequenced.increasing.filter _
  · exact hI.ordered.filter _
  · intro r
    rw [mem_covered, List.mem_filter, decide_eq_true_eq]
    constructor
    · rintro ⟨hr, htells, hs, hc⟩
      exact ⟨hI.complete r hr htells hs hc, htells, hs⟩
    · rintro ⟨hr, htells, hs⟩
      exact ⟨hg.processed r hr, htells, hs, (hI.bounded r hr).2⟩

theorem observations_sublist {resume : Option ℤ} {derived : Option InvoicePaymentStatus}
    {rows rows' : List InvoicePaymentStatus} (hs : rows.Sublist rows') :
    (observations resume derived rows).Sublist (observations resume derived rows') := by
  cases resume with
  | none => exact (List.Sublist.refl _).append hs
  | some c => exact hs.append (List.Sublist.refl _)

theorem mem_observations {resume : Option ℤ} {derived : Option InvoicePaymentStatus}
    {rows : List InvoicePaymentStatus} :
    st ∈ observations resume derived rows ↔ st ∈ rows ∨ st ∈ observations resume derived [] := by
  cases resume <;> simp [observations, or_comm]

/-- What was sent is what would have been sent without lags: the older rows that a
backfill meets add nothing to the status at the start. -/
theorem Followed.statuses_eq (hf : DbFacts g db) (hg : Grounded g db ingest s)
    (hI : Followed db ingest s) (hr : Replayed s) (hs : Snapshot db s) :
    s.statuses ++ inHand s = unlagged db s := by
  rw [hr.sent, unlagged, Followed.covered_eq hf hg hI]
  have hsub : (observations s.resume s.derived ((s.processed.filter fun r =>
      tells s.paymentHash r ∧ start s < r.sequence).filterMap (statusOf s.paymentHash))).Sublist
      (observed s) :=
    observations_sublist (List.filter_sublist.filterMap _)
  have hshaped : Shaped (observations s.resume s.derived ((s.processed.filter fun r =>
      tells s.paymentHash r ∧ start s < r.sequence).filterMap (statusOf s.paymentHash))) :=
    hr.shaped.sublist hsub
  refine feed_eq_of_mem hr.shaped hshaped fun st => ⟨fun hst => ?_, fun hst => hsub.subset hst⟩
  rw [observed, mem_observations] at hst
  rw [mem_observations]
  rcases hst with hst | hst
  case inr => exact .inr hst
  obtain ⟨r, hmem, hrow⟩ := List.mem_filterMap.mp hst
  have htells : tells s.paymentHash r = true := by simp only [tells, hrow, Option.isSome_some]
  by_cases hstart : start s < r.sequence
  · left
    refine List.mem_filterMap.mpr ⟨r, List.mem_filter.mpr ⟨hmem, ?_⟩, hrow⟩
    exact decide_eq_true ⟨htells, hstart⟩
  · right
    have hbound := (hI.bounded r hmem).1
    cases hres : s.resume with
    | some c =>
        simp only [start, hres, Option.getD_some] at hstart hbound
        omega
    | none =>
        simp only [start, hres, Option.getD_none] at hstart
        have hd : s.derived = some .pending := by
          refine (hr.fresh hres).resolve_right fun hno => ?_
          rw [hno.1] at hmem
          cases hmem
        have hpending : st = .pending :=
          hs hd r (hg.processed r hmem) (by omega) st hrow
        simp [observations, hd, hpending]

/-! ### How streams end -/

/-- A closed stream has told the end of its invoice, or its client is gone. -/
def Ended (s : StatusStream) : Prop :=
  s.phase = .closed → s.gone = true ∨ ∃ st ∈ s.statuses, isTerminal st = true

theorem statuses_sent {m : Emission} (hm : m.payload.status = some st)
    (ht : t.sent = s.sent ++ [m]) : st ∈ t.statuses := by
  unfold StatusStream.statuses
  rw [ht, statuses_concat, hm]
  exact List.mem_append_right _ (List.mem_singleton_self st)

theorem Ended.handled {row : OutboxEvent} {k : Phase} (hk : k ≠ .closed)
    (h : Handled db s row k t) : Ended t := by
  intro hp
  cases h with
  | quiet _ => exact absurd hp hk
  | paying _ _ _ => cases hp
  | @emitted st gone phase _ _ _ _ hgo =>
      rcases hgo with ⟨-, hterm | hgone⟩ | ⟨rfl, -⟩
      · exact .inr ⟨st, statuses_sent (buildPayload_status _ _ _) rfl, hterm⟩
      · exact .inl hgone
      · exact absurd hp hk

theorem ended_run {es : List (FeedEvent g)} {f : Feed g} (hrun : Feeds lossless es f) :
    ∀ s ∈ f.streams, Ended s := by
  refine fun s hs => ((stream_invariant (J := fun _ _ s => Replayed s ∧ Ended s) ?_ ?_ ?_
    hrun).2 s hs).2
  · refine fun f input c resume h _ _ => ⟨.attach f.db h resume, fun hp => ?_⟩
    cases resume <;> cases hp
  · rintro f e db ingest φ s - - - hsur ⟨hr, hI⟩
    have hframe := Surrounds.frame hsur s
    refine ⟨?_, ?_⟩
    · cases hsur with
      | @broadcast row _ _ _ _ _ => exact hr.offer row
      | _ => exact hr
    · rw [hframe]
      exact hI
  · rintro f i x s t - hs hget hadm hstep ⟨hr, hI⟩
    refine ⟨hr.step hstep, fun hp => ?_⟩
    have hphase := hr.phase
    cases hstep with
    | kept hq hst hsay hph =>
        rw [hq] at hphase
        obtain ⟨-, rfl⟩ := hr.kept hphase.1 hphase.2 hsay
        obtain ⟨hterm, -⟩ | ⟨-, hlive⟩ := hph
        · cases hterm
        · rw [hlive] at hp
          cases hp
    | @reported source read accepted gone now st phase _ _ _ _ hgo =>
        rcases hgo with ⟨-, hterm | hgone⟩ | ⟨rfl, -⟩
        · exact .inr ⟨st, statuses_sent (buildPayload_status _ _ _) rfl, hterm⟩
        · exact .inl hgone
        · cases hp
    | refused _ hmany =>
        simp only [lossless, hget, Option.all_some, Bool.true_and, decide_eq_true_eq] at hadm
        omega
    | @drained first _ _ => cases first <;> cases hp
    | scanned _ hh =>
        refine Ended.handled ?_ hh hp
        unfold afterRow
        split <;> simp
    | received _ _ _ _ hh => exact Ended.handled (by simp) hh hp
    | paid _ => exact .inr ⟨.paid, statuses_sent (buildPayload_status _ _ _) rfl, rfl⟩
    | failedCount _ | failedPage _ => cases hadm
    | left _ => exact .inl rfl
    | skipped _ _ _ _ | overflowed _ _ _ => exact hI hp
    | _ => cases hp

end LightningGateway.LagRecovery
