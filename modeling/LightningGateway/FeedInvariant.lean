import LightningGateway.FeedSteps

/-!
# Invariants of the status feed

What surrounds a stream: the gateway commits, the ingest task forwards, broadcasts or
drops. `Surrounds` says how each of these changes the database, the ingest task and
all streams at once; `stream_invariant` is the induction rule for facts about every
stream of every run.
-/
namespace LightningGateway.FeedInvariant
open Primitives TaskPools GuardedRuns OutboxRows GatewayStore GatewayMachine GatewayInvariant
open OutboxHistory CursorFeeds StatusMapping StatusFeed StatusRows FeedSteps
open InvoiceAggregate (Invoice)
open InvoiceLogs (InvoiceLog)
open EventStream (Notification fetchAfterBatch findBySequence)
open StreamGaps (announces eq_of_sequence_eq findBySequence_spec)

variable {g : Deployment} {db db' : Db} {ingest ingest' : Ingest} {s t : StatusStream}

/-! ### What is on its way to the streams -/

/-- The sequences that the ingest task will look up, in this order. -/
def pending (ingest : Ingest) : List ℤ :=
  ingest.channel.filterMap announces ++ ingest.notified

/-- The connection only moves notifications on. -/
theorem relay_pending {x : ListenStep} (h : ingest.relay x = some ingest') :
    pending ingest' = pending ingest ∧ ingest'.dropped = ingest.dropped := by
  have hdisc : pending ingest.disconnect = pending ingest := by
    simp [pending, Ingest.disconnect, announces]
  cases x with
  | connect ok =>
      simp only [Ingest.relay, Ingest.connect] at h
      split at h
      case h_2 => cases h
      case h_1 =>
        split_ifs at h <;> cases h
        · exact ⟨rfl, rfl⟩
        · exact ⟨hdisc, rfl⟩
  | listen ok =>
      simp only [Ingest.relay, Ingest.listen] at h
      split at h
      case h_2 => cases h
      case h_1 =>
        split_ifs at h <;> cases h
        · exact ⟨rfl, rfl⟩
        · exact ⟨hdisc, rfl⟩
  | lose =>
      simp only [Ingest.relay, Ingest.lose] at h
      split at h <;> cases h
      exact ⟨rfl, rfl⟩
  | forward =>
      simp only [Ingest.relay, Ingest.forward] at h
      split at h
      case h_3 =>
        cases h
        exact ⟨hdisc, rfl⟩
      case h_4 => cases h
      all_goals
        rename_i hn
        cases h
        refine ⟨?_, rfl⟩
        simp [pending, hn, announces]
  | wake =>
      simp only [Ingest.relay, Ingest.wake] at h
      split at h <;> cases h
      exact ⟨rfl, rfl⟩

/-- The rows that a commit adds are queued, or dropped. -/
theorem hear_cases (ingest : Ingest) (new : List ℤ) :
    (ingest.listener = .listening ∧ pending (ingest.hear new) = pending ingest ++ new ∧
      (ingest.hear new).dropped = ingest.dropped) ∨
    (ingest.listener ≠ .listening ∧ pending (ingest.hear new) = pending ingest ∧
      (ingest.hear new).dropped = ingest.dropped ++ new) := by
  unfold Ingest.hear
  split
  case h_1 hl =>
    refine .inl ⟨hl, ?_, rfl⟩
    simp only [pending, List.append_assoc]
  case h_2 hl => exact .inr ⟨hl, rfl, rfl⟩

/-! ### The surroundings of a stream -/

/-- The steps around the streams of `f`: what becomes of the database, of the ingest
task and of every stream. -/
inductive Surrounds (f : Feed g) :
    FeedEvent g → Db → Ingest → (StatusStream → StatusStream) → Prop where
  | commit {e : Event (gateway g)} {pool : Pool (gateway g)} {new : List OutboxEvent} :
      f.pool.next e = some pool → Appends f.db pool.world.db new → DbFacts g pool.world.db →
      Surrounds f (.app e) pool.world.db (f.ingest.hear (new.map OutboxEvent.sequence)) id
  | relayed {e : FeedEvent g} {ingest : Ingest} : pending ingest = pending f.ingest →
      ingest.dropped = f.ingest.dropped → Surrounds f e f.db ingest id
  | broadcast {row : OutboxEvent} {ingest : Ingest} {read : RowRead} :
      row ∈ f.db.outbox → pending f.ingest = row.sequence :: pending ingest →
      ingest.dropped = f.ingest.dropped →
      Surrounds f (.ingest read) f.db ingest fun s => s.offer row
  | dropped {q : ℤ} {ingest : Ingest} {read : RowRead} : read ≠ .served →
      pending f.ingest = q :: pending ingest → ingest.dropped = f.ingest.dropped ++ [q] →
      Surrounds f (.ingest read) f.db ingest id

/-- The queue of the ingest task announces committed rows in their order. -/
structure IngestOk (db : Db) (ingest : Ingest) : Prop where
  known : ∀ q ∈ pending ingest, ∃ r ∈ db.outbox, r.sequence = q
  ordered : (pending ingest).Pairwise (· < ·)

/-- What a phase remembers of the database. -/
def PhaseGrounded (g : Deployment) (db : Db) (s : StatusStream) : Phase → Prop
  | .lookedUp source _ =>
      DbFacts g source ∧ s.attachedAt ≤ source.nextSequence ∧ ∃ new, Appends source db new
  | .scanning rows _ => ∀ r ∈ rows, r ∈ db.outbox
  | .paying row =>
      row ∈ db.outbox ∧ About s row ∧ statusFromEvent row.domainEvent = some .paid
  | _ => True

/-- The rows a stream has at hand are committed rows, and what it will receive comes
in their order. -/
structure Grounded (g : Deployment) (db : Db) (ingest : Ingest) (s : StatusStream) : Prop where
  attached : s.attachedAt ≤ db.nextSequence
  buffer : ∀ r ∈ s.buffer, r ∈ db.outbox
  processed : ∀ r ∈ s.processed, r ∈ db.outbox
  ordered : (s.buffer.map OutboxEvent.sequence ++ pending ingest).Pairwise (· < ·)
  phase : PhaseGrounded g db s s.phase

structure FeedOk (f : Feed g) : Prop where
  reached : ∃ es, Runs {} (GatewayMachine.boot g) es f.pool
  facts : DbFacts g f.db
  ingest : IngestOk f.db f.ingest
  streams : ∀ s ∈ f.streams, Grounded g f.db f.ingest s

/-! ### Steps of the surroundings -/

/-- A step of the gateway seen from the feed. -/
theorem pool_step {f : Feed g} {e : Event (gateway g)} {pool : Pool (gateway g)} (hI : FeedOk f)
    (h : f.pool.next e = some pool) :
    (∃ es, Runs {} (GatewayMachine.boot g) es pool) ∧ DbFacts g pool.world.db ∧
      ∃ new, Appends f.db pool.world.db new := by
  obtain ⟨es, hrun⟩ := hI.reached
  have hguard : ({} : Discipline (gateway g)).guard f.pool e = true := by
    cases e with
    | step i c =>
        simp only [Discipline.guard]
        cases f.pool.tasks[i]? with
        | none => rfl
        | some t =>
            cases hr : t.rest with
            | none => simp only [hr]
            | some p => cases p <;> simp only [hr]
    | spawn x | env x | crash => rfl
  have hone : Runs ({} : Discipline (gateway g)) f.pool [e] pool :=
    run_cons.mpr ⟨hguard, pool, h, rfl⟩
  have hall := hrun.append hone
  exact ⟨⟨_, hall⟩, dbFacts_run hall, appends_run hrun hone⟩

theorem app_cases {f f' : Feed g} {e : Event (gateway g)} (hI : FeedOk f)
    (h : f.app e = some f') :
    (∃ es, Runs {} (GatewayMachine.boot g) es f'.pool) ∧
    ((∃ db ingest, Surrounds f (.app e) db ingest id ∧ f'.db = db ∧ f'.ingest = ingest ∧
      f'.streams = f.streams) ∨
    (f'.db = f.db ∧ f'.ingest = .start ∧ f'.streams = [])) := by
  unfold Feed.app at h
  split at h
  case h_1 => cases h
  case h_2 pool hnext =>
    obtain ⟨hreach, hfacts, new, happ⟩ := pool_step hI hnext
    split at h
    · cases h
      have hdb : pool.world.db = f.db := by
        cases hnext
        rfl
      exact ⟨hreach, .inr ⟨hdb, rfl, rfl⟩⟩
    · cases h
      have hnew : pool.world.db.outbox.drop f.db.outbox.length = new := by
        rw [happ.outbox, List.drop_left]
      refine ⟨hreach, .inl ⟨_, _, .commit hnext happ hfacts, rfl, ?_, rfl⟩⟩
      rw [hnew]

theorem ingest_cases {f f' : Feed g} {read : RowRead} (hI : FeedOk f)
    (h : f.ingestNext read = some f') :
    ∃ ingest φ, Surrounds f (.ingest read) f.db ingest φ ∧ f'.pool = f.pool ∧
      f'.ingest = ingest ∧ f'.streams = f.streams.map φ := by
  unfold Feed.ingestNext at h
  split at h
  case h_1 => cases h
  case h_2 rest hch =>
    cases h
    refine ⟨{ f.ingest with channel := rest }, id, .relayed ?_ rfl, rfl, rfl,
      (List.map_id _).symm⟩
    simp only [pending, hch, List.filterMap_cons, announces]
  case h_3 q rest hch =>
    have hpending : pending f.ingest = q :: (rest.filterMap announces ++ f.ingest.notified) := by
      simp only [pending, hch, List.filterMap_cons, announces, List.cons_append]
    split at h
    case h_1 row hfind =>
      cases h
      obtain ⟨hmem, rfl⟩ := findBySequence_spec hfind
      exact ⟨{ f.ingest with channel := rest }, _, .broadcast hmem hpending rfl, rfl, rfl, rfl⟩
    case h_2 hno =>
      cases h
      refine ⟨{ f.ingest with channel := rest, dropped := f.ingest.dropped ++ [q] }, id,
        .dropped ?_ hpending rfl, rfl, rfl, (List.map_id _).symm⟩
      -- A row whose sequence was notified is there, so a read that is served finds it.
      intro hserved
      obtain ⟨r, hr, hrq⟩ := hI.ingest.known q (by rw [hpending]; exact List.mem_cons_self)
      cases hf : findBySequence f.db.outbox q with
      | none => exact absurd hrq (by simpa using List.find?_eq_none.mp hf r hr)
      | some row => exact hno row hserved hf

/-- What one step of the feed can be. -/
theorem feed_cases {f f' : Feed g} {e : FeedEvent g} (hI : FeedOk f) (h : f.next e = some f') :
    (∃ db ingest φ, Surrounds f e db ingest φ ∧ f'.db = db ∧ f'.ingest = ingest ∧
      f'.streams = f.streams.map φ ∧ ∃ es, Runs {} (GatewayMachine.boot g) es f'.pool) ∨
    (∃ input configured resume h, e = .subscribe input configured resume ∧
      f' = { f with streams := f.streams ++ [.attach f.db h resume] }) ∨
    (∃ i x s t, e = .stream i x ∧ f.streams[i]? = some s ∧ s.step f.db x = some t ∧
      f' = { f with streams := f.streams.set i t }) ∨
    (f'.db = f.db ∧ f'.ingest = .start ∧ f'.streams = [] ∧
      ∃ es, Runs {} (GatewayMachine.boot g) es f'.pool) := by
  cases e with
  | app e =>
      obtain ⟨hreach, ⟨db, ingest, hs, hdb, hin, hst⟩ | ⟨hdb, hin, hst⟩⟩ := app_cases hI h
      · exact .inl ⟨db, ingest, id, hs, hdb, hin, hst.trans (List.map_id _).symm, hreach⟩
      · exact .inr (.inr (.inr ⟨hdb, hin, hst, hreach⟩))
  | relay x =>
      obtain ⟨ingest, hrelay, rfl⟩ := Option.map_eq_some_iff.mp h
      obtain ⟨hpending, hdropped⟩ := relay_pending hrelay
      exact .inl ⟨_, _, id, .relayed hpending hdropped, rfl, rfl, (List.map_id _).symm,
        hI.reached⟩
  | ingest read =>
      obtain ⟨ingest, φ, hs, hpool, hingest, hstreams⟩ := ingest_cases hI h
      refine .inl ⟨_, _, φ, hs, ?_, hingest, hstreams, hpool ▸ hI.reached⟩
      unfold Feed.db
      rw [hpool]
  | subscribe input configured resume =>
      have hrefused {m : LnInvoicePaymentStatusPayload}
          (hm : f' = { f with refused := f.refused ++ [m] }) :
          ∃ db ingest φ, Surrounds f (.subscribe input configured resume) db ingest φ ∧
            f'.db = db ∧ f'.ingest = ingest ∧ f'.streams = f.streams.map φ ∧
            ∃ es, Runs {} (GatewayMachine.boot g) es f'.pool := by
        subst hm
        exact ⟨_, _, id, .relayed rfl rfl, rfl, rfl, (List.map_id _).symm, hI.reached⟩
      have hf : f.subscribe input configured resume = f' := Option.some.inj h
      unfold Feed.subscribe at hf
      split at hf
      · exact .inr (.inl ⟨input, _, resume, _, rfl, hf.symm⟩)
      · exact .inl (hrefused hf.symm)
      · exact .inl (hrefused hf.symm)
  | stream i x =>
      simp only [Feed.next] at h
      split at h
      case h_1 => cases h
      case h_2 s hs =>
        obtain ⟨t, ht, rfl⟩ := Option.map_eq_some_iff.mp h
        exact .inr (.inr (.inl ⟨i, x, s, t, rfl, hs, ht, rfl⟩))

/-! ### Grounded streams -/

theorem mem_outbox_lt {r : OutboxEvent} (hf : DbFacts g db) (hr : r ∈ db.outbox) :
    r.sequence < db.nextSequence :=
  hf.sequenced.bounded r hr

/-- A row is determined by its sequence. -/
theorem row_unique {r r' : OutboxEvent} (hf : DbFacts g db) (hr : r ∈ db.outbox)
    (hr' : r' ∈ db.outbox) (h : r.sequence = r'.sequence) : r = r' :=
  eq_of_sequence_eq (hf.sequenced.increasing.imp fun hlt => hlt.ne) hr hr' h

theorem IngestOk.lt (hI : IngestOk db ingest) (hf : DbFacts g db) {q : ℤ}
    (hq : q ∈ pending ingest) : q < db.nextSequence := by
  obtain ⟨r, hr, rfl⟩ := hI.known q hq
  exact mem_outbox_lt hf hr

theorem Appends.mem {new : List OutboxEvent} {r : OutboxEvent} (ha : Appends db db' new)
    (hr : r ∈ db.outbox) : r ∈ db'.outbox := by
  rw [ha.outbox]
  exact List.mem_append_left _ hr

/-- New rows come in order, and after everything that is known so far. -/
theorem pairwise_new {new : List OutboxEvent} {l : List ℤ} (ha : Appends db db' new)
    (hf' : DbFacts g db') (hl : ∀ q ∈ l, q < db.nextSequence) (hord : l.Pairwise (· < ·)) :
    (l ++ new.map OutboxEvent.sequence).Pairwise (· < ·) := by
  have hinc := hf'.sequenced.increasing
  rw [ha.outbox] at hinc
  refine List.pairwise_append.mpr ⟨hord, ?_, fun q hq q' hq' => ?_⟩
  · exact List.pairwise_map.mpr (List.pairwise_append.mp hinc).2.1
  · obtain ⟨r, hr, rfl⟩ := List.mem_map.mp hq'
    exact (hl q hq).trans_le (ha.fresh r hr)

theorem PhaseGrounded.appends {new : List OutboxEvent} {p : Phase} (ha : Appends db db' new)
    (hp : PhaseGrounded g db s p) : PhaseGrounded g db' s p := by
  cases p with
  | lookedUp source read =>
      obtain ⟨hf, hat, more, hmore⟩ := hp
      exact ⟨hf, hat, more ++ new, hmore.trans ha⟩
  | scanning rows first => exact fun r hr => Appends.mem ha (hp r hr)
  | paying row => exact ⟨Appends.mem ha hp.1, hp.2⟩
  | _ => trivial

theorem IngestOk.surrounded {f : Feed g} {e : FeedEvent g} {φ : StatusStream → StatusStream}
    (hf : DbFacts g f.db) (hI : IngestOk f.db f.ingest) (hs : Surrounds f e db ingest φ) :
    IngestOk db ingest := by
  cases hs with
  | @commit e pool new hnext happ hfacts =>
      obtain ⟨-, hp, -⟩ | ⟨-, hp, -⟩ := hear_cases f.ingest (new.map OutboxEvent.sequence)
      · constructor
        · intro q hq
          rw [hp] at hq
          rcases List.mem_append.mp hq with hq | hq
          · obtain ⟨r, hr, hrq⟩ := hI.known q hq
            exact ⟨r, Appends.mem happ hr, hrq⟩
          · obtain ⟨r, hr, rfl⟩ := List.mem_map.mp hq
            refine ⟨r, ?_, rfl⟩
            rw [happ.outbox]
            exact List.mem_append_right _ hr
        · rw [hp]
          exact pairwise_new happ hfacts (fun q hq => hI.lt hf hq) hI.ordered
      · constructor
        · intro q hq
          rw [hp] at hq
          obtain ⟨r, hr, hrq⟩ := hI.known q hq
          exact ⟨r, Appends.mem happ hr, hrq⟩
        · rw [hp]
          exact hI.ordered
  | relayed hp _ => exact ⟨hp ▸ hI.known, hp ▸ hI.ordered⟩
  | broadcast _ hp _ | dropped _ hp _ =>
      have hord := hI.ordered
      rw [hp] at hord
      refine ⟨fun q hq => hI.known q ?_, (List.pairwise_cons.mp hord).2⟩
      rw [hp]
      exact List.mem_cons_of_mem _ hq

theorem Grounded.surrounded {f : Feed g} {e : FeedEvent g} {φ : StatusStream → StatusStream}
    (hok : FeedOk f) (hs : Surrounds f e db ingest φ) (hI : Grounded g f.db f.ingest s) :
    Grounded g db ingest (φ s) := by
  cases hs with
  | @commit e pool new hnext happ hfacts =>
      refine ⟨hI.attached.trans happ.counter, fun r hr => Appends.mem happ (hI.buffer r hr),
        fun r hr => Appends.mem happ (hI.processed r hr), ?_, hI.phase.appends happ⟩
      obtain ⟨-, hp, -⟩ | ⟨-, hp, -⟩ := hear_cases f.ingest (new.map OutboxEvent.sequence)
      · rw [hp, ← List.append_assoc]
        refine pairwise_new happ hfacts (fun q hq => ?_) hI.ordered
        rcases List.mem_append.mp hq with hq | hq
        · obtain ⟨r, hr, rfl⟩ := List.mem_map.mp hq
          exact mem_outbox_lt hok.facts (hI.buffer r hr)
        · exact hok.ingest.lt hok.facts hq
      · rw [hp]
        exact hI.ordered
  | relayed hp _ => exact ⟨hI.attached, hI.buffer, hI.processed, hp ▸ hI.ordered, hI.phase⟩
  | @broadcast row ingest read hrow hp _ =>
      have hord := hI.ordered
      rw [hp] at hord
      change Grounded g f.db ingest (s.offer row)
      unfold StatusStream.offer
      split_ifs with hc
      · exact ⟨hI.attached, hI.buffer, hI.processed,
          hord.sublist ((List.Sublist.refl _).append (List.sublist_cons_self _ _)), hI.phase⟩
      · refine ⟨hI.attached, fun r hr => ?_, hI.processed, ?_, hI.phase⟩
        · rcases List.mem_append.mp hr with hr | hr
          · exact hI.buffer r hr
          · obtain rfl := List.mem_singleton.mp hr
            exact hrow
        · simpa using hord
  | dropped _ hp _ =>
      have hord := hI.ordered
      rw [hp] at hord
      exact ⟨hI.attached, hI.buffer, hI.processed,
        hord.sublist ((List.Sublist.refl _).append (List.sublist_cons_self _ _)), hI.phase⟩

theorem Grounded.attach (hI : IngestOk db ingest) (h : PaymentHash)
    (resume : Option ℤ) : Grounded g db ingest (.attach db h resume) := by
  refine ⟨le_rfl, fun r hr => (by cases hr), fun r hr => (by cases hr), hI.ordered, ?_⟩
  cases resume <;> trivial

/-- A row in hand becomes the last one processed. -/
theorem Grounded.handled {row : OutboxEvent} {k : Phase} (hI : Grounded g db ingest s)
    (hrow : row ∈ db.outbox) (hk : PhaseGrounded g db s k) (h : Handled db s row k t) :
    Grounded g db ingest t := by
  obtain ⟨⟨hh, -, hat, -, hb, -⟩, -, hpr, hp⟩ := h.frame
  refine ⟨hat ▸ hI.attached, hb ▸ hI.buffer, fun r hr => ?_, hb ▸ hI.ordered, ?_⟩
  · rw [hpr] at hr
    rcases List.mem_append.mp hr with hr | hr
    · exact hI.processed r hr
    · obtain rfl := List.mem_singleton.mp hr
      exact hrow
  · rcases hp with hp | hp | ⟨hp, ha, hst⟩
    · rw [hp]
      cases k with
      | lookedUp source read => simpa only [PhaseGrounded, hat] using hk
      | paying row => simpa only [PhaseGrounded, About, hh] using hk
      | _ => exact hk
    · rw [hp]
      trivial
    · rw [hp]
      refine ⟨hrow, ?_, hst⟩
      simpa only [About, hh] using ha

theorem Grounded.step {x : StreamStep} (hf : DbFacts g db) (hI : Grounded g db ingest s)
    (h : Stepped db s x t) : Grounded g db ingest t := by
  have goto {p : Phase} (hp : PhaseGrounded g db s p) :
      Grounded g db ingest { s with phase := p } := by
    refine ⟨hI.attached, hI.buffer, hI.processed, hI.ordered, ?_⟩
    cases p <;> exact hp
  cases h with
  | lookedUp hp => exact goto ⟨hf, hI.attached, [], .refl db⟩
  | kept _ _ _ hph =>
      refine ⟨hI.attached, hI.buffer, hI.processed, hI.ordered, ?_⟩
      rcases hph with ⟨-, rfl⟩ | ⟨-, rfl⟩ <;> trivial
  | reported _ _ _ _ hph =>
      refine ⟨hI.attached, hI.buffer, hI.processed, hI.ordered, ?_⟩
      rcases hph with ⟨rfl, -⟩ | ⟨rfl, -⟩ <;> trivial
  | counted hp _ => exact goto trivial
  | drained hp _ =>
      apply goto
      split_ifs <;> trivial
  | paged hp hrows _ =>
      refine goto fun r hr => ?_
      rw [← hrows] at hr
      exact (mem_page hr).1
  | refused _ _ | paid _ => exact ⟨hI.attached, hI.buffer, hI.processed, hI.ordered, trivial⟩
  | told _ _ => exact ⟨hI.attached, hI.buffer, hI.processed, hI.ordered, trivial⟩
  | failedCount _ | failedPage _ => exact goto trivial
  | left _ => exact ⟨hI.attached, hI.buffer, hI.processed, hI.ordered, trivial⟩
  | @scanned row rows first _ _ hp hh =>
      have hrows := hI.phase
      rw [hp] at hrows
      refine hI.handled (hrows row List.mem_cons_self) ?_ hh
      cases rows with
      | nil => trivial
      | cons r rows => exact fun x hx => hrows x (List.mem_cons_of_mem _ hx)
  | @skipped row rest _ hp _ hb _ =>
      have hord := hI.ordered
      rw [hb] at hord
      refine ⟨hI.attached, fun r hr => hI.buffer r (hb ▸ List.mem_cons_of_mem _ hr), hI.processed,
        (List.pairwise_cons.mp hord).2, ?_⟩
      simp only [hp]
      trivial
  | @received row rest _ _ hp _ hb _ hh =>
      have hord := hI.ordered
      rw [hb] at hord
      have hpop : Grounded g db ingest { s with buffer := rest } := by
        refine ⟨hI.attached, fun r hr => hI.buffer r (hb ▸ List.mem_cons_of_mem _ hr),
          hI.processed, (List.pairwise_cons.mp hord).2, ?_⟩
        simp only [hp]
        trivial
      exact hpop.handled (k := .live) (hI.buffer row (hb ▸ List.mem_cons_self)) trivial hh
  | @overflowed n _ _ _ =>
      refine ⟨hI.attached, fun r hr => hI.buffer r (List.mem_of_mem_drop hr), hI.processed, ?_, ?_⟩
      · have hsub : ((s.buffer.drop n).map OutboxEvent.sequence ++ pending ingest).Sublist
            (s.buffer.map OutboxEvent.sequence ++ pending ingest) :=
          ((List.drop_sublist n s.buffer).map _).append (List.Sublist.refl _)
        exact hI.ordered.sublist hsub
      · have hp := hI.phase
        change PhaseGrounded g db _ s.phase
        cases hs : s.phase <;> rw [hs] at hp <;> exact hp

/-! ### The induction rule -/

theorem FeedOk.next {f f' : Feed g} {e : FeedEvent g} (hI : FeedOk f) (h : f.next e = some f') :
    FeedOk f' := by
  obtain ⟨db, ingest, φ, hs, hdb, hin, hst, hreach⟩ | ⟨input, c, resume, k, -, rfl⟩ |
    ⟨i, x, s, t, -, hget, hstep, rfl⟩ | ⟨hdb, hin, hst, hreach⟩ := feed_cases hI h
  · obtain ⟨es, hrun⟩ := hreach
    have hfacts : DbFacts g f'.db := dbFacts_run hrun
    refine ⟨⟨es, hrun⟩, hfacts, ?_, fun s hmem => ?_⟩
    · rw [hdb, hin]
      exact hI.ingest.surrounded hI.facts hs
    · rw [hst] at hmem
      obtain ⟨s₀, hs₀, rfl⟩ := List.mem_map.mp hmem
      rw [hdb, hin]
      exact (hI.streams s₀ hs₀).surrounded hI hs
  · refine ⟨hI.reached, hI.facts, hI.ingest, fun s hmem => ?_⟩
    rcases List.mem_append.mp hmem with hmem | hmem
    · exact hI.streams s hmem
    · obtain rfl := List.mem_singleton.mp hmem
      exact .attach hI.ingest k resume
  · refine ⟨hI.reached, hI.facts, hI.ingest, fun u hmem => ?_⟩
    rcases List.mem_or_eq_of_mem_set hmem with hmem | rfl
    · exact hI.streams u hmem
    · exact (hI.streams s (List.mem_of_getElem? hget)).step hI.facts (step_spec hstep)
  · obtain ⟨es, hrun⟩ := hreach
    refine ⟨⟨es, hrun⟩, dbFacts_run hrun, ?_, fun s hmem => ?_⟩
    · rw [hdb, hin]
      exact ⟨fun q hq => (by cases hq), .nil⟩
    · rw [hst] at hmem
      cases hmem

theorem feedOk_boot (g : Deployment) : FeedOk (Feed.boot g) := by
  have hrun : Runs ({} : Discipline (gateway g)) (GatewayMachine.boot g) []
      (GatewayMachine.boot g) := rfl
  exact ⟨⟨[], hrun⟩, dbFacts_run hrun, ⟨fun q hq => (by cases hq), .nil⟩,
    fun s hs => (by cases hs)⟩

theorem feedOk_run {admits : Feed g → FeedEvent g → Bool} {es : List (FeedEvent g)} {f : Feed g}
    (hrun : Feeds admits es f) : FeedOk f :=
  hrun.invariant (fun _ _ _ _ h hI => hI.next h) (feedOk_boot g)

/-- The induction rule for facts about every stream: they hold of a stream that has
just been attached, and survive the steps around it and its own. -/
theorem stream_invariant {admits : Feed g → FeedEvent g → Bool}
    {J : Db → Ingest → StatusStream → Prop}
    (hattach : ∀ f input configured resume h, FeedOk f →
      admits f (.subscribe input configured resume) = true →
      J f.db f.ingest (.attach f.db h resume))
    (hsurround : ∀ f e db ingest φ s, FeedOk f → s ∈ f.streams → admits f e = true →
      Surrounds f e db ingest φ → J f.db f.ingest s → J db ingest (φ s))
    (hstep : ∀ f i x s t, FeedOk f → s ∈ f.streams → f.streams[i]? = some s →
      admits f (.stream i x) = true → Stepped f.db s x t → J f.db f.ingest s →
      J f.db f.ingest t)
    {es : List (FeedEvent g)} {f : Feed g} (hrun : Feeds admits es f) :
    FeedOk f ∧ ∀ s ∈ f.streams, J f.db f.ingest s := by
  refine hrun.invariant (J := fun f => FeedOk f ∧ ∀ s ∈ f.streams, J f.db f.ingest s) ?_
    ⟨feedOk_boot g, fun s hs => (by cases hs)⟩
  rintro f e f' hadm h ⟨hI, hall⟩
  refine ⟨hI.next h, ?_⟩
  obtain ⟨db, ingest, φ, hs, hdb, hin, hst, -⟩ | ⟨input, c, resume, k, rfl, rfl⟩ |
    ⟨i, x, s, t, rfl, hget, ht, rfl⟩ | ⟨-, -, hst, -⟩ := feed_cases hI h
  · intro s hmem
    rw [hst] at hmem
    obtain ⟨s₀, hs₀, rfl⟩ := List.mem_map.mp hmem
    rw [hdb, hin]
    exact hsurround f e db ingest φ s₀ hI hs₀ hadm hs (hall s₀ hs₀)
  · intro s hmem
    rcases List.mem_append.mp hmem with hmem | hmem
    · exact hall s hmem
    · obtain rfl := List.mem_singleton.mp hmem
      exact hattach f input c resume k hI hadm
  · intro u hmem
    rcases List.mem_or_eq_of_mem_set hmem with hmem | rfl
    · exact hall u hmem
    · have hs := List.mem_of_getElem? hget
      exact hstep f i x s _ hI hs hget hadm (step_spec ht) (hall s hs)
  · intro s hmem
    rw [hst] at hmem
    cases hmem

/-! ### Reading the aggregate -/

/-- A lookup that is answered finds the invoice as its log has it. -/
theorem lookupInvoice_cases (hf : DbFacts g db) (h : PaymentHash) :
    (db.invoices.lookup h = none ∧ lookupInvoice db h true = none) ∨
    ∃ r i n, db.invoices.lookup h = some r ∧ Invoices.hydrate r = .ok i ∧
      lookupInvoice db h true = some i ∧ InvoiceLog n r.events i.state i.heldAmountMsat := by
  cases hl : db.invoices.lookup h with
  | none =>
      left
      have hfind : Invoices.maybeFindByPaymentHash db h = .ok none := by
        simp only [Invoices.maybeFindByPaymentHash, Invoices.findByPaymentHash, hl]
      simp only [lookupInvoice, hfind, if_true, and_self]
  | some r =>
      right
      obtain ⟨n, s, held, hlog, -, -⟩ := hf.ok.invoices h r hl
      obtain ⟨i, hi, -, -, hs, hheld, -⟩ := InvoiceLogs.hydrate_log r.id hlog
      have hydrated : Invoices.hydrate r = .ok i := hi
      have hfind : Invoices.maybeFindByPaymentHash db h = .ok (some i) := by
        simp only [Invoices.maybeFindByPaymentHash, Invoices.findByPaymentHash, hl, hydrated]
      refine ⟨r, i, n, rfl, hydrated, ?_, ?_⟩
      · simp only [lookupInvoice, hfind, if_true]
      · rw [hs, hheld]
        exact hlog

/-- The status that an answered lookup stands for. -/
theorem lookedUpStatus_none {h : PaymentHash} {read : Bool} {now : Timestamp}
    (hl : lookupInvoice db h read = none) : lookedUpStatus db h read now = .expired := by
  simp only [lookedUpStatus, hl, Option.map_none, initialStatus]

theorem lookedUpStatus_some {h : PaymentHash} {read : Bool} {now : Timestamp} {i : Invoice}
    (hl : lookupInvoice db h read = some i) :
    lookedUpStatus db h read now = initialStatus (some (i.state, i.expiryAt)) now := by
  simp only [lookedUpStatus, hl, Option.map_some]

/-! ### Payloads -/

/-- Where a payload comes from. -/
inductive Origin (db : Db) (s : StatusStream) : StreamStep → Emission → Prop where
  | aggregate {source : Db} {read accepted : Bool} {now : Timestamp} :
      s.phase = .lookedUp source read →
      Origin db s (.derive now accepted)
        ⟨buildPayload (lookedUpStatus source s.paymentHash read now) s.paymentHash
          (lookupInvoice source s.paymentHash read), source, some now⟩
  | refusal {x : StreamStep} (message : String) : Origin db s x ⟨errorPayload message, db, none⟩
  | row {x : StreamStep} {row : OutboxEvent} {st : InvoicePaymentStatus} : row ∈ db.outbox →
      About s row → statusFromEvent row.domainEvent = some st → st ≠ .paid →
      Origin db s x ⟨buildPayload st s.paymentHash none, db, none⟩
  | paid {x : StreamStep} {row : OutboxEvent} {read : Bool} : s.phase = .paying row →
      Origin db s x
        ⟨buildPayload .paid s.paymentHash (lookupInvoice db s.paymentHash read), db, none⟩

theorem handled_sent {row : OutboxEvent} {k : Phase} {x : StreamStep} (hrow : row ∈ db.outbox)
    (h : Handled db s row k t) :
    t.sent = s.sent ∨ ∃ m, t.sent = s.sent ++ [m] ∧ Origin db s x m := by
  cases h with
  | quiet _ | paying _ _ _ => exact .inl rfl
  | emitted ha hst hne _ _ => exact .inr ⟨_, rfl, .row hrow ha hst hne⟩

/-- A step sends at most one payload. -/
theorem Grounded.sent_cases {x : StreamStep} (hI : Grounded g db ingest s)
    (h : Stepped db s x t) :
    t.sent = s.sent ∨ ∃ m, t.sent = s.sent ++ [m] ∧ Origin db s x m := by
  cases h with
  | reported hp hst _ _ _ =>
      subst hst
      exact .inr ⟨_, rfl, .aggregate hp⟩
  | refused _ _ => exact .inr ⟨_, rfl, .refusal _⟩
  | paid hp => exact .inr ⟨_, rfl, .paid hp⟩
  | @scanned row rows first _ _ hp hh =>
      have hrows := hI.phase
      rw [hp] at hrows
      exact handled_sent (hrows row List.mem_cons_self) hh
  | @received row rest accepted _ hp _ hb _ hh =>
      have hrow : row ∈ db.outbox := hI.buffer row (hb ▸ List.mem_cons_self)
      rcases handled_sent (x := .receive accepted) hrow hh with hs | ⟨m, hs, ho⟩
      · exact .inl hs
      · refine .inr ⟨m, hs, ?_⟩
        cases ho with
        | refusal message => exact .refusal message
        | row hr ha hst hne => exact .row hr ha hst hne
        | paid hp' => cases hp.symm.trans hp'
  | _ => exact .inl rfl

/-- The induction rule for facts about every payload that is ever sent. -/
theorem emission_invariant {admits : Feed g → FeedEvent g → Bool}
    {P : PaymentHash → Emission → Prop}
    (hsend : ∀ f i x s m, FeedOk f → s ∈ f.streams → f.streams[i]? = some s →
      admits f (.stream i x) = true → Origin f.db s x m → P s.paymentHash m)
    {es : List (FeedEvent g)} {f : Feed g} (hrun : Feeds admits es f) :
    ∀ s ∈ f.streams, ∀ m ∈ s.sent, P s.paymentHash m := by
  refine (stream_invariant (J := fun _ _ s => ∀ m ∈ s.sent, P s.paymentHash m) ?_ ?_ ?_ hrun).2
  · exact fun f input c resume h _ _ m hm => by cases hm
  · intro f e db ingest φ s _ _ _ hs hall
    cases hs with
    | broadcast _ _ _ =>
        change ∀ m ∈ (s.offer _).sent, P (s.offer _).paymentHash m
        unfold StatusStream.offer
        split_ifs <;> exact hall
    | _ => exact hall
  · intro f i x s t hI hs hget hadm hstep hall m hm
    rw [hstep.frame.1]
    rcases (hI.streams s hs).sent_cases hstep with hsent | ⟨m', hsent, ho⟩
    · exact hall m (hsent ▸ hm)
    · rw [hsent] at hm
      rcases List.mem_append.mp hm with hm | hm
      · exact hall m hm
      · obtain rfl := List.mem_singleton.mp hm
        exact hsend f i x s m hI hs hget hadm ho

end LightningGateway.FeedInvariant
