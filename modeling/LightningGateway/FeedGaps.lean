import LightningGateway.StatusReplay
import LightningGateway.SingleCredit

/-!
# Gaps of the ingest task

The ingest task drops rows: those that commit while it does not listen, and those it
fails to read. A stream learns of them in a backfill only, and nothing but the
overflow of its own buffer starts one. So a stream that receives a later row has
passed over a dropped one for good. `Followed` is what holds as long as this does
not happen.
-/
namespace LightningGateway.FeedGaps
open Primitives GuardedRuns OutboxRows GatewayStore GatewayMachine CursorFeeds
open StatusMapping StatusFeed StatusRows FeedSteps FeedInvariant StatusReplay
open EventStream (fetchAfterBatch)

variable {g : Deployment} {db db' : Db} {ingest ingest' : Ingest} {s t : StatusStream}
  {row : OutboxEvent} {k : Phase}

/-- The row has a status for the clients of `h`. -/
def tells (h : PaymentHash) (row : OutboxEvent) : Bool := (statusOf h row).isSome

/-- The rows above this sequence are for the stream to follow. -/
def start (s : StatusStream) : ℤ := s.resume.getD (s.attachedAt - 1)

/-! ### Where the streams go wrong -/

/-- The row that a step moves the cursor to. -/
def taken (s : StatusStream) : StreamStep → Option OutboxEvent
  | .scan _ =>
      match s.phase with
      | .scanning (row :: _) _ => some row
      | _ => none
  | .receive _ =>
      match s.phase, s.lagged, s.buffer with
      | .live, false, row :: _ => if s.cursor < row.sequence then some row else none
      | _, _, _ => none
  | _ => none

def isLive (s : StatusStream) : Bool :=
  match s.phase with
  | .live => true
  | _ => false

/-- The row, committed since the stream was attached, will not be read: it lies at or
below the sequence that the client resumed from, or it was dropped, lies above the
cursor and the stream is not in a backfill. -/
def unread (f : Feed g) (s : StatusStream) (row : OutboxEvent) : Bool :=
  tells s.paymentHash row && decide (s.attachedAt ≤ row.sequence) &&
    (decide (row.sequence ≤ s.resume.getD 0) ||
      isLive s && decide (s.cursor < row.sequence ∧ row.sequence ∈ f.ingest.dropped))

/-- No stream takes a row while an earlier one will not be read. -/
def unbroken (f : Feed g) : FeedEvent g → Bool
  | .stream i x =>
      match f.streams[i]? with
      | none => true
      | some s =>
          match taken s x with
          | none => true
          | some row => f.db.outbox.all fun r => decide (row.sequence ≤ r.sequence) || !unread f s r
  | _ => true

/-! ### What a stream has followed -/

/-- The row will be offered to the stream, or it was dropped. -/
def OnTheWay (ingest : Ingest) (s : StatusStream) (q : ℤ) : Prop :=
  q ∈ ingest.dropped ∨ q ∈ s.buffer.map OutboxEvent.sequence ++ pending ingest

/-- What a stream has not seen yet is on its way, unless the stream has lagged. -/
def Waiting (db : Db) (ingest : Ingest) (s : StatusStream) : Prop :=
  ∀ r ∈ db.outbox, tells s.paymentHash r = true → start s < r.sequence → s.cursor < r.sequence →
    s.attachedAt ≤ r.sequence ∧ (s.lagged = true ∨ OnTheWay ingest s r.sequence)

/-- The rest of a page holds the next rows above the cursor. -/
structure PageOk (db : Db) (cursor : ℤ) (rows : List OutboxEvent) : Prop where
  above : ∀ x ∈ rows, cursor < x.sequence
  ordered : rows.Pairwise fun a b => a.sequence < b.sequence
  complete : ∀ r ∈ db.outbox, cursor < r.sequence → r ∈ rows ∨ ∀ x ∈ rows, x.sequence < r.sequence

def PhaseFollowed (db : Db) (ingest : Ingest) (s : StatusStream) : Phase → Prop
  | .lookingUp | .lookedUp _ _ | .live => Waiting db ingest s
  | .scanning rows _ => PageOk db s.cursor rows
  | .paying row => ∃ l, s.processed = l ++ [row]
  | .counting _ | .paging _ | .closed => True

structure Followed (db : Db) (ingest : Ingest) (s : StatusStream) : Prop where
  resumed : s.resume.getD 0 ≤ s.cursor
  bounded : ∀ r ∈ s.processed, s.resume.getD 0 < r.sequence ∧ r.sequence ≤ s.cursor
  ordered : s.processed.Pairwise fun a b => a.sequence < b.sequence
  known : s.cursor ≤ start s ∨ s.cursor < db.nextSequence
  complete : ∀ r ∈ db.outbox, tells s.paymentHash r = true → start s < r.sequence →
    r.sequence ≤ s.cursor → r ∈ s.processed
  reached : ∀ x ∈ s.processed, ∀ r ∈ db.outbox, tells s.paymentHash r = true →
    s.attachedAt ≤ r.sequence → r.sequence < x.sequence → start s < r.sequence
  phase : PhaseFollowed db ingest s s.phase

theorem Followed.attach (hf : DbFacts g db) (h : PaymentHash) (resume : Option ℤ) :
    Followed db ingest (.attach db h resume) := by
  have hpos := hf.counter_pos
  have hnone {P : OutboxEvent → Prop} : ∀ r ∈ ([] : List OutboxEvent), P r :=
    fun r hr => by cases hr
  refine ⟨le_rfl, hnone, .nil, ?_, fun r hr _ hs hc => ?_, hnone, ?_⟩
  · left
    cases resume with
    | none =>
        simp only [StatusStream.attach, start, Option.getD_none]
        omega
    | some c => exact le_rfl
  · cases resume with
    | none =>
        have hlt := mem_outbox_lt hf hr
        simp only [StatusStream.attach, start, Option.getD_none] at hs
        omega
    | some c =>
        simp only [StatusStream.attach, start, Option.getD_some] at hs hc
        omega
  · cases resume with
    | none =>
        intro r hr _ hs _
        have hlt := mem_outbox_lt hf hr
        simp only [StatusStream.attach, start, Option.getD_none] at hs
        omega
    | some c => trivial

/-- The phase and the buffer may change while the cursor and the rows taken stay. -/
theorem Followed.goto (hI : Followed db ingest s) (hh : t.paymentHash = s.paymentHash)
    (hr : t.resume = s.resume) (ha : t.attachedAt = s.attachedAt) (hc : t.cursor = s.cursor)
    (hp : t.processed = s.processed) (hphase : PhaseFollowed db ingest' t t.phase) :
    Followed db ingest' t := by
  have hstart : start t = start s := by
    unfold start
    rw [hr, ha]
  constructor
  · rw [hr, hc]
    exact hI.resumed
  · rw [hp, hr, hc]
    exact hI.bounded
  · rw [hp]
    exact hI.ordered
  · rw [hc, hstart]
    exact hI.known
  · rw [hh, hstart, hc, hp]
    exact hI.complete
  · rw [hp, hh, ha, hstart]
    exact hI.reached
  · exact hphase

/-! ### Steps of the surroundings -/

/-- What is on its way to a stream may move, but not vanish. -/
theorem Waiting.moves (hI : Waiting db ingest s) (hh : t.paymentHash = s.paymentHash)
    (hs : start t = start s) (hc : t.cursor = s.cursor) (ha : t.attachedAt = s.attachedAt)
    (hl : t.lagged = s.lagged)
    (hway : ∀ q, OnTheWay ingest s q → OnTheWay ingest' t q) : Waiting db ingest' t := by
  intro r hr htells hstart hcursor
  rw [hh] at htells
  rw [hs] at hstart
  rw [hc] at hcursor
  obtain ⟨hat, hwait⟩ := hI r hr htells hstart hcursor
  rw [ha, hl]
  exact ⟨hat, hwait.imp_right (hway r.sequence)⟩

theorem PhaseFollowed.moves {p : Phase} (hI : PhaseFollowed db ingest s p)
    (hh : t.paymentHash = s.paymentHash) (hs : start t = start s) (hc : t.cursor = s.cursor)
    (ha : t.attachedAt = s.attachedAt) (hl : t.lagged = s.lagged)
    (hp : t.processed = s.processed) (hway : ∀ q, OnTheWay ingest s q → OnTheWay ingest' t q) :
    PhaseFollowed db ingest' t p := by
  cases p with
  | lookingUp | lookedUp source read | live => exact Waiting.moves hI hh hs hc ha hl hway
  | scanning rows first =>
      change PageOk db t.cursor rows
      rw [hc]
      exact hI
  | paying row =>
      change ∃ l, t.processed = l ++ [row]
      rw [hp]
      exact hI
  | counting first | paging first | closed => trivial

/-- New rows are on their way when they commit. -/
theorem PhaseFollowed.commit {new : List OutboxEvent} {p : Phase} (hf : DbFacts g db)
    (hg : PhaseGrounded g db s p) (hat : s.attachedAt ≤ db.nextSequence)
    (ha : Appends db db' new) (hI : PhaseFollowed db ingest s p)
    (hway : ∀ q, OnTheWay ingest s q → OnTheWay ingest' s q)
    (hnew : ∀ r ∈ new, OnTheWay ingest' s r.sequence) : PhaseFollowed db' ingest' s p := by
  have hwaiting (hw : Waiting db ingest s) : Waiting db' ingest' s := by
    intro r hr htells hstart hcursor
    rw [ha.outbox] at hr
    rcases List.mem_append.mp hr with hr | hr
    · obtain ⟨hat, hwait⟩ := hw r hr htells hstart hcursor
      exact ⟨hat, hwait.imp_right (hway r.sequence)⟩
    · exact ⟨hat.trans (ha.fresh r hr), .inr (hnew r hr)⟩
  cases p with
  | lookingUp | lookedUp source read | live => exact hwaiting hI
  | scanning rows first =>
      refine ⟨hI.above, hI.ordered, fun r hr hcursor => ?_⟩
      rw [ha.outbox] at hr
      rcases List.mem_append.mp hr with hr | hr
      · exact hI.complete r hr hcursor
      · right
        intro x hx
        have hlt := mem_outbox_lt hf (hg x hx)
        exact hlt.trans_le (ha.fresh r hr)
  | paying row => exact hI
  | counting first | paging first | closed => trivial

theorem Followed.commit {new : List OutboxEvent} (hf : DbFacts g db)
    (hg : Grounded g db ingest s) (ha : Appends db db' new) (hI : Followed db ingest s)
    (hway : ∀ q, OnTheWay ingest s q → OnTheWay ingest' s q)
    (hnew : ∀ r ∈ new, OnTheWay ingest' s r.sequence) : Followed db' ingest' s := by
  have hcounter := ha.counter
  refine ⟨hI.resumed, hI.bounded, hI.ordered, hI.known.imp_right fun h => h.trans_le hcounter,
    fun r hr htells hs hc => ?_, fun x hx r hr htells hat hlt => ?_,
    hI.phase.commit hf hg.phase hg.attached ha hway hnew⟩
  · rw [ha.outbox] at hr
    rcases List.mem_append.mp hr with hr | hr
    · exact hI.complete r hr htells hs hc
    · have hfresh := ha.fresh r hr
      have hknown := hI.known
      omega
  · rw [ha.outbox] at hr
    rcases List.mem_append.mp hr with hr | hr
    · exact hI.reached x hx r hr htells hat hlt
    · have hfresh := ha.fresh r hr
      have hxlt := mem_outbox_lt hf (hg.processed x hx)
      omega

/-- Around a stream nothing it has not seen vanishes without a trace. -/
theorem Followed.surrounded {f : Feed g} {e : FeedEvent g} {φ : StatusStream → StatusStream}
    (hok : FeedOk f) (hg : Grounded g f.db f.ingest s) (hs : Surrounds f e db ingest φ)
    (hI : Followed f.db f.ingest s) : Followed db ingest (φ s) := by
  have moved {ingest' : Ingest} (hway : ∀ q, OnTheWay f.ingest s q → OnTheWay ingest' s q) :
      Followed f.db ingest' s :=
    hI.goto rfl rfl rfl rfl rfl (hI.phase.moves rfl rfl rfl rfl rfl rfl hway)
  cases hs with
  | @commit e pool new hnext happ hfacts =>
      obtain ⟨-, hp, hd⟩ | ⟨-, hp, hd⟩ := hear_cases f.ingest (new.map OutboxEvent.sequence)
      · refine hI.commit hok.facts hg happ (fun q hq => ?_) fun r hr => ?_
        · unfold OnTheWay at hq ⊢
          rw [hp, hd, ← List.append_assoc]
          exact hq.imp_right (List.mem_append_left _)
        · right
          rw [hp, ← List.append_assoc]
          exact List.mem_append_right _ (List.mem_map_of_mem hr)
      · refine hI.commit hok.facts hg happ (fun q hq => ?_) fun r hr => ?_
        · unfold OnTheWay at hq ⊢
          rw [hp, hd]
          exact hq.imp_left (List.mem_append_left _)
        · left
          rw [hd]
          exact List.mem_append_right _ (List.mem_map_of_mem hr)
  | relayed hp hd =>
      apply moved
      intro q hq
      unfold OnTheWay at hq ⊢
      rwa [hp, hd]
  | @broadcast row ingest read hrow hp hd =>
      change Followed f.db ingest (s.offer row)
      unfold StatusStream.offer
      split_ifs with hclosed
      · refine hI.goto rfl rfl rfl rfl rfl ?_
        cases hphase : s.phase with
        | closed => trivial
        | _ =>
            rw [hphase] at hclosed
            cases hclosed
      · refine hI.goto rfl rfl rfl rfl rfl (hI.phase.moves rfl rfl rfl rfl rfl rfl fun q hq => ?_)
        unfold OnTheWay at hq ⊢
        rw [hp] at hq
        rw [hd]
        simpa using hq
  | @dropped q ingest read _ hp hd =>
      apply moved
      intro q' hq
      unfold OnTheWay at hq ⊢
      rw [hp] at hq
      rw [hd]
      simp only [List.mem_append, List.mem_cons] at hq ⊢
      tauto

/-! ### Steps of a stream -/

/-- A row in hand becomes the last one processed, and none was passed over. -/
theorem Followed.handled (hf : DbFacts g db) (hI : Followed db ingest s) (hrow : row ∈ db.outbox)
    (hlt : s.cursor < row.sequence)
    (hnone : ∀ r ∈ db.outbox, tells s.paymentHash r = true → start s < r.sequence →
      s.cursor < r.sequence → row.sequence ≤ r.sequence)
    (hreach : ∀ r ∈ db.outbox, tells s.paymentHash r = true → s.attachedAt ≤ r.sequence →
      r.sequence < row.sequence → start s < r.sequence)
    (hk : PhaseFollowed db ingest
      { s with cursor := row.sequence, processed := s.processed ++ [row] } k)
    (h : Handled db s row k t) : Followed db ingest t := by
  obtain ⟨⟨hh, hr, hat, -, hb, hl⟩, hc, hp, hph⟩ := h.frame
  have hstart : start t = start s := by
    unfold start
    rw [hr, hat]
  have hresumed := hI.resumed
  constructor
  · rw [hr, hc]
    omega
  · intro r hmem
    rw [hp] at hmem
    rw [hr, hc]
    rcases List.mem_append.mp hmem with hmem | hmem
    · have hbound := hI.bounded r hmem
      omega
    · obtain rfl := List.mem_singleton.mp hmem
      omega
  · rw [hp]
    refine List.pairwise_append.mpr ⟨hI.ordered, List.pairwise_singleton _ _, ?_⟩
    intro a ha b hb
    obtain rfl := List.mem_singleton.mp hb
    exact (hI.bounded a ha).2.trans_lt hlt
  · right
    rw [hc]
    exact mem_outbox_lt hf hrow
  · intro r hmem htells hs hle
    rw [hh] at htells
    rw [hstart] at hs
    rw [hc] at hle
    rw [hp]
    rcases le_or_gt r.sequence s.cursor with hold | hnew
    · exact List.mem_append_left _ (hI.complete r hmem htells hs hold)
    · have hge := hnone r hmem htells hs hnew
      obtain rfl := row_unique hf hmem hrow (le_antisymm hle hge)
      exact List.mem_append_right _ (List.mem_singleton_self r)
  · intro x hx r hmem htells hat' hlt'
    rw [hh] at htells
    rw [hat] at hat'
    rw [hp] at hx
    rw [hstart]
    rcases List.mem_append.mp hx with hx | hx
    · exact hI.reached x hx r hmem htells hat' hlt'
    · obtain rfl := List.mem_singleton.mp hx
      exact hreach r hmem htells hat' hlt'
  · rcases hph with hph | hph | ⟨hph, -⟩
    · rw [hph]
      refine hk.moves hh hstart hc hat hl hp fun q hq => ?_
      unfold OnTheWay at hq ⊢
      rwa [hb]
    · rw [hph]
      trivial
    · rw [hph]
      exact ⟨s.processed, hp⟩

/-- Below a row that a step takes under the guard, all rows will be read. -/
theorem unbroken_taken {f : Feed g} {i : ℕ} {x : StreamStep} (hget : f.streams[i]? = some s)
    (hadm : unbroken f (.stream i x) = true) (htaken : taken s x = some row) {r : OutboxEvent}
    (hr : r ∈ f.db.outbox) (hlt : r.sequence < row.sequence) : unread f s r = false := by
  simp only [unbroken, hget, htaken, List.all_eq_true, Bool.or_eq_true, decide_eq_true_eq,
    Bool.not_eq_true'] at hadm
  exact (hadm r hr).resolve_left (not_le.mpr hlt)

/-- Such a row lies above the sequence that the client resumed from, and a live stream
finds it on its way. -/
theorem of_unread {f : Feed g} {r : OutboxEvent} (h : unread f s r = false)
    (htells : tells s.paymentHash r = true) (hat : s.attachedAt ≤ r.sequence) :
    start s < r.sequence ∧
      (s.phase = .live → s.cursor < r.sequence → r.sequence ∉ f.ingest.dropped) := by
  simp only [unread, htells, hat, decide_true, Bool.true_and, Bool.or_eq_false_iff,
    decide_eq_false_iff_not, not_le] at h
  constructor
  · unfold start
    cases hr : s.resume with
    | none =>
        simp only [Option.getD_none]
        omega
    | some c => simpa [hr] using h.1
  · intro hp hc hmem
    simp [isLive, hp, hc, hmem] at h

theorem pageOk_fetch (hf : DbFacts g db) (cursor : ℤ) :
    PageOk db cursor (fetchAfterBatch db.outbox cursor) := by
  have hdistinct : db.outbox.Pairwise fun a b => a.sequence ≠ b.sequence :=
    hf.sequenced.increasing.imp fun hlt => hlt.ne
  exact ⟨fun x hx => (mem_page hx).2, page_pairwise hdistinct,
    fun r hr hc => page_complete hdistinct hr hc⟩

/-- The next row of a page, and the rest of it. -/
theorem PageOk.next {rows : List OutboxEvent} (h : PageOk db s.cursor (row :: rows)) :
    s.cursor < row.sequence ∧ PageOk db row.sequence rows ∧
      ∀ r ∈ db.outbox, s.cursor < r.sequence → row.sequence ≤ r.sequence := by
  obtain ⟨habove, hord, hcomplete⟩ := h
  obtain ⟨hfirst, hrest⟩ := List.pairwise_cons.mp hord
  have hlt := habove row List.mem_cons_self
  refine ⟨hlt, ⟨hfirst, hrest, fun r hr hc => ?_⟩, fun r hr hc => ?_⟩
  · rcases hcomplete r hr (hlt.trans hc) with hmem | hall
    · rcases List.mem_cons.mp hmem with rfl | hmem
      · exact absurd hc (lt_irrefl _)
      · exact .inl hmem
    · exact .inr fun x hx => hall x (List.mem_cons_of_mem _ hx)
  · rcases hcomplete r hr hc with hmem | hall
    · rcases List.mem_cons.mp hmem with rfl | hmem
      · exact le_rfl
      · exact (hfirst r hmem).le
    · exact (hall row List.mem_cons_self).le

theorem Followed.step {f : Feed g} {i : ℕ} {x : StreamStep} (hok : FeedOk f)
    (hg : Grounded g f.db f.ingest s) (hget : f.streams[i]? = some s)
    (hadm : unbroken f (.stream i x) = true) (hI : Followed f.db f.ingest s)
    (h : Stepped f.db s x t) : Followed f.db f.ingest t := by
  have hphase := hI.phase
  have hbelow (row : OutboxEvent) (htaken : taken s x = some row) (r : OutboxEvent)
      (hr : r ∈ f.db.outbox) (hlt : r.sequence < row.sequence) : unread f s r = false :=
    unbroken_taken hget hadm htaken hr hlt
  cases h with
  | lookedUp hp =>
      rw [hp] at hphase
      exact hI.goto rfl rfl rfl rfl rfl hphase
  | kept hp _ _ hph =>
      rw [hp] at hphase
      refine hI.goto rfl rfl rfl rfl rfl ?_
      rcases hph with ⟨-, rfl⟩ | ⟨-, rfl⟩
      · trivial
      · exact hphase
  | reported hp _ _ _ hgo =>
      rw [hp] at hphase
      refine hI.goto rfl rfl rfl rfl rfl ?_
      rcases hgo with ⟨rfl, -⟩ | ⟨rfl, -⟩
      · trivial
      · exact hphase
  | @drained first hp hnil =>
      refine hI.goto rfl rfl rfl rfl rfl ?_
      have hwaiting : Waiting f.db f.ingest s := by
        intro r hr _ _ hc
        have hle := page_eq_nil (by decide) hnil hr
        exact absurd hc (not_lt.mpr hle)
      cases first <;> exact hwaiting
  | @paged first rows hp hrows _ =>
      refine hI.goto rfl rfl rfl rfl rfl ?_
      subst hrows
      exact pageOk_fetch hok.facts s.cursor
  | @scanned row rows first accepted _ hp hh =>
      rw [hp] at hphase
      obtain ⟨hlt, hrest, hnone⟩ := PageOk.next hphase
      have hrow : row ∈ f.db.outbox := by
        have hrows := hg.phase
        rw [hp] at hrows
        exact hrows row List.mem_cons_self
      have htaken : taken s (.scan accepted) = some row := by simp only [taken, hp]
      refine hI.handled hok.facts hrow hlt (fun r hr _ _ hc => hnone r hr hc) ?_ ?_ hh
      · intro r hr htells hat hrlt
        exact (of_unread (hbelow row htaken r hr hrlt) htells hat).1
      · cases rows with
        | nil => trivial
        | cons r rows => exact hrest
  | @skipped row rest accepted hp hlag hb hle =>
      rw [hp] at hphase
      refine hI.goto rfl rfl rfl rfl rfl ?_
      simp only [hp]
      intro r hr htells hs hc
      obtain ⟨hat, hwait⟩ := hphase r hr htells hs hc
      refine ⟨hat, hwait.imp_right fun hway => ?_⟩
      unfold OnTheWay at hway ⊢
      rw [hb, List.map_cons, List.cons_append, List.mem_cons] at hway
      refine hway.imp_right fun hway => hway.resolve_left fun heq => ?_
      simp only at hc
      omega
  | @received row rest accepted _ hp hlag hb hlt hh =>
      rw [hp] at hphase
      have hrow : row ∈ f.db.outbox := hg.buffer row (hb ▸ List.mem_cons_self)
      have htaken : taken s (.receive accepted) = some row := by
        simp only [taken, hp, hlag, hb, hlt, if_true]
      have hord := hg.ordered
      rw [hb, List.map_cons, List.cons_append] at hord
      -- What is on its way behind the first of the buffer comes later.
      have hway {r : OutboxEvent} (hr : r ∈ f.db.outbox) (htells : tells s.paymentHash r = true)
          (hs : start s < r.sequence) (hc : s.cursor < r.sequence) :
          s.attachedAt ≤ r.sequence ∧ (r.sequence ∈ f.ingest.dropped ∨ r.sequence = row.sequence ∨
            r.sequence ∈ rest.map OutboxEvent.sequence ++ pending f.ingest) := by
        obtain ⟨hat, hwait⟩ := hphase r hr htells hs hc
        refine ⟨hat, ?_⟩
        have hway := hwait.resolve_left (by simp [hlag])
        unfold OnTheWay at hway
        rwa [hb, List.map_cons, List.cons_append, List.mem_cons] at hway
      have hpop : Followed f.db f.ingest { s with buffer := rest, phase := .closed } :=
        hI.goto rfl rfl rfl rfl rfl trivial
      refine hpop.handled (k := .live) hok.facts hrow hlt ?_ ?_ ?_ (hh.anyPhase .closed)
      · intro r hr htells hs hc
        by_contra hno
        have hrlt : r.sequence < row.sequence := not_le.mp hno
        obtain ⟨hat, hdrop | heq | hrest⟩ := hway hr htells hs hc
        · exact (of_unread (hbelow row htaken r hr hrlt) htells hat).2 hp hc hdrop
        · exact hno heq.ge
        · exact hno ((List.pairwise_cons.mp hord).1 _ hrest).le
      · intro r hr htells hat hrlt
        exact (of_unread (hbelow row htaken r hr hrlt) htells hat).1
      · intro r hr htells hs hc
        simp only at hc
        obtain ⟨hat, hdrop | heq | hrest⟩ := hway hr htells hs (hlt.trans hc)
        · exact ⟨hat, .inr (.inl hdrop)⟩
        · omega
        · exact ⟨hat, .inr (.inr hrest)⟩
  | @overflowed n hopen _ _ =>
      refine hI.goto rfl rfl rfl rfl rfl ?_
      have hlagged (hw : Waiting f.db f.ingest s) :
          Waiting f.db f.ingest { s with buffer := s.buffer.drop n, lagged := true } := by
        intro r hr htells hs hc
        exact ⟨(hw r hr htells hs hc).1, .inl rfl⟩
      change PhaseFollowed _ _ _ s.phase
      cases hp : s.phase with
      | lookingUp | lookedUp _ _ | live =>
          rw [hp] at hphase
          exact hlagged hphase
      | scanning _ _ | paying _ =>
          rw [hp] at hphase
          exact hphase
      | counting _ | paging _ | closed => trivial
  | counted _ _ | refused _ _ | paid _ | told _ _ | failedCount _ | failedPage _ | left _ =>
      exact hI.goto rfl rfl rfl rfl rfl trivial

/-- The cursor only moves up. -/
theorem Followed.cursor_le {x : StreamStep} (hI : Followed db ingest s)
    (h : Stepped db s x t) : s.cursor ≤ t.cursor := by
  cases h with
  | @scanned row rows first accepted _ hp hh =>
      have hphase := hI.phase
      rw [hp] at hphase
      obtain ⟨-, hc, -⟩ := hh.frame
      rw [hc]
      exact (hphase.above row List.mem_cons_self).le
  | received _ _ _ hlt hh =>
      obtain ⟨-, hc, -⟩ := hh.frame
      rw [hc]
      exact hlt.le
  | _ => exact le_rfl

theorem followed_run {es : List (FeedEvent g)} {f : Feed g} (hrun : Feeds unbroken es f) :
    ∀ s ∈ f.streams, Followed f.db f.ingest s := by
  refine (stream_invariant (J := Followed) ?_ ?_ ?_ hrun).2
  · exact fun f input c resume h hok _ => .attach hok.facts h resume
  · exact fun f e db ingest φ s hok hs _ hsur hI => hI.surrounded hok (hok.streams s hs) hsur
  · exact fun f i x s t hok hs hget hadm hstep hI => hI.step hok (hok.streams s hs) hget hadm hstep

/-! ### Recovery -/

/-- A processed row before another one with a status has announced `PENDING`. -/
theorem Followed.told_before (hI : Followed db ingest s) (hreplayed : Replayed s)
    {r x : OutboxEvent} {st st' : InvoicePaymentStatus} (hr : r ∈ s.processed)
    (hx : x ∈ s.processed) (hlt : r.sequence < x.sequence)
    (hst : statusOf s.paymentHash r = some st) (hst' : statusOf s.paymentHash x = some st') :
    st = .pending := by
  have hshaped : Shaped (s.processed.filterMap (statusOf s.paymentHash)) :=
    hreplayed.shaped.sublist (told_sublist s)
  have hpairs := List.pairwise_filterMap.mp hshaped
  exact rel_of_key_lt hI.ordered hpairs hr hx hlt st hst st' hst'

/-- A status that is in hand belongs to the last processed row. -/
theorem Followed.not_inHand (hI : Followed db ingest s) (hg : Grounded g db ingest s)
    (hreplayed : Replayed s) {r x : OutboxEvent} {st : InvoicePaymentStatus}
    (hmem : r ∈ s.processed) (hx : x ∈ s.processed) (hlt : r.sequence < x.sequence)
    (hst : statusOf s.paymentHash r = some st) : st ∉ inHand s := by
  intro hhand
  have hphase := hI.phase
  cases hp : s.phase with
  | paying row =>
      rw [hp] at hphase
      obtain ⟨l, hl⟩ := hphase
      have hrow : row ∈ s.processed := by
        rw [hl]
        exact List.mem_append_right _ (List.mem_singleton_self row)
      have hle : x.sequence ≤ row.sequence := by
        have hord := hI.ordered
        rw [hl] at hx hord
        rcases List.mem_append.mp hx with hx | hx
        · exact ((List.pairwise_append.mp hord).2.2 x hx row (List.mem_singleton_self row)).le
        · obtain rfl := List.mem_singleton.mp hx
          exact le_rfl
      have hpaid : statusOf s.paymentHash row = some .paid := by
        have hground := hg.phase
        rw [hp] at hground
        exact statusOf_eq_some.mpr hground.2
      have hpending := hI.told_before hreplayed hmem hrow (hlt.trans_le hle) hst hpaid
      simp [inHand, hp, hpending] at hhand
  | _ =>
      simp [inHand, hp] at hhand

/-- In every run in which no stream takes a row while an earlier one will not be read,
the gaps of the ingest task do no harm: before a row that a stream has processed, every
row about its invoice that was committed since the stream was attached has been
processed too, and its status was sent. -/
theorem gaps_are_recovered (g : Deployment) (es : List (FeedEvent g)) (f : Feed g)
    (hrun : Feeds unbroken es f) :
    ∀ s ∈ f.streams, ∀ x ∈ s.processed, ∀ r ∈ f.db.outbox, s.attachedAt ≤ r.sequence →
      r.sequence < x.sequence → ∀ st, statusOf s.paymentHash r = some st →
        r ∈ s.processed ∧ st ∈ s.statuses := by
  intro s hs x hx r hr hat hlt st hst
  have hI := followed_run hrun s hs
  have hreplayed := replayed_run hrun s hs
  have htells : tells s.paymentHash r = true := by simp only [tells, hst, Option.isSome_some]
  have hmem : r ∈ s.processed := by
    apply hI.complete r hr htells
    · exact hI.reached x hx r hr htells hat hlt
    · exact hlt.le.trans (hI.bounded x hx).2
  have htold := hreplayed.told hmem hst
  refine ⟨hmem, (List.mem_append.mp htold).resolve_right ?_⟩
  exact hI.not_inHand ((feedOk_run hrun).streams s hs) hreplayed hmem hx hlt hst

/-- The session is set up; or it is set up again after it was lost. -/
def listen : List (FeedEvent Sample.deployment) := [.relay (.connect true), .relay (.listen true)]

def reconnect : List (FeedEvent Sample.deployment) := [.relay .forward, .relay .wake] ++ listen

/-- A client subscribes to the sample invoice and is told its status. -/
def follow : List (FeedEvent Sample.deployment) :=
  [.subscribe (.byHash Sample.hash) true none, .stream 0 (.lookUp true),
    .stream 0 (.derive Sample.noon true)]

/-- The next notification makes its way to the streams. -/
def relayRow : List (FeedEvent Sample.deployment) :=
  [.relay .forward, .ingest .served, .ingest .served]

/-- The row of the hold is dropped, that of the settlement overwritten in the buffer, and
a backfill finds both. -/
def recoveredRun : List (FeedEvent Sample.deployment) :=
  listen ++ (Sample.issueInvoice 0).map .app ++ follow ++ [.relay .lose] ++
    ((SingleCredit.settleHtlc 1).take 5).map .app ++ reconnect ++
    ((SingleCredit.settleHtlc 1).drop 5).map .app ++ relayRow ++
    [.stream 0 (.overflow 1), .stream 0 (.receive true), .stream 0 (.count true true),
      .stream 0 (.page true), .stream 0 (.scan true), .stream 0 (.scan true)]

theorem gaps_are_recovered_backfill :
    ∃ f, Feeds unbroken recoveredRun f ∧ ∃ s ∈ f.streams, ∃ r ∈ s.processed,
      r.domainEvent = .lightningHtlcHeld ∧ r.sequence ∈ f.ingest.dropped ∧
      .pending ∈ s.statuses := by
  obtain ⟨f, hrun, hc⟩ := exists_run_of_play Feed.next unbroken (Feed.boot Sample.deployment)
    recoveredRun (fun f => f.streams.any fun s => s.processed.any fun x => f.db.outbox.any fun r =>
      decide (s.attachedAt ≤ r.sequence ∧ r.sequence < x.sequence ∧
        statusOf s.paymentHash r = some .pending ∧ r.domainEvent = .lightningHtlcHeld ∧
        r.sequence ∈ f.ingest.dropped)) (by decide +kernel)
  obtain ⟨s, hs, hc⟩ := List.any_eq_true.mp hc
  obtain ⟨x, hx, hc⟩ := List.any_eq_true.mp hc
  obtain ⟨r, hr, hc⟩ := List.any_eq_true.mp hc
  obtain ⟨hat, hlt, hst, hheld, hdrop⟩ := of_decide_eq_true hc
  obtain ⟨hmem, hsent⟩ := gaps_are_recovered Sample.deployment recoveredRun f hrun s hs x hx r hr
    hat hlt .pending hst
  exact ⟨f, hrun, s, hs, r, hmem, hheld, hdrop, hsent⟩

/-- The rows of the settlement commit while the session is down. When it is up again, a
payment adds a row, which the stream receives. -/
def missedRun : List (FeedEvent Sample.deployment) :=
  listen ++ ((Sample.sendUpToMessage 0).take 7).map .app ++ (Sample.issueInvoice 1).map .app ++
    follow ++ [.relay .lose] ++ (SingleCredit.settleHtlc 2).map .app ++ reconnect ++
    [.app (.step 0 (.served Sample.noon))] ++ relayRow ++ [.stream 0 (.receive true)]

/-- The invoice is paid, and its row lies below a row that the stream has processed, but
the client has not been told, and nothing is on its way to it. -/
theorem settlement_skipped :
    ∃ f, Feeds (fun _ _ => true) missedRun f ∧
      ∃ s ∈ f.streams, ∃ x ∈ s.processed, ∃ r ∈ f.db.outbox,
        s.attachedAt ≤ r.sequence ∧ r.sequence < x.sequence ∧
        r.domainEvent = .lightningInvoiceSettled ∧ statusOf s.paymentHash r = some .paid ∧
        r.sequence ∉ s.processed.map OutboxEvent.sequence ∧ s.statuses = [.pending] ∧
        isLive s = true ∧ s.lagged = false ∧ s.buffer.isEmpty = true ∧ pending f.ingest = [] := by
  obtain ⟨f, hrun, hc⟩ := exists_run_of_play Feed.next (fun _ _ => true)
    (Feed.boot Sample.deployment) missedRun
    (fun f => f.streams.any fun s => s.processed.any fun x => f.db.outbox.any fun r =>
      decide (s.attachedAt ≤ r.sequence ∧ r.sequence < x.sequence ∧
        r.domainEvent = .lightningInvoiceSettled ∧ statusOf s.paymentHash r = some .paid ∧
        r.sequence ∉ s.processed.map OutboxEvent.sequence ∧ s.statuses = [.pending] ∧
        isLive s = true ∧ s.lagged = false ∧ s.buffer.isEmpty = true ∧ pending f.ingest = []))
    (by decide +kernel)
  obtain ⟨s, hs, hc⟩ := List.any_eq_true.mp hc
  obtain ⟨x, hx, hc⟩ := List.any_eq_true.mp hc
  obtain ⟨r, hr, hc⟩ := List.any_eq_true.mp hc
  exact ⟨f, hrun, s, hs, x, hx, r, hr, of_decide_eq_true hc⟩

end LightningGateway.FeedGaps
