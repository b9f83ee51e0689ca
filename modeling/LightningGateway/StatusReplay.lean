import LightningGateway.FeedInvariant

/-!
# What a client is told is a function of what its stream observed

A stream observes the status of the aggregate once, and the statuses of the rows that
move its cursor. In every run what it has sent is what an emitter lets through of
these observations, however the rows reached the stream. All observations but the
last are `PENDING`.
-/
namespace LightningGateway.StatusReplay
open Primitives OutboxRows GatewayStore GatewayMachine
open StatusMapping StatusFeed FeedSteps FeedInvariant

/-! ### Sequences of statuses -/

abbrev AllPending (l : List InvoicePaymentStatus) : Prop := ∀ st ∈ l, st = .pending

/-- Every status but the last is `PENDING`. -/
def Shaped (l : List InvoicePaymentStatus) : Prop := l.Pairwise fun st _ => st = .pending

variable {l l' : List InvoicePaymentStatus} {st : InvoicePaymentStatus}

theorem AllPending.shaped (h : AllPending l) (st : InvoicePaymentStatus) : Shaped (l ++ [st]) := by
  refine List.pairwise_append.mpr ⟨?_, List.pairwise_singleton _ _, fun a ha _ _ => h a ha⟩
  exact List.pairwise_of_forall_mem_list fun a ha _ _ => h a ha

theorem Shaped.init (h : Shaped (l ++ [st])) : AllPending l := by
  intro a ha
  exact (List.pairwise_append.mp h).2.2 a ha st (List.mem_singleton_self st)

theorem after_concat (e : StatusEmitter) (l : List InvoicePaymentStatus)
    (st : InvoicePaymentStatus) : e.after (l ++ [st]) = ⟨some st⟩ := by
  simp [StatusEmitter.after]

theorem feed_concat (e : StatusEmitter) (l : List InvoicePaymentStatus)
    (st : InvoicePaymentStatus) :
    e.feed (l ++ [st]) = e.feed l ++ ((e.after l).next st).1.toList := by
  rw [StatusEmitter.feed_append, StatusEmitter.feed, StatusEmitter.feed, List.append_nil]

/-- An emitter only leaves out. -/
theorem feed_sublist (e : StatusEmitter) (l : List InvoicePaymentStatus) :
    (e.feed l).Sublist l := by
  induction l generalizing e with
  | nil => exact .slnil
  | cons st rest ih =>
      have hrest := ih (e.next st).2
      rw [StatusEmitter.feed]
      cases h : (e.next st).1 with
      | none => exact hrest.cons st
      | some s =>
          obtain ⟨rfl, -⟩ := StatusEmitter.next_fst h
          exact hrest.cons_cons s

theorem feed_pending (h : AllPending l) (hne : l ≠ []) :
    StatusEmitter.default.feed l = [.pending] ∧ StatusEmitter.default.after l = ⟨some .pending⟩ := by
  obtain ⟨init, st, rfl⟩ := (List.eq_nil_or_concat' l).resolve_left hne
  obtain rfl : st = .pending := h st (by simp)
  refine ⟨?_, after_concat _ _ _⟩
  cases init with
  | nil => rfl
  | cons st rest =>
      obtain rfl : st = .pending := h st (by simp)
      have hrest : (StatusEmitter.mk (some .pending)).feed (rest ++ [.pending]) = [] := by
        apply StatusEmitter.feed_repeated
        intro s hs
        rw [h s (List.mem_cons_of_mem _ hs)]
      have hnext : StatusEmitter.default.next .pending = (some .pending, ⟨some .pending⟩) := rfl
      rw [List.cons_append, StatusEmitter.feed, hnext, hrest]
      rfl

/-- Of such a sequence an emitter lets each status through once. -/
theorem feed_shaped (h : Shaped l) :
    StatusEmitter.default.feed l = [.pending, .paid, .expired].filter (· ∈ l) := by
  rcases List.eq_nil_or_concat' l with rfl | ⟨init, st, rfl⟩
  · rfl
  have hinit : AllPending init := h.init
  rcases eq_or_ne init [] with rfl | hne
  · cases st <;> rfl
  · obtain ⟨hfeed, hafter⟩ := feed_pending hinit hne
    have hpending : InvoicePaymentStatus.pending ∈ init := by
      obtain ⟨a, ha⟩ := List.exists_mem_of_ne_nil init hne
      exact hinit a ha ▸ ha
    have hno {s : InvoicePaymentStatus} (hs : s ≠ .pending) : s ∉ init := fun hmem =>
      hs (hinit s hmem)
    have hpaid := hno (s := .paid) (by decide)
    have hexpired := hno (s := .expired) (by decide)
    rw [feed_concat, hfeed, hafter]
    cases st <;> simp [StatusEmitter.next, hpending, hpaid, hexpired]

/-- Once `PENDING`, if at all, and then at most one other status. -/
theorem Shaped.split (h : Shaped l) (hn : l.Nodup) :
    ∃ a b, l = a ++ b ∧ (a = [] ∨ a = [.pending]) ∧ (b = [] ∨ b = [.paid] ∨ b = [.expired]) := by
  rcases List.eq_nil_or_concat' l with rfl | ⟨init, st, rfl⟩
  · exact ⟨[], [], rfl, .inl rfl, .inl rfl⟩
  have hinit : init = [] ∨ init = [.pending] := by
    have hrep : init = List.replicate init.length .pending := List.eq_replicate_of_mem h.init
    have hlen : init.length ≤ 1 := by
      have hnodup := (List.nodup_append.mp hn).1
      rw [hrep] at hnodup
      exact List.nodup_replicate.mp hnodup
    obtain hlen | hlen : init.length = 0 ∨ init.length = 1 := by omega
    · exact .inl (List.length_eq_zero_iff.mp hlen)
    · rw [hrep, hlen]
      exact .inr rfl
  cases st with
  | paid => exact ⟨init, _, rfl, hinit, .inr (.inl rfl)⟩
  | expired => exact ⟨init, _, rfl, hinit, .inr (.inr rfl)⟩
  | pending =>
      rcases hinit with rfl | rfl
      · exact ⟨[.pending], [], rfl, .inr rfl, .inl rfl⟩
      · simp at hn

/-- What is let through depends only on which statuses occur. -/
theorem feed_eq_of_mem (h : Shaped l) (h' : Shaped l') (hmem : ∀ st, st ∈ l ↔ st ∈ l') :
    StatusEmitter.default.feed l = StatusEmitter.default.feed l' := by
  rw [feed_shaped h, feed_shaped h']
  apply List.filter_congr
  intro st _
  simp only [hmem st]

theorem mem_feed_of_shaped (h : Shaped l) :
    st ∈ StatusEmitter.default.feed l ↔ st ∈ l := by
  rw [feed_shaped h, List.mem_filter, decide_eq_true_eq]
  refine and_iff_right ?_
  cases st <;> simp

/-! ### Observations -/

/-- The status that a row announces to the clients of `h`. -/
def statusOf (h : PaymentHash) (row : OutboxEvent) : Option InvoicePaymentStatus :=
  if row.referenceId = h.toHex then statusFromEvent row.domainEvent else none

/-- A fresh stream starts with the status of the aggregate. A resumed one looks at it
after its rows, and only when it is terminal. -/
def observations (resume : Option ℤ) (derived : Option InvoicePaymentStatus)
    (rows : List InvoicePaymentStatus) : List InvoicePaymentStatus :=
  match resume with
  | none => derived.toList ++ rows
  | some _ => rows ++ (derived.filter isTerminal).toList

variable {g : Deployment} {db : Db} {s t : StatusStream} {row : OutboxEvent} {k : Phase}
  {first : Bool}

def observed (s : StatusStream) : List InvoicePaymentStatus :=
  observations s.resume s.derived (s.processed.filterMap (statusOf s.paymentHash))

/-- `PAID` is to be sent as soon as the invoice has been read. -/
def inHand (s : StatusStream) : List InvoicePaymentStatus :=
  match s.phase with
  | .paying _ => [.paid]
  | _ => []

/-- The aggregate has not been looked at yet, or it was `PENDING`. -/
def Undecided (resume : Option ℤ) (derived : Option InvoicePaymentStatus) : Bool → Prop
  | true => derived = none ∧ resume ≠ none
  | false => derived = some .pending

/-- What a phase knows about the observations so far. -/
def PhaseTold (resume : Option ℤ) (derived : Option InvoicePaymentStatus)
    (observed : List InvoicePaymentStatus) : Phase → Prop
  | .lookingUp | .lookedUp _ _ => derived = none ∧ AllPending observed
  | .counting first | .paging first | .scanning _ first =>
      Undecided resume derived first ∧ AllPending observed
  | .live => Undecided resume derived false ∧ AllPending observed
  | .paying _ | .closed => True

structure Replayed (s : StatusStream) : Prop where
  emitter : s.emitter = StatusEmitter.default.after (observed s)
  sent : s.statuses ++ inHand s = StatusEmitter.default.feed (observed s)
  shaped : Shaped (observed s)
  fresh : s.resume = none → s.derived = some .pending ∨ (s.processed = [] ∧ s.cursor = 0)
  phase : PhaseTold s.resume s.derived (observed s) s.phase

/-! ### Steps -/

theorem statusOf_eq_some :
    statusOf s.paymentHash row = some st ↔
      About s row ∧ statusFromEvent row.domainEvent = some st := by
  unfold statusOf About
  split_ifs with href <;> simp [href]

theorem observations_concat {resume : Option ℤ} {derived : Option InvoicePaymentStatus}
    (hd : derived = none ∨ derived = some .pending) (rows more : List InvoicePaymentStatus) :
    observations resume derived (rows ++ more) = observations resume derived rows ++ more := by
  have hfilter : derived.filter isTerminal = none := by rcases hd with rfl | rfl <;> rfl
  cases resume with
  | none => exact (List.append_assoc _ _ _).symm
  | some c => simp only [observations, hfilter, Option.toList_none, List.append_nil]

theorem Undecided.derived (h : Undecided s.resume s.derived first) :
    s.derived = none ∨ s.derived = some .pending := by
  cases first with
  | true => exact .inl h.1
  | false => exact .inr h

theorem Undecided.fresh (h : Undecided s.resume s.derived first) (hr : s.resume = none) :
    s.derived = some .pending := by
  cases first with
  | true => exact absurd hr h.2
  | false => exact h

/-- A row adds the status it announces to the observations. -/
theorem observed_row (hu : Undecided s.resume s.derived first) (hh : t.paymentHash = s.paymentHash)
    (hr : t.resume = s.resume) (hd : t.derived = s.derived)
    (hp : t.processed = s.processed ++ [row]) :
    observed t = observed s ++ (statusOf s.paymentHash row).toList := by
  unfold observed
  rw [hh, hr, hd, hp, List.filterMap_append, observations_concat hu.derived]
  cases h : statusOf s.paymentHash row <;> simp [h]

theorem statuses_concat (m : Emission) (l : List Emission) :
    (l ++ [m]).filterMap (fun m => m.payload.status) =
      l.filterMap (fun m => m.payload.status) ++ m.payload.status.toList := by
  rw [List.filterMap_append]
  cases h : m.payload.status <;> simp [h]

/-- The last status let through is the last one observed. -/
theorem Replayed.last_mem (hI : Replayed s) (hl : s.emitter.last = some st) : st ∈ observed s := by
  rw [hI.emitter] at hl
  have hlast : (observed s).getLast? = some st := by
    simpa [StatusEmitter.after, StatusEmitter.default] using hl
  exact List.mem_of_getLast? hlast

theorem allPending_concat (h : AllPending l) : AllPending (l ++ [.pending]) := by
  intro a ha
  rcases List.mem_append.mp ha with ha | ha
  · exact h a ha
  · exact List.mem_singleton.mp ha

/-- What a row does to a stream that goes on with `k`. -/
theorem Replayed.handled (hI : Replayed s) (hu : Undecided s.resume s.derived first)
    (hpend : AllPending (observed s)) (hopen : inHand s = [])
    (hk : ∀ l, AllPending l → PhaseTold s.resume s.derived l k)
    (hkopen : ∀ r, k ≠ .paying r) (h : Handled db s row k t) : Replayed t := by
  obtain ⟨⟨hh, hr, -, hd, -, -⟩, -, hp, -⟩ := h.frame
  have hobs := observed_row hu hh hr hd hp
  have hut : Undecided t.resume t.derived first := by rwa [hr, hd]
  have hkt {l : List InvoicePaymentStatus} (hl : AllPending l) :
      PhaseTold t.resume t.derived l k := by
    rw [hr, hd]
    exact hk l hl
  have hfresh : t.resume = none → t.derived = some .pending ∨ (t.processed = [] ∧ t.cursor = 0) := by
    intro hnone
    exact .inl (hut.fresh hnone)
  have hsent := hI.sent
  rw [hopen, List.append_nil] at hsent
  have hlast := hI.emitter
  have hkhand {u : StatusStream} (hu : u.phase = k) : inHand u = [] := by
    unfold inHand
    rw [hu]
    cases k with
    | paying r => exact absurd rfl (hkopen r)
    | _ => rfl
  cases h with
  | quiet hq =>
      cases hst : statusOf s.paymentHash row with
      | none =>
          rw [hst, Option.toList_none, List.append_nil] at hobs
          refine ⟨?_, ?_, ?_, hfresh, hkt (hobs ▸ hpend)⟩
          · rw [hobs]
            exact hlast
          · rw [hobs, hkhand rfl, List.append_nil]
            exact hsent
          · rw [hobs]
            exact hI.shaped
      | some st =>
          -- The status repeats the last one, which was `PENDING`.
          obtain ⟨ha, hev⟩ := statusOf_eq_some.mp hst
          have hrep : (StatusEmitter.default.after (observed s)).last = some st :=
            hlast ▸ hq ha st hev
          have hpending : st = .pending := hpend st (hI.last_mem (hq ha st hev))
          subst hpending
          have hall := allPending_concat hpend
          rw [hst, Option.toList_some] at hobs
          refine ⟨?_, ?_, ?_, hfresh, hkt (hobs ▸ hall)⟩
          · rw [hobs, after_concat, ← hrep]
            exact hlast
          · rw [hobs, hkhand rfl, List.append_nil, feed_concat, StatusEmitter.next_same hrep,
              Option.toList_none, List.append_nil]
            exact hsent
          · rw [hobs]
            exact hpend.shaped _
  | paying ha hev hne =>
      have hst : statusOf s.paymentHash row = some .paid := statusOf_eq_some.mpr ⟨ha, hev⟩
      rw [hst, Option.toList_some] at hobs
      refine ⟨?_, ?_, ?_, hfresh, trivial⟩
      · rw [hobs, after_concat]
      · rw [hobs, feed_concat, ← hsent, StatusEmitter.next_new (hlast ▸ hne)]
        rfl
      · rw [hobs]
        exact hpend.shaped .paid
  | @emitted st gone phase ha hev hpaid hne hgo =>
      have hst : statusOf s.paymentHash row = some st := statusOf_eq_some.mpr ⟨ha, hev⟩
      rw [hst, Option.toList_some] at hobs
      have hhand {u : StatusStream} (hu : u.phase = phase) : inHand u = [] := by
        rcases hgo with ⟨rfl, -⟩ | ⟨rfl, -⟩
        · unfold inHand
          rw [hu]
        · exact hkhand hu
      refine ⟨?_, ?_, ?_, hfresh, ?_⟩
      · rw [hobs, after_concat]
      · rw [hobs, hhand rfl, List.append_nil, feed_concat, ← hsent,
          StatusEmitter.next_new (hlast ▸ hne)]
        unfold StatusStream.statuses
        rw [statuses_concat, buildPayload_status]
      · rw [hobs]
        exact hpend.shaped st
      · rcases hgo with ⟨rfl, -⟩ | ⟨rfl, rfl⟩
        · trivial
        · apply hkt
          rw [hobs]
          exact allPending_concat hpend

theorem Replayed.attach (db : Db) (h : PaymentHash) (resume : Option ℤ) :
    Replayed (.attach db h resume) := by
  have hobs : observed (.attach db h resume) = [] := by cases resume <;> rfl
  have hpend : AllPending (observed (.attach db h resume)) := by
    rw [hobs]
    exact fun st hst => by cases hst
  refine ⟨?_, ?_, ?_, fun hnone => .inr ⟨rfl, ?_⟩, ?_⟩
  · rw [hobs]
    rfl
  · rw [hobs]
    cases resume <;> rfl
  · rw [hobs]
    exact .nil
  · cases hnone
    rfl
  · cases resume with
    | none => exact ⟨rfl, hpend⟩
    | some c => exact ⟨⟨rfl, by simp [StatusStream.attach]⟩, hpend⟩

/-- The status of the aggregate, as the stream takes it in. -/
theorem observed_derived (hI : Replayed s) (hd : s.derived = none)
    (hsay : s.resume = none ∨ isTerminal st = true) (hh : t.paymentHash = s.paymentHash)
    (hr : t.resume = s.resume) (ht : t.derived = some st) (hp : t.processed = s.processed) :
    observed t = observed s ++ [st] := by
  unfold observed
  rw [hh, hr, hp, ht, hd]
  cases hres : s.resume with
  | none =>
      obtain hder | ⟨hproc, -⟩ := hI.fresh hres
      · cases hd.symm.trans hder
      · rw [hproc]
        rfl
  | some c =>
      have hterm : isTerminal st = true := hsay.resolve_left (by simp [hres])
      simp [observations, hterm]

/-- A step that leaves the observations as they are, between phases in which nothing
is in hand. -/
theorem Replayed.goto (hI : Replayed s) (hobs : observed t = observed s)
    (he : t.emitter = s.emitter) (hs : t.statuses = s.statuses) (hhand : inHand t = inHand s)
    (hfresh : t.resume = none → t.derived = some .pending ∨ (t.processed = [] ∧ t.cursor = 0))
    (hp : PhaseTold t.resume t.derived (observed t) t.phase) : Replayed t := by
  refine ⟨?_, ?_, ?_, hfresh, hp⟩
  · rw [he, hobs]
    exact hI.emitter
  · rw [hs, hhand, hobs]
    exact hI.sent
  · rw [hobs]
    exact hI.shaped

theorem inHand_of_phase {p : Phase} (hp : s.phase = p) (hno : ∀ r, p ≠ .paying r) :
    inHand s = [] := by
  unfold inHand
  rw [hp]
  cases p with
  | paying r => exact absurd rfl (hno r)
  | _ => rfl

/-- The status of the aggregate is not repeated: either the stream was resumed and goes
on, or the status is new. -/
theorem Replayed.kept (hI : Replayed s) (hd : s.derived = none) (hpend : AllPending (observed s))
    (hsay : (s.resume ≠ none ∧ st = .pending) ∨ s.emitter.last = some st) :
    s.resume ≠ none ∧ st = .pending := by
  rcases hsay with hsay | hlast
  · exact hsay
  · have hmem := hI.last_mem hlast
    refine ⟨fun hnone => ?_, hpend st hmem⟩
    obtain hder | ⟨hproc, -⟩ := hI.fresh hnone
    · cases hd.symm.trans hder
    · simp [observed, observations, hnone, hd, hproc] at hmem

theorem Replayed.step {x : StreamStep} (hI : Replayed s) (h : Stepped db s x t) : Replayed t := by
  have hphase := hI.phase
  cases h with
  | lookedUp hp =>
      rw [hp] at hphase
      have hhand := inHand_of_phase hp (by simp)
      exact hI.goto rfl rfl rfl hhand.symm hI.fresh hphase
  | @kept source read accepted now st phase hp hst hsay hph =>
      rw [hp] at hphase
      obtain ⟨hd, hpend⟩ := hphase
      have hhand := inHand_of_phase hp (by simp)
      obtain ⟨hres, rfl⟩ := hI.kept hd hpend hsay
      obtain rfl : phase = .live := (hph.resolve_left fun h => by cases h.1).2
      have hobs : observed { s with derived := some .pending, phase := .live } = observed s := by
        unfold observed
        cases hr : s.resume with
        | none => exact absurd hr hres
        | some c =>
            rw [hd]
            rfl
      refine hI.goto hobs rfl rfl hhand.symm (fun hnone => absurd hnone hres) ⟨rfl, ?_⟩
      rw [hobs]
      exact hpend
  | @reported source read accepted gone now st phase hp hst hsay hlast hgo =>
      rw [hp] at hphase
      obtain ⟨hd, hpend⟩ := hphase
      have hsent := hI.sent
      rw [inHand_of_phase hp (by simp), List.append_nil] at hsent
      have hemitter := hI.emitter
      set u : StatusStream := { s with
        derived := some st
        emitter := ⟨some st⟩
        sent := s.sent ++ [⟨buildPayload st s.paymentHash
          (lookupInvoice source s.paymentHash read), source, some now⟩]
        gone
        phase } with hu
      have hobs : observed u = observed s ++ [st] := observed_derived hI hd hsay rfl rfl rfl rfl
      have hhand : inHand u = [] := by
        rcases hgo with ⟨rfl, -⟩ | ⟨rfl, -⟩ <;> rfl
      refine ⟨?_, ?_, ?_, fun hnone => ?_, ?_⟩
      · rw [hobs, after_concat]
      · rw [hobs, hhand, List.append_nil, feed_concat, ← hsent,
          StatusEmitter.next_new (hemitter ▸ hlast)]
        unfold StatusStream.statuses
        rw [hu, statuses_concat, buildPayload_status]
      · rw [hobs]
        exact hpend.shaped st
      · obtain hder | hproc := hI.fresh hnone
        · cases hd.symm.trans hder
        · exact .inr hproc
      · rcases hgo with ⟨rfl, -⟩ | ⟨rfl, rfl⟩
        · trivial
        · refine ⟨rfl, ?_⟩
          rw [hobs]
          exact allPending_concat hpend
  | counted hp _ =>
      rw [hp] at hphase
      have hhand := inHand_of_phase hp (by simp)
      exact hI.goto rfl rfl rfl hhand.symm hI.fresh hphase
  | refused hp _ =>
      have hhand := inHand_of_phase hp (by simp)
      refine hI.goto rfl rfl ?_ hhand.symm hI.fresh trivial
      unfold StatusStream.statuses
      rw [statuses_concat, errorPayload_status, Option.toList_none, List.append_nil]
  | @drained first hp _ =>
      rw [hp] at hphase
      have hhand := inHand_of_phase hp (by simp)
      cases first with
      | true => exact hI.goto rfl rfl rfl hhand.symm hI.fresh ⟨hphase.1.1, hphase.2⟩
      | false => exact hI.goto rfl rfl rfl hhand.symm hI.fresh hphase
  | paged hp _ _ =>
      rw [hp] at hphase
      have hhand := inHand_of_phase hp (by simp)
      exact hI.goto rfl rfl rfl hhand.symm hI.fresh hphase
  | @scanned row rows first accepted _ hp hh =>
      rw [hp] at hphase
      have hhand := inHand_of_phase hp (by simp)
      refine hI.handled hphase.1 hphase.2 hhand (fun l hl => ?_) (fun r => ?_) hh
      · cases rows <;> exact ⟨hphase.1, hl⟩
      · cases rows <;> simp [afterRow]
  | paid hp =>
      have hsent := hI.sent
      have hhand : inHand s = [.paid] := by simp only [inHand, hp]
      refine ⟨hI.emitter, ?_, hI.shaped, hI.fresh, trivial⟩
      rw [hhand] at hsent
      unfold StatusStream.statuses at hsent ⊢
      rw [statuses_concat, buildPayload_status]
      exact (List.append_nil _).trans hsent
  | told hp _ =>
      rw [hp] at hphase
      have hhand := inHand_of_phase hp (by simp)
      exact hI.goto rfl rfl rfl hhand.symm hI.fresh hphase
  | skipped hp _ _ _ => exact hI.goto rfl rfl rfl rfl hI.fresh hphase
  | @received row rest accepted _ hp _ _ _ hh =>
      rw [hp] at hphase
      have hhand := inHand_of_phase hp (by simp)
      have hpop : Replayed { s with buffer := rest } :=
        hI.goto rfl rfl rfl rfl hI.fresh (hp ▸ hphase)
      exact hpop.handled (k := .live) hphase.1 hphase.2 hhand (fun l hl => ⟨hphase.1, hl⟩)
        (by simp) hh
  | overflowed _ _ _ => exact hI.goto rfl rfl rfl rfl hI.fresh hphase
  | failedCount hp | failedPage hp | left hp =>
      have hhand := inHand_of_phase hp (by simp)
      exact hI.goto rfl rfl rfl hhand.symm hI.fresh trivial

/-- Once the aggregate was `PENDING`, it is not looked at again. -/
theorem Replayed.derived_kept {x : StreamStep} (hI : Replayed s)
    (hd : s.derived = some .pending) (h : Stepped db s x t) : t.derived = some .pending := by
  have hphase := hI.phase
  cases h with
  | kept hp _ _ _ | reported hp _ _ _ _ =>
      rw [hp] at hphase
      cases hphase.1.symm.trans hd
  | scanned _ hh | received _ _ _ _ hh =>
      obtain ⟨⟨-, -, -, hder, -⟩, -⟩ := hh.frame
      exact hder.trans hd
  | _ => exact hd

/-- A stream that is live, or was, has found the aggregate `PENDING`. -/
theorem Replayed.live_derived (hI : Replayed s) (hp : s.phase = .live) :
    s.derived = some .pending := by
  have hphase := hI.phase
  rw [hp] at hphase
  exact hphase.1

theorem Replayed.offer (hI : Replayed s) (row : OutboxEvent) : Replayed (s.offer row) := by
  unfold StatusStream.offer
  split_ifs
  · exact hI
  · exact hI.goto rfl rfl rfl rfl hI.fresh hI.phase

/-- In every run, whatever reads fail and whatever is dropped, a stream has sent what
an emitter lets through of its observations. -/
theorem replayed_run {admits : Feed g → FeedEvent g → Bool} {es : List (FeedEvent g)}
    {f : Feed g} (hrun : Feeds admits es f) : ∀ s ∈ f.streams, Replayed s := by
  refine (stream_invariant (J := fun _ _ s => Replayed s) ?_ ?_ ?_ hrun).2
  · exact fun f input c resume h _ _ => .attach f.db h resume
  · intro f e db ingest φ s _ _ _ hs hI
    cases hs with
    | @broadcast row _ _ _ _ _ => exact hI.offer row
    | _ => exact hI
  · exact fun f i x s t _ _ _ _ hstep hI => hI.step hstep

/-! ### What follows for the client -/

/-- A terminal status is the last one, and ends the stream. -/
theorem Replayed.terminal_closed (hI : Replayed s) (hst : st ∈ s.statuses)
    (hterm : isTerminal st = true) : s.phase = .closed := by
  have hphase := hI.phase
  have hmem : st ∈ observed s := by
    apply (feed_sublist _ (observed s)).subset
    rw [← hI.sent]
    exact List.mem_append_left _ hst
  have hno (hpend : AllPending (observed s)) : False := by
    rw [hpend st hmem] at hterm
    cases hterm
  cases hp : s.phase with
  | closed => rfl
  | paying row =>
      have hsent := hI.sent
      have hhand : inHand s = [.paid] := by simp only [inHand, hp]
      rw [hhand] at hsent
      have hshaped : Shaped (s.statuses ++ [.paid]) := by
        rw [hsent]
        exact hI.shaped.sublist (feed_sublist _ _)
      rw [hshaped.init st hst] at hterm
      cases hterm
  | _ =>
      rw [hp] at hphase
      exact (hno hphase.2).elim

/-- The statuses of the processed rows are among the observations, in their order. -/
theorem told_sublist (s : StatusStream) :
    (s.processed.filterMap (statusOf s.paymentHash)).Sublist (observed s) := by
  unfold observed observations
  cases s.resume with
  | none => exact List.sublist_append_right _ _
  | some c => exact List.sublist_append_left _ _

/-- The status of a processed row was sent, by this row or before, unless it is the
`PAID` that is in hand. -/
theorem Replayed.told (hI : Replayed s) {r : OutboxEvent} (hr : r ∈ s.processed)
    (hst : statusOf s.paymentHash r = some st) : st ∈ s.statuses ++ inHand s := by
  rw [hI.sent, mem_feed_of_shaped hI.shaped]
  exact (told_sublist s).subset (List.mem_filterMap.mpr ⟨r, hr, hst⟩)

/-- A closed stream takes no step. -/
theorem step_closed (hp : s.phase = .closed) (db : Db) (x : StreamStep) : s.step db x = none := by
  cases x <;> simp [StatusStream.step, StatusStream.lookUp, StatusStream.derive,
    StatusStream.count, StatusStream.page, StatusStream.scan, StatusStream.pay,
    StatusStream.receive, StatusStream.overflow, StatusStream.leave, Phase.isClosed, hp]

/-- `PENDING` at most once, and then at most one terminal status. -/
theorem Replayed.statuses_shape (hI : Replayed s) :
    ∃ a b, s.statuses = a ++ b ∧ (a = [] ∨ a = [.pending]) ∧
      (b = [] ∨ b = [.paid] ∨ b = [.expired]) := by
  have hsub : s.statuses.Sublist (StatusEmitter.default.feed (observed s)) := by
    rw [← hI.sent]
    exact List.sublist_append_left _ _
  apply Shaped.split
  · exact hI.shaped.sublist (hsub.trans (feed_sublist _ _))
  · refine List.Nodup.sublist hsub ?_
    rw [feed_shaped hI.shaped]
    exact List.Nodup.filter _ (by decide)

end LightningGateway.StatusReplay
