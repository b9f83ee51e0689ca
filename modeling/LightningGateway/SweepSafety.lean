import LightningGateway.GatewayInvariant

/-!
# The orphan-hold sweep

One task of the sweep among any other tasks. It may only conclude a payment whose lookup
it has made itself, in the way that the lookup says; it attempts every payment that it
has listed, whatever became of the attempts before; and it counts what it has concluded.
-/
namespace LightningGateway.SweepSafety
open Primitives GuardedRuns EventTables EffectPrograms TaskPools PaymentAggregate OutboxRows
open LndWire GatewayStore StoreSpecs GatewayEffects PeerCalls PaymentFlows GatewayMachine
open CallSites GatewayInvariant

/-! ### What the sweep may conclude -/

/-- The task has asked LND about the payment `k` and was told `resp`. -/
def LookedUp (past : Calls) (k : PaymentHash) (resp : SendPaymentResponse) : Prop :=
  ∃ m, Answered past (.lnd (.trackPaymentMessage k)) m ∧ readTrackMessage k m = .ok resp

/-- The state, the event and the row with which an answer of LND ends a payment. -/
inductive Verdict (k : PaymentHash) (amountSat : ℤ) (resp : SendPaymentResponse) :
    PaymentState → PaymentEvent → NewOutboxEvent → Prop where
  | completed {preimage : Preimage} (t utcNow : Timestamp) :
      resp.status = .succeeded → resp.paymentPreimage = some preimage →
      Verdict k amountSat resp .completed
        (.completed t preimage resp.feesPaidMsat resp.routeHops)
        (completedOutbox k amountSat preimage resp.feesPaidMsat resp.routeHops utcNow)
  | failed {reason : FailureReason} (t utcNow : Timestamp) :
      resp.status = .failed →
      Verdict k amountSat resp .failed (.failed t reason) (failedOutbox k amountSat reason utcNow)

/-- The event is the new one of the working copy `p'` of `p`. -/
inductive Moved (p p' : Payment) : PaymentEvent → Prop where
  | settle {preimage : Preimage} {fees : MilliSatoshi} {hops : List Hop} {t : Timestamp} :
      p.settle preimage fees hops t = .ok (.executed, p') →
      Moved p p' (.completed t preimage fees hops)
  | fail {reason : FailureReason} {t : Timestamp} :
      p.fail reason t = .ok (.executed, p') → Moved p p' (.failed t reason)

/-- The transactions of the sweep. -/
def SweepSite (past : Calls) : Op → Prop
  | .tx (.payment p' e) => ∃ k p resp state new, Answered past (.findPayment k) (.ok p) ∧
      p.state = .initiated ∧ LookedUp past k resp ∧
      Verdict k (asI64 p.amountMsat.wholeSat) resp state new e ∧ Moved p p' new
  | .tx _ => False
  | _ => True

variable {past : Calls} {k : PaymentHash} {p : Payment} {resp : SendPaymentResponse}

theorem LookedUp.later {more : Calls} (h : LookedUp past k resp) :
    LookedUp (past ++ more) k resp := by
  obtain ⟨m, hm, hread⟩ := h
  exact ⟨m, hm.later, hread⟩

theorem commitCompleted_site {preimage : Preimage} {t : Timestamp}
    (hfound : Answered past (.findPayment k) (.ok p)) (hstate : p.state = .initiated)
    (hlooked : LookedUp past k resp) (hstatus : resp.status = .succeeded)
    (hpreimage : resp.paymentPreimage = some preimage) :
    Emits SweepSite (fun _ _ => True) past
      (commitCompleted p k (asI64 p.amountMsat.wholeSat) preimage resp.feesPaidMsat resp.routeHops
        t).run := by
  unfold commitCompleted
  split
  next => trivial
  next => trivial
  next p' hp' =>
    refine now_bind trivial fun utcNow => ?_
    have hsite : SweepSite (past ++ [⟨.now, utcNow⟩]) (.tx (.payment p'
        (completedOutbox k (asI64 p.amountMsat.wholeSat) preimage resp.feesPaidMsat resp.routeHops
          utcNow))) :=
      ⟨k, p, resp, _, _, hfound.later, hstate, hlooked.later, .completed t utcNow hstatus hpreimage,
        .settle hp'⟩
    exact ⟨hsite, fun _ => trivial⟩

theorem commitFailed_site {reason : FailureReason} {t : Timestamp}
    (hfound : Answered past (.findPayment k) (.ok p)) (hstate : p.state = .initiated)
    (hlooked : LookedUp past k resp) (hstatus : resp.status = .failed) :
    Emits SweepSite (fun _ _ => True) past
      (commitFailed p k (asI64 p.amountMsat.wholeSat) reason t).run := by
  unfold commitFailed
  split
  next => trivial
  next => trivial
  next p' hp' =>
    refine now_bind trivial fun utcNow => ?_
    have hsite : SweepSite (past ++ [⟨.now, utcNow⟩]) (.tx (.payment p'
        (failedOutbox k (asI64 p.amountMsat.wholeSat) reason utcNow))) :=
      ⟨k, p, resp, _, _, hfound.later, hstate, hlooked.later, .failed t utcNow hstatus, .fail hp'⟩
    exact ⟨hsite, fun _ => trivial⟩

theorem reconcileLookup_site {lookup : Except LndError SendPaymentResponse} {t : Timestamp}
    (hfound : Answered past (.findPayment k) (.ok p)) (hstate : p.state = .initiated)
    (hlooked : ∀ resp, lookup = .ok resp → LookedUp past k resp) :
    Emits SweepSite (fun _ _ => True) past (reconcileLookup p k lookup t).run := by
  unfold reconcileLookup
  split
  next => trivial
  next => trivial
  next resp =>
    have hresp := hlooked resp rfl
    split
    next => trivial
    next => trivial
    next preimage hstatus hpreimage =>
      exact fallible_bind_any (commitCompleted_site hfound hstate hresp hstatus hpreimage)
        fun _ _ => trivial
    next hstatus =>
      exact fallible_bind_any (commitFailed_site hfound hstate hresp hstatus) fun _ _ => trivial

theorem reconcileOrphanHold_site :
    Emits SweepSite (fun _ _ => True) past (reconcileOrphanHold k).run := by
  unfold reconcileOrphanHold
  refine findPayment_bind trivial fun found => ?_
  refine ofExcept_bind (fun p hp => ?_) fun _ _ => trivial
  subst hp
  split_ifs with hstate
  · trivial
  · have hinitiated : p.state = .initiated := not_not.mp hstate
    refine now_bind trivial fun t => ?_
    refine perform_bind trivial fun elapsed => ?_
    cases elapsed with
    | true => trivial
    | false =>
        refine ⟨trivial, fun opened => ?_⟩
        cases opened with
        | error st =>
            refine reconcileLookup_site answered_last.later.later.later hinitiated ?_
            intro resp hresp
            cases hresp
        | ok u =>
            refine ⟨trivial, fun m => ?_⟩
            refine reconcileLookup_site answered_last.later.later.later.later hinitiated ?_
            intro resp hresp
            exact ⟨m, answered_last, hresp⟩

theorem sweepStranded_site (hs : List PaymentHash) (count : ℕ) :
    Emits SweepSite (fun _ _ => True) past (sweepStranded hs count).run := by
  induction hs generalizing past count with
  | nil => trivial
  | cons h hs ih =>
      refine fallible_bind (fallible_attempt (Emits.mono ?_ reconcileOrphanHold_site))
      intro past' r _
      cases r with
      | error e => exact ih count
      | ok reconciled =>
          cases reconciled with
          | true => exact ih (count + 1)
          | false => exact ih count

theorem sweepOrphanHolds_site (idle : ℕ) (limit : ℤ) :
    Emits SweepSite (fun _ _ => True) past (sweepOrphanHolds idle limit).run := by
  unfold sweepOrphanHolds
  refine now_bind trivial fun utcNow => ?_
  refine ⟨trivial, fun r => ?_⟩
  cases r with
  | error e => trivial
  | ok stranded => exact sweepStranded_site stranded 0

/-- The entry of a sweep. -/
def isSweep : Entry → Bool
  | .sweepOrphanHolds _ _ => true
  | _ => false

theorem program_site (g : Deployment) (entry : Entry) :
    Emits (S := gatewaySignature) (fun past o => isSweep entry = true → SweepSite past o)
      (fun _ _ => True) [] (program g entry) := by
  cases entry with
  | sweepOrphanHolds idle limit =>
      have hsites : Emits (S := gatewaySignature) (fun past o =>
          isSweep (.sweepOrphanHolds idle limit) = true → SweepSite past o) (fun _ _ => True) []
          (sweepOrphanHolds idle limit).run :=
        Emits.weaken (fun _ _ ho _ => ho) (sweepOrphanHolds_site idle limit)
      exact emits_bind (Emits.mono (fun _ _ _ => trivial) hsites)
  | _ =>
      refine Emits.weaken ?_ (emits_any _)
      intro _ _ _ hsweep
      cases hsweep

/-! ### One step of the sweep -/

/-- One initiated payment is ended as the task's own lookup says; no other row changes, and
one row enters the outbox. -/
inductive Concluded (past : Calls) (db db' : Db) : Prop where
  | intro {k : PaymentHash} {r : PaymentRow} {n : NewPayment} {resp : SendPaymentResponse}
      {state : PaymentState} {new : PaymentEvent} {e : NewOutboxEvent} :
      LookedUp past k resp → Verdict k (asI64 n.amountMsat.wholeSat) resp state new e →
      db.payments.lookup k = some r → PaymentLogs.PaymentLog n r.events .initiated →
      WritesPayment db db' k (r.grow state.asStr [new]) → db'.invoices = db.invoices →
      Publishes db db' e → Concluded past db db'

theorem Concluded.outbox_length {db db' : Db} (h : Concluded past db db') :
    db'.outbox.length = db.outbox.length + 1 := by
  obtain ⟨-, -, -, -, -, -, hpub⟩ := h
  rw [hpub.1, List.length_append, List.length_singleton]

theorem moved_executed {n : NewPayment} {p' : Payment} {amountSat : ℤ} {state : PaymentState}
    {new : PaymentEvent} {e : NewOutboxEvent} (ht : PaymentLogs.Tracks n p)
    (hv : Verdict k amountSat resp state new e) (h : Moved p p' new) :
    p'.id = p.id ∧ p'.state = state ∧ p'.events = p.events.push new := by
  cases hv with
  | completed t utcNow =>
      cases h with
      | settle hm =>
          obtain ⟨-, hs, hid, hev, -⟩ := PaymentLogs.settle_executed ht hm
          exact ⟨hid, hs, hev⟩
  | failed t utcNow =>
      cases h with
      | fail hm =>
          obtain ⟨-, hs, hid, hev, -⟩ := PaymentLogs.fail_executed ht hm
          exact ⟨hid, hs, hev⟩

section
variable {g : Deployment} {w w' : World}

/-- A conclusion of the sweep that goes through finds the payment as it was loaded. -/
theorem sweepSite_writes {p' q : Payment} {e : NewOutboxEvent} {clock : Timestamp} {db db' : Db}
    (hg : ∀ c ∈ past, Genuine g db c) (hsite : SweepSite past (.tx (.payment p' e)))
    (hr : (Transaction.payment p' e).run clock db = .ok (q, db')) : Concluded past db db' := by
  obtain ⟨k, p, resp, state, new, hfound, hinitiated, hlooked, hverdict, hmoved⟩ := hsite
  obtain ⟨⟨hclean, -⟩, n, hcopy⟩ := hg _ hfound
  obtain ⟨hid, hstate, hev⟩ := moved_executed hcopy.tracks hverdict hmoved
  have hfresh : p'.events.fresh = [new] := by simp [hev, hclean]
  have hpersisted : p'.events.persisted = p.events.persisted := by rw [hev]; rfl
  have hsnap : db.payments.Snapshot k p'.id p'.events.persisted := by
    rw [hid, hpersisted]
    exact hcopy.snapshot
  obtain ⟨r, hl, -, hre, hw, -, hi, hpub, -⟩ := run_payment (by simp [hfresh]) hsnap hr
  have hlog : PaymentLogs.PaymentLog n r.events .initiated := by
    have h := hcopy.tracks.log
    rw [EntityEvents.iterAll, hclean, List.append_nil, ← hpersisted, ← hre, hinitiated] at h
    exact h
  rw [hcopy.tracks.amountMsat] at hverdict
  rw [hfresh, Payment.stateStr, hstate] at hw
  exact .intro hlooked hverdict hl hlog hw hi hpub

/-- A connection that breaks while the commit is under way. -/
def isAckLost : Choice → Bool
  | .ackLost _ => true
  | _ => false

/-- A conclusion whose commit was acknowledged. -/
def acknowledged : Call gatewaySignature → Bool
  | ⟨.tx (.payment _ _), .ok _⟩ => true
  | _ => false

/-- What one call of the sweep does to the database: nothing, or it concludes a payment. The
call is told so unless the acknowledgement is lost. -/
theorem exec_sweep {o : Op} {a : o.Ans} {c : Choice} (hg : ∀ c ∈ past, Genuine g w.db c)
    (hsite : SweepSite past o) (hx : exec g.crates o c w = some (a, w')) :
    (w'.db = w.db ∧ acknowledged ⟨o, a⟩ = false) ∨
      Concluded past w.db w'.db ∧ acknowledged ⟨o, a⟩ = !isAckLost c := by
  by_cases ho : isTx o = true
  · cases o with
    | tx b =>
        cases b with
        | payment p' e =>
            obtain ⟨t, q, db', hr, rfl, ⟨rfl, rfl⟩ | ⟨rfl, rfl⟩⟩ |
              ⟨rfl, ⟨t, err, -, -, rfl⟩ | ⟨-, rfl⟩⟩ := exec_tx hx
            · exact .inr ⟨sweepSite_writes hg hsite hr, rfl⟩
            · exact .inr ⟨sweepSite_writes hg hsite hr, rfl⟩
            · exact .inl ⟨rfl, rfl⟩
            · exact .inl ⟨rfl, rfl⟩
        | _ => exact hsite.elim
    | _ => cases ho
  · refine .inl ⟨((exec_frame hx).1 (Bool.eq_false_iff.mpr ho)).1, ?_⟩
    cases o with
    | tx b => exact absurd rfl ho
    | _ => rfl

end

/-! ### One attempt for each listed payment -/

/-- One attempt after the other, each on its own payment and with its own result. -/
inductive Attempts : List PaymentHash → Calls → List (Except AppError Bool) → Prop where
  | nil : Attempts [] [] []
  | cons {h : PaymentHash} {hs : List PaymentHash} {c cs : Calls} {r : Except AppError Bool}
      {rs : List (Except AppError Bool)} :
      Traces (reconcileOrphanHold h).run c r → Attempts hs cs rs →
      Attempts (h :: hs) (c ++ cs) (r :: rs)

/-- The attempt drove its payment to an end. -/
def reconciled : Except AppError Bool → Bool
  | .ok b => b
  | .error _ => false

theorem sweepStranded_cons (h : PaymentHash) (hs : List PaymentHash) (n : ℕ) :
    sweepStranded (h :: hs) n = Fallible.attempt (reconcileOrphanHold h) >>=
      fun r => sweepStranded hs (n + if reconciled r then 1 else 0) := by
  conv_lhs => unfold sweepStranded
  congr 1
  funext r
  cases r with
  | error e => rfl
  | ok b => cases b <;> rfl

/-- The sweep is its attempts, whatever they return. -/
theorem traces_sweepStranded {hs : List PaymentHash} {n : ℕ} {calls : Calls}
    {r : Except AppError ℕ} : Traces (sweepStranded hs n).run calls r ↔
      ∃ rs, Attempts hs calls rs ∧ r = .ok (n + rs.countP reconciled) := by
  induction hs generalizing n calls r with
  | nil =>
      constructor
      · intro h
        obtain ⟨rfl, rfl⟩ := traces_pure h
        exact ⟨[], .nil, rfl⟩
      · rintro ⟨rs, hrs, rfl⟩
        cases hrs
        exact .ret
  | cons h hs ih =>
      rw [sweepStranded_cons]
      have hcount (x : Except AppError Bool) (xs : List (Except AppError Bool)) :
          n + (x :: xs).countP reconciled =
            (n + if reconciled x then 1 else 0) + xs.countP reconciled := by
        rw [List.countP_cons]
        omega
      constructor
      · intro htrace
        obtain ⟨c, x, cs, hx, hrest, rfl⟩ := traces_attempt.mp htrace
        obtain ⟨xs, hxs, rfl⟩ := ih.mp hrest
        exact ⟨x :: xs, .cons hx hxs, by rw [hcount]⟩
      · rintro ⟨rs, hrs, rfl⟩
        cases hrs with
        | @cons _ _ _ _ x xs hx hxs =>
            have hrest := (ih (n := n + if reconciled x then 1 else 0)).mpr ⟨xs, hxs, rfl⟩
            rw [hcount]
            exact traces_attempt.mpr ⟨_, _, _, hx, hrest, rfl⟩

/-- The calls with which a sweep lists the stranded payments. -/
def listing (idle : ℕ) (limit : ℤ) (utcNow : Timestamp)
    (answer : Except PaymentError (List PaymentHash)) : Calls :=
  [⟨.now, utcNow⟩, ⟨.listStrandedInitiated ⟨utcNow.nanos - idleDuration idle⟩ limit, answer⟩]

/-- A sweep either cannot list the stranded payments, or attempts each of them. -/
theorem traces_sweepOrphanHolds {idle : ℕ} {limit : ℤ} {calls : Calls} {r : Except AppError ℕ} :
    Traces (sweepOrphanHolds idle limit).run calls r ↔
      (∃ utcNow e, calls = listing idle limit utcNow (.error e) ∧ r = .error (.payment e)) ∨
      ∃ utcNow stranded attempts rs, Attempts stranded attempts rs ∧
        calls = listing idle limit utcNow (.ok stranded) ++ attempts ∧
        r = .ok (rs.countP reconciled) := by
  constructor
  · intro h
    unfold sweepOrphanHolds at h
    cases h with
    | @call _ _ utcNow _ _ hlist =>
        cases hlist with
        | @call _ _ answer rest _ hrest =>
            cases answer with
            | error e =>
                cases hrest
                exact .inl ⟨utcNow, e, rfl, rfl⟩
            | ok stranded =>
                obtain ⟨rs, hrs, rfl⟩ := traces_sweepStranded.mp hrest
                exact .inr ⟨utcNow, stranded, rest, rs, hrs, rfl, by rw [Nat.zero_add]⟩
  · rintro (⟨utcNow, e, rfl, rfl⟩ | ⟨utcNow, stranded, attempts, rs, hrs, rfl, rfl⟩)
    · exact .call (.call .ret)
    · refine .call (.call ?_)
      exact traces_sweepStranded.mpr ⟨rs, hrs, by rw [Nat.zero_add]⟩

/-! ### What is counted -/

/-- When the answers are genuine, an attempt has concluded a payment if and only if it
says so. -/
def Counts (g : Deployment) (db : Db) (past : Calls) (r : Except AppError Bool) : Prop :=
  (∀ c ∈ past, Genuine g db c) → past.countP acknowledged = if reconciled r then 1 else 0

section
variable {g : Deployment} {db : Db}

theorem countP_snoc {o : Op} {a : o.Ans} (h : past.countP acknowledged = 0)
    (ho : acknowledged ⟨o, a⟩ = false) :
    (past ++ [⟨o, a⟩] : Calls).countP acknowledged = 0 := by
  rw [List.countP_append, h, List.countP_cons_of_neg (by rw [ho]; exact nofun), List.countP_nil]

/-- The commit behind a conclusion, with the attempt's own answer. -/
theorem conclude_counts {p' : Payment} {e : NewOutboxEvent}
    (hquiet : past.countP acknowledged = 0) :
    Emits (S := gatewaySignature) (fun _ _ => True) (Counts g db) past
      (transact (.payment p' e) >>= fun _ => (pure true : App Bool)).run := by
  refine transact_bind trivial (fun q _ => ?_) fun err _ => ?_
  · rw [List.countP_append, hquiet]
    rfl
  · rw [List.countP_append, hquiet]
    rfl

theorem commitCompleted_counts {preimage : Preimage} {fees : MilliSatoshi} {hops : List Hop}
    {amountSat : ℤ} {t : Timestamp} (hquiet : past.countP acknowledged = 0)
    (hfound : Answered past (.findPayment k) (.ok p)) (hstate : p.state = .initiated) :
    Emits (S := gatewaySignature) (fun _ _ => True) (Counts g db) past
      (commitCompleted p k amountSat preimage fees hops t >>= fun _ => (pure true : App Bool)).run := by
  unfold commitCompleted
  split
  next => exact fun _ => hquiet
  next p' hset =>
    -- An initiated payment has no outcome yet, so this is no replay.
    intro hg
    obtain ⟨-, n, hcopy⟩ := hg _ hfound
    obtain ⟨q, hq⟩ := PaymentLogs.settle_live preimage fees hops t hcopy.tracks (.inl hstate)
    exact absurd (hset.symm.trans hq) (by simp)
  next p' hset => exact ⟨trivial, fun utcNow => conclude_counts (countP_snoc hquiet rfl)⟩

theorem commitFailed_counts {reason : FailureReason} {amountSat : ℤ} {t : Timestamp}
    (hquiet : past.countP acknowledged = 0)
    (hfound : Answered past (.findPayment k) (.ok p)) (hstate : p.state = .initiated) :
    Emits (S := gatewaySignature) (fun _ _ => True) (Counts g db) past
      (commitFailed p k amountSat reason t >>= fun _ => (pure true : App Bool)).run := by
  unfold commitFailed
  split
  next => exact fun _ => hquiet
  next p' hfail =>
    intro hg
    obtain ⟨-, n, hcopy⟩ := hg _ hfound
    obtain ⟨q, hq⟩ := PaymentLogs.fail_live reason t hcopy.tracks (.inl hstate)
    exact absurd (hfail.symm.trans hq) (by simp)
  next p' hfail => exact ⟨trivial, fun utcNow => conclude_counts (countP_snoc hquiet rfl)⟩

theorem reconcileLookup_counts {lookup : Except LndError SendPaymentResponse} {t : Timestamp}
    (hquiet : past.countP acknowledged = 0)
    (hfound : Answered past (.findPayment k) (.ok p)) (hstate : p.state = .initiated) :
    Emits (S := gatewaySignature) (fun _ _ => True) (Counts g db) past
      (reconcileLookup p k lookup t).run := by
  unfold reconcileLookup
  split
  next => exact fun _ => hquiet
  next => exact fun _ => hquiet
  next resp =>
    split
    next => exact fun _ => hquiet
    next => exact fun _ => hquiet
    next => exact commitCompleted_counts hquiet hfound hstate
    next => exact commitFailed_counts hquiet hfound hstate

theorem reconcileOrphanHold_counts :
    Emits (S := gatewaySignature) (fun _ _ => True) (Counts g db) []
      (reconcileOrphanHold k).run := by
  unfold reconcileOrphanHold
  refine findPayment_bind trivial fun found => ?_
  refine ofExcept_bind (fun p hp => ?_) fun _ _ => fun _ => rfl
  subst hp
  split_ifs with hstate
  · exact fun _ => rfl
  · have hinitiated : p.state = .initiated := not_not.mp hstate
    refine now_bind trivial fun t => ?_
    refine perform_bind trivial fun elapsed => ?_
    cases elapsed with
    | true => exact fun _ => rfl
    | false =>
        refine ⟨trivial, fun opened => ?_⟩
        cases opened with
        | error st => exact reconcileLookup_counts rfl answered_last.later.later.later hinitiated
        | ok u =>
            refine ⟨trivial, fun m => ?_⟩
            exact reconcileLookup_counts rfl answered_last.later.later.later.later hinitiated

/-- The attempts that say so are those that have concluded a payment. -/
theorem attempts_count {hs : List PaymentHash} {calls : Calls} {rs : List (Except AppError Bool)}
    (h : Attempts hs calls rs) (hg : ∀ c ∈ calls, Genuine g db c) :
    calls.countP acknowledged = rs.countP reconciled := by
  induction h with
  | nil => rfl
  | cons hx _ ih =>
      have hcounts : Counts g db ([] ++ _) _ := hx.describes reconcileOrphanHold_counts
      have hhead := hcounts fun c hc => hg c (List.mem_append_left _ hc)
      have htail := ih fun c hc => hg c (List.mem_append_right _ hc)
      rw [List.nil_append] at hhead
      rw [List.countP_append, List.countP_cons, hhead, htail, Nat.add_comm]

end

/-! ### Runs -/

section
variable {g : Deployment} {D : Discipline (gateway g)} {s u : Pool (gateway g)}
variable {es : List (Event (gateway g))} {i : ℕ}

/-- The rows that one event adds to the outbox on behalf of task `i`, by a choice that
satisfies `q`. -/
def rowsOf (i : ℕ) (q : Choice → Bool) (u s : Pool (gateway g)) : Event (gateway g) → ℕ
  | .step j c =>
      if j = i ∧ q c = true then s.world.db.outbox.length - u.world.db.outbox.length else 0
  | _ => 0

/-- The rows that the events from `s` on add to the outbox on behalf of task `i`. -/
def rowsWritten (i : ℕ) (q : Choice → Bool) : Pool (gateway g) → List (Event (gateway g)) → ℕ
  | _, [] => 0
  | s, e :: es =>
      match s.next e with
      | some s' => rowsOf i q s s' e + rowsWritten i q s' es
      | none => 0

theorem rowsWritten_snoc {q : Choice → Bool} {s₀ : Pool (gateway g)} {e : Event (gateway g)}
    (hrun : Runs D s₀ es u) (hstep : u.next e = some s) :
    rowsWritten i q s₀ (es ++ [e]) = rowsWritten i q s₀ es + rowsOf i q u s e := by
  induction es generalizing s₀ with
  | nil =>
      obtain rfl := run_nil.mp hrun
      simp [rowsWritten, hstep]
  | cons e' es ih =>
      obtain ⟨-, v, hv, hrest⟩ := run_cons.mp hrun
      simp only [List.cons_append, rowsWritten, hv, ih hrest, Nat.add_assoc]

/-- The acknowledged conclusions of task `i`. -/
def concludedBy (i : ℕ) (s : Pool (gateway g)) : ℕ :=
  match s.tasks[i]? with
  | some t => t.calls.countP acknowledged
  | none => 0

/-- If there is a task `i`, it is a sweep. -/
def SweepAt (i : ℕ) (s : Pool (gateway g)) : Prop :=
  ∀ t, s.tasks[i]? = some t → isSweep t.entry = true

/-- The next call of a sweep, in any run. -/
theorem sweep_call (hrun : Runs D (boot g) es u) {t : Task (gateway g)}
    (ht : u.tasks[i]? = some t) (hsweep : isSweep t.entry = true) {o : Op}
    {k : o.Ans → Program gatewaySignature Outcome} (hrest : t.rest = some (.call o k))
    {a : o.Ans} {c : Choice} {w : World} (hx : exec g.crates o c u.world = some (a, w)) :
    (w.db = u.world.db ∧ acknowledged ⟨o, a⟩ = false) ∨
      Concluded t.calls u.world.db w.db ∧ acknowledged ⟨o, a⟩ = !isAckLost c := by
  have hmem := List.mem_of_getElem? ht
  obtain ⟨hsound, -⟩ := described_run (program_site g) hrun
  have hsite : SweepSite t.calls o := (hsound t hmem _ hrest).1 hsweep
  have hg := (sane_run hrun).2.calls t.toPast (List.mem_map_of_mem hmem)
  exact exec_sweep hg hsite hx

/-- The accounts of one step: a row of the sweep is acknowledged or its acknowledgement is
lost. -/
theorem rows_step (hrun : Runs D (boot g) es u) {e : Event (gateway g)}
    (hstep : u.next e = some s) (hsweep : SweepAt i s) :
    SweepAt i u ∧ concludedBy i u + rowsOf i (fun _ => true) u s e =
      concludedBy i s + rowsOf i isAckLost u s e := by
  obtain ⟨x, rfl, rfl⟩ | ⟨j, c, t, o, k, a, w, rfl, ht, hrest, hx, rfl⟩ | ⟨x, w, rfl, -, rfl⟩ |
    ⟨rfl, rfl⟩ := next_cases hstep
  · -- A task that is started has made no call.
    have hbefore : SweepAt i u := fun t ht =>
      hsweep t (List.getElem?_append_left (List.getElem?_eq_some_iff.mp ht).1 ▸ ht)
    refine ⟨hbefore, ?_⟩
    simp only [rowsOf, concludedBy]
    by_cases hi : i < u.tasks.length
    · rw [List.getElem?_append_left hi]
    · have hle : u.tasks.length ≤ i := Nat.le_of_not_lt hi
      rw [List.getElem?_eq_none hle, List.getElem?_append_right hle]
      cases i - u.tasks.length <;> rfl
  · by_cases hij : j = i
    · subst hij
      have hlt := (List.getElem?_eq_some_iff.mp ht).1
      have hnew : (u.tasks.set j ⟨⟨t.entry, t.calls ++ [⟨o, a⟩]⟩, some (k a)⟩)[j]? =
          some ⟨⟨t.entry, t.calls ++ [⟨o, a⟩]⟩, some (k a)⟩ := List.getElem?_set_self hlt
      have hentry : isSweep t.entry = true := by
        have h := hsweep _ hnew
        exact h
      have hcount : (t.calls ++ [⟨o, a⟩] : Calls).countP acknowledged =
          t.calls.countP acknowledged + if acknowledged ⟨o, a⟩ then 1 else 0 := by
        rw [List.countP_append, List.countP_cons, List.countP_nil, Nat.zero_add]
      refine ⟨fun t' ht' => Option.some.inj (ht.symm.trans ht') ▸ hentry, ?_⟩
      simp only [concludedBy, rowsOf, ht, hnew, true_and, if_true, hcount]
      obtain ⟨hdb, hack⟩ | ⟨hconcluded, hack⟩ := sweep_call hrun ht hentry hrest hx
      · simp [hdb, hack]
      · have hlen := hconcluded.outbox_length
        rw [hack]
        cases isAckLost c <;> simp [hlen]
    · have hother : (u.tasks.set j ⟨⟨t.entry, t.calls ++ [⟨o, a⟩]⟩, some (k a)⟩)[i]? = u.tasks[i]? :=
        List.getElem?_set_ne hij
      refine ⟨fun t' ht' => hsweep t' (hother.trans ht'), ?_⟩
      simp only [concludedBy, rowsOf, hother, hij, false_and, if_false]
  · exact ⟨hsweep, rfl⟩
  · -- A crash keeps what the tasks have done.
    have hcrash : (u.tasks.map Task.crash)[i]? = (u.tasks[i]?).map Task.crash := List.getElem?_map
    have hpast (t : Task (gateway g)) : t.crash.toPast = t.toPast := t.crash_toPast
    refine ⟨fun t ht => ?_, ?_⟩
    · have h := hsweep t.crash (by rw [hcrash, ht]; rfl)
      rwa [hpast t] at h
    · simp only [concludedBy, rowsOf, hcrash]
      cases u.tasks[i]? with
      | none => rfl
      | some t =>
          rw [Option.map_some]
          dsimp only
          rw [hpast t]

/-- Without lost acknowledgements there are no rows behind them. -/
theorem rowsWritten_eq_zero {s₀ : Pool (gateway g)}
    (h : ∀ c, .step i c ∈ es → isAckLost c = false) : rowsWritten i isAckLost s₀ es = 0 := by
  induction es generalizing s₀ with
  | nil => rfl
  | cons e es ih =>
      have hrest (s₁ : Pool (gateway g)) : rowsWritten i isAckLost s₁ es = 0 :=
        ih fun c hc => h c (List.mem_cons_of_mem _ hc)
      have hhead (s₁ : Pool (gateway g)) : rowsOf i isAckLost s₀ s₁ e = 0 := by
        cases e with
        | step j c =>
            refine if_neg ?_
            rintro ⟨rfl, hlost⟩
            rw [h c List.mem_cons_self] at hlost
            cases hlost
        | _ => rfl
      unfold rowsWritten
      split
      · rw [hhead, hrest]
      · rfl

/-- The rows that a sweep has added to the outbox are those it knows of and those whose
acknowledgement was lost. -/
theorem rows_run (hrun : Runs D (boot g) es s) (hsweep : SweepAt i s) :
    rowsWritten i (fun _ => true) (boot g) es =
      concludedBy i s + rowsWritten i isAckLost (boot g) es := by
  induction es using List.reverseRecOn generalizing s with
  | nil =>
      obtain rfl := run_nil.mp hrun
      rfl
  | append_singleton es e ih =>
      obtain ⟨u, hu, -, hstep⟩ := run_snoc.mp hrun
      obtain ⟨hbefore, hone⟩ := rows_step hu hstep hsweep
      have hmany := ih hu hbefore
      rw [rowsWritten_snoc hu hstep, rowsWritten_snoc hu hstep]
      omega

/-- In every run, whatever the other tasks do: each call of a sweep leaves the database
alone or ends one initiated payment as the sweep's own lookup says; a sweep that returns
has attempted every payment that it listed, and would have gone on in the same way after
any other results of its attempts; and it returns the number of the conclusions it was
told of, which are the rows it has written but for lost acknowledgements. -/
theorem sweep_is_safe (hrun : Runs D (boot g) es s) {idle : ℕ} {limit : ℤ}
    {t : Task (gateway g)} (ht : s.tasks[i]? = some t)
    (hentry : t.entry = .sweepOrphanHolds idle limit) :
    (∀ c s', s.next (.step i c) = some s' →
      s'.world.db = s.world.db ∨ Concluded t.calls s.world.db s'.world.db) ∧
    (∀ r, t.rest = some (.ret (.count r)) →
      (∃ utcNow e, t.calls = listing idle limit utcNow (.error e) ∧ r = .error (.payment e)) ∨
      ∃ utcNow stranded attempts rs, Attempts stranded attempts rs ∧
        t.calls = listing idle limit utcNow (.ok stranded) ++ attempts ∧
        r = .ok (rs.countP reconciled) ∧
        ∀ attempts' rs', Attempts stranded attempts' rs' →
          Traces (sweepOrphanHolds idle limit).run
            (listing idle limit utcNow (.ok stranded) ++ attempts') (.ok (rs'.countP reconciled))) ∧
    (∀ n, t.rest = some (.ret (.count (.ok n))) →
      rowsWritten i (fun _ => true) (boot g) es = n + rowsWritten i isAckLost (boot g) es ∧
      ((∀ c, .step i c ∈ es → isAckLost c = false) →
        rowsWritten i (fun _ => true) (boot g) es = n)) := by
  have hmem := List.mem_of_getElem? ht
  have hsweep : isSweep t.entry = true := by rw [hentry]; rfl
  have htrace (r : Except AppError ℕ) (hrest : t.rest = some (.ret (.count r))) :
      Traces (sweepOrphanHolds idle limit).run t.calls r := by
    obtain ⟨hsound, -⟩ := described_run (fun e => emits_traces [] (program g e)) hrun
    obtain ⟨calls, hcalls, hprogram⟩ := hsound t hmem _ hrest
    rw [hentry] at hprogram
    obtain ⟨c₁, x, c₂, hx, hret, rfl⟩ := traces_bind.mp hprogram
    obtain ⟨rfl, hr⟩ := traces_pure hret
    cases hr
    rw [hcalls, List.nil_append, List.append_nil]
    exact hx
  refine ⟨fun c s' hstep => ?_, fun r hrest => ?_, fun n hrest => ?_⟩
  · obtain ⟨x, hx, -⟩ | ⟨j, c', t', o, k, a, w, hj, ht', hrest, hx, rfl⟩ | ⟨x, w, hx, -⟩ |
      ⟨hx, -⟩ := next_cases hstep
    case inr.inl =>
      cases hj
      obtain rfl := Option.some.inj (ht'.symm.trans ht)
      exact (sweep_call hrun ht' hsweep hrest hx).imp And.left And.left
    all_goals cases hx
  · obtain herr | ⟨utcNow, stranded, attempts, rs, hrs, hcalls, rfl⟩ :=
      traces_sweepOrphanHolds.mp (htrace r hrest)
    · exact .inl herr
    · refine .inr ⟨utcNow, stranded, attempts, rs, hrs, hcalls, rfl, fun attempts' rs' h => ?_⟩
      exact traces_sweepOrphanHolds.mpr (.inr ⟨utcNow, stranded, attempts', rs', h, rfl, rfl⟩)
  · have hat : SweepAt i s := by
      intro t' ht'
      obtain rfl := Option.some.inj (ht.symm.trans ht')
      exact hsweep
    have hcount : concludedBy i s = n := by
      unfold concludedBy
      rw [ht]
      obtain ⟨utcNow, e, -, hr⟩ | ⟨utcNow, stranded, attempts, rs, hrs, hcalls, hr⟩ :=
        traces_sweepOrphanHolds.mp (htrace _ hrest)
      · cases hr
      · cases hr
        have hg := (sane_run hrun).2.calls t.toPast (List.mem_map_of_mem hmem)
        have hattempts := attempts_count hrs fun c hc => hg c (by
          rw [hcalls]
          exact List.mem_append_right _ hc)
        dsimp only
        rw [hcalls, List.countP_append, hattempts]
        exact Nat.zero_add _
    have haccounts := rows_run hrun hat
    rw [hcount] at haccounts
    refine ⟨haccounts, fun hheard => ?_⟩
    rw [haccounts, rowsWritten_eq_zero hheard, Nat.add_zero]

end

/-- A process dies after it has sent a payment; a later one finds it settled at LND. -/
def reconciledRun : List (Event (gateway Sample.deployment)) :=
  Sample.sendUpToMessage 0 ++
    [.crash, .spawn (.sweepOrphanHolds 0 10), .step 1 (.clock ⟨Sample.noon.nanos + 1⟩),
      .step 1 (.served Sample.noon), .step 1 (.served Sample.noon), .step 1 (.clock Sample.noon),
      .step 1 (.elapsed false), .step 1 (.lndUnit true (.ok ())),
      .step 1 (.lndPayment (Sample.message 2 Sample.preimage.toHex)), .step 1 (.clock Sample.noon),
      .step 1 (.served Sample.noon)]

/-- The result of a sweep at place `i`. -/
def sweepCount {g : Deployment} (i : ℕ) (s : Pool (gateway g)) : Option ℕ :=
  match s.tasks[i]? with
  | some ⟨⟨.sweepOrphanHolds 0 10, _⟩, some (.ret (.count (.ok n)))⟩ => some n
  | _ => none

theorem sweep_is_safe_reconciled :
    ∃ s, Runs {} (boot Sample.deployment) reconciledRun s ∧ sweepCount 1 s = some 1 ∧
      rowsWritten 1 (fun _ => true) (boot Sample.deployment) reconciledRun = 1 := by
  obtain ⟨s, hrun, hc⟩ := exists_run_of_play {} (boot Sample.deployment) reconciledRun
    (fun s => decide (sweepCount 1 s = some 1)) (by decide +kernel)
  have hcount : sweepCount 1 s = some 1 := of_decide_eq_true hc
  have hfound := hcount
  unfold sweepCount at hfound
  split at hfound
  case h_1 calls n ht =>
    cases hfound
    have hheard : reconciledRun.all (fun e => match e with
        | .step _ c => !isAckLost c
        | _ => true) = true := rfl
    refine ⟨s, hrun, hcount, ((sweep_is_safe hrun ht rfl).2.2 1 rfl).2 fun c hc => ?_⟩
    have hkept := List.all_eq_true.mp hheard _ hc
    simpa using hkept
  case h_2 => cases hfound

end LightningGateway.SweepSafety
