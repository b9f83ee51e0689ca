import LightningGateway.DurableOutcomes

/-!
# Outcomes and concurrent writers

The request that sent a payment and the handler of LND's updates load, change and
write the same aggregate. The request reloads when it lost the race; the handler
returns the conflict to a loop that logs it, and LND does not repeat a final
update. So an outcome is lost exactly when the request records `Pending` between
the handler's load and its commit.
-/
namespace LightningGateway.PaymentRaces
open Primitives EventTables EffectPrograms TaskPools PaymentAggregate OutboxRows
open LndWire GatewayStore StoreSpecs GatewayEffects PeerCalls PaymentFlows
open GatewayMachine CallSites GatewayInvariant OutboxHistory PaymentLedger SpendGate LndReports
open FundSafety DurableOutcomes

/-- The log of the payment `h`. -/
def logOf (db : Db) (h : PaymentHash) : List PaymentEvent :=
  match db.payments.lookup h with
  | some r => r.events
  | none => []

/-- The log holds an outcome. -/
def decided (log : List PaymentEvent) : Bool := log.any fun e => e.isCompleted || e.isFailed

/-- When an update handler writes a payment, the log is as the handler loaded it or
holds an outcome already. -/
def unraced (g : Deployment) : Discipline (gateway g) where
  call p o _ w :=
    match p.entry, o with
    | .handlePaymentUpdate _, .tx (.payment q _) =>
        logOf w.db q.paymentHash = q.events.persisted ∨ decided (logOf w.db q.paymentHash) = true
    | _, _ => true

/-- A handler of the update `u` has returned. -/
def handled {g : Deployment} (s : Pool (gateway g)) (u : PaymentUpdate) : Bool :=
  s.tasks.any fun t =>
    match t.entry, t.rest with
    | .handlePaymentUpdate v, some (.ret (.unit _)) => v = u
    | _, _ => false

section
variable {g : Deployment} {entry : Entry} {past : Calls} {w w' : World} {c : Choice}
variable {ps : List (Past (gateway g))} {h : PaymentHash} {u : PaymentUpdate}

/-! ### Logs with an outcome -/

theorem logOf_row {db : Db} {r : PaymentRow} (hr : db.payments.lookup h = some r) :
    logOf db h = r.events := by
  simp only [logOf, hr]

theorem decided_iff {log : List PaymentEvent} : decided log = true ↔
    log.any PaymentEvent.isCompleted = true ∨ log.any PaymentEvent.isFailed = true := by
  simp only [decided, List.any_eq_true, Bool.or_eq_true, and_or_left, exists_or]

theorem decided_prefix {log log' : List PaymentEvent} (hp : log <+: log')
    (hd : decided log = true) : decided log' = true := by
  obtain ⟨more, rfl⟩ := hp
  rw [decided, List.any_append, Bool.or_eq_true]
  exact .inl hd

theorem decided_extends {db db' : Db} (he : db.payments.Extends db'.payments)
    (hd : decided (logOf db h) = true) : decided (logOf db' h) = true := by
  cases hr : db.payments.lookup h with
  | none =>
      simp only [logOf, hr] at hd
      cases hd
  | some r =>
      obtain ⟨r', hr', -, -, hp⟩ := he h r hr
      rw [logOf_row hr] at hd
      rw [logOf_row hr']
      exact decided_prefix hp hd

/-- The log of a copy in a final state. -/
theorem decided_of_log {n : NewPayment} {log : List PaymentEvent} {s : PaymentState}
    (hl : PaymentLogs.PaymentLog n log s) (hs : s ≠ .initiated ∧ s ≠ .pending) :
    decided log = true := by
  rw [decided_iff]
  cases s with
  | initiated => exact absurd rfl hs.1
  | pending => exact absurd rfl hs.2
  | completed => exact .inl (hl.any_isCompleted.mpr (.inl rfl))
  | reversed => exact .inl (hl.any_isCompleted.mpr (.inr rfl))
  | failed => exact .inr (hl.any_isFailed.mpr rfl)

/-! ### What the handler does -/

/-- An update handler writes the payment that the update is about. -/
theorem update_key (he : Explained (M := gateway g) (Justified g) ps)
    (hp : (⟨.handlePaymentUpdate u, past⟩ : Past (gateway g)) ∈ ps) {k h : PaymentHash}
    {amount : MilliSatoshi} {q : Payment} (hr : Readied past k h amount q) :
    k = u.paymentHash := by
  have loaded {q : Payment} (hl : LoadedPayment past k h amount q) : k = u.paymentHash := by
    cases hl with
    | created ha =>
        obtain ⟨l, l', hl⟩ := List.append_of_mem ha
        obtain ⟨request, utcNow, hentry, -⟩ := he _ hp l _ l' hl
        cases hentry
    | found ha _ =>
        obtain ⟨l, l', hl⟩ := List.append_of_mem ha
        have hfind : FindSite g (.handlePaymentUpdate u) l k := he _ hp l _ l' hl
        exact hfind.symm
  cases hr with
  | loaded hl => exact loaded hl
  | pending hl _ => exact loaded hl

/-- After an unraced conclusion the outcome is in the log. -/
theorem conclusion_decided {q : Payment} {e : NewOutboxEvent} {a : Except AppError Payment}
    (hs : Sane g w ps) (hp : (⟨.handlePaymentUpdate u, past⟩ : Past (gateway g)) ∈ ps)
    (hj : Justified g (.handlePaymentUpdate u) past (.tx (.payment q e)))
    (hf : (faultless g).call ⟨.handlePaymentUpdate u, past⟩ (.tx (.payment q e)) c w = true)
    (hd : (unraced g).call ⟨.handlePaymentUpdate u, past⟩ (.tx (.payment q e)) c w = true)
    (hx : exec g.crates (.tx (.payment q e)) c w = some (a, w')) :
    decided (logOf w'.db u.paymentHash) = true := by
  have hpast := hs.calls _ hp
  obtain ⟨k, h', amount, p, n, hready, hcopy, hfresh, hwhy⟩ := concludes_copy hpast hj
  obtain rfl := update_key hs.explained hp hready
  have hhash : q.paymentHash = u.paymentHash := hcopy.tracks.paymentHash.trans hcopy.hash
  obtain ⟨r, hr, hid, -⟩ := id hcopy.snapshot
  have hcond : logOf w.db q.paymentHash = q.events.persisted ∨
      decided (logOf w.db q.paymentHash) = true := of_decide_eq_true hd
  rw [hhash] at hcond
  rcases hcond with hsame | hdone
  · rw [logOf_row hr] at hsame
    obtain ⟨t, q', db', hrun, -, rfl⟩ :=
      served_commits hf hx fun t => run_payment_ok hr hid hsame
    obtain ⟨r', hr', -, hrev, hw, -⟩ := run_payment hfresh hcopy.snapshot hrun
    rw [logOf_row hw.at]
    refine decided_of_log (n := n) (s := q.state) ?_ ?_
    · change PaymentLogs.PaymentLog n (r'.events ++ q.events.fresh) q.state
      rw [hrev]
      exact hcopy.tracks.log
    · rcases hwhy with ⟨hst, -⟩ | ⟨hst, -⟩ <;> simp [hst]
  · exact decided_extends (exec_grows hs.db hpast hj hx).1 hdone

/-! ### The invariant -/

structure Landed (w : World) (ps : List (Past (gateway g))) : Prop where
  reported : Reported w ps
  /-- A final update is about a payment that is there. -/
  found : ∀ p ∈ ps, ∀ u, p.entry = .handlePaymentUpdate u → u.status ≠ .inFlight →
    ∀ k e, ¬Answered p.calls (.findPayment k) (.error e)
  written : ∀ p ∈ ps, ∀ u, p.entry = .handlePaymentUpdate u → ∀ q e r,
    Answered p.calls (.tx (.payment q e)) r → decided (logOf w.db u.paymentHash) = true

theorem landed_empty : Landed World.empty ([] : List (Past (gateway g))) :=
  ⟨reported_empty, fun _ hp => (by cases hp), fun _ hp => (by cases hp)⟩

theorem Landed.spawn {e : Entry} (hI : Landed w ps) (hd : (truthful g).spawn e w = true) :
    Landed w (ps ++ [⟨e, []⟩]) := by
  refine ⟨hI.reported.spawn hd, pasts_spawn (fun u _ _ k e' ha => ?_) hI.found,
    pasts_spawn (fun u _ q e' r ha => ?_) hI.written⟩
  · cases ha
  · cases ha

/-- LND knows the payment of a final update, so its row is there. -/
theorem Landed.row (hI : Landed w ps) (hs : Sane g w ps)
    (hp : (⟨.handlePaymentUpdate u, past⟩ : Past (gateway g)) ∈ ps) (hst : u.status ≠ .inFlight) :
    w.commits.any (opensLightning u.paymentHash) = true := by
  have hagree := hI.reported.safe.informed _ hp u.paymentHash u.status (.update rfl rfl rfl)
  refine hI.reported.opened_of_known hs fun hnone => ?_
  rw [hnone] at hagree
  cases hu : u.status with
  | inFlight => exact hst hu
  | succeeded | failed =>
      rw [hu] at hagree
      cases hagree

theorem Landed.call {o : Op} {a : o.Ans} {i : ℕ} (hI : Landed w ps) (hs : Sane g w ps)
    (hi : ps[i]? = some ⟨entry, past⟩) (hj : Justified g entry past o)
    (ho : (orderly g).call ⟨entry, past⟩ o c w = true)
    (hu : (unraced g).call ⟨entry, past⟩ o c w = true) (hx : exec g.crates o c w = some (a, w')) :
    Landed w' (ps.set i ⟨entry, past ++ [⟨o, a⟩]⟩) := by
  have hmem := List.mem_of_getElem? hi
  obtain ⟨ho, hf⟩ := Discipline.both_call.mp ho
  obtain ⟨ht, hd⟩ := Discipline.both_call.mp ho
  have hgrow : w.db.payments.Extends w'.db.payments := (exec_grows hs.db (hs.calls _ hmem) hj hx).1
  refine ⟨hI.reported.call hs hi hj ht hd hx,
    pasts_call hi (fun _ h => h) (fun hold u hu' hst k e ha => ?_) hI.found,
    pasts_call hi (fun p hp u hu' q e r ha => decided_extends hgrow (hp u hu' q e r ha))
      (fun hold u hu' q e r ha => ?_) hI.written⟩
  · obtain rfl : entry = .handlePaymentUpdate u := hu'
    rcases List.mem_append.mp ha with ha | ha
    · exact hold u rfl hst k e ha
    · cases List.mem_singleton.mp ha
      obtain rfl : u.paymentHash = k := hj
      obtain ⟨r, hr, -⟩ := hI.reported.lightning (hI.row hs hmem hst)
      obtain ⟨q, hq⟩ := served_finds hs.db hf hx hr
      cases hq
  · obtain rfl : entry = .handlePaymentUpdate u := hu'
    rcases List.mem_append.mp ha with ha | ha
    · exact decided_extends hgrow (hold u rfl q e r ha)
    · cases List.mem_singleton.mp ha
      exact conclusion_decided hs hmem hj hf hu hx

theorem Landed.env {x : Env} (hI : Landed w ps) (hx : env x w = some w') : Landed w' ps := by
  refine ⟨hI.reported.env hx, hI.found, fun p hp u hu q e r ha => ?_⟩
  exact decided_extends ((env_frame hx).1 ▸ .refl _) (hI.written p hp u hu q e r ha)

/-! ### Returned handlers -/

/-- A handler of a final update has left an outcome in the log. -/
theorem Landed.decided_of_return {r : Except AppError Unit} (hI : Landed w ps) (hs : Sane g w ps)
    (hp : (⟨.handlePaymentUpdate u, past⟩ : Past (gateway g)) ∈ ps)
    (hr : UpdateReturn g u past r) (hst : u.status ≠ .inFlight)
    (hpre : u.status = .succeeded → u.paymentPreimage.isSome = true) :
    decided (logOf w.db u.paymentHash) = true := by
  cases hr with
  | unloaded ha => exact absurd ha (hI.found _ hp u rfl hst _ _)
  | nothing hn =>
      rcases hn with hn | ⟨hsucc, hnone⟩
      · exact absurd hn hst
      · have := hpre hsucc
        rw [hnone] at this
        cases this
  | concluded _ ha => exact hI.written _ hp u rfl _ _ _ ha
  | @settled q r ha hq =>
      obtain ⟨⟨hclean, -⟩, n, hcopy⟩ := hs.calls _ hp _ ha
      obtain ⟨row, hrow, -, hprefix⟩ := hcopy.snapshot
      have hall : q.events.iterAll = q.events.persisted := by
        rw [EntityEvents.iterAll, hclean, List.append_nil]
      rw [logOf_row hrow]
      refine decided_prefix hprefix ?_
      rcases hq with hq | hq | hq
      · exact decided_iff.mpr (.inl (hall ▸ hq))
      · exact decided_iff.mpr (.inr (hall ▸ hq))
      · exact hall ▸ decided_of_log hcopy.tracks.log hq

end

/-! ### Runs -/

/-- Once a handler of a final update has returned, the payment is durably in the
state that the update reports and the row that says so is in the outbox, provided
no handler's write was overtaken by the `Pending` step. -/
theorem outcome_recorded (g : Deployment) (es : List (Event (gateway g))) (s : Pool (gateway g))
    (hrun : Runs ((orderly g).both (unraced g)) (boot g) es s) (u : PaymentUpdate)
    (hret : handled s u = true) :
    (u.status = .succeeded → u.paymentPreimage.isSome = true →
      durably s.world.db u.paymentHash .completed = true ∧
        hasRow s.world.db .lightningPaymentCompleted u.paymentHash = true) ∧
    (u.status = .failed →
      durably s.world.db u.paymentHash .failed = true ∧
        hasRow s.world.db .lightningPaymentFailed u.paymentHash = true) := by
  obtain ⟨hsound, hs, hI⟩ := gateway_invariant ((orderly g).both (unraced g)) (I := Landed)
    landed_empty
    (fun w ps e hd _ hI => by
      obtain ⟨ho, -⟩ := Discipline.both_spawn.mp hd
      exact hI.spawn (Discipline.both_spawn.mp (Discipline.both_spawn.mp ho).1).1)
    (fun w ps i entry past o c a w' hi hj hd hx hs hI =>
      hI.call hs hi hj (Discipline.both_call.mp hd).1 (Discipline.both_call.mp hd).2 hx)
    (fun w ps x w' _ hx _ hI => hI.env hx) hrun
  obtain ⟨⟨⟨entry, past⟩, rest⟩, ht, hdone⟩ := List.any_eq_true.mp hret
  have hreturn : entry = .handlePaymentUpdate u ∧ ∃ r, UpdateReturn g u past r := by
    dsimp only at hdone
    split at hdone
    case h_1 v r =>
      obtain rfl := of_decide_eq_true hdone
      exact ⟨rfl, r, hsound _ ht _ rfl v rfl⟩
    case h_2 => cases hdone
  obtain ⟨rfl, r, hreturn⟩ := hreturn
  have hp : (⟨.handlePaymentUpdate u, past⟩ : Past (gateway g)) ∈ s.pasts :=
    List.mem_map_of_mem (f := Task.toPast) ht
  have hagree := hI.reported.safe.informed _ hp u.paymentHash u.status (.update rfl rfl rfl)
  have outcome (hst : u.status ≠ .inFlight)
      (hpre : u.status = .succeeded → u.paymentPreimage.isSome = true) :
      ∃ row, s.world.db.payments.lookup u.paymentHash = some row ∧
        (row.events.any PaymentEvent.isCompleted = true ∨
          row.events.any PaymentEvent.isFailed = true) := by
    obtain ⟨row, hrow, -⟩ := hI.reported.lightning (hI.row hs hp hst)
    have hd := hI.decided_of_return hs hp hreturn hst hpre
    rw [logOf_row hrow] at hd
    exact ⟨row, hrow, decided_iff.mp hd⟩
  refine ⟨fun hst hpre => ?_, fun hst => ?_⟩
  · have hne : u.status ≠ .inFlight := by simp [hst]
    have hopen := hI.row hs hp hne
    rw [hst] at hagree
    obtain ⟨row, hrow, hc | hf⟩ := outcome hne fun _ => hpre
    · exact ⟨(durably_iff hs.db hrow).1.mpr hc, (hI.reported.of_completed hopen hrow hc).2⟩
    · exact absurd (agrees_succeeded hagree)
        (quiet_not_succeeded (hI.reported.of_failed hopen hrow hf).1)
  · have hne : u.status ≠ .inFlight := by simp [hst]
    have hopen := hI.row hs hp hne
    rw [hst] at hagree
    obtain ⟨row, hrow, hc | hf⟩ := outcome hne (by simp [hst])
    · cases (agrees_failed hagree).symm.trans (hI.reported.of_completed hopen hrow hc).1
    · exact ⟨(durably_iff hs.db hrow).2.mpr hf, (hI.reported.of_failed hopen hrow hf).2⟩

/-- The request records `Pending` first, then LND's update arrives. -/
def orderedRun : List (Event (gateway Sample.deployment)) :=
  Sample.sendUpToMessage 0 ++
    [.env (.receive Sample.hash), .step 0 (.lndPayment (Sample.message 1 "")),
      .step 0 (.served Sample.noon), .env (.resolve Sample.hash true),
      .spawn (.handlePaymentUpdate Sample.settledUpdate), .step 1 (.served Sample.noon),
      .step 1 (.clock Sample.noon), .step 1 (.clock Sample.noon), .step 1 (.served Sample.noon)]

theorem outcome_recorded_ordered :
    ∃ s, Runs ((orderly Sample.deployment).both (unraced Sample.deployment))
        (boot Sample.deployment) orderedRun s ∧ handled s Sample.settledUpdate = true ∧
      durably s.world.db Sample.hash .completed = true ∧
      hasRow s.world.db .lightningPaymentCompleted Sample.hash = true := by
  obtain ⟨s, hrun, hret⟩ := exists_run_of_play
    ((orderly Sample.deployment).both (unraced Sample.deployment))
    (boot Sample.deployment) orderedRun
    (fun s => handled s Sample.settledUpdate) (by decide +kernel)
  exact ⟨s, hrun, hret,
    (outcome_recorded Sample.deployment orderedRun s hrun Sample.settledUpdate hret).1 rfl rfl⟩

/-- The handler loads the payment, the request records `Pending`, and the handler's
write is refused. -/
def overtakenRun : List (Event (gateway Sample.deployment)) :=
  Sample.sendUpToMessage 0 ++
    [.env (.receive Sample.hash), .step 0 (.lndPayment (Sample.message 1 "")),
      .env (.resolve Sample.hash true), .spawn (.handlePaymentUpdate Sample.settledUpdate),
      .step 1 (.served Sample.noon), .step 0 (.served Sample.noon), .step 1 (.clock Sample.noon),
      .step 1 (.clock Sample.noon), .step 1 (.served Sample.noon)]

/-- Both calls have returned, the payment settled, and it stays `Pending`. -/
theorem outcome_lost :
    ∃ s, Runs (orderly Sample.deployment) (boot Sample.deployment) overtakenRun s ∧
      handled s Sample.settledUpdate = true ∧
      (∀ t ∈ s.tasks, ∃ r, t.rest = some (.ret r)) ∧
      durably s.world.db Sample.hash .pending = true ∧
      durably s.world.db Sample.hash .completed = false ∧
      hasRow s.world.db .lightningPaymentCompleted Sample.hash = false := by
  obtain ⟨s, hrun, hc⟩ := exists_run_of_play (orderly Sample.deployment)
    (boot Sample.deployment) overtakenRun
    (fun s => handled s Sample.settledUpdate &&
      s.tasks.all Task.returned &&
      durably s.world.db Sample.hash .pending && !durably s.world.db Sample.hash .completed &&
      !hasRow s.world.db .lightningPaymentCompleted Sample.hash) (by decide +kernel)
  simp only [Bool.and_eq_true, Bool.not_eq_true', List.all_eq_true] at hc
  obtain ⟨⟨⟨⟨hret, hall⟩, hpend⟩, hnot⟩, hrow⟩ := hc
  exact ⟨s, hrun, hret, fun t ht => Task.returned_iff.mp (hall t ht), hpend, hnot, hrow⟩

end LightningGateway.PaymentRaces
