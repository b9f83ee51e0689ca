import LightningGateway.FundSafety
import LightningGateway.PaymentLedger

/-!
# Recorded outcomes are true

As long as every send is answered, LND tells the truth and the database does not
fail, an outcome in the log of a Lightning payment is the one the payment had at
LND, and its row is in the outbox. What can still go wrong under these
assumptions is the order in which tasks load and write one payment.
-/
namespace LightningGateway.DurableOutcomes
open Primitives EventTables EffectPrograms TaskPools PaymentAggregate OutboxRows
open LndWire GatewayStore StoreSpecs GatewayEffects PeerCalls PaymentFlows
open GatewayMachine CallSites GatewayInvariant OutboxHistory PaymentLedger SpendGate LndReports
open FundSafety

/-- The payment `h` is durably in state `s`. -/
def durably (db : Db) (h : PaymentHash) (s : PaymentState) : Bool :=
  match Payments.findByPaymentHash db h with
  | .ok p => p.state = s
  | .error _ => false

/-! ### Assumptions -/

/-- A reported success comes with its preimage. -/
def carriesPreimage (m : Except Status (Option WirePayment)) : Bool :=
  match readSendMessage m with
  | .ok resp => resp.status = .succeeded → resp.paymentPreimage.isSome
  | .error _ => true

/-- LND answers every send. -/
def answered (g : Deployment) : Discipline (gateway g) where
  call _ o c _ :=
    match o, c with
    | .lnd (.sendPaymentV2 _), .lndUnit _ (.error _) => false
    | .lnd (.sendPaymentMessage r), .lndPayment m =>
        carriesPreimage m &&
          match g.crates.bolt11 r.paymentRequest with
          | .ok invoice => usable invoice.paymentHash m
          | .error _ => true
    | _, _ => true

/-- The database serves every call. -/
def faultless (g : Deployment) : Discipline (gateway g) where
  call _ _ c _ :=
    match c with
    | .dbFault | .ackLost _ => false
    | _ => true

/-- A truthful LND that answers every send, and a database without failures. -/
def orderly (g : Deployment) : Discipline (gateway g) :=
  ((truthful g).both (answered g)).both (faultless g)

section
variable {g : Deployment} {entry : Entry} {past : Calls} {w w' : World} {c : Choice}
variable {ps : List (Past (gateway g))} {h : PaymentHash}

/-- An answered send is not an unheard one. -/
theorem heard_of_answered {p : Past (gateway g)} {o : Op}
    (hd : (answered g).call p o c w = true) : (heard g).call p o c w = true := by
  cases o with
  | lnd o =>
      cases o with
      | sendPaymentV2 r =>
          cases c with
          | lndUnit delivered b =>
              cases b with
              | error st => cases hd
              | ok u => rfl
          | _ => rfl
      | sendPaymentMessage r =>
          cases c with
          | lndPayment m =>
              cases hb : g.crates.bolt11 r.paymentRequest with
              | ok invoice =>
                  simp only [answered, hb, Bool.and_eq_true] at hd
                  simp only [heard, hb, hd.2, Bool.true_or]
              | error e => simp only [heard, hb]
          | _ => rfl
      | _ => rfl
  | _ => rfl

/-! ### The invariant -/

structure Reported (w : World) (ps : List (Past (gateway g))) : Prop where
  safe : Safe w ps
  announced : ∀ h, Announced w.db w.commits h
  /-- A task that holds an intent has opened the payment. -/
  opened : ∀ h, callCount (intends h) ps ≠ 0 → w.commits.any (opensLightning h) = true
  completed : ∀ h, hasRow w.db .lightningPaymentCompleted h = true →
    w.lnd.payments h = .succeeded

theorem reported_empty : Reported World.empty ([] : List (Past (gateway g))) :=
  ⟨safe_empty, fun _ => .absent rfl rfl rfl rfl, fun _ hc => absurd rfl hc,
    fun _ hr => (by cases hr)⟩

theorem Reported.spawn {e : Entry} (hI : Reported w ps) (hd : (truthful g).spawn e w = true) :
    Reported w (ps ++ [⟨e, []⟩]) :=
  ⟨hI.safe.spawn hd, hI.announced,
    fun h => callCount_spawn (intends h) ps e ▸ hI.opened h, hI.completed⟩

theorem Reported.env {x : Env} (hI : Reported w ps) (hx : env x w = some w') : Reported w' ps := by
  obtain ⟨hp, -, ho, hc, -⟩ := env_frame hx
  refine ⟨hI.safe.env hx, ?_, hc ▸ hI.opened, fun h hr => ?_⟩
  · rw [hc]
    exact fun h => (hI.announced h).same hp ho
  · have hold : hasRow w.db .lightningPaymentCompleted h = true := by
      simpa only [hasRow, ho] using hr
    exact agrees_succeeded (agrees_env (s := .succeeded) hx (by rw [hI.completed h hold]; rfl))

/-- An intent that a task holds was committed. -/
theorem opened_step {o : Op} {a : o.Ans} (hx : exec g.crates o c w = some (a, w'))
    (hq : intends h ⟨o, a⟩ = true) : w'.commits.any (opensLightning h) = true := by
  unfold intends at hq
  split at hq
  case h_2 => cases hq
  case h_1 n e p heq =>
    cases heq
    obtain ⟨t, r, db', -, rfl, -⟩ | ⟨-, ⟨t, e', -, -, he⟩ | ⟨-, he⟩⟩ := exec_tx hx
    · rw [List.any_append, Bool.or_eq_true]
      exact .inr (by simpa [opensLightning] using hq)
    · cases he
    · cases he

theorem Reported.call {o : Op} {a : o.Ans} {i : ℕ} (hI : Reported w ps) (hs : Sane g w ps)
    (hi : ps[i]? = some ⟨entry, past⟩) (hj : Justified g entry past o)
    (ht : (truthful g).call ⟨entry, past⟩ o c w = true)
    (hd : (answered g).call ⟨entry, past⟩ o c w = true)
    (hx : exec g.crates o c w = some (a, w')) :
    Reported w' (ps.set i ⟨entry, past ++ [⟨o, a⟩]⟩) := by
  have hmem := List.mem_of_getElem? hi
  refine ⟨hI.safe.call hs hi hj ht (heard_of_answered hd) hx, ?_, ?_, ?_⟩
  · obtain ⟨b, db', -, hb, -, rfl⟩ | ⟨hdb, hc⟩ := commit_or_frame hs.db (hs.calls _ hmem) hj hx
    · exact announced_step hb hs.db hI.announced
    · rw [hdb, hc]
      exact hI.announced
  · intro h hcount
    by_cases hq : intends h ⟨o, a⟩ = true
    · exact opened_step hx hq
    · rw [callCount_call hi, if_neg hq] at hcount
      have hold := hI.opened h hcount
      obtain ⟨b, db', -, -, -, rfl⟩ | ⟨-, hc⟩ := commit_or_frame hs.db (hs.calls _ hmem) hj hx
      · simp [hold]
      · rwa [hc]
  · intro h hr
    rw [(exec_lnd hx).1]
    obtain ⟨b, db', -, hb, -, rfl⟩ | ⟨hdb, -⟩ := commit_or_frame hs.db (hs.calls _ hmem) hj hx
    · rcases hasRow_step hb hr with hr | ⟨htold, -⟩
      · exact hI.completed h hr
      · exact agrees_succeeded (hI.safe.informed _ hmem h .succeeded htold)
    · exact hI.completed h (hdb ▸ hr)

/-! ### Reading it -/

/-- LND only knows payments that were opened over Lightning. -/
theorem Reported.opened_of_known (hI : Reported w ps) (hs : Sane g w ps)
    (hp : w.lnd.payments h ≠ .notReceived) : w.commits.any (opensLightning h) = true := by
  obtain ⟨p, hp, x, hx, hq⟩ := exists_of_callCount_ne_zero (hI.safe.touched h (.inl hp))
  obtain ⟨l, l', hl⟩ := List.append_of_mem hx
  obtain ⟨⟨y, hy, hyi⟩, -⟩ := send_explained hs hp hl hq
  exact hI.opened h (callCount_ne_zero hp (hl ▸ List.mem_append_left _ hy) hyi)

/-- The row of a Lightning payment, and the rows about it. -/
theorem Reported.lightning (hI : Reported w ps)
    (ho : w.commits.any (opensLightning h) = true) :
    ∃ r, w.db.payments.lookup h = some r ∧
      (outgoingRows w.db h).map OutboxEvent.domainEvent = r.events.filterMap announce := by
  cases hI.announced h with
  | absent _ h₂ => cases h₂.symm.trans ho
  | lightning h₁ _ _ h₄ => exact ⟨_, h₁, h₄⟩
  | transfer _ _ h₃ => cases h₃.symm.trans ho

theorem hasRow_of_announce {d : GatewayDomainEvent} {log : List PaymentEvent} {x : PaymentEvent}
    {db : Db} (hrows : (outgoingRows db h).map OutboxEvent.domainEvent = log.filterMap announce)
    (hx : x ∈ log) (hd : announce x = some d) : hasRow db d h = true := by
  have hmem : d ∈ (outgoingRows db h).map OutboxEvent.domainEvent := by
    rw [hrows]
    exact List.mem_filterMap.mpr ⟨x, hx, hd⟩
  obtain ⟨row, hrow, hrd⟩ := List.mem_map.mp hmem
  obtain ⟨hout, hkind⟩ := List.mem_filter.mp hrow
  refine List.any_eq_true.mpr ⟨row, hout, ?_⟩
  simp only [decide_eq_true_eq] at hkind ⊢
  exact ⟨hrd, hkind.2⟩

theorem isCompleted_announce {x : PaymentEvent} (hx : x.isCompleted = true) :
    announce x = some .lightningPaymentCompleted := by
  cases x <;> first | rfl | cases hx

theorem isFailed_announce {x : PaymentEvent} (hx : x.isFailed = true) :
    announce x = some .lightningPaymentFailed := by
  cases x <;> first | rfl | cases hx

/-- A completed Lightning payment succeeded, and its row says so. -/
theorem Reported.of_completed {r : PaymentRow} (hI : Reported w ps)
    (ho : w.commits.any (opensLightning h) = true) (hr : w.db.payments.lookup h = some r)
    (hc : r.events.any PaymentEvent.isCompleted = true) :
    w.lnd.payments h = .succeeded ∧ hasRow w.db .lightningPaymentCompleted h = true := by
  obtain ⟨r', hr', hrows⟩ := hI.lightning ho
  cases hr.symm.trans hr'
  obtain ⟨x, hx, hxc⟩ := List.any_eq_true.mp hc
  have hrow := hasRow_of_announce hrows hx (isCompleted_announce hxc)
  exact ⟨hI.completed h hrow, hrow⟩

/-- A failed Lightning payment is quiet at LND, and its row says so. -/
theorem Reported.of_failed {r : PaymentRow} (hI : Reported w ps)
    (ho : w.commits.any (opensLightning h) = true) (hr : w.db.payments.lookup h = some r)
    (hf : r.events.any PaymentEvent.isFailed = true) :
    quiet w.lnd h = true ∧ hasRow w.db .lightningPaymentFailed h = true := by
  obtain ⟨r', hr', hrows⟩ := hI.lightning ho
  cases hr.symm.trans hr'
  obtain ⟨x, hx, hxf⟩ := List.any_eq_true.mp hf
  have hrow := hasRow_of_announce hrows hx (isFailed_announce hxf)
  exact ⟨(hI.safe.failed h hrow).1, hrow⟩

/-- The durable state of a payment, read off its log. -/
theorem durably_iff {r : PaymentRow} (hdb : DbOk g w.db) (hr : w.db.payments.lookup h = some r) :
    (durably w.db h .completed = true ↔ r.events.any PaymentEvent.isCompleted = true) ∧
      (durably w.db h .failed = true ↔ r.events.any PaymentEvent.isFailed = true) := by
  obtain ⟨n, p, hp, -, hc, hf⟩ := hdb.payment_state hr
  have hfind : Payments.findByPaymentHash w.db h = .ok p := by
    simpa only [Payments.findByPaymentHash, hr] using hp
  simp only [durably, hfind, decide_eq_true_eq]
  exact ⟨hc.symm, hf.symm⟩

/-- A payment that LND does not complete is not durably completed. -/
theorem Reported.not_completed (hI : Reported w ps) (hs : Sane g w ps)
    (ho : w.commits.any (opensLightning h) = true) (hq : w.lnd.payments h ≠ .succeeded) :
    durably w.db h .completed = false := by
  rw [Bool.eq_false_iff]
  intro hd
  obtain ⟨r, hr, -⟩ := hI.lightning ho
  exact hq (hI.of_completed ho hr ((durably_iff hs.db hr).1.mp hd)).1

/-! ### Served calls -/

/-- Where the aggregate of a conclusion was loaded, and what it says. -/
theorem concludes_copy {db : Db} {q : Payment} {e : NewOutboxEvent}
    (hg : ∀ c ∈ past, Genuine g db c) (hc : Concludes g entry past q e) :
    ∃ k h amount p n, Readied past k h amount p ∧ PaymentCopy db k n q ∧ q.events.fresh ≠ [] ∧
      ((q.state = .completed ∧ Told entry past k .succeeded) ∨
        (q.state = .failed ∧ FailedCause g entry past k)) := by
  cases hc with
  | completed hready hset htold =>
      obtain ⟨n, hcopy, -⟩ := readied_copy hg hready
      obtain ⟨-, hs, hid, hev, ht⟩ := PaymentLogs.settle_executed hcopy.tracks hset
      refine ⟨_, _, _, _, n, hready, ⟨ht, hcopy.hash, ?_⟩, by simp [hev], .inl ⟨hs, htold⟩⟩
      rw [hid, hev]
      exact hcopy.snapshot
  | failed hready hfail hcause =>
      obtain ⟨n, hcopy, -⟩ := readied_copy hg hready
      obtain ⟨-, hs, hid, hev, ht⟩ := PaymentLogs.fail_executed hcopy.tracks hfail
      refine ⟨_, _, _, _, n, hready, ⟨ht, hcopy.hash, ?_⟩, by simp [hev], .inr ⟨hs, hcause⟩⟩
      rw [hid, hev]
      exact hcopy.snapshot

/-- A transaction that the database serves commits when it can. -/
theorem served_commits {b : Transaction} {p : Past (gateway g)} {a : Except AppError b.Result}
    (hd : (faultless g).call p (.tx b) c w = true) (hx : exec g.crates (.tx b) c w = some (a, w'))
    (hok : ∀ t, ∃ q db', b.run t w.db = .ok (q, db')) :
    ∃ t q db', b.run t w.db = .ok (q, db') ∧ a = .ok q ∧
      w' = { w with db := db', commits := w.commits ++ [b] } := by
  obtain ⟨t, r, db', hr, rfl, ⟨rfl, rfl⟩ | ⟨rfl, -⟩⟩ |
    ⟨-, ⟨t, e, rfl, he, -⟩ | ⟨rfl | ⟨t, rfl⟩, -⟩⟩ := exec_tx hx
  · exact ⟨t, r, db', hr, rfl, rfl⟩
  · cases hd
  · obtain ⟨q, db', hq⟩ := hok t
    cases he.symm.trans hq
  · cases hd
  · cases hd

/-- Where the aggregate of the `Pending` step was loaded. -/
theorem pending_copy {db : Db} {q : Payment} (hg : ∀ c ∈ past, Genuine g db c)
    (hp : PendingSite g entry past q) : ∃ k n, PaymentCopy db k n q := by
  obtain ⟨n, p, t, ⟨request, e, -, -, ha⟩, hm, -⟩ := hp
  obtain ⟨hc, -⟩ := hg _ ha
  obtain ⟨-, rfl, ht⟩ := PaymentLogs.markPending_executed hc.tracks hm
  exact ⟨_, n, ht, hc.hash, by simpa using hc.snapshot⟩

/-- A payment that is there is found. -/
theorem served_finds {p : Past (gateway g)} {a : Except FindError Payment} {r : PaymentRow}
    (hdb : DbOk g w.db) (hd : (faultless g).call p (.findPayment h) c w = true)
    (hx : exec g.crates (.findPayment h) c w = some (a, w'))
    (hr : w.db.payments.lookup h = some r) : ∃ q, a = .ok q := by
  obtain ⟨n, q, hq, -⟩ := hdb.payment_state hr
  cases c with
  | served t =>
      cases hx
      exact ⟨q, by simpa only [Payments.findByPaymentHash, hr] using hq⟩
  | dbFault => cases hd
  | _ => cases hx

end

end LightningGateway.DurableOutcomes
