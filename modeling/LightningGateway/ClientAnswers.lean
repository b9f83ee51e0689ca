import LightningGateway.PaymentRaces

/-!
# What the client is told

`lnInvoicePaymentSend` reports `FAILURE` for every error of `send_payment`. The
request that made a payment answers for it, and a user who reads `FAILURE` pays
again. Under a truthful LND the only error of that request about a completed
payment is the conflict of `settle_inline` with an update handler that recorded
the same success first.
-/
namespace LightningGateway.ClientAnswers
open Primitives EventTables EffectPrograms TaskPools PaymentAggregate OutboxRows
open LndWire GatewayStore StoreSpecs GatewayEffects PeerCalls PaymentFlows
open GatewayMachine CallSites GatewayInvariant OutboxHistory PaymentLedger SpendGate LndReports
open FundSafety DurableOutcomes PaymentRaces

inductive PaymentSendResult where
  | alreadyPaid
  | failure
  | pending
  | success
deriving DecidableEq, Repr

/-- The status in the payload of `lnInvoicePaymentSend`. -/
def lnInvoicePaymentSend : Except AppError Payment → PaymentSendResult
  | .ok payment =>
      match payment.state with
      | .pending | .initiated => .pending
      | .completed => .success
      | .failed | .reversed => .failure
  | .error (.payment (.alreadyPaid _)) => .alreadyPaid
  | .error _ => .failure

/-- An error, or a payment in a failed state. -/
def refusal : Except AppError Payment → Bool
  | .ok payment => payment.state = .failed ∨ payment.state = .reversed
  | .error _ => true

theorem refusal_of_failure {r : Except AppError Payment}
    (h : lnInvoicePaymentSend r = .failure) : refusal r = true := by
  cases r with
  | error e => rfl
  | ok p => cases hs : p.state <;> simp_all [lnInvoicePaymentSend, refusal]

/-- The request that created the payment `h` has returned a refusal. -/
def refused {g : Deployment} (s : Pool (gateway g)) (h : PaymentHash) : Bool :=
  s.tasks.any fun t => t.calls.any (intends h) &&
    match t.rest with
    | some (.ret (.payment r)) => refusal r
    | _ => false

/-- When a request settles its payment, nobody else has written to it. -/
def settlesFirst (g : Deployment) : Discipline (gateway g) where
  call p o _ w :=
    match p.entry, o with
    | .sendPayment _, .tx (.payment q _) =>
        q.state = .completed → logOf w.db q.paymentHash = q.events.persisted
    | _, _ => true

section
variable {g : Deployment} {entry : Entry} {past : Calls} {w w' : World} {c : Choice}
variable {ps : List (Past (gateway g))} {p : Past (gateway g)} {h : PaymentHash}

/-! ### Which errors a request can see -/

/-- What may come back to a task when LND answers and the database does not fail. -/
def Expected (entry : Entry) : Call gatewaySignature → Prop
  | ⟨.findPayment _, .error _⟩ => ∀ request, entry ≠ .sendPayment request
  | ⟨.tx (.pending _), .error e⟩ => e = .payment (.modify .concurrentModification)
  | ⟨.tx (.payment q _), .error _⟩ => q.state = .completed → ∀ request, entry ≠ .sendPayment request
  | ⟨.lnd (.sendPaymentMessage _), m⟩ => carriesPreimage m = true
  | _ => True

theorem expected_find {k : PaymentHash} {a : Except FindError Payment} (hs : Sane g w ps)
    (hp : (⟨entry, past⟩ : Past (gateway g)) ∈ ps) (hj : Justified g entry past (.findPayment k))
    (hf : (faultless g).call ⟨entry, past⟩ (.findPayment k) c w = true)
    (hx : exec g.crates (.findPayment k) c w = some (a, w')) :
    Expected entry ⟨.findPayment k, a⟩ := by
  cases a with
  | ok q => trivial
  | error e =>
      rintro request rfl
      obtain ⟨n, q, hi, rfl⟩ := hj
      obtain ⟨row, -, hrow, -⟩ := intended_row hs.db (hs.calls _ hp) hi
      obtain ⟨q', hq'⟩ := served_finds hs.db hf hx hrow
      cases hq'

theorem expected_pending {q : Payment} {a : Except AppError Payment} (hs : Sane g w ps)
    (hp : (⟨entry, past⟩ : Past (gateway g)) ∈ ps) (hj : Justified g entry past (.tx (.pending q)))
    (hf : (faultless g).call ⟨entry, past⟩ (.tx (.pending q)) c w = true)
    (hx : exec g.crates (.tx (.pending q)) c w = some (a, w')) :
    Expected entry ⟨.tx (.pending q), a⟩ := by
  obtain ⟨k, n, hcopy⟩ := pending_copy (hs.calls _ hp) hj
  obtain ⟨r, hr, hid, -⟩ := hcopy.snapshot
  obtain ⟨t, x, db', -, rfl, ⟨-, rfl⟩ | ⟨rfl, -⟩⟩ |
    ⟨-, ⟨t, e, -, he, rfl⟩ | ⟨rfl | ⟨t, rfl⟩, -⟩⟩ := exec_tx hx
  · trivial
  · cases hf
  · exact (payments_updateInOp_error hr hid he).2
  · cases hf
  · cases hf

theorem expected_payment {q : Payment} {e : NewOutboxEvent} {a : Except AppError Payment}
    (hs : Sane g w ps) (hp : (⟨entry, past⟩ : Past (gateway g)) ∈ ps)
    (hj : Justified g entry past (.tx (.payment q e)))
    (hf : (faultless g).call ⟨entry, past⟩ (.tx (.payment q e)) c w = true)
    (hd : (settlesFirst g).call ⟨entry, past⟩ (.tx (.payment q e)) c w = true)
    (hx : exec g.crates (.tx (.payment q e)) c w = some (a, w')) :
    Expected entry ⟨.tx (.payment q e), a⟩ := by
  cases a with
  | ok q' => trivial
  | error err =>
      rintro hst request rfl
      obtain ⟨k, h', amount, p, n, -, hcopy, -⟩ := concludes_copy (hs.calls _ hp) hj
      obtain ⟨r, hr, hid, -⟩ := id hcopy.snapshot
      have hsame : logOf w.db q.paymentHash = q.events.persisted := of_decide_eq_true hd hst
      rw [hcopy.tracks.paymentHash.trans hcopy.hash, logOf_row hr] at hsame
      obtain ⟨t, q', db', -, hok, -⟩ := served_commits hf hx fun t => run_payment_ok hr hid hsame
      cases hok

theorem expected_call {o : Op} {a : o.Ans} (hs : Sane g w ps)
    (hp : (⟨entry, past⟩ : Past (gateway g)) ∈ ps) (hj : Justified g entry past o)
    (ha : (answered g).call ⟨entry, past⟩ o c w = true)
    (hf : (faultless g).call ⟨entry, past⟩ o c w = true)
    (hd : (settlesFirst g).call ⟨entry, past⟩ o c w = true)
    (hx : exec g.crates o c w = some (a, w')) : Expected entry ⟨o, a⟩ := by
  cases o with
  | findPayment k => exact expected_find hs hp hj hf hx
  | tx b =>
      cases b with
      | pending q => exact expected_pending hs hp hj hf hx
      | payment q e => exact expected_payment hs hp hj hf hd hx
      | _ => trivial
  | lnd o =>
      cases o with
      | sendPaymentMessage r =>
          cases c with
          | lndPayment m =>
              cases hx
              exact (Bool.and_eq_true_iff.mp ha).1
          | _ => cases hx
      | _ => trivial
  | _ => trivial

/-! ### The invariant -/

structure Frank (w : World) (ps : List (Past (gateway g))) : Prop where
  reported : Reported w ps
  expected : ∀ p ∈ ps, ∀ c ∈ p.calls, Expected p.entry c

theorem frank_empty : Frank World.empty ([] : List (Past (gateway g))) :=
  ⟨reported_empty, fun _ hp => (by cases hp)⟩

theorem Frank.spawn {e : Entry} (hI : Frank w ps) (hd : (truthful g).spawn e w = true) :
    Frank w (ps ++ [⟨e, []⟩]) := by
  exact ⟨hI.reported.spawn hd, pasts_spawn (fun _ hx => by cases hx) hI.expected⟩

theorem Frank.call {o : Op} {a : o.Ans} {i : ℕ} (hI : Frank w ps) (hs : Sane g w ps)
    (hi : ps[i]? = some ⟨entry, past⟩) (hj : Justified g entry past o)
    (ho : (orderly g).call ⟨entry, past⟩ o c w = true)
    (hd : (settlesFirst g).call ⟨entry, past⟩ o c w = true)
    (hx : exec g.crates o c w = some (a, w')) :
    Frank w' (ps.set i ⟨entry, past ++ [⟨o, a⟩]⟩) := by
  have hmem := List.mem_of_getElem? hi
  obtain ⟨ho, hf⟩ := Discipline.both_call.mp ho
  obtain ⟨ht, ha⟩ := Discipline.both_call.mp ho
  refine ⟨hI.reported.call hs hi hj ht ha hx, ?_⟩
  refine pasts_call hi (fun _ h => h) (fun hpast x hx' => ?_) hI.expected
  rcases List.mem_append.mp hx' with hx' | hx'
  · exact hpast x hx'
  · obtain rfl := List.mem_singleton.mp hx'
    exact expected_call hs hmem hj ha hf hd hx

/-! ### Returned requests -/

/-- A request writes the payment it created. -/
theorem request_key (hs : Sane g w ps) {request : SendPaymentRequest}
    (hp : (⟨.sendPayment request, past⟩ : Past (gateway g)) ∈ ps) {n : NewPayment}
    {e : NewOutboxEvent} {r : Except AppError Payment} (ha : Answered past (.tx (.intent n e)) r)
    {k h : PaymentHash} {amount : MilliSatoshi} {q : Payment} (hr : Readied past k h amount q) :
    k = n.paymentHash := by
  have loaded {q : Payment} (hl : LoadedPayment past k h amount q) : k = n.paymentHash := by
    cases hl with
    | created ha' =>
        cases intent_once hs hp ha' ha
        rfl
    | found ha' _ =>
        obtain ⟨l, l', hl⟩ := List.append_of_mem ha'
        have hfind : FindSite g (.sendPayment request) l k := hs.explained _ hp l _ l' hl
        obtain ⟨n', p', ⟨request', e', -, -, hint⟩, rfl⟩ := hfind
        have hint' : Answered past (.tx (.intent n' e')) (.ok p') :=
          hl ▸ List.mem_append_left _ hint
        cases intent_once hs hp hint' ha
        rfl
  cases hr with
  | loaded hl => exact loaded hl
  | pending hl _ => exact loaded hl

/-- A refused request is about a payment that is not completed. -/
theorem Frank.not_completed {r : Except AppError Payment} (hI : Frank w ps) (hs : Sane g w ps)
    (hp : (⟨entry, past⟩ : Past (gateway g)) ∈ ps) {n : NewPayment} {e : NewOutboxEvent}
    {q : Payment} (ha : Answered past (.tx (.intent n e)) (.ok q))
    (hr : SendReturn g entry past r) (href : refusal r = true) :
    durably w.db n.paymentHash .completed = false := by
  have hpast := hs.calls _ hp
  have hexp := hI.expected _ hp
  obtain ⟨l, l', hl⟩ := List.append_of_mem ha
  obtain ⟨request, utcNow, rfl, -⟩ := hs.explained _ hp l _ l' hl
  have hopen : w.commits.any (opensLightning n.paymentHash) = true :=
    hI.reported.opened _ (callCount_ne_zero hp ha (by simp [intends]))
  have same {n' : NewPayment} {p' : Payment}
      (hi : Intends g (.sendPayment request) past n' p') : n' = n := by
    obtain ⟨request', e', -, -, hint⟩ := hi
    cases intent_once hs hp hint ha
    rfl
  cases hr with
  | early hno | unposted _ _ hno | uncanceled _ _ _ hno | transferred _ _ _ hno =>
      exact absurd ha (hno _ _ _)
  | refused hi hno =>
      obtain ⟨request', e', -, -, hint⟩ := hi
      obtain ⟨-, hst, hev⟩ := hpast _ hint
      exact absurd ⟨hst, by rw [hev]; rfl⟩ hno
  | @concluded n' p' q' e' r hi hc ha' =>
      obtain ⟨k, h', amount, p, m, hready, hcopy, -, ⟨hst, -⟩ | ⟨-, hcause⟩⟩ :=
        concludes_copy hpast hc
      · cases r with
        | error err => exact absurd rfl (hexp _ ha' hst request)
        | ok q'' =>
            have hstate : q''.state = q'.state := hpast _ ha'
            simp [refusal, hstate, hst] at href
      · rw [← request_key hs hp ha hready] at hopen ⊢
        exact hI.reported.not_completed hs hopen
          (quiet_not_succeeded (quiet_of_cause hI.reported.safe hs hp hcause).1)
  | @pended n' p' q' r hi hsite ha' hne =>
      cases r with
      | error err => exact absurd (congrArg Except.error (hexp _ ha')) hne
      | ok q'' =>
          have hstate : q''.state = q'.state := hpast _ ha'
          obtain ⟨m, p₀, t, ⟨request', e', -, -, hint⟩, hm, -⟩ := hsite
          obtain ⟨-, rfl, -⟩ := PaymentLogs.markPending_executed (hpast _ hint).1.tracks hm
          simp [refusal, hstate] at href
  | @reloaded n' p' r hi ha' =>
      obtain rfl := same hi
      cases r with
      | error err => exact absurd rfl (hexp _ ha' request)
      | ok q' =>
          obtain ⟨⟨hclean, hrev⟩, m, hcopy⟩ := hpast _ ha'
          have hfail : q'.state = .failed := by
            have : q'.state = .failed ∨ q'.state = .reversed := of_decide_eq_true href
            exact this.resolve_right hrev
          obtain ⟨row, hrow, -, more, hmore⟩ := hcopy.snapshot
          have hlog := hcopy.tracks.log.any_isFailed.mpr hfail
          rw [EntityEvents.iterAll, hclean, List.append_nil] at hlog
          have hf : row.events.any PaymentEvent.isFailed = true := by
            rw [← hmore, List.any_append, hlog, Bool.true_or]
          exact hI.reported.not_completed hs hopen
            (quiet_not_succeeded (hI.reported.of_failed hopen hrow hf).1)
  | unreadable hi ha' hm _ hst hnone =>
      have hcarry := hexp _ ha'
      simp [Expected, carriesPreimage, hm, hst, hnone] at hcarry

end

/-! ### Runs -/

/-- A request whose payment is durably completed does not report a failure, provided
requests settle their payments before anyone else writes to them. -/
theorem refused_not_completed (g : Deployment) (es : List (Event (gateway g)))
    (s : Pool (gateway g)) (hrun : Runs ((orderly g).both (settlesFirst g)) (boot g) es s)
    (h : PaymentHash) (hret : refused s h = true) : durably s.world.db h .completed = false := by
  obtain ⟨hsound, hs, hI⟩ := gateway_invariant ((orderly g).both (settlesFirst g)) (I := Frank)
    frank_empty
    (fun w ps e hd _ hI => by
      obtain ⟨ho, -⟩ := Discipline.both_spawn.mp hd
      exact hI.spawn (Discipline.both_spawn.mp (Discipline.both_spawn.mp ho).1).1)
    (fun w ps i entry past o c a w' hi hj hd hx hs hI =>
      hI.call hs hi hj (Discipline.both_call.mp hd).1 (Discipline.both_call.mp hd).2 hx)
    (fun w ps x w' _ hx _ hI => ⟨hI.reported.env hx, hI.expected⟩) hrun
  obtain ⟨⟨⟨entry, past⟩, rest⟩, ht, hdone⟩ := List.any_eq_true.mp hret
  obtain ⟨hown, hrest⟩ := Bool.and_eq_true_iff.mp hdone
  have hp : (⟨entry, past⟩ : Past (gateway g)) ∈ s.pasts :=
    List.mem_map_of_mem (f := Task.toPast) ht
  obtain ⟨x, hx, hxi⟩ := List.any_eq_true.mp hown
  unfold intends at hxi
  split at hxi
  case h_2 => cases hxi
  case h_1 n e q =>
    obtain rfl := of_decide_eq_true hxi
    dsimp only at hrest
    split at hrest
    case h_1 r => exact hI.not_completed hs hp hx (hsound _ ht _ rfl) hrest
    case h_2 => cases hrest

theorem refused_not_completed_failed :
    ∃ s, Runs ((orderly Sample.deployment).both (settlesFirst Sample.deployment))
        (boot Sample.deployment) refusedRun s ∧ refused s Sample.hash = true ∧
      durably s.world.db Sample.hash .completed = false := by
  obtain ⟨s, hrun, hret⟩ := exists_run_of_play
    ((orderly Sample.deployment).both (settlesFirst Sample.deployment))
    (boot Sample.deployment) refusedRun
    (fun s => refused s Sample.hash) (by decide +kernel)
  exact ⟨s, hrun, hret,
    refused_not_completed Sample.deployment refusedRun s hrun Sample.hash hret⟩

/-- LND settles at once and reports so twice; the handler's report is recorded
first. -/
def falseFailureRun : List (Event (gateway Sample.deployment)) :=
  Sample.sendUpToMessage 0 ++
    [.env (.receive Sample.hash), .env (.resolve Sample.hash true),
      .spawn (.handlePaymentUpdate Sample.settledUpdate), .step 1 (.served Sample.noon),
      .step 1 (.clock Sample.noon), .step 1 (.clock Sample.noon), .step 1 (.served Sample.noon),
      .step 0 (.lndPayment (Sample.message 2 Sample.preimage.toHex)),
      .step 0 (.clock Sample.noon), .step 0 (.served Sample.noon)]

/-- The status the first request of a run reports. -/
def firstStatus {g : Deployment} (s : Pool (gateway g)) : Option PaymentSendResult :=
  match s.tasks.head?.bind Task.rest with
  | some (.ret (.payment r)) => some (lnInvoicePaymentSend r)
  | _ => none

/-- The client reads `FAILURE` and the payment is completed. -/
theorem refused_and_completed :
    ∃ s, Runs (orderly Sample.deployment) (boot Sample.deployment) falseFailureRun s ∧
      refused s Sample.hash = true ∧ firstStatus s = some .failure ∧
      durably s.world.db Sample.hash .completed = true := by
  obtain ⟨s, hrun, hc⟩ := exists_run_of_play (orderly Sample.deployment)
    (boot Sample.deployment) falseFailureRun
    (fun s => refused s Sample.hash && decide (firstStatus s = some .failure) &&
      durably s.world.db Sample.hash .completed) (by decide +kernel)
  simp only [Bool.and_eq_true, decide_eq_true_eq] at hc
  exact ⟨s, hrun, hc.1.1, hc.1.2, hc.2⟩

end LightningGateway.ClientAnswers
