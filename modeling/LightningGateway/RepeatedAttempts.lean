import LightningGateway.SpendGate

/-!
# A second attempt at one hash

A payment hash enters the payments table once. Whoever comes second is told that
the payment exists already, and is told so whatever became of the first attempt: a
payment that Symphony declined, and that LND never heard of, keeps its hash. The
answer is given in no other case: as long as no attempt for a hash is on record, no
request for it is turned away as paid.
-/
namespace LightningGateway.RepeatedAttempts
open Primitives EventTables EffectPrograms TaskPools PaymentAggregate InvoiceAggregate
open GatewayStore StoreSpecs GatewayEffects PeerCalls PaymentFlows
open GatewayMachine CallSites GatewayInvariant SpendGate

variable {g : Deployment} {entry : Entry} {past : Calls} {w w' : World} {c : Choice}
variable {ps : List (Past (gateway g))} {h : PaymentHash} {db db' : Db}

/-! ### Which transactions can report it -/

/-- A call that reported an existing payment was the intent of a payment whose hash
the table had, or a transfer. -/
def Grounded (db : Db) : Call gatewaySignature → Prop
  | ⟨.tx (.intent n _), .error (.payment (.alreadyPaid _))⟩ =>
      ∃ r, db.payments.lookup n.paymentHash = some r
  | ⟨.tx (.pending _), .error (.payment (.alreadyPaid _))⟩ => False
  | ⟨.tx (.payment ..), .error (.payment (.alreadyPaid _))⟩ => False
  | _ => True

theorem Grounded.grows {x : Call gatewaySignature} (hx : Grounded db x)
    (hgrow : db.payments.Extends db'.payments) : Grounded db' x := by
  unfold Grounded at hx ⊢
  split at hx
  · obtain ⟨r, hr⟩ := hx
    obtain ⟨r', hr', -⟩ := hgrow _ r hr
    exact ⟨r', hr'⟩
  · exact hx
  · exact hx
  · trivial

theorem updateInOp_ne_exists {p : Payment} {x : String} :
    Payments.updateInOp p db ≠ .error (.payment (.alreadyPaid x)) := by
  intro h
  unfold Payments.updateInOp at h
  split_ifs at h
  split at h <;> cases h

theorem run_payment_ne_exists {p : Payment} {e : OutboxRows.NewOutboxEvent} {clock : Timestamp}
    {x : String} : (Transaction.payment p e).run clock db ≠ .error (.payment (.alreadyPaid x)) := by
  intro h
  rcases tx_bind_error.mp h with h | ⟨q, db₁, -, h⟩
  · exact updateInOp_ne_exists h
  · rcases tx_bind_error.mp h with h | ⟨v, db₂, -, h⟩ <;> cases h

theorem exec_grounded {o : Op} {a : o.Ans} (hx : exec g.crates o c w = some (a, w')) :
    Grounded w.db ⟨o, a⟩ := by
  cases o with
  | tx b =>
      have herror : ∀ x, a = .error (.payment (.alreadyPaid x)) →
          ∃ t, b.run t w.db = .error (.payment (.alreadyPaid x)) := by
        rintro x rfl
        obtain ⟨t, r, db', -, -, ⟨-, ha⟩ | ⟨-, ha⟩⟩ | ⟨-, ⟨t, e, -, hr, ha⟩ | ⟨-, ha⟩⟩ := exec_tx hx
        · cases ha
        · cases b <;> cases ha
        · cases ha
          exact ⟨t, hr⟩
        · cases b <;> cases ha
      unfold Grounded
      split
      next n e x heq =>
        cases heq
        obtain ⟨t, hr⟩ := herror x rfl
        exact (run_intent_exists.mp hr).2.2.2.1
      next p x heq =>
        cases heq
        obtain ⟨t, hr⟩ := herror x rfl
        exact updateInOp_ne_exists hr
      next p e x heq =>
        cases heq
        obtain ⟨t, hr⟩ := herror x rfl
        exact run_payment_ne_exists hr
      next => trivial
  | _ => trivial

/-! ### Every payment on record was attempted -/

/-- The payments on record are those of committed intents, save the transfers to
invoices of the gateway; and every committed intent is the call of a task that was
not turned away. -/
structure Attempted (w : World) (ps : List (Past (gateway g))) : Prop where
  grounded : ∀ p ∈ ps, ∀ c ∈ p.calls, Grounded w.db c
  opened : ∀ h r, w.db.payments.lookup h = some r →
    (∃ ri, w.db.invoices.lookup h = some ri) ∨
      ∃ n e, n.paymentHash = h ∧ Transaction.intent n e ∈ w.commits
  made : ∀ n e, Transaction.intent n e ∈ w.commits →
    ∃ p ∈ ps, ∃ a, Answered p.calls (.tx (.intent n e)) a ∧
      ∀ x, a ≠ .error (.payment (.alreadyPaid x))

/-- A payment row is old, or the transaction that wrote it is an intent or a
transfer. -/
theorem payment_opened {b : Transaction} {r : PaymentRow} (hb : LedgerStep g entry past db db' b)
    (hr : db'.payments.lookup h = some r) :
    (∃ r₀, db.payments.lookup h = some r₀) ∨ (∃ ri, db'.invoices.lookup h = some ri) ∨
      ∃ n e, n.paymentHash = h ∧ b = .intent n e := by
  cases hb with
  | @intent n e _ _ _ _ _ hw _ _ =>
      rw [hw h] at hr
      split_ifs at hr with hk
      · exact .inr (.inr ⟨n, e, hk.symm, rfl⟩)
      · exact .inl ⟨r, hr⟩
  | pending _ hl _ _ _ hw _ _ | completed _ hl _ _ _ _ hw _ _ | failed _ hl _ _ _ _ hw _ _ =>
      rw [hw h] at hr
      split_ifs at hr with hk
      · exact .inl ⟨_, hk ▸ hl⟩
      · exact .inl ⟨r, hr⟩
  | transfer _ _ _ _ hw _ _ _ _ hwi _ =>
      rw [hw h] at hr
      split_ifs at hr with hk
      · exact .inr (.inl ⟨_, hk ▸ hwi.at⟩)
      · exact .inl ⟨r, hr⟩
  | createInvoice _ _ _ _ hp _ | held _ _ _ _ _ _ hp _ | settled _ _ _ _ _ _ hp _
  | canceled _ _ _ _ _ _ _ hp _ => exact .inl ⟨r, hp ▸ hr⟩

theorem Attempted.call {o : Op} {a : o.Ans} {i : ℕ} (hI : Attempted w ps) (hs : Sane g w ps)
    (hi : ps[i]? = some ⟨entry, past⟩) (hj : Justified g entry past o)
    (hx : exec g.crates o c w = some (a, w')) :
    Attempted w' (ps.set i ⟨entry, past ++ [⟨o, a⟩]⟩) := by
  have hmem := List.mem_of_getElem? hi
  have hpast := hs.calls _ hmem
  have hgrow := exec_grows hs.db hpast hj hx
  have hset : (⟨entry, past ++ [⟨o, a⟩]⟩ : Past (gateway g)) ∈
      ps.set i ⟨entry, past ++ [⟨o, a⟩]⟩ :=
    List.mem_set (List.getElem?_eq_some_iff.mp hi).choose _
  -- The calls that are there stay there.
  have kept : ∀ {n e}, Transaction.intent n e ∈ w.commits →
      ∃ p ∈ ps.set i ⟨entry, past ++ [⟨o, a⟩]⟩, ∃ a', Answered p.calls (.tx (.intent n e)) a' ∧
        ∀ x, a' ≠ .error (.payment (.alreadyPaid x)) := by
    intro n e hc
    obtain ⟨p, hp, a', ha', hne⟩ := hI.made n e hc
    rcases mem_set_or_eq i ⟨entry, past ++ [⟨o, a⟩]⟩ hp with hp | hp
    · exact ⟨p, hp, a', ha', hne⟩
    · cases hi.symm.trans hp
      exact ⟨_, hset, a', ha'.later, hne⟩
  constructor
  · exact calls_call hi (fun _ hg => hg.grows hgrow.1) ((exec_grounded hx).grows hgrow.1)
      hI.grounded
  · intro h r hr
    have old : (∃ r₀, w.db.payments.lookup h = some r₀) → (∃ ri, w'.db.invoices.lookup h = some ri) ∨
        ∃ n e, n.paymentHash = h ∧ Transaction.intent n e ∈ w.commits := by
      rintro ⟨r₀, hr₀⟩
      rcases hI.opened h r₀ hr₀ with ⟨ri, hri⟩ | hopen
      · obtain ⟨ri', hri', -⟩ := hgrow.2 h ri hri
        exact .inl ⟨ri', hri'⟩
      · exact .inr hopen
    obtain ⟨b, db', -, hb, -, rfl⟩ | ⟨hdb, hcommits⟩ := commit_or_frame hs.db hpast hj hx
    · rcases payment_opened hb hr with hr₀ | hri | ⟨n, e, hn, rfl⟩
      · rcases old hr₀ with hri | ⟨n, e, hn, hc⟩
        · exact .inl hri
        · exact .inr ⟨n, e, hn, List.mem_append_left _ hc⟩
      · exact .inl hri
      · exact .inr ⟨n, e, hn, List.mem_append_right _ List.mem_cons_self⟩
    · rw [hcommits]
      exact old ⟨r, hdb ▸ hr⟩
  · intro n e hc
    by_cases ho : isTx o = true
    · cases o with
      | tx b =>
          obtain ⟨t, r, db', -, rfl, ha⟩ | ⟨rfl, -⟩ := exec_tx hx
          · rcases List.mem_append.mp hc with hc | hc
            · exact kept hc
            · cases List.mem_singleton.mp hc
              refine ⟨_, hset, a, answered_last, ?_⟩
              rintro x rfl
              rcases ha with ⟨-, ha⟩ | ⟨-, ha⟩ <;> cases ha
          · exact kept hc
      | _ => cases ho
    · rw [((exec_frame hx).1 (Bool.eq_false_iff.mpr ho)).2] at hc
      exact kept hc

theorem Attempted.env {x : Env} (hI : Attempted w ps) (hx : env x w = some w') :
    Attempted w' ps := by
  obtain ⟨hp, hinv, -, hcommits, -⟩ := env_frame hx
  constructor
  · exact fun p hps call hcall => (hI.grounded p hps call hcall).grows (hp ▸ .refl _)
  · intro h r hr
    rw [hinv, hcommits]
    exact hI.opened h r (hp ▸ hr)
  · rw [hcommits]
    exact hI.made

theorem Attempted.spawn (hI : Attempted w ps) (e : Entry) : Attempted w (ps ++ [⟨e, []⟩]) := by
  constructor
  · exact pasts_spawn (fun _ hcall => by cases hcall) hI.grounded
  · exact hI.opened
  · intro n e' hc
    obtain ⟨p, hp, ha⟩ := hI.made n e' hc
    exact ⟨p, List.mem_append_left _ hp, ha⟩

/-! ### Why a request is turned away -/

/-- Without an invoice of its own for the hash, the gateway turns a request away as
paid only at the insert of its intent. -/
theorem turned_away {p : Past (gateway g)} (hs : Sane g w ps) (hI : Attempted w ps) (hp : p ∈ ps)
    {request : SendPaymentRequest} {invoice : Bolt11Invoice} {x : String}
    (hentry : p.entry = .sendPayment request)
    (hparsed : g.crates.bolt11 request.paymentRequest = .ok invoice)
    (hnone : w.db.invoices.lookup invoice.paymentHash = none)
    (hr : SendReturn g p.entry p.calls (.error (.payment (.alreadyPaid x)))) :
    ∃ n e, n.paymentHash = invoice.paymentHash ∧
      Answered p.calls (.tx (.intent n e)) (.error (.payment (.alreadyPaid x))) := by
  -- A recipient that was found would be in the table.
  have notOurs : ∀ {k i}, ¬Answered p.calls (.maybeFindInvoice k) (.ok (some i)) := by
    intro k i ha
    obtain ⟨l, l', hl⟩ := List.append_of_mem ha
    obtain ⟨request', invoice', he, hinv', rfl⟩ := hs.explained p hp l _ l' hl
    cases hentry.symm.trans he
    cases hparsed.symm.trans hinv'
    obtain ⟨n, hcopy⟩ := hs.calls p hp _ ha
    obtain ⟨row, hrow, -⟩ := hcopy.snapshot
    cases hnone.symm.trans hrow
  generalize hr' : (Except.error (.payment (.alreadyPaid x)) : Except AppError Payment) = r at hr
  cases hr with
  | early hno hauth hcause =>
      cases hcause x hr'.symm with
      | @recorded n e ha =>
          refine ⟨n, e, ?_, ha⟩
          obtain ⟨l, l', hl⟩ := List.append_of_mem ha
          obtain ⟨request', utcNow, he, hreq, -⟩ := hs.explained p hp l _ l' hl
          cases hentry.symm.trans he
          obtain ⟨invoice', amount, hinv', -, hh, -⟩ := hreq.parsed
          cases hparsed.symm.trans hinv'
          exact hh
      | ours ha => exact absurd ha notOurs
  | refused hi hno =>
      obtain ⟨request', e, -, -, hint⟩ := hi
      obtain ⟨-, hst, hev⟩ := hs.calls p hp _ hint
      exact absurd ⟨hst, by rw [hev]; rfl⟩ hno
  | concluded hi hc ha =>
      rw [← hr'] at ha
      exact absurd (hI.grounded p hp _ ha) id
  | pended hi hc ha hne =>
      rw [← hr'] at ha
      exact absurd (hI.grounded p hp _ ha) id
  | @reloaded n q r hi ha =>
      cases r <;> cases hr'
  | unreadable => cases hr'
  | unposted ha hno hnoint =>
      obtain ⟨l, l', hl⟩ := List.append_of_mem ha
      rcases hs.explained p hp l _ l' hl with ⟨n, q, ⟨request', e, -, -, hint⟩, -⟩ | ⟨n, i, hplan, -⟩
      · exact absurd (hl ▸ List.mem_append_left _ hint) (hnoint n e q)
      · exact absurd (hl ▸ List.mem_append_left _ hplan.found) notOurs
  | uncanceled => cases hr'
  | transferred hplan => exact absurd hplan.found notOurs

/-- Another task than the `i`th has a payment for `h` on record. -/
def AttemptedBefore (s : Pool (gateway g)) (i : ℕ) (h : PaymentHash) : Prop :=
  ∃ j t request n e a, j ≠ i ∧ s.tasks[j]? = some t ∧ t.entry = .sendPayment request ∧
    n.paymentHash = h ∧ Answered t.calls (.tx (.intent n e)) a ∧
    Transaction.intent n e ∈ s.world.commits ∧ ∃ r, s.world.db.payments.lookup h = some r

theorem attemptedBefore_of_turned_away {s : Pool (gateway g)} (hs : Sane g s.world s.pasts)
    (hI : Attempted s.world s.pasts) {i : ℕ} {t : Task (gateway g)} {n : NewPayment}
    {e : OutboxRows.NewOutboxEvent} {x : String} (ht : s.tasks[i]? = some t)
    (hnone : s.world.db.invoices.lookup n.paymentHash = none)
    (ha : Answered t.calls (.tx (.intent n e)) (.error (.payment (.alreadyPaid x)))) :
    AttemptedBefore s i n.paymentHash := by
  have hp : t.toPast ∈ s.pasts := List.mem_map_of_mem (List.mem_of_getElem? ht)
  obtain ⟨r, hr⟩ : ∃ r, s.world.db.payments.lookup n.paymentHash = some r :=
    hI.grounded _ hp _ ha
  rcases hI.opened _ r hr with ⟨ri, hri⟩ | ⟨n', e', hn', hc⟩
  · cases hnone.symm.trans hri
  · obtain ⟨p', hp', a', ha', hne⟩ := hI.made n' e' hc
    obtain ⟨t', ht', rfl⟩ := List.mem_map.mp hp'
    obtain ⟨j, hj⟩ := List.getElem?_of_mem ht'
    obtain ⟨l, l', hl⟩ := List.append_of_mem ha'
    obtain ⟨request, utcNow, he, -⟩ := hs.explained _ hp' l _ l' hl
    refine ⟨j, t', request, n', e', a', ?_, hj, he, hn', ha', hc, r, hr⟩
    rintro rfl
    -- A task with two intents would have to agree with itself.
    cases ht.symm.trans hj
    cases intent_once hs hp ha ha'
    exact hne x rfl

/-- The amounts of a requested payment fit their columns. -/
theorem requested_fits {request : SendPaymentRequest} {n : NewPayment}
    (hreq : Requested g request n) :
    (tryI64 n.amountMsat.msat).isSome = true ∧ (tryI64 n.maxFeeMsat.msat).isSome = true := by
  obtain ⟨invoice, amount, -, hamount, -, hround⟩ := hreq.parsed
  have hbound := invoice.bounded amount hamount
  have hfee := FeePolicy.maxFor_lt n.amountMsat
  rw [← hreq.maxFeeMsat] at hfee
  have hmsat : n.amountMsat.msat.toNat = (amount.toNat + 999) / 1000 * 1000 := by
    rw [hround, roundUpToSat_toNat (show amount.toNat ≤ _ by omega)]
  unfold tryI64
  constructor
  · rw [if_pos (by omega)]
    rfl
  · rw [if_pos (by omega)]
    rfl

/-- Where the gateway has no invoice for a hash, a request is told that the payment
exists already only when another request has put it on record, whatever became of
it; and a request about to record its intent, under a new identifier, is told so
exactly when the payment is on record. -/
theorem already_paid_iff_recorded (g : Deployment) (D : Discipline (gateway g))
    (es : List (Event (gateway g))) (s : Pool (gateway g)) (hrun : Runs D (boot g) es s) :
    (∀ i t request invoice x, s.tasks[i]? = some t → t.entry = .sendPayment request →
      g.crates.bolt11 request.paymentRequest = .ok invoice →
      s.world.db.invoices.lookup invoice.paymentHash = none →
      t.rest = some (.ret (.payment (.error (.payment (.alreadyPaid x))))) →
      AttemptedBefore s i invoice.paymentHash) ∧
    (∀ t ∈ s.tasks, ∀ n e k clock, t.rest = some (.call (.tx (.intent n e)) k) →
      (∀ r ∈ s.world.db.payments.rows, r.id ≠ n.id) →
      ((Transaction.intent n e).run clock s.world.db =
          .error (.payment (.alreadyPaid (byteaText n.paymentHash))) ↔
        ∃ r, s.world.db.payments.lookup n.paymentHash = some r)) := by
  have hinit : Attempted World.empty ([] : List (Past (gateway g))) := by
    constructor
    · exact fun p hp => absurd hp List.not_mem_nil
    · intro h r hr
      cases hr
    · exact fun n e hc => absurd hc List.not_mem_nil
  obtain ⟨hsound, hs, hI⟩ := gateway_invariant D (I := Attempted) hinit
    (fun w ps e _ _ hI => hI.spawn e)
    (fun w ps i entry past o c a w' hi hj _ hx hs hI => hI.call hs hi hj hx)
    (fun w ps x w' _ hx _ hI => hI.env hx) hrun
  constructor
  · intro i t request invoice x ht hentry hparsed hnone hret
    have hp : t.toPast ∈ s.pasts := List.mem_map_of_mem (List.mem_of_getElem? ht)
    have hreturn : SendReturn g t.entry t.calls (.error (.payment (.alreadyPaid x))) :=
      hsound t (List.mem_of_getElem? ht) _ hret
    obtain ⟨n, e, hn, ha⟩ := turned_away hs hI hp hentry hparsed hnone hreturn
    rw [← hn] at hnone ⊢
    exact attemptedBefore_of_turned_away hs hI ht hnone ha
  · intro t ht n e k clock hrest hids
    obtain ⟨request, utcNow, -, hreq, -⟩ := (hsound t ht _ hrest).1
    obtain ⟨hamount, hfee⟩ := requested_fits hreq
    rw [run_intent_exists]
    constructor
    · exact fun h => h.2.2.2.1
    · exact fun hr => ⟨hamount, hfee, hids, hr, rfl⟩

/-! ### A hash that is burnt -/

/-- Another wallet pays the sample invoice. -/
def secondRequest : SendPaymentRequest := ⟨Sample.caller, Sample.payeeWallet, Sample.text, none⟩

def secondId : Uuid := ⟨List.replicate 16 5, rfl⟩

/-- Symphony declines the first request, and the second wallet tries. -/
def declinedRun : List (Event (gateway Sample.deployment)) :=
  (Sample.sendUpToMessage 0).take 8 ++
    [.step 0 (.symphony false (.ok ⟨false, "", 1, ""⟩)), .step 0 (.clock Sample.noon),
      .step 0 (.served Sample.noon),
      .spawn (.sendPayment secondRequest), .step 1 (.clock Sample.noon),
      .step 1 (.ownership (.ok ())), .step 1 (.clock Sample.noon), .step 1 (.served Sample.noon),
      .step 1 (.uuid secondId), .step 1 (.clock Sample.noon), .step 1 (.served Sample.noon)]

/-- The task served `request` and turned it away because the payment exists. -/
def turnsAway (request : SendPaymentRequest) (t : Task (gateway g)) : Bool :=
  match t.entry, t.rest with
  | .sendPayment r, some (.ret (.payment (.error (.payment (.alreadyPaid _))))) => r = request
  | _, _ => false

theorem turnsAway_spec {request : SendPaymentRequest} {t : Task (gateway g)}
    (h : turnsAway request t = true) : t.entry = .sendPayment request ∧
      ∃ x, t.rest = some (.ret (.payment (.error (.payment (.alreadyPaid x))))) := by
  unfold turnsAway at h
  split at h
  next r x he hr => exact ⟨of_decide_eq_true h ▸ he, x, hr⟩
  next => cases h

/-- The payment is on record as failed. -/
def recordedFailed (db : Db) (h : PaymentHash) : Bool :=
  match Payments.findByPaymentHash db h with
  | .ok p => p.state = .failed
  | .error _ => false

/-- The first attempt failed before LND was asked, the gateway has no invoice for the
hash, and still the second wallet is turned away. -/
theorem failed_attempt_burns_hash :
    ∃ s t, Runs {} (boot Sample.deployment) declinedRun s ∧ s.tasks[1]? = some t ∧
      t.entry = .sendPayment secondRequest ∧
      s.world.db.invoices.lookup Sample.hash = none ∧
      recordedFailed s.world.db Sample.hash = true ∧
      s.world.lnd.payments Sample.hash = .notReceived ∧ s.world.authorized = [] ∧
      ∃ x, t.rest = some (.ret (.payment (.error (.payment (.alreadyPaid x))))) := by
  obtain ⟨s, hrun, hc⟩ := exists_run_of_play {} (boot Sample.deployment) declinedRun
    (fun s => (s.tasks[1]?).any (turnsAway secondRequest) &&
      (s.world.db.invoices.lookup Sample.hash).isNone && recordedFailed s.world.db Sample.hash &&
      decide (s.world.lnd.payments Sample.hash = .notReceived) && s.world.authorized.isEmpty)
    (by decide +kernel)
  simp only [Bool.and_eq_true, Option.any_eq_true, decide_eq_true_eq, Option.isNone_iff_eq_none,
    List.isEmpty_iff] at hc
  obtain ⟨⟨⟨⟨⟨t, ht, haway⟩, hnone⟩, hfailed⟩, hlnd⟩, hauth⟩ := hc
  obtain ⟨he, hret⟩ := turnsAway_spec haway
  exact ⟨s, t, hrun, ht, he, hnone, hfailed, hlnd, hauth, hret⟩

/-- There the first task is the one that has the payment on record. -/
theorem already_paid_iff_recorded_declined :
    ∃ s, Runs {} (boot Sample.deployment) declinedRun s ∧ AttemptedBefore s 1 Sample.hash := by
  obtain ⟨s, hrun, hc⟩ := exists_run_of_play {} (boot Sample.deployment) declinedRun
    (fun s => (s.tasks[1]?).any (turnsAway secondRequest) &&
      (s.world.db.invoices.lookup Sample.hash).isNone) (by decide +kernel)
  simp only [Bool.and_eq_true, Option.any_eq_true, Option.isNone_iff_eq_none] at hc
  obtain ⟨⟨t, ht, haway⟩, hnone⟩ := hc
  obtain ⟨he, x, hx⟩ := turnsAway_spec haway
  refine ⟨s, hrun, ?_⟩
  exact (already_paid_iff_recorded Sample.deployment {} declinedRun s hrun).1 1 t secondRequest
    Sample.invoice x ht he Sample.bolt11_text hnone hx

end LightningGateway.RepeatedAttempts
