import LightningGateway.SpendGate

/-!
# Intraledger transfers after the journal

Symphony moves the money of an intraledger transfer before the gateway cancels
the recipient's hold invoice and before it records anything. From then on the
gateway has to finish. It does when the cancel succeeds and nobody has written
the recipient's invoice since it was loaded; but LND echoes the cancel to the
invoice's own listener, and if that task commits first, the transfer's transaction
is stale and the whole request fails with the money moved.
-/
namespace LightningGateway.IntraledgerTransfers
open Primitives EventTables EffectPrograms TaskPools PaymentAggregate InvoiceAggregate OutboxRows
open LndWire SymphonyWire GatewayStore StoreSpecs GatewayEffects PeerCalls PaymentFlows
open GatewayMachine CallSites GatewayInvariant SpendGate

/-! ### The peers of a transfer -/

/-- Symphony's answer is an approval. -/
def approves : Except Status WireAuthorizeResponse → Bool
  | .ok resp => resp.authorized
  | .error _ => false

/-- A final state that LND reports for its hold invoice `h` is the one it is in. -/
def finalState (l : Lnd) (h : PaymentHash) : LndInvoiceState → Bool
  | .settled => l.invoices h = some .settled
  | .canceled => l.invoices h = some .canceled
  | .opened | .accepted => true

/-- LND's contract for hold invoices: final states are reported truthfully, and a
settle is acknowledged when it has taken effect. A report that an HTLC is accepted
may be stale. -/
def holdContract (g : Deployment) : Discipline (gateway g) where
  spawn e w :=
    match e with
    | .handleInvoiceUpdate u => finalState w.lnd u.paymentHash u.state
    | _ => true
  call _ o c w :=
    match o, c with
    | .lnd (.settleInvoice p), .lndUnit delivered (.ok _) =>
        delivered && (w.lnd.invoices (g.crates.sha256 p) = some .accepted ||
          w.lnd.invoices (g.crates.sha256 p) = some .settled)
    | .lnd (.lookupInvoice h), .lndInvoice m =>
        match readLookupInvoice h m with
        | .ok u => finalState w.lnd h u.state
        | .error _ => true
    | _, _ => true

/-- Symphony posts exactly what it approves; LND reports final states truthfully and
acknowledges only what has taken effect. -/
def lawful (g : Deployment) : Discipline (gateway g) where
  spawn e w :=
    match e with
    | .handleInvoiceUpdate u => finalState w.lnd u.paymentHash u.state
    | _ => true
  call _ o c w :=
    match o, c with
    | .authorizeSpend _, .symphony posted r => posted == approves r
    | .lnd (.cancelInvoice _), .lndUnit delivered (.ok _) => delivered
    | .lnd (.settleInvoice p), .lndUnit delivered (.ok _) =>
        delivered && (w.lnd.invoices (g.crates.sha256 p) = some .accepted ||
          w.lnd.invoices (g.crates.sha256 p) = some .settled)
    | .lnd (.lookupInvoice h), .lndInvoice m =>
        match readLookupInvoice h m with
        | .ok u => finalState w.lnd h u.state
        | .error _ => true
    | _, _ => true

theorem holdContract_call_of_lawful {g : Deployment} {p : Past (gateway g)} {o : Op} {c : Choice}
    {w : World} (h : (lawful g).call p o c w = true) : (holdContract g).call p o c w = true := by
  cases o with
  | lnd o =>
      cases o with
      | settleInvoice preimage =>
          cases c with
          | lndUnit delivered r => cases r with
            | ok u => exact h
            | error e => rfl
          | _ => rfl
      | lookupInvoice k =>
          cases c with
          | lndInvoice m => exact h
          | _ => rfl
      | _ => rfl
  | _ => rfl

/-- The request asks Symphony to post the journal of a transfer for `h`. -/
def journalsFor (h : PaymentHash) (r : WireAuthorizeRequest) : Bool :=
  r.idempotencyKey = h.toHex ∧ (r.gatewayMetadata.get? "intraledger").isSome

/-- The call is a journal for `h` that Symphony approved. -/
def approvedJournal (h : PaymentHash) : Call gatewaySignature → Bool
  | ⟨.authorizeSpend r, a⟩ => journalsFor h r && approves a
  | _ => false

theorem journalsFor_journalFor {h : PaymentHash} {n : NewPayment} {i : Invoice} :
    journalsFor h (toWire (journalFor n i)) = true ↔ n.paymentHash = h := by
  simp [journalsFor, toWire, journalFor, transferRequest, Json.get?]

theorem journalsFor_holdFor {h : PaymentHash} {n : NewPayment} :
    journalsFor h (toWire (holdFor n)) = false := by
  simp [journalsFor, toWire, holdFor, holdRequest, Json.get?]

/-! ### When the local transaction goes through -/

/-- Hash and identifier are new, the amount fits its column, and the recipient's log
is the one that was loaded. -/
def admits (db : Db) (n : NewPayment) (recipient : Invoice) : Bool :=
  (db.payments.lookup n.paymentHash).isNone && db.payments.rows.all (fun r => r.id ≠ n.id) &&
    (tryI64 n.amountMsat.msat).isSome &&
    (db.invoices.lookup n.paymentHash).any fun r => r.events = recipient.events.persisted

/-- The cancel succeeds, and the local transaction finds what it expects. -/
def undisturbed (g : Deployment) : Discipline (gateway g) where
  call _ o c w :=
    match o, c with
    | .lnd (.cancelInvoice _), .lndUnit _ (.error _) => false
    | .tx (.transfer n _ _ recipient _), .served _ => admits w.db n recipient
    | .tx (.transfer ..), _ => false
    | _, _ => true

/-- Both halves of the transfer are on record. -/
def Recorded (db : Db) (h : PaymentHash) : Prop :=
  (∃ r, db.payments.lookup h = some r ∧ r.events.any PaymentEvent.isCompleted = true) ∧
    ∃ r, db.invoices.lookup h = some r ∧ r.events.any InvoiceEvent.isSettledIntraledger = true

/-- What the two repositories return once a transfer is complete. -/
def Complete (db : Db) (h : PaymentHash) : Prop :=
  (∃ p, Payments.findByPaymentHash db h = .ok p ∧ p.state = .completed) ∧
    ∃ i, Invoices.findByPaymentHash db h = .ok i ∧ i.state = .settled ∧
      i.events.iterAll.any InvoiceEvent.isSettledIntraledger = true

section
variable {g : Deployment} {entry : Entry} {past : Calls} {w w' : World} {c : Choice}
variable {ps : List (Past (gateway g))} {h : PaymentHash} {db db' : Db}

/-- Logs only grow, so a transfer stays on record. -/
theorem Recorded.grows (hr : Recorded db h) (hg : Grows db db') : Recorded db' h := by
  obtain ⟨⟨r, hl, hc⟩, ri, hli, hsi⟩ := hr
  obtain ⟨r', hl', -, -, hp⟩ := hg.1 h r hl
  obtain ⟨ri', hli', -, -, hpi⟩ := hg.2 h ri hli
  exact ⟨⟨r', hl', any_prefix_mono hp hc⟩, ri', hli', any_prefix_mono hpi hsi⟩

theorem Recorded.complete (hr : Recorded db h) (hdb : DbOk g db) : Complete db h := by
  obtain ⟨⟨r, hl, hc⟩, ri, hli, hsi⟩ := hr
  constructor
  · obtain ⟨n, p, hp, -, hcomp, -⟩ := hdb.payment_state hl
    refine ⟨p, ?_, hcomp.mp hc⟩
    simpa only [Payments.findByPaymentHash, hl] using hp
  · obtain ⟨n, s, held, hlog, -, -⟩ := hdb.invoices h ri hli
    obtain ⟨i, hi, hev, -, hs, -, -⟩ := InvoiceLogs.hydrate_log ri.id hlog
    refine ⟨i, by simpa only [Invoices.findByPaymentHash, hli, Invoices.hydrate] using hi, ?_, ?_⟩
    · rw [hs]
      exact hlog.any_isSettledIntraledger hsi
    · rw [hev]
      simpa [EntityEvents.iterAll] using hsi

/-- A transfer that is admitted and served commits both halves. -/
theorem transfer_served {n : NewPayment} {preimage : Preimage} {t clock : Timestamp}
    {recipient : Invoice} {e : NewOutboxEvent} {a : Except AppError Payment}
    (hg : ∀ c ∈ past, Genuine g w.db c) (hj : TransferSite g entry past n preimage recipient e)
    (hadm : admits w.db n recipient = true)
    (hx : exec g.crates (.tx (.transfer n preimage t recipient e)) (.served clock) w = some (a, w')) :
    (∃ q, a = .ok q) ∧ Recorded w'.db n.paymentHash := by
  obtain ⟨m, hcopy⟩ := hg _ hj.1.found
  obtain ⟨request, decoded, at_, -, hguard, -, -, hnew⟩ := hj.1.planned
  have hopen := recipientGuard_opened hguard
  obtain ⟨-, -, hfee, -⟩ := NewPayment.tryNewIntraledger_spec hnew
  simp only [admits, Bool.and_eq_true, Option.isNone_iff_eq_none, List.all_eq_true,
    decide_eq_true_eq, Option.isSome_iff_exists, Option.any_eq_true] at hadm
  obtain ⟨⟨⟨hnone, hids⟩, amount, hamount⟩, ri, hri, hrie⟩ := hadm
  obtain ⟨ri', hri', hid, -⟩ := hcopy.snapshot
  cases hri.symm.trans hri'
  obtain ⟨q, db', hrun⟩ := run_transfer_ok clock t preimage e hcopy.tracks hopen hri hid hrie
    hnone hids hamount (by rw [hfee]; rfl)
  obtain ⟨hstep, -⟩ := ledger_transfer hg hj hrun
  simp only [exec, World.commit, hrun] at hx
  cases hx
  refine ⟨⟨q, rfl⟩, ?_⟩
  cases hstep with
  | transfer _ _ hev _ hw _ _ _ _ hwi _ =>
      exact ⟨⟨_, hw.at, by rw [hev]; rfl⟩, _, hwi.at,
        by simp [Row.grow, List.any_append, InvoiceEvent.isSettledIntraledger]⟩

/-! ### The invariant -/

/-- What the completed calls of a transfer have led to. -/
def Fine (db : Db) : Call gatewaySignature → Prop
  | ⟨.lnd (.cancelInvoice _), .error _⟩ => False
  | ⟨.tx (.transfer n _ _ _ _), a⟩ => (∃ q, a = .ok q) ∧ Recorded db n.paymentHash
  | _ => True

theorem Fine.grows {x : Call gatewaySignature} (hx : Fine db x) (hg : Grows db db') :
    Fine db' x := by
  unfold Fine at hx ⊢
  split at hx
  · exact hx
  · exact ⟨hx.1, hx.2.grows hg⟩
  · trivial

theorem fine_call {o : Op} {a : o.Ans} (hg : ∀ c ∈ past, Genuine g w.db c)
    (hj : Justified g entry past o) (hd : (undisturbed g).call ⟨entry, past⟩ o c w = true)
    (hx : exec g.crates o c w = some (a, w')) : Fine w'.db ⟨o, a⟩ := by
  cases o with
  | lnd o =>
      cases o with
      | cancelInvoice k =>
          cases c with
          | lndUnit delivered r =>
              cases hx
              cases a with
              | ok u => trivial
              | error st => cases hd
          | _ => cases hx
      | _ => trivial
  | tx b =>
      cases b with
      | transfer n preimage t recipient e =>
          cases c with
          | served clock => exact transfer_served hg hj hd hx
          | _ => cases hd
      | _ => trivial
  | _ => trivial

theorem fine_run {s : Pool (gateway g)} {es : List (Event (gateway g))}
    (hrun : Runs (undisturbed g) (boot g) es s) :
    Sound (Justified g) (Returns g) s ∧ Sane g s.world s.pasts ∧
      ∀ p ∈ s.pasts, ∀ x ∈ p.calls, Fine s.world.db x := by
  refine gateway_invariant (undisturbed g)
    (I := fun w ps => ∀ p ∈ ps, ∀ x ∈ p.calls, Fine w.db x) (fun p hp => (by cases hp)) ?_ ?_ ?_ hrun
  · exact fun w ps e _ _ hI => pasts_spawn (fun _ hx => by cases hx) hI
  · intro w ps i entry past o c a w' hi hj hd hx hs hI
    have hpast := hs.calls _ (List.mem_of_getElem? hi)
    have hgrow : Grows w.db w'.db := exec_grows hs.db hpast hj hx
    exact calls_call hi (fun _ hf => hf.grows hgrow) (fine_call hpast hj hd hx) hI
  · intro w ps x w' _ hx _ hI p hp y hy
    obtain ⟨hpay, hinv, -⟩ := env_frame hx
    exact (hI p hp y hy).grows ⟨hpay ▸ .refl _, hinv ▸ .refl _⟩

/-! ### What a request that posted a journal returns -/

theorem journal_of_approved {p : Past (gateway g)} (hs : Sane g w ps) (hp : p ∈ ps)
    {x : Call gatewaySignature} (hx : x ∈ p.calls) (hq : approvedJournal h x = true) :
    ∃ l l' r a, x = ⟨.authorizeSpend r, a⟩ ∧ p.calls = l ++ x :: l' ∧ approves a = true ∧
      journalsFor h r = true ∧ JournalSite g p.entry l r := by
  obtain ⟨l, l', hl⟩ := List.append_of_mem hx
  have hj := hs.explained p hp l x l' hl
  unfold approvedJournal at hq
  split at hq
  case h_2 => cases hq
  case h_1 r a =>
    obtain ⟨hr, ha⟩ := Bool.and_eq_true_iff.mp hq
    rcases hj with ⟨n, q, -, rfl, -⟩ | hj
    · rw [journalsFor_holdFor] at hr
      cases hr
    · exact ⟨l, l', r, a, rfl, hl, ha, hr, hj⟩

/-- A task that posts a journal makes no intent durable. -/
theorem journal_excludes_intent {p : Past (gateway g)} (hs : Sane g w ps) (hp : p ∈ ps)
    {x : Call gatewaySignature} (hx : x ∈ p.calls) (hq : approvedJournal h x = true)
    {n : NewPayment} {e : NewOutboxEvent} {q : Payment} :
    ¬Answered p.calls (.tx (.intent n e)) (.ok q) := by
  intro ha
  obtain ⟨l, l', r, a, rfl, hl, -, -, hjs⟩ := journal_of_approved hs hp hx hq
  obtain ⟨n', recipient, -, -, hnoTx, -⟩ := hjs
  have hmem : (⟨.tx (.intent n e), .ok q⟩ : Call gatewaySignature) ∈ p.calls := ha
  rw [hl] at hmem
  rcases List.mem_append.mp hmem with hmem | hmem
  · cases hnoTx _ hmem
  · rcases List.mem_cons.mp hmem with hmem | hmem
    · cases hmem
    · -- The intent follows the authorization, which its own site excludes.
      obtain ⟨l₂, l₃, hl₂⟩ := List.append_of_mem hmem
      have hsplit : p.calls =
          (l ++ ⟨.authorizeSpend r, a⟩ :: l₂) ++ ⟨.tx (.intent n e), .ok q⟩ :: l₃ := by
        rw [hl, hl₂, List.append_assoc, List.cons_append]
      obtain ⟨request, utcNow, -, -, -, -, hnoAuth, -⟩ := hs.explained p hp _ _ _ hsplit
      cases hnoAuth ⟨.authorizeSpend r, a⟩ (List.mem_append_right _ List.mem_cons_self)

theorem transfer_returns {t : Past (gateway g)} {r : Except AppError Payment} (hs : Sane g w ps)
    (ht : t ∈ ps) (hfine : ∀ x ∈ t.calls, Fine w.db x) (hret : SendReturn g t.entry t.calls r)
    (hj : t.calls.any (approvedJournal h) = true) :
    (∃ p, r = .ok p) ∧ Recorded w.db h := by
  obtain ⟨x, hx, hq⟩ := List.any_eq_true.mp hj
  obtain ⟨l, l', req, a, rfl, hl, happ, hreq, -⟩ := journal_of_approved hs ht hx hq
  -- Symphony was asked once, so every other authorization of the task is this one.
  have honly : ∀ {r' a'}, Answered t.calls (.authorizeSpend r') a' →
      (⟨.authorizeSpend r', a'⟩ : Call gatewaySignature) = ⟨.authorizeSpend req, a⟩ :=
    fun ha => eq_of_countP_le_one (authorize_once hs ht) ha hx rfl rfl
  cases hret with
  | early _ hnever _ => cases hnever _ hx
  | refused hi | concluded hi | pended hi | reloaded hi | unreadable hi =>
      obtain ⟨_, _, -, -, ha⟩ := hi
      exact absurd ha (journal_excludes_intent hs ht hx hq)
  | unposted ha hnot =>
      cases honly ha
      cases a with
      | error st => cases happ
      | ok resp =>
          have happ : resp.authorized = true := happ
          simp [readAuthorize, happ] at hnot
  | uncanceled _ _ ha => exact (hfine _ ha).elim
  | transferred _ happroved ha =>
      obtain ⟨hok, hrec⟩ := hfine _ ha
      refine ⟨hok, ?_⟩
      obtain ⟨ans, resp, hans, -⟩ := happroved
      cases honly hans
      exact journalsFor_journalFor.mp hreq ▸ hrec

end

/-! ### Runs -/

/-- Where the cancel succeeds and the local transaction finds what it expects, a
request whose journal was approved returns a payment and leaves both halves of the
transfer durable. -/
theorem journal_implies_transfer (g : Deployment) (es : List (Event (gateway g)))
    (s : Pool (gateway g)) (hrun : Runs (undisturbed g) (boot g) es s) (t : Task (gateway g))
    (ht : t ∈ s.tasks) (r : Except AppError Payment)
    (hret : t.rest = some (.ret (.payment r))) (h : PaymentHash)
    (hj : t.calls.any (approvedJournal h) = true) :
    (∃ p, r = .ok p) ∧ Complete s.world.db h := by
  obtain ⟨hsound, hs, hfine⟩ := fine_run hrun
  have hmem : t.toPast ∈ s.pasts := List.mem_map_of_mem ht
  obtain ⟨hok, hrec⟩ := transfer_returns hs hmem (hfine _ hmem) (hsound t ht _ hret) hj
  exact ⟨hok, hrec.complete hs.db⟩

/-- The calls of task `i` from the start of a transfer to LND's answer to the cancel. -/
def transferUpToCancel (i : ℕ) (canceled : Except Status Unit) :
    List (Event (gateway Sample.deployment)) :=
  [.spawn (.sendPayment Sample.payRequest), .step i (.clock Sample.noon),
    .step i (.ownership (.ok ())), .step i (.clock Sample.noon), .step i (.served Sample.noon),
    .step i (.ownership (.ok ())), .step i (.uuid Sample.paymentId),
    .step i (.symphony true Sample.approval), .step i (.lndUnit true canceled)]

def completeRun : List (Event (gateway Sample.deployment)) :=
  Sample.issueInvoice 0 ++ transferUpToCancel 1 (.ok ()) ++
    [.step 1 (.clock Sample.noon), .step 1 (.served Sample.noon)]

/-- The task has returned, with or without an error, after posting a journal. -/
def returnedAfterJournal (h : PaymentHash) (failed : Bool) (t : Task (gateway Sample.deployment)) :
    Bool :=
  match t.rest with
  | some (.ret (.payment (.ok _))) => !failed && t.calls.any (approvedJournal h)
  | some (.ret (.payment (.error _))) => failed && t.calls.any (approvedJournal h)
  | _ => false

theorem journal_implies_transfer_complete :
    ∃ s t r, Runs (undisturbed Sample.deployment) (boot Sample.deployment) completeRun s ∧
      t ∈ s.tasks ∧ t.rest = some (.ret (.payment r)) ∧ (∃ p, r = .ok p) ∧
      Complete s.world.db Sample.hash := by
  obtain ⟨s, hrun, hc⟩ := exists_run_of_play (undisturbed Sample.deployment)
    (boot Sample.deployment) completeRun
    (fun s => s.tasks.any (returnedAfterJournal Sample.hash false)) (by decide +kernel)
  obtain ⟨t, ht, hq⟩ := List.any_eq_true.mp hc
  unfold returnedAfterJournal at hq
  split at hq
  case h_1 p hret =>
    obtain ⟨hok, hcomplete⟩ := journal_implies_transfer Sample.deployment completeRun s hrun t ht
      (.ok p) hret Sample.hash (Bool.and_eq_true_iff.mp hq).2
    exact ⟨s, t, .ok p, hrun, ht, hret, hok, hcomplete⟩
  all_goals cases hq

/-- LND echoes the cancel, and the invoice's listener commits before the transfer. -/
def echoRun : List (Event (gateway Sample.deployment)) :=
  Sample.issueInvoice 0 ++ transferUpToCancel 1 (.ok ()) ++
    [.spawn (.handleInvoiceUpdate (Sample.invoiceUpdate .canceled 0)),
      .step 2 (.served Sample.noon), .step 2 (.clock Sample.noon), .step 2 (.clock Sample.noon),
      .step 2 (.clock Sample.noon), .step 2 (.served Sample.noon),
      .step 1 (.clock Sample.noon), .step 1 (.served Sample.noon)]

/-- Lawful peers are not enough: the echo of the transfer's own cancel makes it fail
after its journal was posted, with no payment on record. -/
theorem journal_without_transfer :
    ∃ s t e, Runs (lawful Sample.deployment) (boot Sample.deployment) echoRun s ∧
      t ∈ s.tasks ∧ t.rest = some (.ret (.payment (.error e))) ∧
      t.calls.any (approvedJournal Sample.hash) = true ∧
      s.world.authorized.any (journalsFor Sample.hash) = true ∧
      s.world.db.payments.lookup Sample.hash = none := by
  obtain ⟨s, hrun, hc⟩ := exists_run_of_play (lawful Sample.deployment)
    (boot Sample.deployment) echoRun
    (fun s => s.tasks.any (returnedAfterJournal Sample.hash true) &&
      s.world.authorized.any (journalsFor Sample.hash) &&
      (s.world.db.payments.lookup Sample.hash).isNone) (by decide +kernel)
  simp only [Bool.and_eq_true, Option.isNone_iff_eq_none] at hc
  obtain ⟨⟨htask, hposted⟩, hnone⟩ := hc
  obtain ⟨t, ht, hq⟩ := List.any_eq_true.mp htask
  unfold returnedAfterJournal at hq
  split at hq
  case h_2 e hret =>
    exact ⟨s, t, e, hrun, ht, hret, (Bool.and_eq_true_iff.mp hq).2, hposted, hnone⟩
  all_goals cases hq

end LightningGateway.IntraledgerTransfers
