import LightningGateway.CallSites

/-!
# Every task keeps to its call sites

One lemma for each function of the two flows, following its branches; the last
theorem collects the programs of all tasks.
-/
namespace LightningGateway.CallSites
open Primitives EventTables EffectPrograms PaymentAggregate InvoiceAggregate OutboxRows
open LndWire SymphonyWire GatewayStore GatewayEffects PeerCalls PaymentFlows InvoiceFlows
open GatewayMachine

variable {g : Deployment} {entry : Entry} {past more : Calls}
variable {k h : PaymentHash} {amount : MilliSatoshi} {p p' : Payment} {n : NewPayment}

/-! ### What a task knows it keeps knowing -/

theorem Intends.later (hi : Intends g entry past n p) : Intends g entry (past ++ more) n p := by
  obtain ⟨request, e, he, hr, ha⟩ := hi
  exact ⟨request, e, he, hr, ha.later⟩

theorem LoadedPayment.later (hl : LoadedPayment past k h amount p) :
    LoadedPayment (past ++ more) k h amount p := by
  cases hl with
  | created ha => exact .created ha.later
  | found ha hh => exact .found ha.later hh

theorem Readied.later (hr : Readied past k h amount p) : Readied (past ++ more) k h amount p := by
  cases hr with
  | loaded hl => exact .loaded hl.later
  | pending hl hm => exact .pending hl.later hm

theorem Told.later {s : SendPaymentStatus} (ht : Told entry past k s) :
    Told entry (past ++ more) k s := by
  cases ht with
  | sent ha hr hk hs => exact .sent ha.later hr hk hs
  | tracked ha hr hs => exact .tracked ha.later hr hs
  | update he hk hs => exact .update he hk hs

theorem Unheard.later (hu : Unheard g past k) : Unheard g (past ++ more) k := by
  obtain ⟨r, invoice, hp, hk, ⟨st, ha⟩ | ⟨m, ha, hm⟩⟩ := hu
  · exact ⟨r, invoice, hp, hk, .inl ⟨st, ha.later⟩⟩
  · exact ⟨r, invoice, hp, hk, .inr ⟨m, ha.later, hm⟩⟩

theorem FailedCause.snoc {o : Op} {a : o.Ans} (hc : FailedCause g entry past k)
    (ho : isSend o = false) : FailedCause g entry (past ++ [⟨o, a⟩]) k := by
  cases hc with
  | unsent hi hk hn => exact .unsent hi.later hk (hn.snoc ho)
  | unheard hi hk hu => exact .unheard hi.later hk hu.later
  | reported ht => exact .reported ht.later

theorem Concludes.snoc {e : NewOutboxEvent} {o : Op} {a : o.Ans} (hc : Concludes g entry past p e)
    (ho : isSend o = false) : Concludes g entry (past ++ [⟨o, a⟩]) p e := by
  cases hc with
  | completed hr hs ht => exact .completed hr.later hs ht.later
  | failed hr hf hc => exact .failed hr.later hf (hc.snoc ho)

theorem PendingSite.later (hp : PendingSite g entry past p) :
    PendingSite g entry (past ++ more) p := by
  obtain ⟨n, p₀, t, hi, hm, ht⟩ := hp
  exact ⟨n, p₀, t, hi.later, hm, ht.later⟩

theorem ToldInvoice.later {s : LndInvoiceState} (ht : ToldInvoice entry past k s) :
    ToldInvoice entry (past ++ more) k s := by
  cases ht with
  | lookup ha hr hs => exact .lookup ha.later hr hs
  | update he hk hs => exact .update he hk hs

/-! ### Terminal commits -/

section
variable {Q : Calls → Except AppError Payment → Prop}

/-- `refused` covers the branches without a transaction. -/
theorem commitCompleted_emits {preimage : Preimage} {fees : MilliSatoshi} {hops : List Hop}
    {t : Timestamp} (hr : Readied past k h amount p) (ht : Told entry past k .succeeded)
    (refused : (∀ p', p.settle preimage fees hops t ≠ .ok (.executed, p')) → ∀ r, Q past r)
    (done : ∀ more q e r, Concludes g entry (past ++ more) q e →
      Answered (past ++ more) (.tx (.payment q e)) r → Q (past ++ more) r) :
    Emits (Justified g entry) Q past
      (commitCompleted p h (asI64 amount.wholeSat) preimage fees hops t).run := by
  unfold commitCompleted
  split
  next e he => exact refused (by simp [he]) _
  next q hq => exact refused (by simp [hq]) _
  next q hq =>
    refine now_bind trivial fun utcNow => ?_
    have hc : Concludes g entry (past ++ [⟨.now, utcNow⟩]) q
        (completedOutbox h (asI64 amount.wholeSat) preimage fees hops utcNow) :=
      .completed hr.later hq ht.later
    refine transact_last hc fun r => ?_
    rw [List.append_assoc]
    exact done _ _ _ r (by rw [← List.append_assoc]; exact hc.snoc rfl)
      (by rw [← List.append_assoc]; exact answered_last)

theorem commitFailed_emits {reason : FailureReason} {t : Timestamp}
    (hr : Readied past k h amount p) (hc : FailedCause g entry past k)
    (refused : (∀ p', p.fail reason t ≠ .ok (.executed, p')) → ∀ r, Q past r)
    (done : ∀ more q e r, Concludes g entry (past ++ more) q e →
      Answered (past ++ more) (.tx (.payment q e)) r → Q (past ++ more) r) :
    Emits (Justified g entry) Q past
      (commitFailed p h (asI64 amount.wholeSat) reason t).run := by
  unfold commitFailed
  split
  next e he => exact refused (by simp [he]) _
  next q hq => exact refused (by simp [hq]) _
  next q hq =>
    refine now_bind trivial fun utcNow => ?_
    have hc' : Concludes g entry (past ++ [⟨.now, utcNow⟩]) q
        (failedOutbox h (asI64 amount.wholeSat) reason utcNow) :=
      .failed hr.later hq (hc.snoc rfl)
    refine transact_last hc' fun r => ?_
    rw [List.append_assoc]
    exact done _ _ _ r (by rw [← List.append_assoc]; exact hc'.snoc rfl)
      (by rw [← List.append_assoc]; exact answered_last)

end

/-! ### The Lightning path -/

/-- A payment as its intent left it accepts the `Pending` step and then either
outcome. -/
def AsCreated (n : NewPayment) (p : Payment) : Prop :=
  p.state = .initiated ∧ p.events.iterAll = [n.initiatedEvent]

theorem AsCreated.pending {t : Timestamp} {r : Idempotent} (hp : AsCreated n p)
    (hm : p.markPending t = .ok (r, p')) :
    p'.state = .pending ∧ p'.events.iterAll = [n.initiatedEvent, .pending t] := by
  unfold Payment.markPending at hm
  rw [hp.1] at hm
  cases hm
  simp [hp.2]

theorem AsCreated.settles {t : Timestamp} {r : Idempotent} {preimage : Preimage}
    {fees : MilliSatoshi} {hops : List Hop} (hp : AsCreated n p)
    (hm : p.markPending t = .ok (r, p')) :
    ∃ q, p'.settle preimage fees hops t = .ok (.executed, q) := by
  obtain ⟨hs, he⟩ := hp.pending hm
  unfold Payment.settle
  rw [he, hs]
  exact ⟨_, rfl⟩

theorem AsCreated.fails {t : Timestamp} {r : Idempotent} {reason : FailureReason}
    (hp : AsCreated n p) (hm : p.markPending t = .ok (r, p')) :
    ∃ q, p'.fail reason t = .ok (.executed, q) := by
  obtain ⟨hs, he⟩ := hp.pending hm
  unfold Payment.fail
  rw [he, hs]
  exact ⟨_, rfl⟩

theorem AsCreated.marks (t : Timestamp) (hp : AsCreated n p) :
    ∃ q, p.markPending t = .ok (.executed, q) := by
  unfold Payment.markPending
  rw [hp.1]
  exact ⟨_, rfl⟩

theorem Intends.loaded (hi : Intends g entry past n p) :
    LoadedPayment past n.paymentHash n.paymentHash n.amountMsat p := by
  obtain ⟨request, e, -, -, ha⟩ := hi
  exact .created ha

theorem Intends.findSite (hi : Intends g entry past n p) : FindSite g entry past n.paymentHash := by
  obtain ⟨request, e, rfl, hreq, ha⟩ := hi
  exact ⟨n, p, ⟨request, e, rfl, hreq, ha⟩, rfl⟩

theorem failInline_emits {reason : FailureReason} {t : Timestamp}
    (hi : Intends g entry past n p) (hc : FailedCause g entry past n.paymentHash) :
    Emits (Justified g entry) (SendReturn g entry) past
      (failInline p n.paymentHash (asI64 n.amountMsat.wholeSat) reason t).run := by
  unfold failInline
  split
  next e he =>
    refine .refused hi fun hp => ?_
    obtain ⟨q, hq⟩ := AsCreated.marks t hp
    cases he.symm.trans hq
  next r q hm =>
    refine commitFailed_emits (.pending hi.loaded hm) hc (fun hno r => ?_)
      fun more q e r hc ha => .concluded hi.later hc ha
    refine .refused hi fun hp => ?_
    obtain ⟨q', hq'⟩ := AsCreated.fails hp hm
    exact hno q' hq'

theorem settleInline_emits {preimage : Preimage} {fees : MilliSatoshi} {hops : List Hop}
    {t : Timestamp} (hi : Intends g entry past n p)
    (ht : Told entry past n.paymentHash .succeeded) :
    Emits (Justified g entry) (SendReturn g entry) past
      (settleInline p n.paymentHash (asI64 n.amountMsat.wholeSat) preimage fees hops t).run := by
  unfold settleInline
  split
  next e he =>
    refine .refused hi fun hp => ?_
    obtain ⟨q, hq⟩ := AsCreated.marks t hp
    cases he.symm.trans hq
  next r q hm =>
    refine commitCompleted_emits (.pending hi.loaded hm) ht (fun hno r => ?_)
      fun more q e r hc ha => .concluded hi.later hc ha
    refine .refused hi fun hp => ?_
    obtain ⟨q', hq'⟩ := AsCreated.settles hp hm
    exact hno q' hq'

theorem transitionToPending_emits {t : Timestamp} (hi : Intends g entry past n p)
    (ht : Told entry past n.paymentHash .inFlight) :
    Emits (Justified g entry) (SendReturn g entry) past
      (transitionToPending p n.paymentHash t).run := by
  unfold transitionToPending
  split
  next e he =>
    refine .refused hi fun hp => ?_
    obtain ⟨q, hq⟩ := AsCreated.marks t hp
    cases he.symm.trans hq
  next q hq =>
    refine .refused hi fun hp => ?_
    obtain ⟨q', hq'⟩ := AsCreated.marks t hp
    cases hq.symm.trans hq'
  next q hq =>
    have hsite : PendingSite g entry past q := ⟨n, p, t, hi, hq, ht⟩
    refine attempt_transact_bind hsite fun r => ?_
    have hsite' : PendingSite g entry (past ++ [⟨.tx (.pending q), r⟩]) q := hsite.later
    split
    next q' => exact .pended hi.later hsite' answered_last (by simp)
    next =>
      refine findPayment_bind hi.later.findSite fun r => ?_
      exact .reloaded hi.later.later answered_last
    next e he =>
      refine .pended hi.later hsite' answered_last ?_
      intro hc
      exact he (Except.error.inj hc)

/-- The dispatch on a first message of LND. -/
theorem dispatch_message_emits {t : Timestamp} {r : WireSendRequest} {invoice : Bolt11Invoice}
    {m : Except Status (Option WirePayment)} (hi : Intends g entry past n p)
    (hparsed : g.crates.bolt11 r.paymentRequest = .ok invoice)
    (hhash : invoice.paymentHash = n.paymentHash)
    (hm : Answered past (.lnd (.sendPaymentMessage r)) m) :
    Emits (Justified g entry) (SendReturn g entry) past
      (dispatch p n.paymentHash (asI64 n.amountMsat.wholeSat) (readSendMessage m) t).run := by
  have unheard (hno : ∀ resp, readSendMessage m = .ok resp → resp.paymentHash ≠ n.paymentHash) :
      FailedCause g entry past n.paymentHash :=
    .unheard hi rfl ⟨r, invoice, hparsed, hhash, .inr ⟨m, hm, hno⟩⟩
  unfold dispatch
  split
  next e he => exact failInline_emits hi (unheard (by simp [he]))
  next resp hresp =>
    split_ifs with hne
    · refine failInline_emits hi (unheard fun resp' hresp' => ?_)
      cases hresp.symm.trans hresp'
      exact hne
    · have hk : resp.paymentHash = n.paymentHash := not_not.mp hne
      split
      next hs => exact transitionToPending_emits hi (.sent hm hresp hk hs)
      next hs hpre => exact .unreadable hi hm hresp hk hs hpre
      next hs _ => exact settleInline_emits hi (.sent hm hresp hk hs)
      next hs => exact failInline_emits hi (.reported (.sent hm hresp hk hs))

theorem authorizeAndSend_emits {request : SendPaymentRequest} {t : Timestamp}
    (hi : Intends g entry past n p) (hreq : Requested g request n)
    (hnoAuth : Never isAuthorize past) (hnoSend : Never isSend past)
    (hnoEnd : Never isConclusion past) :
    Emits (Justified g entry) (SendReturn g entry) past
      (authorizeAndSend request n.paymentHash n.boltInvoice n.amountMsat n.maxFeeMsat p t).run := by
  unfold authorizeAndSend
  rw [← hreq.walletId]
  refine authorizeSpend_bind (holdFor n) (.inl ⟨n, p, hi, rfl, hnoAuth, hnoSend⟩)
    fun r => ?_
  have hi' : Intends g entry (past ++ [⟨.authorizeSpend (toWire (holdFor n)), r⟩]) n p := hi.later
  have hnoSend' : Never isSend (past ++ [⟨.authorizeSpend (toWire (holdFor n)), r⟩]) :=
    hnoSend.snoc rfl
  split
  next e he => exact failInline_emits hi' (.unsent hi' rfl hnoSend')
  next resp hresp =>
    split_ifs with hdecl
    · exact failInline_emits hi' (.unsent hi' rfl hnoSend')
    · have happ : resp.status = .approved := by
        cases hs : resp.status with
        | approved => rfl
        | declined => exact absurd hs hdecl
      obtain ⟨invoice, a, hparsed, -, hhash, -⟩ := hreq.parsed
      have htext : n.boltInvoice.text = request.paymentRequest := by rw [hreq.boltInvoice]
      unfold LndClient.sendPayment
      split
      next hfee => exact failInline_emits hi' (.unsent hi' rfl hnoSend')
      next fee hfee =>
        refine ⟨⟨n, p, hi', ⟨r, resp, answered_last, hresp, happ⟩, rfl, hfee, hnoSend',
          hnoEnd.snoc rfl⟩, fun opened => ?_⟩
        have hparsed' : g.crates.bolt11 n.boltInvoice.text = .ok invoice := by rw [htext, hparsed]
        cases opened with
        | error st =>
            exact failInline_emits hi'.later (.unheard hi'.later rfl
              ⟨_, invoice, hparsed', hhash.symm, .inl ⟨st, answered_last⟩⟩)
        | ok u =>
            refine ⟨answered_last, fun m => ?_⟩
            exact dispatch_message_emits hi'.later.later hparsed' hhash.symm answered_last

/-- Without a transaction there is no intent. -/
theorem Never.no_intent (hn : Never isTx past) (n : NewPayment) (e : NewOutboxEvent)
    (p : Payment) : ¬Answered past (.tx (.intent n e)) (.ok p) := fun ha => by
  cases hn _ ha

theorem sendOverLightning_emits {request : SendPaymentRequest} {invoice : Bolt11Invoice}
    {t : Timestamp} (hentry : entry = .sendPayment request)
    (hparsed : g.crates.bolt11 request.paymentRequest = .ok invoice)
    (hnoTx : Never isTx past) (hnoAuth : Never isAuthorize past) (hnoSend : Never isSend past) :
    Emits (Justified g entry) (SendReturn g entry) past
      (sendOverLightning request (decodeBolt11.decoded request.paymentRequest invoice) t).run := by
  unfold sendOverLightning
  split
  next => exact .early hnoTx.no_intent hnoAuth fun x hx => by cases hx
  next amount hamount =>
    refine newUuid_bind trivial fun id => ?_
    have hnoTx' : Never isTx (past ++ [⟨.newUuid, id⟩]) := hnoTx.snoc rfl
    have hnoAuth' : Never isAuthorize (past ++ [⟨.newUuid, id⟩]) := hnoAuth.snoc rfl
    refine ofExcept_bind (fun n hn => ?_) fun e he => .early hnoTx'.no_intent hnoAuth' fun x hx => ?_
    case refine_2 =>
      cases hx
      exact absurd he NewPayment.tryNew_ne_alreadyPaid
    obtain ⟨ha, hh, hw, hf, -, hb, hdest⟩ := NewPayment.tryNew_spec hn
    cases hamount.symm.trans ha
    have hreq : Requested g request n := by
      refine ⟨?_, hw, hf, hb⟩
      obtain ⟨a, hai, har⟩ := Option.map_eq_some_iff.mp hamount
      exact ⟨invoice, a, hparsed, hai, hh, har.symm⟩
    refine now_bind trivial fun utcNow => ?_
    rw [← hh, ← hf, ← hdest, ← hb, ← hw]
    refine transact_bind ⟨request, utcNow, hentry, hreq, rfl, hnoTx'.snoc rfl, hnoAuth'.snoc rfl,
      (hnoSend.snoc rfl).snoc rfl⟩ (fun p => ?_) fun e => ?_
    · have hnoEnd : Never isConclusion past := fun c hc => by
        have := hnoTx c hc
        revert this
        cases c.op with
        | tx b => simp [isTx]
        | _ => exact fun _ => rfl
      exact authorizeAndSend_emits ⟨request, _, hentry, hreq, answered_last⟩ hreq
        ((hnoAuth'.snoc rfl).snoc rfl) (((hnoSend.snoc rfl).snoc rfl).snoc rfl)
        (((hnoEnd.snoc rfl).snoc rfl).snoc rfl)
    · refine .early (fun n' e' p' ha => ?_) ((hnoAuth'.snoc rfl).snoc rfl) fun x hx => ?_
      case refine_2 =>
        cases hx
        exact .recorded answered_last
      rcases List.mem_append.mp ha with ha | ha
      · exact (hnoTx'.snoc rfl).no_intent _ _ _ ha
      · cases List.mem_singleton.mp ha

/-! ### The intraledger path -/

theorem TransferPlan.later {recipient : Invoice} (hp : TransferPlan g entry past n recipient) :
    TransferPlan g entry (past ++ more) n recipient :=
  ⟨hp.planned, hp.found.later⟩

theorem authorizeAndTransfer_emits {request : SendPaymentRequest} {recipient : Invoice}
    {t : Timestamp} (hplan : TransferPlan g entry past n recipient)
    (hw : n.walletId = request.walletId)
    (hnoTx : Never isTx past) (hnoAuth : Never isAuthorize past) (hnoSend : Never isSend past) :
    Emits (Justified g entry) (SendReturn g entry) past
      (authorizeAndTransfer request n n.paymentHash recipient t).run := by
  unfold authorizeAndTransfer
  rw [← hw]
  refine authorizeSpend_bind (journalFor n recipient)
    (.inr ⟨n, recipient, hplan, rfl, hnoTx, hnoAuth, hnoSend⟩) fun r => ?_
  have hnoTx' := hnoTx.snoc (o := .authorizeSpend (toWire (journalFor n recipient))) (a := r) rfl
  split
  next e he => exact .unposted answered_last (by simp [he]) hnoTx'.no_intent
  next resp hresp =>
    split_ifs with hdecl
    · refine .unposted answered_last (fun resp' hresp' happ => ?_) hnoTx'.no_intent
      cases hresp.symm.trans hresp'
      rw [hdecl] at happ
      cases happ
    · have happ : resp.status = .approved := by
        cases hs : resp.status with
        | approved => rfl
        | declined => exact absurd hs hdecl
      have happroved : Approved (past ++ [⟨.authorizeSpend (toWire (journalFor n recipient)), r⟩])
          (journalFor n recipient) := ⟨r, resp, answered_last, hresp, happ⟩
      refine cancelInvoice_bind ⟨n, recipient, hplan.later, happroved, rfl⟩ ?_ fun st =>
        .uncanceled hplan.later.later happroved.later answered_last
          (Never.snoc hnoTx' rfl).no_intent
      refine now_bind trivial fun utcNow => ?_
      refine transact_last ⟨hplan.later.later.later, happroved.later.later, answered_last.later,
        rfl, ⟨utcNow, rfl⟩, (hnoTx'.snoc rfl).snoc rfl,
        ((hnoSend.snoc rfl).snoc rfl).snoc rfl⟩ fun r => ?_
      refine .transferred hplan.later.later.later.later happroved.later.later.later answered_last
        fun n' e' p' ha => ?_
      rcases List.mem_append.mp ha with ha | ha
      · exact Never.no_intent ((hnoTx'.snoc rfl).snoc rfl) _ _ _ ha
      · cases List.mem_singleton.mp ha

theorem sendIntraledgerPayment_emits {request : SendPaymentRequest} {decoded : DecodedInvoice}
    {recipient : Invoice} {t : Timestamp} (hentry : entry = .sendPayment request)
    (hfound : Answered past (.maybeFindInvoice decoded.paymentHash) (.ok (some recipient)))
    (hnoTx : Never isTx past) (hnoAuth : Never isAuthorize past) (hnoSend : Never isSend past) :
    Emits (Justified g entry) (SendReturn g entry) past
      (sendIntraledgerPayment request decoded recipient t).run := by
  unfold sendIntraledgerPayment
  refine checkWalletOwnership_bind trivial ?_ fun e =>
    .early (hnoTx.snoc rfl).no_intent (hnoAuth.snoc rfl) fun _ _ => .ours hfound.later
  refine ofExcept_bind (fun _ hguard => ?_) fun e _ =>
    .early (hnoTx.snoc rfl).no_intent (hnoAuth.snoc rfl) fun _ _ => .ours hfound.later
  refine newUuid_bind trivial fun id => ?_
  refine ofExcept_bind (fun n hn => ?_) fun e _ =>
    .early ((hnoTx.snoc rfl).snoc rfl).no_intent ((hnoAuth.snoc rfl).snoc rfl)
      fun _ _ => .ours hfound.later.later
  obtain ⟨hh, hw, -, hid⟩ := NewPayment.tryNewIntraledger_spec hn
  rw [← hh] at hguard hfound ⊢
  refine authorizeAndTransfer_emits ⟨⟨request, decoded, t, hentry, hguard, hh, hw, ?_⟩,
    hfound.later.later⟩ hw ((hnoTx.snoc rfl).snoc rfl) ((hnoAuth.snoc rfl).snoc rfl)
    ((hnoSend.snoc rfl).snoc rfl)
  rw [hid]
  exact hn

theorem sendPayment_emits (g : Deployment) (request : SendPaymentRequest) :
    Emits (Justified g (.sendPayment request)) (SendReturn g (.sendPayment request)) []
      (sendPayment g.crates request).run := by
  unfold sendPayment
  refine now_bind trivial fun t => ?_
  have hn {q : Op → Bool} (hq : q .now = false) : Never q ([] ++ [⟨.now, t⟩]) := never_nil.snoc hq
  refine checkWalletOwnership_bind trivial ?_ fun e =>
    .early ((hn rfl).snoc rfl).no_intent ((hn rfl).snoc rfl) fun x hx => by cases hx
  unfold decodeBolt11
  cases hparsed : g.crates.bolt11 request.paymentRequest with
  | error detail =>
      exact .early ((hn rfl).snoc rfl).no_intent ((hn rfl).snoc rfl) fun x hx => by cases hx
  | ok invoice =>
      refine fallible_bind (now_bind trivial fun systemNow => ?_)
      split_ifs with hexp
      · exact .early (((hn rfl).snoc rfl).snoc rfl).no_intent (((hn rfl).snoc rfl).snoc rfl)
          fun x hx => by cases hx
      · refine ⟨⟨request, invoice, rfl, hparsed, rfl⟩, fun found => ?_⟩
        cases found with
        | error e =>
            exact .early ((((hn rfl).snoc rfl).snoc rfl).snoc rfl).no_intent
              ((((hn rfl).snoc rfl).snoc rfl).snoc rfl) fun x hx => by cases hx
        | ok recipient =>
            cases recipient with
            | some recipient =>
                exact sendIntraledgerPayment_emits rfl answered_last
                  ((((hn rfl).snoc rfl).snoc rfl).snoc rfl)
                  ((((hn rfl).snoc rfl).snoc rfl).snoc rfl)
                  ((((hn rfl).snoc rfl).snoc rfl).snoc rfl)
            | none =>
                exact sendOverLightning_emits rfl hparsed
                  ((((hn rfl).snoc rfl).snoc rfl).snoc rfl)
                  ((((hn rfl).snoc rfl).snoc rfl).snoc rfl)
                  ((((hn rfl).snoc rfl).snoc rfl).snoc rfl)

/-! ### LND's reports and the sweep -/

theorem not_executed_settled {preimage : Preimage} {fees : MilliSatoshi} {hops : List Hop}
    {t : Timestamp} (hno : ∀ p', p.settle preimage fees hops t ≠ .ok (.executed, p')) :
    p.events.iterAll.any PaymentEvent.isCompleted = true ∨
      (p.state ≠ .initiated ∧ p.state ≠ .pending) := by
  by_contra hc
  obtain ⟨h1, h2⟩ := not_or.mp hc
  obtain ⟨q, hq⟩ := Payment.settle_ok h1 h2
  exact hno q hq

theorem not_executed_failed {reason : FailureReason} {t : Timestamp}
    (hno : ∀ p', p.fail reason t ≠ .ok (.executed, p')) :
    p.events.iterAll.any PaymentEvent.isFailed = true ∨
      (p.state ≠ .initiated ∧ p.state ≠ .pending) := by
  by_contra hc
  obtain ⟨h1, h2⟩ := not_or.mp hc
  obtain ⟨q, hq⟩ := Payment.fail_ok h1 h2
  exact hno q hq

theorem handlePaymentUpdate_emits (g : Deployment) (u : PaymentUpdate) :
    Emits (Justified g (.handlePaymentUpdate u)) (UpdateReturn g u) []
      (handlePaymentUpdate u).run := by
  unfold handlePaymentUpdate
  refine findPayment_bind rfl fun found => ?_
  split
  next => exact .unloaded answered_last
  next e _ => exact .unloaded answered_last
  next p =>
    refine now_bind trivial fun t => ?_
    have hloaded : Readied (([] : Calls) ++ [⟨.findPayment u.paymentHash, .ok p⟩] ++ [⟨.now, t⟩])
        u.paymentHash p.paymentHash p.amountMsat p := .loaded (.found answered_last.later (.inr rfl))
    have hfound : Answered (([] : Calls) ++ [⟨.findPayment u.paymentHash, .ok p⟩] ++ [⟨.now, t⟩])
        (.findPayment u.paymentHash) (.ok p) := answered_last.later
    have done (past : Calls) (q : Payment) (e : NewOutboxEvent) (r : Except AppError Payment)
        (hc : Concludes g (.handlePaymentUpdate u) past q e)
        (ha : Answered past (.tx (.payment q e)) r) :
        Then (Justified g (.handlePaymentUpdate u)) (UpdateReturn g u)
          (fun _ : Payment => (pure () : App Unit)) past r := by
      have hret : UpdateReturn g u past (r.map fun _ => ()) := .concluded hc ha
      cases r with
      | ok q => exact hret
      | error e => exact hret
    have refused (r : Except AppError Payment)
        (hp : p.events.iterAll.any PaymentEvent.isCompleted = true ∨
          p.events.iterAll.any PaymentEvent.isFailed = true ∨
          (p.state ≠ .initiated ∧ p.state ≠ .pending)) :
        Then (Justified g (.handlePaymentUpdate u)) (UpdateReturn g u)
          (fun _ : Payment => (pure () : App Unit))
          (([] : Calls) ++ [⟨.findPayment u.paymentHash, .ok p⟩] ++ [⟨.now, t⟩]) r := by
      cases r with
      | ok q => exact .settled hfound hp
      | error e => exact .settled hfound hp
    split
    next hs => exact .nothing (.inl hs)
    next hs hpre => exact .nothing (.inr ⟨hs, hpre⟩)
    next hs _ =>
      refine fallible_bind (commitCompleted_emits hloaded (.update rfl rfl hs) (fun hno r => ?_)
        fun more q e r hc ha => done _ q e r hc ha)
      exact refused r ((not_executed_settled hno).imp id .inr)
    next hs =>
      refine fallible_bind (commitFailed_emits hloaded (.reported (.update rfl rfl hs))
        (fun hno r => ?_) fun more q e r hc ha => done _ q e r hc ha)
      exact refused r (.inr (not_executed_failed hno))

theorem reconcileLookup_emits {t : Timestamp} {lookup : Except LndError SendPaymentResponse}
    (hfound : Answered past (.findPayment k) (.ok p))
    (htold : ∀ resp, lookup = .ok resp → Told entry past k resp.status) :
    Emits (Justified g entry) (fun _ _ => True) past (reconcileLookup p k lookup t).run := by
  have hloaded : Readied past k k p.amountMsat p := .loaded (.found hfound (.inl rfl))
  unfold reconcileLookup
  split
  next => trivial
  next => trivial
  next resp =>
    have ht := htold resp rfl
    split
    next => trivial
    next => trivial
    next hs _ =>
      rw [hs] at ht
      exact fallible_bind_any (commitCompleted_emits hloaded ht (fun _ _ => trivial)
        fun _ _ _ _ _ _ => trivial) fun _ _ => trivial
    next hs =>
      rw [hs] at ht
      exact fallible_bind_any (commitFailed_emits hloaded (.reported ht) (fun _ _ => trivial)
        fun _ _ _ _ _ _ => trivial) fun _ _ => trivial

theorem reconcileOrphanHold_emits {idle : ℕ} {limit : ℤ} :
    Emits (Justified g (.sweepOrphanHolds idle limit)) (fun _ _ => True) past
      (reconcileOrphanHold k).run := by
  unfold reconcileOrphanHold
  refine findPayment_bind trivial fun found => ?_
  refine ofExcept_bind (fun p hp => ?_) fun _ _ => trivial
  subst hp
  split_ifs with hstate
  · trivial
  · refine now_bind trivial fun t => ?_
    refine perform_bind trivial fun elapsed => ?_
    cases elapsed with
    | true => trivial
    | false =>
        refine ⟨trivial, fun opened => ?_⟩
        cases opened with
        | error st =>
            refine reconcileLookup_emits answered_last.later.later.later fun resp hresp => ?_
            cases hresp
        | ok u =>
            refine ⟨trivial, fun m => ?_⟩
            refine reconcileLookup_emits answered_last.later.later.later.later fun resp hresp => ?_
            exact .tracked answered_last hresp rfl

theorem sweepStranded_emits {idle : ℕ} {limit : ℤ} (hs : List PaymentHash) (count : ℕ) :
    Emits (Justified g (.sweepOrphanHolds idle limit)) (fun _ _ => True) past
      (sweepStranded hs count).run := by
  induction hs generalizing past count with
  | nil => trivial
  | cons k hs ih =>
      refine fallible_bind (fallible_attempt (Emits.mono ?_ reconcileOrphanHold_emits))
      intro past' r _
      cases r with
      | error e => exact ih count
      | ok reconciled =>
          cases reconciled with
          | true => exact ih (count + 1)
          | false => exact ih count

theorem sweepOrphanHolds_emits (idle : ℕ) (limit : ℤ) :
    Emits (Justified g (.sweepOrphanHolds idle limit)) (fun _ _ => True) past
      (sweepOrphanHolds idle limit).run := by
  unfold sweepOrphanHolds
  refine now_bind trivial fun utcNow => ?_
  refine ⟨trivial, fun r => ?_⟩
  cases r with
  | error e => trivial
  | ok stranded => exact sweepStranded_emits stranded 0

/-! ### The receiving side -/

variable {i : Invoice}

theorem commitSettle_emits {amount : MilliSatoshi}
    (hfound : Answered past (.findInvoice k) (.ok i))
    (hcause : ToldInvoice entry past k .settled ∨
      Answered past (.lnd (.settleInvoice i.paymentPreimage)) (.ok ())) :
    Emits (Justified g entry) (fun _ _ => True) past (commitSettle i k amount).run := by
  refine commitSettle_calls (fun _ => trivial) (fun _ _ _ _ _ => trivial)
    fun t utcNow i' heldAmount hi' hheld => ?_
  refine InvoiceMove.settled hfound.later.later hi' hheld ?_
  exact hcause.imp (fun ht => ht.later.later) fun ha => ha.later.later

theorem commitCancel_emits {amount : MilliSatoshi}
    (hfound : Answered past (.findInvoice k) (.ok i)) (hh : h = k ∨ h = i.paymentHash)
    (ht : ToldInvoice entry past k .canceled) :
    Emits (Justified g entry) (fun _ _ => True) past (commitCancel i h .expired amount).run := by
  refine commitCancel_calls (fun _ => trivial) fun t utcNow i' hi' => ?_
  exact InvoiceMove.canceled hfound.later.later hh ht.later.later hi'

theorem transitionToHeld_emits {amount : MilliSatoshi} {t : Timestamp}
    (hfound : Answered past (.findInvoice k) (.ok i)) (ht : ToldInvoice entry past k .accepted) :
    Emits (Justified g entry) (fun _ _ => True) past
      (transitionToHeld i i.paymentHash amount t).run := by
  refine transitionToHeld_calls (fun _ => trivial) fun utcNow i' hi' => ?_
  exact InvoiceMove.held hfound.later ht.later hi'

theorem resolveHeld_emits :
    Emits (Justified g entry) (fun _ _ => True) past (resolveHeld k).run := by
  refine resolveHeld_calls trivial (fun _ => trivial) fun i m u hstate hu => ?_
  have hfound : Answered (past ++ [⟨.findInvoice k, .ok i⟩] ++ [⟨.lnd (.lookupInvoice k), m⟩])
      (.findInvoice k) (.ok i) := answered_last.later
  have ht : ToldInvoice entry
      (past ++ [⟨.findInvoice k, .ok i⟩] ++ [⟨.lnd (.lookupInvoice k), m⟩]) k u.state :=
    .lookup answered_last hu rfl
  refine applyLndState_calls (fun hs => ?_) (fun hs => ?_) (fun hs => ?_) fun hs => ?_
  · exact ⟨k, i, m, u, hfound, hstate, rfl, answered_last, hu, hs⟩
  · exact commitSettle_emits hfound.later (.inr answered_last)
  · rw [hs] at ht
    exact commitSettle_emits hfound (.inl ht)
  · rw [hs] at ht
    exact commitCancel_emits hfound (.inl rfl) ht

theorem handleInvoiceUpdate_emits (g : Deployment) (u : InvoiceUpdate) :
    Emits (Justified g (.handleInvoiceUpdate u)) (fun _ _ => True) []
      (handleInvoiceUpdate u).run := by
  refine handleInvoiceUpdate_calls (fun _ => trivial) trivial (fun i t hs => ?_)
    (fun _ _ => resolveHeld_emits) fun i t hs => ?_
  · exact transitionToHeld_emits answered_last.later (.update rfl rfl hs)
  · exact commitCancel_emits answered_last.later (.inr rfl) (.update rfl rfl hs)

theorem createInvoice_emits (g : Deployment) (request : NewInvoiceRequest) :
    Emits (Justified g (.createInvoice request)) (fun _ _ => True) []
      (createInvoice g.crates g.mode request).run := by
  unfold createInvoice
  refine now_bind trivial fun t => ?_
  refine checkWalletOwnership_bind trivial ?_ fun _ => trivial
  refine perform_bind trivial fun preimage => ?_
  refine ofExcept_bind (fun externalId _ => ?_) fun _ _ => trivial
  unfold LndClient.addHoldInvoice
  split
  next => trivial
  next value hvalue =>
    refine ⟨trivial, fun added => ?_⟩
    cases added with
    | error st => trivial
    | ok text =>
        refine newUuid_bind trivial fun id => ?_
        refine ofExcept_bind (fun n hn => ?_) fun _ _ => trivial
        obtain ⟨hh, hp⟩ := NewInvoice.tryNew_spec hn
        split
        next => trivial
        next =>
          refine transact_bind ⟨request, text, _, rfl, ?_, ?_, ?_, answered_last.later⟩
            (fun i => ⟨trivial, fun _ => trivial⟩) fun _ => trivial
          · rw [hh, hp]
          · rw [hp]
            exact answered_last.later.later
          · exact hh.symm

/-! ### All programs -/

/-- A use case described by its own result predicate is described as a task. -/
theorem outcome_emits {α : Type} {use : App α} {wrap : Except AppError α → Outcome}
    {Q : Calls → Except AppError α → Prop} (hu : Emits (Justified g entry) Q [] use.run)
    (hw : ∀ past r, Q past r → Returns g entry past (wrap r)) :
    Emits (S := gatewaySignature) (Justified g entry) (Returns g entry) []
      (use.run >>= fun r => pure (wrap r)) :=
  emits_bind (Emits.mono hw hu)

theorem program_emits (g : Deployment) (entry : Entry) :
    Emits (S := gatewaySignature) (Justified g entry) (Returns g entry) [] (program g entry) := by
  cases entry with
  | sendPayment request => exact outcome_emits (sendPayment_emits g request) fun _ _ h => h
  | handlePaymentUpdate u =>
      refine outcome_emits (handlePaymentUpdate_emits g u) fun past r h u' hu' => ?_
      cases hu'
      exact h
  | sweepOrphanHolds idle limit =>
      exact outcome_emits (sweepOrphanHolds_emits idle limit) fun _ _ _ => trivial
  | createInvoice request => exact outcome_emits (createInvoice_emits g request) fun _ _ _ => trivial
  | handleInvoiceUpdate u =>
      exact outcome_emits (handleInvoiceUpdate_emits g u) fun _ _ _ _ hu => by cases hu
  | settleHoldInvoice k => exact outcome_emits resolveHeld_emits fun _ _ _ _ hu => by cases hu
  | reconcileHeldInvoice k => exact outcome_emits resolveHeld_emits fun _ _ _ _ hu => by cases hu

end LightningGateway.CallSites
