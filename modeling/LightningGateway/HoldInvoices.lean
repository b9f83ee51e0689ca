import LightningGateway.SingleCredit

/-!
# Hold invoices and LND

The listener, the settle task and the reconciliation act on what they have read of
the database and of LND, and both may have moved on. LND settles an invoice only
when the gateway sends it the preimage, and may do so without an answer coming
back. Still the two never contradict each other: a terminal event in the log of an
invoice is LND's own terminal state, and an invoice that LND has settled is held or
settled in the database, so that it cannot be lost.
-/
namespace LightningGateway.HoldInvoices
open Primitives EventTables EffectPrograms TaskPools InvoiceAggregate OutboxRows
open LndWire GatewayStore StoreSpecs GatewayEffects PeerCalls
open GatewayMachine CallSites GatewayInvariant IntraledgerTransfers SingleCredit
open InvoiceLogs (InvoiceLog)

variable {g : Deployment} {crates : Crates} {entry : Entry} {past : Calls} {w w' : World}
variable {c : Choice} {ps : List (Past (gateway g))} {h : PaymentHash}

/-! ### LND settles only on request -/

theorem setInvoice_settled {l : Lnd} {k : PaymentHash} {i : LndInvoiceState} (hi : i ≠ .settled)
    (hs : (l.setInvoice k i).invoices h = some .settled) : l.invoices h = some .settled := by
  rw [Lnd.setInvoice_invoices] at hs
  split_ifs at hs
  · exact absurd (Option.some.inj hs) hi
  · exact hs

theorem cancel_settled {l : Lnd} {k : PaymentHash}
    (hs : (l.cancel k).invoices h = some .settled) : l.invoices h = some .settled := by
  unfold Lnd.cancel at hs
  split at hs
  case h_1 | h_2 => exact setInvoice_settled (by decide) hs
  case h_3 => exact hs

theorem add_settled {l : Lnd} {k : PaymentHash} (hs : (l.add k).invoices h = some .settled) :
    l.invoices h = some .settled := by
  unfold Lnd.add at hs
  split at hs
  case h_1 => exact setInvoice_settled (by decide) hs
  case h_2 => exact hs

theorem settle_settled {l : Lnd} {k : PaymentHash}
    (hs : (l.settle k).invoices h = some .settled) :
    l.invoices h = some .settled ∨ (l.invoices h = some .accepted ∧ k = h) := by
  unfold Lnd.settle at hs
  split at hs
  case h_1 hk =>
    rw [Lnd.setInvoice_invoices] at hs
    split_ifs at hs with hh
    · exact .inr ⟨hh ▸ hk, hh.symm⟩
    · exact .inl hs
  case h_2 => exact .inl hs

/-- A call that settles an invoice at LND sends its preimage. -/
theorem exec_settles {o : Op} {a : o.Ans} (hx : exec crates o c w = some (a, w'))
    (hs : w'.lnd.invoices h = some .settled) :
    w.lnd.invoices h = some .settled ∨ (w.lnd.invoices h = some .accepted ∧
      ∃ preimage, o = .lnd (.settleInvoice preimage) ∧ crates.sha256 preimage = h) := by
  by_cases ho : isLnd o = true
  · cases o with
    | lnd o =>
        cases o <;> cases c <;> simp only [exec, execLnd, reduceCtorEq] at hx
        case sendPaymentV2.lndUnit =>
          split at hx <;> cases hx <;> exact .inl hs
        case addHoldInvoice.lndAdded =>
          cases hx
          split_ifs at hs
          · exact .inl (add_settled hs)
          · exact .inl hs
        case settleInvoice.lndUnit =>
          cases hx
          split_ifs at hs
          · rcases settle_settled hs with hs | ⟨hacc, hk⟩
            · exact .inl hs
            · exact .inr ⟨hacc, _, rfl, hk⟩
          · exact .inl hs
        case cancelInvoice.lndUnit =>
          cases hx
          split_ifs at hs
          · exact .inl (cancel_settled hs)
          · exact .inl hs
        all_goals
          cases hx
          exact .inl hs
    | _ => cases ho
  · rw [(exec_frame hx).2.1 (Bool.eq_false_iff.mpr ho)] at hs
    exact .inl hs

/-- On its own LND settles nothing. -/
theorem env_settles {x : Env} (hx : env x w = some w') (hs : w'.lnd.invoices h = some .settled) :
    w.lnd.invoices h = some .settled := by
  cases x with
  | acceptHtlc k =>
      simp only [env] at hx
      split_ifs at hx
      cases hx
      exact setInvoice_settled (by decide) hs
  | expire k =>
      cases hx
      exact cancel_settled hs
  | receive k =>
      simp only [env] at hx
      split_ifs at hx
      cases hx
      dsimp only at hs
      split at hs <;> exact hs
  | lose k | resolve k b =>
      simp only [env] at hx
      split_ifs at hx <;> cases hx <;> exact hs
  | drawSequence =>
      cases hx
      exact hs

/-! ### Reports of final states stay true -/

theorem finalState_moves {l l' : Lnd} {s : LndInvoiceState}
    (hm : Moves (l.invoices h) (l'.invoices h)) (hf : finalState l h s = true) :
    finalState l' h s = true := by
  cases s with
  | opened | accepted => rfl
  | settled =>
      have hs : l.invoices h = some .settled := of_decide_eq_true hf
      exact decide_eq_true (hm.settled_stays hs)
  | canceled =>
      have hs : l.invoices h = some .canceled := of_decide_eq_true hf
      apply decide_eq_true
      rw [hs] at hm
      generalize l'.invoices h = j at hm ⊢
      cases hm with
      | stay => rfl
      | canceled hi => rcases hi with hi | hi <;> cases hi

theorem finalState_env {x : Env} {s : LndInvoiceState} (hx : env x w = some w')
    (hf : finalState w.lnd h s = true) : finalState w'.lnd h s = true := by
  rcases env_moves (h := h) hx with hm | ⟨-, hopen⟩
  · exact finalState_moves hm hf
  · cases s with
    | opened | accepted => rfl
    | settled => cases (of_decide_eq_true hf : w.lnd.invoices h = _).symm.trans hopen
    | canceled => cases (of_decide_eq_true hf : w.lnd.invoices h = _).symm.trans hopen

theorem told_call {o : Op} {a : o.Ans} {s : LndInvoiceState}
    (hd : (holdContract g).call ⟨entry, past⟩ o c w = true)
    (hx : exec g.crates o c w = some (a, w'))
    (hold : ToldInvoice entry past h s → finalState w.lnd h s = true)
    (ht : ToldInvoice entry (past ++ [⟨o, a⟩]) h s) : finalState w'.lnd h s = true := by
  apply finalState_moves (exec_moves hx)
  rcases toldInvoice_last ht with ht | ⟨m, u, heq, hm, rfl⟩
  · exact hold ht
  · cases heq
    cases c <;> simp only [exec, execLnd, reduceCtorEq] at hx
    cases hx
    simpa only [holdContract, hm] using hd

/-! ### How the log of an invoice grows -/

/-- What a task must know before it appends an event to the log of invoice `h`. -/
def Reason (g : Deployment) (entry : Entry) (past : Calls) (h : PaymentHash) :
    InvoiceEvent → Prop
  | .settled _ => Learned (⟨entry, past⟩ : Past (gateway g)) h
  | .canceled .. => ToldInvoice entry past h .canceled
  | _ => True

theorem writesInvoice_cases {db db' : Db} {k : PaymentHash} {r r' : InvoiceRow}
    (hw : WritesInvoice db db' k r) (hl : db'.invoices.lookup h = some r') :
    (h = k ∧ r' = r) ∨ db.invoices.lookup h = some r' := by
  rw [hw h] at hl
  split_ifs at hl with hk
  · cases hl
    exact .inl ⟨hk, rfl⟩
  · exact .inr hl

/-- A committed transaction leaves an invoice as it is, creates it, or appends one
event to its log. -/
theorem invoice_log_step {db db' : Db} {b : Transaction} {r' : InvoiceRow}
    (hb : LedgerStep g entry past db db' b) (hl : db'.invoices.lookup h = some r') :
    db.invoices.lookup h = some r' ∨ (∃ m : NewInvoice, r'.events = [m.createdEvent]) ∨
      ∃ r new, db.invoices.lookup h = some r ∧ r'.events = r.events ++ [new] ∧
        Reason g entry past h new := by
  cases hb with
  | intent _ _ _ _ _ hi _ | pending _ _ _ _ _ _ hi _ | completed _ _ _ _ _ _ _ hi _
  | failed _ _ _ _ _ _ _ hi _ =>
      rw [hi] at hl
      exact .inl hl
  | transfer _ _ _ _ _ hri _ _ _ hwi _ =>
      rcases writesInvoice_cases hwi hl with ⟨rfl, rfl⟩ | hl
      · exact .inr (.inr ⟨_, _, hri, rfl, trivial⟩)
      · exact .inl hl
  | createInvoice _ _ hev hw _ _ =>
      rcases writesInvoice_cases hw hl with ⟨rfl, rfl⟩ | hl
      · exact .inr (.inl ⟨_, hev⟩)
      · exact .inl hl
  | held _ hri _ _ _ hw _ _ =>
      rcases writesInvoice_cases hw hl with ⟨rfl, rfl⟩ | hl
      · exact .inr (.inr ⟨_, _, hri, rfl, trivial⟩)
      · exact .inl hl
  | settled hwhy hri _ _ _ hw _ _ =>
      rcases writesInvoice_cases hw hl with ⟨rfl, rfl⟩ | hl
      · exact .inr (.inr ⟨_, _, hri, rfl, hwhy⟩)
      · exact .inl hl
  | canceled hwhy hri _ _ _ _ hw _ _ =>
      rcases writesInvoice_cases hw hl with ⟨rfl, rfl⟩ | hl
      · exact .inr (.inr ⟨_, _, hri, rfl, hwhy⟩)
      · exact .inl hl

/-- A terminal event is old, or the task that wrote it had its reason. -/
theorem logged_or_reason {db db' : Db} {b : Transaction} {r' : InvoiceRow}
    {q : InvoiceEvent → Bool} (hq : ∀ m : NewInvoice, q m.createdEvent = false)
    (hb : LedgerStep g entry past db db' b) (hl : db'.invoices.lookup h = some r')
    (hany : r'.events.any q = true) :
    (∃ r, db.invoices.lookup h = some r ∧ r.events.any q = true) ∨
      ∃ new, q new = true ∧ Reason g entry past h new := by
  rcases invoice_log_step hb hl with hold | ⟨m, hev⟩ | ⟨r, new, hr, hev, hwhy⟩
  · exact .inl ⟨r', hold, hany⟩
  · simp [hev, hq m] at hany
  · rw [hev, List.any_append, Bool.or_eq_true] at hany
    rcases hany with hany | hany
    · exact .inl ⟨r, hr, hany⟩
    · refine .inr ⟨new, ?_, hwhy⟩
      simpa using hany

/-! ### The invariant -/

/-- The database, LND and what the tasks have heard agree on final states. -/
structure Agreed (w : World) (ps : List (Past (gateway g))) : Prop where
  told : ∀ p ∈ ps, ∀ h s, ToldInvoice p.entry p.calls h s → finalState w.lnd h s = true
  learned : ∀ p ∈ ps, ∀ h, Learned p h → w.lnd.invoices h = some .settled
  settled : ∀ h r, w.db.invoices.lookup h = some r →
    r.events.any InvoiceEvent.isSettled = true → w.lnd.invoices h = some .settled
  canceled : ∀ h r, w.db.invoices.lookup h = some r →
    r.events.any InvoiceEvent.isCanceled = true → w.lnd.invoices h = some .canceled
  held : ∀ h, w.lnd.invoices h = some .settled →
    ∃ r, w.db.invoices.lookup h = some r ∧ r.events.any InvoiceEvent.isHtlcHeld = true

theorem finalState_canceled {l : Lnd} :
    finalState l h .canceled = true ↔ l.invoices h = some .canceled := decide_eq_true_iff

/-- The row behind a call that may send a preimage has its HTLC on record. -/
theorem settleSite_held (hg : ∀ c ∈ past, Genuine g w.db c) {preimage : Preimage}
    (hsite : SettleSite past preimage) :
    ∃ r, w.db.invoices.lookup (g.crates.sha256 preimage) = some r ∧
      r.events.any InvoiceEvent.isHtlcHeld = true := by
  obtain ⟨k, i, m, u, hfound, hheld, rfl, -⟩ := hsite
  obtain ⟨n, hcopy⟩ := hg _ hfound
  have hk : g.crates.sha256 i.paymentPreimage = k := by
    rw [hcopy.tracks.paymentPreimage, hcopy.preimage]
  have hlog := hcopy.log_persisted
  rw [hheld] at hlog
  have hany : i.events.persisted.any InvoiceEvent.isHtlcHeld = true := by
    obtain ⟨amount, hamount⟩ := hlog.held_of_held
    rw [hlog.any_isHtlcHeld, hamount]
    rfl
  obtain ⟨r, hr, -, hprefix⟩ := hcopy.snapshot
  rw [hk]
  exact ⟨r, hr, any_prefix_mono hprefix hany⟩

theorem Agreed.call {o : Op} {a : o.Ans} {i : ℕ} (hI : Agreed w ps) (hs : Sane g w ps)
    (hi : ps[i]? = some ⟨entry, past⟩) (hj : Justified g entry past o)
    (hd : (holdContract g).call ⟨entry, past⟩ o c w = true)
    (hx : exec g.crates o c w = some (a, w')) :
    Agreed w' (ps.set i ⟨entry, past ++ [⟨o, a⟩]⟩) := by
  have hmem := List.mem_of_getElem? hi
  have hpast := hs.calls _ hmem
  constructor
  · exact pasts_call hi (fun p hp h s ht => finalState_moves (exec_moves hx) (hp h s ht))
      (fun hpast h s => told_call hd hx (hpast h s)) hI.told
  · exact pasts_call hi
      (fun p hp h hlearn => (exec_moves hx).settled_stays (hp h hlearn))
      (fun hpast h => learned_call hd hx (hpast h)) hI.learned
  · intro h r hr hany
    apply (exec_moves hx).settled_stays
    obtain ⟨b, db', -, hb, -, rfl⟩ | ⟨hdb, -⟩ := commit_or_frame hs.db hpast hj hx
    · rcases logged_or_reason (fun _ => rfl) hb hr hany with ⟨r₀, hr₀, hany₀⟩ | ⟨new, hnew, hwhy⟩
      · exact hI.settled h r₀ hr₀ hany₀
      · cases new <;> simp only [InvoiceEvent.isSettled, Bool.false_eq_true] at hnew
        exact hI.learned _ hmem h hwhy
    · exact hI.settled h r (hdb ▸ hr) hany
  · intro h r hr hany
    apply finalState_canceled.mp
    apply finalState_moves (exec_moves hx)
    obtain ⟨b, db', -, hb, -, rfl⟩ | ⟨hdb, -⟩ := commit_or_frame hs.db hpast hj hx
    · rcases logged_or_reason (fun _ => rfl) hb hr hany with ⟨r₀, hr₀, hany₀⟩ | ⟨new, hnew, hwhy⟩
      · exact finalState_canceled.mpr (hI.canceled h r₀ hr₀ hany₀)
      · cases new <;> simp only [InvoiceEvent.isCanceled, Bool.false_eq_true] at hnew
        exact hI.told _ hmem h .canceled hwhy
    · exact finalState_canceled.mpr (hI.canceled h r (hdb ▸ hr) hany)
  · intro h hst
    have hbefore : ∃ r, w.db.invoices.lookup h = some r ∧
        r.events.any InvoiceEvent.isHtlcHeld = true := by
      rcases exec_settles hx hst with hst | ⟨-, preimage, rfl, rfl⟩
      · exact hI.held h hst
      · exact settleSite_held hpast hj
    obtain ⟨r, hr, hany⟩ := hbefore
    obtain ⟨r', hr', -, -, hprefix⟩ := (exec_grows hs.db hpast hj hx).2 h r hr
    exact ⟨r', hr', any_prefix_mono hprefix hany⟩

theorem Agreed.env {x : Env} (hI : Agreed w ps) (hx : env x w = some w') : Agreed w' ps := by
  obtain ⟨-, hinv, -⟩ := env_frame hx
  have settled : ∀ h, w.lnd.invoices h = some .settled → w'.lnd.invoices h = some .settled := by
    intro h hst
    have hf : finalState w.lnd h .settled = true := decide_eq_true hst
    exact of_decide_eq_true (finalState_env hx hf)
  constructor
  · exact fun p hp h s ht => finalState_env hx (hI.told p hp h s ht)
  · exact fun p hp h hl => settled h (hI.learned p hp h hl)
  · exact fun h r hr hany => settled h (hI.settled h r (hinv ▸ hr) hany)
  · intro h r hr hany
    have hst := hI.canceled h r (hinv ▸ hr) hany
    exact finalState_canceled.mp (finalState_env hx (finalState_canceled.mpr hst))
  · intro h hst
    rw [hinv]
    exact hI.held h (env_settles hx hst)

theorem Agreed.spawn {e : Entry} (hI : Agreed w ps) (hd : (holdContract g).spawn e w = true) :
    Agreed w (ps ++ [⟨e, []⟩]) := by
  have told : ∀ h s, ToldInvoice e [] h s → finalState w.lnd h s = true := by
    intro h s ht
    cases ht with
    | lookup ha => cases ha
    | update he hh hs =>
        subst he hh hs
        exact hd
  constructor
  · exact pasts_spawn told hI.told
  · refine pasts_spawn (fun h hl => ?_) hI.learned
    rcases hl with ht | ⟨preimage, -, ha⟩
    · exact of_decide_eq_true (told h .settled ht)
    · cases ha
  · exact hI.settled
  · exact hI.canceled
  · exact hI.held

/-! ### Runs -/

/-- The call that sent `preimage` came after the calls `before`: they loaded an
invoice from its row while its log stood for `Held`, and looked it up at LND, which
answered `Accepted`. -/
def SentWhileHeld (g : Deployment) (db : Db) (before : Calls) (preimage : Preimage) : Prop :=
  ∃ h i m u n amount, g.crates.sha256 preimage = h ∧ i.paymentPreimage = preimage ∧
    Answered before (.findInvoice h) (.ok i) ∧ i.state = .held ∧
    InvoiceLog n i.events.persisted .held (some amount) ∧
    db.invoices.Snapshot h i.id i.events.persisted ∧
    Answered before (.lnd (.lookupInvoice h)) m ∧ readLookupInvoice h m = .ok u ∧
    u.state = .accepted

theorem sentWhileHeld_of_sane (hs : Sane g w ps) {p : Past (gateway g)} (hp : p ∈ ps)
    {before after : Calls} {preimage : Preimage} {a : Except Status Unit}
    (hcalls : p.calls = before ++ ⟨.lnd (.settleInvoice preimage), a⟩ :: after) :
    SentWhileHeld g w.db before preimage := by
  obtain ⟨k, i, m, u, hfound, hheld, rfl, hlookup, hread, hacc⟩ : SettleSite before preimage :=
    hs.explained p hp before _ after hcalls
  have hmem : (⟨.findInvoice k, .ok i⟩ : Call gatewaySignature) ∈ p.calls := by
    rw [hcalls]
    exact List.mem_append_left _ hfound
  obtain ⟨n, hcopy⟩ := hs.calls p hp _ hmem
  have hlog := hcopy.log_persisted
  rw [hheld] at hlog
  obtain ⟨amount, hamount⟩ := hlog.held_of_held
  rw [hamount] at hlog
  have hk : g.crates.sha256 i.paymentPreimage = k := by
    rw [hcopy.tracks.paymentPreimage, hcopy.preimage]
  exact ⟨k, i, m, u, n, amount, hk, rfl, hfound, hheld, hlog, hcopy.snapshot, hlookup, hread, hacc⟩

/-- In every run a settled log is settled at LND and a canceled one canceled there.
What LND has settled has its HTLC on record and is held or settled in the database,
through Lightning and not as a transfer. And the preimage of an invoice goes to LND
only after the invoice was loaded as `Held` and looked up as `Accepted`. -/
theorem local_state_agrees (g : Deployment) (es : List (Event (gateway g))) (s : Pool (gateway g))
    (hrun : Runs (holdContract g) (boot g) es s) :
    (∀ h r, s.world.db.invoices.lookup h = some r →
      (r.events.any InvoiceEvent.isSettled = true → s.world.lnd.invoices h = some .settled) ∧
      (r.events.any InvoiceEvent.isCanceled = true → s.world.lnd.invoices h = some .canceled)) ∧
    (∀ h, s.world.lnd.invoices h = some .settled →
      ∃ r i, s.world.db.invoices.lookup h = some r ∧ Invoices.hydrate r = .ok i ∧
        (i.state = .held ∨ i.state = .settled) ∧
        r.events.any InvoiceEvent.isHtlcHeld = true ∧
        r.events.any InvoiceEvent.isSettledIntraledger = false) ∧
    (∀ p ∈ s.pasts, ∀ before after preimage a,
      p.calls = before ++ ⟨.lnd (.settleInvoice preimage), a⟩ :: after →
        SentWhileHeld g s.world.db before preimage) := by
  have hinit : Agreed World.empty ([] : List (Past (gateway g))) := by
    constructor
    · exact fun p hp => absurd hp List.not_mem_nil
    · exact fun p hp => absurd hp List.not_mem_nil
    · intro h r hr
      cases hr
    · intro h r hr
      cases hr
    · intro h hst
      cases hst
  obtain ⟨-, hsane, hI⟩ := gateway_invariant (holdContract g) (I := Agreed) hinit
    (fun w ps e hd _ hI => hI.spawn hd)
    (fun w ps i entry past o c a w' hi hj hd hx hs hI => hI.call hs hi hj hd hx)
    (fun w ps x w' _ hx _ hI => hI.env hx) hrun
  refine ⟨fun h r hr => ⟨hI.settled h r hr, hI.canceled h r hr⟩, ?_, ?_⟩
  · intro h hst
    obtain ⟨r, hr, hany⟩ := hI.held h hst
    obtain ⟨n, state, held, hlog, -⟩ := hsane.db.invoices h r hr
    obtain ⟨i, hi, -, -, rfl, -⟩ := InvoiceLogs.hydrate_log r.id hlog
    have hstate : i.state = .held ∨ i.state = .settled := by
      rcases hlog.state_of_htlcHeld hany with hh | hh | hc
      · exact .inl hh
      · exact .inr hh
      · have hcan := hI.canceled h r hr (hlog.any_isCanceled.mpr hc)
        cases hst.symm.trans hcan
    exact ⟨r, i, hr, hi, hstate, hany, hlog.not_settledIntraledger hany⟩
  · intro p hp before after preimage a hcalls
    exact sentWhileHeld_of_sane hsane hp hcalls

/-- An HTLC is held and settled: LND, the log and the state agree. -/
theorem local_state_agrees_htlc :
    ∃ s, Runs (holdContract Sample.deployment) (boot Sample.deployment) htlcRun s ∧
      s.world.lnd.invoices Sample.hash = some .settled ∧
      ∃ r, s.world.db.invoices.lookup Sample.hash = some r ∧
        r.events.any InvoiceEvent.isHtlcHeld = true := by
  obtain ⟨s, hrun, hc⟩ := exists_run_of_play (holdContract Sample.deployment)
    (boot Sample.deployment) htlcRun
    (fun s => (s.world.db.invoices.lookup Sample.hash).any fun r =>
      r.events.any InvoiceEvent.isSettled) (by decide +kernel)
  obtain ⟨hlog, hlnd, -⟩ := local_state_agrees Sample.deployment htlcRun s hrun
  obtain ⟨r, hr, hsettled⟩ := (Option.any_eq_true _ _).mp hc
  have hst := (hlog Sample.hash r hr).1 hsettled
  obtain ⟨r', i, hr', -, -, hheld, -⟩ := hlnd Sample.hash hst
  exact ⟨s, hrun, hst, r', hr', hheld⟩

end LightningGateway.HoldInvoices
