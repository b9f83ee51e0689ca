import LightningGateway.FeedInvariant

/-!
# The preimage stays secret until the invoice is paid

The preimage of an invoice is stored from its creation on and loaded with every
lookup. A payload shows it only with `PAID`, and `PAID` is derived from a log that
has reached its end in payment, or from a row that such a log matches. Hence what
clients see does not depend on the preimages of the other invoices.
-/
namespace LightningGateway.PreimageSecrecy
open Primitives EventTables TaskPools GuardedRuns InvoiceAggregate OutboxRows GatewayStore
open GatewayEffects GatewayMachine GatewayInvariant
open StatusMapping StatusFeed StatusRows FeedSteps FeedInvariant
open InvoiceLogs (InvoiceLog)

variable {g : Deployment} {db db' : Db} {h : PaymentHash}

/-! ### One run -/

/-- A settled invoice was settled by its HTLC or by a transfer. -/
theorem paidLog_of_settled {n : NewInvoice} {log : List InvoiceEvent}
    {held : Option MilliSatoshi} (hlog : InvoiceLog n log .settled held) : paidLog log = true := by
  cases hlog with
  | settled t _ => simp [paidLog, InvoiceEvent.isSettled]
  | settledIntraledger t _ => simp [paidLog, InvoiceEvent.isSettledIntraledger]

/-- Only a settled invoice is derived to be `PAID`. -/
theorem initialStatus_paid {st : InvoiceState} {expiryAt now : Timestamp}
    (hs : initialStatus (some (st, expiryAt)) now = .paid) : st = .settled := by
  cases st with
  | opened =>
      simp only [initialStatus] at hs
      split_ifs at hs
  | settled => rfl
  | held | canceled => cases hs

/-- A payload shows a preimage only with `PAID`, for an invoice that was paid in the
database the payload was built from. -/
def Revealed (h : PaymentHash) (m : Emission) : Prop :=
  m.payload.paymentPreimage ≠ none → m.payload.status = some .paid ∧ Concluded m.source h .paid

theorem revealed_of_origin {f : Feed g} {s : StatusStream} {x : StreamStep} {m : Emission}
    (hI : FeedOk f) (hs : s ∈ f.streams) (ho : Origin f.db s x m) :
    Revealed s.paymentHash m := by
  intro hp
  cases ho with
  | @aggregate source read accepted now hphase =>
      obtain ⟨hst, inv, hinv⟩ := buildPayload_preimage hp
      have hground := (hI.streams s hs).phase
      rw [hphase] at hground
      obtain ⟨hf, -⟩ := hground
      refine ⟨by rw [buildPayload_status, hst], ?_⟩
      cases read with
      | false => cases hinv
      | true =>
          rw [lookedUpStatus_some hinv] at hst
          obtain ⟨-, hnone⟩ | ⟨r, i, n, hl, -, hfound, hlog⟩ :=
            lookupInvoice_cases hf s.paymentHash
          · cases hnone.symm.trans hinv
          · cases hfound.symm.trans hinv
            rw [initialStatus_paid hst] at hlog
            exact ⟨r, hl, paidLog_of_settled hlog⟩
  | refusal message => exact absurd rfl hp
  | row _ _ _ hne => exact absurd (buildPayload_preimage hp).1 hne
  | @paid x row read hphase =>
      have hground := (hI.streams s hs).phase
      rw [hphase] at hground
      obtain ⟨hrow, ha, hst⟩ := hground
      refine ⟨buildPayload_status _ _ _, ?_⟩
      exact hI.facts.concluded row hrow s.paymentHash ha .paid hst

/-! ### Stores that differ in secrets -/

/-- The event with another preimage. -/
def withPreimage (q : Preimage) : InvoiceEvent → InvoiceEvent
  | .created paymentHash _ walletId amountMsat expiryAt boltInvoice externalId createdAt =>
      .created paymentHash q walletId amountMsat expiryAt boltInvoice externalId createdAt
  | e => e

/-- The row with other preimages, in its column and in its log. -/
def replacePreimages (p q : Preimage) (r : InvoiceRow) : InvoiceRow :=
  { r with cols := { r.cols with paymentPreimage := p }, events := r.events.map (withPreimage q) }

/-- The same row, except for the preimages of an invoice that has not been paid. -/
def SameButSecret (r r' : InvoiceRow) : Prop :=
  r' = r ∨ paidLog r.events = false ∧ ∃ p q, r' = replacePreimages p q r

/-- Two stores agree on everything except the preimages of the invoices that have not
been paid. -/
structure Indistinguishable (db db' : Db) : Prop where
  payments : db'.payments = db.payments
  invoices : List.Forall₂ SameButSecret db.invoices.rows db'.invoices.rows
  outbox : db'.outbox = db.outbox
  nextSequence : db'.nextSequence = db.nextSequence

/-- Rows that are the same but for secrets are found by the same keys. -/
theorem lookup_alike (hd : Indistinguishable db db') (h : PaymentHash) :
    Option.Rel SameButSecret (db.invoices.lookup h) (db'.invoices.lookup h) := by
  have hrows := hd.invoices
  unfold Table.lookup
  generalize db.invoices.rows = rows, db'.invoices.rows = rows' at hrows ⊢
  induction hrows with
  | nil => exact .none
  | @cons r r' rows rows' hr _ ih =>
      have hkey : r'.key = r.key := by
        rcases hr with rfl | ⟨-, p, q, rfl⟩
        · rfl
        · rfl
      by_cases hk : r.key = h
      · rw [List.find?_cons_of_pos (by simpa using hk),
          List.find?_cons_of_pos (by simpa [hkey] using hk)]
        exact .some hr
      · rw [List.find?_cons_of_neg (by simpa using hk),
          List.find?_cons_of_neg (by simpa [hkey] using hk)]
        exact ih

/-- The log with another preimage is a log of an invoice with that preimage. -/
theorem invoiceLog_withPreimage {n : NewInvoice} {log : List InvoiceEvent} {s : InvoiceState}
    {held : Option MilliSatoshi} (q : Preimage) (hlog : InvoiceLog n log s held) :
    InvoiceLog { n with paymentPreimage := q } (log.map (withPreimage q)) s held := by
  induction hlog with
  | created => exact .created
  | htlcHeld t a _ ih =>
      rw [List.map_append]
      exact .htlcHeld t a ih
  | settled t _ ih =>
      rw [List.map_append]
      exact .settled t ih
  | settledIntraledger t _ ih =>
      rw [List.map_append]
      exact .settledIntraledger t ih
  | canceled t r hs _ ih =>
      rw [List.map_append]
      exact .canceled t r hs ih

/-- A lookup finds the same in both stores, or an invoice that is not settled and
differs in its preimage only. -/
theorem lookupInvoice_alike (hf : DbFacts g db) (hd : Indistinguishable db db')
    (h : PaymentHash) (read : Bool) :
    lookupInvoice db' h read = lookupInvoice db h read ∨
    ∃ r i i', db.invoices.lookup h = some r ∧ paidLog r.events = false ∧
      lookupInvoice db h read = some i ∧ lookupInvoice db' h read = some i' ∧
      i.state ≠ .settled ∧ i'.state = i.state ∧ i'.expiryAt = i.expiryAt := by
  cases read with
  | false => exact .inl rfl
  | true =>
      have hrel := lookup_alike hd h
      obtain ⟨hl, hnone⟩ | ⟨r, i, n, hl, hi, hfound, hlog⟩ := lookupInvoice_cases hf h
      · left
        rw [hl] at hrel
        cases hl' : db'.invoices.lookup h with
        | none =>
            rw [hnone]
            simp only [lookupInvoice, Invoices.maybeFindByPaymentHash,
              Invoices.findByPaymentHash, hl', if_true]
        | some r' =>
            rw [hl'] at hrel
            cases hrel
      · rw [hl] at hrel
        cases hl' : db'.invoices.lookup h with
        | none =>
            rw [hl'] at hrel
            cases hrel
        | some r' =>
            rw [hl'] at hrel
            cases hrel with
            | some hr =>
                rcases hr with rfl | ⟨hunpaid, p, q, rfl⟩
                · left
                  simp only [lookupInvoice, Invoices.maybeFindByPaymentHash,
                    Invoices.findByPaymentHash, hl, hl']
                · right
                  have hlog' := invoiceLog_withPreimage q hlog
                  obtain ⟨i', hi', -, -, hs', -, -⟩ := InvoiceLogs.hydrate_log r.id hlog'
                  have hydrated : Invoices.hydrate (replacePreimages p q r) = .ok i' := hi'
                  refine ⟨r, i, i', hl, hunpaid, hfound, ?_, ?_, hs', ?_⟩
                  · simp only [lookupInvoice, Invoices.maybeFindByPaymentHash,
                      Invoices.findByPaymentHash, hl', hydrated, if_true]
                  · intro hset
                    rw [hset] at hlog
                    rw [paidLog_of_settled hlog] at hunpaid
                    cases hunpaid
                  · rw [InvoiceLogs.hydrate_expiryAt hlog' hi', InvoiceLogs.hydrate_expiryAt hlog hi]

/-- Both stores stand for the same status. -/
theorem lookedUpStatus_alike (hf : DbFacts g db) (hd : Indistinguishable db db')
    (h : PaymentHash) (read : Bool) (now : Timestamp) :
    lookedUpStatus db' h read now = lookedUpStatus db h read now := by
  rcases lookupInvoice_alike hf hd h read with heq | ⟨r, i, i', -, -, hi, hi', -, hs, he⟩
  · simp only [lookedUpStatus, heq]
  · rw [lookedUpStatus_some hi, lookedUpStatus_some hi', hs, he]

/-- The aggregate yields the same payload. -/
theorem derived_payload_alike (hf : DbFacts g db) (hd : Indistinguishable db db')
    (h : PaymentHash) (read : Bool) (now : Timestamp) :
    buildPayload (lookedUpStatus db h read now) h (lookupInvoice db' h read) =
      buildPayload (lookedUpStatus db h read now) h (lookupInvoice db h read) := by
  rcases lookupInvoice_alike hf hd h read with heq | ⟨r, i, i', -, -, hi, hi', hne, -, -⟩
  · rw [heq]
  · have hnot : lookedUpStatus db h read now ≠ .paid := by
      rw [lookedUpStatus_some hi]
      exact fun hpaid => hne (initialStatus_paid hpaid)
    cases hst : lookedUpStatus db h read now with
    | paid => exact absurd hst hnot
    | expired | pending => rfl

/-- A `PAID` that was announced by a row is the same in both stores. -/
theorem paid_payload_alike (hf : DbFacts g db) (hd : Indistinguishable db db')
    (hc : Concluded db h .paid) (read : Bool) :
    buildPayload .paid h (lookupInvoice db' h read) =
      buildPayload .paid h (lookupInvoice db h read) := by
  rcases lookupInvoice_alike hf hd h read with heq | ⟨r, i, i', hr, hunpaid, -⟩
  · rw [heq]
  · obtain ⟨r₀, hr₀, hpaid⟩ := hc
    cases hr.symm.trans hr₀
    cases hunpaid.symm.trans hpaid

/-! ### Two runs -/

/-- Two streams that stand at the same point; what they have looked up may differ in
secrets. -/
inductive PhaseAlike : Phase → Phase → Prop where
  | same (p : Phase) : PhaseAlike p p
  | lookedUp {source source' : Db} {read : Bool} : Indistinguishable source source' →
      PhaseAlike (.lookedUp source read) (.lookedUp source' read)

/-- Two streams that have sent the same payloads and stand at the same point. -/
inductive Alike (s : StatusStream) : StatusStream → Prop where
  | intro {p : Phase} {l : List Emission} : PhaseAlike s.phase p →
      l.map Emission.payload = s.sent.map Emission.payload →
      Alike s { s with phase := p, sent := l }

theorem alike_refl (s : StatusStream) : Alike s s := .intro (.same s.phase) rfl

variable {s s' t : StatusStream} {db₁ db₂ : Db}

/-- One more payload on both sides. -/
theorem sent_alike {l l' : List Emission} {m m' : Emission}
    (hl : l'.map Emission.payload = l.map Emission.payload) (hm : m'.payload = m.payload) :
    (l' ++ [m']).map Emission.payload = (l ++ [m]).map Emission.payload := by
  rw [List.map_append, List.map_append, hl, List.map_singleton, List.map_singleton, hm]

/-- Both sides send one more payload and go on alike. -/
theorem send_alike {m m' : Emission} {accepted : Bool} {k : Phase}
    (hsent : s'.sent.map Emission.payload = s.sent.map Emission.payload)
    (hs : s' = { s with phase := s'.phase, sent := s'.sent }) (hm : m'.payload = m.payload) :
    Alike (s.send m accepted k) (s'.send m' accepted k) := by
  have hmore := sent_alike hsent hm
  generalize s'.phase = p, s'.sent = l at hs hmore
  subst hs
  cases accepted with
  | false => exact .intro (.same .closed) hmore
  | true => exact .intro (.same k) hmore

theorem handle_alike (hsent : s'.sent.map Emission.payload = s.sent.map Emission.payload)
    (hs : s' = { s with phase := s'.phase, sent := s'.sent }) (db₁ db₂ : Db) (row : OutboxEvent)
    (accepted : Bool) (k : Phase) :
    Alike (s.handle db₁ row accepted k) (s'.handle db₂ row accepted k) := by
  generalize s'.phase = p, s'.sent = l at hs hsent
  subst hs
  unfold StatusStream.handle
  by_cases href : row.referenceId = s.paymentHash.toHex
  case neg =>
    simp only [href, if_false]
    exact .intro (.same k) hsent
  case pos =>
    simp only [href, if_true]
    unfold StatusStream.emitForEvent
    cases statusFromEvent row.domainEvent with
    | none => exact .intro (.same k) hsent
    | some st =>
        by_cases hlast : s.emitter.last = some st
        · simp only [StatusEmitter.next, hlast, if_true]
          exact .intro (.same k) hsent
        · simp only [StatusEmitter.next, hlast, if_false]
          cases st with
          | paid => exact .intro (.same _) hsent
          | expired | pending => exact send_alike hsent rfl rfl

/-- Streams that have looked up the same status and payload report the same. -/
theorem derive_alike {source source' : Db} {read accepted : Bool} {now : Timestamp}
    {l : List Emission} (hq : s.phase = .lookedUp source read)
    (hl : l.map Emission.payload = s.sent.map Emission.payload)
    (hst : lookedUpStatus source' s.paymentHash read now =
      lookedUpStatus source s.paymentHash read now)
    (hpay : buildPayload (lookedUpStatus source s.paymentHash read now) s.paymentHash
        (lookupInvoice source' s.paymentHash read) =
      buildPayload (lookedUpStatus source s.paymentHash read now) s.paymentHash
        (lookupInvoice source s.paymentHash read)) :
    Option.Rel Alike (s.derive now accepted)
      ({ s with phase := .lookedUp source' read, sent := l }.derive now accepted) := by
  unfold lookedUpStatus at hst hpay
  simp only [StatusStream.derive, hq, hst]
  generalize initialStatus ((lookupInvoice source s.paymentHash read).map
    fun i => (i.state, i.expiryAt)) now = st at hpay
  by_cases hsay : s.resume = none ∨ isTerminal st = true
  · simp only [hsay, if_true]
    by_cases hlast : s.emitter.last = some st
    · simp only [StatusEmitter.next, hlast, if_true]
      exact .some (.intro (.same _) hl)
    · simp only [StatusEmitter.next, hlast, if_false]
      exact .some (send_alike hl rfl hpay)
  · simp only [hsay, if_false]
    exact .some (.intro (.same _) hl)

/-- Each step of a stream is possible in both runs, and leaves them alike. -/
theorem step_alike {ingest : Ingest} (hf : DbFacts g db) (hd : Indistinguishable db db')
    (hI : Grounded g db ingest s) (ha : Alike s s') (x : StreamStep) :
    Option.Rel Alike (s.step db x) (s'.step db' x) := by
  obtain @⟨p, l, hp, hl⟩ := ha
  have hground := hI.phase
  generalize hq : s.phase = q at hp hground
  cases hp with
  | lookedUp hsource =>
      cases x with
      | derive now accepted =>
          obtain ⟨hfs, -⟩ := hground
          exact derive_alike hq hl (lookedUpStatus_alike hfs hsource s.paymentHash _ now)
            (derived_payload_alike hfs hsource s.paymentHash _ now)
      | overflow n =>
          simp only [StatusStream.step, StatusStream.overflow, hq, Phase.isClosed,
            Bool.false_eq_true, false_or]
          split_ifs
          · exact .none
          · exact .some (.intro (.lookedUp hsource) hl)
      | _ =>
          simp only [StatusStream.step, StatusStream.lookUp, StatusStream.count,
            StatusStream.page, StatusStream.scan, StatusStream.pay, StatusStream.receive,
            StatusStream.leave, hq]
          exact .none
  | same =>
      cases x with
      | lookUp read =>
          simp only [StatusStream.step, StatusStream.lookUp, hq]
          split
          · exact .some (.intro (.lookedUp hd) hl)
          · exact .none
      | derive now accepted =>
          cases p with
          | lookedUp source read => exact derive_alike hq hl rfl rfl
          | _ =>
              simp only [StatusStream.step, StatusStream.derive, hq]
              exact .none
      | count read accepted =>
          simp only [StatusStream.step, StatusStream.count, hq, hd.outbox]
          split
          · split_ifs
            · exact .some (send_alike hl rfl rfl)
            · exact .some (.intro (.same _) hl)
            · exact .some (.intro (.same _) hl)
          · exact .none
      | page read =>
          simp only [StatusStream.step, StatusStream.page, hq, hd.outbox]
          split
          · cases read with
            | false => exact .some (.intro (.same _) hl)
            | true =>
                simp only [if_true]
                split
                · exact .some (.intro (.same _) hl)
                · exact .some (.intro (.same _) hl)
          · exact .none
      | scan accepted =>
          simp only [StatusStream.step, StatusStream.scan, hq]
          split
          · exact .some (handle_alike hl rfl db db' _ accepted _)
          · exact .none
      | pay read accepted =>
          cases p with
          | paying row =>
              obtain ⟨hrow, habout, hst⟩ := hground
              have hc := hf.concluded row hrow s.paymentHash habout .paid hst
              have hpay := paid_payload_alike hf hd hc read
              simp only [StatusStream.step, StatusStream.pay, hq]
              exact .some (send_alike hl rfl hpay)
          | _ =>
              simp only [StatusStream.step, StatusStream.pay, hq]
              exact .none
      | receive accepted =>
          simp only [StatusStream.step, StatusStream.receive, hq]
          split
          · split_ifs
            · exact .some (.intro (.same _) hl)
            · cases s.buffer with
              | nil => exact .none
              | cons row rest =>
                  simp only
                  split_ifs
                  · exact .some (.intro (hq ▸ .same _) hl)
                  · exact .some (handle_alike hl rfl db db' row accepted _)
          · exact .none
      | overflow n =>
          simp only [StatusStream.step, StatusStream.overflow, hq]
          split_ifs
          · exact .none
          · exact .some (.intro (.same _) hl)
      | leave =>
          simp only [StatusStream.step, StatusStream.leave, hq]
          split
          · exact .some (.intro (.same _) hl)
          · exact .none

/-! ### Two feeds -/

/-- Steps of the writers. -/
def isApp : FeedEvent g → Bool
  | .app _ => true
  | _ => false

/-- What the clients have been sent, stream by stream. -/
def payloads (f : Feed g) : List (List LnInvoicePaymentStatusPayload) :=
  f.streams.map fun s => s.sent.map Emission.payload

/-- The feed over another store. -/
def withDb (f : Feed g) (db : Db) : Feed g :=
  { f with pool := { f.pool with world := { f.pool.world with db } } }

structure FeedAlike (f f' : Feed g) : Prop where
  db : Indistinguishable f.db f'.db
  ingest : f'.ingest = f.ingest
  streams : List.Forall₂ Alike f.streams f'.streams

theorem forall₂_refl {l : List StatusStream} : List.Forall₂ Alike l l := by
  induction l with
  | nil => exact .nil
  | cons s l ih => exact .cons (alike_refl s) ih

theorem offer_alike (row : OutboxEvent) (ha : Alike s s') :
    Alike (s.offer row) (s'.offer row) := by
  obtain @⟨p, l, hp, hl⟩ := ha
  have hclosed : p.isClosed = s.phase.isClosed := by
    generalize s.phase = q at hp
    cases hp <;> rfl
  unfold StatusStream.offer
  simp only [hclosed]
  split_ifs
  · exact .intro hp hl
  · exact .intro hp hl

theorem payloads_alike {f f' : Feed g} (h : FeedAlike f f') : payloads f' = payloads f := by
  have hstreams := h.streams
  unfold payloads
  generalize f.streams = l, f'.streams = l' at hstreams
  induction hstreams with
  | nil => rfl
  | cons ha _ ih =>
      obtain @⟨p, l, hp, hl⟩ := ha
      rw [List.map_cons, List.map_cons, ih]
      exact congrArg (· :: _) hl

/-- Every step but those of the writers is possible over both stores, and leaves the
feeds alike. -/
theorem next_alike {f f' : Feed g} {e : FeedEvent g} (hI : FeedOk f) (ha : FeedAlike f f')
    (he : isApp e = false) : Option.Rel FeedAlike (f.next e) (f'.next e) := by
  obtain ⟨hd, hin, hst⟩ := ha
  cases e with
  | app e => cases he
  | relay x =>
      simp only [Feed.next, hin]
      cases f.ingest.relay x with
      | none => exact .none
      | some ingest => exact .some ⟨hd, rfl, hst⟩
  | ingest read =>
      simp only [Feed.next, Feed.ingestNext, hin, hd.outbox]
      split
      · exact .none
      · exact .some ⟨hd, rfl, hst⟩
      · split
        · refine .some ⟨hd, rfl, ?_⟩
          exact List.forall₂_map_left_iff.mpr (List.forall₂_map_right_iff.mpr
            (hst.imp fun s s' => offer_alike _))
        · exact .some ⟨hd, rfl, hst⟩
  | subscribe input configured resume =>
      simp only [Feed.next, Feed.subscribe]
      split
      · refine .some ⟨hd, hin, ?_⟩
        have hattach (h : PaymentHash) :
            StatusStream.attach f'.db h resume = .attach f.db h resume := by
          simp only [StatusStream.attach, hd.nextSequence]
        rw [hattach]
        exact List.rel_append hst forall₂_refl
      · exact .some ⟨hd, hin, hst⟩
      · exact .some ⟨hd, hin, hst⟩
  | stream i x =>
      have hget := forall₂_get hst i
      simp only [Feed.next]
      generalize hs : f.streams[i]? = o, f'.streams[i]? = o' at hget
      cases hget with
      | none => exact .none
      | @some s s' hss =>
          have hground := hI.streams s (List.mem_of_getElem? hs)
          have hstep := step_alike hI.facts hd hground hss x
          simp only
          generalize s.step f.db x = u, s'.step f'.db x = u' at hstep
          cases hstep with
          | none => exact .none
          | some ht => exact .some ⟨hd, hin, forall₂_set hst i ht⟩

/-- No list of such steps tells the two feeds apart. -/
theorem play_alike {f f' : Feed g} {schedule : List (FeedEvent g)} (hI : FeedOk f)
    (ha : FeedAlike f f') (hno : ∀ e ∈ schedule, isApp e = false) :
    (play Feed.next (fun _ _ => true) f' schedule).map payloads =
      (play Feed.next (fun _ _ => true) f schedule).map payloads := by
  have hplay : Option.Rel (fun f f' : Feed g => FeedOk f ∧ FeedAlike f f')
      (play Feed.next (fun _ _ => true) f schedule)
      (play Feed.next (fun _ _ => true) f' schedule) := by
    refine play_rel (fun f f' e he h => ?_) ⟨hI, ha⟩
    have hnext := next_alike h.1 h.2 (hno e he)
    generalize hu : f.next e = u, f'.next e = u' at hnext ⊢
    cases hnext with
    | none => exact .none
    | some hstep => exact .some ⟨h.1.next hu, hstep⟩
  generalize play Feed.next (fun _ _ => true) f schedule = u,
    play Feed.next (fun _ _ => true) f' schedule = u' at hplay
  cases hplay with
  | none => rfl
  | some h => exact congrArg some (payloads_alike h.2)

/-- In every run, whatever reads fail, a payload shows a preimage only with `PAID` and
only when the log of its invoice, in the database the payload was built from, holds
`Settled` or `SettledIntraledger`. And at any point of a run, over a store that
differs from the real one only in preimages of invoices whose log holds neither, the
clients are sent the same payloads under every schedule of the ingest task and the
subscribers. -/
theorem preimages_stay_secret (g : Deployment) (es : List (FeedEvent g)) (f : Feed g)
    (hrun : Feeds (fun _ _ => true) es f) :
    (∀ s ∈ f.streams, ∀ m ∈ s.sent, Revealed s.paymentHash m) ∧
    ∀ db, Indistinguishable f.db db →
      ∀ schedule : List (FeedEvent g), (∀ e ∈ schedule, isApp e = false) →
        (play Feed.next (fun _ _ => true) (withDb f db) schedule).map payloads =
          (play Feed.next (fun _ _ => true) f schedule).map payloads := by
  constructor
  · refine emission_invariant (P := Revealed) ?_ hrun
    exact fun f i x s m hI hs _ _ ho => revealed_of_origin hI hs ho
  · intro db hd schedule hno
    exact play_alike (feedOk_run hrun) ⟨hd, rfl, forall₂_refl⟩ hno

/-- The store in which every unpaid invoice has other preimages. -/
def replaceSecrets (p q : Preimage) (db : Db) : Db :=
  { db with invoices :=
    { rows := db.invoices.rows.map fun r =>
        if paidLog r.events then r else replacePreimages p q r
      ids := by
        have hid : (Row.id ∘ fun r : InvoiceRow =>
            if paidLog r.events then r else replacePreimages p q r) = Row.id := by
          funext r
          simp only [Function.comp_apply]
          split_ifs <;> rfl
        rw [List.map_map, hid]
        exact db.invoices.ids
      keys := by
        have hkey : (Row.key ∘ fun r : InvoiceRow =>
            if paidLog r.events then r else replacePreimages p q r) = Row.key := by
          funext r
          simp only [Function.comp_apply]
          split_ifs <;> rfl
        rw [List.map_map, hkey]
        exact db.invoices.keys } }

theorem indistinguishable_replaceSecrets (p q : Preimage) (db : Db) :
    Indistinguishable db (replaceSecrets p q db) := by
  refine ⟨rfl, ?_, rfl, rfl⟩
  simp only [replaceSecrets]
  induction db.invoices.rows with
  | nil => exact .nil
  | cons r rows ih =>
      refine .cons ?_ ih
      by_cases hpaid : paidLog r.events = true
      · exact .inl (if_pos hpaid)
      · exact .inr ⟨Bool.eq_false_iff.mpr hpaid, p, q, if_neg hpaid⟩

/-- A client of the sample invoice reads its status. -/
def readStatus : List (FeedEvent Sample.deployment) :=
  [.subscribe (.byHash Sample.hash) true none, .stream 0 (.lookUp true),
    .stream 0 (.derive Sample.noon true)]

/-- Another preimage. -/
def decoy : Preimage := ⟨List.replicate 32 7, rfl⟩

/-- The open sample invoice under another preimage: its client is told `PENDING` all
the same. -/
theorem preimages_stay_secret_open :
    ∃ f, Feeds (fun _ _ => true) ((Sample.issueInvoice 0).map .app) f ∧
      (replaceSecrets decoy decoy f.db).invoices.rows ≠ f.db.invoices.rows ∧
      (play Feed.next (fun _ _ => true) (withDb f (replaceSecrets decoy decoy f.db))
        readStatus).map payloads =
        some [[⟨[], some Sample.hash, none, none, some .pending⟩]] := by
  obtain ⟨f, hrun, hc⟩ := exists_run_of_play Feed.next (fun _ _ => true)
    (Feed.boot Sample.deployment) ((Sample.issueInvoice 0).map .app)
    (fun f => decide ((replaceSecrets decoy decoy f.db).invoices.rows ≠ f.db.invoices.rows) &&
      decide ((play Feed.next (fun _ _ => true) f readStatus).map payloads =
        some [[⟨[], some Sample.hash, none, none, some .pending⟩]])) (by decide +kernel)
  simp only [Bool.and_eq_true, decide_eq_true_eq] at hc
  have hsame := (preimages_stay_secret Sample.deployment _ f hrun).2 _
    (indistinguishable_replaceSecrets decoy decoy f.db) readStatus (by decide)
  exact ⟨f, hrun, hc.1, hsame.trans hc.2⟩

end LightningGateway.PreimageSecrecy
