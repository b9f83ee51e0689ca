import LightningGateway.OutboxHistory

/-!
# Payment logs and their outbox rows

Symphony learns of a payment from the outbox alone, so the rows about a payment
have to say what its log says. Which rows a log calls for depends on the path
that created it: a Lightning payment announces its intent and its outcome, an
intraledger transfer is announced once, when it is complete.
-/
namespace LightningGateway.PaymentLedger
open Primitives EventTables TaskPools PaymentAggregate OutboxRows GatewayStore StoreSpecs
open GatewayMachine PeerCalls PaymentFlows InvoiceFlows CallSites GatewayInvariant OutboxHistory
open PaymentLogs (PaymentLog)

/-- The transaction that opened the payment `h` over Lightning. -/
def opensLightning (h : PaymentHash) : Transaction → Bool
  | .intent n _ => n.paymentHash = h
  | _ => false

/-- The transaction that opened the payment `h` as an intraledger transfer. -/
def opensTransfer (h : PaymentHash) : Transaction → Bool
  | .transfer n _ _ _ _ => n.paymentHash = h
  | _ => false

/-! ### What a log announces -/

/-- The row a Lightning payment publishes with an event. -/
def announce : PaymentEvent → Option GatewayDomainEvent
  | .initiated .. => some .lightningPaymentInitiated
  | .completed .. => some .lightningPaymentCompleted
  | .failed .. => some .lightningPaymentFailed
  | .pending _ | .reversed .. => none

/-- The terminal rows of a log, one for each outcome it contains. -/
def outcomeRows (log : List PaymentEvent) : List GatewayDomainEvent :=
  (if log.any PaymentEvent.isCompleted then [.lightningPaymentCompleted] else []) ++
    if log.any PaymentEvent.isFailed then [.lightningPaymentFailed] else []

variable {n : NewPayment} {log : List PaymentEvent} {s : PaymentState}

theorem outcomeRows_live (h : PaymentLog n log s) (hs : s = .initiated ∨ s = .pending) :
    outcomeRows log = [] := by
  have hc := h.any_isCompleted
  have hf := h.any_isFailed
  rcases hs with rfl | rfl <;> simp_all [outcomeRows]

/-- A log announces its creation and then its outcome. -/
theorem filterMap_announce (h : PaymentLog n log s) :
    log.filterMap announce = .lightningPaymentInitiated :: outcomeRows log := by
  induction h with
  | initiated => rfl
  | pending t _ ih =>
      simpa [List.filterMap_cons, announce, outcomeRows, PaymentEvent.isCompleted,
        PaymentEvent.isFailed] using ih
  | completed t p f o hs h ih =>
      have hf := h.any_isFailed
      rw [List.filterMap_append, ih, outcomeRows_live h hs]
      rcases hs with rfl | rfl <;>
        simp_all [announce, outcomeRows, PaymentEvent.isCompleted, PaymentEvent.isFailed]
  | failed t r hs h ih =>
      have hc := h.any_isCompleted
      rw [List.filterMap_append, ih, outcomeRows_live h hs]
      rcases hs with rfl | rfl <;>
        simp_all [announce, outcomeRows, PaymentEvent.isCompleted, PaymentEvent.isFailed]
  | reversed t r _ ih =>
      simpa [List.filterMap_cons, announce, outcomeRows, PaymentEvent.isCompleted,
        PaymentEvent.isFailed] using ih

/-! ### The invariant -/

/-- The row is about payment `h` of `amount`. -/
structure Describes (h : PaymentHash) (amount : MilliSatoshi) (row : OutboxEvent) : Prop where
  amountSat : row.amountSat = amount.msat.toNat / 1000
  correlationId : row.correlationId = h.toHex
  referenceId : row.referenceId = h.toHex

/-- What the rows about `h` are, given the row of its payment. -/
inductive Announced (db : Db) (commits : List Transaction) (h : PaymentHash) : Prop where
  | absent : db.payments.lookup h = none → commits.any (opensLightning h) = false →
      commits.any (opensTransfer h) = false → outgoingRows db h = [] → Announced db commits h
  | lightning {r : PaymentRow} : db.payments.lookup h = some r →
      commits.any (opensLightning h) = true → commits.any (opensTransfer h) = false →
      (outgoingRows db h).map OutboxEvent.domainEvent = r.events.filterMap announce →
      (∀ n s, PaymentLog n r.events s → ∀ row ∈ outgoingRows db h, Describes h n.amountMsat row) →
      Announced db commits h
  | transfer {r : PaymentRow} : db.payments.lookup h = some r →
      commits.any (opensTransfer h) = true → commits.any (opensLightning h) = false →
      r.events.any PaymentEvent.isCompleted = true →
      (outgoingRows db h).map OutboxEvent.domainEvent = [.lightningIntraledgerTransferCompleted] →
      (∀ n s, PaymentLog n r.events s → ∀ row ∈ outgoingRows db h, Describes h n.amountMsat row) →
      Announced db commits h

section
variable {db db' : Db} {commits : List Transaction} {b : Transaction} {h k : PaymentHash}
variable {g : Deployment} {entry : Entry} {past : Calls}

/-- A step that neither opens, writes nor mentions `h`. -/
theorem Announced.frame (ha : Announced db commits h)
    (hl : db'.payments.lookup h = db.payments.lookup h) (ho : outgoingRows db' h = outgoingRows db h)
    (hb : opensLightning h b = false) (hb' : opensTransfer h b = false) :
    Announced db' (commits ++ [b]) h := by
  cases ha with
  | absent h₁ h₂ h₃ h₄ =>
      exact .absent (hl.trans h₁) (by simp [h₂, hb]) (by simp [h₃, hb']) (ho.trans h₄)
  | lightning h₁ h₂ h₃ h₄ h₅ =>
      exact .lightning (hl.trans h₁) (by simp [h₂]) (by simp [h₃, hb']) (ho ▸ h₄) (ho ▸ h₅)
  | transfer h₁ h₂ h₃ h₄ h₅ h₆ =>
      exact .transfer (hl.trans h₁) (by simp [h₂]) (by simp [h₃, hb]) h₄ (ho ▸ h₅) (ho ▸ h₆)

/-- Only the payments and the outbox matter. -/
theorem Announced.same (ha : Announced db commits h) (hp : db'.payments = db.payments)
    (ho : db'.outbox = db.outbox) : Announced db' commits h := by
  have hrows : outgoingRows db' h = outgoingRows db h := by
    simp only [outgoingRows, rowsAbout, ho]
  cases ha with
  | absent h₁ h₂ h₃ h₄ => exact .absent (hp ▸ h₁) h₂ h₃ (hrows.trans h₄)
  | lightning h₁ h₂ h₃ h₄ h₅ => exact .lightning (hp ▸ h₁) h₂ h₃ (hrows ▸ h₄) (hrows ▸ h₅)
  | transfer h₁ h₂ h₃ h₄ h₅ h₆ => exact .transfer (hp ▸ h₁) h₂ h₃ h₄ (hrows ▸ h₅) (hrows ▸ h₆)

/-- New events are announced by the rows that enter with them. -/
theorem Announced.extend {r : PaymentRow} {new : List PaymentEvent} {state : String}
    {rows : List OutboxEvent} (ha : Announced db commits h) (hdb : DbOk g db)
    (hr : db.payments.lookup h = some r) (hw : WritesPayment db db' h (r.grow state new))
    (hlog : PaymentLog n (r.events ++ new) s) (hnew : new ≠ []) (hs : s ≠ .reversed)
    (ho : outgoingRows db' h = outgoingRows db h ++ rows)
    (hrows : rows.map OutboxEvent.domainEvent = new.filterMap announce)
    (hdesc : ∀ row ∈ rows, Describes h n.amountMsat row)
    (hb : opensTransfer h b = false) : Announced db' (commits ++ [b]) h := by
  obtain ⟨n₀, s₀, hlog₀, -, -⟩ := hdb.payments h r hr
  have hlive := hlog₀.live_prefix hlog hnew hs
  cases ha with
  | absent h₁ => cases h₁.symm.trans hr
  | lightning h₁ h₂ h₃ h₄ h₅ =>
      cases h₁.symm.trans hr
      refine .lightning hw.at (by simp [h₂]) (by simp [h₃, hb]) ?_ ?_
      · rw [ho, List.map_append, h₄, hrows]
        exact (List.filterMap_append ..).symm
      · intro n' s' hn' row hrow
        have hamount : n'.amountMsat = n.amountMsat := by
          exact (hn'.origin_unique (m := []) (by simpa [Row.grow] using hlog)).2.2.1
        have hamount₀ : n₀.amountMsat = n.amountMsat := (hlog₀.origin_unique hlog).2.2.1
        rw [ho] at hrow
        rcases List.mem_append.mp hrow with hrow | hrow
        · rw [hamount, ← hamount₀]
          exact h₅ n₀ s₀ hlog₀ row hrow
        · rw [hamount]
          exact hdesc row hrow
  | transfer h₁ h₂ h₃ h₄ =>
      -- A transfer is complete from the start, so nothing is ever appended to it.
      cases h₁.symm.trans hr
      rcases hlog₀.any_isCompleted.mp h₄ with rfl | rfl <;> rcases hlive with hl | hl <;> cases hl

/-- The first row of a new payment. -/
theorem Announced.fresh (ha : Announced db commits h) (hnone : db.payments.lookup h = none) :
    commits.any (opensLightning h) = false ∧ commits.any (opensTransfer h) = false ∧
      outgoingRows db h = [] := by
  cases ha with
  | absent _ h₂ h₃ h₄ => exact ⟨h₂, h₃, h₄⟩
  | lightning h₁ => cases hnone.symm.trans h₁
  | transfer h₁ => cases hnone.symm.trans h₁

theorem describes_row {e : NewOutboxEvent} {amount : MilliSatoshi} {q : ℤ}
    (ha : e.amountSat = asI64 amount.wholeSat) (hc : e.correlationId = h.toHex)
    (hr : e.referenceId = h.toHex) : Describes h amount (e.row q) :=
  ⟨ha.trans (asI64_wholeSat amount), hc, hr⟩

/-- A step that touches no payment and publishes nothing outgoing. -/
theorem Announced.incoming {e : NewOutboxEvent} (ha : Announced db commits h)
    (hp : db'.payments = db.payments) (hpub : Publishes db db' e)
    (hd : e.domainEvent.isOutgoing = false) (hb : opensLightning h b = false)
    (hb' : opensTransfer h b = false) : Announced db' (commits ++ [b]) h :=
  ha.frame (by rw [hp]) (rowsAbout_direction hpub (by simp [hd])) hb hb'

theorem announced_step (hs : LedgerStep g entry past db db' b) (hdb : DbOk g db)
    (ha : ∀ h, Announced db commits h) (h : PaymentHash) : Announced db' (commits ++ [b]) h := by
  cases hs with
  | @intent n e r hsite hnone hev _ hw _ hpub =>
      obtain ⟨request, utcNow, -, -, rfl, -⟩ := hsite
      by_cases hk : h = n.paymentHash
      · subst hk
        obtain ⟨-, ht, ho⟩ := (ha _).fresh hnone
        have hrows := rowsAbout_published (d := true) hpub rfl rfl
        rw [show rowsAbout db true n.paymentHash = [] from ho] at hrows
        refine .lightning hw.at (by simp [opensLightning]) (by simp [ht, opensTransfer]) ?_ ?_
        · rw [outgoingRows, hrows, hev]
          rfl
        · intro n' s' hn' row hrow
          rw [outgoingRows, hrows, List.nil_append, List.mem_singleton] at hrow
          have hlog : PaymentLog n r.events .initiated := hev ▸ .initiated
          rw [← (hlog.origin_unique (m := []) (by simpa using hn')).2.2.1, hrow]
          exact describes_row rfl rfl rfl
      · exact (ha h).frame (hw.other hk) (rowsAbout_other hpub rfl hk)
          (by simp [opensLightning, Ne.symm hk]) rfl
  | @pending p k n r t _ hr hlog _ _ hw _ hsil =>
      by_cases hk : h = k
      · subst hk
        exact (ha h).extend hdb hr hw hlog (by simp) (by simp)
          ((rowsAbout_silent hsil).trans (List.append_nil _).symm) rfl
          (fun row hrow => by cases hrow) rfl
      · exact (ha h).frame (hw.other hk) (rowsAbout_silent hsil) rfl rfl
  | @completed p k n r before preimage fees hops t utcNow _ hr hbefore hlog _ _ hw _ hpub =>
      by_cases hk : h = k
      · subst hk
        refine (ha h).extend hdb hr hw hlog (by simp) (by simp) (rowsAbout_published hpub rfl rfl)
          ?_ ?_ rfl
        · rcases hbefore with rfl | ⟨t', rfl⟩ <;> rfl
        · intro row hrow
          obtain rfl := List.mem_singleton.mp hrow
          exact describes_row rfl rfl rfl
      · exact (ha h).frame (hw.other hk) (rowsAbout_other hpub rfl hk) rfl rfl
  | @failed p k n r before reason t utcNow _ hr hbefore hlog _ _ hw _ hpub =>
      by_cases hk : h = k
      · subst hk
        refine (ha h).extend hdb hr hw hlog (by simp) (by simp) (rowsAbout_published hpub rfl rfl)
          ?_ ?_ rfl
        · rcases hbefore with rfl | ⟨t', rfl⟩ <;> rfl
        · intro row hrow
          obtain rfl := List.mem_singleton.mp hrow
          exact describes_row rfl rfl rfl
      · exact (ha h).frame (hw.other hk) (rowsAbout_other hpub rfl hk) rfl rfl
  | @transfer n m preimage t recipient e r ri hsite hnone hev _ hw _ _ _ _ _ hpub =>
      obtain ⟨-, -, -, -, ⟨utcNow, rfl⟩, -⟩ := hsite
      by_cases hk : h = n.paymentHash
      · subst hk
        obtain ⟨hl, -, ho⟩ := (ha _).fresh hnone
        have hrows := rowsAbout_published (d := true) hpub rfl rfl
        rw [show rowsAbout db true n.paymentHash = [] from ho] at hrows
        refine .transfer hw.at (by simp [opensTransfer]) (by simp [hl, opensLightning])
          (by rw [hev]; rfl) ?_ ?_
        · rw [outgoingRows, hrows]
          rfl
        · intro n' s' hn' row hrow
          rw [outgoingRows, hrows, List.nil_append, List.mem_singleton] at hrow
          have hlog : PaymentLog n r.events .completed :=
            hev ▸ .completed t preimage .zero [] (.inl rfl) .initiated
          rw [← (hlog.origin_unique (m := []) (by simpa using hn')).2.2.1, hrow]
          exact describes_row rfl rfl rfl
      · exact (ha h).frame (hw.other hk) (rowsAbout_other hpub rfl hk) rfl
          (by simp [opensTransfer, Ne.symm hk])
  | createInvoice _ _ _ _ hp hsil => exact (ha h).frame (by rw [hp]) (rowsAbout_silent hsil) rfl rfl
  | held _ _ _ _ _ _ hp hpub | settled _ _ _ _ _ _ hp hpub | canceled _ _ _ _ _ _ _ hp hpub =>
      exact (ha h).incoming hp hpub rfl rfl rfl

end

/-! ### Every reachable state -/

/-- The rows about `h` say what the log of its payment says. -/
def RowsFollowLog (w : GatewayEffects.World) (h : PaymentHash) : Prop :=
  match w.db.payments.lookup h with
  | none => outgoingRows w.db h = []
  | some r => ∃ p, Payments.hydrate r = .ok p ∧
      (∀ row ∈ outgoingRows w.db h, Describes h p.amountMsat row) ∧
      ((w.commits.any (opensLightning h) = true ∧ w.commits.any (opensTransfer h) = false ∧
          ∃ initiated outcome, outgoingRows w.db h = initiated :: outcome ∧
            initiated.domainEvent = .lightningPaymentInitiated ∧
            outcome.map OutboxEvent.domainEvent = outcomeRows r.events ∧
            ¬(r.events.any PaymentEvent.isCompleted ∧ r.events.any PaymentEvent.isFailed) ∧
            ∀ row ∈ outcome, initiated.sequence < row.sequence) ∨
        (w.commits.any (opensTransfer h) = true ∧ w.commits.any (opensLightning h) = false ∧
          ∃ row, outgoingRows w.db h = [row] ∧
            row.domainEvent = .lightningIntraledgerTransferCompleted))

theorem rowsFollowLog_of_announced {g : Deployment} {w : GatewayEffects.World} {h : PaymentHash}
    (hdb : DbOk g w.db) (hseq : Sequenced w.db) (ha : Announced w.db w.commits h) :
    RowsFollowLog w h := by
  unfold RowsFollowLog
  cases ha with
  | absent h₁ _ _ h₄ => simpa only [h₁] using h₄
  | @lightning r h₁ h₂ h₃ h₄ h₅ =>
      simp only [h₁]
      obtain ⟨n, s, hlog, -, -⟩ := hdb.payments h r h₁
      obtain ⟨p, hp, -, -, -, ht⟩ := PaymentLogs.hydrate_log r.id hlog
      rw [filterMap_announce hlog] at h₄
      obtain ⟨initiated, outcome, hrows, hi, ho⟩ := List.map_eq_cons_iff.mp h₄
      refine ⟨p, hp, ht.amountMsat ▸ h₅ n s hlog, .inl ⟨h₂, h₃, initiated, outcome, hrows, hi, ho,
        ?_, ?_⟩⟩
      · rintro ⟨hc, hf⟩
        obtain rfl := hlog.any_isFailed.mp hf
        rcases hlog.any_isCompleted.mp hc with hc | hc <;> cases hc
      · have hpair := hseq.rowsAbout (d := true) (h := h)
        rw [show rowsAbout w.db true h = initiated :: outcome from hrows] at hpair
        exact (List.pairwise_cons.mp hpair).1
  | @transfer r h₁ h₂ h₃ _ h₅ h₆ =>
      simp only [h₁]
      obtain ⟨n, s, hlog, -, -⟩ := hdb.payments h r h₁
      obtain ⟨p, hp, -, -, -, ht⟩ := PaymentLogs.hydrate_log r.id hlog
      obtain ⟨row, rest, hrows, hd, hrest⟩ := List.map_eq_cons_iff.mp h₅
      obtain rfl := List.map_eq_nil_iff.mp hrest
      exact ⟨p, hp, ht.amountMsat ▸ h₆ n s hlog, .inr ⟨h₂, h₃, row, hrows, hd⟩⟩

/-- In every reachable state the outgoing rows about a hash are those that the log
of its payment calls for, whatever the peers answered and whenever tasks died. -/
theorem outgoing_rows_follow_log (g : Deployment) (D : Discipline (gateway g))
    (es : List (Event (gateway g))) (s : Pool (gateway g)) (hrun : Runs D (boot g) es s)
    (h : PaymentHash) : RowsFollowLog s.world h := by
  obtain ⟨hdb, hseq, ha⟩ := ledger_invariant D
    (I := fun db commits => Sequenced db ∧ ∀ h, Announced db commits h)
    ⟨sequenced_empty, fun h => .absent rfl rfl rfl rfl⟩
    (fun entry past db db' b commits hb hdb hI =>
      ⟨hI.1.step hb, announced_step hb hdb hI.2⟩)
    (fun db commits hI => ⟨hI.1.draw, fun h => (hI.2 h).same rfl rfl⟩) hrun
  exact rowsFollowLog_of_announced hdb hseq (ha h)

/-- A payment that LND settles at once. -/
def settledRun : List (Event (gateway Sample.deployment)) :=
  Sample.sendUpToMessage 0 ++
    [.step 0 (.lndPayment (Sample.message 2 Sample.preimage.toHex)), .step 0 (.clock Sample.noon),
      .step 0 (.served Sample.noon)]

theorem outgoing_rows_follow_log_settled :
    ∃ s, Runs {} (boot Sample.deployment) settledRun s ∧ RowsFollowLog s.world Sample.hash ∧
      (outgoingRows s.world.db Sample.hash).map OutboxEvent.domainEvent =
        [.lightningPaymentInitiated, .lightningPaymentCompleted] := by
  obtain ⟨s, hrun, hrows⟩ := exists_run_of_play {} (boot Sample.deployment)
    settledRun (fun s => decide
      ((outgoingRows s.world.db Sample.hash).map OutboxEvent.domainEvent =
        [.lightningPaymentInitiated, .lightningPaymentCompleted])) (by decide +kernel)
  exact ⟨s, hrun, outgoing_rows_follow_log Sample.deployment {} settledRun s hrun Sample.hash,
    of_decide_eq_true hrows⟩

end LightningGateway.PaymentLedger
