import LightningGateway.OutboxHistory

/-!
# Invoice logs and their outbox rows

An HTLC that is parked on an invoice books a reservation at Symphony, and the
terminal row of the invoice undoes it by repeating the reserved amount. The
invariant therefore ties two things to the log: which rows there are, and the
amount that the held row states and the terminal row repeats.
-/
namespace LightningGateway.InvoiceLedger
open Primitives EventTables TaskPools InvoiceAggregate OutboxRows GatewayStore StoreSpecs
open GatewayMachine PeerCalls InvoiceFlows CallSites GatewayInvariant OutboxHistory
open InvoiceLogs (InvoiceLog)

/-! ### What a log announces -/

/-- The row that an invoice publishes with an event. -/
def announce : InvoiceEvent → Option GatewayDomainEvent
  | .htlcHeld .. => some .lightningHtlcHeld
  | .settled _ => some .lightningInvoiceSettled
  | .canceled .. => some .lightningInvoiceCanceled
  | .created .. | .settledIntraledger _ => none

def heldRows (log : List InvoiceEvent) : List GatewayDomainEvent :=
  if log.any InvoiceEvent.isHtlcHeld then [.lightningHtlcHeld] else []

/-- The terminal rows of a log, one for each outcome it contains. -/
def outcomeRows (log : List InvoiceEvent) : List GatewayDomainEvent :=
  (if log.any InvoiceEvent.isSettled then [.lightningInvoiceSettled] else []) ++
    if log.any InvoiceEvent.isCanceled then [.lightningInvoiceCanceled] else []

variable {m : NewInvoice} {log : List InvoiceEvent} {s : InvoiceState}
variable {held : Option MilliSatoshi}

/-- An invoice that is open or held has no outcome yet. -/
theorem live_any (h : InvoiceLog m log s held) (hs : s = .opened ∨ s = .held) :
    log.any InvoiceEvent.isSettled = false ∧ log.any InvoiceEvent.isCanceled = false := by
  constructor <;> rw [Bool.eq_false_iff] <;> intro hc
  · rcases hs with rfl | rfl <;> cases h.any_isSettled hc
  · rcases hs with rfl | rfl <;> cases h.any_isCanceled.mp hc

/-- A log announces its HTLC and then its outcome. -/
theorem filterMap_announce (h : InvoiceLog m log s held) :
    log.filterMap announce = heldRows log ++ outcomeRows log := by
  induction h with
  | created => rfl
  | htlcHeld t a h ih | settledIntraledger t h ih =>
      obtain ⟨hset, hcan⟩ := live_any h (.inl rfl)
      rw [List.filterMap_append, ih]
      simp only [heldRows, outcomeRows, List.any_append, hset, hcan, h.any_isHtlcHeld]
      rfl
  | settled t h ih =>
      obtain ⟨hset, hcan⟩ := live_any h (.inr rfl)
      rw [List.filterMap_append, ih]
      simp only [heldRows, outcomeRows, List.any_append, hset, hcan, h.any_isHtlcHeld]
      rfl
  | @canceled log s held t r hs h ih =>
      obtain ⟨hset, hcan⟩ := live_any h hs
      rw [List.filterMap_append, ih]
      simp only [heldRows, outcomeRows, List.any_append, hset, hcan, h.any_isHtlcHeld]
      cases held <;> rfl

/-- A transfer is the only thing that ends an invoice without a row. -/
theorem outcomeRows_transferred (h : InvoiceLog m log s held)
    (ht : log.any InvoiceEvent.isSettledIntraledger = true) : outcomeRows log = [] := by
  cases h with
  | created => cases ht
  | htlcHeld t a h | settled t h =>
      rw [List.any_append] at ht
      cases h.any_isSettledIntraledger ((Bool.or_eq_true_iff.mp ht).resolve_right Bool.noConfusion)
  | settledIntraledger t h =>
      obtain ⟨hset, hcan⟩ := live_any h (.inl rfl)
      simp only [outcomeRows, List.any_append, hset, hcan]
      rfl
  | canceled t r hs h =>
      rw [List.any_append] at ht
      have hst := h.any_isSettledIntraledger
        ((Bool.or_eq_true_iff.mp ht).resolve_right Bool.noConfusion)
      rcases hs with rfl | rfl <;> cases hst

/-- Settled and canceled exclude each other. -/
theorem not_settled_and_canceled (h : InvoiceLog m log s held) :
    ¬(log.any InvoiceEvent.isSettled = true ∧ log.any InvoiceEvent.isCanceled = true) := by
  rintro ⟨hs, hc⟩
  cases (h.any_isSettled hs).symm.trans (h.any_isCanceled.mp hc)

/-! ### The invariant -/

/-- The row states the amount of the HTLC: as its own when it announces the HTLC,
as the amount to release when it announces the outcome. -/
structure Carries (held : Option MilliSatoshi) (row : OutboxEvent) : Prop where
  own : row.domainEvent = .lightningHtlcHeld →
    ∃ amount, held = some amount ∧ row.gatewayMetadata.get? "amt_paid_msat" = some (.u64 amount.msat)
  repeated : row.domainEvent ≠ .lightningHtlcHeld →
    row.gatewayMetadata.get? "held_amount_msat" = some (optionalMsat held)

/-- What the rows about `h` are, given the row of its invoice. -/
inductive Announced (db : Db) (h : PaymentHash) : Prop where
  | absent : db.invoices.lookup h = none → incomingRows db h = [] → Announced db h
  | present {r : InvoiceRow} {m : NewInvoice} {s : InvoiceState} {held : Option MilliSatoshi} :
      db.invoices.lookup h = some r → InvoiceLog m r.events s held →
      (incomingRows db h).map OutboxEvent.domainEvent = r.events.filterMap announce →
      (∀ row ∈ incomingRows db h, Carries held row) → Announced db h

section
variable {db db' : Db} {b : Transaction} {h k : PaymentHash} {r : InvoiceRow}
variable {g : Deployment} {entry : Entry} {past : Calls}

/-- A step that neither writes nor mentions `h`. -/
theorem Announced.frame (ha : Announced db h)
    (hl : db'.invoices.lookup h = db.invoices.lookup h)
    (ho : incomingRows db' h = incomingRows db h) : Announced db' h := by
  cases ha with
  | absent h₁ h₂ => exact .absent (hl.trans h₁) (ho.trans h₂)
  | present h₁ h₂ h₃ h₄ => exact .present (hl.trans h₁) h₂ (ho ▸ h₃) (ho ▸ h₄)

/-- The rows about an invoice whose log is known. -/
theorem Announced.rows (ha : Announced db h) (hr : db.invoices.lookup h = some r)
    (hlog : InvoiceLog m r.events s held) :
    (incomingRows db h).map OutboxEvent.domainEvent = r.events.filterMap announce ∧
      ∀ row ∈ incomingRows db h, Carries held row := by
  cases ha with
  | absent h₁ => cases h₁.symm.trans hr
  | present h₁ h₂ h₃ h₄ =>
      cases h₁.symm.trans hr
      exact ⟨h₃, (h₂.index_unique hlog).2 ▸ h₄⟩

/-- A new event is announced by the row that enters with it. -/
theorem Announced.extend {new : InvoiceEvent} {state : String} {e : NewOutboxEvent}
    {s' : InvoiceState} (ha : Announced db h) (hr : db.invoices.lookup h = some r)
    (hlog : InvoiceLog m r.events s held) (hw : WritesInvoice db db' h (r.grow state [new]))
    (hlog' : InvoiceLog m (r.events ++ [new]) s' held) (hpub : Publishes db db' e)
    (hd : e.domainEvent.isOutgoing = false) (href : e.referenceId = h.toHex)
    (hnew : announce new = some e.domainEvent) (hcar : Carries held (e.row db.nextSequence)) :
    Announced db' h := by
  obtain ⟨hrows, hall⟩ := ha.rows hr hlog
  have ho : incomingRows db' h = incomingRows db h ++ [e.row db.nextSequence] :=
    rowsAbout_published hpub hd href
  refine .present hw.at hlog' ?_ ?_
  · rw [ho, List.map_append, hrows]
    simp [Row.grow, hnew]
  · intro row hrow
    rw [ho] at hrow
    rcases List.mem_append.mp hrow with hrow | hrow
    · exact hall row hrow
    · obtain rfl := List.mem_singleton.mp hrow
      exact hcar

/-- The HTLC is the first thing that is announced about an invoice. -/
theorem Announced.park {t utcNow : Timestamp} {amount : MilliSatoshi} {walletId : WalletId}
    (ha : Announced db h) (hr : db.invoices.lookup h = some r)
    (hlog : InvoiceLog m r.events .opened none)
    (hw : WritesInvoice db db' h (r.grow "held" [.htlcHeld t amount]))
    (hpub : Publishes db db' (heldOutbox h amount walletId utcNow)) : Announced db' h := by
  obtain ⟨hrows, -⟩ := ha.rows hr hlog
  have hquiet : r.events.filterMap announce = [] := by
    obtain ⟨hset, hcan⟩ := live_any hlog (.inl rfl)
    rw [filterMap_announce hlog]
    simp only [heldRows, outcomeRows, hset, hcan, hlog.any_isHtlcHeld]
    rfl
  rw [hquiet, List.map_eq_nil_iff] at hrows
  have ho : incomingRows db' h = [(heldOutbox h amount walletId utcNow).row db.nextSequence] := by
    have hp := rowsAbout_published (d := false) hpub rfl rfl
    rwa [show rowsAbout db false h = [] from hrows] at hp
  refine .present hw.at (.htlcHeld t amount hlog) ?_ ?_
  · rw [ho]
    simp [Row.grow, hquiet, announce, heldOutbox, NewOutboxEvent.forLightningHtlcHeld,
      NewOutboxEvent.new]
  · intro row hrow
    rw [ho, List.mem_singleton] at hrow
    subst hrow
    exact ⟨fun _ => ⟨amount, rfl, rfl⟩, fun hd => absurd rfl hd⟩

theorem announced_step (hs : LedgerStep g entry past db db' b) (ha : ∀ h, Announced db h)
    (h : PaymentHash) : Announced db' h := by
  cases hs with
  | intent hsite _ _ _ _ hi hpub =>
      obtain ⟨request, utcNow, -, -, rfl, -⟩ := hsite
      exact (ha h).frame (by rw [hi]) (rowsAbout_direction hpub Bool.noConfusion)
  | pending _ _ _ _ _ _ hi hsil => exact (ha h).frame (by rw [hi]) (rowsAbout_silent hsil)
  | completed _ _ _ _ _ _ _ hi hpub | failed _ _ _ _ _ _ _ hi hpub =>
      exact (ha h).frame (by rw [hi]) (rowsAbout_direction hpub Bool.noConfusion)
  | @transfer n m preimage t recipient e r ri hsite _ _ _ _ hri hlog _ _ hwi hpub =>
      obtain ⟨-, -, -, -, ⟨utcNow, rfl⟩, -⟩ := hsite
      have ho : incomingRows db' h = incomingRows db h :=
        rowsAbout_direction hpub Bool.noConfusion
      by_cases hk : h = n.paymentHash
      · subst hk
        obtain ⟨hrows, hall⟩ := (ha _).rows hri hlog
        refine .present hwi.at (.settledIntraledger t hlog) ?_ (ho ▸ hall)
        rw [ho, hrows]
        simp [Row.grow, List.filterMap_cons, announce]
      · exact (ha h).frame (hwi.other hk) ho
  | @createInvoice n r _ hnone hev hw _ hsil =>
      by_cases hk : h = n.paymentHash
      · subst hk
        have ho : incomingRows db' n.paymentHash = [] := by
          rw [incomingRows, rowsAbout_silent hsil]
          cases ha n.paymentHash with
          | absent _ h₂ => exact h₂
          | present h₁ => cases hnone.symm.trans h₁
        have hlog : InvoiceLog n r.events .opened none := hev ▸ .created
        refine .present hw.at hlog ?_ ?_
        · rw [ho, hev]
          rfl
        · intro row hrow
          rw [ho] at hrow
          cases hrow
      · exact (ha h).frame (hw.other hk) (rowsAbout_silent hsil)
  | @held i k m r amount walletId t utcNow _ hr hlog _ _ hw _ hpub =>
      by_cases hk : h = k
      · subst hk
        exact (ha h).park hr hlog hw hpub
      · exact (ha h).frame (hw.other hk) (rowsAbout_other hpub rfl hk)
  | @settled i k m r amount heldAmount walletId externalId t utcNow _ hr hlog _ _ hw _ hpub =>
      by_cases hk : h = k
      · subst hk
        exact (ha h).extend hr hlog hw (.settled t hlog) hpub rfl rfl rfl
          ⟨fun hd => (by cases hd), fun _ => rfl⟩
      · exact (ha h).frame (hw.other hk) (rowsAbout_other hpub rfl hk)
  | @canceled i k m r s held amount walletId t utcNow _ hr hlog hs _ _ hw _ hpub =>
      by_cases hk : h = k
      · subst hk
        exact (ha h).extend hr hlog hw (.canceled t .expired hs hlog) hpub rfl rfl rfl
          ⟨fun hd => (by cases hd), fun _ => rfl⟩
      · exact (ha h).frame (hw.other hk) (rowsAbout_other hpub rfl hk)

/-- A number drawn and never used changes nothing here. -/
theorem Announced.redraw {q : ℤ} (ha : Announced db h) :
    Announced { db with nextSequence := q } h := by
  cases ha with
  | absent h₁ h₂ => exact .absent h₁ h₂
  | present h₁ h₂ h₃ h₄ => exact .present h₁ h₂ h₃ h₄

end

/-! ### Every reachable state -/

/-- The log of the invoice `h`; empty when there is none. -/
def invoiceLog (db : Db) (h : PaymentHash) : List InvoiceEvent :=
  ((db.invoices.lookup h).map Row.events).getD []

/-- The rows about `h` say what the log of its invoice says, and every terminal
row releases what the held row has reserved. -/
def RowsFollowLog (db : Db) (h : PaymentHash) : Prop :=
  ∃ parked outcome, incomingRows db h = parked ++ outcome ∧
    parked.map OutboxEvent.domainEvent = heldRows (invoiceLog db h) ∧
    outcome.map OutboxEvent.domainEvent = outcomeRows (invoiceLog db h) ∧
    ¬((invoiceLog db h).any InvoiceEvent.isSettled ∧
      (invoiceLog db h).any InvoiceEvent.isCanceled) ∧
    ((invoiceLog db h).any InvoiceEvent.isSettledIntraledger → outcome = []) ∧
    ∀ row ∈ outcome,
      (∀ p ∈ parked, p.sequence < row.sequence ∧
        row.gatewayMetadata.get? "held_amount_msat" = p.gatewayMetadata.get? "amt_paid_msat") ∧
      (row.gatewayMetadata.get? "held_amount_msat" = some .null ↔ parked = [])

/-- A reserved amount is never null. -/
theorem optionalMsat_eq_null : some (optionalMsat held) = some .null ↔ held = none := by
  cases held with
  | none => exact ⟨fun _ => rfl, fun _ => rfl⟩
  | some amount => exact ⟨fun h => (by cases h), fun h => (by cases h)⟩

theorem mem_heldRows {d : GatewayDomainEvent} (h : d ∈ heldRows log) : d = .lightningHtlcHeld := by
  unfold heldRows at h
  split_ifs at h
  · exact List.mem_singleton.mp h
  · cases h

theorem mem_outcomeRows {d : GatewayDomainEvent} (h : d ∈ outcomeRows log) :
    d ≠ .lightningHtlcHeld := by
  unfold outcomeRows at h
  rintro rfl
  rcases List.mem_append.mp h with h | h <;> split_ifs at h <;> simp at h

theorem rowsFollowLog_of_announced {db : Db} {h : PaymentHash} (hseq : Sequenced db)
    (ha : Announced db h) : RowsFollowLog db h := by
  cases ha with
  | absent h₁ h₂ =>
      have hlog : invoiceLog db h = [] := by simp [invoiceLog, h₁]
      refine ⟨[], [], h₂, ?_, ?_, ?_, fun _ => rfl, fun row hrow => by cases hrow⟩ <;>
        simp [hlog, heldRows, outcomeRows]
  | @present r m s held h₁ h₂ h₃ h₄ =>
      have hlog : invoiceLog db h = r.events := by simp [invoiceLog, h₁]
      rw [filterMap_announce h₂] at h₃
      obtain ⟨parked, outcome, hrows, hp, ho⟩ := List.map_eq_append_iff.mp h₃
      have hpair := hseq.rowsAbout (d := false) (h := h)
      rw [show rowsAbout db false h = parked ++ outcome from hrows] at hpair
      have hparked : ∀ p ∈ parked, p.domainEvent = .lightningHtlcHeld := by
        intro p hmem
        have hrow : p.domainEvent ∈ heldRows r.events := hp ▸ List.mem_map_of_mem hmem
        exact mem_heldRows hrow
      have houtcome : ∀ row ∈ outcome,
          row.gatewayMetadata.get? "held_amount_msat" = some (optionalMsat held) := by
        intro row hmem
        have hrow : row.domainEvent ∈ outcomeRows r.events := ho ▸ List.mem_map_of_mem hmem
        exact (h₄ row (hrows ▸ List.mem_append_right _ hmem)).repeated (mem_outcomeRows hrow)
      have hnil : parked = [] ↔ held = none := by
        rw [← List.map_eq_nil_iff (f := OutboxEvent.domainEvent), hp, heldRows, h₂.any_isHtlcHeld]
        cases held <;> simp
      rw [RowsFollowLog, hlog]
      refine ⟨parked, outcome, hrows, hp, ho, not_settled_and_canceled h₂, ?_, ?_⟩
      · intro ht
        rw [outcomeRows_transferred h₂ ht, List.map_eq_nil_iff] at ho
        exact ho
      · intro row hrow
        refine ⟨fun p hpm => ⟨(List.pairwise_append.mp hpair).2.2 p hpm row hrow, ?_⟩, ?_⟩
        · obtain ⟨amount, rfl, hamount⟩ :=
            (h₄ p (hrows ▸ List.mem_append_left _ hpm)).own (hparked p hpm)
          rw [houtcome row hrow, hamount]
          rfl
        · rw [houtcome row hrow, optionalMsat_eq_null, hnil]

theorem announced_run {g : Deployment} (D : Discipline (gateway g))
    {es : List (Event (gateway g))} {s : Pool (gateway g)} (hrun : Runs D (boot g) es s) :
    Sequenced s.world.db ∧ ∀ h, Announced s.world.db h :=
  (ledger_invariant D (I := fun db _ => Sequenced db ∧ ∀ h, Announced db h)
    ⟨sequenced_empty, fun _ => .absent rfl rfl⟩
    (fun _ _ _ _ _ _ hb _ hI => ⟨hI.1.step hb, announced_step hb hI.2⟩)
    (fun _ _ hI => ⟨hI.1.draw, fun h => (hI.2 h).redraw⟩) hrun).2

/-- In every reachable state the incoming rows about a hash are those that the log
of its invoice calls for, and reservations balance. -/
theorem incoming_rows_follow_log (g : Deployment) (D : Discipline (gateway g))
    (es : List (Event (gateway g))) (s : Pool (gateway g)) (hrun : Runs D (boot g) es s)
    (h : PaymentHash) : RowsFollowLog s.world.db h := by
  obtain ⟨hseq, ha⟩ := announced_run D hrun
  exact rowsFollowLog_of_announced hseq (ha h)

/-- An invoice whose HTLC is accepted and then canceled. -/
def canceledRun : List (Event (gateway Sample.deployment)) :=
  Sample.issueInvoice 0 ++
    [.spawn (.handleInvoiceUpdate (Sample.invoiceUpdate .accepted 250000000)),
      .step 1 (.served Sample.noon), .step 1 (.clock Sample.noon), .step 1 (.clock Sample.noon),
      .step 1 (.served Sample.noon),
      .spawn (.handleInvoiceUpdate (Sample.invoiceUpdate .canceled 0)),
      .step 2 (.served Sample.noon), .step 2 (.clock Sample.noon), .step 2 (.clock Sample.noon),
      .step 2 (.clock Sample.noon), .step 2 (.served Sample.noon)]

theorem incoming_rows_follow_log_canceled :
    ∃ s, Runs {} (boot Sample.deployment) canceledRun s ∧ RowsFollowLog s.world.db Sample.hash ∧
      (incomingRows s.world.db Sample.hash).map OutboxEvent.domainEvent =
        [.lightningHtlcHeld, .lightningInvoiceCanceled] := by
  obtain ⟨s, hrun, hrows⟩ := exists_run_of_play {} (boot Sample.deployment)
    canceledRun (fun s => decide
      ((incomingRows s.world.db Sample.hash).map OutboxEvent.domainEvent =
        [.lightningHtlcHeld, .lightningInvoiceCanceled])) (by decide +kernel)
  exact ⟨s, hrun, incoming_rows_follow_log Sample.deployment {} canceledRun s hrun Sample.hash,
    of_decide_eq_true hrows⟩

end LightningGateway.InvoiceLedger
