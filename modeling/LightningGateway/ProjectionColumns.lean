import LightningGateway.GatewayInvariant

/-!
# The state column and the queries of the sweeps

The state of an aggregate is stored a second time, as a text in its row, and the
sweeps select rows by this text alone. In every database the gateway reaches, the
text is that of the state the row's log replays to, so each sweep selects the rows
it is meant for.
-/
namespace LightningGateway.ProjectionColumns
open Primitives EventTables TaskPools PaymentAggregate InvoiceAggregate OutboxRows
open GatewayStore StoreSpecs GatewayEffects PeerCalls GatewayMachine CallSites GatewayInvariant

/-! ### State and text -/

theorem paymentState_asStr_inj {s s' : PaymentState} : s.asStr = s'.asStr ↔ s = s' := by
  cases s <;> cases s' <;> simp [PaymentState.asStr]

theorem invoiceState_asStr_inj {s s' : InvoiceState} : s.asStr = s'.asStr ↔ s = s' := by
  cases s <;> cases s' <;> simp [InvoiceState.asStr]

/-- The state that the log of a payment row replays to. -/
def replayedPayment (r : PaymentRow) : Option PaymentState :=
  (Payments.hydrate r).toOption.map Payment.state

def replayedInvoice (r : InvoiceRow) : Option InvoiceState :=
  (Invoices.hydrate r).toOption.map Invoice.state

/-- Every state text is that of the state its log replays to. -/
structure ColumnsAgree (db : Db) : Prop where
  payments : ∀ h r, db.payments.lookup h = some r →
    (replayedPayment r).map PaymentState.asStr = some r.state
  invoices : ∀ h r, db.invoices.lookup h = some r →
    (replayedInvoice r).map InvoiceState.asStr = some r.state

theorem replayed_of_paymentLog {n : NewPayment} {r : PaymentRow} {s : PaymentState}
    (h : PaymentLogs.PaymentLog n r.events s) : replayedPayment r = some s := by
  obtain ⟨p, hp, -, -, hs, -⟩ := PaymentLogs.hydrate_log r.id h
  have hhydrate : Payments.hydrate r = .ok p := hp
  rw [replayedPayment, hhydrate, ← hs]
  rfl

theorem replayed_of_invoiceLog {n : NewInvoice} {r : InvoiceRow} {s : InvoiceState}
    {held : Option MilliSatoshi} (h : InvoiceLogs.InvoiceLog n r.events s held) :
    replayedInvoice r = some s := by
  obtain ⟨i, hi, -, -, hs, -⟩ := InvoiceLogs.hydrate_log r.id h
  have hhydrate : Invoices.hydrate r = .ok i := hi
  rw [replayedInvoice, hhydrate, ← hs]
  rfl

/-! ### Writes keep them together -/

section
variable {g : Deployment} {entry : Entry} {past : Calls} {db db' : Db} {k : PaymentHash}

theorem payments_agree_write {r : PaymentRow}
    (h : ∀ h r, db.payments.lookup h = some r →
      (replayedPayment r).map PaymentState.asStr = some r.state)
    (hw : WritesPayment db db' k r) (hr : (replayedPayment r).map PaymentState.asStr = some r.state) :
    ∀ h r, db'.payments.lookup h = some r →
      (replayedPayment r).map PaymentState.asStr = some r.state := by
  intro j x hx
  rw [hw j] at hx
  split_ifs at hx with hj
  · cases hx
    exact hr
  · exact h j x hx

theorem invoices_agree_write {r : InvoiceRow}
    (h : ∀ h r, db.invoices.lookup h = some r →
      (replayedInvoice r).map InvoiceState.asStr = some r.state)
    (hw : WritesInvoice db db' k r) (hr : (replayedInvoice r).map InvoiceState.asStr = some r.state) :
    ∀ h r, db'.invoices.lookup h = some r →
      (replayedInvoice r).map InvoiceState.asStr = some r.state := by
  intro j x hx
  rw [hw j] at hx
  split_ifs at hx with hj
  · cases hx
    exact hr
  · exact h j x hx

/-- The texts of the rows that a transaction has inserted. -/
def InsertedText (db' : Db) : Transaction → Prop
  | .intent n _ => ∀ r, db'.payments.lookup n.paymentHash = some r → r.state = "initiated"
  | .transfer n .. => ∀ r, db'.payments.lookup n.paymentHash = some r → r.state = "completed"
  | .createInvoice n => ∀ r, db'.invoices.lookup n.paymentHash = some r → r.state = "open"
  | _ => True

theorem run_insertedText {clock : Timestamp} {b : Transaction} {a : b.Result}
    (h : b.run clock db = .ok (a, db')) : InsertedText db' b := by
  cases b with
  | intent n e =>
      intro r hr
      obtain ⟨r', -, -, -, -, hst, hw, -⟩ := run_intent h
      cases hw.at.symm.trans hr
      exact hst
  | transfer n preimage t i e => exact fun r hr => run_transfer_text h hr
  | createInvoice n =>
      intro r hr
      obtain ⟨r', -, -, hst, hw, -⟩ := run_createInvoice h
      cases hw.at.symm.trans hr
      exact hst
  | pending p | payment p e | invoice i e => trivial

/-- One committed transaction. -/
theorem ledgerStep_agree {b : Transaction} (hs : LedgerStep g entry past db db' b)
    (hnew : InsertedText db' b) (h : ColumnsAgree db) : ColumnsAgree db' := by
  cases hs with
  | @intent n e r _ _ hev _ hw hi _ =>
      refine ⟨payments_agree_write h.payments hw ?_, hi ▸ h.invoices⟩
      have hlog : PaymentLogs.PaymentLog n r.events .initiated := by
        rw [hev]
        exact .initiated
      rw [replayed_of_paymentLog hlog, hnew r hw.at]
      rfl
  | pending _ _ hlog _ _ hw hi _ | completed _ _ _ hlog _ _ hw hi _
  | failed _ _ _ hlog _ _ hw hi _ =>
      refine ⟨payments_agree_write h.payments hw ?_, hi ▸ h.invoices⟩
      rw [replayed_of_paymentLog hlog]
      rfl
  | @transfer n m preimage t i e r ri _ _ hev _ hw _ hlog _ _ hwi _ =>
      refine ⟨payments_agree_write h.payments hw ?_, invoices_agree_write h.invoices hwi ?_⟩
      · have hsettled : PaymentLogs.PaymentLog n r.events .completed := by
          rw [hev]
          exact .completed _ _ _ _ (.inl rfl) .initiated
        rw [replayed_of_paymentLog hsettled, hnew r hw.at]
        rfl
      · rw [replayed_of_invoiceLog (.settledIntraledger t hlog)]
        rfl
  | @createInvoice n r _ _ hev hw hp _ =>
      refine ⟨hp ▸ h.payments, invoices_agree_write h.invoices hw ?_⟩
      have hlog : InvoiceLogs.InvoiceLog n r.events .opened none := by
        rw [hev]
        exact .created
      rw [replayed_of_invoiceLog hlog, hnew r hw.at]
      rfl
  | held _ _ hlog _ _ hw hp _ =>
      refine ⟨hp ▸ h.payments, invoices_agree_write h.invoices hw ?_⟩
      rw [replayed_of_invoiceLog (.htlcHeld _ _ hlog)]
      rfl
  | settled _ _ hlog _ _ hw hp _ =>
      refine ⟨hp ▸ h.payments, invoices_agree_write h.invoices hw ?_⟩
      rw [replayed_of_invoiceLog (.settled _ hlog)]
      rfl
  | canceled _ _ hlog hs _ _ hw hp _ =>
      refine ⟨hp ▸ h.payments, invoices_agree_write h.invoices hw ?_⟩
      rw [replayed_of_invoiceLog (.canceled _ _ hs hlog)]
      rfl

end

/-- One call of a task. -/
theorem exec_agree {g : Deployment} {entry : Entry} {past : Calls} {o : Op} {a : o.Ans} {c : Choice}
    {w w' : World} (hdb : DbOk g w.db) (hg : ∀ c ∈ past, Genuine g w.db c)
    (hj : Justified g entry past o) (hx : exec g.crates o c w = some (a, w'))
    (h : ColumnsAgree w.db) : ColumnsAgree w'.db := by
  by_cases ho : isTx o = true
  · cases o with
    | tx b =>
        obtain ⟨t, r, db', hr, rfl, -⟩ | ⟨rfl, -⟩ := exec_tx hx
        · have hstep := (ledger_step hdb hg hj hr).1
          exact ledgerStep_agree hstep (run_insertedText hr) h
        · exact h
    | _ => cases ho
  · rw [((exec_frame hx).1 (Bool.eq_false_iff.mpr ho)).1]
    exact h

section
variable {g : Deployment} {D : Discipline (gateway g)} {s : Pool (gateway g)}
variable {es : List (Event (gateway g))}

/-- The columns agree after every run. -/
theorem columns_agree (h : Runs D (boot g) es s) : ColumnsAgree s.world.db := by
  have hinit : ColumnsAgree Db.empty := by
    constructor
    · intro h r hr
      cases hr
    · intro h r hr
      cases hr
  refine (gateway_invariant D (I := fun w _ => ColumnsAgree w.db) hinit
    (fun _ _ _ _ _ hI => hI) ?_ ?_ h).2.2
  · intro w ps i entry past o c a w' hp hj _ hx hs hI
    exact exec_agree hs.db (hs.calls _ (List.mem_of_getElem? hp)) hj hx hI
  · intro w ps x w' _ hx _ hI
    obtain ⟨hp, hi, -⟩ := env_frame hx
    exact ⟨hp ▸ hI.payments, hi ▸ hI.invoices⟩

end

/-! ### What the sweeps select -/

section
variable {g : Deployment} {db : Db}

theorem payment_text (h : ColumnsAgree db) {r : PaymentRow} (hr : r ∈ db.payments.rows)
    (s : PaymentState) : r.state = s.asStr ↔ replayedPayment r = some s := by
  have hagree := h.payments r.key r (Table.lookup_of_mem hr)
  cases hs : replayedPayment r with
  | none =>
      rw [hs] at hagree
      cases hagree
  | some s' =>
      rw [hs] at hagree
      have hstate : r.state = s'.asStr := (Option.some.inj hagree).symm
      rw [hstate, paymentState_asStr_inj, Option.some_inj]

theorem invoice_text (h : ColumnsAgree db) {r : InvoiceRow} (hr : r ∈ db.invoices.rows)
    (s : InvoiceState) : r.state = s.asStr ↔ replayedInvoice r = some s := by
  have hagree := h.invoices r.key r (Table.lookup_of_mem hr)
  cases hs : replayedInvoice r with
  | none =>
      rw [hs] at hagree
      cases hagree
  | some s' =>
      rw [hs] at hagree
      have hstate : r.state = s'.asStr := (Option.some.inj hagree).symm
      rw [hstate, invoiceState_asStr_inj, Option.some_inj]

/-- The payments older than the cutoff whose log replays to `Initiated`. -/
def strandedPayments (db : Db) (cutoff : Timestamp) : List PaymentRow :=
  db.payments.rows.filter fun r =>
    replayedPayment r = some .initiated ∧ r.cols.createdAt.nanos < cutoff.nanos

/-- The invoices whose log replays to `Held`. -/
def heldInvoices (db : Db) : List InvoiceRow :=
  db.invoices.rows.filter fun r => replayedInvoice r = some .held

/-- The invoices whose log replays to `Open` or `Held`. -/
def openInvoices (db : Db) : List InvoiceRow :=
  db.invoices.rows.filter fun r =>
    replayedInvoice r = some .opened ∨ replayedInvoice r = some .held

theorem listStrandedInitiated_eq (h : ColumnsAgree db) (cutoff : Timestamp) {limit : ℤ}
    (hlimit : 0 ≤ limit) : Payments.listStrandedInitiated db cutoff limit =
      .ok (((strandedPayments db cutoff).take limit.toNat).map Row.key) := by
  have hfilter : (db.payments.rows.filter fun r =>
      r.state = "initiated" ∧ r.cols.createdAt.nanos < cutoff.nanos) =
        strandedPayments db cutoff := by
    refine List.filter_congr fun r hr => ?_
    have htext : r.state = "initiated" ↔ replayedPayment r = some .initiated :=
      payment_text h hr .initiated
    simp only [htext]
  rw [Payments.listStrandedInitiated, if_neg (by omega), hfilter]

theorem listHeld_eq (h : ColumnsAgree db) {limit : ℤ} (hlimit : 0 ≤ limit) :
    Invoices.listHeld db limit = .ok (((heldInvoices db).take limit.toNat).map Row.key) := by
  have hfilter : (db.invoices.rows.filter fun r => r.state = "held") = heldInvoices db := by
    refine List.filter_congr fun r hr => ?_
    have htext : r.state = "held" ↔ replayedInvoice r = some .held := invoice_text h hr .held
    simp only [htext]
  rw [Invoices.listHeld, if_neg (by omega), hfilter]

theorem listOpenInvoices_eq (h : ColumnsAgree db) (load : InvoiceId → Except FindError Invoice) :
    Invoices.listOpenInvoices db load =
      (openInvoices db).filterMap fun r => (load r.id).toOption := by
  have hfilter : (db.invoices.rows.filter fun r => r.state = "open" ∨ r.state = "held") =
      openInvoices db := by
    refine List.filter_congr fun r hr => ?_
    have hopen : r.state = "open" ↔ replayedInvoice r = some .opened := invoice_text h hr .opened
    have hheld : r.state = "held" ↔ replayedInvoice r = some .held := invoice_text h hr .held
    simp only [hopen, hheld]
  rw [Invoices.listOpenInvoices, hfilter, List.filterMap_map]
  rfl

/-- A read by identifier hydrates the row. -/
theorem findById_of_mem {r : InvoiceRow} (hr : r ∈ db.invoices.rows) :
    Invoices.findById db r.id = Invoices.hydrate r := by
  rw [Invoices.findById, Table.find_id_of_mem hr rfl]

theorem hydrate_invoice (hdb : DbOk g db) {r : InvoiceRow} (hr : r ∈ db.invoices.rows) :
    ∃ i, Invoices.hydrate r = .ok i ∧ i.id = r.id := by
  obtain ⟨n, s, held, hlog, -⟩ := hdb.invoices r.key r (Table.lookup_of_mem hr)
  obtain ⟨i, hi, -, hid, -⟩ := InvoiceLogs.hydrate_log r.id hlog
  exact ⟨i, hi, hid⟩

theorem hydrate_payment (hdb : DbOk g db) {r : PaymentRow} (hr : r ∈ db.payments.rows) :
    ∃ p, Payments.hydrate r = .ok p := by
  obtain ⟨n, s, hlog, -⟩ := hdb.payments r.key r (Table.lookup_of_mem hr)
  obtain ⟨p, hp, -⟩ := PaymentLogs.hydrate_log r.id hlog
  exact ⟨p, hp⟩

/-- A row that is loaded later is still found, under the same identifier. -/
theorem findById_grows {db' : Db} (hdb' : DbOk g db') (hgrow : Grows db db') {r : InvoiceRow}
    (hr : r ∈ db.invoices.rows) : ∃ i, Invoices.findById db' r.id = .ok i ∧ i.id = r.id := by
  obtain ⟨r', hl, hid, -, -⟩ := hgrow.2 r.key r (Table.lookup_of_mem hr)
  obtain ⟨i, hi, hiid⟩ := hydrate_invoice hdb' (Table.lookup_mem hl)
  refine ⟨i, ?_, hiid.trans hid⟩
  rw [← hid, findById_of_mem (Table.lookup_mem hl), hi]

/-- Loads that all succeed keep the list of identifiers. -/
theorem loaded_ids (load : InvoiceId → Except FindError Invoice) {rows : List InvoiceRow}
    (h : ∀ r ∈ rows, ∃ i, load r.id = .ok i ∧ i.id = r.id) :
    (rows.filterMap fun r => (load r.id).toOption).map Invoice.id = rows.map Row.id := by
  induction rows with
  | nil => rfl
  | cons r rows ih =>
      obtain ⟨i, hi, hid⟩ := h r List.mem_cons_self
      have hrest := ih fun r' hr' => h r' (List.mem_cons_of_mem r hr')
      rw [List.filterMap_cons, hi, List.map_cons, ← hrest, ← hid]
      rfl

theorem mem_listOpenInvoices (hdb : DbOk g db) (h : ColumnsAgree db) (i : Invoice) :
    i ∈ Invoices.listOpenInvoices db (Invoices.findById db) ↔
      ∃ r ∈ db.invoices.rows, Invoices.hydrate r = .ok i ∧
        (i.state = .opened ∨ i.state = .held) := by
  rw [listOpenInvoices_eq h, List.mem_filterMap]
  constructor
  · rintro ⟨r, hr, hi⟩
    obtain ⟨hmem, hstate⟩ := List.mem_filter.mp hr
    obtain ⟨j, hj, -⟩ := hydrate_invoice hdb hmem
    rw [findById_of_mem hmem, hj] at hi
    cases hi
    have hreplay : replayedInvoice r = some i.state := by
      rw [replayedInvoice, hj]
      rfl
    refine ⟨r, hmem, hj, ?_⟩
    simpa [hreplay] using hstate
  · rintro ⟨r, hmem, hi, hstate⟩
    have hreplay : replayedInvoice r = some i.state := by
      rw [replayedInvoice, hi]
      rfl
    refine ⟨r, List.mem_filter.mpr ⟨hmem, ?_⟩, ?_⟩
    · simpa [hreplay] using hstate
    · rw [findById_of_mem hmem, hi]
      rfl

end

section
variable {g : Deployment} {D : Discipline (gateway g)} {s : Pool (gateway g)}
variable {es : List (Event (gateway g))}

/-- In every database the gateway reaches, each state text is that of the replayed
log. The orphan sweep is given the payments that replay to `Initiated` and are older
than the cutoff, up to its limit; the reconciliation sweep those invoices that replay
to `Held`; the recovery sweep those that replay to `Open` or `Held`, and it loads all
of them, however far the gateway moves on between the loads. -/
theorem sweeps_follow_logs (h : Runs D (boot g) es s) :
    (∀ r ∈ s.world.db.payments.rows,
      ∃ p, Payments.hydrate r = .ok p ∧ r.state = p.state.asStr) ∧
    (∀ r ∈ s.world.db.invoices.rows,
      ∃ i, Invoices.hydrate r = .ok i ∧ r.state = i.state.asStr) ∧
    (∀ cutoff limit, 0 ≤ limit → Payments.listStrandedInitiated s.world.db cutoff limit =
      .ok (((strandedPayments s.world.db cutoff).take limit.toNat).map Row.key)) ∧
    (∀ limit, 0 ≤ limit → Invoices.listHeld s.world.db limit =
      .ok (((heldInvoices s.world.db).take limit.toNat).map Row.key)) ∧
    (∀ i, i ∈ Invoices.listOpenInvoices s.world.db (Invoices.findById s.world.db) ↔
      ∃ r ∈ s.world.db.invoices.rows, Invoices.hydrate r = .ok i ∧
        (i.state = .opened ∨ i.state = .held)) ∧
    (∀ later : InvoiceId → Pool (gateway g), (∀ id, ∃ es', Runs D s es' (later id)) →
      (Invoices.listOpenInvoices s.world.db
        fun id => Invoices.findById (later id).world.db id).map Invoice.id =
          (openInvoices s.world.db).map Row.id) := by
  have hdb := dbOk_run h
  have hagree := columns_agree h
  refine ⟨?_, ?_, fun cutoff limit hl => listStrandedInitiated_eq hagree cutoff hl,
    fun limit hl => listHeld_eq hagree hl, mem_listOpenInvoices hdb hagree, ?_⟩
  · intro r hr
    obtain ⟨p, hp⟩ := hydrate_payment hdb hr
    refine ⟨p, hp, (payment_text hagree hr p.state).mpr ?_⟩
    rw [replayedPayment, hp]
    rfl
  · intro r hr
    obtain ⟨i, hi, -⟩ := hydrate_invoice hdb hr
    refine ⟨i, hi, (invoice_text hagree hr i.state).mpr ?_⟩
    rw [replayedInvoice, hi]
    rfl
  · intro later hlater
    rw [listOpenInvoices_eq hagree]
    apply loaded_ids fun id => Invoices.findById (later id).world.db id
    intro r hr
    obtain ⟨es', hrun⟩ := hlater r.id
    exact findById_grows (dbOk_run (h.append hrun)) (grows_run h hrun) (List.mem_filter.mp hr).1

end

/-- A payment whose task stops at the intent is what the orphan sweep is given. -/
theorem sweeps_follow_logs_sample :
    ∃ s, Runs {} (boot Sample.deployment) ((Sample.sendUpToMessage 0).take 8) s ∧
      Payments.listStrandedInitiated s.world.db ⟨Sample.noon.nanos + 1⟩ 10 =
        .ok [Sample.hash] := by
  obtain ⟨s, hrun, hc⟩ := exists_run_of_play {} (boot Sample.deployment)
    ((Sample.sendUpToMessage 0).take 8)
    (fun s => decide (((strandedPayments s.world.db ⟨Sample.noon.nanos + 1⟩).take 10).map Row.key =
      [Sample.hash])) (by decide +kernel)
  refine ⟨s, hrun, ?_⟩
  have hlist := (sweeps_follow_logs hrun).2.2.1 ⟨Sample.noon.nanos + 1⟩ 10 (by decide)
  have hkeys : ((strandedPayments s.world.db ⟨Sample.noon.nanos + 1⟩).take (10 : ℤ).toNat).map
      Row.key = [Sample.hash] := of_decide_eq_true hc
  rw [hlist, hkeys]

end LightningGateway.ProjectionColumns
