import LightningGateway.GatewayStore
import LightningGateway.PaymentLogs
import LightningGateway.InvoiceLogs

/-!
# What a committed transaction has done

One specification for each transaction, in terms of the rows found and written.
Reading a table by payment hash is the only view that later proofs use.
-/
namespace LightningGateway.StoreSpecs
open Primitives EventTables PaymentAggregate InvoiceAggregate OutboxRows GatewayStore

variable {db db' : Db} {clock : Timestamp}

/-- The payment row with key `h` becomes `r`; every other row is as before. -/
def WritesPayment (db db' : Db) (h : PaymentHash) (r : PaymentRow) : Prop :=
  ∀ k, db'.payments.lookup k = if k = h then some r else db.payments.lookup k

def WritesInvoice (db db' : Db) (h : PaymentHash) (r : InvoiceRow) : Prop :=
  ∀ k, db'.invoices.lookup k = if k = h then some r else db.invoices.lookup k

/-- Exactly one row enters the outbox. -/
def Publishes (db db' : Db) (e : NewOutboxEvent) : Prop :=
  db'.outbox = db.outbox ++ [e.row db.nextSequence] ∧ db'.nextSequence = db.nextSequence + 1

def Silent (db db' : Db) : Prop :=
  db'.outbox = db.outbox ∧ db'.nextSequence = db.nextSequence

theorem WritesPayment.at {h : PaymentHash} {r : PaymentRow} (hw : WritesPayment db db' h r) :
    db'.payments.lookup h = some r := by
  rw [hw h, if_pos rfl]

theorem WritesPayment.other {h k : PaymentHash} {r : PaymentRow} (hw : WritesPayment db db' h r)
    (hk : k ≠ h) : db'.payments.lookup k = db.payments.lookup k := by
  rw [hw k, if_neg hk]

theorem WritesInvoice.at {h : PaymentHash} {r : InvoiceRow} (hw : WritesInvoice db db' h r) :
    db'.invoices.lookup h = some r := by
  rw [hw h, if_pos rfl]

theorem WritesInvoice.other {h k : PaymentHash} {r : InvoiceRow} (hw : WritesInvoice db db' h r)
    (hk : k ≠ h) : db'.invoices.lookup k = db.invoices.lookup k := by
  rw [hw k, if_neg hk]

/-! ### Repository calls -/

theorem payments_createInOp {n : NewPayment} {p : Payment}
    (h : Payments.createInOp n clock db = .ok (p, db')) :
    ∃ r t, db.payments.insert r = .ok t ∧ r.key = n.paymentHash ∧ r.id = n.id ∧
      r.cols.walletId = n.walletId ∧ r.events = [n.initiatedEvent] ∧ r.state = "initiated" ∧
      db' = { db with payments := t } ∧
      Payment.tryFromEvents n.intoEvents.markPersisted = .ok p := by
  unfold Payments.createInOp at h
  split at h
  case h_2 => cases h
  case h_1 amount fee ha hf =>
    split at h
    case h_2 => cases h
    case h_3 => cases h
    case h_1 t ht =>
      split at h
      case h_2 => cases h
      case h_1 q hq =>
        cases h
        exact ⟨_, t, ht, rfl, rfl, rfl, rfl, rfl, rfl, hq⟩

/-- An insert reports a payment that exists already exactly when the table has its
hash; the identifier is looked at first. -/
theorem payments_createInOp_exists {n : NewPayment} {x : String} :
    Payments.createInOp n clock db = .error (.payment (.alreadyPaid x)) ↔
      (tryI64 n.amountMsat.msat).isSome ∧ (tryI64 n.maxFeeMsat.msat).isSome ∧
        (∀ r ∈ db.payments.rows, r.id ≠ n.id) ∧
        (∃ r, db.payments.lookup n.paymentHash = some r) ∧ x = byteaText n.paymentHash := by
  unfold Payments.createInOp
  cases ha : tryI64 n.amountMsat.msat with
  | none => simp [PaymentError.ofCreate]
  | some amount =>
      cases hf : tryI64 n.maxFeeMsat.msat with
      | none => simp [PaymentError.ofCreate]
      | some fee =>
          have hkey := Table.insert_key_iff (t := db.payments) (r := ⟨n.id, n.paymentHash,
            ⟨n.walletId, amount, fee, clock⟩, n.stateStr, n.intoEvents.iterAll⟩)
          dsimp only at hkey ⊢
          split
          case h_1 t ht =>
            rw [ht] at hkey
            split <;> simp_all
          case h_2 hid =>
            rw [hid] at hkey
            simp_all [PaymentError.ofCreate]
          case h_3 hk =>
            obtain ⟨hids, hrow⟩ := hkey.mp hk
            simp only [PaymentError.ofCreate, Option.getD_some, Except.error.injEq,
              AppError.payment.injEq, PaymentError.alreadyPaid.injEq, Option.isSome_some, true_and]
            exact ⟨fun h => ⟨hids, hrow, h.symm⟩, fun h => h.2.2.symm⟩

theorem payments_updateInOp {p q : Payment} (hf : p.events.fresh ≠ [])
    (h : Payments.updateInOp p db = .ok (q, db')) :
    ∃ t, db.payments.append p.id p.events.persisted.length p.stateStr p.events.fresh = .ok t ∧
      db' = { db with payments := t } ∧ q = { p with events := p.events.markPersisted } := by
  unfold Payments.updateInOp at h
  rw [if_neg hf] at h
  split at h
  case h_1 t ht =>
    cases h
    exact ⟨t, ht, rfl, rfl⟩
  case h_2 => cases h
  case h_3 => cases h

/-- An update whose row is there fails only when the row has moved on. -/
theorem payments_updateInOp_error {p : Payment} {h : PaymentHash} {r : PaymentRow} {e : AppError}
    (hl : db.payments.lookup h = some r) (hid : r.id = p.id)
    (he : Payments.updateInOp p db = .error e) :
    r.events.length ≠ p.events.persisted.length ∧
      e = .payment (.modify .concurrentModification) := by
  unfold Payments.updateInOp at he
  split_ifs at he with hf
  obtain happ | ⟨hne, happ⟩ := Table.append_found p.stateStr p.events.fresh hl hid
    p.events.persisted.length
  · obtain ⟨t, happ⟩ := happ
    rw [happ] at he
    cases he
  · rw [happ] at he
    cases he
    exact ⟨hne, rfl⟩

/-- Whatever an update writes, the aggregate it hands back is in the same state. -/
theorem payments_updateInOp_state {p q : Payment}
    (h : Payments.updateInOp p db = .ok (q, db')) : q.state = p.state := by
  unfold Payments.updateInOp at h
  split_ifs at h
  · cases h
    rfl
  · split at h
    case h_1 =>
      cases h
      rfl
    case h_2 => cases h
    case h_3 => cases h

theorem invoices_createInOp {n : NewInvoice} {i : Invoice}
    (h : Invoices.createInOp n clock db = .ok (i, db')) :
    ∃ r t, db.invoices.insert r = .ok t ∧ r.key = n.paymentHash ∧ r.events = [n.createdEvent] ∧
      r.state = "open" ∧ db' = { db with invoices := t } := by
  unfold Invoices.createInOp at h
  split at h
  case h_1 => cases h
  case h_2 amount ha =>
    split at h
    case h_2 => cases h
    case h_3 => cases h
    case h_1 t ht =>
      split at h
      case isTrue => cases h
      case isFalse =>
        split at h
        case h_2 => cases h
        case h_1 =>
          cases h
          exact ⟨_, t, ht, rfl, rfl, rfl, rfl⟩

theorem invoices_updateInOp {i j : Invoice} (hf : i.events.fresh ≠ [])
    (h : Invoices.updateInOp i db = .ok (j, db')) :
    ∃ t, db.invoices.append i.id i.events.persisted.length i.stateStr i.events.fresh = .ok t ∧
      db' = { db with invoices := t } := by
  unfold Invoices.updateInOp at h
  rw [if_neg hf] at h
  split at h
  case h_1 t ht =>
    cases h
    exact ⟨t, ht, rfl⟩
  case h_2 => cases h
  case h_3 => cases h

/-- An invoice update touches no payment. -/
theorem invoices_updateInOp_payments {i j : Invoice}
    (h : Invoices.updateInOp i db = .ok (j, db')) : db'.payments = db.payments := by
  by_cases hf : i.events.fresh = []
  · unfold Invoices.updateInOp at h
    rw [if_pos hf] at h
    cases h
    rfl
  · obtain ⟨t, -, rfl⟩ := invoices_updateInOp hf h
    rfl

theorem publishInTx_ok {e : NewOutboxEvent} {v : ℤ} (h : publishInTx e db = .ok (v, db')) :
    db' = { db with
      outbox := db.outbox ++ [e.row db.nextSequence]
      nextSequence := db.nextSequence + 1 } := by
  cases h
  rfl

/-- What is written first and published second has happened in that order. -/
theorem published_after {α : Type} {x : Tx α} {e : NewOutboxEvent} {a : α}
    (h : (do
      let written ← x
      let _ ← publishInTx e
      pure written : Tx α) db = .ok (a, db')) :
    ∃ db₁, x db = .ok (a, db₁) ∧ db' = { db₁ with
      outbox := db₁.outbox ++ [e.row db₁.nextSequence]
      nextSequence := db₁.nextSequence + 1 } := by
  obtain ⟨b, db₁, hx, h⟩ := tx_bind.mp h
  obtain ⟨v, db₂, hpublish, h⟩ := tx_bind.mp h
  obtain ⟨rfl, rfl⟩ := tx_pure.mp h
  exact ⟨db₁, hx, publishInTx_ok hpublish⟩

/-! ### Transactions -/

theorem run_intent {n : NewPayment} {e : NewOutboxEvent} {p : Payment}
    (h : (Transaction.intent n e).run clock db = .ok (p, db')) :
    ∃ r, db.payments.lookup n.paymentHash = none ∧ r.id = n.id ∧ r.cols.walletId = n.walletId ∧
      r.events = [n.initiatedEvent] ∧ r.state = "initiated" ∧
      WritesPayment db db' n.paymentHash r ∧
      db.payments.Extends db'.payments ∧ db'.invoices = db.invoices ∧ Publishes db db' e ∧
      Payment.tryFromEvents n.intoEvents.markPersisted = .ok p := by
  obtain ⟨db₁, h₁, rfl⟩ := published_after h
  obtain ⟨r, t, hins, hkey, hid, hw, hev, hst, rfl, hp⟩ := payments_createInOp h₁
  obtain ⟨hnone, -, hl⟩ := Table.insert_spec hins
  rw [hkey] at hnone hl
  exact ⟨r, hnone, hid, hw, hev, hst, hl, Table.insert_extends hins, rfl, ⟨rfl, rfl⟩, hp⟩

theorem run_intent_exists {n : NewPayment} {e : NewOutboxEvent} {x : String} :
    (Transaction.intent n e).run clock db = .error (.payment (.alreadyPaid x)) ↔
      (tryI64 n.amountMsat.msat).isSome ∧ (tryI64 n.maxFeeMsat.msat).isSome ∧
        (∀ r ∈ db.payments.rows, r.id ≠ n.id) ∧
        (∃ r, db.payments.lookup n.paymentHash = some r) ∧ x = byteaText n.paymentHash := by
  constructor
  · intro h
    rcases tx_bind_error.mp h with h | ⟨p, db₁, -, h⟩
    · exact payments_createInOp_exists.mp h
    · rcases tx_bind_error.mp h with h | ⟨v, db₂, -, h⟩ <;> cases h
  · exact fun h => tx_bind_error.mpr (.inl (payments_createInOp_exists.mpr h))

theorem run_pending {p q : Payment} {h : PaymentHash} (hf : p.events.fresh ≠ [])
    (hs : db.payments.Snapshot h p.id p.events.persisted)
    (hr : (Transaction.pending p).run clock db = .ok (q, db')) :
    ∃ r, db.payments.lookup h = some r ∧ r.id = p.id ∧ r.events = p.events.persisted ∧
      WritesPayment db db' h (r.grow p.stateStr p.events.fresh) ∧
      db.payments.Extends db'.payments ∧ db'.invoices = db.invoices ∧ Silent db db' ∧
      q = { p with events := p.events.markPersisted } := by
  obtain ⟨t, ha, rfl, hq⟩ := payments_updateInOp hf hr
  obtain ⟨r, hl, hid, hev, hw⟩ := Table.append_snapshot ha hs
  exact ⟨r, hl, hid, hev, hw, Table.append_extends ha, rfl, ⟨rfl, rfl⟩, hq⟩

theorem run_payment {p q : Payment} {e : NewOutboxEvent} {h : PaymentHash}
    (hf : p.events.fresh ≠ []) (hs : db.payments.Snapshot h p.id p.events.persisted)
    (hr : (Transaction.payment p e).run clock db = .ok (q, db')) :
    ∃ r, db.payments.lookup h = some r ∧ r.id = p.id ∧ r.events = p.events.persisted ∧
      WritesPayment db db' h (r.grow p.stateStr p.events.fresh) ∧
      db.payments.Extends db'.payments ∧ db'.invoices = db.invoices ∧ Publishes db db' e ∧
      q = { p with events := p.events.markPersisted } := by
  obtain ⟨db₁, h₁, rfl⟩ := published_after hr
  obtain ⟨t, ha, rfl, hq⟩ := payments_updateInOp hf h₁
  obtain ⟨r, hl, hid, hev, hw⟩ := Table.append_snapshot ha hs
  exact ⟨r, hl, hid, hev, hw, Table.append_extends ha, rfl, ⟨rfl, rfl⟩, hq⟩

/-- The conclusion of a payment that was loaded as its row is now. -/
theorem run_payment_loaded {p q : Payment} {e : NewOutboxEvent} {h : PaymentHash} {r : PaymentRow}
    {new : PaymentEvent} (hl : db.payments.lookup h = some r) (hid : r.id = p.id)
    (hev : p.events = EntityEvents.push ⟨r.id, r.events, []⟩ new)
    (hr : (Transaction.payment p e).run clock db = .ok (q, db')) :
    WritesPayment db db' h (r.grow p.stateStr [new]) ∧ db'.invoices = db.invoices ∧
      Publishes db db' e := by
  have hpersisted : p.events.persisted = r.events := by rw [hev]; rfl
  have hfresh : p.events.fresh = [new] := by rw [hev]; rfl
  have hsnap : db.payments.Snapshot h p.id p.events.persisted :=
    ⟨r, hl, hid, hpersisted ▸ List.prefix_refl _⟩
  obtain ⟨r', hl', -, -, hw, -, hi, hpub, -⟩ :=
    run_payment (by rw [hfresh]; exact List.cons_ne_nil _ _) hsnap hr
  cases hl.symm.trans hl'
  rw [hfresh] at hw
  exact ⟨hw, hi, hpub⟩

/-- A conclusion goes through when the row is as it was loaded. -/
theorem run_payment_ok {p : Payment} {e : NewOutboxEvent} {h : PaymentHash} {r : PaymentRow}
    (hl : db.payments.lookup h = some r) (hid : r.id = p.id)
    (hev : r.events = p.events.persisted) :
    ∃ q db', (Transaction.payment p e).run clock db = .ok (q, db') := by
  cases hu : Payments.updateInOp p db with
  | error err => exact absurd (by rw [hev]) (payments_updateInOp_error hl hid hu).1
  | ok x => exact ⟨_, _, tx_bind.mpr ⟨x.1, x.2, hu, tx_bind.mpr ⟨_, _, rfl, tx_pure.mpr ⟨rfl, rfl⟩⟩⟩⟩

theorem run_payment_state {p q : Payment} {e : NewOutboxEvent}
    (hr : (Transaction.payment p e).run clock db = .ok (q, db')) : q.state = p.state := by
  obtain ⟨db₁, h₁, -⟩ := published_after hr
  exact payments_updateInOp_state h₁

/-- A conclusion keeps the order of the payments. -/
theorem run_payment_order {p q : Payment} {e : NewOutboxEvent} (hf : p.events.fresh ≠ [])
    (hr : (Transaction.payment p e).run clock db = .ok (q, db')) :
    db'.payments.rows.map Row.key = db.payments.rows.map Row.key := by
  obtain ⟨db₁, h₁, rfl⟩ := published_after hr
  obtain ⟨t, ha, rfl, -⟩ := payments_updateInOp hf h₁
  exact Table.append_order ha

theorem run_createInvoice {n : NewInvoice} {i : Invoice}
    (h : (Transaction.createInvoice n).run clock db = .ok (i, db')) :
    ∃ r, db.invoices.lookup n.paymentHash = none ∧ r.events = [n.createdEvent] ∧
      r.state = "open" ∧ WritesInvoice db db' n.paymentHash r ∧
      db.invoices.Extends db'.invoices ∧ db'.payments = db.payments ∧ Silent db db' := by
  obtain ⟨r, t, hins, hkey, hev, hst, rfl⟩ := invoices_createInOp h
  obtain ⟨hnone, -, hl⟩ := Table.insert_spec hins
  rw [hkey] at hnone hl
  exact ⟨r, hnone, hev, hst, hl, Table.insert_extends hins, rfl, rfl, rfl⟩

theorem run_invoice {i j : Invoice} {e : NewOutboxEvent} {h : PaymentHash}
    (hf : i.events.fresh ≠ []) (hs : db.invoices.Snapshot h i.id i.events.persisted)
    (hr : (Transaction.invoice i e).run clock db = .ok (j, db')) :
    ∃ r, db.invoices.lookup h = some r ∧ r.events = i.events.persisted ∧
      WritesInvoice db db' h (r.grow i.stateStr i.events.fresh) ∧
      db.invoices.Extends db'.invoices ∧ db'.payments = db.payments ∧ Publishes db db' e := by
  obtain ⟨db₁, h₁, rfl⟩ := published_after hr
  obtain ⟨t, ha, rfl⟩ := invoices_updateInOp hf h₁
  obtain ⟨r, hl, -, hev, hw⟩ := Table.append_snapshot ha hs
  exact ⟨r, hl, hev, hw, Table.append_extends ha, rfl, rfl, rfl⟩

/-- A transition of an invoice keeps the order of the invoices. -/
theorem run_invoice_order {i j : Invoice} {e : NewOutboxEvent} (hf : i.events.fresh ≠ [])
    (hr : (Transaction.invoice i e).run clock db = .ok (j, db')) :
    db'.invoices.rows.map Row.key = db.invoices.rows.map Row.key := by
  obtain ⟨db₁, h₁, rfl⟩ := published_after hr
  obtain ⟨t, ha, rfl⟩ := invoices_updateInOp hf h₁
  exact Table.append_order ha

/-- A transition goes through when the row is as it was loaded. -/
theorem run_invoice_ok {i : Invoice} {e : NewOutboxEvent} {h : PaymentHash} {r : InvoiceRow}
    (hf : i.events.fresh ≠ []) (hl : db.invoices.lookup h = some r) (hid : r.id = i.id)
    (hev : r.events = i.events.persisted) :
    ∃ j db', (Transaction.invoice i e).run clock db = .ok (j, db') := by
  obtain ⟨t, happ⟩ := Table.append_ok (n := i.events.persisted.length) i.stateStr i.events.fresh hl
    hid (by rw [hev])
  have hupdate : Invoices.updateInOp i db =
      .ok ({ i with events := i.events.markPersisted }, { db with invoices := t }) := by
    simp only [Invoices.updateInOp, hf, if_false, happ]
  exact ⟨_, _, tx_bind.mpr ⟨_, _, hupdate, tx_bind.mpr ⟨_, _, rfl, tx_pure.mpr ⟨rfl, rfl⟩⟩⟩⟩

/-- The sender's half of a transfer: a payment that is created and settled at once. -/
theorem payments_createSettled {n : NewPayment} {preimage : Preimage} {now : Timestamp}
    {c : Idempotent} {p₁ p₂ p₃ : Payment} {db₁ db₃ : Db}
    (hcreate : Payments.createInOp n clock db = .ok (p₁, db₁))
    (hsettle : p₁.settle preimage .zero [] now = .ok (c, p₂))
    (hupdate : Payments.updateInOp p₂ db₁ = .ok (p₃, db₃)) :
    ∃ r t, db.payments.lookup n.paymentHash = none ∧ r.id = n.id ∧
      r.cols.walletId = n.walletId ∧
      r.events = [n.initiatedEvent, .completed now preimage .zero []] ∧ r.state = "completed" ∧
      WritesPayment db db₃ n.paymentHash r ∧ db.payments.Extends t ∧
      db₃ = { db with payments := t } := by
  obtain ⟨r, t, hins, hkey, hid, hw, hev, -, rfl, hp⟩ := payments_createInOp hcreate
  -- The created payment is initiated, so settling it takes effect.
  obtain ⟨p₀, hp₀, hpe, hpid, hps, hpt⟩ := PaymentLogs.created_tracks n
  cases hp.symm.trans hp₀
  obtain ⟨p', hp'⟩ := PaymentLogs.settle_live preimage .zero [] now hpt (.inl hps)
  cases hsettle.symm.trans hp'
  obtain ⟨-, hst, hid₂, hev₂, -⟩ := PaymentLogs.settle_executed hpt hp'
  obtain ⟨t₂, happ, rfl, -⟩ := payments_updateInOp (by simp [hev₂]) hupdate
  obtain ⟨hnone, -, hl⟩ := Table.insert_spec hins
  have hfound : t.lookup n.paymentHash = some r := by rw [hl, if_pos hkey.symm]
  have hsnap : t.Snapshot n.paymentHash p₂.id p₂.events.persisted := by
    refine ⟨r, hfound, ?_, ?_⟩
    · rw [hid₂, hpid, hid]
    · rw [hev₂, hpe, hev]
      exact List.prefix_refl _
  obtain ⟨r', hr', -, -, hw'⟩ := Table.append_snapshot happ hsnap
  cases hfound.symm.trans hr'
  rw [hkey] at hnone hl
  have hevents : r.events ++ p₂.events.fresh =
      [n.initiatedEvent, .completed now preimage .zero []] := by
    rw [hev, hev₂, hpe]
    rfl
  have hwrites : WritesPayment db { db with payments := t₂ } n.paymentHash
      (r.grow p₂.stateStr p₂.events.fresh) := by
    intro k
    change t₂.lookup k = _
    rw [hw' k]
    by_cases hk : k = n.paymentHash
    · rw [if_pos hk, if_pos hk]
    · rw [if_neg hk, if_neg hk, hl, if_neg hk]
  have hstate : (r.grow p₂.stateStr p₂.events.fresh).state = "completed" := by
    change p₂.state.asStr = _
    rw [hst]
    rfl
  exact ⟨r.grow p₂.stateStr p₂.events.fresh, t₂, hnone, hid, hw, hevents, hstate, hwrites,
    (Table.insert_extends hins).trans (Table.append_extends happ), rfl⟩

/-- The steps of a transfer, in order. -/
theorem run_transfer_steps {n : NewPayment} {preimage : Preimage} {now : Timestamp} {i : Invoice}
    {e : NewOutboxEvent} {q : Payment}
    (hr : (Transaction.transfer n preimage now i e).run clock db = .ok (q, db')) :
    ∃ p₁ db₁ c₁ p₂ db₃ c₂ i₂ i₃ db₅, Payments.createInOp n clock db = .ok (p₁, db₁) ∧
      p₁.settle preimage .zero [] now = .ok (c₁, p₂) ∧
      Payments.updateInOp p₂ db₁ = .ok (q, db₃) ∧ i.settleIntraledger now = .ok (c₂, i₂) ∧
      Invoices.updateInOp i₂ db₃ = .ok (i₃, db₅) ∧ db' = { db₅ with
        outbox := db₅.outbox ++ [e.row db₅.nextSequence]
        nextSequence := db₅.nextSequence + 1 } := by
  obtain ⟨p₁, db₁, hcreate, hr⟩ := tx_bind.mp hr
  obtain ⟨⟨c₁, p₂⟩, db₂, h₂, hr⟩ := tx_bind.mp hr
  obtain ⟨p₃, db₃, hupdate, hr⟩ := tx_bind.mp hr
  obtain ⟨⟨c₂, i₂⟩, db₄, h₄, hr⟩ := tx_bind.mp hr
  obtain ⟨i₃, db₅, hinvoice, hr⟩ := tx_bind.mp hr
  obtain ⟨v, db₆, hpublish, hr⟩ := tx_bind.mp hr
  obtain ⟨rfl, rfl⟩ := tx_pure.mp hr
  obtain ⟨hsettle, rfl⟩ := tx_ofExcept.mp h₂
  obtain ⟨hintra, rfl⟩ := tx_ofExcept.mp h₄
  exact ⟨p₁, _, c₁, p₂, _, c₂, i₂, i₃, db₅, hcreate, hsettle, hupdate, hintra, hinvoice,
    publishInTx_ok hpublish⟩

/-- A transfer creates a completed payment and settles the recipient's invoice,
which was open. -/
theorem run_transfer {n : NewPayment} {m : NewInvoice} {preimage : Preimage} {now : Timestamp}
    {i : Invoice} {e : NewOutboxEvent} {q : Payment} {h : PaymentHash}
    (ht : InvoiceLogs.Tracks m i) (hi : i.events.fresh = []) (ho : i.state = .opened)
    (hs : db.invoices.Snapshot h i.id i.events.persisted)
    (hr : (Transaction.transfer n preimage now i e).run clock db = .ok (q, db')) :
    ∃ r ri, db.payments.lookup n.paymentHash = none ∧ r.id = n.id ∧
      r.cols.walletId = n.walletId ∧
      r.events = [n.initiatedEvent, .completed now preimage .zero []] ∧
      WritesPayment db db' n.paymentHash r ∧ db.payments.Extends db'.payments ∧
      db.invoices.lookup h = some ri ∧ ri.events = i.events.persisted ∧
      WritesInvoice db db' h (ri.grow "settled" [.settledIntraledger now]) ∧
      db.invoices.Extends db'.invoices ∧ Publishes db db' e := by
  obtain ⟨p₁, db₁, c₁, p₂, db₃, c₂, i₂, i₃, db₅, h₁, hsettle, h₃, hintra, h₅, rfl⟩ :=
    run_transfer_steps hr
  obtain ⟨r, t, hnone, hid, hw, hev, -, hwrites, hext, rfl⟩ :=
    payments_createSettled h₁ hsettle h₃
  obtain ⟨hst₂, hiid, -, hiev, -⟩ := InvoiceLogs.settleIntraledger_ok ht ho hintra
  obtain ⟨u, hu, rfl⟩ := invoices_updateInOp (by simp [hiev]) h₅
  have hsnap : db.invoices.Snapshot h i₂.id i₂.events.persisted := by
    rw [hiid, hiev]
    exact hs
  obtain ⟨ri, hri, -, hrie, hwi⟩ := Table.append_snapshot hu hsnap
  have hfresh : i₂.events.fresh = [.settledIntraledger now] := by simp [hiev, hi]
  have hstate : i₂.stateStr = "settled" := by simp [Invoice.stateStr, hst₂, InvoiceState.asStr]
  refine ⟨r, ri, hnone, hid, hw, hev, hwrites, hext, hri, by rw [hrie, hiev]; rfl, ?_,
    Table.append_extends hu, rfl, rfl⟩
  rw [← hstate, ← hfresh]
  exact hwi

/-- The state text of the payment a transfer has created. -/
theorem run_transfer_text {n : NewPayment} {preimage : Preimage} {now : Timestamp} {i : Invoice}
    {e : NewOutboxEvent} {q : Payment} {r : PaymentRow}
    (hr : (Transaction.transfer n preimage now i e).run clock db = .ok (q, db'))
    (hl : db'.payments.lookup n.paymentHash = some r) : r.state = "completed" := by
  obtain ⟨p₁, db₁, c₁, p₂, db₃, c₂, i₂, i₃, db₅, h₁, hsettle, h₃, -, h₅, rfl⟩ :=
    run_transfer_steps hr
  obtain ⟨r', t, -, -, -, -, hst, hw, -, rfl⟩ := payments_createSettled h₁ hsettle h₃
  have hpay : db₅.payments = t := invoices_updateInOp_payments h₅
  have hl' : t.lookup n.paymentHash = some r := by
    rw [← hpay]
    exact hl
  cases hw.at.symm.trans hl'
  exact hst

/-- A transfer goes through when its hash and identifier are new, its amounts fit
their columns and the recipient's row is as it was loaded. -/
theorem run_transfer_ok {n : NewPayment} {m : NewInvoice} {i : Invoice} (clock now : Timestamp)
    (preimage : Preimage) (e : NewOutboxEvent) {h : PaymentHash} {ri : InvoiceRow} {amount fee : ℤ}
    (ht : InvoiceLogs.Tracks m i) (ho : i.state = .opened)
    (hri : db.invoices.lookup h = some ri) (hriid : ri.id = i.id)
    (hrie : ri.events = i.events.persisted) (hnone : db.payments.lookup n.paymentHash = none)
    (hids : ∀ r ∈ db.payments.rows, r.id ≠ n.id) (ha : tryI64 n.amountMsat.msat = some amount)
    (hf : tryI64 n.maxFeeMsat.msat = some fee) :
    ∃ q db', (Transaction.transfer n preimage now i e).run clock db = .ok (q, db') := by
  let row : PaymentRow := ⟨n.id, n.paymentHash, ⟨n.walletId, amount, fee, clock⟩, n.stateStr,
    n.intoEvents.iterAll⟩
  obtain ⟨t, hins⟩ := Table.insert_ok (t := db.payments) (r := row) hids hnone
  obtain ⟨-, -, hl⟩ := Table.insert_spec hins
  obtain ⟨p, hp, hpe, hpid, hps, hpt⟩ := PaymentLogs.created_tracks n
  have hcreate : Payments.createInOp n clock db = .ok (p, { db with payments := t }) := by
    simp only [Payments.createInOp, ha, hf, hp]
    rw [show db.payments.insert _ = .ok t from hins]
  obtain ⟨p', hsettle⟩ := PaymentLogs.settle_live preimage .zero [] now hpt (.inl hps)
  obtain ⟨-, -, hid', hev', -⟩ := PaymentLogs.settle_executed hpt hsettle
  have hfresh' : p'.events.fresh ≠ [] := by simp [hev']
  obtain ⟨t', happ⟩ := Table.append_ok (n := p'.events.persisted.length) p'.stateStr
    p'.events.fresh (show t.lookup n.paymentHash = some row by rw [hl n.paymentHash, if_pos rfl])
    (show row.id = p'.id by rw [hid', hpid])
    (by rw [hev', EntityEvents.push_persisted, hpe]; rfl)
  have hupdate : Payments.updateInOp p' { db with payments := t } =
      .ok ({ p' with events := p'.events.markPersisted }, { db with payments := t' }) := by
    simp only [Payments.updateInOp, hfresh', if_false, happ]
  obtain ⟨i', hintra⟩ := InvoiceLogs.settleIntraledger_open now ht ho
  obtain ⟨-, hiid, -, hiev, -⟩ := InvoiceLogs.settleIntraledger_ok ht ho hintra
  have hifresh : i'.events.fresh ≠ [] := by simp [hiev]
  obtain ⟨u, hiapp⟩ := Table.append_ok (n := i'.events.persisted.length) i'.stateStr
    i'.events.fresh hri (show ri.id = i'.id by rw [hriid, hiid])
    (by rw [hrie, hiev, EntityEvents.push_persisted])
  have hiupdate : Invoices.updateInOp i' { db with payments := t' } =
      .ok ({ i' with events := i'.events.markPersisted },
        { db with payments := t', invoices := u }) := by
    simp only [Invoices.updateInOp, hifresh, if_false, hiapp]
  refine ⟨_, _, tx_bind.mpr ⟨_, _, hcreate, tx_bind.mpr ⟨_, _, tx_ofExcept.mpr ⟨hsettle, rfl⟩,
    tx_bind.mpr ⟨_, _, hupdate, tx_bind.mpr ⟨_, _, tx_ofExcept.mpr ⟨hintra, rfl⟩,
      tx_bind.mpr ⟨_, _, hiupdate, tx_bind.mpr ⟨_, _, rfl, tx_pure.mpr ⟨rfl, rfl⟩⟩⟩⟩⟩⟩⟩⟩

end LightningGateway.StoreSpecs
