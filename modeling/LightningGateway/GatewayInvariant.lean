import LightningGateway.CallSiteProofs
import LightningGateway.StoreSpecs

/-!
# The invariant behind every result

Rows hold logs of the two families, and every aggregate a task has loaded is a
snapshot of its row. From this and the call sites it follows what a committed
transaction of the gateway can do: `LedgerStep` lists the nine possibilities, with
the rows they find and the reasons they have. `gateway_invariant` is the
induction rule of the development; it provides both at every step.
-/
namespace LightningGateway.GatewayInvariant
open Primitives EventTables EffectPrograms TaskPools PaymentAggregate InvoiceAggregate OutboxRows
open LndWire SymphonyWire GatewayStore StoreSpecs GatewayEffects PeerCalls PaymentFlows InvoiceFlows
open GatewayMachine CallSites

/-! ### What one call does to the world -/

variable {crates : Crates} {c : Choice} {w w' : World}

def isLnd : Op → Bool
  | .lnd _ => true
  | _ => false

theorem execLnd_frame {o : LndOp} {a : o.Ans} (h : execLnd crates o c w = some (a, w')) :
    w'.db = w.db ∧ w'.commits = w.commits ∧ w'.authorized = w.authorized := by
  cases o <;> cases c <;> simp only [execLnd, reduceCtorEq] at h
  case sendPaymentV2.lndUnit =>
    split at h <;> cases h <;> exact ⟨rfl, rfl, rfl⟩
  all_goals
    cases h
    first
      | exact ⟨rfl, rfl, rfl⟩
      | split <;> exact ⟨rfl, rfl, rfl⟩

/-- A transaction either commits and enters the history, or leaves the world as it
was; the answer says which, unless the connection broke. -/
theorem exec_tx {b : Transaction} {a : Except AppError b.Result}
    (h : exec crates (.tx b) c w = some (a, w')) :
    (∃ t r db', b.run t w.db = .ok (r, db') ∧
      w' = { w with db := db', commits := w.commits ++ [b] } ∧
      ((c = .served t ∧ a = .ok r) ∨ (c = .ackLost t ∧ a = .error b.faultError))) ∨
    (w' = w ∧ ((∃ t e, c = .served t ∧ b.run t w.db = .error e ∧ a = .error e) ∨
      ((c = .dbFault ∨ ∃ t, c = .ackLost t) ∧ a = .error b.faultError))) := by
  cases c with
  | served t =>
      simp only [exec, World.commit] at h
      cases hr : b.run t w.db with
      | ok r =>
          obtain ⟨r, db'⟩ := r
          rw [hr] at h
          cases h
          exact .inl ⟨t, r, db', hr, rfl, .inl ⟨rfl, rfl⟩⟩
      | error e =>
          rw [hr] at h
          cases h
          exact .inr ⟨rfl, .inl ⟨t, e, rfl, hr, rfl⟩⟩
  | ackLost t =>
      simp only [exec, World.commit] at h
      cases hr : b.run t w.db with
      | ok r =>
          obtain ⟨r, db'⟩ := r
          rw [hr] at h
          cases h
          exact .inl ⟨t, r, db', hr, rfl, .inr ⟨rfl, rfl⟩⟩
      | error e =>
          rw [hr] at h
          cases h
          exact .inr ⟨rfl, .inr ⟨.inr ⟨t, rfl⟩, rfl⟩⟩
  | dbFault =>
      cases h
      exact .inr ⟨rfl, .inr ⟨.inl rfl, rfl⟩⟩
  | _ => cases h

theorem exec_frame {o : Op} {a : o.Ans} (h : exec crates o c w = some (a, w')) :
    (isTx o = false → w'.db = w.db ∧ w'.commits = w.commits) ∧
      (isLnd o = false → w'.lnd = w.lnd) ∧ (isAuthorize o = false → w'.authorized = w.authorized) := by
  cases o with
  | lnd o =>
      obtain ⟨h1, h2, h3⟩ := execLnd_frame (o := o) h
      exact ⟨fun _ => ⟨h1, h2⟩, fun hl => (by cases hl), fun _ => h3⟩
  | tx b =>
      refine ⟨fun ht => (by cases ht), ?_⟩
      obtain ⟨t, r, db', -, rfl, -⟩ | ⟨rfl, -⟩ := exec_tx h
      · exact ⟨fun _ => rfl, fun _ => rfl⟩
      · exact ⟨fun _ => rfl, fun _ => rfl⟩
  | authorizeSpend r =>
      refine ⟨fun _ => ?_, fun _ => ?_, fun ha => (by cases ha)⟩ <;>
      · cases c <;> simp only [exec, reduceCtorEq] at h
        cases h
        split <;> first | rfl | exact ⟨rfl, rfl⟩
  | _ =>
      cases c <;> simp only [exec, reduceCtorEq] at h <;> cases h <;>
        exact ⟨fun _ => ⟨rfl, rfl⟩, fun _ => rfl, fun _ => rfl⟩

/-! ### Rows and snapshots -/

/-- A payment row holds a log of a payment with the row's hash. No use case
reverses a payment. -/
def PaymentRowOk (h : PaymentHash) (r : PaymentRow) : Prop :=
  ∃ n s, PaymentLogs.PaymentLog n r.events s ∧ n.paymentHash = h ∧
    r.cols.walletId = n.walletId ∧ s ≠ .reversed

/-- An invoice row holds a log of an invoice with the row's hash, whose preimage
the gateway knows. -/
def InvoiceRowOk (g : Deployment) (h : PaymentHash) (r : InvoiceRow) : Prop :=
  ∃ n s held, InvoiceLogs.InvoiceLog n r.events s held ∧ n.paymentHash = h ∧
    g.crates.sha256 n.paymentPreimage = h

structure DbOk (g : Deployment) (db : Db) : Prop where
  payments : ∀ h r, db.payments.lookup h = some r → PaymentRowOk h r
  invoices : ∀ h r, db.invoices.lookup h = some r → InvoiceRowOk g h r

/-- `p` is a copy of the payment `n` as row `h` showed it at some time, perhaps
with unwritten events. -/
structure PaymentCopy (db : Db) (h : PaymentHash) (n : NewPayment) (p : Payment) : Prop where
  tracks : PaymentLogs.Tracks n p
  hash : n.paymentHash = h
  snapshot : db.payments.Snapshot h p.id p.events.persisted

structure InvoiceCopy (g : Deployment) (db : Db) (h : PaymentHash) (n : NewInvoice) (i : Invoice) :
    Prop where
  tracks : InvoiceLogs.Tracks n i
  hash : n.paymentHash = h
  preimage : g.crates.sha256 n.paymentPreimage = h
  snapshot : db.invoices.Snapshot h i.id i.events.persisted
  clean : i.events.fresh = []

/-- The aggregates that a call has handed to its task are copies of their rows. -/
def Genuine (g : Deployment) (db : Db) : Call gatewaySignature → Prop
  | ⟨.findPayment h, .ok p⟩ =>
      (p.events.fresh = [] ∧ p.state ≠ .reversed) ∧ ∃ n, PaymentCopy db h n p
  | ⟨.tx (.intent n _), .ok p⟩ =>
      PaymentCopy db n.paymentHash n p ∧ p.state = .initiated ∧
        p.events = ⟨n.id, [n.initiatedEvent], []⟩
  | ⟨.tx (.pending q), .ok p⟩ => p.state = q.state
  | ⟨.tx (.payment q _), .ok p⟩ => p.state = q.state
  | ⟨.findInvoice h, .ok i⟩ => ∃ n, InvoiceCopy g db h n i
  | ⟨.maybeFindInvoice h, .ok (some i)⟩ => ∃ n, InvoiceCopy g db h n i
  | _ => True

theorem PaymentCopy.extends {db db' : Db} {h : PaymentHash} {n : NewPayment} {p : Payment}
    (hc : PaymentCopy db h n p) (he : db.payments.Extends db'.payments) :
    PaymentCopy db' h n p :=
  ⟨hc.tracks, hc.hash, hc.snapshot.extends he⟩

theorem InvoiceCopy.extends {g : Deployment} {db db' : Db} {h : PaymentHash} {n : NewInvoice}
    {i : Invoice} (hc : InvoiceCopy g db h n i) (he : db.invoices.Extends db'.invoices) :
    InvoiceCopy g db' h n i :=
  ⟨hc.tracks, hc.hash, hc.preimage, hc.snapshot.extends he, hc.clean⟩

theorem Genuine.extends {g : Deployment} {db db' : Db} {c : Call gatewaySignature}
    (hc : Genuine g db c) (hp : db.payments.Extends db'.payments)
    (hi : db.invoices.Extends db'.invoices) : Genuine g db' c := by
  unfold Genuine at hc ⊢
  split at hc
  · obtain ⟨hf, n, hn⟩ := hc
    exact ⟨hf, n, hn.extends hp⟩
  · exact ⟨hc.1.extends hp, hc.2⟩
  · exact hc
  · exact hc
  · obtain ⟨n, hn⟩ := hc
    exact ⟨n, hn.extends hi⟩
  · obtain ⟨n, hn⟩ := hc
    exact ⟨n, hn.extends hi⟩
  · trivial

/-! ### Aggregates about to be written -/

section
variable {g : Deployment} {entry : Entry} {past : Calls} {db db' : Db} {k h : PaymentHash}
variable {amount : MilliSatoshi} {p : Payment}

theorem loaded_copy (hg : ∀ c ∈ past, Genuine g db c) (hl : LoadedPayment past k h amount p) :
    ∃ n, PaymentCopy db k n p ∧ p.events.fresh = [] ∧ h = k ∧ amount = n.amountMsat := by
  cases hl with
  | @created n e p ha =>
      obtain ⟨hc, -, he⟩ := hg _ ha
      exact ⟨n, hc, by rw [he], rfl, rfl⟩
  | found ha hh =>
      obtain ⟨⟨hf, -⟩, n, hc⟩ := hg _ ha
      refine ⟨n, hc, hf, ?_, hc.tracks.amountMsat⟩
      rcases hh with rfl | rfl
      · rfl
      · exact hc.tracks.paymentHash.trans hc.hash

theorem readied_copy (hg : ∀ c ∈ past, Genuine g db c) (hr : Readied past k h amount p) :
    ∃ n, PaymentCopy db k n p ∧ (p.events.fresh = [] ∨ ∃ t, p.events.fresh = [.pending t]) ∧
      h = k ∧ amount = n.amountMsat := by
  cases hr with
  | loaded hl =>
      obtain ⟨n, hc, hf, hh, ha⟩ := loaded_copy hg hl
      exact ⟨n, hc, .inl hf, hh, ha⟩
  | @pending p₀ _ t r hl hm =>
      obtain ⟨n, hc, hf, hh, ha⟩ := loaded_copy hg hl
      cases r with
      | executed =>
          obtain ⟨-, rfl, ht⟩ := PaymentLogs.markPending_executed hc.tracks hm
          exact ⟨n, ⟨ht, hc.hash, hc.snapshot⟩, .inr ⟨t, by simp [hf]⟩, hh, ha⟩
      | alreadyApplied =>
          obtain rfl : p₀ = p := by
            unfold Payment.markPending at hm
            split at hm
            · cases hm
            · split_ifs at hm
              · cases hm
                rfl
              · cases hm
            all_goals cases hm
          exact ⟨n, hc, .inl hf, hh, ha⟩

/-! ### What a committed transaction can be -/

/-- The possible effects of a transaction that a task with the given past commits. -/
inductive LedgerStep (g : Deployment) (entry : Entry) (past : Calls) (db db' : Db) :
    Transaction → Prop where
  | intent {n : NewPayment} {e : NewOutboxEvent} {r : PaymentRow} :
      IntentSite g entry past n e → db.payments.lookup n.paymentHash = none →
      r.events = [n.initiatedEvent] → r.cols.walletId = n.walletId →
      WritesPayment db db' n.paymentHash r → db'.invoices = db.invoices → Publishes db db' e →
      LedgerStep g entry past db db' (.intent n e)
  | pending {p : Payment} {h : PaymentHash} {n : NewPayment} {r : PaymentRow} {t : Timestamp} :
      PendingSite g entry past p → db.payments.lookup h = some r →
      PaymentLogs.PaymentLog n (r.events ++ [.pending t]) .pending → n.paymentHash = h →
      r.cols.walletId = n.walletId →
      WritesPayment db db' h (r.grow "pending" [.pending t]) → db'.invoices = db.invoices →
      Silent db db' → LedgerStep g entry past db db' (.pending p)
  | completed {p : Payment} {h : PaymentHash} {n : NewPayment} {r : PaymentRow}
      {before : List PaymentEvent} {preimage : Preimage} {fees : MilliSatoshi} {hops : List Hop}
      {t utcNow : Timestamp} :
      Told entry past h .succeeded → db.payments.lookup h = some r →
      (before = [] ∨ ∃ t, before = [.pending t]) →
      PaymentLogs.PaymentLog n (r.events ++ (before ++ [.completed t preimage fees hops]))
        .completed →
      n.paymentHash = h → r.cols.walletId = n.walletId →
      WritesPayment db db' h
        (r.grow "completed" (before ++ [.completed t preimage fees hops])) →
      db'.invoices = db.invoices →
      Publishes db db'
        (completedOutbox h (asI64 n.amountMsat.wholeSat) preimage fees hops utcNow) →
      LedgerStep g entry past db db' (.payment p
        (completedOutbox h (asI64 n.amountMsat.wholeSat) preimage fees hops utcNow))
  | failed {p : Payment} {h : PaymentHash} {n : NewPayment} {r : PaymentRow}
      {before : List PaymentEvent} {reason : FailureReason} {t utcNow : Timestamp} :
      FailedCause g entry past h → db.payments.lookup h = some r →
      (before = [] ∨ ∃ t, before = [.pending t]) →
      PaymentLogs.PaymentLog n (r.events ++ (before ++ [.failed t reason])) .failed →
      n.paymentHash = h → r.cols.walletId = n.walletId →
      WritesPayment db db' h (r.grow "failed" (before ++ [.failed t reason])) →
      db'.invoices = db.invoices →
      Publishes db db' (failedOutbox h (asI64 n.amountMsat.wholeSat) reason utcNow) →
      LedgerStep g entry past db db' (.payment p
        (failedOutbox h (asI64 n.amountMsat.wholeSat) reason utcNow))
  | transfer {n : NewPayment} {m : NewInvoice} {preimage : Preimage} {t : Timestamp}
      {recipient : Invoice} {e : NewOutboxEvent} {r : PaymentRow} {ri : InvoiceRow} :
      TransferSite g entry past n preimage recipient e →
      db.payments.lookup n.paymentHash = none →
      r.events = [n.initiatedEvent, .completed t preimage .zero []] →
      r.cols.walletId = n.walletId → WritesPayment db db' n.paymentHash r →
      db.invoices.lookup n.paymentHash = some ri →
      InvoiceLogs.InvoiceLog m ri.events .opened none → m.paymentHash = n.paymentHash →
      g.crates.sha256 m.paymentPreimage = n.paymentHash →
      WritesInvoice db db' n.paymentHash (ri.grow "settled" [.settledIntraledger t]) →
      Publishes db db' e →
      LedgerStep g entry past db db' (.transfer n preimage t recipient e)
  | createInvoice {n : NewInvoice} {r : InvoiceRow} :
      CreateInvoiceSite g entry past n → db.invoices.lookup n.paymentHash = none →
      r.events = [n.createdEvent] → WritesInvoice db db' n.paymentHash r →
      db'.payments = db.payments → Silent db db' →
      LedgerStep g entry past db db' (.createInvoice n)
  | held {i : Invoice} {h : PaymentHash} {m : NewInvoice} {r : InvoiceRow} {amount : MilliSatoshi}
      {walletId : WalletId} {t utcNow : Timestamp} :
      ToldInvoice entry past h .accepted → db.invoices.lookup h = some r →
      InvoiceLogs.InvoiceLog m r.events .opened none → m.paymentHash = h →
      g.crates.sha256 m.paymentPreimage = h →
      WritesInvoice db db' h (r.grow "held" [.htlcHeld t amount]) → db'.payments = db.payments →
      Publishes db db' (heldOutbox h amount walletId utcNow) →
      LedgerStep g entry past db db' (.invoice i (heldOutbox h amount walletId utcNow))
  | settled {i : Invoice} {h : PaymentHash} {m : NewInvoice} {r : InvoiceRow}
      {amount heldAmount : MilliSatoshi} {walletId : WalletId} {externalId : String}
      {t utcNow : Timestamp} :
      (ToldInvoice entry past h .settled ∨ ∃ preimage, g.crates.sha256 preimage = h ∧
        Answered past (.lnd (.settleInvoice preimage)) (.ok ())) →
      db.invoices.lookup h = some r →
      InvoiceLogs.InvoiceLog m r.events .held (some heldAmount) → m.paymentHash = h →
      g.crates.sha256 m.paymentPreimage = h →
      WritesInvoice db db' h (r.grow "settled" [.settled t]) → db'.payments = db.payments →
      Publishes db db' (settledOutbox h amount heldAmount walletId externalId utcNow) →
      LedgerStep g entry past db db' (.invoice i
        (settledOutbox h amount heldAmount walletId externalId utcNow))
  | canceled {i : Invoice} {h : PaymentHash} {m : NewInvoice} {r : InvoiceRow} {s : InvoiceState}
      {held : Option MilliSatoshi} {amount : MilliSatoshi} {walletId : WalletId}
      {t utcNow : Timestamp} :
      ToldInvoice entry past h .canceled → db.invoices.lookup h = some r →
      InvoiceLogs.InvoiceLog m r.events s held → s = .opened ∨ s = .held → m.paymentHash = h →
      g.crates.sha256 m.paymentPreimage = h →
      WritesInvoice db db' h (r.grow "canceled" [.canceled t .expired]) →
      db'.payments = db.payments →
      Publishes db db' (canceledOutbox h amount held walletId .expired utcNow) →
      LedgerStep g entry past db db' (.invoice i
        (canceledOutbox h amount held walletId .expired utcNow))

/-- Tables only ever grow. -/
def Grows (db db' : Db) : Prop :=
  db.payments.Extends db'.payments ∧ db.invoices.Extends db'.invoices

variable {clock : Timestamp}

/-- The wallet of a row is that of the payment it records. -/
theorem row_walletId {n : NewPayment} {r : PaymentRow} {more : List PaymentEvent}
    {s : PaymentState} (hdb : DbOk g db) (hl : db.payments.lookup k = some r)
    (hlog : PaymentLogs.PaymentLog n (r.events ++ more) s) : r.cols.walletId = n.walletId := by
  obtain ⟨n', s', hn', -, hcol, -⟩ := hdb.payments k r hl
  exact hcol.trans (hn'.origin_unique hlog).2.1

/-- The row a working copy is written to, and what its log becomes. -/
theorem copy_writes {n : NewPayment} {p p' q : Payment} {new : PaymentEvent} {e : NewOutboxEvent}
    {s : PaymentState} (hdb : DbOk g db) (hc : PaymentCopy db k n p) (hid : p'.id = p.id)
    (hev : p'.events = p.events.push new) (ht : PaymentLogs.Tracks n p') (hs : p'.state = s)
    (hr : (Transaction.payment p' e).run clock db = .ok (q, db')) :
    ∃ r, db.payments.lookup k = some r ∧
      PaymentLogs.PaymentLog n (r.events ++ (p.events.fresh ++ [new])) s ∧
      r.cols.walletId = n.walletId ∧
      WritesPayment db db' k (r.grow s.asStr (p.events.fresh ++ [new])) ∧
      db'.invoices = db.invoices ∧ Publishes db db' e ∧ Grows db db' := by
  have hfresh : p'.events.fresh = p.events.fresh ++ [new] := by simp [hev]
  have hsnap : db.payments.Snapshot k p'.id p'.events.persisted := by
    rw [hid, hev]
    exact hc.snapshot
  obtain ⟨r, hl, -, hre, hw, hext, hi, hpub, -⟩ := run_payment (by simp [hfresh]) hsnap hr
  have hlog : PaymentLogs.PaymentLog n (r.events ++ (p.events.fresh ++ [new])) s := by
    rw [hre, ← hfresh, ← hs]
    exact ht.log
  refine ⟨r, hl, hlog, row_walletId hdb hl hlog, ?_, hi, hpub, hext, hi ▸ .refl _⟩
  rw [hfresh, Payment.stateStr, hs] at hw
  exact hw

theorem ledger_conclusion {p q : Payment} {e : NewOutboxEvent} (hdb : DbOk g db)
    (hg : ∀ c ∈ past, Genuine g db c) (hc : Concludes g entry past p e)
    (hr : (Transaction.payment p e).run clock db = .ok (q, db')) :
    LedgerStep g entry past db db' (.payment p e) ∧ Grows db db' := by
  cases hc with
  | completed hready hset htold =>
      obtain ⟨n, hcopy, hf, rfl, rfl⟩ := readied_copy hg hready
      obtain ⟨-, hs, hid, hev, ht⟩ := PaymentLogs.settle_executed hcopy.tracks hset
      obtain ⟨r, hl, hlog, hcol, hw, hi, hpub, hgr⟩ := copy_writes hdb hcopy hid hev ht hs hr
      exact ⟨.completed htold hl hf hlog hcopy.hash hcol hw hi hpub, hgr⟩
  | failed hready hfail hcause =>
      obtain ⟨n, hcopy, hf, rfl, rfl⟩ := readied_copy hg hready
      obtain ⟨-, hs, hid, hev, ht⟩ := PaymentLogs.fail_executed hcopy.tracks hfail
      obtain ⟨r, hl, hlog, hcol, hw, hi, hpub, hgr⟩ := copy_writes hdb hcopy hid hev ht hs hr
      exact ⟨.failed hcause hl hf hlog hcopy.hash hcol hw hi hpub, hgr⟩

theorem ledger_pending {p q : Payment} (hdb : DbOk g db) (hg : ∀ c ∈ past, Genuine g db c)
    (hp : PendingSite g entry past p) (hr : (Transaction.pending p).run clock db = .ok (q, db')) :
    LedgerStep g entry past db db' (.pending p) ∧ Grows db db' := by
  obtain ⟨n, p₀, t, ⟨request, e, -, -, ha⟩, hm, -⟩ := id hp
  obtain ⟨hc, -, he⟩ := hg _ ha
  obtain ⟨-, rfl, ht⟩ := PaymentLogs.markPending_executed hc.tracks hm
  have hfresh : (p₀.events.push (.pending t)).fresh = [.pending t] := by simp [he]
  obtain ⟨r, hl, -, hre, hw, hext, hi, hsil, -⟩ :=
    run_pending (by simp) (by simpa using hc.snapshot) hr
  have hlog : PaymentLogs.PaymentLog n (r.events ++ [.pending t]) .pending := by
    rw [hre, ← hfresh]
    exact ht.log
  rw [hfresh] at hw
  exact ⟨.pending hp hl hlog hc.hash (row_walletId hdb hl hlog) hw hi hsil, hext, hi ▸ .refl _⟩

theorem ledger_intent {n : NewPayment} {e : NewOutboxEvent} {q : Payment}
    (hs : IntentSite g entry past n e) (hr : (Transaction.intent n e).run clock db = .ok (q, db')) :
    LedgerStep g entry past db db' (.intent n e) ∧ Grows db db' := by
  obtain ⟨r, hnone, -, hcol, hev, -, hw, hext, hi, hpub, -⟩ := run_intent hr
  exact ⟨.intent hs hnone hev hcol hw hi hpub, hext, hi ▸ .refl _⟩

/-- A recipient that passes the guard is open. -/
theorem recipientGuard_opened {walletId : WalletId} {i : Invoice} {t : Timestamp}
    (hg : recipientGuard walletId h i t = .ok ()) : i.state = .opened := by
  unfold recipientGuard at hg
  cases hs : i.state with
  | opened => rfl
  | held | settled | canceled =>
      simp only [hs] at hg
      split_ifs at hg

theorem InvoiceCopy.log_persisted {m : NewInvoice} {i : Invoice} (hc : InvoiceCopy g db h m i) :
    InvoiceLogs.InvoiceLog m i.events.persisted i.state i.heldAmountMsat := by
  have hlog := hc.tracks.log
  rwa [EntityEvents.iterAll, hc.clean, List.append_nil] at hlog

theorem ledger_transfer {n : NewPayment} {preimage : Preimage} {t : Timestamp} {i : Invoice}
    {e : NewOutboxEvent} {q : Payment} (hg : ∀ c ∈ past, Genuine g db c)
    (hs : TransferSite g entry past n preimage i e)
    (hr : (Transaction.transfer n preimage t i e).run clock db = .ok (q, db')) :
    LedgerStep g entry past db db' (.transfer n preimage t i e) ∧ Grows db db' := by
  obtain ⟨m, hc⟩ := hg _ hs.1.found
  obtain ⟨request, decoded, at_, -, hguard, -⟩ := hs.1.planned
  have hopen := recipientGuard_opened hguard
  obtain ⟨r, ri, hnone, -, hcol, hev, hw, hext, hri, hrie, hwi, hexti, hpub⟩ :=
    run_transfer hc.tracks hc.clean hopen hc.snapshot hr
  have hlog := hc.log_persisted
  rw [← hrie, hopen] at hlog
  rw [hlog.held_of_opened] at hlog
  exact ⟨.transfer hs hnone hev hcol hw hri hlog hc.hash hc.preimage hwi hpub, hext, hexti⟩

theorem ledger_createInvoice {n : NewInvoice} {j : Invoice}
    (hs : CreateInvoiceSite g entry past n)
    (hr : (Transaction.createInvoice n).run clock db = .ok (j, db')) :
    LedgerStep g entry past db db' (.createInvoice n) ∧ Grows db db' := by
  obtain ⟨r, hnone, hev, -, hw, hext, hp, hsil⟩ := run_createInvoice hr
  exact ⟨.createInvoice hs hnone hev hw hp hsil, hp ▸ .refl _, hext⟩

/-- The row a changed invoice is written to. -/
theorem invoice_writes {m : NewInvoice} {i i' j : Invoice} {new : InvoiceEvent} {e : NewOutboxEvent}
    {s : InvoiceState} (hc : InvoiceCopy g db k m i) (hid : i'.id = i.id)
    (hev : i'.events = i.events.push new) (hs : i'.state = s)
    (hr : (Transaction.invoice i' e).run clock db = .ok (j, db')) :
    ∃ r, db.invoices.lookup k = some r ∧
      InvoiceLogs.InvoiceLog m r.events i.state i.heldAmountMsat ∧
      WritesInvoice db db' k (r.grow s.asStr [new]) ∧ db'.payments = db.payments ∧
      Publishes db db' e ∧ Grows db db' := by
  have hfresh : i'.events.fresh = [new] := by simp [hev, hc.clean]
  have hsnap : db.invoices.Snapshot k i'.id i'.events.persisted := by
    rw [hid, hev]
    exact hc.snapshot
  obtain ⟨r, hl, hre, hw, hext, hp, hpub⟩ := run_invoice (by simp [hfresh]) hsnap hr
  have hlog := hc.log_persisted
  rw [hev] at hre
  rw [← show r.events = i.events.persisted from hre] at hlog
  rw [hfresh, Invoice.stateStr, hs] at hw
  exact ⟨r, hl, hlog, hw, hp, hpub, hp ▸ .refl _, hext⟩

theorem ledger_invoice {i j : Invoice} {e : NewOutboxEvent} (hg : ∀ c ∈ past, Genuine g db c)
    (hm : InvoiceMove entry past i e) (hr : (Transaction.invoice i e).run clock db = .ok (j, db')) :
    LedgerStep g entry past db db' (.invoice i e) ∧ Grows db db' := by
  cases hm with
  | held ha htold hcmd =>
      obtain ⟨m, hc⟩ := hg _ ha
      obtain ⟨hst, hs, hheld, hid, hev, ht⟩ := InvoiceLogs.markHeld_executed hc.tracks hcmd
      obtain ⟨r, hl, hlog, hw, hp, hpub, hgr⟩ := invoice_writes hc hid hev hs hr
      rw [hst] at hlog
      rw [hlog.held_of_opened] at hlog
      rw [hc.tracks.paymentHash, hc.hash] at hpub ⊢
      exact ⟨.held htold hl hlog hc.hash hc.preimage hw hp hpub, hgr⟩
  | settled ha hcmd hheld htold =>
      obtain ⟨m, hc⟩ := hg _ ha
      obtain ⟨hst, hs, hid, hkeep, hev, ht⟩ := InvoiceLogs.settle_executed hc.tracks hcmd
      obtain ⟨r, hl, hlog, hw, hp, hpub, hgr⟩ := invoice_writes hc hid hev hs hr
      rw [hst, ← hkeep, hheld] at hlog
      refine ⟨.settled (htold.imp_right fun h => ⟨_, ?_, h⟩) hl hlog hc.hash hc.preimage hw hp hpub,
        hgr⟩
      rw [hc.tracks.paymentPreimage, hc.preimage]
  | canceled ha hh htold hcmd =>
      obtain ⟨m, hc⟩ := hg _ ha
      obtain ⟨hst, hs, hid, hkeep, hev, ht⟩ := InvoiceLogs.cancel_executed hc.tracks hcmd
      obtain ⟨r, hl, hlog, hw, hp, hpub, hgr⟩ := invoice_writes hc hid hev hs hr
      rw [← hkeep] at hlog
      rcases hh with rfl | rfl
      · exact ⟨.canceled htold hl hlog hst hc.hash hc.preimage hw hp hpub, hgr⟩
      · rw [hc.tracks.paymentHash, hc.hash] at hpub ⊢
        exact ⟨.canceled htold hl hlog hst hc.hash hc.preimage hw hp hpub, hgr⟩

/-- Every transaction that a task commits is one of the listed steps. -/
theorem ledger_step {b : Transaction} {a : b.Result} (hdb : DbOk g db)
    (hg : ∀ c ∈ past, Genuine g db c) (hj : Justified g entry past (.tx b))
    (hr : b.run clock db = .ok (a, db')) : LedgerStep g entry past db db' b ∧ Grows db db' := by
  cases b with
  | intent n e => exact ledger_intent hj hr
  | pending p => exact ledger_pending hdb hg hj hr
  | payment p e => exact ledger_conclusion hdb hg hj hr
  | transfer n preimage t i e => exact ledger_transfer hg hj hr
  | createInvoice n => exact ledger_createInvoice hj hr
  | invoice i e => exact ledger_invoice hg hj hr

/-! ### Rows stay well formed -/

/-- The outcomes of a payment row, as its hydrated state shows them. -/
theorem DbOk.payment_state {r : PaymentRow} (hdb : DbOk g db)
    (hr : db.payments.lookup h = some r) :
    ∃ n p, Payments.hydrate r = .ok p ∧ PaymentLogs.PaymentLog n r.events p.state ∧
      (r.events.any PaymentEvent.isCompleted = true ↔ p.state = .completed) ∧
      (r.events.any PaymentEvent.isFailed = true ↔ p.state = .failed) := by
  obtain ⟨n, s, hlog, -, -, hs⟩ := hdb.payments h r hr
  obtain ⟨p, hp, -, -, rfl, -⟩ := PaymentLogs.hydrate_log r.id hlog
  refine ⟨n, p, hp, hlog, ?_, hlog.any_isFailed⟩
  rw [hlog.any_isCompleted]
  exact ⟨fun h => h.resolve_right hs, .inl⟩

theorem paymentRows_write {r : PaymentRow}
    (hdb : ∀ h r, db.payments.lookup h = some r → PaymentRowOk h r)
    (hw : WritesPayment db db' k r) (hr : PaymentRowOk k r) :
    ∀ h r, db'.payments.lookup h = some r → PaymentRowOk h r := by
  intro h x hx
  rw [hw h] at hx
  split_ifs at hx with hk
  · cases hx
    exact hk ▸ hr
  · exact hdb h x hx

theorem invoiceRows_write {r : InvoiceRow}
    (hdb : ∀ h r, db.invoices.lookup h = some r → InvoiceRowOk g h r)
    (hw : WritesInvoice db db' k r) (hr : InvoiceRowOk g k r) :
    ∀ h r, db'.invoices.lookup h = some r → InvoiceRowOk g h r := by
  intro h x hx
  rw [hw h] at hx
  split_ifs at hx with hk
  · cases hx
    exact hk ▸ hr
  · exact hdb h x hx

theorem LedgerStep.dbOk {b : Transaction} (hs : LedgerStep g entry past db db' b)
    (hdb : DbOk g db) : DbOk g db' := by
  cases hs with
  | intent _ _ hev hcol hw hi _ =>
      refine ⟨paymentRows_write hdb.payments hw ⟨_, .initiated, ?_, rfl, hcol, by simp⟩, ?_⟩
      · rw [hev]
        exact .initiated
      · rw [hi]
        exact hdb.invoices
  | pending _ _ hlog hh hcol hw hi _ | completed _ _ _ hlog hh hcol hw hi _
  | failed _ _ _ hlog hh hcol hw hi _ =>
      refine ⟨paymentRows_write hdb.payments hw ⟨_, _, hlog, hh, hcol, by simp⟩, ?_⟩
      rw [hi]
      exact hdb.invoices
  | transfer _ _ hev hcol hw _ hlog hm hpre hwi _ =>
      refine ⟨paymentRows_write hdb.payments hw ⟨_, .completed, ?_, rfl, hcol, by simp⟩,
        invoiceRows_write hdb.invoices hwi ⟨_, _, _, .settledIntraledger _ hlog, hm, hpre⟩⟩
      rw [hev]
      exact .completed _ _ _ _ (.inl rfl) .initiated
  | createInvoice hsite _ hev hw hp _ =>
      obtain ⟨-, -, -, -, hhash, -⟩ := hsite
      refine ⟨?_, invoiceRows_write hdb.invoices hw ⟨_, .opened, none, ?_, rfl, hhash.symm⟩⟩
      · rw [hp]
        exact hdb.payments
      · rw [hev]
        exact .created
  | held _ _ hlog hm hpre hw hp _ =>
      refine ⟨?_, invoiceRows_write hdb.invoices hw ⟨_, _, _, .htlcHeld _ _ hlog, hm, hpre⟩⟩
      rw [hp]
      exact hdb.payments
  | settled _ _ hlog hm hpre hw hp _ =>
      refine ⟨?_, invoiceRows_write hdb.invoices hw ⟨_, _, _, .settled _ hlog, hm, hpre⟩⟩
      rw [hp]
      exact hdb.payments
  | canceled _ _ hlog hs hm hpre hw hp _ =>
      refine ⟨?_, invoiceRows_write hdb.invoices hw ⟨_, _, _, .canceled _ _ hs hlog, hm, hpre⟩⟩
      rw [hp]
      exact hdb.payments

/-! ### Answers are genuine -/

theorem findPayment_copy {p : Payment} (hdb : DbOk g db)
    (hf : Payments.findByPaymentHash db h = .ok p) :
    (p.events.fresh = [] ∧ p.state ≠ .reversed) ∧ ∃ n, PaymentCopy db h n p := by
  unfold Payments.findByPaymentHash at hf
  split at hf
  case h_1 => cases hf
  case h_2 r hr =>
    obtain ⟨n, s, hlog, hh, -, hs⟩ := hdb.payments h r hr
    obtain ⟨hev, hid, rfl, ht⟩ := PaymentLogs.hydrate_tracks hlog hf
    exact ⟨⟨by rw [hev], hs⟩, n, ht, hh, r, hr, hid.symm, by rw [hev]⟩

theorem findInvoice_copy {i : Invoice} (hdb : DbOk g db)
    (hf : Invoices.findByPaymentHash db h = .ok i) : ∃ n, InvoiceCopy g db h n i := by
  unfold Invoices.findByPaymentHash at hf
  split at hf
  case h_1 => cases hf
  case h_2 r hr =>
    obtain ⟨n, s, held, hlog, hh, hpre⟩ := hdb.invoices h r hr
    obtain ⟨hev, hid, -, -, ht⟩ := InvoiceLogs.hydrate_tracks hlog hf
    exact ⟨n, ht, hh, hpre, ⟨r, hr, hid.symm, by rw [hev]⟩, by rw [hev]⟩

theorem intent_copy {n : NewPayment} {e : NewOutboxEvent} {p : Payment}
    (hr : (Transaction.intent n e).run clock db = .ok (p, db')) :
    PaymentCopy db' n.paymentHash n p ∧ p.state = .initiated ∧
      p.events = ⟨n.id, [n.initiatedEvent], []⟩ := by
  obtain ⟨r, -, hid, -, hrev, -, hw, -, -, -, hp⟩ := run_intent hr
  obtain ⟨q, hq, hev, hqid, hs, ht⟩ := PaymentLogs.created_tracks n
  cases hp.symm.trans hq
  refine ⟨⟨ht, rfl, r, hw.at, hid.trans hqid.symm, ?_⟩, hs, hev⟩
  rw [hev, hrev]

end

/-- Every answer a call gives is genuine in the database it leaves behind. -/
theorem exec_genuine {g : Deployment} {o : Op} {a : o.Ans} (hdb : DbOk g w.db)
    (hx : exec g.crates o c w = some (a, w')) : Genuine g w'.db ⟨o, a⟩ := by
  have hframe := (exec_frame hx).1
  cases o with
  | findPayment h =>
      cases c with
      | served t =>
          cases hx
          cases hf : Payments.findByPaymentHash w.db h with
          | ok p => exact findPayment_copy hdb hf
          | error e => trivial
      | dbFault =>
          cases hx
          trivial
      | _ => cases hx
  | findInvoice h =>
      cases c with
      | served t =>
          cases hx
          cases hf : Invoices.findByPaymentHash w.db h with
          | ok i => exact findInvoice_copy hdb hf
          | error e => trivial
      | dbFault =>
          cases hx
          trivial
      | _ => cases hx
  | maybeFindInvoice h =>
      cases c with
      | served t =>
          cases hx
          unfold Invoices.maybeFindByPaymentHash
          split
          case h_1 i hi => exact findInvoice_copy hdb hi
          all_goals trivial
      | dbFault =>
          cases hx
          trivial
      | _ => cases hx
  | tx b =>
      cases b with
      | intent n e =>
          obtain ⟨t, r, db', hr, rfl, ⟨-, rfl⟩ | ⟨-, rfl⟩⟩ | ⟨-, ⟨t, e', -, -, rfl⟩ | ⟨-, rfl⟩⟩ :=
            exec_tx hx
          · exact intent_copy hr
          all_goals trivial
      | pending q =>
          obtain ⟨t, r, db', hr, rfl, ⟨-, rfl⟩ | ⟨-, rfl⟩⟩ | ⟨-, ⟨t, e', -, -, rfl⟩ | ⟨-, rfl⟩⟩ :=
            exec_tx hx
          · exact payments_updateInOp_state hr
          all_goals trivial
      | payment q e =>
          obtain ⟨t, r, db', hr, rfl, ⟨-, rfl⟩ | ⟨-, rfl⟩⟩ | ⟨-, ⟨t, e', -, -, rfl⟩ | ⟨-, rfl⟩⟩ :=
            exec_tx hx
          · exact run_payment_state hr
          all_goals trivial
      | _ => trivial
  | _ => trivial

/-! ### The invariant rules -/

/-- Well-formed rows, genuine copies in the hands of all tasks, and no call
without its site. -/
structure Sane (g : Deployment) (w : World) (ps : List (Past (gateway g))) : Prop where
  db : DbOk g w.db
  calls : ∀ p ∈ ps, ∀ c ∈ p.calls, Genuine g w.db c
  explained : Explained (M := gateway g) (Justified g) ps

section
variable {g : Deployment} {ps : List (Past (gateway g))}

theorem dbOk_empty : DbOk g Db.empty :=
  ⟨fun _ _ h => (by cases h), fun _ _ h => (by cases h)⟩

/-- A call either commits one of the listed steps or leaves the database alone. -/
theorem commit_or_frame {entry : Entry} {past : Calls} {o : Op} {a : o.Ans}
    (hdb : DbOk g w.db) (hg : ∀ c ∈ past, Genuine g w.db c) (hj : Justified g entry past o)
    (hx : exec g.crates o c w = some (a, w')) :
    (∃ b db', o = .tx b ∧ LedgerStep g entry past w.db db' b ∧ Grows w.db db' ∧
      w' = { w with db := db', commits := w.commits ++ [b] }) ∨
    (w'.db = w.db ∧ w'.commits = w.commits) := by
  by_cases ho : isTx o = true
  · cases o with
    | tx b =>
        obtain ⟨t, r, db', hr, rfl, -⟩ | ⟨rfl, -⟩ := exec_tx hx
        · obtain ⟨hstep, hgrow⟩ := ledger_step hdb hg hj hr
          exact .inl ⟨b, db', rfl, hstep, hgrow, rfl⟩
        · exact .inr ⟨rfl, rfl⟩
    | _ => cases ho
  · exact .inr ((exec_frame hx).1 (Bool.eq_false_iff.mpr ho))

/-- One call lets the tables grow. -/
theorem exec_grows {entry : Entry} {past : Calls} {o : Op} {a : o.Ans} (hdb : DbOk g w.db)
    (hg : ∀ c ∈ past, Genuine g w.db c) (hj : Justified g entry past o)
    (hx : exec g.crates o c w = some (a, w')) : Grows w.db w'.db := by
  obtain ⟨b, db', -, -, hgrow, rfl⟩ | ⟨hframe, -⟩ := commit_or_frame hdb hg hj hx
  · exact hgrow
  · rw [hframe]
    exact ⟨.refl _, .refl _⟩

theorem env_frame {x : Env} (hx : env x w = some w') :
    w'.db.payments = w.db.payments ∧ w'.db.invoices = w.db.invoices ∧
      w'.db.outbox = w.db.outbox ∧ w'.commits = w.commits ∧ w'.authorized = w.authorized ∧
      (w'.db = w.db ∨ x = .drawSequence) := by
  cases x with
  | expire h | drawSequence =>
      cases hx
      simp
  | _ =>
      simp only [env] at hx
      split_ifs at hx <;> cases hx <;> simp

theorem Sane.step {entry : Entry} {past : Calls} {o : Op} {a : o.Ans} {i : ℕ}
    (hs : Sane g w ps) (hi : ps[i]? = some ⟨entry, past⟩) (hj : Justified g entry past o)
    (hx : exec g.crates o c w = some (a, w')) :
    Sane g w' (ps.set i ⟨entry, past ++ [⟨o, a⟩]⟩) := by
  have hmem := List.mem_of_getElem? hi
  have hpast := hs.calls _ hmem
  have hgrow : Grows w.db w'.db := exec_grows hs.db hpast hj hx
  have hdb : DbOk g w'.db := by
    obtain ⟨b, db', -, hstep, -, rfl⟩ | ⟨hframe, -⟩ := commit_or_frame hs.db hpast hj hx
    · exact hstep.dbOk hs.db
    · rw [hframe]
      exact hs.db
  refine ⟨hdb, ?_, explained_call hi hj hs.explained⟩
  exact calls_call hi (fun _ hc => hc.extends hgrow.1 hgrow.2) (exec_genuine hs.db hx) hs.calls

/-- The induction rule of the development. A step of a task comes with the call
site that justifies it and with the sanity of the state before. -/
theorem gateway_invariant_from (D : Discipline (gateway g))
    {I : World → List (Past (gateway g)) → Prop}
    (hspawn : ∀ w ps e, D.spawn e w = true → Sane g w ps → I w ps → I w (ps ++ [⟨e, []⟩]))
    (hcall : ∀ w ps i entry past o c a w', ps[i]? = some ⟨entry, past⟩ →
      Justified g entry past o → D.call ⟨entry, past⟩ o c w = true →
      exec g.crates o c w = some (a, w') → Sane g w ps → I w ps →
      I w' (ps.set i ⟨entry, past ++ [⟨o, a⟩]⟩))
    (henv : ∀ w ps x w', D.env x w = true → env x w = some w' → Sane g w ps → I w ps → I w' ps)
    {s₀ s : Pool (gateway g)} {es : List (Event (gateway g))} (h : Runs D s₀ es s)
    (hsound : Sound (Justified g) (Returns g) s₀) (hsane : Sane g s₀.world s₀.pasts)
    (hinit : I s₀.world s₀.pasts) :
    Sound (Justified g) (Returns g) s ∧ Sane g s.world s.pasts ∧ I s.world s.pasts := by
  refine pool_invariant (I := fun w ps => Sane g w ps ∧ I w ps) (program_emits g) D ?_ ?_ ?_ h
    hsound ⟨hsane, hinit⟩
  · rintro w ps e hd ⟨hs, hI⟩
    refine ⟨⟨hs.db, ?_, explained_spawn e hs.explained⟩, hspawn w ps e hd hs hI⟩
    exact pasts_spawn (fun _ hc => by cases hc) hs.calls
  · rintro w ps i ⟨entry, past⟩ o c a w' hp hj hd hx ⟨hs, hI⟩
    exact ⟨hs.step hp hj hx, hcall w ps i entry past o c a w' hp hj hd hx hs hI⟩
  · rintro w ps x w' hd hx ⟨hs, hI⟩
    obtain ⟨hp, hi, -⟩ := env_frame hx
    refine ⟨⟨⟨hp ▸ hs.db.payments, hi ▸ hs.db.invoices⟩, fun p hp' c hc => ?_, hs.explained⟩,
      henv w ps x w' hd hx hs hI⟩
    exact (hs.calls p hp' c hc).extends (hp ▸ .refl _) (hi ▸ .refl _)

/-- The rule for the runs of a gateway that has just been started. -/
theorem gateway_invariant (D : Discipline (gateway g))
    {I : World → List (Past (gateway g)) → Prop} (hinit : I World.empty [])
    (hspawn : ∀ w ps e, D.spawn e w = true → Sane g w ps → I w ps → I w (ps ++ [⟨e, []⟩]))
    (hcall : ∀ w ps i entry past o c a w', ps[i]? = some ⟨entry, past⟩ →
      Justified g entry past o → D.call ⟨entry, past⟩ o c w = true →
      exec g.crates o c w = some (a, w') → Sane g w ps → I w ps →
      I w' (ps.set i ⟨entry, past ++ [⟨o, a⟩]⟩))
    (henv : ∀ w ps x w', D.env x w = true → env x w = some w' → Sane g w ps → I w ps → I w' ps)
    {s : Pool (gateway g)} {es : List (Event (gateway g))} (h : Runs D (boot g) es s) :
    Sound (Justified g) (Returns g) s ∧ Sane g s.world s.pasts ∧ I s.world s.pasts := by
  have hsane : Sane g (boot g).world (boot g).pasts :=
    ⟨dbOk_empty, fun p hp => (by cases hp), fun p hp => (by cases hp)⟩
  exact gateway_invariant_from D hspawn hcall henv h (sound_empty _) hsane hinit

/-- What holds in every run. -/
theorem sane_run {D : Discipline (gateway g)} {s : Pool (gateway g)} {es : List (Event (gateway g))}
    (h : Runs D (boot g) es s) : Sound (Justified g) (Returns g) s ∧ Sane g s.world s.pasts := by
  have htrivial := gateway_invariant D (I := fun _ _ => True) trivial (fun _ _ _ _ _ _ => trivial)
    (fun _ _ _ _ _ _ _ _ _ _ _ _ _ _ _ => trivial) (fun _ _ _ _ _ _ _ _ => trivial) h
  exact ⟨htrivial.1, htrivial.2.1⟩

theorem dbOk_run {D : Discipline (gateway g)} {s : Pool (gateway g)} {es : List (Event (gateway g))}
    (h : Runs D (boot g) es s) : DbOk g s.world.db :=
  (sane_run h).2.db

theorem Grows.trans {db db' db'' : Db} (h : Grows db db') (h' : Grows db' db'') : Grows db db'' :=
  ⟨h.1.trans h'.1, h.2.trans h'.2⟩

/-- Whatever is in the tables at some time stays in them. -/
theorem grows_run {D : Discipline (gateway g)} {s₀ s : Pool (gateway g)}
    {es₀ es : List (Event (gateway g))} (h₀ : Runs D (boot g) es₀ s₀) (h : Runs D s₀ es s) :
    Grows s₀.world.db s.world.db := by
  obtain ⟨hsound, hsane⟩ := sane_run h₀
  refine (gateway_invariant_from D (I := fun w _ => Grows s₀.world.db w.db)
    (fun _ _ _ _ _ hI => hI) ?_ ?_ h hsound hsane ⟨.refl _, .refl _⟩).2.2
  · intro w ps i entry past o c a w' hp hj _ hx hs hI
    exact hI.trans (exec_grows hs.db (hs.calls _ (List.mem_of_getElem? hp)) hj hx)
  · intro w ps x w' _ hx _ hI
    obtain ⟨hp, hi, -⟩ := env_frame hx
    exact ⟨hp ▸ hI.1, hi ▸ hI.2⟩

/-- The rule for invariants of the database and the history of its commits. -/
theorem ledger_invariant (D : Discipline (gateway g)) {I : Db → List Transaction → Prop}
    (hinit : I Db.empty [])
    (hstep : ∀ entry past db db' b commits, LedgerStep g entry past db db' b → DbOk g db →
      I db commits → I db' (commits ++ [b]))
    (hdraw : ∀ db commits, I db commits →
      I { db with nextSequence := db.nextSequence + 1 } commits)
    {s : Pool (gateway g)} {es : List (Event (gateway g))} (h : Runs D (boot g) es s) :
    DbOk g s.world.db ∧ I s.world.db s.world.commits := by
  refine (gateway_invariant D (I := fun w _ => I w.db w.commits) hinit
    (fun _ _ _ _ _ hI => hI) ?_ ?_ h).2.imp_left Sane.db
  · intro w ps i entry past o c a w' hp hj _ hx hs hI
    obtain ⟨b, db', -, hb, -, rfl⟩ | ⟨hdb, hc⟩ :=
      commit_or_frame hs.db (hs.calls _ (List.mem_of_getElem? hp)) hj hx
    · exact hstep entry past w.db db' b w.commits hb hs.db hI
    · rw [hdb, hc]
      exact hI
  · intro w ps x w' _ hx _ hI
    cases x with
    | drawSequence =>
        cases hx
        exact hdraw w.db w.commits hI
    | _ =>
        obtain ⟨-, -, -, hc, -, hdb | hd⟩ := env_frame hx
        · rw [hdb, hc]
          exact hI
        · cases hd

end

end LightningGateway.GatewayInvariant
