import LightningGateway.RecordedSpecs
import LightningGateway.TransferBooks
import LightningGateway.InvoiceLedger
import LightningGateway.PaymentLedger

/-!
# The outbox as the record of the books

The database of the gateway refines the books of transfers: every committed transaction is one
move, and the rows it publishes are what the move shows. So the outbox is the record of a run
of the books, whatever interleaves, fails or crashes below them, and a consumer that knows
only the rows keeps the accounts that the books call for.
-/
namespace LightningGateway.LedgerRefinement
open RecordedSpecs TransferBooks Primitives EventTables TaskPools PaymentAggregate
open InvoiceAggregate OutboxRows GatewayStore StoreSpecs GatewayMachine PeerCalls PaymentFlows
open InvoiceFlows CallSites GatewayInvariant OutboxHistory
open PaymentLogs (PaymentLog)
open InvoiceLogs (InvoiceLog)
open PaymentLedger (Describes describes_row)

abbrev GatewayBooks := Books PaymentHash MilliSatoshi

/-! ### What a move shows -/

/-- The row of an outgoing payment. -/
structure Pays (d : GatewayDomainEvent) (h : PaymentHash) (amount : MilliSatoshi)
    (row : OutboxEvent) : Prop extends Describes h amount row where
  domainEvent : row.domainEvent = d

/-- The row of an incoming invoice, with an amount in its metadata. -/
structure Receives (d : GatewayDomainEvent) (h : PaymentHash) (field : String) (amount : Json)
    (row : OutboxEvent) : Prop where
  domainEvent : row.domainEvent = d
  referenceId : row.referenceId = h.toHex
  amount : row.gatewayMetadata.get? field = some amount

def Shows : Move PaymentHash MilliSatoshi → List OutboxEvent → Prop
  | .initiate h amount, rows =>
      ∃ row, rows = [row] ∧ Pays .lightningPaymentInitiated h amount row
  | .complete h amount, rows =>
      ∃ row, rows = [row] ∧ Pays .lightningPaymentCompleted h amount row
  | .fail h amount, rows => ∃ row, rows = [row] ∧ Pays .lightningPaymentFailed h amount row
  | .transfer h amount, rows =>
      ∃ row, rows = [row] ∧ Pays .lightningIntraledgerTransferCompleted h amount row
  | .hold h amount, rows =>
      ∃ row, rows = [row] ∧
        Receives .lightningHtlcHeld h "amt_paid_msat" (.u64 amount.msat) row
  | .settle h amount, rows =>
      ∃ row, rows = [row] ∧
        Receives .lightningInvoiceSettled h "held_amount_msat" (.u64 amount.msat) row
  | .cancel h parked, rows =>
      ∃ row, rows = [row] ∧
        Receives .lightningInvoiceCanceled h "held_amount_msat" (optionalMsat parked) row
  -- Neither the send itself nor a new invoice is announced.
  | .pend _ _, rows | .issue _, rows => rows = []

/-- The books, with the outbox as their record. -/
def bookkeeping : Spec GatewayBooks (Move PaymentHash MilliSatoshi) OutboxEvent :=
  ⟨Books.step, Shows⟩

theorem shows_length {move : Move PaymentHash MilliSatoshi} {rows : List OutboxEvent}
    (h : Shows move rows) : rows.length ≤ 1 := by
  cases move with
  | pend | issue =>
      rw [show rows = [] from h]
      exact Nat.zero_le 1
  | _ =>
      obtain ⟨row, rfl, -⟩ := h
      exact le_rfl

/-! ### The database refines the books -/

def paymentState : Outgoing MilliSatoshi → PaymentState
  | .initiated _ => .initiated
  | .pending _ => .pending
  | .completed _ | .transferred _ => .completed
  | .failed _ => .failed

def paymentAmount : Outgoing MilliSatoshi → MilliSatoshi
  | .initiated amount | .pending amount | .completed amount | .failed amount
  | .transferred amount => amount

def invoiceState : Incoming MilliSatoshi → InvoiceState
  | .opened => .opened
  | .held _ => .held
  | .settled _ | .transferred => .settled
  | .canceled _ => .canceled

def heldAmount : Incoming MilliSatoshi → Option MilliSatoshi
  | .opened | .transferred => none
  | .held amount | .settled amount => some amount
  | .canceled parked => parked

inductive PaymentBooked : Option PaymentRow → Option (Outgoing MilliSatoshi) → Prop
  | absent : PaymentBooked none none
  | present {r : PaymentRow} {n : NewPayment} {entry : Outgoing MilliSatoshi} :
      PaymentLog n r.events (paymentState entry) → n.amountMsat = paymentAmount entry →
      PaymentBooked (some r) (some entry)

inductive InvoiceBooked : Option InvoiceRow → Option (Incoming MilliSatoshi) → Prop
  | absent : InvoiceBooked none none
  | present {r : InvoiceRow} {m : NewInvoice} {entry : Incoming MilliSatoshi} :
      InvoiceLog m r.events (invoiceState entry) (heldAmount entry) →
      InvoiceBooked (some r) (some entry)

/-- The tables say what the books say. -/
structure Mirrors (db : Db) (s : GatewayBooks) : Prop where
  payments : ∀ h, PaymentBooked (db.payments.lookup h) (s.outgoing h)
  invoices : ∀ h, InvoiceBooked (db.invoices.lookup h) (s.incoming h)

section
variable {db db' : Db} {s : GatewayBooks} {h : PaymentHash} {n : NewPayment} {m : NewInvoice}
variable {r : PaymentRow} {ri : InvoiceRow} {held : Option MilliSatoshi}

theorem Mirrors.empty : Mirrors Db.empty Books.empty :=
  ⟨fun _ => .absent, fun _ => .absent⟩

theorem Mirrors.unpaid (hs : Mirrors db s) (hnone : db.payments.lookup h = none) :
    s.outgoing h = none := by
  have hbooked := hs.payments h
  rw [hnone] at hbooked
  generalize s.outgoing h = entry at hbooked ⊢
  cases hbooked
  rfl

theorem Mirrors.unissued (hs : Mirrors db s) (hnone : db.invoices.lookup h = none) :
    s.incoming h = none := by
  have hbooked := hs.invoices h
  rw [hnone] at hbooked
  generalize s.incoming h = entry at hbooked ⊢
  cases hbooked
  rfl

/-- A payment whose log takes another event is live in the books. -/
theorem Mirrors.live {more : List PaymentEvent} {state : PaymentState} (hs : Mirrors db s)
    (hr : db.payments.lookup h = some r) (hlog : PaymentLog n (r.events ++ more) state)
    (hmore : more ≠ []) (hstate : state ≠ .reversed) : s.live h n.amountMsat := by
  have hbooked := hs.payments h
  rw [hr] at hbooked
  generalize hentry : s.outgoing h = entry at hbooked
  cases hbooked with
  | @present _ n₀ entry hlog₀ hamount =>
      have hsame : n.amountMsat = paymentAmount entry :=
        (hlog₀.origin_unique hlog).2.2.1.symm.trans hamount
      have hlive := hlog₀.live_prefix hlog hmore hstate
      rw [hsame]
      cases entry with
      | initiated amount => exact .inl hentry
      | pending amount => exact .inr hentry
      | completed | failed | transferred => rcases hlive with h | h <;> cases h

/-- A payment that becomes pending was announced and no more. -/
theorem Mirrors.initiated {t : Timestamp} (hs : Mirrors db s) (hr : db.payments.lookup h = some r)
    (hlog : PaymentLog n (r.events ++ [.pending t]) .pending) :
    s.outgoing h = some (.initiated n.amountMsat) := by
  refine (hs.live hr hlog (by simp) (by simp)).resolve_right fun hpending => ?_
  have hbooked := hs.payments h
  rw [hr, hpending] at hbooked
  cases hbooked with
  | present hlog₀ _ =>
      generalize hlonger : r.events ++ [PaymentEvent.pending t] = longer at hlog
      cases hlog with
      | pending t' hbefore =>
          obtain ⟨hsame, -⟩ := List.append_inj' hlonger rfl
          rw [hsame] at hlog₀
          cases hlog₀.replay.2.2.2.2.2.symm.trans hbefore.replay.2.2.2.2.2

/-- An invoice without an outcome is in the books as its log has it. -/
theorem Mirrors.waiting {state : InvoiceState} (hs : Mirrors db s)
    (hr : db.invoices.lookup h = some ri) (hlog : InvoiceLog m ri.events state held)
    (hstate : state = .opened ∨ state = .held) : s.incoming h = some (.waiting held) := by
  have hbooked := hs.invoices h
  rw [hr] at hbooked
  generalize hentry : s.incoming h = entry at hbooked
  cases hbooked with
  | @present _ m₀ entry hlog₀ =>
      obtain ⟨rfl, rfl⟩ := hlog₀.index_unique hlog
      cases entry with
      | opened | held => rfl
      | settled | canceled | transferred => rcases hstate with h | h <;> cases h

/-! ### One transaction is one move -/

/-- A write to a payment's row is booked under its hash. -/
theorem Mirrors.pay {entry : Outgoing MilliSatoshi} (hs : Mirrors db s)
    (hw : WritesPayment db db' h r) (hi : db'.invoices = db.invoices)
    (hlog : PaymentLog n r.events (paymentState entry)) (hamount : n.amountMsat = paymentAmount entry) :
    Mirrors db' (s.pay h entry) := by
  refine ⟨fun k => ?_, fun k => hi ▸ hs.invoices k⟩
  rcases eq_or_ne k h with rfl | hne
  · rw [hw.at, Books.pay_outgoing, Function.update_self]
    exact .present hlog hamount
  · rw [hw.other hne, Books.pay_outgoing, Function.update_of_ne hne]
    exact hs.payments k

theorem Mirrors.receive {entry : Incoming MilliSatoshi} (hs : Mirrors db s)
    (hw : WritesInvoice db db' h ri) (hp : db'.payments = db.payments)
    (hlog : InvoiceLog m ri.events (invoiceState entry) (heldAmount entry)) :
    Mirrors db' (s.receive h entry) := by
  refine ⟨fun k => hp ▸ hs.payments k, fun k => ?_⟩
  rcases eq_or_ne k h with rfl | hne
  · rw [hw.at, Books.receive_incoming, Function.update_self]
    exact .present hlog
  · rw [hw.other hne, Books.receive_incoming, Function.update_of_ne hne]
    exact hs.invoices k

end

section
variable {g : Deployment} {entry : Entry} {past : Calls} {db db' : Db} {b : Transaction}
variable {s : GatewayBooks}

theorem ledgerStep_moves (hb : LedgerStep g entry past db db' b) (hs : Mirrors db s) :
    ∃ move t rows, s.step move = some t ∧ Shows move rows ∧ db'.outbox = db.outbox ++ rows ∧
      Mirrors db' t := by
  cases hb with
  | @intent n e r hsite hnone hev _ hw hi hpub =>
      obtain ⟨request, utcNow, -, -, rfl, -⟩ := hsite
      refine ⟨.initiate n.paymentHash n.amountMsat, _, _, if_pos (hs.unpaid hnone),
        ⟨_, rfl, describes_row rfl rfl rfl, rfl⟩, hpub.1, hs.pay hw hi ?_ rfl⟩
      rw [hev]
      exact .initiated
  | @pending p h n r t _ hr hlog _ _ hw hi hsil =>
      exact ⟨.pend h n.amountMsat, _, [], if_pos (hs.initiated hr hlog), rfl,
        hsil.1.trans (List.append_nil _).symm, hs.pay hw hi hlog rfl⟩
  | @completed p h n r before preimage fees hops t utcNow _ hr _ hlog _ _ hw hi hpub =>
      exact ⟨.complete h n.amountMsat, _, _, if_pos (hs.live hr hlog (by simp) nofun),
        ⟨_, rfl, describes_row rfl rfl rfl, rfl⟩, hpub.1, hs.pay hw hi hlog rfl⟩
  | @failed p h n r before reason t utcNow _ hr _ hlog _ _ hw hi hpub =>
      exact ⟨.fail h n.amountMsat, _, _, if_pos (hs.live hr hlog (by simp) nofun),
        ⟨_, rfl, describes_row rfl rfl rfl, rfl⟩, hpub.1, hs.pay hw hi hlog rfl⟩
  | @transfer n m preimage t recipient e r ri hsite hnone hev _ hw hri hlog _ _ hwi hpub =>
      obtain ⟨-, -, -, -, ⟨utcNow, rfl⟩, -⟩ := hsite
      have hopened : s.incoming n.paymentHash = some .opened := hs.waiting hri hlog (.inl rfl)
      refine ⟨.transfer n.paymentHash n.amountMsat, _, _, if_pos ⟨hs.unpaid hnone, hopened⟩,
        ⟨_, rfl, describes_row rfl rfl rfl, rfl⟩, hpub.1, ?_⟩
      -- The two tables are written in one transaction, and booked one after the other.
      have hpaid : Mirrors { db' with invoices := db.invoices }
          (s.pay n.paymentHash (.transferred n.amountMsat)) := by
        refine hs.pay hw rfl ?_ rfl
        rw [hev]
        exact .completed t preimage .zero [] (.inl rfl) .initiated
      exact hpaid.receive hwi rfl (.settledIntraledger t hlog)
  | @createInvoice n r _ hnone hev hw hp hsil =>
      have hlog : InvoiceLog n r.events .opened none := hev ▸ .created
      exact ⟨.issue n.paymentHash, _, [], if_pos (hs.unissued hnone), rfl,
        hsil.1.trans (List.append_nil _).symm, hs.receive hw hp hlog⟩
  | @held i h m r amount walletId t utcNow _ hr hlog _ _ hw hp hpub =>
      exact ⟨.hold h amount, _, _, if_pos (hs.waiting hr hlog (.inl rfl)),
        ⟨_, rfl, rfl, rfl, rfl⟩, hpub.1, hs.receive hw hp (.htlcHeld t amount hlog)⟩
  | @settled i h m r amount heldAmount walletId externalId t utcNow _ hr hlog _ _ hw hp hpub =>
      exact ⟨.settle h heldAmount, _, _, if_pos (hs.waiting hr hlog (.inr rfl)),
        ⟨_, rfl, rfl, rfl, rfl⟩, hpub.1, hs.receive hw hp (.settled t hlog)⟩
  | @canceled i h m r state held amount walletId t utcNow _ hr hlog hstate _ _ hw hp hpub =>
      exact ⟨.cancel h held, _, _, if_pos (hs.waiting hr hlog hstate),
        ⟨_, rfl, rfl, rfl, rfl⟩, hpub.1, hs.receive hw hp (.canceled t .expired hstate hlog)⟩

end

theorem recorded_run {g : Deployment} {D : Discipline (gateway g)} {es : List (Event (gateway g))}
    {s : Pool (gateway g)} (hrun : Runs D (boot g) es s) :
    ∃ t, bookkeeping.Traces .empty s.world.db.outbox t ∧ Mirrors s.world.db t := by
  refine (ledger_invariant D
    (I := fun db _ => ∃ t, bookkeeping.Traces .empty db.outbox t ∧ Mirrors db t)
    ⟨.empty, .refl, .empty⟩ (fun _ _ _ _ _ _ hb _ ⟨t, htrace, hmirrors⟩ => ?_)
    (fun _ _ ⟨t, htrace, hmirrors⟩ => ⟨t, htrace, hmirrors.payments, hmirrors.invoices⟩) hrun).2
  obtain ⟨move, u, rows, hstep, hshows, houtbox, hmirrors'⟩ := ledgerStep_moves hb hmirrors
  exact ⟨u, houtbox ▸ .move htrace hstep hshows, hmirrors'⟩

/-! ### The accounts of a consumer -/

/-- What a consumer of the outbox keeps about one reference. -/
structure Account where
  /-- The last report on the outgoing payment, with its amount. -/
  outgoing : Option (GatewayDomainEvent × ℤ)
  /-- The last report on the incoming payment. -/
  incoming : Option GatewayDomainEvent
  /-- The millisatoshis reserved for the incoming payment. -/
  reserved : ℤ
deriving DecidableEq

abbrev Accounts := String → Account

def Accounts.empty : Accounts := fun _ => ⟨none, none, 0⟩

/-- The amount in a field of the metadata; null is no amount. -/
def amountIn (row : OutboxEvent) (field : String) : ℤ :=
  match row.gatewayMetadata.get? field with
  | some (.num amount) => amount
  | _ => 0

def Account.post (account : Account) (row : OutboxEvent) : Account :=
  match row.domainEvent with
  | .lightningHtlcHeld =>
      { account with
        incoming := some row.domainEvent
        reserved := account.reserved + amountIn row "amt_paid_msat" }
  | .lightningInvoiceSettled | .lightningInvoiceCanceled =>
      { account with
        incoming := some row.domainEvent
        reserved := account.reserved - amountIn row "held_amount_msat" }
  | .lightningPaymentInitiated | .lightningPaymentCompleted | .lightningPaymentFailed
  | .lightningPaymentReversed | .lightningIntraledgerTransferCompleted =>
      { account with outgoing := some (row.domainEvent, row.amountSat) }

def Accounts.post (accounts : Accounts) (row : OutboxEvent) : Accounts :=
  Function.update accounts row.referenceId ((accounts row.referenceId).post row)

def reportOf : Outgoing MilliSatoshi → GatewayDomainEvent
  | .initiated _ | .pending _ => .lightningPaymentInitiated
  | .completed _ => .lightningPaymentCompleted
  | .failed _ => .lightningPaymentFailed
  | .transferred _ => .lightningIntraledgerTransferCompleted

def receiptOf : Incoming MilliSatoshi → Option GatewayDomainEvent
  | .opened | .transferred => none
  | .held _ => some .lightningHtlcHeld
  | .settled _ => some .lightningInvoiceSettled
  | .canceled _ => some .lightningInvoiceCanceled

def reservedFor : Option (Incoming MilliSatoshi) → ℤ
  | some (.held amount) => amount.msat.toNat
  | _ => 0

/-- The account that the books call for. -/
def accountOf (s : GatewayBooks) (h : PaymentHash) : Account where
  outgoing := (s.outgoing h).map fun entry =>
    (reportOf entry, ((paymentAmount entry).msat.toNat / 1000 : ℕ))
  incoming := (s.incoming h).bind receiptOf
  reserved := reservedFor (s.incoming h)

def Agrees (accounts : Accounts) (s : GatewayBooks) : Prop :=
  ∀ h : PaymentHash, accounts h.toHex = accountOf s h

section
variable {accounts : Accounts} {s t : GatewayBooks} {h : PaymentHash} {row : OutboxEvent}

theorem Agrees.post (ha : Agrees accounts s) (href : row.referenceId = h.toHex)
    (hother : ∀ k, k ≠ h → accountOf t k = accountOf s k)
    (hself : (accountOf s h).post row = accountOf t h) : Agrees (accounts.post row) t := by
  intro k
  rcases eq_or_ne k h with rfl | hne
  · rw [Accounts.post, href, Function.update_self, ha k, hself]
  · rw [Accounts.post, href, Function.update_of_ne (PaymentHash.toHex_injective.ne hne), ha k,
      hother k hne]

/-- A report on an outgoing payment. -/
theorem Agrees.pay {entry : Outgoing MilliSatoshi} (ha : Agrees accounts s)
    (hrow : Pays (reportOf entry) h (paymentAmount entry) row) :
    Agrees (accounts.post row) (s.pay h entry) := by
  refine ha.post hrow.referenceId (fun k hne => ?_) ?_
  · simp [accountOf, hne]
  · cases entry <;> simp [accountOf, Account.post, hrow.domainEvent, hrow.amountSat, reportOf]

theorem Agrees.receive {entry : Incoming MilliSatoshi} (ha : Agrees accounts s)
    (href : row.referenceId = h.toHex) (hself : (accountOf s h).post row =
      ⟨(accountOf s h).outgoing, receiptOf entry, reservedFor (some entry)⟩) :
    Agrees (accounts.post row) (s.receive h entry) := by
  refine ha.post href (fun k hne => ?_) (hself.trans ?_)
  · simp [accountOf, hne]
  · simp [accountOf]

/-- A move that shows nothing, because no account can tell. -/
theorem Agrees.silent (ha : Agrees accounts s) (hsame : ∀ k, accountOf t k = accountOf s k) :
    Agrees accounts t := fun k => (ha k).trans (hsame k).symm

theorem accountOf_pend {amount : MilliSatoshi} (hinitiated : s.outgoing h = some (.initiated amount))
    (k : PaymentHash) : accountOf (s.pay h (.pending amount)) k = accountOf s k := by
  rcases eq_or_ne k h with rfl | hne
  · simp [accountOf, hinitiated, reportOf, paymentAmount]
  · simp [accountOf, hne]

/-- An invoice is not announced when it is opened, nor when it is settled by a transfer. -/
theorem accountOf_quiet {entry : Incoming MilliSatoshi}
    (hbefore : s.incoming h = none ∨ s.incoming h = some .opened) (hentry : receiptOf entry = none)
    (k : PaymentHash) : accountOf (s.receive h entry) k = accountOf s k := by
  rcases eq_or_ne k h with rfl | hne
  · cases entry with
    | opened | transferred =>
        rcases hbefore with hbefore | hbefore <;> simp [accountOf, hbefore, receiptOf, reservedFor]
    | held | settled | canceled => cases hentry
  · simp [accountOf, hne]

theorem agrees_step {move : Move PaymentHash MilliSatoshi} {rows : List OutboxEvent}
    (hstep : s.step move = some t) (hshows : Shows move rows) (ha : Agrees accounts s) :
    Agrees (rows.foldl Accounts.post accounts) t := by
  cases move with
  | initiate h amount | complete h amount | fail h amount =>
      obtain ⟨-, rfl⟩ := Option.ite_none_right_eq_some.mp hstep |>.imp_right Option.some.inj
      obtain ⟨row, rfl, hrow⟩ := hshows
      exact ha.pay hrow
  | pend h amount =>
      obtain ⟨hinitiated, rfl⟩ :=
        Option.ite_none_right_eq_some.mp hstep |>.imp_right Option.some.inj
      cases hshows
      exact ha.silent (accountOf_pend hinitiated)
  | transfer h amount =>
      obtain ⟨⟨-, hopened⟩, rfl⟩ :=
        Option.ite_none_right_eq_some.mp hstep |>.imp_right Option.some.inj
      obtain ⟨row, rfl, hrow⟩ := hshows
      have hpaid : Agrees (accounts.post row) (s.pay h (.transferred amount)) := ha.pay hrow
      exact hpaid.silent (accountOf_quiet (.inr hopened) rfl)
  | issue h =>
      obtain ⟨hnone, rfl⟩ := Option.ite_none_right_eq_some.mp hstep |>.imp_right Option.some.inj
      cases hshows
      exact ha.silent (accountOf_quiet (.inl hnone) rfl)
  | hold h amount =>
      obtain ⟨hopened, rfl⟩ :=
        Option.ite_none_right_eq_some.mp hstep |>.imp_right Option.some.inj
      obtain ⟨row, rfl, hrow⟩ := hshows
      refine ha.receive hrow.referenceId ?_
      simp [accountOf, Account.post, hrow.domainEvent, amountIn, hrow.amount, hopened, receiptOf,
        reservedFor, Json.u64]
  | settle h amount =>
      obtain ⟨hheld, rfl⟩ := Option.ite_none_right_eq_some.mp hstep |>.imp_right Option.some.inj
      obtain ⟨row, rfl, hrow⟩ := hshows
      refine ha.receive hrow.referenceId ?_
      simp [accountOf, Account.post, hrow.domainEvent, amountIn, hrow.amount, hheld, receiptOf,
        reservedFor, Json.u64]
  | cancel h parked =>
      obtain ⟨hwaiting, rfl⟩ :=
        Option.ite_none_right_eq_some.mp hstep |>.imp_right Option.some.inj
      obtain ⟨row, rfl, hrow⟩ := hshows
      refine ha.receive hrow.referenceId ?_
      cases parked <;>
        simp [accountOf, Account.post, hrow.domainEvent, amountIn, hrow.amount, hwaiting,
          Incoming.waiting, receiptOf, reservedFor, optionalMsat, Json.u64]

end

theorem agrees_empty : Agrees Accounts.empty .empty := fun _ => rfl

/-! ### What a consumer knows -/

/-- What the database hands out under a hash is what the books have under it. -/
def ReadsAs (db : Db) (s : GatewayBooks) (h : PaymentHash) : Prop :=
  (match s.outgoing h with
    | none => Payments.findByPaymentHash db h = .error .notFound
    | some entry => ∃ p, Payments.findByPaymentHash db h = .ok p ∧
        p.state = paymentState entry ∧ p.amountMsat = paymentAmount entry) ∧
  match s.incoming h with
    | none => Invoices.findByPaymentHash db h = .error .notFound
    | some entry => ∃ i, Invoices.findByPaymentHash db h = .ok i ∧
        i.state = invoiceState entry ∧ i.heldAmountMsat = heldAmount entry

theorem Mirrors.readsAs {db : Db} {s : GatewayBooks} (hs : Mirrors db s) (h : PaymentHash) :
    ReadsAs db s h := by
  have hp := hs.payments h
  have hi := hs.invoices h
  constructor
  · unfold Payments.findByPaymentHash
    generalize db.payments.lookup h = row, s.outgoing h = entry at hp
    cases hp with
    | absent => rfl
    | @present r n entry hlog hamount =>
        obtain ⟨p, hhydrate, -, -, hstate, htracks⟩ := PaymentLogs.hydrate_log r.id hlog
        exact ⟨p, hhydrate, hstate, htracks.amountMsat.trans hamount⟩
  · unfold Invoices.findByPaymentHash
    generalize db.invoices.lookup h = row, s.incoming h = entry at hi
    cases hi with
    | absent => rfl
    | @present r m entry hlog =>
        obtain ⟨i, hhydrate, -, -, hstate, hheld, -⟩ := InvoiceLogs.hydrate_log r.id hlog
        exact ⟨i, hhydrate, hstate, hheld⟩

/-- In every run of the gateway the outbox is the record of a run of the books, and the
database reads as the books that this run ends in. A consumer that has read the rows up to
any point has the accounts that the books called for at an earlier time; the rows it has not
read yet lead from there to the books of now, and revoke no outcome. -/
theorem outbox_records_books (g : Deployment) (D : Discipline (gateway g))
    (es : List (Event (gateway g))) (s : Pool (gateway g)) (hrun : Runs D (boot g) es s) :
    ∃ books : GatewayBooks, books.Paired ∧ (∀ h, ReadsAs s.world.db books h) ∧
      ∀ seen rest, s.world.db.outbox = seen ++ rest →
        ∃ earlier : GatewayBooks, bookkeeping.Traces .empty seen earlier ∧
          Agrees (seen.foldl Accounts.post Accounts.empty) earlier ∧
          bookkeeping.Traces earlier rest books ∧ earlier.Kept books := by
  obtain ⟨books, htrace, hmirrors⟩ := recorded_run hrun
  refine ⟨books, htrace.invariant (fun _ _ _ hstep hs => hs.step hstep) Books.paired_empty,
    hmirrors.readsAs, fun seen rest houtbox => ?_⟩
  obtain ⟨earlier, hseen, hrest⟩ := htrace.cut (fun _ _ => shows_length) seen rest houtbox
  exact ⟨earlier, hseen, hseen.replay (fun _ _ _ _ _ => agrees_step) agrees_empty, hrest,
    hrest.invariant (fun _ _ _ hstep hs => hs.trans (Books.step_kept hstep)) (.refl earlier)⟩

/-- An invoice is paid and canceled, and a consumer has read the first row about it. -/
def halfRead : List (Event (gateway Sample.deployment)) :=
  Sample.issueInvoice 0 ++
    [.spawn (.handleInvoiceUpdate (Sample.invoiceUpdate .accepted 250000999)),
      .step 1 (.served Sample.noon), .step 1 (.clock Sample.noon), .step 1 (.clock Sample.noon),
      .step 1 (.served Sample.noon),
      .spawn (.handleInvoiceUpdate (Sample.invoiceUpdate .canceled 0)),
      .step 2 (.served Sample.noon), .step 2 (.clock Sample.noon), .step 2 (.clock Sample.noon),
      .step 2 (.clock Sample.noon), .step 2 (.served Sample.noon)]

theorem outbox_records_books_read :
    ∃ s row rest, Runs {} (boot Sample.deployment) halfRead s ∧
      s.world.db.outbox = row :: rest ∧ rest.length = 1 ∧
      ∃ earlier books : GatewayBooks, bookkeeping.Traces earlier rest books ∧
        accountOf earlier Sample.hash = ⟨none, some .lightningHtlcHeld, 250000999⟩ ∧
        ReadsAs s.world.db books Sample.hash := by
  obtain ⟨s, hrun, hs⟩ := exists_run_of_play {} (boot Sample.deployment) halfRead
    (fun s => match s.world.db.outbox with
      | row :: rest => rest.length = 1 ∧ Accounts.empty.post row Sample.hash.toHex =
          ⟨none, some .lightningHtlcHeld, 250000999⟩
      | [] => false) (by decide +kernel)
  cases houtbox : s.world.db.outbox with
  | nil =>
      rw [houtbox] at hs
      cases hs
  | cons row rest =>
      rw [houtbox] at hs
      obtain ⟨hlength, haccount⟩ := of_decide_eq_true hs
      obtain ⟨books, -, hreads, hcut⟩ :=
        outbox_records_books Sample.deployment {} halfRead s hrun
      obtain ⟨earlier, -, hagrees, hrest, -⟩ := hcut [row] rest houtbox
      exact ⟨s, row, rest, hrun, houtbox, hlength, earlier, books, hrest,
        (hagrees Sample.hash).symm.trans haccount, hreads Sample.hash⟩

end LightningGateway.LedgerRefinement
