import LightningGateway.HoldInvoices

/-!
# Who pays for a transfer

Symphony takes the payment hash as the key of an authorization: the first request
with the key debits its account, and a later one is handed the same authorization.
The key does not name the sender. Two wallets that pay the same invoice can both be
told that they are authorized, and the one that was not debited can be the one whose
local transaction goes through; the payment and the row that reports it then name the
wrong payer. Where no second wallet is authorized for an invoice before its payment
is on record, the recorded payer is the one that was debited.
-/
namespace LightningGateway.TransferPayers
open Primitives EventTables EffectPrograms TaskPools PaymentAggregate InvoiceAggregate OutboxRows
open LndWire SymphonyWire GatewayStore StoreSpecs GatewayEffects PeerCalls PaymentFlows
open GatewayMachine CallSites GatewayInvariant SpendGate IntraledgerTransfers HoldInvoices

/-- The account that Symphony has debited under the key of `h`. -/
def debited (w : World) (h : PaymentHash) : Option AccountRef :=
  (w.authorized.find? fun r => r.idempotencyKey = h.toHex).map WireAuthorizeRequest.account

def walletAccount (walletId : WalletId) : AccountRef := ⟨.walletLiability, walletId.toText⟩

/-- Symphony acts on what it approves. -/
def posts (g : Deployment) : Discipline (gateway g) where
  call _ o c _ :=
    match o, c with
    | .authorizeSpend _, .symphony posted r => !approves r || posted
    | _, _ => true

/-- A payment is on record whose hash is the key. -/
def onRecord (db : Db) (key : String) : Bool := db.payments.rows.any fun r => r.key.toHex = key

/-- Symphony acts on a request only when it has acted on no other account's request
with the same key, unless the payment is on record already. -/
def oneSender (g : Deployment) : Discipline (gateway g) where
  call _ o c w :=
    match o, c with
    | .authorizeSpend r, .symphony true _ => onRecord w.db r.idempotencyKey ||
        w.authorized.all fun q => q.idempotencyKey ≠ r.idempotencyKey ∨ q.account = r.account
    | _, _ => true

section
variable {g : Deployment} {entry : Entry} {past : Calls} {w w' : World} {c : Choice}
variable {ps : List (Past (gateway g))} {h : PaymentHash} {db db' : Db}

theorem onRecord_iff : onRecord db h.toHex = true ↔ ∃ r, db.payments.lookup h = some r := by
  unfold onRecord
  constructor
  · intro hr
    obtain ⟨r, hmem, hkey⟩ := List.any_eq_true.mp hr
    have hk : r.key = h := PaymentHash.toHex_inj.mp (of_decide_eq_true hkey)
    exact ⟨r, hk ▸ Table.lookup_of_mem hmem⟩
  · rintro ⟨r, hr⟩
    refine List.any_eq_true.mpr ⟨r, Table.lookup_mem hr, decide_eq_true ?_⟩
    rw [Table.lookup_key hr]

/-- Whoever was debited first stays debited. -/
theorem debited_append {a : AccountRef} {more : List WireAuthorizeRequest}
    (hd : debited w h = some a) (hw : w'.authorized = w.authorized ++ more) :
    debited w' h = some a := by
  obtain ⟨r, hr, ha⟩ := Option.map_eq_some_iff.mp hd
  rw [debited, hw, List.find?_append, hr]
  exact congrArg some ha

/-! ### The invariant -/

/-- A row that reports a transfer names the payer on record. -/
def NamesPayer (db : Db) (row : OutboxEvent) : Prop :=
  row.domainEvent = .lightningIntraledgerTransferCompleted →
    ∃ h r, row.referenceId = h.toHex ∧ db.payments.lookup h = some r ∧
      row.gatewayMetadata.get? "sender_wallet_id" = some (.str r.cols.walletId.toText)

structure Charged (w : World) (ps : List (Past (gateway g))) : Prop where
  /-- An approved request is one that Symphony has acted on. -/
  posted : ∀ p ∈ ps, ∀ r a, Answered p.calls (.authorizeSpend r) (.ok a) →
    a.authorized = true → r ∈ w.authorized
  /-- Until a payment is on record, one account alone was authorized for it. -/
  single : ∀ h, w.db.payments.lookup h = none → ∀ q ∈ w.authorized, ∀ r ∈ w.authorized,
    q.idempotencyKey = h.toHex → r.idempotencyKey = h.toHex → q.account = r.account
  transferred : ∀ h ri, w.db.invoices.lookup h = some ri →
    ri.events.any InvoiceEvent.isSettledIntraledger = true →
    ∃ r, w.db.payments.lookup h = some r ∧ r.events.any PaymentEvent.isCompleted = true ∧
      debited w h = some (walletAccount r.cols.walletId)
  rows : ∀ row ∈ w.db.outbox, NamesPayer w.db row

theorem NamesPayer.grows {row : OutboxEvent} (hn : NamesPayer db row)
    (hgrow : db.payments.Extends db'.payments) : NamesPayer db' row := by
  intro hkind
  obtain ⟨h, r, href, hr, hmeta⟩ := hn hkind
  obtain ⟨r', hr', -, hcols, -⟩ := hgrow h r hr
  exact ⟨h, r', href, hr', by rw [hcols]; exact hmeta⟩

/-- The account a transfer's sender was authorized under is the one debited. -/
theorem debited_of_approved (hI : Charged w ps) {p : Past (gateway g)} (hp : p ∈ ps)
    {n : NewPayment} {i : Invoice} (hnone : w.db.payments.lookup n.paymentHash = none)
    (happ : Approved p.calls (journalFor n i)) :
    debited w n.paymentHash = some (walletAccount n.walletId) := by
  obtain ⟨a, resp, ha, hread, hst⟩ := happ
  obtain ⟨wire, rfl, hwire⟩ := readAuthorize_approved hread hst
  have hmem := hI.posted p hp _ wire ha hwire
  have hkey : (toWire (journalFor n i)).idempotencyKey = n.paymentHash.toHex := rfl
  cases hf : w.authorized.find? fun r => r.idempotencyKey = n.paymentHash.toHex with
  | none =>
      have habsent := List.find?_eq_none.mp hf _ hmem
      exact absurd (decide_eq_true hkey) habsent
  | some q =>
      have hq : q.idempotencyKey = n.paymentHash.toHex := by simpa using List.find?_some hf
      have hsame := hI.single _ hnone q (List.mem_of_find?_eq_some hf) _ hmem hq hkey
      rw [debited, hf]
      exact congrArg some hsame

/-- Only a transfer settles an invoice in-ledger or publishes a row about it. -/
theorem transfer_or_old {b : Transaction} (hb : LedgerStep g entry past db db' b) :
    (∃ n preimage t i e, b = .transfer n preimage t i e) ∨
      ((∀ h ri, db'.invoices.lookup h = some ri →
        ri.events.any InvoiceEvent.isSettledIntraledger = true →
        ∃ ri₀, db.invoices.lookup h = some ri₀ ∧
          ri₀.events.any InvoiceEvent.isSettledIntraledger = true) ∧
      ∀ row ∈ db'.outbox, row.domainEvent = .lightningIntraledgerTransferCompleted →
        row ∈ db.outbox) := by
  -- A row of another kind is not the one that was published.
  have published : ∀ {e : NewOutboxEvent}, Publishes db db' e →
      e.domainEvent ≠ .lightningIntraledgerTransferCompleted →
      ∀ row ∈ db'.outbox, row.domainEvent = .lightningIntraledgerTransferCompleted →
        row ∈ db.outbox := by
    intro e hpub hne row hrow hkind
    rw [hpub.1] at hrow
    rcases List.mem_append.mp hrow with hrow | hrow
    · exact hrow
    · obtain rfl := List.mem_singleton.mp hrow
      exact absurd hkind hne
  -- An event of another kind leaves the settlement where it was.
  have grown : ∀ {k : PaymentHash} {r : InvoiceRow} {state : String} {new : InvoiceEvent},
      WritesInvoice db db' k (r.grow state [new]) → db.invoices.lookup k = some r →
      new.isSettledIntraledger = false → ∀ h ri, db'.invoices.lookup h = some ri →
        ri.events.any InvoiceEvent.isSettledIntraledger = true →
        ∃ ri₀, db.invoices.lookup h = some ri₀ ∧
          ri₀.events.any InvoiceEvent.isSettledIntraledger = true := by
    intro k r state new hw hr hnew h ri hri hany
    rcases writesInvoice_cases hw hri with ⟨rfl, rfl⟩ | hri
    · refine ⟨r, hr, ?_⟩
      simpa [Row.grow, hnew] using hany
    · exact ⟨ri, hri, hany⟩
  cases hb with
  | @intent n e r hsite _ _ _ _ hi hpub =>
      obtain ⟨request, utcNow, -, -, rfl, -⟩ := hsite
      exact .inr ⟨fun h ri hri hany => ⟨ri, hi ▸ hri, hany⟩, published hpub (by rintro ⟨⟩)⟩
  | pending _ _ _ _ _ _ hi hsil =>
      refine .inr ⟨fun h ri hri hany => ⟨ri, hi ▸ hri, hany⟩, fun row hrow _ => ?_⟩
      exact hsil.1 ▸ hrow
  | completed _ _ _ _ _ _ _ hi hpub | failed _ _ _ _ _ _ _ hi hpub =>
      exact .inr ⟨fun h ri hri hany => ⟨ri, hi ▸ hri, hany⟩, published hpub (by rintro ⟨⟩)⟩
  | transfer => exact .inl ⟨_, _, _, _, _, rfl⟩
  | createInvoice _ _ hev hw _ hsil =>
      refine .inr ⟨fun h ri hri hany => ?_, fun row hrow _ => hsil.1 ▸ hrow⟩
      rcases writesInvoice_cases hw hri with ⟨rfl, rfl⟩ | hri
      · rw [hev] at hany
        cases hany
      · exact ⟨ri, hri, hany⟩
  | held _ hri _ _ _ hw _ hpub => exact .inr ⟨grown hw hri rfl, published hpub (by rintro ⟨⟩)⟩
  | settled _ hri _ _ _ hw _ hpub => exact .inr ⟨grown hw hri rfl, published hpub (by rintro ⟨⟩)⟩
  | canceled _ hri _ _ _ _ hw _ hpub => exact .inr ⟨grown hw hri rfl, published hpub (by rintro ⟨⟩)⟩

/-- A committed transaction keeps the facts about transfers. -/
theorem Charged.ledger {b : Transaction} (hI : Charged w ps)
    (hp : (⟨entry, past⟩ : Past (gateway g)) ∈ ps)
    (hb : LedgerStep g entry past w.db db' b) (hgrow : Grows w.db db') :
    (∀ h ri, db'.invoices.lookup h = some ri →
      ri.events.any InvoiceEvent.isSettledIntraledger = true →
      ∃ r, db'.payments.lookup h = some r ∧ r.events.any PaymentEvent.isCompleted = true ∧
        debited w h = some (walletAccount r.cols.walletId)) ∧
    ∀ row ∈ db'.outbox, NamesPayer db' row := by
  have kept : ∀ {h ri}, w.db.invoices.lookup h = some ri →
      ri.events.any InvoiceEvent.isSettledIntraledger = true →
      ∃ r, db'.payments.lookup h = some r ∧ r.events.any PaymentEvent.isCompleted = true ∧
        debited w h = some (walletAccount r.cols.walletId) := by
    intro h ri hri hany
    obtain ⟨r, hr, hcompleted, hd⟩ := hI.transferred h ri hri hany
    obtain ⟨r', hr', -, hcols, hprefix⟩ := hgrow.1 h r hr
    obtain ⟨x, hx, hxc⟩ := List.any_eq_true.mp hcompleted
    refine ⟨r', hr', List.any_eq_true.mpr ⟨x, hprefix.subset hx, hxc⟩, ?_⟩
    rw [hcols]
    exact hd
  rcases transfer_or_old hb with ⟨n, preimage, t, i, e, rfl⟩ | ⟨hold, hrows⟩
  · cases hb with
    | @transfer _ m _ _ _ _ r ri hsite hnone hev hcol hw hri hlog hm hpre hwi hpub =>
        obtain ⟨-, happ, -, -, ⟨utcNow, rfl⟩, -⟩ := hsite
        constructor
        · intro h ri' hri' hany
          rcases writesInvoice_cases hwi hri' with ⟨rfl, -⟩ | hri'
          · refine ⟨r, hw.at, by rw [hev]; rfl, ?_⟩
            rw [hcol]
            exact debited_of_approved hI hp hnone happ
          · exact kept hri' hany
        · intro row hrow
          rw [hpub.1] at hrow
          rcases List.mem_append.mp hrow with hrow | hrow
          · exact (hI.rows row hrow).grows hgrow.1
          · obtain rfl := List.mem_singleton.mp hrow
            intro _
            refine ⟨n.paymentHash, r, rfl, hw.at, ?_⟩
            rw [hcol]
            rfl
  · constructor
    · intro h ri hri hany
      obtain ⟨ri₀, hri₀, hany₀⟩ := hold h ri hri hany
      exact kept hri₀ hany₀
    · intro row hrow hkind
      exact ((hI.rows row (hrows row hrow hkind)).grows hgrow.1) hkind

theorem Charged.call {o : Op} {a : o.Ans} {i : ℕ} (hI : Charged w ps) (hs : Sane g w ps)
    (hi : ps[i]? = some ⟨entry, past⟩) (hj : Justified g entry past o)
    (hpost : (posts g).call ⟨entry, past⟩ o c w = true)
    (hone : (oneSender g).call ⟨entry, past⟩ o c w = true)
    (hx : exec g.crates o c w = some (a, w')) :
    Charged w' (ps.set i ⟨entry, past ++ [⟨o, a⟩]⟩) := by
  have hmem := List.mem_of_getElem? hi
  have hpast := hs.calls _ hmem
  have hgrow := exec_grows hs.db hpast hj hx
  obtain ⟨more, hmore⟩ : ∃ more, w'.authorized = w.authorized ++ more := by
    rcases exec_authorized hx with ha | ⟨r, -, ha⟩
    · exact ⟨[], by rw [ha, List.append_nil]⟩
    · exact ⟨[r], ha⟩
  have hledger : (∀ h ri, w'.db.invoices.lookup h = some ri →
      ri.events.any InvoiceEvent.isSettledIntraledger = true →
      ∃ r, w'.db.payments.lookup h = some r ∧ r.events.any PaymentEvent.isCompleted = true ∧
        debited w h = some (walletAccount r.cols.walletId)) ∧
      ∀ row ∈ w'.db.outbox, NamesPayer w'.db row := by
    obtain ⟨b, db', -, hb, hg, rfl⟩ | ⟨hdb, -⟩ := commit_or_frame hs.db hpast hj hx
    · exact hI.ledger hmem hb hg
    · rw [hdb]
      exact ⟨hI.transferred, hI.rows⟩
  constructor
  · have old : ∀ r ∈ w.authorized, r ∈ w'.authorized := by
      intro r hr
      rw [hmore]
      exact List.mem_append_left _ hr
    refine pasts_call hi (fun p hp r resp hans hok => old r (hp r resp hans hok))
      (fun hold r resp hans hok => ?_) hI.posted
    rcases List.mem_append.mp hans with hans | hans
    · exact old r (hold r resp hans hok)
    · -- The call itself: what Symphony approves it acts on.
      cases List.mem_singleton.mp hans
      cases c with
      | symphony posted answer =>
          cases hx
          have hposted : posted = true := by simpa [posts, approves, hok] using hpost
          simp [hposted]
      | _ => cases hx
  · intro h hnone q hq r hr hkq hkr
    have hnone₀ : w.db.payments.lookup h = none := by
      cases hl : w.db.payments.lookup h with
      | none => rfl
      | some row =>
          obtain ⟨row', hrow', -⟩ := hgrow.1 h row hl
          cases hnone.symm.trans hrow'
    rcases exec_authorized hx with ha | ⟨r', rfl, ha⟩
    · rw [ha] at hq hr
      exact hI.single h hnone₀ q hq r hr hkq hkr
    · cases c with
      | symphony posted answer =>
          cases hx
          cases posted with
          | false =>
              exact hI.single h hnone₀ q hq r hr hkq hkr
          | true =>
              -- Nobody else was authorized for a payment that is not on record.
              have hall : onRecord w.db h.toHex = false := by
                rw [Bool.eq_false_iff]
                intro hrec
                obtain ⟨row, hrow⟩ := onRecord_iff.mp hrec
                cases hnone₀.symm.trans hrow
              have hsame : ∀ x ∈ w.authorized, r'.idempotencyKey = h.toHex →
                  x.idempotencyKey = h.toHex → x.account = r'.account := by
                intro x hx hk' hkx
                simp only [oneSender, hk', hall, Bool.false_or, List.all_eq_true,
                  decide_eq_true_eq] at hone
                exact (hone x hx).resolve_left fun hne => hne hkx
              rcases List.mem_append.mp hq with hq' | hq' <;>
                rcases List.mem_append.mp hr with hr' | hr'
              · exact hI.single h hnone₀ q hq' r hr' hkq hkr
              · rw [List.mem_singleton.mp hr'] at hkr ⊢
                exact hsame q hq' hkr hkq
              · rw [List.mem_singleton.mp hq'] at hkq ⊢
                exact (hsame r hr' hkq hkr).symm
              · rw [List.mem_singleton.mp hq', List.mem_singleton.mp hr']
      | _ => cases hx
  · intro h ri hri hany
    obtain ⟨r, hr, hcompleted, hd⟩ := hledger.1 h ri hri hany
    exact ⟨r, hr, hcompleted, debited_append hd hmore⟩
  · exact hledger.2

theorem Charged.env {x : Env} (hI : Charged w ps) (hx : env x w = some w') : Charged w' ps := by
  obtain ⟨hp, hinv, hout, -, hauth, -⟩ := env_frame hx
  have hdebited : ∀ h, debited w' h = debited w h := by
    intro h
    rw [debited, hauth, debited]
  constructor
  · rw [hauth]
    exact hI.posted
  · rw [hauth, hp]
    exact hI.single
  · intro h ri hri hany
    rw [hp, hdebited]
    exact hI.transferred h ri (hinv ▸ hri) hany
  · intro row hrow
    exact (hI.rows row (hout ▸ hrow)).grows (hp ▸ .refl _)

theorem Charged.spawn (hI : Charged w ps) (e : Entry) : Charged w (ps ++ [⟨e, []⟩]) := by
  exact ⟨pasts_spawn (fun _ _ hans _ => by cases hans) hI.posted, hI.single, hI.transferred,
    hI.rows⟩

end

/-! ### Runs -/

/-- Where no second wallet is authorized for an invoice before its payment is on
record, the wallet of a transfer's payment is the one Symphony debited, and the row
that reports the transfer names it. -/
theorem payer_is_debited (g : Deployment) (es : List (Event (gateway g))) (s : Pool (gateway g))
    (hrun : Runs ((posts g).both (oneSender g)) (boot g) es s) (h : PaymentHash)
    (ri : InvoiceRow) (hri : s.world.db.invoices.lookup h = some ri)
    (hsettled : ri.events.any InvoiceEvent.isSettledIntraledger = true) :
    ∃ p, Payments.findByPaymentHash s.world.db h = .ok p ∧ p.state = .completed ∧
      debited s.world h = some (walletAccount p.walletId) ∧
      ∀ row ∈ s.world.db.outbox, row.domainEvent = .lightningIntraledgerTransferCompleted →
        row.referenceId = h.toHex →
        row.gatewayMetadata.get? "sender_wallet_id" = some (.str p.walletId.toText) := by
  have hinit : Charged World.empty ([] : List (Past (gateway g))) := by
    constructor
    · exact fun p hp => absurd hp List.not_mem_nil
    · exact fun h _ q hq => absurd hq List.not_mem_nil
    · intro h ri hri
      cases hri
    · exact fun row hrow => absurd hrow List.not_mem_nil
  obtain ⟨-, hs, hI⟩ := gateway_invariant ((posts g).both (oneSender g)) (I := Charged) hinit
    (fun w ps e _ _ hI => hI.spawn e)
    (fun w ps i entry past o c a w' hi hj hd hx hs hI =>
      hI.call hs hi hj (Discipline.both_call.mp hd).1 (Discipline.both_call.mp hd).2 hx)
    (fun w ps x w' _ hx _ hI => hI.env hx) hrun
  obtain ⟨r, hr, hcompleted, hd⟩ := hI.transferred h ri hri hsettled
  obtain ⟨n, state, hlog, -, hcol, hnot⟩ := hs.db.payments h r hr
  obtain ⟨p, hp, -, -, hstate, ht⟩ := PaymentLogs.hydrate_log r.id hlog
  have hwallet : p.walletId = r.cols.walletId := ht.walletId.trans hcol.symm
  have hdone : p.state = .completed :=
    hstate.trans ((hlog.any_isCompleted.mp hcompleted).resolve_right hnot)
  refine ⟨p, ?_, hdone, ?_, ?_⟩
  · rw [Payments.findByPaymentHash, hr]
    exact hp
  · rw [hwallet]
    exact hd
  · intro row hrow hkind href
    obtain ⟨k, r', href', hr', hmeta⟩ := hI.rows row hrow hkind
    have hk : h = k := PaymentHash.toHex_inj.mp (href.symm.trans href')
    subst hk
    cases hr.symm.trans hr'
    rw [hwallet]
    exact hmeta

/-- A single wallet pays the sample invoice. -/
theorem payer_is_debited_complete :
    ∃ s p, Runs ((posts Sample.deployment).both (oneSender Sample.deployment))
        (boot Sample.deployment) completeRun s ∧
      Payments.findByPaymentHash s.world.db Sample.hash = .ok p ∧
      debited s.world Sample.hash = some (walletAccount p.walletId) := by
  obtain ⟨s, hrun, hc⟩ := exists_run_of_play
    ((posts Sample.deployment).both (oneSender Sample.deployment))
    (boot Sample.deployment) completeRun
    (fun s => (s.world.db.invoices.lookup Sample.hash).any fun ri =>
      ri.events.any InvoiceEvent.isSettledIntraledger) (by decide +kernel)
  obtain ⟨ri, hri, hsettled⟩ := (Option.any_eq_true _ _).mp hc
  obtain ⟨p, hp, -, hd, -⟩ :=
    payer_is_debited Sample.deployment completeRun s hrun Sample.hash ri hri hsettled
  exact ⟨s, p, hrun, hp, hd⟩

/-! ### Two senders -/

def secondWallet : WalletId := ⟨⟨List.replicate 16 6, rfl⟩⟩
def secondId : Uuid := ⟨List.replicate 16 7, rfl⟩

/-- The first wallet is authorized; the second one is handed its authorization, and
its transaction is the first to commit. -/
def overtakenSender : List (Event (gateway Sample.deployment)) :=
  Sample.issueInvoice 0 ++ (transferUpToCancel 1 (.ok ())).dropLast ++
    [.spawn (.sendPayment ⟨Sample.caller, secondWallet, Sample.text, none⟩),
      .step 2 (.clock Sample.noon), .step 2 (.ownership (.ok ())), .step 2 (.clock Sample.noon),
      .step 2 (.served Sample.noon), .step 2 (.ownership (.ok ())), .step 2 (.uuid secondId),
      .step 2 (.symphony true Sample.approval), .step 2 (.lndUnit true (.ok ())),
      .step 2 (.clock Sample.noon), .step 2 (.served Sample.noon)]

/-- A payment of `walletId` for `h` is on record as completed. -/
def paidBy (db : Db) (h : PaymentHash) (walletId : WalletId) : Bool :=
  match Payments.findByPaymentHash db h with
  | .ok p => p.state = .completed ∧ p.walletId = walletId
  | .error _ => false

/-- The row reports a transfer and names `walletId` as its sender. -/
def reportsSender (walletId : WalletId) (row : OutboxEvent) : Bool :=
  row.domainEvent = .lightningIntraledgerTransferCompleted &&
    match row.gatewayMetadata.get? "sender_wallet_id" with
    | some (.str text) => text = walletId.toText
    | _ => false

/-- The payment and its row name the second wallet, and the first was debited. -/
theorem payer_not_debited :
    ∃ s, Runs (lawful Sample.deployment) (boot Sample.deployment) overtakenSender s ∧
      debited s.world Sample.hash = some (walletAccount Sample.payerWallet) ∧
      paidBy s.world.db Sample.hash secondWallet = true ∧
      secondWallet ≠ Sample.payerWallet ∧
      s.world.db.outbox.any (reportsSender secondWallet) = true := by
  obtain ⟨s, hrun, hc⟩ := exists_run_of_play (lawful Sample.deployment)
    (boot Sample.deployment) overtakenSender
    (fun s => decide (debited s.world Sample.hash = some (walletAccount Sample.payerWallet)) &&
      paidBy s.world.db Sample.hash secondWallet &&
      s.world.db.outbox.any (reportsSender secondWallet)) (by decide +kernel)
  simp only [Bool.and_eq_true, decide_eq_true_eq] at hc
  obtain ⟨⟨hd, hp⟩, hrow⟩ := hc
  exact ⟨s, hrun, hd, hp, by decide, hrow⟩

end LightningGateway.TransferPayers
