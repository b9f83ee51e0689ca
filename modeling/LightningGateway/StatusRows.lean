import LightningGateway.InvoiceLedger
import LightningGateway.StatusMapping

/-!
# What a status row says about its invoice

A row that maps to a terminal status was committed together with the event that
ended its invoice. So in every database the gateway reaches, such a row is matched
by the log of the invoice it refers to, whoever reads the two and in which order.
-/
namespace LightningGateway.StatusRows
open Primitives EventTables TaskPools InvoiceAggregate OutboxRows GatewayStore StoreSpecs
open GatewayEffects PeerCalls GatewayMachine CallSites GatewayInvariant OutboxHistory
open InvoiceLedger StatusMapping
open InvoiceLogs (InvoiceLog)

variable {g : Deployment} {db db' : Db} {h : PaymentHash} {s : InvoicePaymentStatus}

/-- The log has reached its end in payment. -/
def paidLog (log : List InvoiceEvent) : Bool :=
  log.any InvoiceEvent.isSettled || log.any InvoiceEvent.isSettledIntraledger

/-- The invoice of `h` has ended as the status says; `PENDING` says nothing. -/
def Concluded (db : Db) (h : PaymentHash) : InvoicePaymentStatus → Prop
  | .paid => ∃ r, db.invoices.lookup h = some r ∧ paidLog r.events = true
  | .expired => ∃ r, db.invoices.lookup h = some r ∧ r.events.any InvoiceEvent.isCanceled = true
  | .pending => True

/-- What is true of every database the gateway reaches. -/
structure DbFacts (g : Deployment) (db : Db) : Prop where
  ok : DbOk g db
  sequenced : Sequenced db
  counter_pos : 0 < db.nextSequence
  sequence_pos : ∀ r ∈ db.outbox, 0 < r.sequence
  concluded : ∀ r ∈ db.outbox, ∀ h, r.referenceId = h.toHex →
    ∀ s, statusFromEvent r.domainEvent = some s → Concluded db h s

/-- A transfer row is matched by the end of its invoice. -/
def TransfersLogged (db : Db) : Prop :=
  ∀ h, hasRow db .lightningIntraledgerTransferCompleted h = true → Concluded db h .paid

theorem paidLog_of_prefix {log log' : List InvoiceEvent} (hp : log <+: log')
    (h : paidLog log = true) : paidLog log' = true := by
  unfold paidLog at h ⊢
  rcases Bool.or_eq_true_iff.mp h with h | h
  · rw [any_prefix_mono hp h, Bool.true_or]
  · rw [any_prefix_mono hp h, Bool.or_true]

theorem Concluded.grows (hc : Concluded db h s) (hg : Grows db db') : Concluded db' h s := by
  cases s with
  | pending => trivial
  | paid =>
      obtain ⟨r, hr, hpaid⟩ := hc
      obtain ⟨r', hr', -, -, hp⟩ := hg.2 h r hr
      exact ⟨r', hr', paidLog_of_prefix hp hpaid⟩
  | expired =>
      obtain ⟨r, hr, hcan⟩ := hc
      obtain ⟨r', hr', -, -, hp⟩ := hg.2 h r hr
      exact ⟨r', hr', any_prefix_mono hp hcan⟩

/-! ### Rows of transfers -/

theorem TransfersLogged.step {entry : Entry} {past : Calls} {b : Transaction}
    (hb : LedgerStep g entry past db db' b) (hg : Grows db db') (ht : TransfersLogged db) :
    TransfersLogged db' := by
  intro h hr
  have old (hold : hasRow db .lightningIntraledgerTransferCompleted h = true) :
      Concluded db' h .paid := (ht h hold).grows hg
  cases hb with
  | intent hsite _ _ _ _ _ hpub =>
      obtain ⟨request, utcNow, -, -, rfl, -⟩ := hsite
      rcases hasRow_published hpub hr with hold | ⟨hd, -⟩
      · exact old hold
      · cases hd
  | transfer hsite _ _ _ _ hri _ _ _ hwi hpub =>
      obtain ⟨-, -, -, -, ⟨utcNow, rfl⟩, -⟩ := hsite
      rcases hasRow_published hpub hr with hold | ⟨-, href⟩
      · exact old hold
      · obtain rfl := PaymentHash.toHex_injective href
        refine ⟨_, hwi.at, ?_⟩
        simp [paidLog, Row.grow, InvoiceEvent.isSettledIntraledger]
  | pending _ _ _ _ _ _ _ hsil | createInvoice _ _ _ _ _ hsil =>
      exact old (hasRow_silent hsil ▸ hr)
  | completed _ _ _ _ _ _ _ _ hpub | failed _ _ _ _ _ _ _ _ hpub
  | held _ _ _ _ _ _ _ hpub | settled _ _ _ _ _ _ _ hpub | canceled _ _ _ _ _ _ _ _ hpub =>
      rcases hasRow_published hpub hr with hold | ⟨hd, -⟩
      · exact old hold
      · cases hd

theorem transfersLogged_run {D : Discipline (gateway g)} {s : Pool (gateway g)}
    {es : List (Event (gateway g))} (h : Runs D (boot g) es s) : TransfersLogged s.world.db := by
  refine (gateway_invariant D (I := fun w _ => TransfersLogged w.db) ?_ ?_ ?_ ?_ h).2.2
  · intro h hr
    cases hr
  · exact fun _ _ _ _ _ hI => hI
  · intro w ps i entry past o c a w' hp hj _ hx hs hI
    obtain ⟨b, db', -, hb, hgrow, rfl⟩ | ⟨hdb, -⟩ :=
      commit_or_frame hs.db (hs.calls _ (List.mem_of_getElem? hp)) hj hx
    · exact hI.step hb hgrow
    · exact hdb ▸ hI
  · intro w ps x w' _ hx _ hI h hr
    obtain ⟨hpay, hinv, hout, -⟩ := env_frame hx
    have hold : hasRow w.db .lightningIntraledgerTransferCompleted h = true := by
      unfold hasRow at hr ⊢
      exact hout ▸ hr
    exact (hI h hold).grows ⟨hpay ▸ .refl _, hinv ▸ .refl _⟩

/-! ### Rows of invoices -/

theorem mem_incomingRows {r : OutboxEvent} (hr : r ∈ db.outbox)
    (hd : r.domainEvent.isOutgoing = false) (href : r.referenceId = h.toHex) :
    r ∈ incomingRows db h :=
  List.mem_filter.mpr ⟨hr, decide_eq_true ⟨hd, href⟩⟩

/-- The event that an incoming row announces is in the log of its invoice. -/
theorem announced_event {r : OutboxEvent} (ha : Announced db h) (hr : r ∈ incomingRows db h) :
    ∃ row e, db.invoices.lookup h = some row ∧ e ∈ row.events ∧
      announce e = some r.domainEvent := by
  cases ha with
  | absent _ hnone =>
      rw [hnone] at hr
      cases hr
  | @present row _ _ _ hl _ hmap _ =>
      have hmem : r.domainEvent ∈ row.events.filterMap announce :=
        hmap ▸ List.mem_map_of_mem hr
      obtain ⟨e, he, hann⟩ := List.mem_filterMap.mp hmem
      exact ⟨row, e, hl, he, hann⟩

theorem concluded_of_announced {r : OutboxEvent} (ha : Announced db h) (ht : TransfersLogged db)
    (hr : r ∈ db.outbox) (href : r.referenceId = h.toHex)
    (hs : statusFromEvent r.domainEvent = some s) : Concluded db h s := by
  by_cases htransfer : r.domainEvent = .lightningIntraledgerTransferCompleted
  · rw [htransfer] at hs
    cases hs
    refine ht h (List.any_eq_true.mpr ⟨r, hr, ?_⟩)
    exact decide_eq_true ⟨htransfer, href⟩
  · have hd : r.domainEvent.isOutgoing = false := by
      cases hk : r.domainEvent <;> rw [hk] at hs htransfer <;> first
        | rfl
        | exact absurd rfl htransfer
        | cases hs
    obtain ⟨row, e, hl, he, hann⟩ := announced_event ha (mem_incomingRows hr hd href)
    cases e with
    | created | settledIntraledger => cases hann
    | htlcHeld t amount =>
        rw [← Option.some.inj hann] at hs
        cases hs
        trivial
    | settled t =>
        rw [← Option.some.inj hann] at hs
        cases hs
        have hany : row.events.any InvoiceEvent.isSettled = true :=
          List.any_eq_true.mpr ⟨_, he, rfl⟩
        exact ⟨row, hl, by simp only [paidLog, hany, Bool.true_or]⟩
    | canceled t reason =>
        rw [← Option.some.inj hann] at hs
        cases hs
        exact ⟨row, hl, List.any_eq_true.mpr ⟨_, he, rfl⟩⟩

/-! ### Every reachable database -/

/-- Sequence numbers are positive. -/
def Numbered (db : Db) : Prop := 0 < db.nextSequence ∧ ∀ r ∈ db.outbox, 0 < r.sequence

theorem Numbered.step {entry : Entry} {past : Calls} {b : Transaction} (hn : Numbered db)
    (hb : LedgerStep g entry past db db' b) : Numbered db' := by
  rcases LedgerStep.outbox hb with ⟨e, hp⟩ | hp
  · obtain ⟨hpos, hall⟩ := hn
    refine ⟨by rw [hp.2]; omega, fun r hr => ?_⟩
    rw [hp.1] at hr
    rcases List.mem_append.mp hr with hr | hr
    · exact hall r hr
    · obtain rfl := List.mem_singleton.mp hr
      exact hpos
  · exact ⟨hp.2 ▸ hn.1, hp.1 ▸ hn.2⟩

theorem dbFacts_run {D : Discipline (gateway g)} {s : Pool (gateway g)}
    {es : List (Event (gateway g))} (h : Runs D (boot g) es s) : DbFacts g s.world.db := by
  obtain ⟨hseq, hann⟩ := announced_run D h
  have htransfers := transfersLogged_run h
  obtain ⟨hok, hpos, hall⟩ := ledger_invariant D (I := fun db _ => Numbered db)
    ⟨by decide, fun r hr => (by cases hr)⟩ (fun _ _ _ _ _ _ hb _ hI => hI.step hb)
    (fun db _ hI => ⟨by have := hI.1; simp only; omega, hI.2⟩) h
  exact ⟨hok, hseq, hpos, hall,
    fun r hr k href s hs => concluded_of_announced (hann k) htransfers hr href hs⟩

/-! ### How the outbox grows -/

/-- The rows committed between two databases: they enter at the end, with new numbers. -/
structure Appends (db db' : Db) (new : List OutboxEvent) : Prop where
  outbox : db'.outbox = db.outbox ++ new
  fresh : ∀ r ∈ new, db.nextSequence ≤ r.sequence
  counter : db.nextSequence ≤ db'.nextSequence

theorem Appends.refl (db : Db) : Appends db db [] :=
  ⟨(List.append_nil _).symm, fun r hr => (by cases hr), le_rfl⟩

theorem Appends.trans {db'' : Db} {new new' : List OutboxEvent} (h : Appends db db' new)
    (h' : Appends db' db'' new') : Appends db db'' (new ++ new') := by
  refine ⟨by rw [h'.outbox, h.outbox, List.append_assoc], fun r hr => ?_,
    h.counter.trans h'.counter⟩
  rcases List.mem_append.mp hr with hr | hr
  · exact h.fresh r hr
  · exact h.counter.trans (h'.fresh r hr)

theorem appends_of_step {entry : Entry} {past : Calls} {b : Transaction}
    (hb : LedgerStep g entry past db db' b) : ∃ new, Appends db db' new := by
  rcases LedgerStep.outbox hb with ⟨e, hp⟩ | hp
  · refine ⟨_, hp.1, fun r hr => ?_, by rw [hp.2]; omega⟩
    obtain rfl := List.mem_singleton.mp hr
    exact le_rfl
  · exact ⟨[], by rw [hp.1, List.append_nil], fun r hr => (by cases hr), hp.2.ge⟩

/-- Whatever the gateway does, rows are added at the end of the outbox. -/
theorem appends_run {D : Discipline (gateway g)} {s₀ s : Pool (gateway g)}
    {es₀ es : List (Event (gateway g))} (h₀ : Runs D (boot g) es₀ s₀) (h : Runs D s₀ es s) :
    ∃ new, Appends s₀.world.db s.world.db new := by
  obtain ⟨hsound, hsane⟩ := sane_run h₀
  refine (gateway_invariant_from D (I := fun w _ => ∃ new, Appends s₀.world.db w.db new)
    (fun _ _ _ _ _ hI => hI) ?_ ?_ h hsound hsane ⟨[], .refl _⟩).2.2
  · rintro w ps i entry past o c a w' hp hj - hx hs ⟨new, hI⟩
    obtain ⟨b, db', -, hb, -, rfl⟩ | ⟨hdb, -⟩ :=
      commit_or_frame hs.db (hs.calls _ (List.mem_of_getElem? hp)) hj hx
    · obtain ⟨more, hmore⟩ := appends_of_step hb
      exact ⟨new ++ more, hI.trans hmore⟩
    · exact ⟨new, hdb ▸ hI⟩
  · rintro w ps x w' - hx - ⟨new, hI⟩
    obtain ⟨-, -, hout, -, -, hdb | rfl⟩ := env_frame hx
    · exact ⟨new, hdb ▸ hI⟩
    · cases hx
      refine ⟨new, hI.outbox, hI.fresh, ?_⟩
      have hc := hI.counter
      simp only
      omega

end LightningGateway.StatusRows
