import LightningGateway.GatewayInvariant

/-!
# Reading the outbox

The rows about one payment hash, per direction, and the order of their sequence
numbers. A transaction appends at most one row, so each of these views grows at
its end or stays as it is.
-/
namespace LightningGateway.OutboxHistory
open Primitives EventTables OutboxRows GatewayStore StoreSpecs GatewayEffects PeerCalls
open GatewayMachine CallSites GatewayInvariant

/-- The rows about `h` in one direction, oldest first. -/
def rowsAbout (db : Db) (outgoing : Bool) (h : PaymentHash) : List OutboxEvent :=
  db.outbox.filter fun r => r.domainEvent.isOutgoing = outgoing ∧ r.referenceId = h.toHex

/-- The outgoing rows about `h`. -/
def outgoingRows (db : Db) (h : PaymentHash) : List OutboxEvent := rowsAbout db true h

/-- The incoming rows about `h`. -/
def incomingRows (db : Db) (h : PaymentHash) : List OutboxEvent := rowsAbout db false h

variable {db db' : Db} {e : NewOutboxEvent} {d : Bool} {h k : PaymentHash}

theorem rowsAbout_published (hp : Publishes db db' e) (hd : e.domainEvent.isOutgoing = d)
    (hr : e.referenceId = h.toHex) :
    rowsAbout db' d h = rowsAbout db d h ++ [e.row db.nextSequence] := by
  simp [rowsAbout, hp.1, hd, hr]

theorem rowsAbout_other (hp : Publishes db db' e) (hr : e.referenceId = k.toHex) (hk : h ≠ k) :
    rowsAbout db' d h = rowsAbout db d h := by
  simp [rowsAbout, hp.1, hr, Ne.symm hk]

theorem rowsAbout_direction (hp : Publishes db db' e) (hd : e.domainEvent.isOutgoing ≠ d) :
    rowsAbout db' d h = rowsAbout db d h := by
  simp [rowsAbout, hp.1, hd]

theorem rowsAbout_silent (hs : Silent db db') : rowsAbout db' d h = rowsAbout db d h := by
  simp [rowsAbout, hs.1]

/-! ### Sequence numbers -/

/-- Sequence numbers grow along the table and stay below the counter. -/
structure Sequenced (db : Db) : Prop where
  increasing : db.outbox.Pairwise fun a b => a.sequence < b.sequence
  bounded : ∀ r ∈ db.outbox, r.sequence < db.nextSequence

theorem sequenced_empty : Sequenced Db.empty := ⟨.nil, fun _ h => (by cases h)⟩

theorem Sequenced.publish (hs : Sequenced db) (hp : Publishes db db' e) : Sequenced db' := by
  constructor
  · rw [hp.1]
    refine List.pairwise_append.mpr ⟨hs.increasing, List.pairwise_singleton _ _, ?_⟩
    intro a ha b hb
    obtain rfl := List.mem_singleton.mp hb
    exact hs.bounded a ha
  · intro r hr
    rw [hp.1] at hr
    rw [hp.2]
    rcases List.mem_append.mp hr with hr | hr
    · have := hs.bounded r hr
      omega
    · obtain rfl := List.mem_singleton.mp hr
      simp

theorem Sequenced.silent (hs : Sequenced db) (hp : Silent db db') : Sequenced db' :=
  ⟨hp.1 ▸ hs.increasing, by rw [hp.1, hp.2]; exact hs.bounded⟩

theorem Sequenced.draw (hs : Sequenced db) :
    Sequenced { db with nextSequence := db.nextSequence + 1 } :=
  ⟨hs.increasing, fun r hr => by have := hs.bounded r hr; simp only; omega⟩

theorem Sequenced.rowsAbout (hs : Sequenced db) :
    (rowsAbout db d h).Pairwise fun a b => a.sequence < b.sequence :=
  hs.increasing.filter _

/-- A transaction publishes one row or none. -/
theorem LedgerStep.outbox {g : Deployment} {entry : Entry} {past : Calls} {b : Transaction}
    (hs : LedgerStep g entry past db db' b) : (∃ e, Publishes db db' e) ∨ Silent db db' := by
  cases hs
  case pending hsil => exact .inr hsil
  case createInvoice hsil => exact .inr hsil
  all_goals exact .inl ⟨_, by assumption⟩

theorem Sequenced.step {g : Deployment} {entry : Entry} {past : Calls} {b : Transaction}
    (hs : Sequenced db) (hb : LedgerStep g entry past db db' b) : Sequenced db' := by
  rcases LedgerStep.outbox hb with ⟨e, hp⟩ | hp
  · exact hs.publish hp
  · exact hs.silent hp

/-! ### Why there is a row -/

/-- A row of kind `d` about `h` is in the outbox. -/
def hasRow (db : Db) (d : GatewayDomainEvent) (h : PaymentHash) : Bool :=
  db.outbox.any fun r => r.domainEvent = d ∧ r.referenceId = h.toHex

theorem hasRow_silent {d : GatewayDomainEvent} (hs : Silent db db') :
    hasRow db' d h = hasRow db d h := by
  simp only [hasRow, hs.1]

theorem hasRow_published {d : GatewayDomainEvent} (hp : Publishes db db' e)
    (hr : hasRow db' d h = true) :
    hasRow db d h = true ∨ (e.domainEvent = d ∧ e.referenceId = h.toHex) := by
  unfold hasRow at hr ⊢
  rw [hp.1, List.any_append, Bool.or_eq_true] at hr
  refine hr.imp_right fun hr => ?_
  obtain ⟨row, hrow, hd⟩ := List.any_eq_true.mp hr
  obtain rfl := List.mem_singleton.mp hrow
  exact of_decide_eq_true hd

/-- What a task must have learned before it publishes a row about `h`. -/
def Reason (g : Deployment) (entry : Entry) (past : Calls) (h : PaymentHash) :
    GatewayDomainEvent → Prop
  | .lightningPaymentCompleted => Told entry past h .succeeded
  | .lightningPaymentFailed => FailedCause g entry past h
  | .lightningHtlcHeld => ToldInvoice entry past h .accepted
  | .lightningInvoiceSettled => ToldInvoice entry past h .settled ∨
      ∃ preimage, g.crates.sha256 preimage = h ∧
        Answered past (.lnd (.settleInvoice preimage)) (.ok ())
  | .lightningInvoiceCanceled => ToldInvoice entry past h .canceled
  | _ => True

/-- A row is old, or the task that commits it has its reason. -/
theorem hasRow_step {g : Deployment} {entry : Entry} {past : Calls} {b : Transaction}
    {d : GatewayDomainEvent} (hb : LedgerStep g entry past db db' b)
    (hr : hasRow db' d h = true) :
    hasRow db d h = true ∨ (Reason g entry past h d ∧
      (d = .lightningPaymentFailed → isConclusion (.tx b) = true)) := by
  cases hb with
  | intent hsite _ _ _ _ _ hpub =>
      obtain ⟨request, utcNow, -, -, rfl, -⟩ := hsite
      refine (hasRow_published hpub hr).imp_right ?_
      rintro ⟨rfl, -⟩
      exact ⟨trivial, fun hd => by cases hd⟩
  | transfer hsite _ _ _ _ _ _ _ _ _ hpub =>
      obtain ⟨-, -, -, -, ⟨utcNow, rfl⟩, -⟩ := hsite
      refine (hasRow_published hpub hr).imp_right ?_
      rintro ⟨rfl, -⟩
      exact ⟨trivial, fun hd => by cases hd⟩
  | pending _ _ _ _ _ _ _ hsil | createInvoice _ _ _ _ _ hsil =>
      exact .inl (hasRow_silent hsil ▸ hr)
  | completed hwhy _ _ _ _ _ _ _ hpub | failed hwhy _ _ _ _ _ _ _ hpub =>
      refine (hasRow_published hpub hr).imp_right ?_
      rintro ⟨rfl, href⟩
      obtain rfl := PaymentHash.toHex_injective href
      exact ⟨hwhy, fun _ => rfl⟩
  | held hwhy _ _ _ _ _ _ hpub | settled hwhy _ _ _ _ _ _ hpub
  | canceled hwhy _ _ _ _ _ _ _ hpub =>
      refine (hasRow_published hpub hr).imp_right ?_
      rintro ⟨rfl, href⟩
      obtain rfl := PaymentHash.toHex_injective href
      exact ⟨hwhy, fun hd => by cases hd⟩

end LightningGateway.OutboxHistory
