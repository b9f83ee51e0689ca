import LightningGateway.OutboxHistory
import LightningGateway.EventStream
import LightningGateway.HexIdentifiers
import LightningGateway.JsonCodecs

/-!
# The outbox as it is stored

The table keeps the two types of an event as texts and its metadata as a binary JSON
document. Every reading parses the texts again, and one text it does not know fails the
whole page. In every run the columns hold what the insert puts there, every row is about a
payment or an invoice of the database, and every reading returns the rows that the streams
are modelled with.
-/
namespace LightningGateway.OutboxRecords
open Primitives EventTables TaskPools PaymentAggregate OutboxRows JsonCodecs CursorFeeds
open GatewayStore StoreSpecs GatewayEffects PeerCalls PaymentFlows InvoiceFlows GatewayMachine
open CallSites GatewayInvariant
open EventStream (backfillBatchSize)
open HexIdentifiers (paymentHash_canonical)

/-! ### Columns -/

/-- A row of `outbox_events`. -/
structure OutboxRecord where
  sequence : ℤ
  correlationId : String
  domainEventType : String
  eventType : String
  referenceId : String
  amountSat : ℤ
  timestamp : Timestamp
  gatewayMetadata : Json

/-- The beginning of the year 2000, from which the database counts. -/
def pgEpoch : ℤ := 946684800 * 10 ^ 9

/-- A `TIMESTAMPTZ` counts whole microseconds. -/
def timestamptz (t : Timestamp) : Timestamp := ⟨pgEpoch + (t.nanos - pgEpoch).tdiv 1000 * 1000⟩

/-- The insert of `publish_in_tx`. -/
def insertedRecord (event : NewOutboxEvent) (sequence : ℤ) : OutboxRecord :=
  ⟨sequence, event.correlationId, event.domainEvent.asStr, event.domainEvent.toStandardized.asStr,
    event.referenceId, event.amountSat, timestamptz event.timestamp, event.gatewayMetadata⟩

namespace OutboxRecord

/-- The columns of a row are wide enough for it. -/
structure Fits (c : OutboxRecord) : Prop where
  correlationId : c.correlationId.length ≤ 255
  domainEventType : c.domainEventType.length ≤ 64
  eventType : c.eventType.length ≤ 64
  referenceId : c.referenceId.length ≤ 255
  amountSat : -2 ^ 63 ≤ c.amountSat ∧ c.amountSat < 2 ^ 63

/-- Both readings build the event this way. -/
def read (c : OutboxRecord) : Except OutboxError OutboxEvent := do
  let domainEvent ← GatewayDomainEvent.fromStr c.domainEventType
  let eventType ← GatewayEventType.fromStr c.eventType
  pure ⟨c.sequence, c.correlationId, domainEvent, eventType, c.referenceId, c.amountSat,
    c.timestamp, c.gatewayMetadata⟩

end OutboxRecord

def findBySequence (records : List OutboxRecord) (sequence : ℤ) :
    Except OutboxError (Option OutboxEvent) :=
  match records.find? fun c => c.sequence = sequence with
  | none => .ok none
  | some c => c.read.map some

def fetchAfterBatch (records : List OutboxRecord) (afterSequence : ℤ) :
    Except OutboxError (List OutboxEvent) :=
  (page OutboxRecord.sequence backfillBatchSize records afterSequence).mapM OutboxRecord.read

/-! ### What is readable -/

variable {c : OutboxRecord} {r : OutboxEvent} {records : List OutboxRecord}
variable {rows : List OutboxEvent}

theorem read_ok : c.read = .ok r ↔ c.domainEventType = r.domainEvent.asStr ∧
    c.eventType = r.eventType.asStr ∧ r.sequence = c.sequence ∧
    r.correlationId = c.correlationId ∧ r.referenceId = c.referenceId ∧
    r.amountSat = c.amountSat ∧ r.timestamp = c.timestamp ∧
    r.gatewayMetadata = c.gatewayMetadata := by
  unfold OutboxRecord.read
  constructor
  · intro h
    cases hd : GatewayDomainEvent.fromStr c.domainEventType with
    | error e =>
        rw [hd] at h
        cases h
    | ok d =>
        cases ht : GatewayEventType.fromStr c.eventType with
        | error e =>
            rw [hd, ht] at h
            cases h
        | ok t =>
            rw [hd, ht] at h
            cases h
            exact ⟨GatewayDomainEvent.fromStr_ok.mp hd, GatewayEventType.fromStr_ok.mp ht,
              rfl, rfl, rfl, rfl, rfl, rfl⟩
  · rintro ⟨hd, ht, hs, hc, hr, ha, htime, hm⟩
    rw [GatewayDomainEvent.fromStr_ok.mpr hd, GatewayEventType.fromStr_ok.mpr ht, ← hs, ← hc,
      ← hr, ← ha, ← htime, ← hm]
    rfl

/-- The record has both its types in the vocabulary. -/
def Readable (c : OutboxRecord) : Prop :=
  (∃ d : GatewayDomainEvent, c.domainEventType = d.asStr) ∧
    ∃ t : GatewayEventType, c.eventType = t.asStr

theorem readable_iff : Readable c ↔ ∃ r, c.read = .ok r := by
  constructor
  · rintro ⟨⟨d, hd⟩, t, ht⟩
    exact ⟨⟨c.sequence, c.correlationId, d, t, c.referenceId, c.amountSat, c.timestamp,
      c.gatewayMetadata⟩, read_ok.mpr ⟨hd, ht, rfl, rfl, rfl, rfl, rfl, rfl⟩⟩
  · rintro ⟨r, hr⟩
    obtain ⟨hd, ht, -⟩ := read_ok.mp hr
    exact ⟨⟨_, hd⟩, _, ht⟩

theorem read_all : records.mapM OutboxRecord.read = .ok rows ↔
    List.Forall₂ (fun c r => c.read = .ok r) records rows := by
  induction records generalizing rows with
  | nil =>
      rw [List.mapM_nil, List.forall₂_nil_left_iff]
      exact ⟨fun h => (Except.ok.inj h).symm, fun h => h ▸ rfl⟩
  | cons c records ih =>
      rw [List.mapM_cons, List.forall₂_cons_left_iff]
      cases hc : c.read with
      | error e => exact ⟨fun h => (by cases h), fun ⟨_, _, h, _⟩ => (by cases h)⟩
      | ok r =>
          cases hrest : records.mapM OutboxRecord.read with
          | error e =>
              refine ⟨fun h => (by cases h), fun ⟨r', rest, _, h, _⟩ => ?_⟩
              cases hrest.symm.trans (ih.mpr h)
          | ok rest =>
              constructor
              · intro h
                cases h
                exact ⟨r, rest, rfl, ih.mp hrest, rfl⟩
              · rintro ⟨r', rest', hr, h, rfl⟩
                cases hr
                cases hrest.symm.trans (ih.mpr h)
                rfl

/-- A page is returned whole or not at all: one record that cannot be read is enough. -/
theorem fetchAfterBatch_ok_iff {after : ℤ} : (∃ rows, fetchAfterBatch records after = .ok rows) ↔
    ∀ c ∈ page OutboxRecord.sequence backfillBatchSize records after, Readable c := by
  unfold fetchAfterBatch
  generalize page OutboxRecord.sequence backfillBatchSize records after = batch
  simp only [read_all, readable_iff]
  induction batch with
  | nil => exact ⟨fun _ c hc => (by cases hc), fun _ => ⟨[], .nil⟩⟩
  | cons c batch ih =>
      rw [List.forall_mem_cons, ← ih]
      constructor
      · rintro ⟨rows, hrows⟩
        cases hrows with
        | cons hfirst hrest => exact ⟨⟨_, hfirst⟩, _, hrest⟩
      · rintro ⟨⟨r, hr⟩, rows, hrows⟩
        exact ⟨r :: rows, .cons hr hrows⟩

/-! ### What the gateway writes -/

/-- The members of an object, each under its own key. -/
def Members (j : Json) : Prop := ∃ members, j = .obj members ∧ (members.map Prod.fst).Nodup

/-- What a row of the gateway is about is in its database. -/
def Concerns (db : Db) (d : GatewayDomainEvent) (h : PaymentHash) : Prop :=
  if d.isOutgoing then (db.payments.lookup h).isSome else (db.invoices.lookup h).isSome

/-- A row as the gateway makes it. -/
structure Sound (db : Db) (r : OutboxEvent) : Prop where
  sequence : 0 < r.sequence
  amountSat : 0 ≤ r.amountSat ∧ r.amountSat < 2 ^ 63
  eventType : r.eventType = r.domainEvent.toStandardized
  produced : r.domainEvent ≠ .lightningPaymentReversed
  about : ∃ h : PaymentHash, r.correlationId = h.toHex ∧ r.referenceId = h.toHex ∧
    Concerns db r.domainEvent h
  members : Members r.gatewayMetadata

/-- What the constructors of the two sides have in common. -/
structure Announces (h : PaymentHash) (e : NewOutboxEvent) : Prop where
  correlationId : e.correlationId = h.toHex
  referenceId : e.referenceId = h.toHex
  amountSat : ∃ m : MilliSatoshi, e.amountSat = asI64 m.wholeSat
  produced : e.domainEvent ≠ .lightningPaymentReversed
  members : Members e.gatewayMetadata

section
variable {h : PaymentHash} {n : NewPayment} {m held : MilliSatoshi} {utcNow : Timestamp}
variable {walletId : WalletId}

theorem initiatedRow_announces : Announces n.paymentHash (initiatedRow n utcNow) :=
  ⟨rfl, rfl, ⟨_, rfl⟩, fun hd => (by cases hd), _, rfl, by simp⟩

theorem completedOutbox_announces {preimage : Preimage} {fees : MilliSatoshi} {hops : List Hop} :
    Announces h (completedOutbox h (asI64 m.wholeSat) preimage fees hops utcNow) :=
  ⟨rfl, rfl, ⟨_, rfl⟩, fun hd => (by cases hd), _, rfl, by simp⟩

theorem failedOutbox_announces {reason : FailureReason} :
    Announces h (failedOutbox h (asI64 m.wholeSat) reason utcNow) :=
  ⟨rfl, rfl, ⟨_, rfl⟩, fun hd => (by cases hd), _, rfl, by simp⟩

theorem transferRow_announces {recipient : InvoiceAggregate.Invoice} :
    Announces n.paymentHash (transferRow n recipient utcNow) :=
  ⟨rfl, rfl, ⟨_, rfl⟩, fun hd => (by cases hd), _, rfl, by simp⟩

theorem heldOutbox_announces : Announces h (heldOutbox h m walletId utcNow) :=
  ⟨rfl, rfl, ⟨_, rfl⟩, fun hd => (by cases hd), _, rfl, by simp⟩

theorem settledOutbox_announces {externalId : String} :
    Announces h (settledOutbox h m held walletId externalId utcNow) :=
  ⟨rfl, rfl, ⟨_, rfl⟩, fun hd => (by cases hd), _, rfl, by simp⟩

theorem canceledOutbox_announces {parked : Option MilliSatoshi}
    {reason : InvoiceAggregate.CancelReason} :
    Announces h (canceledOutbox h m parked walletId reason utcNow) :=
  ⟨rfl, rfl, ⟨_, rfl⟩, fun hd => (by cases hd), _, rfl, by simp⟩

end

section
variable {g : Deployment} {entry : Entry} {past : Calls} {db db' : Db} {b : Transaction}
variable {e : NewOutboxEvent} {h : PaymentHash}

/-- No row of a table goes away. -/
structure Keeps (db db' : Db) : Prop where
  payments : ∀ k, (db.payments.lookup k).isSome → (db'.payments.lookup k).isSome
  invoices : ∀ k, (db.invoices.lookup k).isSome → (db'.invoices.lookup k).isSome

theorem Sound.keep (hr : Sound db r) (hk : Keeps db db') : Sound db' r := by
  obtain ⟨h, hcorrelation, hreference, hconcerns⟩ := hr.about
  refine { hr with about := ⟨h, hcorrelation, hreference, ?_⟩ }
  unfold Concerns at hconcerns ⊢
  split_ifs at hconcerns ⊢
  · exact hk.payments h hconcerns
  · exact hk.invoices h hconcerns

theorem Announces.sound (he : Announces h e) (hpositive : 0 < db.nextSequence)
    (habout : Concerns db' e.domainEvent h) : Sound db' (e.row db.nextSequence) where
  sequence := hpositive
  amountSat := by
    obtain ⟨m, hm⟩ := he.amountSat
    have hlt := m.msat.toNat_lt
    rw [NewOutboxEvent.row_amountSat, hm, asI64_wholeSat]
    omega
  eventType := rfl
  produced := he.produced
  about := ⟨h, he.correlationId, he.referenceId, habout⟩
  members := he.members

/-- The outbox of a gateway, with the counter of its sequences. -/
structure SoundOutbox (db : Db) : Prop where
  rows : ∀ r ∈ db.outbox, Sound db r
  counter : 0 < db.nextSequence

theorem SoundOutbox.publish (hI : SoundOutbox db) (hk : Keeps db db') (hp : Publishes db db' e)
    (he : Announces h e) (habout : Concerns db' e.domainEvent h) : SoundOutbox db' := by
  constructor
  · intro r hr
    rw [hp.1] at hr
    rcases List.mem_append.mp hr with hr | hr
    · exact (hI.rows r hr).keep hk
    · obtain rfl := List.mem_singleton.mp hr
      exact he.sound hI.counter habout
  · have hpositive := hI.counter
    rw [hp.2]
    omega

theorem SoundOutbox.silent (hI : SoundOutbox db) (hk : Keeps db db') (hs : Silent db db') :
    SoundOutbox db' :=
  ⟨fun r hr => (hI.rows r (hs.1 ▸ hr)).keep hk, hs.2 ▸ hI.counter⟩

theorem SoundOutbox.draw (hI : SoundOutbox db) :
    SoundOutbox { db with nextSequence := db.nextSequence + 1 } := by
  refine ⟨fun r hr => (hI.rows r hr).keep ⟨fun _ hk => hk, fun _ hk => hk⟩, ?_⟩
  have hpositive := hI.counter
  change 0 < db.nextSequence + 1
  omega

theorem payment_keeps {row : PaymentRow} (hw : WritesPayment db db' h row)
    (hi : db'.invoices = db.invoices) : Keeps db db' := by
  refine ⟨fun k hk => ?_, fun k hk => hi ▸ hk⟩
  rw [hw k]
  split_ifs
  · rfl
  · exact hk

theorem invoice_keeps {row : InvoiceRow} (hw : WritesInvoice db db' h row)
    (hp : db'.payments = db.payments) : Keeps db db' := by
  refine ⟨fun k hk => hp ▸ hk, fun k hk => ?_⟩
  rw [hw k]
  split_ifs
  · rfl
  · exact hk

theorem payment_isSome {row : PaymentRow} (hw : WritesPayment db db' h row) :
    (db'.payments.lookup h).isSome := by
  rw [hw.at]
  rfl

theorem invoice_isSome {row : InvoiceRow} (hw : WritesInvoice db db' h row) :
    (db'.invoices.lookup h).isSome := by
  rw [hw.at]
  rfl

theorem SoundOutbox.step (hI : SoundOutbox db) (hb : LedgerStep g entry past db db' b) :
    SoundOutbox db' := by
  cases hb with
  | intent hsite _ _ _ hw hi hpub =>
      obtain ⟨request, utcNow, -, -, rfl, -⟩ := hsite
      exact hI.publish (payment_keeps hw hi) hpub initiatedRow_announces (payment_isSome hw)
  | transfer hsite _ _ _ hw _ _ _ _ hwi hpub =>
      obtain ⟨-, -, -, -, ⟨utcNow, rfl⟩, -⟩ := hsite
      refine hI.publish ⟨fun k hk => ?_, fun k hk => ?_⟩ hpub transferRow_announces (payment_isSome hw)
      · rw [hw k]
        split_ifs
        · rfl
        · exact hk
      · rw [hwi k]
        split_ifs
        · rfl
        · exact hk
  | pending _ _ _ _ _ hw hi hsil => exact hI.silent (payment_keeps hw hi) hsil
  | createInvoice _ _ _ hw hp hsil => exact hI.silent (invoice_keeps hw hp) hsil
  | completed _ _ _ _ _ _ hw hi hpub =>
      exact hI.publish (payment_keeps hw hi) hpub completedOutbox_announces (payment_isSome hw)
  | failed _ _ _ _ _ _ hw hi hpub =>
      exact hI.publish (payment_keeps hw hi) hpub failedOutbox_announces (payment_isSome hw)
  | held _ _ _ _ _ hw hp hpub =>
      exact hI.publish (invoice_keeps hw hp) hpub heldOutbox_announces (invoice_isSome hw)
  | settled _ _ _ _ _ hw hp hpub =>
      exact hI.publish (invoice_keeps hw hp) hpub settledOutbox_announces (invoice_isSome hw)
  | canceled _ _ _ _ _ _ hw hp hpub =>
      exact hI.publish (invoice_keeps hw hp) hpub canceledOutbox_announces (invoice_isSome hw)

theorem soundOutbox_run {D : Discipline (gateway g)} {es : List (Event (gateway g))}
    {s : Pool (gateway g)} (hrun : Runs D (boot g) es s) : SoundOutbox s.world.db :=
  (ledger_invariant D (I := fun db _ => SoundOutbox db)
    ⟨fun _ hr => (by cases hr), by decide⟩ (fun _ _ _ _ _ _ hb _ hI => hI.step hb)
    (fun _ _ hI => hI.draw) hrun).2

end

/-! ### What is read back -/

/-- What the table may hold for a row that was inserted. -/
def Stored (r : OutboxEvent) (c : OutboxRecord) : Prop :=
  Same r.gatewayMetadata c.gatewayMetadata ∧
    c = { insertedRecord ⟨r.correlationId, r.domainEvent, r.referenceId, r.amountSat, r.timestamp,
      r.gatewayMetadata⟩ r.sequence with gatewayMetadata := c.gatewayMetadata }

/-- The same row, but for the order of members in its metadata and less than a microsecond. -/
structure Alike (r r' : OutboxEvent) : Prop where
  columns : r' =
    { r with timestamp := timestamptz r.timestamp, gatewayMetadata := r'.gatewayMetadata }
  metadata : Same r.gatewayMetadata r'.gatewayMetadata
  values : ∀ key v, r.gatewayMetadata.get? key = some v →
    ∃ v', r'.gatewayMetadata.get? key = some v' ∧ Same v v'
  /-- The wire form counts milliseconds. -/
  wire : pgEpoch ≤ r.timestamp.nanos → ∀ toText, r'.toProto toText =
    { r.toProto toText with gatewayMetadata := (r'.toProto toText).gatewayMetadata }

/-- From the epoch on, dropping less than a microsecond leaves the milliseconds. -/
theorem timestamptz_millis {t : Timestamp} (h : pgEpoch ≤ t.nanos) :
    (timestamptz t).nanos / 10 ^ 6 = t.nanos / 10 ^ 6 := by
  unfold timestamptz pgEpoch at *
  rw [Int.tdiv_eq_ediv_of_nonneg (by omega)]
  dsimp only
  omega

theorem Sound.stored_read {db : Db} (hr : Sound db r) (hc : Stored r c) :
    ∃ r', c.read = .ok r' ∧ Alike r r' := by
  obtain ⟨hsame, hcolumns⟩ := hc
  refine ⟨{ r with timestamp := timestamptz r.timestamp, gatewayMetadata := c.gatewayMetadata },
    ?_, rfl, hsame, fun key v hv => ?_, fun hepoch toText => ?_⟩
  · rw [hcolumns]
    refine read_ok.mpr ⟨rfl, ?_, rfl, rfl, rfl, rfl, rfl, rfl⟩
    exact congrArg GatewayEventType.asStr hr.eventType.symm
  · obtain ⟨members, hmembers, hdistinct⟩ := hr.members
    rw [hmembers] at hsame hv
    exact Document.get ⟨hsame, hdistinct⟩ hv
  · simp only [OutboxEvent.toProto, timestamptz_millis hepoch]

theorem Sound.fits {db : Db} (hr : Sound db r) (hc : Stored r c) : c.Fits := by
  obtain ⟨h, hcorrelation, hreference, -⟩ := hr.about
  have hlength : h.toHex.length = 64 := (paymentHash_canonical.prints h).1
  obtain ⟨-, hcolumns⟩ := hc
  rw [hcolumns]
  constructor
  · change r.correlationId.length ≤ 255
    rw [hcorrelation, hlength]
    decide
  · change r.domainEvent.asStr.length ≤ 64
    cases r.domainEvent <;> decide
  · change r.domainEvent.toStandardized.asStr.length ≤ 64
    cases r.domainEvent <;> decide
  · change r.referenceId.length ≤ 255
    rw [hreference, hlength]
    decide
  · exact ⟨by have hnonneg := hr.amountSat.1; change -2 ^ 63 ≤ r.amountSat; omega, hr.amountSat.2⟩

section
variable {db : Db} {outbox : List OutboxEvent}

theorem stored_sequence (hc : Stored r c) : r.sequence = c.sequence := by
  rw [hc.2]
  rfl

theorem read_stored_all (h : List.Forall₂ Stored outbox records)
    (hsound : ∀ r ∈ outbox, Sound db r) :
    ∃ rows, records.mapM OutboxRecord.read = .ok rows ∧ List.Forall₂ Alike outbox rows := by
  induction h with
  | nil => exact ⟨[], rfl, .nil⟩
  | cons hfirst _ ih =>
      obtain ⟨hr, hsound⟩ := List.forall_mem_cons.mp hsound
      obtain ⟨r', hread, halike⟩ := hr.stored_read hfirst
      obtain ⟨rows, hrows, hall⟩ := ih hsound
      exact ⟨r' :: rows, read_all.mpr (.cons hread (read_all.mp hrows)), .cons halike hall⟩

theorem fetchAfterBatch_stored (h : List.Forall₂ Stored outbox records)
    (hsound : ∀ r ∈ outbox, Sound db r) (after : ℤ) :
    ∃ rows, fetchAfterBatch records after = .ok rows ∧
      List.Forall₂ Alike (EventStream.fetchAfterBatch outbox after) rows :=
  read_stored_all (page_related (fun _ _ => stored_sequence) h)
    fun r hr => hsound r (mem_page hr).1

theorem findBySequence_stored (h : List.Forall₂ Stored outbox records)
    (hsound : ∀ r ∈ outbox, Sound db r) (q : ℤ) :
    ∃ found, findBySequence records q = .ok found ∧
      Option.Rel Alike (EventStream.findBySequence outbox q) found := by
  induction h with
  | nil => exact ⟨none, rfl, .none⟩
  | @cons r c outbox records hfirst _ ih =>
      obtain ⟨hr, hsound⟩ := List.forall_mem_cons.mp hsound
      unfold findBySequence EventStream.findBySequence at ih ⊢
      rw [List.find?_cons, List.find?_cons, stored_sequence hfirst]
      by_cases hq : c.sequence = q
      · obtain ⟨r', hread, halike⟩ := hr.stored_read hfirst
        simp only [hq, decide_true, hread]
        exact ⟨some r', rfl, .some halike⟩
      · simp only [hq, decide_false]
        exact ih hsound

end

/-- Whatever has happened: every row is about a payment or an invoice of the database, has a
positive sequence and an amount that is not negative, and fits its columns; and the two
readings return the rows that were published, without an error. In any other table a page is
an error as soon as one of its rows has a type outside the vocabulary. -/
theorem outbox_reads_back {g : Deployment} {D : Discipline (gateway g)}
    {es : List (Event (gateway g))} {s : Pool (gateway g)} (hrun : Runs D (boot g) es s)
    (hstored : List.Forall₂ Stored s.world.db.outbox records) :
    (∀ r ∈ s.world.db.outbox, Sound s.world.db r ∧
        ∀ toText, ((r.toProto toText).sats.toNat : ℤ) = r.amountSat) ∧
      (∀ c ∈ records, c.Fits) ∧
      (∀ after, ∃ rows, fetchAfterBatch records after = .ok rows ∧
        List.Forall₂ Alike (EventStream.fetchAfterBatch s.world.db.outbox after) rows) ∧
      (∀ q, ∃ found, findBySequence records q = .ok found ∧
        Option.Rel Alike (EventStream.findBySequence s.world.db.outbox q) found) ∧
      ∀ table after, (∃ rows, fetchAfterBatch table after = .ok rows) ↔
        ∀ c ∈ page OutboxRecord.sequence backfillBatchSize table after, Readable c := by
  have hsound := (soundOutbox_run hrun).rows
  refine ⟨fun r hr => ⟨hsound r hr, fun toText => ?_⟩, fun c hc => ?_,
    fetchAfterBatch_stored hstored hsound, findBySequence_stored hstored hsound,
    fun _ _ => fetchAfterBatch_ok_iff⟩
  · obtain ⟨hnonneg, hlt⟩ := (hsound r hr).amountSat
    exact safeAmountSat_toNat hnonneg (by omega)
  · obtain ⟨i, hi, rfl⟩ := List.getElem_of_mem hc
    have hlength : i < s.world.db.outbox.length := by
      rw [hstored.length_eq]
      exact hi
    exact (hsound _ (List.getElem_mem hlength)).fits (hstored.get hlength hi)

/-- A store that turns the members of every object around. -/
def turn : Json → Json
  | .obj members => .obj members.reverse
  | j => j

theorem same_turn (j : Json) : Same j (turn j) := by
  cases j with
  | obj members =>
      exact .obj rfl (List.forall₂_same.mpr fun v _ => .same v) (List.reverse_perm members).symm
  | null | bool | num | str | arr => exact .same _

/-- A payment is announced and LND settles it at once. -/
def settledAtOnce : List (Event (gateway Sample.deployment)) :=
  Sample.sendUpToMessage 0 ++
    [.step 0 (.lndPayment (Sample.message 2 Sample.preimage.toHex)), .step 0 (.clock Sample.noon),
      .step 0 (.served Sample.noon)]

theorem outbox_reads_back_turned :
    ∃ s rows, Runs {} (boot Sample.deployment) settledAtOnce s ∧ rows.length = 2 ∧
      fetchAfterBatch (s.world.db.outbox.map fun r =>
        { insertedRecord ⟨r.correlationId, r.domainEvent, r.referenceId, r.amountSat, r.timestamp,
          r.gatewayMetadata⟩ r.sequence with gatewayMetadata := turn r.gatewayMetadata }) 0 =
        .ok rows := by
  obtain ⟨s, hrun, hs⟩ := exists_run_of_play {} (boot Sample.deployment) settledAtOnce
    (fun s => (EventStream.fetchAfterBatch s.world.db.outbox 0).length = 2) (by decide +kernel)
  have hstored : List.Forall₂ Stored s.world.db.outbox (s.world.db.outbox.map fun r =>
      { insertedRecord ⟨r.correlationId, r.domainEvent, r.referenceId, r.amountSat, r.timestamp,
        r.gatewayMetadata⟩ r.sequence with gatewayMetadata := turn r.gatewayMetadata }) :=
    List.forall₂_map_right_iff.mpr
      (List.forall₂_same.mpr fun r _ => ⟨same_turn r.gatewayMetadata, rfl⟩)
  obtain ⟨-, -, hpages, -⟩ := outbox_reads_back hrun hstored
  obtain ⟨rows, hrows, halike⟩ := hpages 0
  exact ⟨s, rows, hrun, halike.length_eq.symm.trans (of_decide_eq_true hs), hrows⟩

end LightningGateway.OutboxRecords
