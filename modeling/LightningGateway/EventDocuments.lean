import LightningGateway.JsonCodecs
import LightningGateway.ProjectionColumns

/-!
# Events as JSON documents

The event tables keep every event as one JSON document: an object with a member `type` and
the fields of that variant. Documents are read by member names, so the order in which the
column keeps the members does not matter. How dates and UUIDs look as text is left to the
crates that own these types.
-/
namespace LightningGateway.EventDocuments
open Primitives EventTables TaskPools OutboxRows JsonCodecs PaymentAggregate InvoiceAggregate
open GatewayStore GatewayMachine GatewayInvariant ProjectionColumns

/-! ### Values -/

/-- The text forms of the date and UUID crates. -/
structure TextForms where
  timestamp : Timestamp → String
  readTimestamp : String → Option Timestamp
  readUuid : String → Option Uuid

/-- Both crates read what they write. -/
structure TextForms.Lawful (f : TextForms) : Prop where
  timestamp : ∀ t, f.readTimestamp (f.timestamp t) = some t
  uuid : ∀ u, f.readUuid u.toText = some u

def string : Codec String := .text id some

def u64 : Codec UInt64 :=
  .number (fun x => x.toNat) fun n =>
    if 0 ≤ n ∧ n < 2 ^ 64 then some (UInt64.ofNat n.toNat) else none

def u32 : Codec UInt32 :=
  .number (fun x => x.toNat) fun n =>
    if 0 ≤ n ∧ n < 2 ^ 32 then some (UInt32.ofNat n.toNat) else none

def paymentHash : Codec PaymentHash :=
  .text PaymentHash.toHex fun s => (PaymentHash.fromStr s).toOption

def preimage : Codec Preimage := .text Preimage.toHex fun s => (Preimage.fromStr s).toOption

def pubkey : Codec Pubkey := .text Pubkey.toHex fun s => (Pubkey.fromStr s).toOption

def milliSatoshi : Codec MilliSatoshi := u64.transparent MilliSatoshi.msat MilliSatoshi.mk

def boltInvoice : Codec BoltInvoice := string.transparent BoltInvoice.text BoltInvoice.mk

def walletId (f : TextForms) : Codec WalletId :=
  (Codec.text Uuid.toText f.readUuid).transparent WalletId.uuid WalletId.mk

def timestamp (f : TextForms) : Codec Timestamp := .text f.timestamp f.readTimestamp

/-! ### Parts of events -/

def hop : Codec Hop where
  encode h := .obj [("pub_key", pubkey.encode h.pubKey), ("channel_id", u64.encode h.channelId),
    ("fee_msat", milliSatoshi.encode h.feeMsat), ("amt_msat", milliSatoshi.encode h.amtMsat),
    ("expiry", u32.encode h.expiry)]
  decode j := do
    let pubKey ← pubkey.member j "pub_key"
    let channelId ← u64.member j "channel_id"
    let feeMsat ← milliSatoshi.member j "fee_msat"
    let amtMsat ← milliSatoshi.member j "amt_msat"
    let expiry ← u32.member j "expiry"
    return ⟨pubKey, channelId, feeMsat, amtMsat, expiry⟩

/-- A variant without content takes no `detail` but null. -/
def bare (r : FailureReason) (j : Json) : Option FailureReason :=
  match j.get? "detail" with
  | none | some .null => some r
  | some _ => none

def failureReason : Codec FailureReason where
  encode r :=
    match r with
    | .timeout => .obj [("kind", string.encode "timeout")]
    | .noRoute => .obj [("kind", string.encode "no_route")]
    | .insufficientBalance => .obj [("kind", string.encode "insufficient_balance")]
    | .incorrectPaymentDetails => .obj [("kind", string.encode "incorrect_payment_details")]
    | .other detail => .obj [("kind", string.encode "other"), ("detail", string.encode detail)]
  decode j :=
    match string.member j "kind" with
    | some "timeout" => bare .timeout j
    | some "no_route" => bare .noRoute j
    | some "insufficient_balance" => bare .insufficientBalance j
    | some "incorrect_payment_details" => bare .incorrectPaymentDetails j
    | some "other" => (string.member j "detail").map .other
    | _ => none

def cancelReason : Codec CancelReason where
  encode r :=
    match r with
    | .expired => .obj [("kind", string.encode "expired")]
  decode j :=
    match string.member j "kind" with
    | some "expired" => some .expired
    | _ => none

/-! ### Events -/

def paymentEvent (f : TextForms) : Codec PaymentEvent where
  encode e :=
    match e with
    | .initiated hash wallet amountMsat maxFeeMsat bolt destination initiatedAt =>
        .obj [("type", string.encode "initiated"), ("payment_hash", paymentHash.encode hash),
          ("wallet_id", (walletId f).encode wallet),
          ("amount_msat", milliSatoshi.encode amountMsat),
          ("max_fee_msat", milliSatoshi.encode maxFeeMsat),
          ("bolt_invoice", boltInvoice.encode bolt), ("destination", string.encode destination),
          ("initiated_at", (timestamp f).encode initiatedAt)]
    | .pending sentAt =>
        .obj [("type", string.encode "pending"), ("sent_at", (timestamp f).encode sentAt)]
    | .completed settledAt paymentPreimage feesPaidMsat routeHops =>
        .obj [("type", string.encode "completed"), ("settled_at", (timestamp f).encode settledAt),
          ("payment_preimage", preimage.encode paymentPreimage),
          ("fees_paid_msat", milliSatoshi.encode feesPaidMsat),
          ("route_hops", hop.list.encode routeHops)]
    | .failed failedAt reason =>
        .obj [("type", string.encode "failed"), ("failed_at", (timestamp f).encode failedAt),
          ("failure_reason", failureReason.encode reason)]
    | .reversed reversedAt reason =>
        .obj [("type", string.encode "reversed"),
          ("reversed_at", (timestamp f).encode reversedAt), ("reason", string.encode reason)]
  decode j :=
    match string.member j "type" with
    | some "initiated" => do
        let hash ← paymentHash.member j "payment_hash"
        let wallet ← (walletId f).member j "wallet_id"
        let amountMsat ← milliSatoshi.member j "amount_msat"
        let maxFeeMsat ← milliSatoshi.member j "max_fee_msat"
        let bolt ← boltInvoice.member j "bolt_invoice"
        let destination ← string.member j "destination"
        let initiatedAt ← (timestamp f).member j "initiated_at"
        return .initiated hash wallet amountMsat maxFeeMsat bolt destination initiatedAt
    | some "pending" => do
        let sentAt ← (timestamp f).member j "sent_at"
        return .pending sentAt
    | some "completed" => do
        let settledAt ← (timestamp f).member j "settled_at"
        let paymentPreimage ← preimage.member j "payment_preimage"
        let feesPaidMsat ← milliSatoshi.member j "fees_paid_msat"
        let routeHops ← hop.list.member j "route_hops"
        return .completed settledAt paymentPreimage feesPaidMsat routeHops
    | some "failed" => do
        let failedAt ← (timestamp f).member j "failed_at"
        let reason ← failureReason.member j "failure_reason"
        return .failed failedAt reason
    | some "reversed" => do
        let reversedAt ← (timestamp f).member j "reversed_at"
        let reason ← string.member j "reason"
        return .reversed reversedAt reason
    | _ => none

def invoiceEvent (f : TextForms) : Codec InvoiceEvent where
  encode e :=
    match e with
    | .created hash paymentPreimage wallet amountMsat expiryAt bolt externalId createdAt =>
        .obj [("type", string.encode "created"), ("payment_hash", paymentHash.encode hash),
          ("payment_preimage", preimage.encode paymentPreimage),
          ("wallet_id", (walletId f).encode wallet),
          ("amount_msat", milliSatoshi.option.encode amountMsat),
          ("expiry_at", (timestamp f).encode expiryAt),
          ("bolt_invoice", boltInvoice.encode bolt), ("external_id", string.encode externalId),
          ("created_at", (timestamp f).encode createdAt)]
    | .htlcHeld heldAt htlcAmountMsat =>
        .obj [("type", string.encode "htlc_held"), ("held_at", (timestamp f).encode heldAt),
          ("htlc_amount_msat", milliSatoshi.encode htlcAmountMsat)]
    | .settled settledAt =>
        .obj [("type", string.encode "settled"), ("settled_at", (timestamp f).encode settledAt)]
    | .settledIntraledger settledAt =>
        .obj [("type", string.encode "settled_intraledger"),
          ("settled_at", (timestamp f).encode settledAt)]
    | .canceled canceledAt reason =>
        .obj [("type", string.encode "canceled"),
          ("canceled_at", (timestamp f).encode canceledAt),
          ("reason", cancelReason.encode reason)]
  decode j :=
    match string.member j "type" with
    | some "created" => do
        let hash ← paymentHash.member j "payment_hash"
        let paymentPreimage ← preimage.member j "payment_preimage"
        let wallet ← (walletId f).member j "wallet_id"
        let amountMsat ← milliSatoshi.optionalMember j "amount_msat"
        let expiryAt ← (timestamp f).member j "expiry_at"
        let bolt ← boltInvoice.member j "bolt_invoice"
        let externalId ← string.member j "external_id"
        let createdAt ← (timestamp f).member j "created_at"
        return .created hash paymentPreimage wallet amountMsat expiryAt bolt externalId createdAt
    | some "htlc_held" => do
        let heldAt ← (timestamp f).member j "held_at"
        let htlcAmountMsat ← milliSatoshi.member j "htlc_amount_msat"
        return .htlcHeld heldAt htlcAmountMsat
    | some "settled" => do
        let settledAt ← (timestamp f).member j "settled_at"
        return .settled settledAt
    | some "settled_intraledger" => do
        let settledAt ← (timestamp f).member j "settled_at"
        return .settledIntraledger settledAt
    | some "canceled" => do
        let canceledAt ← (timestamp f).member j "canceled_at"
        let reason ← cancelReason.member j "reason"
        return .canceled canceledAt reason
    | _ => none

/-! ### Stability -/

theorem string_stable : string.Stable := Codec.text_stable fun _ => rfl

theorem u64_stable : u64.Stable := by
  refine Codec.number_stable fun x => ?_
  have hlt : (x.toNat : ℤ) < 2 ^ 64 := by exact_mod_cast x.toNat_lt
  rw [if_pos ⟨Int.natCast_nonneg _, hlt⟩, Int.toNat_natCast, UInt64.ofNat_toNat]

theorem u32_stable : u32.Stable := by
  refine Codec.number_stable fun x => ?_
  have hlt : (x.toNat : ℤ) < 2 ^ 32 := by exact_mod_cast x.toNat_lt
  rw [if_pos ⟨Int.natCast_nonneg _, hlt⟩, Int.toNat_natCast, UInt32.ofNat_toNat]

theorem paymentHash_stable : paymentHash.Stable :=
  Codec.text_stable fun h => by rw [PaymentHash.fromStr_toHex]; rfl

theorem preimage_stable : preimage.Stable :=
  Codec.text_stable fun p => by rw [Preimage.fromStr_toHex]; rfl

theorem pubkey_stable : pubkey.Stable :=
  Codec.text_stable fun k => by rw [Pubkey.fromStr_toHex]; rfl

theorem milliSatoshi_stable : milliSatoshi.Stable :=
  Codec.transparent_stable u64_stable fun _ => rfl

theorem boltInvoice_stable : boltInvoice.Stable :=
  Codec.transparent_stable string_stable fun _ => rfl

variable {f : TextForms}

theorem walletId_stable (hf : f.Lawful) : (walletId f).Stable :=
  Codec.transparent_stable (Codec.text_stable hf.uuid) fun _ => rfl

theorem timestamp_stable (hf : f.Lawful) : (timestamp f).Stable :=
  Codec.text_stable hf.timestamp

theorem hop_stable : hop.Stable := by
  intro h j hj
  have hdoc : Document _ j := ⟨hj, by simp⟩
  have hpub : pubkey.member j "pub_key" = some h.pubKey := hdoc.read pubkey_stable rfl
  have hchannel : u64.member j "channel_id" = some h.channelId := hdoc.read u64_stable rfl
  have hfee : milliSatoshi.member j "fee_msat" = some h.feeMsat :=
    hdoc.read milliSatoshi_stable rfl
  have hamt : milliSatoshi.member j "amt_msat" = some h.amtMsat :=
    hdoc.read milliSatoshi_stable rfl
  have hexpiry : u32.member j "expiry" = some h.expiry := hdoc.read u32_stable rfl
  simp only [hop, hpub, hchannel, hfee, hamt, hexpiry]
  rfl

theorem bare_missing {r : FailureReason} {members : List (String × Json)} {j : Json}
    (hdoc : Document members j) (hkey : "detail" ∉ members.map Prod.fst) : bare r j = some r := by
  rw [bare, hdoc.get_none hkey]

theorem failureReason_stable : failureReason.Stable := by
  intro r j hj
  cases r with
  | timeout =>
      have hdoc : Document _ j := ⟨hj, by simp⟩
      have hkind : string.member j "kind" = some "timeout" := hdoc.read string_stable rfl
      simp only [failureReason, hkind]
      exact bare_missing hdoc (by simp)
  | noRoute =>
      have hdoc : Document _ j := ⟨hj, by simp⟩
      have hkind : string.member j "kind" = some "no_route" := hdoc.read string_stable rfl
      simp only [failureReason, hkind]
      exact bare_missing hdoc (by simp)
  | insufficientBalance =>
      have hdoc : Document _ j := ⟨hj, by simp⟩
      have hkind : string.member j "kind" = some "insufficient_balance" :=
        hdoc.read string_stable rfl
      simp only [failureReason, hkind]
      exact bare_missing hdoc (by simp)
  | incorrectPaymentDetails =>
      have hdoc : Document _ j := ⟨hj, by simp⟩
      have hkind : string.member j "kind" = some "incorrect_payment_details" :=
        hdoc.read string_stable rfl
      simp only [failureReason, hkind]
      exact bare_missing hdoc (by simp)
  | other detail =>
      have hdoc : Document _ j := ⟨hj, by simp⟩
      have hkind : string.member j "kind" = some "other" := hdoc.read string_stable rfl
      have hdetail : string.member j "detail" = some detail := hdoc.read string_stable rfl
      simp only [failureReason, hkind, hdetail]
      rfl

theorem cancelReason_stable : cancelReason.Stable := by
  intro r j hj
  cases r with
  | expired =>
      have hdoc : Document _ j := ⟨hj, by simp⟩
      have hkind : string.member j "kind" = some "expired" := hdoc.read string_stable rfl
      simp only [cancelReason, hkind]

theorem paymentEvent_stable (hf : f.Lawful) : (paymentEvent f).Stable := by
  intro e j hj
  cases e with
  | initiated hash wallet amountMsat maxFeeMsat bolt destination initiatedAt =>
      have hdoc : Document _ j := ⟨hj, by simp⟩
      have htype : string.member j "type" = some "initiated" := hdoc.read string_stable rfl
      have hhash : paymentHash.member j "payment_hash" = some hash :=
        hdoc.read paymentHash_stable rfl
      have hwallet : (walletId f).member j "wallet_id" = some wallet :=
        hdoc.read (walletId_stable hf) rfl
      have hamount : milliSatoshi.member j "amount_msat" = some amountMsat :=
        hdoc.read milliSatoshi_stable rfl
      have hfee : milliSatoshi.member j "max_fee_msat" = some maxFeeMsat :=
        hdoc.read milliSatoshi_stable rfl
      have hbolt : boltInvoice.member j "bolt_invoice" = some bolt :=
        hdoc.read boltInvoice_stable rfl
      have hdestination : string.member j "destination" = some destination :=
        hdoc.read string_stable rfl
      have hinitiated : (timestamp f).member j "initiated_at" = some initiatedAt :=
        hdoc.read (timestamp_stable hf) rfl
      simp only [paymentEvent, htype, hhash, hwallet, hamount, hfee, hbolt, hdestination,
        hinitiated]
      rfl
  | pending sentAt =>
      have hdoc : Document _ j := ⟨hj, by simp⟩
      have htype : string.member j "type" = some "pending" := hdoc.read string_stable rfl
      have hsent : (timestamp f).member j "sent_at" = some sentAt :=
        hdoc.read (timestamp_stable hf) rfl
      simp only [paymentEvent, htype, hsent]
      rfl
  | completed settledAt paymentPreimage feesPaidMsat routeHops =>
      have hdoc : Document _ j := ⟨hj, by simp⟩
      have htype : string.member j "type" = some "completed" := hdoc.read string_stable rfl
      have hsettled : (timestamp f).member j "settled_at" = some settledAt :=
        hdoc.read (timestamp_stable hf) rfl
      have hpreimage : preimage.member j "payment_preimage" = some paymentPreimage :=
        hdoc.read preimage_stable rfl
      have hfees : milliSatoshi.member j "fees_paid_msat" = some feesPaidMsat :=
        hdoc.read milliSatoshi_stable rfl
      have hhops : hop.list.member j "route_hops" = some routeHops :=
        hdoc.read (Codec.list_stable hop_stable) rfl
      simp only [paymentEvent, htype, hsettled, hpreimage, hfees, hhops]
      rfl
  | failed failedAt reason =>
      have hdoc : Document _ j := ⟨hj, by simp⟩
      have htype : string.member j "type" = some "failed" := hdoc.read string_stable rfl
      have hfailed : (timestamp f).member j "failed_at" = some failedAt :=
        hdoc.read (timestamp_stable hf) rfl
      have hreason : failureReason.member j "failure_reason" = some reason :=
        hdoc.read failureReason_stable rfl
      simp only [paymentEvent, htype, hfailed, hreason]
      rfl
  | reversed reversedAt reason =>
      have hdoc : Document _ j := ⟨hj, by simp⟩
      have htype : string.member j "type" = some "reversed" := hdoc.read string_stable rfl
      have hreversed : (timestamp f).member j "reversed_at" = some reversedAt :=
        hdoc.read (timestamp_stable hf) rfl
      have hreason : string.member j "reason" = some reason := hdoc.read string_stable rfl
      simp only [paymentEvent, htype, hreversed, hreason]
      rfl

theorem invoiceEvent_stable (hf : f.Lawful) : (invoiceEvent f).Stable := by
  intro e j hj
  cases e with
  | created hash paymentPreimage wallet amountMsat expiryAt bolt externalId createdAt =>
      have hdoc : Document _ j := ⟨hj, by simp⟩
      have htype : string.member j "type" = some "created" := hdoc.read string_stable rfl
      have hhash : paymentHash.member j "payment_hash" = some hash :=
        hdoc.read paymentHash_stable rfl
      have hpreimage : preimage.member j "payment_preimage" = some paymentPreimage :=
        hdoc.read preimage_stable rfl
      have hwallet : (walletId f).member j "wallet_id" = some wallet :=
        hdoc.read (walletId_stable hf) rfl
      have hamount : milliSatoshi.optionalMember j "amount_msat" = some amountMsat :=
        hdoc.readOptional (Codec.option_stable milliSatoshi_stable fun _ => nofun) rfl
      have hexpiry : (timestamp f).member j "expiry_at" = some expiryAt :=
        hdoc.read (timestamp_stable hf) rfl
      have hbolt : boltInvoice.member j "bolt_invoice" = some bolt :=
        hdoc.read boltInvoice_stable rfl
      have hexternal : string.member j "external_id" = some externalId :=
        hdoc.read string_stable rfl
      have hcreated : (timestamp f).member j "created_at" = some createdAt :=
        hdoc.read (timestamp_stable hf) rfl
      simp only [invoiceEvent, htype, hhash, hpreimage, hwallet, hamount, hexpiry, hbolt,
        hexternal, hcreated]
      rfl
  | htlcHeld heldAt htlcAmountMsat =>
      have hdoc : Document _ j := ⟨hj, by simp⟩
      have htype : string.member j "type" = some "htlc_held" := hdoc.read string_stable rfl
      have hheld : (timestamp f).member j "held_at" = some heldAt :=
        hdoc.read (timestamp_stable hf) rfl
      have hamount : milliSatoshi.member j "htlc_amount_msat" = some htlcAmountMsat :=
        hdoc.read milliSatoshi_stable rfl
      simp only [invoiceEvent, htype, hheld, hamount]
      rfl
  | settled settledAt =>
      have hdoc : Document _ j := ⟨hj, by simp⟩
      have htype : string.member j "type" = some "settled" := hdoc.read string_stable rfl
      have hsettled : (timestamp f).member j "settled_at" = some settledAt :=
        hdoc.read (timestamp_stable hf) rfl
      simp only [invoiceEvent, htype, hsettled]
      rfl
  | settledIntraledger settledAt =>
      have hdoc : Document _ j := ⟨hj, by simp⟩
      have htype : string.member j "type" = some "settled_intraledger" :=
        hdoc.read string_stable rfl
      have hsettled : (timestamp f).member j "settled_at" = some settledAt :=
        hdoc.read (timestamp_stable hf) rfl
      simp only [invoiceEvent, htype, hsettled]
      rfl
  | canceled canceledAt reason =>
      have hdoc : Document _ j := ⟨hj, by simp⟩
      have htype : string.member j "type" = some "canceled" := hdoc.read string_stable rfl
      have hcanceled : (timestamp f).member j "canceled_at" = some canceledAt :=
        hdoc.read (timestamp_stable hf) rfl
      have hreason : cancelReason.member j "reason" = some reason :=
        hdoc.read cancelReason_stable rfl
      simp only [invoiceEvent, htype, hcanceled, hreason]
      rfl

/-! ### Loading an aggregate -/

/-- The documents that a column returns for a log. -/
def Keeps {E : Type} (c : Codec E) (log : List E) (docs : List Json) : Prop :=
  List.Forall₂ Same (log.map c.encode) docs

/-- Load a payment from the documents of its events; `none` when one cannot be read. -/
def loadPayment (f : TextForms) (id : PaymentId) (docs : List Json) :
    Option (Except FindError Payment) :=
  (docs.mapM (paymentEvent f).decode).map fun events => Payment.tryFromEvents ⟨id, events, []⟩

def loadInvoice (f : TextForms) (id : InvoiceId) (docs : List Json) :
    Option (Except FindError Invoice) :=
  (docs.mapM (invoiceEvent f).decode).map fun events => Invoice.tryFromEvents ⟨id, events, []⟩

/-- The member `type` of an event. -/
def variantName : PaymentEvent → String
  | .initiated .. => "initiated"
  | .pending .. => "pending"
  | .completed .. => "completed"
  | .failed .. => "failed"
  | .reversed .. => "reversed"

theorem variantName_read {e : PaymentEvent} {j : Json}
    (hj : Same ((paymentEvent f).encode e) j) : string.member j "type" = some (variantName e) := by
  cases e with
  | _ => exact Document.read ⟨hj, by simp⟩ string_stable rfl

/-- The two tables name their variants differently. -/
theorem not_invoiceEvent {e : PaymentEvent} {j : Json}
    (hj : Same ((paymentEvent f).encode e) j) : (invoiceEvent f).decode j = none := by
  simp only [invoiceEvent, variantName_read hj]
  cases e with
  | _ => rfl

variable {g : Deployment}

/-- Whatever has happened, and in whatever order a column keeps the members: every payment and
every invoice loads from its documents as its row says; one document is never that of two
events, and no document of a payment event can be read as an invoice event. -/
theorem documents_load (hf : f.Lawful) {D : Discipline (gateway g)} {es : List (Event (gateway g))}
    {s : Pool (gateway g)} (hrun : Runs D (boot g) es s) :
    (∀ r ∈ s.world.db.payments.rows, ∀ docs, Keeps (paymentEvent f) r.events docs →
        ∃ p, Payments.hydrate r = .ok p ∧ loadPayment f r.id docs = some (.ok p)) ∧
      (∀ r ∈ s.world.db.invoices.rows, ∀ docs, Keeps (invoiceEvent f) r.events docs →
        ∃ i, Invoices.hydrate r = .ok i ∧ loadInvoice f r.id docs = some (.ok i)) ∧
      (∀ e e' j, Same ((paymentEvent f).encode e) j → Same ((paymentEvent f).encode e') j →
        e = e') ∧
      (∀ e e' j, Same ((invoiceEvent f).encode e) j → Same ((invoiceEvent f).encode e') j →
        e = e') ∧
      ∀ e j, Same ((paymentEvent f).encode e) j → (invoiceEvent f).decode j = none := by
  have hdb := dbOk_run hrun
  have hpayment := paymentEvent_stable hf
  have hinvoice := invoiceEvent_stable hf
  refine ⟨fun r hr docs hdocs => ?_, fun r hr docs hdocs => ?_, fun e e' j hj hj' => ?_,
    fun e e' j hj hj' => ?_, fun e j hj => not_invoiceEvent hj⟩
  · obtain ⟨p, hp⟩ := hydrate_payment hdb hr
    refine ⟨p, hp, ?_⟩
    rw [loadPayment, Codec.decode_all hpayment hdocs, Option.map_some]
    exact congrArg some hp
  · obtain ⟨i, hi, -⟩ := hydrate_invoice hdb hr
    refine ⟨i, hi, ?_⟩
    rw [loadInvoice, Codec.decode_all hinvoice hdocs, Option.map_some]
    exact congrArg some hi
  · exact Option.some.inj ((hpayment e j hj).symm.trans (hpayment e' j hj'))
  · exact Option.some.inj ((hinvoice e j hj).symm.trans (hinvoice e' j hj'))

/-! ### A sample of the text forms -/

namespace Sample

open GatewayMachine.Sample

/-- Dates as the crate writes them at `noon`; other dates do not occur in the sample. -/
def printTimestamp (t : Timestamp) : String :=
  if t = noon then "2017-06-01T10:57:40Z"
  else String.ofList ((if t.nanos < 0 then '-' else '+') :: List.replicate t.nanos.natAbs '1')

def readTimestamp (s : String) : Option Timestamp :=
  if s = "2017-06-01T10:57:40Z" then some noon
  else
    match s.toList with
    | '-' :: rest => some ⟨-rest.length⟩
    | '+' :: rest => some ⟨rest.length⟩
    | _ => none

theorem readTimestamp_print (t : Timestamp) : readTimestamp (printTimestamp t) = some t := by
  unfold printTimestamp readTimestamp
  by_cases ht : t = noon
  · simp only [ht, if_true]
  · have hother (c : Char) (hc : c ≠ '2') (rest : List Char) :
        String.ofList (c :: rest) ≠ "2017-06-01T10:57:40Z" := by
      intro h
      have hchars := congrArg String.toList h
      rw [String.toList_ofList] at hchars
      exact hc (List.cons.inj hchars).1
    rw [if_neg ht]
    by_cases hneg : t.nanos < 0
    · rw [if_pos hneg, if_neg (hother '-' (by decide) _), String.toList_ofList]
      simp only [List.length_replicate]
      exact congrArg some (congrArg Timestamp.mk (by omega))
    · rw [if_neg hneg, if_neg (hother '+' (by decide) _), String.toList_ofList]
      simp only [List.length_replicate]
      exact congrArg some (congrArg Timestamp.mk (by omega))

/-- A UUID without its hyphens. -/
def readUuid (s : String) : Option Uuid :=
  match hexDecode (String.ofList (s.toList.filter fun c => c ≠ '-')) with
  | .ok bytes => if h : bytes.length = 16 then some ⟨bytes, h⟩ else none
  | .error _ => none

theorem hexEncode_plain (bytes : List UInt8) :
    (hexEncode bytes).toList.filter (fun c => c ≠ '-') = (hexEncode bytes).toList := by
  have hdigit (n : ℕ) (hn : n < 16) : hexDigit n ≠ '-' := by
    interval_cases n <;> decide
  rw [hexEncode, String.toList_ofList, List.filter_eq_self]
  intro c hc
  obtain ⟨b, -, hb⟩ := List.mem_flatMap.mp hc
  have hlt := b.toNat_lt
  rcases List.mem_cons.mp hb with rfl | hb
  · exact decide_eq_true (hdigit _ (by omega))
  · obtain rfl := List.mem_singleton.mp hb
    exact decide_eq_true (hdigit _ (by omega))

theorem readUuid_toText (u : Uuid) : readUuid u.toText = some u := by
  have hplain : u.toText.toList.filter (fun c => c ≠ '-') = (hexEncode u.bytes).toList := by
    unfold Uuid.toText
    have hdash : "-".toList.filter (fun c => c ≠ '-') = [] := by decide
    have hbytes : u.bytes.take 4 ++ (u.bytes.drop 4).take 2 ++ (u.bytes.drop 6).take 2 ++
        (u.bytes.drop 8).take 2 ++ u.bytes.drop 10 = u.bytes := by
      have hnext (n : ℕ) : (u.bytes.drop n).take 2 ++ u.bytes.drop (n + 2) = u.bytes.drop n := by
        rw [← List.drop_drop, List.take_append_drop]
      rw [List.append_assoc, hnext 8, List.append_assoc, hnext 6, List.append_assoc, hnext 4,
        List.take_append_drop]
    simp only [String.toList_append, List.filter_append, hexEncode_plain, hdash, List.append_nil]
    simp only [hexEncode, String.toList_ofList, ← List.flatMap_append]
    rw [hbytes]
  unfold readUuid
  rw [hplain, String.ofList_toList, hexDecode_hexEncode]
  exact dif_pos u.size

def forms : TextForms := ⟨printTimestamp, readTimestamp, readUuid⟩

theorem forms_lawful : forms.Lawful := by
  constructor
  · simp only [forms]
    exact readTimestamp_print
  · simp only [forms]
    exact readUuid_toText

/-- A document with its members the other way round. -/
def turned : Json → Json
  | .obj members => .obj members.reverse
  | j => j

theorem same_turned (j : Json) : Same j (turned j) := by
  cases j with
  | obj members =>
      exact .obj rfl (List.forall₂_same.mpr fun v _ => .same v) members.reverse_perm.symm
  | _ => exact .same _

/-- A payment is sent, and LND's update reports it settled. -/
def settledRun : List (Event (gateway deployment)) :=
  sendUpToMessage 0 ++
    [.env (.receive hash), .step 0 (.lndPayment (message 1 "")), .step 0 (.served noon),
      .env (.resolve hash true), .spawn (.handlePaymentUpdate settledUpdate),
      .step 1 (.served noon), .step 1 (.clock noon), .step 1 (.clock noon), .step 1 (.served noon)]

theorem documents_load_turned :
    ∃ s r p, Runs {} (boot deployment) settledRun s ∧ r ∈ s.world.db.payments.rows ∧
      r.events.length = 3 ∧ loadPayment forms r.id (r.events.map fun e => turned ((paymentEvent forms).encode e)) =
        some (.ok p) := by
  obtain ⟨s, hrun, hc⟩ := exists_run_of_play {} (boot deployment) settledRun
    (fun s => s.world.db.payments.rows.any fun r => r.events.length = 3) (by decide +kernel)
  obtain ⟨r, hr, hlength⟩ := List.any_eq_true.mp hc
  have hkept : Keeps (paymentEvent forms) r.events
      (r.events.map fun e => turned ((paymentEvent forms).encode e)) := by
    unfold Keeps
    rw [List.forall₂_map_left_iff, List.forall₂_map_right_iff]
    exact List.forall₂_same.mpr fun e _ => same_turned _
  obtain ⟨p, -, hload⟩ := (documents_load forms_lawful hrun).1 r hr _ hkept
  exact ⟨s, r, p, hrun, hr, of_decide_eq_true hlength, hload⟩

end Sample

end LightningGateway.EventDocuments
