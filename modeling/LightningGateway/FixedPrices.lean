import LightningGateway.CallSites
import LightningGateway.OutgoingAmounts
import LightningGateway.StoreSpecs

/-!
# Prices the sender cannot set

A recipient's invoice commits to an amount. The sender brings an invoice text of its own
for the same hash, and `send_intraledger_payment` takes the amount from the recipient's
invoice alone: either it stops before `AuthorizeSpend`, or the journal, the payment, its
row and the metadata all carry the committed amount rounded up. The statements range over
all traces of the program, with answers the world can give at any moment.
-/
namespace LightningGateway.FixedPrices
open Primitives EffectPrograms PaymentAggregate InvoiceAggregate OutboxRows LndWire SymphonyWire
open GatewayStore GatewayEffects PeerCalls PaymentFlows GatewayMachine CallSites OutgoingAmounts

variable {crates : Crates} {decoded : DecodedInvoice} {recipient : Invoice} {at_ : Timestamp}
variable {request : SendPaymentRequest} {calls past : Calls} {r : Except AppError Payment}
variable {m x : MilliSatoshi} {a : UInt64} {id : Uuid} {n : NewPayment}

/-- An answer that the world can give, whatever has happened since the call before. -/
def Possible (crates : Crates) (c : Call gatewaySignature) : Prop :=
  ∃ choice w w', exec crates c.op choice w = some (c.ans, w')

theorem Possible.tx {b : Transaction} {v : b.Result} (h : Possible crates ⟨.tx b, .ok v⟩) :
    ∃ t db db', b.run t db = .ok (v, db') := by
  obtain ⟨choice, w, w', hexec⟩ := h
  cases choice with
  | served t =>
      have hcommit : w.commit b t = (.ok v, w') := Option.some.inj hexec
      unfold World.commit at hcommit
      split at hcommit
      case h_1 v' db' hrun =>
        cases hcommit
        exact ⟨t, w.db, _, hrun⟩
      case h_2 => cases hcommit
  | ackLost t => cases hexec
  | dbFault => cases hexec
  | _ => cases hexec

/-! ### The amount -/

theorem intraledgerAmount_committed :
    NewPayment.intraledgerAmount decoded (some m) =
      if ∃ x, decoded.amountMsat = some x ∧ x ≠ m then .error .amountMismatch else .ok m := by
  unfold NewPayment.intraledgerAmount
  cases hd : decoded.amountMsat with
  | none => simp
  | some x => by_cases hx : x = m <;> simp [hx]

theorem tryNewIntraledger_mismatch (hd : decoded.amountMsat = some x) (hx : x ≠ m)
    (id : Uuid) (walletId : WalletId) (t : Timestamp) :
    NewPayment.tryNewIntraledger id decoded (some m) walletId t = .error .amountMismatch := by
  unfold NewPayment.tryNewIntraledger
  rw [intraledgerAmount_committed, if_pos ⟨x, hd, hx⟩]
  rfl

/-- A payment that is built has the committed amount and no fee. -/
theorem tryNewIntraledger_committed {walletId : WalletId}
    (h : NewPayment.tryNewIntraledger id decoded (some m) walletId at_ = .ok n) :
    n.amountMsat = m ∧ n.maxFeeMsat = .zero := by
  unfold NewPayment.tryNewIntraledger at h
  rw [intraledgerAmount_committed] at h
  by_cases hd : ∃ x, decoded.amountMsat = some x ∧ x ≠ m
  · rw [if_pos hd] at h
    cases h
  · rw [if_neg hd] at h
    change (if _ then _ else _) = _ at h
    split_ifs at h
    cases h
    exact ⟨rfl, rfl⟩

/-- What a committed transfer hands back. -/
theorem run_transfer_amounts {preimage : Preimage} {t clock : Timestamp} {i : Invoice}
    {e : NewOutboxEvent} {q : Payment} {db db' : Db}
    (h : (Transaction.transfer n preimage t i e).run clock db = .ok (q, db')) :
    q.amountMsat = n.amountMsat ∧ q.maxFeeMsat = n.maxFeeMsat ∧ q.feesPaidMsat = some .zero := by
  obtain ⟨p₁, db₁, c₁, p₂, db₃, c₂, i₂, i₃, db₅, h₁, hsettle, h₃, -, -, -⟩ :=
    StoreSpecs.run_transfer_steps h
  obtain ⟨r, tbl, -, -, -, -, -, -, -, hp⟩ := StoreSpecs.payments_createInOp h₁
  -- The payment was created in this transaction, so settling it takes effect.
  obtain ⟨p₀, hp₀, -, -, hstate, htracks⟩ := PaymentLogs.created_tracks n
  cases hp.symm.trans hp₀
  obtain ⟨p', hp'⟩ := PaymentLogs.settle_live preimage .zero [] t htracks (.inl hstate)
  cases hsettle.symm.trans hp'
  obtain ⟨-, -, -, hevents, htracks'⟩ := PaymentLogs.settle_executed htracks hp'
  obtain ⟨_, -, -, rfl⟩ := StoreSpecs.payments_updateInOp (by simp [hevents]) h₃
  exact ⟨htracks'.amountMsat, htracks'.maxFeeMsat,
    congrArg Payment.feesPaidMsat (Payment.settle_eq hp')⟩

/-! ### Every call uses it -/

/-- A call that moves or records money does so with `m`. -/
def UsesAmount (m : MilliSatoshi) : Op → Prop
  | .authorizeSpend request => request.satAmount * 1000 = m.msat.toNat
  | .tx (.transfer n _ _ _ e) => n.amountMsat = m ∧ n.maxFeeMsat = .zero ∧
      e.amountSat * 1000 = m.msat.toNat ∧
      e.gatewayMetadata.get? "amount_msat" = some (.num m.msat.toNat)
  | .tx _ => False
  | _ => True

/-- A success hands back what the transfer has written. -/
def Transferred (m : MilliSatoshi) (past : Calls) (r : Except AppError Payment) : Prop :=
  ∀ p, r = .ok p → ∃ n preimage t i e, n.amountMsat = m ∧ n.maxFeeMsat = .zero ∧
    Answered past (.tx (.transfer n preimage t i e)) (.ok p)

theorem Transferred.error (e : AppError) : Transferred m past (.error e) := by
  rintro p ⟨⟩

theorem sats_exact (h : 1000 ∣ m.msat.toNat) : asI64 m.wholeSat * 1000 = m.msat.toNat := by
  rw [asI64_wholeSat]
  omega

theorem authorizeAndTransfer_uses (hfee : n.maxFeeMsat = .zero)
    (hm : 1000 ∣ n.amountMsat.msat.toNat) {k : PaymentHash} :
    Emits (fun _ => UsesAmount n.amountMsat) (Transferred n.amountMsat) past
      (authorizeAndTransfer request n k recipient at_).run := by
  unfold authorizeAndTransfer
  refine authorizeSpend_bind _ (sats_exact hm) fun answer => ?_
  split
  next e _ => exact .error _
  next resp _ =>
    split_ifs
    · exact .error _
    · refine cancelInvoice_bind trivial ?_ fun _ => .error _
      refine now_bind trivial fun utcNow => ?_
      refine transact_last (b := .transfer ..) ⟨rfl, hfee, sats_exact hm, rfl⟩ fun r p hp => ?_
      subst hp
      exact ⟨n, _, _, _, _, rfl, hfee, answered_last⟩

theorem sendIntraledgerPayment_uses (ha : recipient.amountMsat.map MilliSatoshi.roundUpToSat = some m)
    (hm : 1000 ∣ m.msat.toNat) :
    Emits (fun _ => UsesAmount m) (Transferred m) past
      (sendIntraledgerPayment request decoded recipient at_).run := by
  unfold sendIntraledgerPayment
  rw [ha]
  refine checkWalletOwnership_bind trivial ?_ fun _ => .error _
  refine ofExcept_bind (fun _ _ => ?_) fun _ _ => .error _
  refine newUuid_bind trivial fun id => ?_
  refine ofExcept_bind (fun n hn => ?_) fun _ _ => .error _
  obtain ⟨hamount, hfee⟩ := tryNewIntraledger_committed hn
  exact hamount ▸ authorizeAndTransfer_uses hfee (hamount ▸ hm)

/-! ### A sender that names another amount -/

/-- Calls that touch no money and write nothing. -/
def Reads : Op → Prop
  | .checkOwnership .. | .newUuid => True
  | _ => False

/-- Why a differing amount is refused: a guard before the amounts are compared, or the
comparison. -/
inductive Refused (request : SendPaymentRequest) (hash : PaymentHash) (recipient : Invoice)
    (at_ : Timestamp) (past : Calls) : Except AppError Payment → Prop where
  | unowned {e : String} :
      Answered past (.checkOwnership request.callerAuth request.walletId) (.error e) →
      Refused request hash recipient at_ past (.error (.walletOwnership e))
  | guarded {e : PaymentError} : recipientGuard request.walletId hash recipient at_ = .error e →
      Refused request hash recipient at_ past (.error (.payment e))
  | mismatch : Answered past (.checkOwnership request.callerAuth request.walletId) (.ok ()) →
      recipientGuard request.walletId hash recipient at_ = .ok () →
      Refused request hash recipient at_ past (.error (.payment .amountMismatch))

theorem sendIntraledgerPayment_mismatch (hd : decoded.amountMsat = some x) (hx : x ≠ m)
    (ha : recipient.amountMsat.map MilliSatoshi.roundUpToSat = some m) :
    Emits (fun _ => Reads) (Refused request decoded.paymentHash recipient at_) past
      (sendIntraledgerPayment request decoded recipient at_).run := by
  unfold sendIntraledgerPayment
  rw [ha]
  refine checkWalletOwnership_bind trivial ?_ fun e => .unowned answered_last
  refine ofExcept_bind (fun _ hguard => ?_) fun e he => .guarded he
  refine newUuid_bind trivial fun id => ?_
  refine ofExcept_bind (fun n hn => ?_) fun e he => ?_
  · exact absurd (hn.symm.trans (tryNewIntraledger_mismatch hd hx ..)) nofun
  · cases he.symm.trans (tryNewIntraledger_mismatch hd hx ..)
    exact .mismatch answered_last.later hguard

/-! ### The price is the recipient's -/

/-- Up to the largest amount a column can hold, the word that is used is the next whole
number of satoshis. -/
theorem committed_isLeast (ha : a.toNat ≤ 2 ^ 63 - 1) :
    IsLeast {n | 1000 ∣ n ∧ a.toNat ≤ n} (amountFor a).msat.toNat := by
  rw [amountFor, roundUpToSat_eq (m := ⟨a⟩) (by dsimp only; omega)]
  exact Rounding.isLeast_roundUpTo (by norm_num) _

/-- What one call of `send_intraledger_payment` does with the amount `m`. -/
structure Priced (m : MilliSatoshi) (calls : Calls) (r : Except AppError Payment) : Prop where
  uses : ∀ c ∈ calls, UsesAmount m c.op
  returns : ∀ p, r = .ok p → p.amountMsat = m ∧ p.maxFeeMsat = .zero ∧
    p.feesPaidMsat = some .zero

theorem priced_of_traces (ha : recipient.amountMsat = some ⟨a⟩) (hmax : a.toNat ≤ 2 ^ 63 - 1)
    (ht : Traces (sendIntraledgerPayment request decoded recipient at_).run calls r)
    (hp : ∀ c ∈ calls, Possible crates c) : Priced (amountFor a) calls r := by
  have hround : recipient.amountMsat.map MilliSatoshi.roundUpToSat = some (amountFor a) := by
    rw [ha]
    rfl
  have hemits : Emits (fun _ => UsesAmount (amountFor a)) (Transferred (amountFor a)) []
      (sendIntraledgerPayment request decoded recipient at_).run :=
    sendIntraledgerPayment_uses hround (committed_isLeast hmax).1.1
  refine ⟨fun c hc => (ht.justified hemits hc).elim fun _ h => h, fun p hok => ?_⟩
  obtain ⟨n, preimage, t, i, e, hamount, hfee, hanswered⟩ := ht.describes hemits p hok
  obtain ⟨clock, db, db', hrun⟩ := (hp _ (by simpa [Answered] using hanswered)).tx
  obtain ⟨hq, hqfee, hqpaid⟩ := run_transfer_amounts hrun
  exact ⟨hq.trans hamount, hqfee.trans hfee, hqpaid⟩

/-- The price of a fixed-amount invoice is set by the recipient. Whatever text and amount the
sender brings, every call that moves or records money uses the next whole satoshi of the
committed amount and no fee, two senders that succeed pay the same, and a sender that names
another amount is refused before anything is authorized: by a guard that comes first, or else
for the mismatch. -/
theorem sender_cannot_price (crates : Crates) (ha : recipient.amountMsat = some ⟨a⟩)
    (hmax : a.toNat ≤ 2 ^ 63 - 1) :
    IsLeast {n | 1000 ∣ n ∧ a.toNat ≤ n} (amountFor a).msat.toNat ∧
      (∀ request decoded at_ calls r,
        Traces (sendIntraledgerPayment request decoded recipient at_).run calls r →
        (∀ c ∈ calls, Possible crates c) → Priced (amountFor a) calls r) ∧
      (∀ request₁ decoded₁ at₁ calls₁ p₁ request₂ decoded₂ at₂ calls₂ p₂,
        Traces (sendIntraledgerPayment request₁ decoded₁ recipient at₁).run calls₁ (.ok p₁) →
        (∀ c ∈ calls₁, Possible crates c) →
        Traces (sendIntraledgerPayment request₂ decoded₂ recipient at₂).run calls₂ (.ok p₂) →
        (∀ c ∈ calls₂, Possible crates c) → p₁.amountMsat = p₂.amountMsat) ∧
      ∀ request decoded at_ x, decoded.amountMsat = some x → x ≠ amountFor a →
        (∀ id walletId, NewPayment.tryNewIntraledger id decoded
          (recipient.amountMsat.map MilliSatoshi.roundUpToSat) walletId at_ =
            .error .amountMismatch) ∧
        ∀ calls r, Traces (sendIntraledgerPayment request decoded recipient at_).run calls r →
          (∀ c ∈ calls, Reads c.op) ∧
            Refused request decoded.paymentHash recipient at_ calls r := by
  have hround : recipient.amountMsat.map MilliSatoshi.roundUpToSat = some (amountFor a) := by
    rw [ha]
    rfl
  refine ⟨committed_isLeast hmax, fun _ _ _ _ _ ht hp => priced_of_traces ha hmax ht hp, ?_, ?_⟩
  · intro _ _ _ _ p₁ _ _ _ _ p₂ ht₁ hp₁ ht₂ hp₂
    have h₁ := (priced_of_traces ha hmax ht₁ hp₁).returns p₁ rfl
    have h₂ := (priced_of_traces ha hmax ht₂ hp₂).returns p₂ rfl
    exact h₁.1.trans h₂.1.symm
  · intro request decoded at_ x hd hx
    refine ⟨fun id walletId => ?_, fun calls r ht => ?_⟩
    · rw [hround]
      exact tryNewIntraledger_mismatch hd hx id walletId at_
    · have hemits : Emits (fun _ => Reads) (Refused request decoded.paymentHash recipient at_) []
          (sendIntraledgerPayment request decoded recipient at_).run :=
        sendIntraledgerPayment_mismatch hd hx hround
      exact ⟨fun c hc => (ht.justified hemits hc).elim fun _ h => h, by
        simpa using ht.describes hemits⟩

/-- An open invoice of the wallet `w` over `m` millisatoshis. -/
def standingInvoice (w : WalletId) (m : UInt64) : Invoice :=
  ⟨Sample.invoiceId, Sample.hash, Sample.preimage, w, some ⟨m⟩, ⟨Sample.noon.nanos + 1⟩,
    ⟨Sample.text⟩, Sample.hash.toHex, .opened, Sample.noon, none, none,
    ⟨Sample.invoiceId, [], []⟩⟩

/-- What a sender brings that asks for `m` millisatoshis for the same hash. -/
def carried (m : UInt64) : DecodedInvoice :=
  ⟨Sample.hash, "", some ⟨m⟩, ⟨Sample.text⟩⟩

set_option maxRecDepth 4096 in
/-- A sender of the committed amount, whose authorization fails. -/
theorem sender_cannot_price_unavailable : ∃ calls r,
    Traces (sendIntraledgerPayment Sample.payRequest (carried 2000)
      (standingInvoice Sample.payeeWallet 1500) Sample.noon).run calls r ∧
    (∃ c ∈ calls, isAuthorize c.op = true) ∧ Priced (amountFor 1500) calls r := by
  have ht : Traces (sendIntraledgerPayment Sample.payRequest (carried 2000)
      (standingInvoice Sample.payeeWallet 1500) Sample.noon).run
      [⟨.checkOwnership Sample.payRequest.callerAuth Sample.payRequest.walletId, .ok ()⟩,
        ⟨.newUuid, Sample.paymentId⟩,
        ⟨.authorizeSpend (toWire (transferRequest Sample.hash Sample.payerWallet
          Sample.payeeWallet ⟨2000⟩)), .error ⟨14, "unavailable"⟩⟩]
      (.error (.symphony (.status ⟨14, "unavailable"⟩))) :=
    .call (.call (.call .ret))
  have hrecipient : (standingInvoice Sample.payeeWallet 1500).amountMsat = some ⟨1500⟩ := rfl
  have hlaw := sender_cannot_price Sample.crates hrecipient (by decide)
  refine ⟨_, _, ht, ?_, hlaw.2.1 _ _ _ _ _ ht fun c hc => ?_⟩
  · exact ⟨_, List.mem_cons_of_mem _ (List.mem_cons_of_mem _ List.mem_cons_self), rfl⟩
  · simp only [List.mem_cons, List.not_mem_nil, or_false] at hc
    rcases hc with rfl | rfl | rfl
    · exact ⟨.ownership (.ok ()), .empty, .empty, rfl⟩
    · exact ⟨.uuid Sample.paymentId, .empty, .empty, rfl⟩
    · exact ⟨.symphony false (.error ⟨14, "unavailable"⟩), .empty, .empty, rfl⟩

/-- The sender's own invoice, carried with another amount: the guard against paying oneself
answers, not the comparison of the amounts. -/
theorem mismatch_behind_guard : ¬ ∀ (recipient : Invoice) (a : UInt64) (decoded : DecodedInvoice)
    (x : MilliSatoshi) (request : SendPaymentRequest) (at_ : Timestamp) (calls : Calls)
    (r : Except AppError Payment),
    recipient.amountMsat = some ⟨a⟩ → 0 < a.toNat → a.toNat ≤ 2 ^ 63 - 1 →
    decoded.paymentHash = recipient.paymentHash → decoded.amountMsat = some x → x ≠ amountFor a →
    Traces (sendIntraledgerPayment request decoded recipient at_).run calls r →
    (∀ c ∈ calls, Possible Sample.crates c) → r = .error (.payment .amountMismatch) := by
  intro h
  have ht : Traces (sendIntraledgerPayment Sample.payRequest (carried 5000)
      (standingInvoice Sample.payerWallet 2000) Sample.noon).run
      [⟨.checkOwnership Sample.payRequest.callerAuth Sample.payRequest.walletId, .ok ()⟩]
      (.error (.payment .selfPayment)) :=
    .call .ret
  have hmismatch := h (standingInvoice Sample.payerWallet 2000) 2000 (carried 5000) ⟨5000⟩
    Sample.payRequest Sample.noon _ _ rfl (by decide) (by decide) rfl rfl (by decide) ht
    fun c hc => by
      obtain rfl := List.mem_singleton.mp hc
      exact ⟨.ownership (.ok ()), .empty, .empty, rfl⟩
  simp at hmismatch

end LightningGateway.FixedPrices
