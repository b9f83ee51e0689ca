import LightningGateway.FeePolicy
import LightningGateway.GatewayMachine

/-!
# Amounts of outgoing payments

The way of an amount from the BOLT11 text to the hold, the rows of the outbox and the
fee that LND reports. Four roundings and five changes of width meet here; none of them
loses anything because the invoice format bounds the amount, and because every value
is a whole number of satoshis when it is converted. The fee probe, which rounds the
other way, stands at the end.
-/
namespace LightningGateway.OutgoingAmounts
open Primitives PaymentAggregate OutboxRows LndWire GatewayStore GatewayEffects PeerCalls
open SymphonyWire PaymentFlows GatewayMachine FeePolicy Rounding

/-! ### Rounding up -/

section
variable {m : MilliSatoshi}

theorem ceilDiv_eq (n : ℕ) : n ⌈/⌉ 1000 = (n + 999) / 1000 := Nat.ceilDiv_eq_add_pred_div n 1000

/-- Below the top of the range the rounded word is the next multiple. -/
theorem roundUpToSat_eq (h : m.msat.toNat ≤ 2 ^ 64 - 1000) :
    m.roundUpToSat.msat.toNat = roundUpTo 1000 m.msat.toNat := by
  rw [roundUpToSat_toNat h, roundUpTo, ceilDiv_eq]

theorem divCeilChecked_eq (a : UInt64) :
    divCeilChecked a 1000 = some (MilliSatoshi.divCeil a 1000) := by
  unfold divCeilChecked MilliSatoshi.divCeil
  split_ifs with h
  · rfl
  · refine checkedAdd_of_lt ?_
    have ha := a.toNat_lt
    have hk : (1000 : UInt64).toNat = 1000 := rfl
    have hone : (1 : UInt64).toNat = 1 := rfl
    rw [UInt64.toNat_div, hk, hone]
    omega

theorem roundUpToSatChecked_eq (h : m.msat.toNat ≤ 2 ^ 64 - 1000) :
    roundUpToSatChecked m = some m.roundUpToSat := by
  have hk : (1000 : UInt64).toNat = 1000 := rfl
  have hlt : (MilliSatoshi.divCeil m.msat 1000).toNat * (1000 : UInt64).toNat < 2 ^ 64 := by
    rw [divCeil_toNat, hk]
    omega
  simp only [roundUpToSatChecked, Option.bind_eq_bind, Option.pure_def, divCeilChecked_eq,
    Option.bind_some, checkedMul_of_lt hlt, MilliSatoshi.roundUpToSat]

/-- A whole number of satoshis survives the division. -/
theorem wholeSat_mul (h : 1000 ∣ m.msat.toNat) : m.wholeSat.toNat * 1000 = m.msat.toNat := by
  rw [wholeSat_toNat]
  exact Nat.div_mul_cancel h

theorem tryI64_of_lt {x : UInt64} (h : x.toNat < 2 ^ 63) : tryI64 x = some (x.toNat : ℤ) :=
  if_pos h

/-- Casting the whole satoshis of an amount to a signed word changes nothing. -/
theorem tryI64_wholeSat (m : MilliSatoshi) : tryI64 m.wholeSat = some (asI64 m.wholeSat) := by
  have h := m.msat.toNat_lt
  have hlt : m.wholeSat.toNat < 2 ^ 63 := by
    rw [wholeSat_toNat]
    omega
  rw [tryI64_of_lt hlt, asI64, if_pos hlt]

/-- Amounts in whole satoshis are held exactly. -/
theorem holdSat_exact {amount fee : MilliSatoshi} (ha : 1000 ∣ amount.msat.toNat)
    (hf : 1000 ∣ fee.msat.toNat) (h : amount.msat.toNat + fee.msat.toNat ≤ 2 ^ 64 - 1000) :
    holdSatChecked amount fee = some (holdSat amount fee) ∧
      (holdSat amount fee).toNat * 1000 = amount.msat.toNat + fee.msat.toNat := by
  have hlt : amount.msat.toNat + fee.msat.toNat < 2 ^ 64 := by omega
  have hsum : (amount.msat + fee.msat).toNat = amount.msat.toNat + fee.msat.toNat := by
    rw [UInt64.toNat_add, Nat.mod_eq_of_lt hlt]
  have hle : (MilliSatoshi.mk (amount.msat + fee.msat)).msat.toNat ≤ 2 ^ 64 - 1000 := hsum ▸ h
  have hround : (MilliSatoshi.mk (amount.msat + fee.msat)).roundUpToSat.msat.toNat =
      amount.msat.toNat + fee.msat.toNat := by
    rw [roundUpToSat_eq hle, hsum]
    exact roundUpTo_of_dvd (by norm_num) (Nat.dvd_add ha hf)
  constructor
  · simp only [holdSatChecked, Option.bind_eq_bind, Option.pure_def, checkedAdd_of_lt hlt,
      Option.bind_some, roundUpToSatChecked_eq hle]
    rfl
  · unfold holdSat
    rw [wholeSat_mul (hround ▸ Nat.dvd_add ha hf), hround]

end

/-! ### The amounts of one payment -/

/-- What a payment over Lightning works with when the invoice asks for `a`
millisatoshis: the amount, the fee cap and the hold. -/
def amountFor (a : UInt64) : MilliSatoshi := (MilliSatoshi.mk a).roundUpToSat
def maxFeeFor (a : UInt64) : MilliSatoshi := LnFees.maxFor (amountFor a)
def holdFor (a : UInt64) : UInt64 := holdSat (amountFor a) (maxFeeFor a)

/-- The amount that a decoded invoice carries into `send_payment`. -/
theorem decoded_amount (text : String) {invoice : Bolt11Invoice} {a : UInt64}
    (ha : invoice.amountMilliSatoshis = some a) :
    (decodeBolt11.decoded text invoice).amountMsat = some (amountFor a) := by
  unfold decodeBolt11.decoded
  rw [ha]
  rfl

section
variable {a : UInt64}

theorem amountFor_isLeast (h : a.toNat ≤ (2 ^ 64 - 1) / 10) :
    IsLeast {n | 1000 ∣ n ∧ a.toNat ≤ n} (amountFor a).msat.toNat := by
  rw [amountFor, roundUpToSat_eq (m := ⟨a⟩) (by dsimp only; omega)]
  exact isLeast_roundUpTo (by norm_num) _

theorem amountFor_lt (h : a.toNat ≤ (2 ^ 64 - 1) / 10) :
    (amountFor a).msat.toNat < a.toNat + 1000 := by
  rw [amountFor, roundUpToSat_eq (m := ⟨a⟩) (by dsimp only; omega)]
  exact roundUpTo_lt (by norm_num) _

theorem maxFor_dvd (m : MilliSatoshi) : 1000 ∣ (LnFees.maxFor m).msat.toNat := by
  have h := maxFor_toNat m
  omega

/-- A fee within the cap is within it when rounded up, too. -/
theorem wireMsat_le {f : ℤ} {cap : MilliSatoshi} (hcap : 1000 ∣ cap.msat.toNat)
    (hbound : cap.msat.toNat ≤ 2 ^ 64 - 1000) (hf : 0 ≤ f) (hle : f ≤ cap.msat.toNat) :
    roundUpToSatChecked ((msatOfI64 f).getD .zero) = some (wireMsat f) ∧
      f ≤ (wireMsat f).msat.toNat ∧ (wireMsat f).msat.toNat ≤ cap.msat.toNat := by
  have hmsat : msatOfI64 f = some ⟨UInt64.ofNat f.toNat⟩ := if_neg (not_lt.mpr hf)
  have hnat : (UInt64.ofNat f.toNat).toNat = f.toNat :=
    UInt64.toNat_ofNat_of_lt' (by change f.toNat < 2 ^ 64; omega)
  have hsmall : (MilliSatoshi.mk (UInt64.ofNat f.toNat)).msat.toNat ≤ 2 ^ 64 - 1000 := by
    dsimp only
    omega
  unfold wireMsat
  rw [hmsat, Option.getD_some, roundUpToSat_eq hsmall, hnat]
  refine ⟨roundUpToSatChecked_eq hsmall, ?_, ?_⟩
  · have h := (isLeast_roundUpTo (show 0 < 1000 by norm_num) f.toNat).1.2
    omega
  · exact (isLeast_roundUpTo (by norm_num) f.toNat).2 ⟨hcap, by omega⟩

/-! ### The rows of a payment -/

/-- The rows that report a payment of `amountMsat`, as they are written in the three
places of the sending side. -/
inductive PaymentRowOf (amountMsat : MilliSatoshi) : NewOutboxEvent → Prop where
  | initiated (paymentHash : PaymentHash) (walletId : WalletId) (maxFeeMsat : MilliSatoshi)
      (destination : String) (boltInvoice : BoltInvoice) (utcNow : Timestamp) :
      PaymentRowOf amountMsat (buildInitiatedOutbox paymentHash walletId
        (asI64 amountMsat.wholeSat) maxFeeMsat destination boltInvoice utcNow)
  | completed (paymentHash : PaymentHash) (preimage : Preimage) (feesPaidMsat : MilliSatoshi)
      (routeHops : List Hop) (utcNow : Timestamp) :
      PaymentRowOf amountMsat (completedOutbox paymentHash (asI64 amountMsat.wholeSat) preimage
        feesPaidMsat routeHops utcNow)
  | failed (paymentHash : PaymentHash) (reason : FailureReason) (utcNow : Timestamp) :
      PaymentRowOf amountMsat (failedOutbox paymentHash (asI64 amountMsat.wholeSat) reason utcNow)

theorem PaymentRowOf.amountSat_eq {m : MilliSatoshi} {e : NewOutboxEvent} (h : PaymentRowOf m e) :
    e.amountSat = asI64 m.wholeSat := by
  cases h <;> rfl

/-- No amount of such a row is clamped on the wire. -/
theorem PaymentRowOf.sats {m : MilliSatoshi} {e : NewOutboxEvent} (h : PaymentRowOf m e)
    (toText : Json → Option String) (n : ℤ) :
    (((e.row n).toProto toText).sats.toNat : ℤ) = asI64 m.wholeSat := by
  have hw := asI64_wholeSat m
  have hm := m.msat.toNat_lt
  have hsat : (((e.row n).toProto toText).sats.toNat : ℤ) = (e.row n).amountSat := by
    refine safeAmountSat_toNat ?_ ?_ <;>
    · rw [NewOutboxEvent.row_amountSat, h.amountSat_eq, hw]
      omega
  rw [hsat, NewOutboxEvent.row_amountSat, h.amountSat_eq]

theorem feesPaid_eq {payment : WirePayment} {resp : SendPaymentResponse}
    (h : lndPaymentToSendResponse payment = .ok resp) :
    resp.feesPaidMsat = wireMsat payment.feeMsat := by
  unfold lndPaymentToSendResponse at h
  split at h
  case h_1 => cases h
  case h_2 =>
    split at h
    case h_1 => cases h
    case h_2 =>
      cases h
      rfl

/-- The hold of a payment is its amount and its fee cap exactly, every step towards it
fits its type, and what is debited on completion lies between what LND spent and the
hold. The bound on `a` is the one that the invoice format carries. -/
theorem hold_covers_debit {invoice : Bolt11Invoice} (ha : invoice.amountMilliSatoshis = some a)
    {payment : WirePayment} {resp : SendPaymentResponse}
    (hresp : lndPaymentToSendResponse payment = .ok resp) (hfee : 0 ≤ payment.feeMsat)
    (hlimit : ∃ feeLimit, tryI64 (maxFeeFor a).msat = some feeLimit ∧ payment.feeMsat ≤ feeLimit) :
    (∀ text, (decodeBolt11.decoded text invoice).amountMsat = some (amountFor a)) ∧
    (roundUpToSatChecked ⟨a⟩ = some (amountFor a) ∧
      LnFees.maxForChecked (amountFor a) = some (maxFeeFor a) ∧
      holdSatChecked (amountFor a) (maxFeeFor a) = some (holdFor a) ∧
      roundUpToSatChecked ((msatOfI64 payment.feeMsat).getD .zero) = some resp.feesPaidMsat) ∧
    (tryI64 (amountFor a).msat = some ((amountFor a).msat.toNat : ℤ) ∧
      tryI64 (maxFeeFor a).msat = some ((maxFeeFor a).msat.toNat : ℤ) ∧
      tryI64 (amountFor a).wholeSat = some (asI64 (amountFor a).wholeSat) ∧
      tryI64 (holdFor a) = some (asI64 (holdFor a))) ∧
    IsLeast {n | 1000 ∣ n ∧ a.toNat ≤ n} (amountFor a).msat.toNat ∧
    (∀ paymentHash walletId,
      (toWire (holdRequest paymentHash walletId (amountFor a) (maxFeeFor a))).satAmount * 1000 =
        (amountFor a).msat.toNat + (maxFeeFor a).msat.toNat) ∧
    (a.toNat + payment.feeMsat ≤
        asI64 (amountFor a).wholeSat * 1000 + resp.feesPaidMsat.msat.toNat ∧
      asI64 (amountFor a).wholeSat * 1000 + resp.feesPaidMsat.msat.toNat ≤
        asI64 (holdFor a) * 1000) ∧
    0 ≤ asI64 (amountFor a).wholeSat ∧
    (∀ e, PaymentRowOf (amountFor a) e → ∀ toText n,
      (((e.row n).toProto toText).sats.toNat : ℤ) = asI64 (amountFor a).wholeSat) := by
  have hbound : a.toNat ≤ (2 ^ 64 - 1) / 10 := invoice.bounded a ha
  have hleast := amountFor_isLeast hbound
  have hamount := amountFor_lt hbound
  have hcapDvd : 1000 ∣ (maxFeeFor a).msat.toNat := maxFor_dvd _
  have hcapLt : (maxFeeFor a).msat.toNat < 92233720368548001 := maxFor_lt _
  obtain ⟨feeLimit, hsome, hle⟩ := hlimit
  have hcap := tryI64_of_lt (x := (maxFeeFor a).msat) (by omega)
  obtain rfl := Option.some.inj (hsome.symm.trans hcap)
  have hexact : holdSatChecked (amountFor a) (maxFeeFor a) = some (holdFor a) ∧
      (holdFor a).toNat * 1000 = (amountFor a).msat.toNat + (maxFeeFor a).msat.toNat :=
    holdSat_exact hleast.1.1 hcapDvd (by omega)
  obtain ⟨hchecked, hhold⟩ := hexact
  obtain ⟨hpaid, hpaidLo, hpaidHi⟩ := wireMsat_le hcapDvd (by omega) hfee hle
  rw [← feesPaid_eq hresp] at hpaid hpaidLo hpaidHi
  have hholdLt : (holdFor a).toNat < 2 ^ 63 := by omega
  have hholdI : asI64 (holdFor a) = (holdFor a).toNat := if_pos hholdLt
  have hhold' : asI64 (holdFor a) * 1000 =
      (amountFor a).msat.toNat + (maxFeeFor a).msat.toNat := by
    rw [hholdI]
    exact_mod_cast hhold
  have hsat : asI64 (amountFor a).wholeSat * 1000 = (amountFor a).msat.toNat := by
    have hdvd := hleast.1.1
    rw [asI64_wholeSat]
    omega
  have hlo : a.toNat ≤ (amountFor a).msat.toNat := hleast.1.2
  refine ⟨fun text => decoded_amount text ha,
    ⟨roundUpToSatChecked_eq (by dsimp only; omega), maxForChecked_eq _, hchecked, hpaid⟩,
    ⟨tryI64_of_lt (by omega), hcap, tryI64_wholeSat _, ?_⟩, hleast, fun _ _ => hhold', ⟨?_, ?_⟩, ?_,
    fun e he toText n => he.sats toText n⟩
  · rw [hholdI]
    exact tryI64_of_lt hholdLt
  · omega
  · omega
  · omega

/-- LND's report that the sample payment has settled for a fee of `feeMsat`. -/
def settledPayment (feeMsat : ℤ) : WirePayment :=
  ⟨Sample.hash.toHex, Sample.preimage.toHex, 2, feeMsat, [], 0⟩

theorem settledPayment_read (feeMsat : ℤ) :
    ∃ resp, lndPaymentToSendResponse (settledPayment feeMsat) = .ok resp := by
  unfold lndPaymentToSendResponse parseHexPaymentHash settledPayment
  rw [PaymentHash.fromStr_toHex]
  exact ⟨_, rfl⟩

theorem hold_covers_debit_settled : ∃ resp,
    lndPaymentToSendResponse (settledPayment 1500) = .ok resp ∧
    250000000 + (settledPayment 1500).feeMsat ≤
      asI64 (amountFor 250000000).wholeSat * 1000 + resp.feesPaidMsat.msat.toNat := by
  obtain ⟨resp, hresp⟩ := settledPayment_read 1500
  have hamount : Sample.invoice.amountMilliSatoshis = some 250000000 := rfl
  exact ⟨resp, hresp, (hold_covers_debit hamount hresp (by decide)
    ⟨_, rfl, by decide⟩).2.2.2.2.2.1.1⟩

end

/-! ### The fee probe -/

/-- `routerrpc::RouteFeeResponse`. -/
structure WireRouteFee where
  routingFeeMsat : ℤ
  timeLockDelay : ℤ
  failureReason : ℤ
deriving DecidableEq, Repr

structure FeeProbeResponse where
  feeMsat : MilliSatoshi
  expirySeconds : UInt32
deriving DecidableEq, Repr

def mapFailureReasonToLndError (value : ℤ) : LndError :=
  if value = 1 then .paymentTimeout
  else if value = 2 then .noRoute
  else if value = 4 then .incorrectPaymentDetails
  else if value = 0 then .invalidResponse "LND failure reason: FailureReasonNone"
  else if value = 5 then .invalidResponse "LND failure reason: FailureReasonInsufficientBalance"
  else if value = 6 then .invalidResponse "LND failure reason: FailureReasonCanceled"
  else .invalidResponse "LND failure reason: FailureReasonError"

/-- `LndClient::fee_probe`, from LND's answer on. -/
def readRouteFee : Except Status WireRouteFee → Except LndError FeeProbeResponse
  | .error status => .error (.rpc status)
  | .ok resp =>
      if resp.failureReason ≠ 0 then .error (mapFailureReasonToLndError resp.failureReason)
      else
        match msatOfI64 resp.routingFeeMsat with
        | none => .error (.invalidResponse
            ("estimate_route_fee.routing_fee_msat: milli-satoshi value must be non-negative; got " ++
              toString resp.routingFeeMsat))
        | some feeMsat => .ok ⟨feeMsat,
            if 0 ≤ resp.timeLockDelay ∧ resp.timeLockDelay < 2 ^ 32 then
              UInt32.ofNat resp.timeLockDelay.toNat
            else 0⟩

/-- `App::fee_probe`: the answers of the ownership check, of `decode_bolt11` and of LND in
the order in which they are asked for. -/
def feeProbe (ownership : Except String Unit) (decoded : Except AppError DecodedInvoice)
    (estimateRouteFee : BoltInvoice → Except Status WireRouteFee) : Except AppError MilliSatoshi := do
  ownership.mapError AppError.walletOwnership
  let invoice ← decoded
  let resp ← (readRouteFee (estimateRouteFee invoice.boltInvoice)).mapError AppError.lnd
  pure resp.feeMsat

/-- The payload of `lnInvoiceFeeProbe`; an error stands for its message. -/
structure SatAmountPayload where
  amount : Option UInt64
  errors : List AppError
deriving DecidableEq, Repr

/-- The resolver truncates the fee to whole satoshis. -/
def lnInvoiceFeeProbe : Except AppError MilliSatoshi → SatAmountPayload
  | .ok feeMsat => ⟨some (feeMsat.msat / 1000), []⟩
  | .error e => ⟨none, [e]⟩

/-- What the client reads when LND estimates `f`. -/
theorem probed_amount {decoded : DecodedInvoice} {estimate : BoltInvoice → Except Status WireRouteFee}
    {f delay : ℤ} (hf : 0 ≤ f) (h : estimate decoded.boltInvoice = .ok ⟨f, delay, 0⟩) :
    lnInvoiceFeeProbe (feeProbe (.ok ()) (.ok decoded) estimate) =
      ⟨some (UInt64.ofNat f.toNat / 1000), []⟩ := by
  have hmsat : msatOfI64 f = some ⟨UInt64.ofNat f.toNat⟩ := if_neg (not_lt.mpr hf)
  have hread : readRouteFee (.ok ⟨f, delay, 0⟩) = .ok ⟨⟨UInt64.ofNat f.toNat⟩,
      if 0 ≤ delay ∧ delay < 2 ^ 32 then UInt32.ofNat delay.toNat else 0⟩ := by
    simp only [readRouteFee, hmsat, ne_eq, not_true_eq_false, if_false]
  have hprobe : feeProbe (.ok ()) (.ok decoded) estimate = .ok ⟨UInt64.ofNat f.toNat⟩ := by
    change ((readRouteFee (estimate decoded.boltInvoice)).mapError AppError.lnd).bind
      (fun resp => .ok resp.feeMsat) = _
    rw [h, hread]
    rfl
  rw [hprobe]
  rfl

/-- The charged fee in satoshis is the ceiling of what LND reports. -/
theorem charged_sat {payment : WirePayment} {resp : SendPaymentResponse}
    (h : lndPaymentToSendResponse payment = .ok resp) (hf : 0 ≤ payment.feeMsat)
    (hlt : payment.feeMsat < 2 ^ 63) :
    (resp.feesPaidMsat.msat / 1000).toNat = (payment.feeMsat.toNat + 999) / 1000 := by
  have hmsat : msatOfI64 payment.feeMsat = some ⟨UInt64.ofNat payment.feeMsat.toNat⟩ :=
    if_neg (not_lt.mpr hf)
  have hnat : (UInt64.ofNat payment.feeMsat.toNat).toNat = payment.feeMsat.toNat :=
    UInt64.toNat_ofNat_of_lt' (by change payment.feeMsat.toNat < 2 ^ 64; omega)
  have hk : (1000 : UInt64).toNat = 1000 := rfl
  rw [feesPaid_eq h, UInt64.toNat_div, hk, wireMsat, hmsat, Option.getD_some,
    roundUpToSat_toNat (by dsimp only; omega)]
  dsimp only
  rw [hnat]
  omega

/-- The probe reports the fee that a payment over the same route is charged exactly when
LND's fee is a whole number of satoshis, and otherwise reports less. -/
theorem probe_agrees_iff {f delay : ℤ} (hf : 0 ≤ f) (hlt : f ≤ 2 ^ 63 - 1)
    {decoded : DecodedInvoice} {estimate : BoltInvoice → Except Status WireRouteFee}
    (hestimate : estimate decoded.boltInvoice = .ok ⟨f, delay, 0⟩)
    {payment : WirePayment} {resp : SendPaymentResponse} (hfee : payment.feeMsat = f)
    (hresp : lndPaymentToSendResponse payment = .ok resp) :
    ((lnInvoiceFeeProbe (feeProbe (.ok ()) (.ok decoded) estimate)).amount =
        some (resp.feesPaidMsat.msat / 1000) ↔ 1000 ∣ f) ∧
    ((∃ sat, (lnInvoiceFeeProbe (feeProbe (.ok ()) (.ok decoded) estimate)).amount = some sat ∧
        resp.feesPaidMsat.msat / 1000 ≤ sat) ↔ 1000 ∣ f) := by
  subst hfee
  have hcharged := charged_sat hresp hf (by omega)
  have hk : (1000 : UInt64).toNat = 1000 := rfl
  have hprobed : (UInt64.ofNat payment.feeMsat.toNat / 1000).toNat = payment.feeMsat.toNat / 1000 := by
    rw [UInt64.toNat_div, hk, UInt64.toNat_ofNat_of_lt']
    change payment.feeMsat.toNat < 2 ^ 64
    omega
  rw [probed_amount hf hestimate]
  constructor
  · rw [Option.some_inj, ← UInt64.toNat_inj, hprobed, hcharged]
    omega
  · simp only [Option.some.injEq, exists_eq_left', UInt64.le_iff_toNat_le, hprobed, hcharged]
    omega

/-- LND estimates `f` for every invoice. -/
def estimates (f : ℤ) : BoltInvoice → Except Status WireRouteFee := fun _ => .ok ⟨f, 0, 0⟩

theorem probe_agrees_iff_whole : ∃ resp,
    lndPaymentToSendResponse (settledPayment 1000) = .ok resp ∧
    (lnInvoiceFeeProbe (feeProbe (.ok ()) (.ok (decodeBolt11.decoded Sample.text Sample.invoice))
      (estimates 1000))).amount = some (resp.feesPaidMsat.msat / 1000) := by
  obtain ⟨resp, hresp⟩ := settledPayment_read 1000
  exact ⟨resp, hresp, (probe_agrees_iff (by decide) (by decide) rfl rfl hresp).1.mpr (by decide)⟩

/-- A route that costs one millisatoshi is probed as free and charged as a satoshi. -/
theorem probe_reports_less : ∃ resp,
    lndPaymentToSendResponse (settledPayment 1) = .ok resp ∧ resp.feesPaidMsat.msat / 1000 = 1 ∧
    (lnInvoiceFeeProbe (feeProbe (.ok ()) (.ok (decodeBolt11.decoded Sample.text Sample.invoice))
      (estimates 1))).amount = some 0 := by
  obtain ⟨resp, hresp⟩ := settledPayment_read 1
  refine ⟨resp, hresp, ?_, rfl⟩
  rw [feesPaid_eq hresp]
  decide

end LightningGateway.OutgoingAmounts
