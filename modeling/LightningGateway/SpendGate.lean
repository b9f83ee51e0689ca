import LightningGateway.GatewayInvariant
import LightningGateway.FeePolicy

/-!
# The spend gate

A Lightning payment leaves the gateway only behind an approved hold, and the hold
is only asked for once the intent is durable. Both rest on one fact about the
whole run: at most one task ever makes the intent for a hash durable, because the
payments table accepts a hash once.
-/
namespace LightningGateway.SpendGate
open Primitives EventTables EffectPrograms TaskPools PaymentAggregate OutboxRows
open LndWire SymphonyWire GatewayStore StoreSpecs GatewayEffects PeerCalls PaymentFlows
open GatewayMachine CallSites GatewayInvariant

/-! ### The amount of a hold -/

/-- The hold covers amount and fee, for every amount an invoice can express. -/
theorem holdSat_covers {amount fee : MilliSatoshi}
    (h : amount.msat.toNat + fee.msat.toNat ≤ 2 ^ 64 - 1000) :
    (amount.msat.toNat + fee.msat.toNat : ℤ) ≤ asI64 (holdSat amount fee) * 1000 := by
  have hsum : (amount.msat + fee.msat).toNat = amount.msat.toNat + fee.msat.toNat := by
    rw [UInt64.toNat_add]
    omega
  have hround : (MilliSatoshi.mk (amount.msat + fee.msat)).roundUpToSat.msat.toNat =
      (amount.msat.toNat + fee.msat.toNat + 999) / 1000 * 1000 := by
    rw [roundUpToSat_toNat (by rw [hsum]; exact h), hsum]
  unfold holdSat
  rw [asI64_wholeSat, hround]
  omega

/-! ### The calls the gate is about -/

/-- The operation asks LND to pay the hash `h`. -/
def sends (g : Deployment) (h : PaymentHash) : Op → Bool
  | .lnd (.sendPaymentV2 r) =>
      match g.crates.bolt11 r.paymentRequest with
      | .ok invoice => invoice.paymentHash = h
      | .error _ => false
  | _ => false

theorem sends_iff {g : Deployment} {h : PaymentHash} {o : Op} :
    sends g h o = true ↔ ∃ r invoice, o = .lnd (.sendPaymentV2 r) ∧
      g.crates.bolt11 r.paymentRequest = .ok invoice ∧ invoice.paymentHash = h := by
  constructor
  · intro hs
    unfold sends at hs
    split at hs
    case h_2 => cases hs
    case h_1 r =>
      split at hs
      case h_2 => cases hs
      case h_1 invoice hi => exact ⟨r, invoice, rfl, hi, of_decide_eq_true hs⟩
  · rintro ⟨r, invoice, rfl, hi, hh⟩
    simp [sends, hi, hh]

/-- The call made the intent to pay `h` durable. -/
def intends (h : PaymentHash) : Call gatewaySignature → Bool
  | ⟨.tx (.intent n _), .ok _⟩ => n.paymentHash = h
  | _ => false

/-- The request asks for a hold for `h`; a transfer's request says so in its
metadata. -/
def holdsFor (h : PaymentHash) (r : WireAuthorizeRequest) : Bool :=
  r.idempotencyKey = h.toHex ∧ (r.gatewayMetadata.get? "intraledger").isNone

/-- The call is a hold for `h` that Symphony approved. -/
def approvedHold (h : PaymentHash) : Call gatewaySignature → Bool
  | ⟨.authorizeSpend r, .ok resp⟩ => holdsFor h r && resp.authorized
  | _ => false

/-- The call is a hold for `h` that Symphony declined, or that erred. -/
def refusedHold (h : PaymentHash) : Call gatewaySignature → Bool
  | ⟨.authorizeSpend r, .ok resp⟩ => holdsFor h r && !resp.authorized
  | ⟨.authorizeSpend r, .error _⟩ => holdsFor h r
  | _ => false

theorem not_approved_and_refused {h : PaymentHash} {c : Call gatewaySignature}
    (ha : approvedHold h c = true) : refusedHold h c = false := by
  unfold approvedHold at ha
  split at ha
  · simp only [refusedHold]
    simp_all
  · cases ha

theorem holdsFor_holdFor {h : PaymentHash} {n : NewPayment} :
    holdsFor h (toWire (holdFor n)) = true ↔ n.paymentHash = h := by
  simp [holdsFor, toWire, holdFor, holdRequest, Json.get?]

theorem holdsFor_journalFor {h : PaymentHash} {n : NewPayment} {i : InvoiceAggregate.Invoice} :
    holdsFor h (toWire (journalFor n i)) = false := by
  simp [holdsFor, toWire, journalFor, transferRequest, Json.get?]

/-! ### What one task has done -/

section
variable {g : Deployment} {entry : Entry} {past : Calls} {w : World}
variable {ps : List (Past (gateway g))} {p : Past (gateway g)} {h : PaymentHash}

theorem intends_of_intends {n : NewPayment} {q : Payment} (hi : Intends g entry past n q) :
    ∃ c ∈ past, intends n.paymentHash c = true := by
  obtain ⟨request, e, -, -, ha⟩ := hi
  exact ⟨_, ha, by simp [intends]⟩

/-- A send has its intent, its approved hold and no other send before it. -/
theorem send_explained (hs : Sane g w ps) (hp : p ∈ ps) {l l' : Calls} {c : Call gatewaySignature}
    (hl : p.calls = l ++ c :: l') (hc : sends g h c.op = true) :
    (∃ x ∈ l, intends h x = true) ∧ (∃ x ∈ l, approvedHold h x = true) ∧ Never isSend l := by
  have hj := hs.explained p hp l c l' hl
  obtain ⟨r, invoice, ho, hinv, rfl⟩ := sends_iff.mp hc
  rw [ho] at hj
  obtain ⟨n, q, hi, ⟨ans, resp, hans, hresp, hst⟩, htext, -, hnever, -⟩ := hj
  obtain ⟨request, e, -, hreq, -⟩ := id hi
  obtain ⟨invoice', amount, hinv', -, hhash, -⟩ := hreq.parsed
  rw [htext, hreq.boltInvoice, hinv'] at hinv
  cases hinv
  obtain ⟨wire, rfl, hwire⟩ := readAuthorize_approved hresp hst
  refine ⟨hhash ▸ intends_of_intends hi, ⟨_, hans, ?_⟩, hnever⟩
  simp [approvedHold, hwire, holdsFor_holdFor.mpr hhash]

theorem hold_explained (hs : Sane g w ps) (hp : p ∈ ps) {l l' : Calls} {r : WireAuthorizeRequest}
    {a : Except Status WireAuthorizeResponse} (hl : p.calls = l ++ ⟨.authorizeSpend r, a⟩ :: l')
    (hr : holdsFor h r = true) : ∃ x ∈ l, intends h x = true := by
  rcases hs.explained p hp l _ l' hl with ⟨n, q, hi, rfl, -⟩ | ⟨n, i, -, rfl, -⟩
  · exact holdsFor_holdFor.mp hr ▸ intends_of_intends hi
  · rw [holdsFor_journalFor] at hr
    cases hr

/-- A task asks Symphony at most once. -/
theorem authorize_once (hs : Sane g w ps) (hp : p ∈ ps) :
    p.calls.countP (fun c => isAuthorize c.op) ≤ 1 := by
  refine countP_le_one fun l c l' hl hc => ?_
  obtain ⟨o, a⟩ := c
  cases o with
  | authorizeSpend r =>
      rcases hs.explained p hp l _ l' hl with ⟨_, _, -, -, hnever, -⟩ | ⟨_, _, -, -, -, hnever, -⟩
      · exact hnever
      · exact hnever
  | _ => cases hc

def isIntent : Op → Bool
  | .tx (.intent ..) => true
  | _ => false

/-- A task makes at most one intent. -/
theorem intent_once (hs : Sane g w ps) (hp : p ∈ ps) {n n' : NewPayment}
    {e e' : OutboxRows.NewOutboxEvent} {a a' : Except AppError Payment}
    (ha : Answered p.calls (.tx (.intent n e)) a) (ha' : Answered p.calls (.tx (.intent n' e')) a') :
    (⟨.tx (.intent n e), a⟩ : Call gatewaySignature) = ⟨.tx (.intent n' e'), a'⟩ := by
  have hone : p.calls.countP (fun c => isIntent c.op) ≤ 1 := by
    refine countP_le_one fun l c l' hl hc x hx => ?_
    have hj := hs.explained p hp l c l' hl
    obtain ⟨o, b⟩ := c
    cases o with
    | tx t =>
        cases t with
        | intent n e =>
            obtain ⟨-, -, -, -, -, hnever, -⟩ := hj
            have hxop := hnever x hx
            revert hxop
            cases x.op with
            | tx t => simp [isTx]
            | _ => exact fun _ => rfl
        | _ => cases hc
    | _ => cases hc
  exact eq_of_countP_le_one hone ha ha' rfl rfl

/-- A task calls LND at most once, and only if it made the intent durable. -/
theorem sends_le_intends (hs : Sane g w ps) (hp : p ∈ ps) :
    p.calls.countP (fun c => sends g h c.op) ≤ p.calls.countP (intends h) := by
  have hone : p.calls.countP (fun c => sends g h c.op) ≤ 1 := by
    refine countP_le_one fun l c l' hl hc x hx => ?_
    have hsend := (send_explained hs hp hl hc).2.2 x hx
    rw [Bool.eq_false_iff]
    intro hx'
    obtain ⟨r, invoice, ho, -⟩ := sends_iff.mp hx'
    rw [ho] at hsend
    cases hsend
  rcases Nat.eq_zero_or_pos (p.calls.countP fun c => sends g h c.op) with hzero | hpos
  · omega
  · obtain ⟨c, hc, hq⟩ := List.countP_pos_iff.mp hpos
    obtain ⟨l, l', hl⟩ := List.append_of_mem hc
    obtain ⟨⟨x, hx, hi⟩, -⟩ := send_explained hs hp hl hq
    have hmem : x ∈ p.calls := hl ▸ List.mem_append_left _ hx
    have := List.countP_pos_iff.mpr ⟨x, hmem, hi⟩
    omega

/-! ### What the whole run has done -/

/-- The intent of a task is a durable row, whose log has perhaps grown since. -/
theorem intended_row {n : NewPayment} {q : Payment} (hdb : DbOk g w.db)
    (hg : ∀ c ∈ past, Genuine g w.db c) (hi : Intends g entry past n q) :
    ∃ row p, w.db.payments.lookup n.paymentHash = some row ∧ Payments.hydrate row = .ok p ∧
      n.initiatedEvent ∈ row.events ∧ p.walletId = n.walletId ∧ p.amountMsat = n.amountMsat ∧
      p.maxFeeMsat = n.maxFeeMsat := by
  obtain ⟨request, e, -, -, ha⟩ := hi
  obtain ⟨hcopy, -, hev⟩ := hg _ ha
  obtain ⟨row, hrow, -, hprefix⟩ := hcopy.snapshot
  rw [hev] at hprefix
  obtain ⟨more, hmore⟩ := hprefix
  obtain ⟨n', s', hlog, -, -⟩ := hdb.payments _ row hrow
  obtain ⟨p, hp, -, -, -, ht⟩ := PaymentLogs.hydrate_log row.id hlog
  obtain ⟨-, hw, ham, hf⟩ :=
    (PaymentLogs.PaymentLog.initiated (n := n)).origin_unique (hmore ▸ hlog)
  refine ⟨row, p, hrow, hp, ?_, ht.walletId.trans hw.symm, ht.amountMsat.trans ham.symm,
    ht.maxFeeMsat.trans hf.symm⟩
  rw [← hmore]
  exact List.mem_append_left _ List.mem_cons_self

theorem intends_lookup (hs : Sane g w ps) (hp : p ∈ ps) {c : Call gatewaySignature}
    (hc : c ∈ p.calls) (hq : intends h c = true) : ∃ row, w.db.payments.lookup h = some row := by
  have hgen := hs.calls p hp c hc
  unfold intends at hq
  split at hq
  case h_2 => cases hq
  case h_1 n e q =>
    obtain ⟨row, hrow, -⟩ := hgen.1.snapshot
    exact ⟨row, of_decide_eq_true hq ▸ hrow⟩

/-- The invariant: one durable intent for each hash, and no hold without one. -/
structure Gated (w : World) (ps : List (Past (gateway g))) : Prop where
  once : ∀ h, callCount (intends h) ps ≤ 1
  backed : ∀ r ∈ w.authorized, ∀ h, holdsFor h r = true →
    ∃ row, w.db.payments.lookup h = some row

theorem Gated.extends {w' : World} {ps' : List (Past (gateway g))} (hI : Gated w ps)
    (hgrow : w.db.payments.Extends w'.db.payments)
    (honce : ∀ h, callCount (intends h) ps' ≤ 1)
    (hauth : ∀ r ∈ w'.authorized, r ∈ w.authorized ∨ ∀ h, holdsFor h r = true →
      ∃ row, w.db.payments.lookup h = some row) : Gated w' ps' := by
  refine ⟨honce, fun r hr h hh => ?_⟩
  have hrow : ∃ row, w.db.payments.lookup h = some row := by
    rcases hauth r hr with hr | hr
    · exact hI.backed r hr h hh
    · exact hr h hh
  obtain ⟨row, hrow⟩ := hrow
  obtain ⟨row', hrow', -⟩ := hgrow h row hrow
  exact ⟨row', hrow'⟩

/-- A second intent for a hash is refused by the table. -/
theorem once_step {o : Op} {a : o.Ans} {c : Choice} {w' : World} {i : ℕ}
    (hs : Sane g w ps) (hi : ps[i]? = some ⟨entry, past⟩)
    (hx : exec g.crates o c w = some (a, w')) (honce : callCount (intends h) ps ≤ 1) :
    callCount (intends h) (ps.set i ⟨entry, past ++ [⟨o, a⟩]⟩) ≤ 1 := by
  rw [callCount_call hi]
  cases hq : intends h ⟨o, a⟩ with
  | false => simpa using honce
  | true =>
      have hnone : w.db.payments.lookup h = none := by
        unfold intends at hq
        split at hq
        case h_2 => cases hq
        case h_1 n e q heq =>
          cases heq
          obtain ⟨t, r, db', hr, -⟩ | ⟨-, ⟨t, e', -, -, he⟩ | ⟨-, he⟩⟩ := exec_tx hx
          · obtain ⟨row, hnone, -⟩ := run_intent hr
            exact of_decide_eq_true hq ▸ hnone
          · cases he
          · cases he
      have hzero : callCount (intends h) ps = 0 := by
        refine callCount_eq_zero fun p hp c hc => ?_
        rw [Bool.eq_false_iff]
        intro hq'
        obtain ⟨row, hrow⟩ := intends_lookup hs hp hc hq'
        cases hnone.symm.trans hrow
      simp [hzero]

/-- What a call adds to the requests Symphony has acted on. -/
theorem exec_authorized {o : Op} {a : o.Ans} {c : Choice} {w' : World}
    (hx : exec g.crates o c w = some (a, w')) :
    w'.authorized = w.authorized ∨
      ∃ r, o = .authorizeSpend r ∧ w'.authorized = w.authorized ++ [r] := by
  by_cases ho : isAuthorize o = true
  · cases o with
    | authorizeSpend r =>
        cases c with
        | symphony posted resp =>
            cases hx
            cases posted
            · exact .inl rfl
            · exact .inr ⟨r, rfl, rfl⟩
        | _ => cases hx
    | _ => cases ho
  · exact .inl ((exec_frame hx).2.2 (Bool.eq_false_iff.mpr ho))

theorem Gated.spawn (hI : Gated w ps) (e : Entry) : Gated w (ps ++ [⟨e, []⟩]) :=
  ⟨fun h => callCount_spawn (intends h) ps e ▸ hI.once h, hI.backed⟩

theorem Gated.call {o : Op} {a : o.Ans} {c : Choice} {w' : World} {i : ℕ} (hI : Gated w ps)
    (hs : Sane g w ps) (hi : ps[i]? = some ⟨entry, past⟩) (hj : Justified g entry past o)
    (hx : exec g.crates o c w = some (a, w')) :
    Gated w' (ps.set i ⟨entry, past ++ [⟨o, a⟩]⟩) := by
  have hpast := hs.calls _ (List.mem_of_getElem? hi)
  have hgrow : w.db.payments.Extends w'.db.payments := (exec_grows hs.db hpast hj hx).1
  refine hI.extends hgrow (fun h => once_step hs hi hx (hI.once h)) fun r hr => ?_
  rcases exec_authorized hx with ha | ⟨r', rfl, ha⟩
  · exact .inl (ha ▸ hr)
  · rw [ha] at hr
    rcases List.mem_append.mp hr with hr | hr
    · exact .inl hr
    · obtain rfl := List.mem_singleton.mp hr
      refine .inr fun h hh => ?_
      rcases hj with ⟨n, q, hint, rfl, -⟩ | ⟨n, j, -, rfl, -⟩
      · obtain ⟨row, p, hrow, -⟩ := intended_row hs.db hpast hint
        exact ⟨row, holdsFor_holdFor.mp hh ▸ hrow⟩
      · rw [holdsFor_journalFor] at hh
        cases hh

theorem Gated.env {x : Env} {w' : World} (hI : Gated w ps) (hx : env x w = some w') :
    Gated w' ps := by
  obtain ⟨hp, -, -, -, ha, -⟩ := env_frame hx
  exact hI.extends (hp ▸ .refl _) hI.once (fun r hr => .inl (ha ▸ hr))

theorem gated_empty : Gated World.empty ([] : List (Past (gateway g))) :=
  ⟨fun _ => Nat.zero_le _, fun r hr => (by cases hr)⟩

end

/-! ### The gate -/

/-- The send request `r` for `h` is backed by a durable payment and by a hold that
Symphony approved. -/
def Backed (db : Db) (past : Calls) (h : PaymentHash) (r : WireSendRequest) : Prop :=
  ∃ (row : PaymentRow) (p : Payment) (n : NewPayment) (auth : WireAuthorizeRequest)
      (a : WireAuthorizeResponse),
    db.payments.lookup h = some row ∧ Payments.hydrate row = .ok p ∧
    n.paymentHash = h ∧ n.initiatedEvent ∈ row.events ∧
    Answered past (.authorizeSpend auth) (.ok a) ∧ a.authorized = true ∧
    auth.idempotencyKey = h.toHex ∧ auth.account = ⟨.walletLiability, p.walletId.toText⟩ ∧
    (p.amountMsat.msat.toNat + p.maxFeeMsat.msat.toNat : ℤ) ≤ auth.satAmount * 1000 ∧
    r.feeLimitMsat = p.maxFeeMsat.msat.toNat

/-- Everything the gate promises about a state. -/
structure Holds (g : Deployment) (s : Pool (gateway g)) : Prop where
  /-- LND is asked at most once for each hash. -/
  once : ∀ h, callCount (fun c => sends g h c.op) s.pasts ≤ 1
  /-- Whoever is about to ask LND is backed. -/
  backed : ∀ t ∈ s.tasks, ∀ r k, t.rest = some (.call (.lnd (.sendPaymentV2 r)) k) →
    ∃ invoice, g.crates.bolt11 r.paymentRequest = .ok invoice ∧
      Backed s.world.db t.calls invoice.paymentHash r
  /-- A hash whose hold was refused is never sent. -/
  refused : ∀ h, callCount (refusedHold h) s.pasts ≠ 0 →
    callCount (fun c => sends g h c.op) s.pasts = 0
  /-- Whoever is about to ask for a hold has a durable intent. -/
  intent : ∀ t ∈ s.tasks, ∀ r k h, t.rest = some (.call (.authorizeSpend r) k) →
    holdsFor h r = true → ∃ (row : PaymentRow) (n : NewPayment),
      s.world.db.payments.lookup h = some row ∧ n.paymentHash = h ∧ n.initiatedEvent ∈ row.events
  /-- A hold belongs to a live payment or to one with an outcome. -/
  owned : ∀ h, (∃ r ∈ s.world.authorized, holdsFor h r = true) ∨
      callCount (approvedHold h) s.pasts ≠ 0 →
    ∃ (row : PaymentRow) (p : Payment),
      s.world.db.payments.lookup h = some row ∧ Payments.hydrate row = .ok p ∧
      (p.state = .initiated ∨ p.state = .pending ∨ row.events.any PaymentEvent.isCompleted ∨
        row.events.any PaymentEvent.isFailed)

section
variable {g : Deployment} {w : World} {ps : List (Past (gateway g))} {h : PaymentHash}

/-- A send site is backed by its own intent and its own approved hold. -/
theorem backed_of_site {entry : Entry} {past : Calls} {r : WireSendRequest} (hdb : DbOk g w.db)
    (hg : ∀ c ∈ past, Genuine g w.db c) (hsite : SendSite g entry past r) :
    ∃ invoice, g.crates.bolt11 r.paymentRequest = .ok invoice ∧
      Backed w.db past invoice.paymentHash r := by
  obtain ⟨n, q, hint, ⟨ans, resp, hans, hresp, hst⟩, htext, hfee, -, -⟩ := hsite
  obtain ⟨row, p, hrow, hp, hmem, hw, ha, hf⟩ := intended_row hdb hg hint
  obtain ⟨request, e, -, hreq, -⟩ := id hint
  obtain ⟨invoice, amount, hinv, hamount, hhash, hround⟩ := hreq.parsed
  obtain ⟨wire, rfl, hwire⟩ := readAuthorize_approved hresp hst
  have hcover : (n.amountMsat.msat.toNat + n.maxFeeMsat.msat.toNat : ℤ) ≤
      asI64 (holdSat n.amountMsat n.maxFeeMsat) * 1000 := by
    have hbound := invoice.bounded amount hamount
    have hfeeLe := FeePolicy.maxFor_lt n.amountMsat
    rw [← hreq.maxFeeMsat] at hfeeLe
    refine holdSat_covers ?_
    rw [hround, roundUpToSat_toNat (show amount.toNat ≤ _ by omega)]
    change (amount.toNat + 999) / 1000 * 1000 + _ ≤ _
    omega
  have hlimit : r.feeLimitMsat = n.maxFeeMsat.msat.toNat := by
    unfold tryI64 at hfee
    split_ifs at hfee
    exact (Option.some.inj hfee).symm
  refine ⟨invoice, by rw [htext, hreq.boltInvoice, hinv], row, p, n, toWire (holdFor n), wire,
    hhash ▸ hrow, hp, hhash, hmem, hans, hwire, ?_, ?_, ?_, ?_⟩
  · rw [← hhash]
    rfl
  · rw [hw]
    rfl
  · rw [ha, hf]
    exact hcover
  · rw [hf]
    exact hlimit

theorem sends_once (hs : Sane g w ps) (hI : Gated w ps) :
    callCount (fun c => sends g h c.op) ps ≤ 1 :=
  (callCount_mono fun _ hp => sends_le_intends hs hp).trans (hI.once h)

/-- The task whose hold was refused is the only one that could have sent. -/
theorem refused_unsent (hs : Sane g w ps) (hI : Gated w ps)
    (hr : callCount (refusedHold h) ps ≠ 0) : callCount (fun c => sends g h c.op) ps = 0 := by
  by_contra hsent
  obtain ⟨p, hp, c, hc, hq⟩ := exists_of_callCount_ne_zero hr
  obtain ⟨p', hp', c', hc', hq'⟩ := exists_of_callCount_ne_zero hsent
  obtain ⟨l', m', hl'⟩ := List.append_of_mem hc'
  obtain ⟨⟨y, hy, hyi⟩, ⟨z, hz, hza⟩, -⟩ := send_explained hs hp' hl' hq'
  have hzmem : z ∈ p'.calls := hl' ▸ List.mem_append_left _ hz
  have hymem : y ∈ p'.calls := hl' ▸ List.mem_append_left _ hy
  -- Whoever holds `c` has the intent, hence is the sender and asked Symphony once.
  have howner : ∃ r a, c = ⟨.authorizeSpend r, a⟩ ∧ holdsFor h r = true := by
    unfold refusedHold at hq
    split at hq
    case h_1 r resp => exact ⟨r, _, rfl, (Bool.and_eq_true_iff.mp hq).1⟩
    case h_2 r e => exact ⟨r, _, rfl, hq⟩
    case h_3 => cases hq
  obtain ⟨r, a, rfl, hholds⟩ := howner
  obtain ⟨l, m, hl⟩ := List.append_of_mem hc
  obtain ⟨x, hx, hxi⟩ := hold_explained hs hp hl hholds
  have hxmem : x ∈ p.calls := hl ▸ List.mem_append_left _ hx
  obtain rfl := callCount_le_one (hI.once h) hp hp' hxmem hymem hxi hyi
  have hzauth : isAuthorize z.op = true := by
    unfold approvedHold at hza
    split at hza
    · rfl
    · cases hza
  obtain rfl := eq_of_countP_le_one (authorize_once hs hp) hzmem hc hzauth rfl
  rw [not_approved_and_refused hza] at hq
  cases hq

theorem row_settled_or_live (hdb : DbOk g w.db) {row : PaymentRow}
    (hrow : w.db.payments.lookup h = some row) :
    ∃ p, Payments.hydrate row = .ok p ∧ (p.state = .initiated ∨ p.state = .pending ∨
      row.events.any PaymentEvent.isCompleted ∨ row.events.any PaymentEvent.isFailed) := by
  obtain ⟨n, s, hlog, -, -⟩ := hdb.payments h row hrow
  obtain ⟨p, hp, -, -, hs, -⟩ := PaymentLogs.hydrate_log row.id hlog
  refine ⟨p, hp, ?_⟩
  rw [hs, hlog.any_isCompleted, hlog.any_isFailed]
  cases s <;> simp

theorem hold_row (hs : Sane g w ps) (hI : Gated w ps)
    (h' : (∃ r ∈ w.authorized, holdsFor h r = true) ∨ callCount (approvedHold h) ps ≠ 0) :
    ∃ row, w.db.payments.lookup h = some row := by
  rcases h' with ⟨r, hr, hh⟩ | hne
  · exact hI.backed r hr h hh
  · obtain ⟨p, hp, c, hc, hq⟩ := exists_of_callCount_ne_zero hne
    obtain ⟨l, m, hl⟩ := List.append_of_mem hc
    unfold approvedHold at hq
    split at hq
    case h_2 => cases hq
    case h_1 r resp =>
      obtain ⟨x, hx, hxi⟩ := hold_explained hs hp hl (Bool.and_eq_true_iff.mp hq).1
      exact intends_lookup hs hp (hl ▸ List.mem_append_left _ hx) hxi

end

/-- The gate holds in every reachable state of every run. -/
theorem spend_gate (g : Deployment) (D : Discipline (gateway g)) (es : List (Event (gateway g)))
    (s : Pool (gateway g)) (hrun : Runs D (boot g) es s) : Holds g s := by
  obtain ⟨hsound, hs, hI⟩ := gateway_invariant D (I := Gated) gated_empty
    (fun w ps e _ _ hI => hI.spawn e)
    (fun w ps i entry past o c a w' hi hj _ hx hs hI => hI.call hs hi hj hx)
    (fun w ps x w' _ hx _ hI => hI.env hx) hrun
  have hpast : ∀ t ∈ s.tasks, ∀ c ∈ t.calls, Genuine g s.world.db c := fun t ht =>
    hs.calls t.toPast (List.mem_map_of_mem ht)
  refine ⟨fun h => sends_once hs hI, ?_, fun h => refused_unsent hs hI, ?_, ?_⟩
  · intro t ht r k hrest
    exact backed_of_site hs.db (hpast t ht) (hsound t ht _ hrest).1
  · intro t ht r k h hrest hh
    rcases (hsound t ht _ hrest).1 with ⟨n, q, hint, rfl, -⟩ | ⟨n, i, -, rfl, -⟩
    · obtain ⟨row, p, hrow, -, hmem, -⟩ := intended_row hs.db (hpast t ht) hint
      obtain rfl := holdsFor_holdFor.mp hh
      exact ⟨row, n, hrow, rfl, hmem⟩
    · rw [holdsFor_journalFor] at hh
      cases hh
  · intro h h'
    obtain ⟨row, hrow⟩ := hold_row hs hI h'
    obtain ⟨p, hp, hst⟩ := row_settled_or_live hs.db hrow
    exact ⟨row, p, hrow, hp, hst⟩

/-- A payment that has just been sent. -/
theorem spend_gate_sent :
    ∃ s, Runs {} (boot Sample.deployment) (Sample.sendUpToMessage 0) s ∧
      Holds Sample.deployment s ∧
      callCount (fun c => sends Sample.deployment Sample.hash c.op) s.pasts = 1 := by
  obtain ⟨s, hrun, hsent⟩ := exists_run_of_play {} (boot Sample.deployment)
    (Sample.sendUpToMessage 0) (fun s => decide
      (callCount (fun c => sends Sample.deployment Sample.hash c.op) s.pasts = 1))
    (by decide +kernel)
  exact ⟨s, hrun, spend_gate Sample.deployment {} _ s hrun, of_decide_eq_true hsent⟩

end LightningGateway.SpendGate
