import LightningGateway.PaymentFlows
import LightningGateway.GatewayMachine

/-!
# The route that a payment records

LND reports a payment together with all of its attempts, those that failed and were
retried included. The adapter keeps the hops of the first attempt that has a route,
and whoever completes the payment stores these hops twice, in the event and in the
row. So what is stored is the route LND eventually used exactly when the first route
in the list is as good as that of an attempt that succeeded.
-/
namespace LightningGateway.RecordedRoutes
open Primitives EventTables EffectPrograms PaymentAggregate OutboxRows LndWire GatewayStore
open GatewayEffects PeerCalls PaymentFlows GatewayMachine

/-! ### Which attempt -/

/-- `HTLCAttempt.HTLCStatus.SUCCEEDED`. -/
def attemptSucceeded (a : HtlcAttempt) : Prop := a.status = 1

/-- The attempt succeeded along `route`. -/
def Used (htlcs : List HtlcAttempt) (route : List WireHop) : Prop :=
  ∃ a ∈ htlcs, attemptSucceeded a ∧ a.route = some route

/-- `hops` are the parsable hops of a route that succeeded, if there is one. -/
def RouteOfSuccess (htlcs : List HtlcAttempt) (hops : List Hop) : Prop :=
  (∃ route, Used htlcs route) → ∃ route, Used htlcs route ∧ hops = route.filterMap readHop

/-- The first route in the list reads like one that succeeded, if there is one. -/
def FirstRouteUsed (htlcs : List HtlcAttempt) : Prop :=
  ∀ before a after first, htlcs = before ++ a :: after → (∀ b ∈ before, b.route = none) →
    a.route = some first → (∃ route, Used htlcs route) →
      ∃ route, Used htlcs route ∧ first.filterMap readHop = route.filterMap readHop

/-- The hops of the first attempt with a route. -/
theorem firstRouteHops_eq {before after : List HtlcAttempt} {a : HtlcAttempt}
    {first : List WireHop} (hbefore : ∀ b ∈ before, b.route = none) (ha : a.route = some first) :
    firstRouteHops (before ++ a :: after) = first.filterMap readHop := by
  have hfind : (before ++ a :: after).findSome? HtlcAttempt.route = some first :=
    List.findSome?_eq_some_iff.mpr ⟨before, a, after, rfl, ha, hbefore⟩
  unfold firstRouteHops
  rw [hfind]

/-- Where some attempt has a route, one is the first. -/
theorem exists_first {htlcs : List HtlcAttempt} {route : List WireHop} (h : Used htlcs route) :
    ∃ before a after first, htlcs = before ++ a :: after ∧ (∀ b ∈ before, b.route = none) ∧
      a.route = some first := by
  obtain ⟨b, hb, -, hroute⟩ := h
  cases hfind : htlcs.findSome? HtlcAttempt.route with
  | none =>
      rw [List.findSome?_eq_none_iff] at hfind
      rw [hfind b hb] at hroute
      cases hroute
  | some first =>
      obtain ⟨before, a, after, hsplit, ha, hbefore⟩ := List.findSome?_eq_some_iff.mp hfind
      exact ⟨before, a, after, first, hsplit, hbefore, ha⟩

theorem firstRouteHops_used_iff (htlcs : List HtlcAttempt) :
    RouteOfSuccess htlcs (firstRouteHops htlcs) ↔ FirstRouteUsed htlcs := by
  constructor
  · rintro h before a after first rfl hbefore ha hused
    rw [← @firstRouteHops_eq before after a first hbefore ha]
    exact h hused
  · rintro h ⟨route, hused⟩
    obtain ⟨before, a, after, first, rfl, hbefore, ha⟩ := exists_first hused
    rw [firstRouteHops_eq hbefore ha]
    exact h before a after first rfl hbefore ha ⟨route, hused⟩

/-! ### What is stored -/

/-- A transaction that completes a payment appends a completed event with `hops` last,
and its row shows the same hops; a transaction that does not, has no such row. -/
def StoresRoute (hops : List Hop) : Op → Prop
  | .tx (.payment p e) =>
      (∃ preimage fees at_ h amountSat utcNow,
        p.events.fresh.getLast? = some (.completed at_ preimage fees hops) ∧
          e = completedOutbox h amountSat preimage fees hops utcNow) ∨
      (p.events.fresh.getLast?.any PaymentEvent.isCompleted = false ∧
        e.domainEvent ≠ .lightningPaymentCompleted)
  | _ => True

/-- Every call of the program stores `hops` where it completes a payment. -/
def Stores {α : Type} (hops : List Hop) (past : Calls) (p : App α) : Prop :=
  Emits (S := gatewaySignature) (fun _ o => StoresRoute hops o) (fun _ _ => True) past p.run

section
variable {payment payment' : Payment} {h : PaymentHash} {amountSat : ℤ} {preimage : Preimage}
variable {fees : MilliSatoshi} {hops : List Hop} {reason : FailureReason} {t : Timestamp}
variable {past : Calls}

theorem settle_appends
    (hs : payment.settle preimage fees hops t = .ok (.executed, payment')) :
    payment'.events.fresh.getLast? = some (.completed t preimage fees hops) := by
  unfold Payment.settle at hs
  split_ifs at hs <;> cases hs
  simp

theorem fail_appends (hf : payment.fail reason t = .ok (.executed, payment')) :
    payment'.events.fresh.getLast? = some (.failed t reason) := by
  unfold Payment.fail at hf
  split_ifs at hf <;> cases hf
  simp

theorem commitCompleted_stores :
    Stores hops past (commitCompleted payment h amountSat preimage fees hops t) := by
  unfold Stores commitCompleted
  split
  · trivial
  · trivial
  next payment' hs =>
    have hsite (utcNow : Timestamp) : StoresRoute hops (.tx (.payment payment'
        (completedOutbox h amountSat preimage fees hops utcNow))) :=
      .inl ⟨_, _, _, _, _, _, settle_appends hs, rfl⟩
    exact now_bind trivial fun utcNow => transact_last (b := .payment ..) (hsite utcNow) fun _ => trivial

theorem commitFailed_stores :
    Stores hops past (commitFailed payment h amountSat reason t) := by
  unfold Stores commitFailed
  split
  · trivial
  · trivial
  next payment' hf =>
    have hsite (utcNow : Timestamp) : StoresRoute hops (.tx (.payment payment'
        (failedOutbox h amountSat reason utcNow))) :=
      .inr ⟨by rw [fail_appends hf]; rfl, by rintro ⟨⟩⟩
    exact now_bind trivial fun utcNow => transact_last (b := .payment ..) (hsite utcNow) fun _ => trivial

theorem failInline_stores : Stores hops past (failInline payment h amountSat reason t) := by
  unfold failInline
  split
  · trivial
  · exact commitFailed_stores

theorem settleInline_stores :
    Stores hops past (settleInline payment h amountSat preimage fees hops t) := by
  unfold settleInline
  split
  · trivial
  · exact commitCompleted_stores

theorem transitionToPending_stores :
    Stores hops past (transitionToPending payment h t) := by
  unfold Stores transitionToPending
  split
  · trivial
  · trivial
  next payment' _ =>
    refine attempt_transact_bind trivial fun r => ?_
    split
    · trivial
    · refine findPayment_bind trivial fun r => ?_
      cases r <;> trivial
    · trivial

variable {resp : SendPaymentResponse}

theorem dispatch_stores : Stores resp.routeHops past (dispatch payment h amountSat (.ok resp) t) := by
  unfold dispatch
  simp only
  split_ifs
  · exact failInline_stores
  · split
    · exact transitionToPending_stores
    · trivial
    · exact settleInline_stores
    · exact failInline_stores

theorem reconcileLookup_stores :
    Stores resp.routeHops past (reconcileLookup payment h (.ok resp) t) := by
  unfold reconcileLookup
  simp only
  split
  · trivial
  · trivial
  · exact fallible_bind_any commitCompleted_stores fun _ _ => trivial
  · exact fallible_bind_any commitFailed_stores fun _ _ => trivial

theorem handlePaymentUpdate_stores {update : PaymentUpdate} :
    Stores update.routeHops past (handlePaymentUpdate update) := by
  unfold Stores handlePaymentUpdate
  refine findPayment_bind trivial fun found => ?_
  split
  · trivial
  · trivial
  · refine now_bind trivial fun t => ?_
    split
    · trivial
    · trivial
    · exact fallible_bind_any commitCompleted_stores fun _ _ => trivial
    · exact fallible_bind_any commitFailed_stores fun _ _ => trivial

end

/-! ### The recorded route -/

/-- Whatever reads a report of success stores the hops that the adapter returned: the
request that sent the payment, the `TrackPayments` handler and the sweep. -/
def StoredEverywhere (payment : WirePayment) (resp : SendPaymentResponse) : Prop :=
  (∀ p h amountSat t past, Stores resp.routeHops past (dispatch p h amountSat (.ok resp) t)) ∧
  (∀ p h t past, Stores resp.routeHops past (reconcileLookup p h (.ok resp) t)) ∧
  ∃ update, paymentToUpdate payment = .ok update ∧ update.routeHops = resp.routeHops ∧
    ∀ past, Stores resp.routeHops past (handlePaymentUpdate update)

theorem stored_everywhere {payment : WirePayment} {resp : SendPaymentResponse}
    (hresp : lndPaymentToSendResponse payment = .ok resp) : StoredEverywhere payment resp := by
  refine ⟨fun _ _ _ _ _ => dispatch_stores, fun _ _ _ _ => reconcileLookup_stores, ?_⟩
  have hupdate : paymentToUpdate payment = .ok
      ⟨resp.paymentHash, resp.status, resp.paymentPreimage, resp.feesPaidMsat, resp.routeHops,
        resp.failureReason⟩ := by
    unfold paymentToUpdate
    rw [hresp]
  exact ⟨_, hupdate, rfl, fun _ => handlePaymentUpdate_stores⟩

theorem routeHops_eq {payment : WirePayment} {resp : SendPaymentResponse}
    (hresp : lndPaymentToSendResponse payment = .ok resp) :
    resp.routeHops = firstRouteHops payment.htlcs := by
  unfold lndPaymentToSendResponse at hresp
  split at hresp
  · cases hresp
  · split at hresp
    · cases hresp
    · cases hresp
      rfl

/-- The hops of a report, in the adapter's answer and wherever they are stored, are those
of a route that succeeded if and only if the first route of the report reads like one. -/
theorem recorded_route_iff {payment : WirePayment} {resp : SendPaymentResponse}
    (hresp : lndPaymentToSendResponse payment = .ok resp) :
    RouteOfSuccess payment.htlcs resp.routeHops ∧ StoredEverywhere payment resp ↔
      FirstRouteUsed payment.htlcs := by
  rw [and_iff_left (stored_everywhere hresp), routeHops_eq hresp]
  exact firstRouteHops_used_iff payment.htlcs

/-- A first attempt over channel 1 and a second one over channel 2. -/
def retried (first second : ℤ) : WirePayment :=
  ⟨Sample.hash.toHex, Sample.preimage.toHex, 2, 0,
    [⟨first, some [⟨Sample.payee.toHex, 1, 0, 0, 0⟩]⟩,
      ⟨second, some [⟨Sample.payee.toHex, 2, 0, 0, 0⟩]⟩], 0⟩

theorem readHop_payee (channel : UInt64) :
    readHop ⟨Sample.payee.toHex, channel, 0, 0, 0⟩ =
      some ⟨Sample.payee, channel, .zero, .zero, 0⟩ := by
  have hzero : wireMsat 0 = .zero := by decide
  simp only [readHop, Pubkey.fromStr_toHex, hzero]

theorem retried_read (first second : ℤ) : ∃ resp,
    lndPaymentToSendResponse (retried first second) = .ok resp ∧ resp.status = .succeeded ∧
      resp.routeHops = [⟨Sample.payee, 1, .zero, .zero, 0⟩] := by
  have hresp : ∃ resp, lndPaymentToSendResponse (retried first second) = .ok resp ∧
      resp.status = .succeeded := by
    unfold lndPaymentToSendResponse parseHexPaymentHash retried
    rw [PaymentHash.fromStr_toHex]
    exact ⟨_, rfl, rfl⟩
  obtain ⟨resp, hresp, hstatus⟩ := hresp
  have hfirst : firstRouteHops (retried first second).htlcs =
      [(⟨Sample.payee.toHex, 1, 0, 0, 0⟩ : WireHop)].filterMap readHop := rfl
  refine ⟨resp, hresp, hstatus, (routeHops_eq hresp).trans (hfirst.trans ?_)⟩
  rw [List.filterMap_cons, readHop_payee]
  rfl

/-- A first attempt that succeeded, and a second one that failed. -/
theorem recorded_route_iff_first : ∃ resp,
    lndPaymentToSendResponse (retried 1 2) = .ok resp ∧
      (RouteOfSuccess (retried 1 2).htlcs resp.routeHops ∧ StoredEverywhere (retried 1 2) resp ↔
        FirstRouteUsed (retried 1 2).htlcs) := by
  obtain ⟨resp, hresp, -, -⟩ := retried_read 1 2
  exact ⟨resp, hresp, recorded_route_iff hresp⟩

/-- A first attempt that failed, and a second one that succeeded: the failed route is
recorded. -/
theorem failed_route_recorded : ∃ resp,
    lndPaymentToSendResponse (retried 2 1) = .ok resp ∧ resp.status = .succeeded ∧
      (∃ route, Used (retried 2 1).htlcs route) ∧
      ¬RouteOfSuccess (retried 2 1).htlcs resp.routeHops := by
  obtain ⟨resp, hresp, hstatus, hhops⟩ := retried_read 2 1
  have hused : ∃ route, Used (retried 2 1).htlcs route :=
    ⟨_, _, List.mem_cons_of_mem _ List.mem_cons_self, rfl, rfl⟩
  refine ⟨resp, hresp, hstatus, hused, fun h => ?_⟩
  obtain ⟨route, ⟨a, ha, hs, hr⟩, heq⟩ := h hused
  simp only [retried, List.mem_cons, List.not_mem_nil, or_false] at ha
  rcases ha with rfl | rfl
  · cases hs
  · cases hr
    rw [hhops, List.filterMap_cons, readHop_payee] at heq
    cases heq

end LightningGateway.RecordedRoutes
