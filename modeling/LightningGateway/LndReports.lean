import LightningGateway.GatewayInvariant

/-!
# What LND reports about outgoing payments

LND moves a payment forward and never back, and a truthful LND reports a final
status only once it holds. Under that assumption whatever a task has been told
is still true when the task acts on it.
-/
namespace LightningGateway.LndReports
open Primitives EventTables EffectPrograms TaskPools PaymentAggregate LndWire GatewayStore
open GatewayEffects PeerCalls GatewayMachine CallSites GatewayInvariant

/-! ### How LND moves -/

variable {crates : Crates} {w w' : World} {c : Choice}

/-- A call moves no payment; a delivered send is on its way afterwards. -/
theorem exec_lnd {o : Op} {a : o.Ans} (hx : exec crates o c w = some (a, w')) :
    w'.lnd.payments = w.lnd.payments ∧
      ∀ h, w'.lnd.transit h = w.lnd.transit h ∨
        ∃ r invoice b, o = .lnd (.sendPaymentV2 r) ∧ c = .lndUnit true b ∧
          crates.bolt11 r.paymentRequest = .ok invoice ∧ invoice.paymentHash = h := by
  by_cases ho : isLnd o = true
  · cases o with
    | lnd o =>
        cases o with
        | sendPaymentV2 r =>
            cases c with
            | lndUnit delivered b =>
                simp only [exec, execLnd] at hx
                split at hx
                case h_1 invoice hinv =>
                  cases hx
                  refine ⟨rfl, fun h => ?_⟩
                  by_cases hh : h = invoice.paymentHash
                  · exact .inr ⟨r, invoice, _, rfl, rfl, hinv, hh.symm⟩
                  · exact .inl (by simp [hh])
                case h_2 =>
                  cases hx
                  exact ⟨rfl, fun _ => .inl rfl⟩
            | _ => cases hx
        | addHoldInvoice _ | settleInvoice _ | cancelInvoice _ =>
            cases c <;> simp only [exec, execLnd, reduceCtorEq] at hx
            cases hx
            split
            · simp only [Lnd.add, Lnd.settle, Lnd.cancel]
              split <;> exact ⟨rfl, fun _ => .inl rfl⟩
            · exact ⟨rfl, fun _ => .inl rfl⟩
        | _ =>
            cases c <;> simp only [exec, execLnd, reduceCtorEq] at hx
            cases hx
            exact ⟨rfl, fun _ => .inl rfl⟩
    | _ => cases ho
  · have hl := (exec_frame hx).2.1 (Bool.eq_false_iff.mpr ho)
    rw [hl]
    exact ⟨rfl, fun _ => .inl rfl⟩

/-- On its own LND receives what is in transit and resolves what is in flight. -/
theorem env_lnd {x : Env} (hx : env x w = some w') (h : PaymentHash) :
    (w'.lnd.payments h = w.lnd.payments h ∨
      (w.lnd.payments h = .notReceived ∧ w.lnd.transit h = true ∧ w'.lnd.payments h = .inFlight) ∨
      w.lnd.payments h = .inFlight) ∧
      (w'.lnd.transit h = true → w.lnd.transit h = true) := by
  cases x with
  | receive k =>
      simp only [env] at hx
      split_ifs at hx with ht
      cases hx
      by_cases hk : h = k
      · subst hk
        cases hp : w.lnd.payments h <;> simp [hp, ht]
      · split <;> simp [hk]
  | lose k =>
      simp only [env] at hx
      split_ifs at hx with ht
      cases hx
      by_cases hk : h = k <;> simp [hk]
  | resolve k b =>
      simp only [env] at hx
      split_ifs at hx with hp
      all_goals
        cases hx
        by_cases hk : h = k <;> simp [hk, hp]
  | acceptHtlc k =>
      simp only [env] at hx
      split_ifs at hx
      cases hx
      simp
  | expire k =>
      cases hx
      simp only [Lnd.cancel]
      split <;> simp
  | drawSequence =>
      cases hx
      simp

/-! ### Truthful reports -/

/-- The status `s` is a true report about a payment in state `p`. A payment that
was reported in flight may have moved on. -/
def agrees : SendPaymentStatus → LndPayment → Bool
  | .inFlight, _ => true
  | .succeeded, .succeeded => true
  | .failed, .failed => true
  | _, _ => false

/-- What a message of a payment stream reports. -/
def trueMessage (l : Lnd) : Except LndError SendPaymentResponse → Bool
  | .ok resp => agrees resp.status (l.payments resp.paymentHash)
  | .error _ => true

/-- LND reports final states only when they hold. -/
def truthful (g : Deployment) : Discipline (gateway g) where
  spawn e w :=
    match e with
    | .handlePaymentUpdate u => agrees u.status (w.lnd.payments u.paymentHash)
    | _ => true
  call _ o c w :=
    match o, c with
    | .lnd (.sendPaymentMessage _), .lndPayment m => trueMessage w.lnd (readSendMessage m)
    | .lnd (.trackPaymentMessage h), .lndPayment m => trueMessage w.lnd (readTrackMessage h m)
    | _, _ => true

theorem agrees_succeeded {p : LndPayment} (h : agrees .succeeded p = true) : p = .succeeded := by
  cases p <;> first | rfl | cases h

theorem agrees_failed {p : LndPayment} (h : agrees .failed p = true) : p = .failed := by
  cases p <;> first | rfl | cases h

/-- A true report stays true. -/
theorem agrees_env {x : Env} {s : SendPaymentStatus} {h : PaymentHash} (hx : env x w = some w')
    (ha : agrees s (w.lnd.payments h) = true) : agrees s (w'.lnd.payments h) = true := by
  obtain ⟨hp | ⟨hp, -⟩ | hp, -⟩ := env_lnd hx h
  · rwa [hp]
  all_goals
    rw [hp] at ha
    cases s with
    | inFlight => rfl
    | succeeded | failed => cases ha

section
variable {g : Deployment} {entry : Entry} {past : Calls} {ps : List (Past (gateway g))}
variable {h : PaymentHash} {s : SendPaymentStatus}

/-- Whatever any task has been told is true. -/
def Informed (w : World) (ps : List (Past (gateway g))) : Prop :=
  ∀ p ∈ ps, ∀ h s, Told p.entry p.calls h s → agrees s (w.lnd.payments h) = true

theorem Told.nil (ht : Told entry [] h s) :
    ∃ u, entry = .handlePaymentUpdate u ∧ u.paymentHash = h ∧ u.status = s := by
  cases ht with
  | sent ha => cases ha
  | tracked ha => cases ha
  | update he hh hs => exact ⟨_, he, hh, hs⟩

/-- What is new to a task comes from its last call. -/
theorem Told.last {o : Op} {a : o.Ans} (ht : Told entry (past ++ [⟨o, a⟩]) h s) :
    Told entry past h s ∨
      (∃ r m resp, (⟨o, a⟩ : Call gatewaySignature) = ⟨.lnd (.sendPaymentMessage r), m⟩ ∧
        readSendMessage m = .ok resp ∧ resp.paymentHash = h ∧ resp.status = s) ∨
      ∃ m resp, (⟨o, a⟩ : Call gatewaySignature) = ⟨.lnd (.trackPaymentMessage h), m⟩ ∧
        readTrackMessage h m = .ok resp ∧ resp.status = s := by
  cases ht with
  | sent ha hm hh hs =>
      rcases List.mem_append.mp ha with ha | ha
      · exact .inl (.sent ha hm hh hs)
      · exact .inr (.inl ⟨_, _, _, (List.mem_singleton.mp ha).symm, hm, hh, hs⟩)
  | tracked ha hm hs =>
      rcases List.mem_append.mp ha with ha | ha
      · exact .inl (.tracked ha hm hs)
      · exact .inr (.inr ⟨_, _, (List.mem_singleton.mp ha).symm, hm, hs⟩)
  | update he hh hs => exact .inl (.update he hh hs)

theorem Informed.spawn {e : Entry} (hI : Informed w ps)
    (hd : (truthful g).spawn e w = true) : Informed w (ps ++ [⟨e, []⟩]) := by
  refine pasts_spawn (fun h s ht => ?_) hI
  obtain ⟨u, rfl, rfl, rfl⟩ := Told.nil ht
  exact hd

theorem Informed.call {o : Op} {a : o.Ans} {i : ℕ} (hI : Informed w ps)
    (hi : ps[i]? = some ⟨entry, past⟩) (hd : (truthful g).call ⟨entry, past⟩ o c w = true)
    (hx : exec g.crates o c w = some (a, w')) :
    Informed w' (ps.set i ⟨entry, past ++ [⟨o, a⟩]⟩) := by
  unfold Informed
  rw [(exec_lnd hx).1]
  refine pasts_call hi (fun _ h => h) (fun hpast h s ht => ?_) hI
  rcases Told.last ht with ht | ⟨r, m, resp, hc, hm, rfl, rfl⟩ | ⟨m, resp, hc, hm, rfl⟩
  · exact hpast h s ht
  · cases hc
    cases c <;> simp only [exec, execLnd, reduceCtorEq] at hx
    cases hx
    simpa only [truthful, trueMessage, hm] using hd
  · cases hc
    cases c <;> simp only [exec, execLnd, reduceCtorEq] at hx
    cases hx
    obtain rfl := readTrackMessage_hash hm
    simpa only [truthful, trueMessage, hm] using hd

theorem Informed.env {x : Env} (hI : Informed w ps) (hx : env x w = some w') : Informed w' ps :=
  fun p hp h s ht => agrees_env hx (hI p hp h s ht)

theorem informed_empty : Informed World.empty ([] : List (Past (gateway g))) :=
  fun _ hp => (by cases hp)

end

end LightningGateway.LndReports
