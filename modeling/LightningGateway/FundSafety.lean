import LightningGateway.SpendGate
import LightningGateway.LndReports
import LightningGateway.OutboxHistory

/-!
# A released hold is never spent

A `LightningPaymentFailed` row makes Symphony release the hold of a payment, so it
must not be written for a payment that LND may still complete. The sweep and the
update handler write it on LND's word. The request itself also writes it when it
did not hear LND's answer, and an unheard answer says nothing about the payment:
a stream that closes early leaves LND with a live payment and the user with a
released hold. Where unheard answers only happen to payments that LND will never
make, the rows are right, in every run.
-/
namespace LightningGateway.FundSafety
open Primitives EventTables EffectPrograms TaskPools PaymentAggregate OutboxRows
open LndWire SymphonyWire GatewayStore StoreSpecs GatewayEffects PeerCalls PaymentFlows
open GatewayMachine CallSites GatewayInvariant OutboxHistory SpendGate LndReports

/-- A row that releases the hold for `h` is in the outbox. -/
def released (db : Db) (h : PaymentHash) : Bool := hasRow db .lightningPaymentFailed h

/-- LND has failed the payment, or knows nothing of it and is not about to. -/
def quiet (l : Lnd) (h : PaymentHash) : Bool :=
  l.payments h = .failed ∨ (l.payments h = .notReceived ∧ l.transit h = false)

/-- The message says what became of the payment `h`. -/
def usable (h : PaymentHash) (m : Except Status (Option WirePayment)) : Bool :=
  match readSendMessage m with
  | .ok resp => resp.paymentHash = h
  | .error _ => false

/-- A send whose answer is lost is the send of a payment that LND does not make. -/
def heard (g : Deployment) : Discipline (gateway g) where
  call _ o c w :=
    match o, c with
    | .lnd (.sendPaymentV2 _), .lndUnit delivered (.error _) => !delivered
    | .lnd (.sendPaymentMessage r), .lndPayment m =>
        match g.crates.bolt11 r.paymentRequest with
        | .ok invoice => usable invoice.paymentHash m || quiet w.lnd invoice.paymentHash
        | .error _ => true
    | _, _ => true

/-- The call is a send for `h` whose outcome its task did not learn. -/
def lostAnswer (g : Deployment) (h : PaymentHash) : Call gatewaySignature → Bool
  | ⟨.lnd (.sendPaymentV2 r), .error _⟩ => sends g h (.lnd (.sendPaymentV2 r))
  | ⟨.lnd (.sendPaymentMessage r), m⟩ => sends g h (.lnd (.sendPaymentV2 r)) && !usable h m
  | _ => false

section
variable {g : Deployment} {entry : Entry} {past : Calls} {w w' : World} {c : Choice}
variable {ps : List (Past (gateway g))} {h : PaymentHash}

/-! ### Quiet payments -/

theorem quiet_iff {l : Lnd} : quiet l h = true ↔
    l.payments h = .failed ∨ (l.payments h = .notReceived ∧ l.transit h = false) := by
  simp [quiet]

theorem quiet_not_succeeded {l : Lnd} (hq : quiet l h = true) : l.payments h ≠ .succeeded := by
  intro hsucc
  rcases quiet_iff.mp hq with hq | ⟨hq, -⟩
  · cases hsucc.symm.trans hq
  · cases hsucc.symm.trans hq

theorem quiet_env {x : Env} (hx : env x w = some w') (hq : quiet w.lnd h = true) :
    quiet w'.lnd h = true := by
  rw [quiet_iff] at hq ⊢
  obtain ⟨hp, ht⟩ := env_lnd hx h
  rcases hq with hq | ⟨hq, htr⟩
  · rcases hp with hp | ⟨hp, -⟩ | hp
    · exact .inl (hp.trans hq)
    · cases hp.symm.trans hq
    · cases hp.symm.trans hq
  · have htr' : w'.lnd.transit h = false := by
      rw [Bool.eq_false_iff]
      intro h'
      cases htr.symm.trans (ht h')
    rcases hp with hp | ⟨-, hp, -⟩ | hp
    · exact .inr ⟨hp.trans hq, htr'⟩
    · cases htr.symm.trans hp
    · cases hp.symm.trans hq

/-- Only another send disturbs a payment that LND does not know. -/
theorem quiet_exec {o : Op} {a : o.Ans} (hx : exec g.crates o c w = some (a, w'))
    (hq : quiet w.lnd h = true) (ho : w.lnd.payments h = .failed ∨ sends g h o = false) :
    quiet w'.lnd h = true := by
  obtain ⟨hp, ht⟩ := exec_lnd hx
  rw [quiet_iff] at hq ⊢
  rw [hp]
  rcases hq with hq | ⟨hq, htr⟩
  · exact .inl hq
  · refine .inr ⟨hq, ?_⟩
    rcases ht h with ht | ⟨r, invoice, b, rfl, -, hinv, hh⟩
    · exact ht.trans htr
    · rcases ho with ho | ho
      · cases hq.symm.trans ho
      · rw [sends_iff.mpr ⟨r, invoice, rfl, hinv, hh⟩] at ho
        cases ho

/-! ### The invariant -/

/-- The task that could send for `h` has concluded instead. -/
def Spent (h : PaymentHash) (ps : List (Past (gateway g))) : Prop :=
  ∃ p ∈ ps, (∃ x ∈ p.calls, intends h x = true) ∧ ∃ x ∈ p.calls, isConclusion x.op = true

structure Safe (w : World) (ps : List (Past (gateway g))) : Prop where
  gated : Gated w ps
  informed : Informed w ps
  /-- LND knows only what it was sent. -/
  touched : ∀ h, w.lnd.payments h ≠ .notReceived ∨ w.lnd.transit h = true →
    callCount (fun x => sends g h x.op) ps ≠ 0
  lost : ∀ h, callCount (lostAnswer g h) ps ≠ 0 → quiet w.lnd h = true
  failed : ∀ h, released w.db h = true →
    quiet w.lnd h = true ∧ (w.lnd.payments h = .failed ∨ Spent h ps)

theorem Safe.untouched (hI : Safe w ps) (hz : callCount (fun x => sends g h x.op) ps = 0) :
    quiet w.lnd h = true := by
  refine quiet_iff.mpr (.inr ?_)
  by_contra hne
  refine hI.touched h ?_ hz
  by_cases hp : w.lnd.payments h = .notReceived
  · refine .inr ?_
    by_contra ht
    exact hne ⟨hp, Bool.eq_false_iff.mpr ht⟩
  · exact .inl hp

/-- An answer can only be lost by whoever sent. -/
theorem sends_of_lostAnswer (hs : Sane g w ps) (hl : callCount (lostAnswer g h) ps ≠ 0) :
    callCount (fun x => sends g h x.op) ps ≠ 0 := by
  obtain ⟨p, hp, x, hx, hq⟩ := exists_of_callCount_ne_zero hl
  unfold lostAnswer at hq
  split at hq
  case h_1 => exact callCount_ne_zero hp hx hq
  case h_2 r m =>
    obtain ⟨l, l', hsplit⟩ := List.append_of_mem hx
    have hans : Answered l (.lnd (.sendPaymentV2 r)) (.ok ()) := hs.explained p hp l _ l' hsplit
    have hmem := List.mem_append_left (⟨.lnd (.sendPaymentMessage r), m⟩ :: l') hans
    rw [← hsplit] at hmem
    exact callCount_ne_zero hp hmem (Bool.and_eq_true_iff.mp hq).1
  case h_3 => cases hq

theorem Spent.set {i : ℕ} {x : Call gatewaySignature} (hsp : Spent h ps)
    (hi : ps[i]? = some ⟨entry, past⟩) : Spent h (ps.set i ⟨entry, past ++ [x]⟩) := by
  obtain ⟨p, hp, ⟨y, hy, hyi⟩, z, hz, hzc⟩ := hsp
  rcases mem_set_or_eq i ⟨entry, past ++ [x]⟩ hp with hp | hp
  · exact ⟨p, hp, ⟨y, hy, hyi⟩, z, hz, hzc⟩
  · cases hi.symm.trans hp
    exact ⟨_, List.mem_set (List.getElem?_eq_some_iff.mp hi).1 _,
      ⟨y, List.mem_append_left _ hy, hyi⟩, z, List.mem_append_left _ hz, hzc⟩

/-- A send is the first for its hash, and its task has not concluded. -/
theorem send_is_first {o : Op} {a : o.Ans} {i : ℕ} (hI : Safe w ps) (hs : Sane g w ps)
    (hi : ps[i]? = some ⟨entry, past⟩) (hj : Justified g entry past o)
    (hx : exec g.crates o c w = some (a, w')) (ho : sends g h o = true) :
    callCount (fun x => sends g h x.op) ps = 0 ∧ ¬Spent h ps := by
  constructor
  · have hone := sends_once (h := h) (hs.step hi hj hx) (hI.gated.call hs hi hj hx)
    rw [callCount_call hi] at hone
    simp only [ho, if_true] at hone
    omega
  · rintro ⟨p, hp, ⟨y, hy, hyi⟩, z, hz, hzc⟩
    obtain ⟨r, invoice, rfl, hinv, rfl⟩ := sends_iff.mp ho
    obtain ⟨n, q, hint, -, htext, -, -, hnever⟩ := hj
    obtain ⟨request, e, -, hreq, -⟩ := id hint
    obtain ⟨invoice', amount, hinv', -, hhash, -⟩ := hreq.parsed
    rw [htext, hreq.boltInvoice, hinv'] at hinv
    cases hinv
    obtain ⟨y', hy', hyi'⟩ := intends_of_intends hint
    rw [hhash] at hyi'
    obtain rfl := callCount_le_one (hI.gated.once _) hp (List.mem_of_getElem? hi) hy hy' hyi hyi'
    rw [hnever z hz] at hzc
    cases hzc

/-! ### Steps -/

theorem lost_step {o : Op} {a : o.Ans} {i : ℕ} (hI : Safe w ps) (hs : Sane g w ps)
    (hi : ps[i]? = some ⟨entry, past⟩) (hj : Justified g entry past o)
    (hd : (heard g).call ⟨entry, past⟩ o c w = true) (hx : exec g.crates o c w = some (a, w'))
    (hl : callCount (lostAnswer g h) (ps.set i ⟨entry, past ++ [⟨o, a⟩]⟩) ≠ 0) :
    quiet w'.lnd h = true := by
  by_cases hold : callCount (lostAnswer g h) ps = 0
  · rw [callCount_call hi, hold] at hl
    have hnew : lostAnswer g h ⟨o, a⟩ = true := by
      by_contra hne
      simp [hne] at hl
    unfold lostAnswer at hnew
    split at hnew
    case h_3 => cases hnew
    case h_1 r st heq =>
      -- The request did not leave the gateway, and nothing was sent before it.
      cases heq
      have hfirst := (send_is_first hI hs hi hj hx hnew).1
      cases c with
      | lndUnit delivered b =>
          simp only [exec, execLnd] at hx
          split at hx
          case h_1 hinv =>
            cases hx
            cases hd
          case h_2 =>
            cases hx
            exact hI.untouched hfirst
      | _ => cases hx
    case h_2 r m heq =>
      cases heq
      obtain ⟨hsend, hun⟩ := Bool.and_eq_true_iff.mp hnew
      obtain ⟨r', invoice, ho, hinv, hh⟩ := sends_iff.mp hsend
      cases ho
      cases c with
      | lndPayment b =>
          cases hx
          simp only [heard, hinv, hh, Bool.or_eq_true] at hd
          rcases hd with hd | hd
          · rw [hd] at hun
            cases hun
          · exact hd
      | _ => cases hx
  · refine quiet_exec hx (hI.lost h hold) ?_
    rw [Bool.eq_false_iff]
    refine .inr fun ho => ?_
    exact sends_of_lostAnswer hs hold (send_is_first hI hs hi hj hx ho).1

/-- Whatever makes a task write a failure, the payment is quiet. -/
theorem quiet_of_cause (hI : Safe w ps) (hs : Sane g w ps)
    (hp : (⟨entry, past⟩ : Past (gateway g)) ∈ ps)
    (hc : FailedCause g entry past h) :
    quiet w.lnd h = true ∧ (w.lnd.payments h = .failed ∨ ∃ x ∈ past, intends h x = true) := by
  cases hc with
  | @unsent n q hint hh hnever =>
      subst hh
      obtain ⟨x, hx, hxi⟩ := intends_of_intends hint
      refine ⟨hI.untouched ?_, .inr ⟨x, hx, hxi⟩⟩
      by_contra hsent
      obtain ⟨p, hp', y, hy, hyq⟩ := exists_of_callCount_ne_zero hsent
      obtain ⟨l, l', hl⟩ := List.append_of_mem hy
      obtain ⟨⟨z, hz, hzi⟩, -⟩ := send_explained hs hp' hl hyq
      obtain rfl := callCount_le_one (hI.gated.once _) hp' hp
        (hl ▸ List.mem_append_left _ hz) hx hzi hxi
      obtain ⟨r, invoice, ho, -⟩ := sends_iff.mp hyq
      have hsend := hnever y hy
      rw [ho] at hsend
      cases hsend
  | @unheard n q hint hh hun =>
      subst hh
      refine ⟨hI.lost _ ?_, .inr (intends_of_intends hint)⟩
      obtain ⟨r, invoice, hinv, hh, ⟨st, ha⟩ | ⟨m, ha, hm⟩⟩ := hun
      · refine callCount_ne_zero hp ha ?_
        exact sends_iff.mpr ⟨r, invoice, rfl, hinv, hh⟩
      · refine callCount_ne_zero hp ha ?_
        have husable : usable n.paymentHash m = false := by
          unfold usable
          split
          case h_1 resp hresp => exact decide_eq_false (hm resp hresp)
          case h_2 => rfl
        simp [lostAnswer, husable, sends_iff.mpr ⟨r, invoice, rfl, hinv, hh⟩]
  | reported ht =>
      have hfail := agrees_failed (hI.informed _ hp h .failed ht)
      exact ⟨quiet_iff.mpr (.inl hfail), .inl hfail⟩

theorem Safe.call {o : Op} {a : o.Ans} {i : ℕ} (hI : Safe w ps) (hs : Sane g w ps)
    (hi : ps[i]? = some ⟨entry, past⟩) (hj : Justified g entry past o)
    (ht : (truthful g).call ⟨entry, past⟩ o c w = true)
    (hd : (heard g).call ⟨entry, past⟩ o c w = true) (hx : exec g.crates o c w = some (a, w')) :
    Safe w' (ps.set i ⟨entry, past ++ [⟨o, a⟩]⟩) := by
  have hmem := List.mem_of_getElem? hi
  refine ⟨hI.gated.call hs hi hj hx, hI.informed.call hi ht hx, ?_,
    fun h => lost_step hI hs hi hj hd hx, ?_⟩
  · intro h htouch
    obtain ⟨hp, htr⟩ := exec_lnd hx
    rcases htr h with htr | ⟨r, invoice, b, rfl, -, hinv, hh⟩
    · rw [hp, htr] at htouch
      exact callCount_call_ne_zero hi (hI.touched h htouch)
    · rw [callCount_call hi]
      simp [sends_iff.mpr ⟨r, invoice, rfl, hinv, hh⟩]
  · intro h hr
    obtain ⟨b, db', rfl, hb, -, rfl⟩ | ⟨hdb, -⟩ := commit_or_frame hs.db (hs.calls _ hmem) hj hx
    · rcases hasRow_step hb hr with hr | ⟨hcause, hcon⟩
      · obtain ⟨hq, hf⟩ := hI.failed h hr
        exact ⟨hq, hf.imp_right fun hsp => hsp.set hi⟩
      · obtain ⟨hq, hf⟩ := quiet_of_cause hI hs hmem hcause
        refine ⟨hq, hf.imp_right ?_⟩
        rintro ⟨x, hx, hxi⟩
        exact ⟨_, List.mem_set (List.getElem?_eq_some_iff.mp hi).1 _,
          ⟨x, List.mem_append_left _ hx, hxi⟩, _, List.mem_append_right _ List.mem_cons_self,
          hcon rfl⟩
    · rw [hdb] at hr
      obtain ⟨hq, hf⟩ := hI.failed h hr
      have hnot : w.lnd.payments h = .failed ∨ sends g h o = false := by
        refine hf.imp_right fun hsp => ?_
        rw [Bool.eq_false_iff]
        exact fun ho => (send_is_first hI hs hi hj hx ho).2 hsp
      refine ⟨quiet_exec hx hq hnot, ?_⟩
      rw [(exec_lnd hx).1]
      exact hf.imp_right fun hsp => hsp.set hi

theorem Safe.env {x : Env} (hI : Safe w ps) (hx : env x w = some w') : Safe w' ps := by
  refine ⟨hI.gated.env hx, hI.informed.env hx, ?_, fun h hl => quiet_env hx (hI.lost h hl), ?_⟩
  · intro h htouch
    refine hI.touched h ?_
    obtain ⟨hp, htr⟩ := env_lnd hx h
    rcases htouch with htouch | htouch
    · rcases hp with hp | ⟨-, hp, -⟩ | hp
      · exact .inl (hp ▸ htouch)
      · exact .inr hp
      · exact .inl (by rw [hp]; simp)
    · exact .inr (htr htouch)
  · intro h hr
    have hout : released w.db h = true := by
      simpa only [released, hasRow, (env_frame hx).2.2.1] using hr
    obtain ⟨hq, hf⟩ := hI.failed h hout
    refine ⟨quiet_env hx hq, hf.imp_left fun hf => ?_⟩
    exact agrees_failed (agrees_env (s := .failed) hx (by rw [hf]; rfl))

theorem Safe.spawn {e : Entry} (hI : Safe w ps) (hd : (truthful g).spawn e w = true) :
    Safe w (ps ++ [⟨e, []⟩]) := by
  refine ⟨hI.gated.spawn e, hI.informed.spawn hd, ?_, ?_, ?_⟩
  · exact fun h => callCount_spawn (fun x => sends g h x.op) ps e ▸ hI.touched h
  · exact fun h => callCount_spawn (lostAnswer g h) ps e ▸ hI.lost h
  · intro h hr
    obtain ⟨hq, hf⟩ := hI.failed h hr
    refine ⟨hq, hf.imp_right ?_⟩
    rintro ⟨p, hp, hsp⟩
    exact ⟨p, List.mem_append_left _ hp, hsp⟩

theorem safe_empty : Safe World.empty ([] : List (Past (gateway g))) := by
  refine ⟨gated_empty, informed_empty, ?_, fun h hl => absurd rfl hl, fun h hr => (by cases hr)⟩
  rintro h (hp | ht)
  · exact absurd rfl hp
  · cases ht

end

/-! ### Runs -/

/-- Under a truthful LND whose lost answers are those of payments it does not make,
no payment whose hold was released ever succeeds. -/
theorem released_never_succeeds (g : Deployment) (es : List (Event (gateway g)))
    (s : Pool (gateway g)) (hrun : Runs ((truthful g).both (heard g)) (boot g) es s)
    (h : PaymentHash) (hr : released s.world.db h = true) :
    s.world.lnd.payments h ≠ .succeeded := by
  obtain ⟨-, -, hI⟩ := gateway_invariant ((truthful g).both (heard g)) (I := Safe) safe_empty
    (fun w ps e hd _ hI => hI.spawn (Discipline.both_spawn.mp hd).1)
    (fun w ps i entry past o c a w' hi hj hd hx hs hI =>
      hI.call hs hi hj (Discipline.both_call.mp hd).1 (Discipline.both_call.mp hd).2 hx)
    (fun w ps x w' _ hx _ hI => hI.env hx) hrun
  exact quiet_not_succeeded (hI.failed h hr).1

/-- LND refuses the payment and says so. -/
def refusedRun : List (Event (gateway Sample.deployment)) :=
  Sample.sendUpToMessage 0 ++
    [.env (.receive Sample.hash), .env (.resolve Sample.hash false),
      .step 0 (.lndPayment (Sample.message 3 "")), .step 0 (.clock Sample.noon),
      .step 0 (.served Sample.noon)]

theorem released_never_succeeds_refused :
    ∃ s, Runs ((truthful Sample.deployment).both (heard Sample.deployment))
        (boot Sample.deployment) refusedRun s ∧
      released s.world.db Sample.hash = true ∧
      s.world.lnd.payments Sample.hash ≠ .succeeded := by
  obtain ⟨s, hrun, hr⟩ := exists_run_of_play
    ((truthful Sample.deployment).both (heard Sample.deployment))
    (boot Sample.deployment) refusedRun
    (fun s => released s.world.db Sample.hash) (by decide +kernel)
  exact ⟨s, hrun, hr, released_never_succeeds Sample.deployment refusedRun s hrun Sample.hash hr⟩

/-- LND receives the payment, the stream closes before its first message, and LND
settles later. -/
def closedStreamRun : List (Event (gateway Sample.deployment)) :=
  Sample.sendUpToMessage 0 ++
    [.env (.receive Sample.hash), .step 0 (.lndPayment (.ok none)), .step 0 (.clock Sample.noon),
      .step 0 (.served Sample.noon), .env (.resolve Sample.hash true)]

/-- A truthful LND is not enough: a closed stream releases the hold of a payment
that then succeeds. -/
theorem released_and_succeeded :
    ∃ s, Runs (truthful Sample.deployment) (boot Sample.deployment) closedStreamRun s ∧
      released s.world.db Sample.hash = true ∧
      s.world.lnd.payments Sample.hash = .succeeded := by
  obtain ⟨s, hrun, hc⟩ := exists_run_of_play (truthful Sample.deployment)
    (boot Sample.deployment) closedStreamRun
    (fun s => released s.world.db Sample.hash &&
      decide (s.world.lnd.payments Sample.hash = .succeeded)) (by decide +kernel)
  obtain ⟨hr, hsucc⟩ := Bool.and_eq_true_iff.mp hc
  exact ⟨s, hrun, hr, of_decide_eq_true hsucc⟩

end LightningGateway.FundSafety
