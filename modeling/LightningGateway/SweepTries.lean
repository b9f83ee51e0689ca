import LightningGateway.CappedScans
import LightningGateway.GatewayInvariant

/-!
# Tries of the sweeps

One try of a sweep that nothing interleaves with, against an LND that answers about each
payment and each invoice always the same. A try looks its row up once. It ends the row
if LND says how, and leaves the table as it was otherwise.
-/
namespace LightningGateway.SweepTries
open Primitives EventTables EffectPrograms TaskPools CappedScans SoloRuns PaymentAggregate
open InvoiceAggregate OutboxRows LndWire GatewayStore StoreSpecs GatewayEffects PeerCalls
open PaymentFlows InvoiceFlows GatewayMachine GatewayInvariant

/-! ### An LND that does not change its answers -/

/-- What LND answers about each payment and each invoice. -/
structure Assignment where
  /-- A lookup of the payment does not answer before its deadline. -/
  late : PaymentHash → Bool
  trackPaymentV2 : PaymentHash → Except Status Unit
  trackPaymentMessage : PaymentHash → Except Status (Option WirePayment)
  lookupInvoice : PaymentHash → Except Status WireInvoice
  settleInvoice : PaymentHash → Except Status Unit

namespace Assignment

/-- The payment a sweep works on is the one that it has loaded last. -/
def subject (cur : Option PaymentHash) : Call gatewaySignature → Option PaymentHash
  | ⟨.findPayment h, _⟩ => some h
  | _ => cur

/-- The answer is the assigned one. -/
def agrees {α : Type} [DecidableEq α] (assigned answer : α) : Bool := decide (answer = assigned)

theorem eq_of_agrees {α : Type} [DecidableEq α] {assigned answer : α}
    (h : agrees assigned answer = true) : answer = assigned :=
  of_decide_eq_true h

/-- The database serves the call, or LND answers as assigned. An invoice is settled by
its preimage. -/
def fits (crates : Crates) (A : Assignment) (cur : Option PaymentHash) :
    Call gatewaySignature → Bool
  | ⟨.findPayment _, r⟩ => match r with
      | .error e => decide (e ≠ .sqlx)
      | .ok _ => true
  | ⟨.findInvoice _, r⟩ => match r with
      | .error e => decide (e ≠ .sqlx)
      | .ok _ => true
  | ⟨.listStrandedInitiated _ _, r⟩ => match r with
      | .error e => decide (e ≠ .sqlx)
      | .ok _ => true
  | ⟨.tx b, r⟩ => match r with
      | .error e => decide (e ≠ b.faultError)
      | .ok _ => true
  | ⟨.deadlineElapsed, elapsed⟩ => match cur with
      | some h => agrees (A.late h) elapsed
      | none => true
  | ⟨.lnd (.trackPaymentV2 h), r⟩ => agrees (A.trackPaymentV2 h) r
  | ⟨.lnd (.trackPaymentMessage h), r⟩ => agrees (A.trackPaymentMessage h) r
  | ⟨.lnd (.lookupInvoice h), r⟩ => agrees (A.lookupInvoice h) r
  | ⟨.lnd (.settleInvoice preimage), r⟩ => agrees (A.settleInvoice (crates.sha256 preimage)) r
  | _ => true

def answering (crates : Crates) (A : Assignment) : Answering gatewaySignature where
  Memory := Option PaymentHash
  fits := A.fits crates
  next := subject

/-- What a lookup of the payment hears from LND. -/
def lookupPayment (A : Assignment) (h : PaymentHash) : Except LndError SendPaymentResponse :=
  match A.trackPaymentV2 h with
  | .error status => .error (mapTrackPaymentStatus status)
  | .ok () => readTrackMessage h (A.trackPaymentMessage h)

/-- LND says in time how the payment has ended: it succeeded and the preimage is there,
or it failed. -/
def concludes (A : Assignment) (h : PaymentHash) : Bool :=
  !A.late h && match A.lookupPayment h with
    | .error _ => false
    | .ok resp => match resp.status, resp.paymentPreimage with
        | .inFlight, _ => false
        | .succeeded, none => false
        | .succeeded, some _ => true
        | .failed, _ => true

/-- LND has settled or canceled the invoice, or has accepted it and lets it be settled. -/
def reconciles (A : Assignment) (h : PaymentHash) : Bool :=
  match readLookupInvoice h (A.lookupInvoice h) with
  | .error _ => false
  | .ok update => match update.state with
      | .settled => true
      | .canceled => true
      | .accepted => (A.settleInvoice h).isOk
      | .opened => false

end Assignment

open Assignment

/-- The payments whose lookup a sweep has started, in order. -/
def lookedUp : Option PaymentHash → Calls → List PaymentHash
  | _, [] => []
  | cur, c :: calls =>
      (match c with
        | ⟨.deadlineElapsed, _⟩ => cur.toList
        | _ => []) ++ lookedUp (subject cur c) calls

theorem lookedUp_append {cur : Option PaymentHash} {c₁ c₂ : Calls} :
    lookedUp cur (c₁ ++ c₂) = lookedUp cur c₁ ++ lookedUp (c₁.foldl subject cur) c₂ := by
  induction c₁ generalizing cur with
  | nil => rfl
  | cons c c₁ ih => simp only [List.cons_append, lookedUp, List.foldl_cons, ih, List.append_assoc]

/-- The invoices that a sweep has looked up, in order. -/
def askedFor (calls : Calls) : List PaymentHash :=
  calls.filterMap fun c => match c with
    | ⟨.lnd (.lookupInvoice h), _⟩ => some h
    | _ => none

/-! ### Calls of a sweep that is alone -/

section
variable {g : Deployment} {A : Assignment} {w : World} {cur : Option PaymentHash} {β : Type}
variable {Q : Calls → Except AppError β → World → Prop}

/-- The gateway alone, against the assignment. -/
abbrev Solo (g : Deployment) (A : Assignment) (w : World) (cur : Option PaymentHash)
    (p : App β) (Q : Calls → Except AppError β → World → Prop) : Prop :=
  Alone (gateway g) (A.answering g.crates) w cur p.run Q

theorem solo_now {f : Timestamp → App β}
    (h : ∀ t, Solo g A w cur (f t) fun calls => Q (⟨.now, t⟩ :: calls)) :
    Solo g A w cur (now >>= f) Q := by
  refine alone_call fun t c w' hx _ => ?_
  cases c <;> simp only [gateway, exec, reduceCtorEq] at hx
  cases hx
  exact h _

theorem solo_findPayment {k : PaymentHash} {f : Except FindError Payment → App β}
    (h : Solo g A w (some k) (f (Payments.findByPaymentHash w.db k)) fun calls =>
      Q (⟨.findPayment k, Payments.findByPaymentHash w.db k⟩ :: calls)) :
    Solo g A w cur (findPayment k >>= f) Q := by
  refine alone_call fun r c w' hx hfit => ?_
  cases c <;> simp only [gateway, exec, reduceCtorEq] at hx
  case served t =>
    cases hx
    exact h
  case dbFault =>
    cases hx
    cases hfit

theorem solo_findInvoice {k : PaymentHash} {f : Except FindError Invoice → App β}
    (h : Solo g A w cur (f (Invoices.findByPaymentHash w.db k)) fun calls =>
      Q (⟨.findInvoice k, Invoices.findByPaymentHash w.db k⟩ :: calls)) :
    Solo g A w cur (findInvoice k >>= f) Q := by
  refine alone_call fun r c w' hx hfit => ?_
  cases c <;> simp only [gateway, exec, reduceCtorEq] at hx
  case served t =>
    cases hx
    exact h
  case dbFault =>
    cases hx
    cases hfit

theorem solo_deadline {k : PaymentHash} {f : Bool → App β}
    (h : Solo g A w (some k) (f (A.late k)) fun calls => Q (⟨.deadlineElapsed, A.late k⟩ :: calls)) :
    Solo g A w (some k) (Fallible.lift (perform .deadlineElapsed) >>= f) Q := by
  refine alone_call fun elapsed c w' hx hfit => ?_
  cases c <;> simp only [gateway, exec, reduceCtorEq] at hx
  cases hx
  obtain rfl := eq_of_agrees (α := Bool) hfit
  exact h

/-- A transaction that the database serves: its own error is the only one. -/
theorem exec_tx_served {b : Transaction} {a : Except AppError b.Result} {c : Choice} {w' : World}
    (hx : exec g.crates (.tx b) c w = some (a, w'))
    (hfit : (A.answering g.crates).fits cur ⟨.tx b, a⟩ = true) :
    (∃ t r db', b.run t w.db = .ok (r, db') ∧ a = .ok r ∧ w'.db = db') ∨
      ∃ t e, b.run t w.db = .error e := by
  have hheard : a ≠ .error b.faultError := by
    rintro rfl
    exact absurd rfl (of_decide_eq_true hfit)
  obtain ⟨t, r, db', hr, rfl, ⟨-, ha⟩ | ⟨-, ha⟩⟩ | ⟨rfl, ⟨t, e, -, he, -⟩ | ⟨-, ha⟩⟩ := exec_tx hx
  · exact .inl ⟨t, r, db', hr, ha, rfl⟩
  · exact absurd ha hheard
  · exact .inr ⟨t, e, he⟩
  · exact absurd ha hheard

end

/-! ### One stranded payment -/

/-- The payment has come to an end, and its row says so. -/
def Ended (r : PaymentRow) : Prop :=
  ∃ n s, (s = .completed ∨ s = .failed) ∧ PaymentLogs.PaymentLog n r.events s ∧ r.state = s.asStr

/-- `p` is the initiated payment of row `r`, just loaded. -/
structure Loaded (r : PaymentRow) (n : NewPayment) (p : Payment) : Prop where
  tracks : PaymentLogs.Tracks n p
  events : p.events = ⟨r.id, r.events, []⟩
  id : p.id = r.id
  state : p.state = .initiated

section
variable {g : Deployment} {A : Assignment} {w : World} {k : PaymentHash} {r : PaymentRow}
variable {n : NewPayment} {p : Payment}

/-- The lookups that `calls` has started are `ks`, and `R` holds of the world they leave. -/
def Leaves {β : Type} (cur : Option PaymentHash) (ks : List PaymentHash) (R : World → Prop) :
    Calls → Except AppError β → World → Prop :=
  fun calls _ w' => lookedUp cur calls = ks ∧ R w'

/-- The try of `k` on the payments of `w`. -/
def TriedAt (A : Assignment) (w : World) (k : PaymentHash) (w' : World) : Prop :=
  Tried Ended (fun k => !A.concludes k) [k] w.db.payments w'.db.payments

theorem found_payment (hl : w.db.payments.lookup k = some r)
    (hlog : PaymentLogs.PaymentLog n r.events .initiated) :
    ∃ p, Payments.findByPaymentHash w.db k = .ok p ∧ Loaded r n p := by
  obtain ⟨p, hp, hev, hid, hs, ht⟩ := PaymentLogs.hydrate_log r.id hlog
  refine ⟨p, ?_, ht, hev, hid, hs⟩
  rw [Payments.findByPaymentHash, hl]
  exact hp

/-- The commit of a payment that was loaded as the table has it. -/
theorem solo_conclude {p' : Payment} {e : NewOutboxEvent} {new : PaymentEvent}
    {s : PaymentState} (hl : w.db.payments.lookup k = some r) (hp : Loaded r n p)
    (hid : p'.id = p.id) (hev : p'.events = p.events.push new) (hs : p'.state = s)
    (htracks : PaymentLogs.Tracks n p') (hend : s = .completed ∨ s = .failed)
    (hA : A.concludes k = true) :
    Solo g A w (some k) (transact (.payment p' e) >>= fun _ => (pure true : App Bool))
      (Leaves (some k) [] (TriedAt A w k)) := by
  rw [hp.events] at hev
  have hrow : r.id = p'.id := by rw [hid, hp.id]
  have hnew : p'.events.fresh ≠ [] := by rw [hev]; exact List.cons_ne_nil _ _
  refine alone_call fun a c w' hx hfit => ?_
  obtain ⟨t, q, db', hr, rfl, rfl⟩ | ⟨t, err, he⟩ := exec_tx_served hx hfit
  · obtain ⟨hw, -⟩ := run_payment_loaded hl hrow hev hr
    have hlog : PaymentLogs.PaymentLog n (r.events ++ [new]) s := by
      have h := htracks.log
      rwa [hev, EntityEvents.iterAll_push, EntityEvents.iterAll, List.append_nil, hs] at h
    have hended : Ended (r.grow p'.stateStr [new]) := by
      refine ⟨n, s, hend, hlog, ?_⟩
      rw [← hs]
      rfl
    apply alone_ret
    constructor
    · rfl
    · exact Tried.write (by rw [hA]; rfl) (run_payment_order hnew hr) hw hended
  · obtain ⟨q, db', hok⟩ : ∃ q db', (Transaction.payment p' e).run t w.db = .ok (q, db') :=
      run_payment_ok hl hrow (by rw [hev]; rfl)
    rw [hok] at he
    cases he

theorem solo_untouched {x : Except AppError Bool} (hA : A.concludes k = false) :
    Alone (gateway g) (A.answering g.crates) w (some k) (.ret x)
      (Leaves (some k) [] (TriedAt A w k)) := by
  apply alone_ret
  constructor
  · rfl
  · exact Tried.left (by rw [hA]; rfl)

theorem reconcileLookup_solo (hl : w.db.payments.lookup k = some r) (hp : Loaded r n p)
    (hlate : A.late k = false) (t : Timestamp) :
    Solo g A w (some k) (reconcileLookup p k (A.lookupPayment k) t)
      (Leaves (some k) [] (TriedAt A w k)) := by
  have hconcludes : A.concludes k = match A.lookupPayment k with
      | .error _ => false
      | .ok resp => match resp.status, resp.paymentPreimage with
          | .inFlight, _ => false
          | .succeeded, none => false
          | .succeeded, some _ => true
          | .failed, _ => true := by
    rw [concludes, hlate]
    rfl
  unfold reconcileLookup
  split
  next h => exact solo_untouched (by rw [hconcludes, h])
  next h => exact solo_untouched (by rw [hconcludes, h])
  next resp h =>
    rw [h] at hconcludes
    dsimp only at hconcludes
    split
    next hs => exact solo_untouched (by rw [hconcludes, hs])
    next hs hpre => exact solo_untouched (by rw [hconcludes, hs, hpre])
    next preimage hs hpre =>
      rw [hs, hpre] at hconcludes
      obtain ⟨p', hset⟩ := PaymentLogs.settle_live preimage resp.feesPaidMsat resp.routeHops t
        hp.tracks (.inl hp.state)
      obtain ⟨-, hstate, hid, hev, htracks⟩ := PaymentLogs.settle_executed hp.tracks hset
      unfold commitCompleted
      rw [hset]
      apply solo_now
      intro utcNow
      exact solo_conclude hl hp hid hev hstate htracks (.inl rfl) hconcludes
    next hs =>
      rw [hs] at hconcludes
      obtain ⟨p', hfail⟩ := PaymentLogs.fail_live (resp.failureReason.getD
        (.other "LND reported Failed with no reason")) t hp.tracks (.inl hp.state)
      obtain ⟨-, hstate, hid, hev, htracks⟩ := PaymentLogs.fail_executed hp.tracks hfail
      unfold commitFailed
      rw [hfail]
      apply solo_now
      intro utcNow
      exact solo_conclude hl hp hid hev hstate htracks (.inr rfl) hconcludes

theorem lookupPayment_solo {f : Except LndError SendPaymentResponse → App Bool}
    (hf : Solo g A w (some k) (f (A.lookupPayment k)) (Leaves (some k) [] (TriedAt A w k))) :
    Solo g A w (some k) (LndClient.lookupPayment k >>= f) (Leaves (some k) [] (TriedAt A w k)) := by
  have hopen : A.lookupPayment k = match A.trackPaymentV2 k with
      | .error status => .error (mapTrackPaymentStatus status)
      | .ok () => readTrackMessage k (A.trackPaymentMessage k) := rfl
  refine alone_call fun opened c w₁ hx hfit => ?_
  obtain rfl := eq_of_agrees (α := Except Status Unit) hfit
  cases c <;> simp only [gateway, exec, execLnd, reduceCtorEq] at hx
  cases hx
  cases htrack : A.trackPaymentV2 k with
  | error status =>
      rw [hopen, htrack] at hf
      exact hf
  | ok u =>
      rw [hopen, htrack] at hf
      refine alone_call fun m c' w₂ hx' hfit' => ?_
      obtain rfl := eq_of_agrees (α := Except Status (Option WirePayment)) hfit'
      cases c' <;> simp only [gateway, exec, execLnd, reduceCtorEq] at hx'
      cases hx'
      exact hf

/-- One try looks its payment up once, and ends it if LND says how. -/
theorem reconcileOrphanHold_solo {cur : Option PaymentHash}
    (hl : w.db.payments.lookup k = some r) (hlog : PaymentLogs.PaymentLog n r.events .initiated) :
    Solo g A w cur (reconcileOrphanHold k) (Leaves cur [k] (TriedAt A w k)) := by
  obtain ⟨p, hfound, hp⟩ := found_payment hl hlog
  have hinitiated : ¬p.state ≠ .initiated := not_not.mpr hp.state
  unfold reconcileOrphanHold
  apply solo_findPayment
  rw [hfound]
  change Solo g A w (some k) (if p.state ≠ .initiated then pure false else _) _
  rw [if_neg hinitiated]
  apply solo_now
  intro t
  apply solo_deadline
  have hrest : Solo g A w (some k) (if A.late k then pure false else do
      let lookup ← LndClient.lookupPayment k
      reconcileLookup p k lookup t) (Leaves (some k) [] (TriedAt A w k)) := by
    cases hlate : A.late k with
    | true => exact solo_untouched (by rw [concludes, hlate]; rfl)
    | false => exact lookupPayment_solo (reconcileLookup_solo hl hp hlate t)
  refine Alone.mono ?_ hrest
  rintro calls x w' ⟨hlooked, htried⟩
  refine ⟨?_, htried⟩
  change [k] ++ lookedUp (some k) calls = [k]
  rw [hlooked, List.append_nil]

end

/-! ### One held invoice -/

/-- The invoice has come to an end, and its row says so. -/
def InvoiceEnded (r : InvoiceRow) : Prop :=
  ∃ n s held, (s = .settled ∨ s = .canceled) ∧ InvoiceLogs.InvoiceLog n r.events s held ∧
    r.state = s.asStr

/-- `i` is the held invoice of row `r`, just loaded. -/
structure LoadedInvoice (g : Deployment) (k : PaymentHash) (r : InvoiceRow) (n : NewInvoice)
    (i : Invoice) : Prop where
  tracks : InvoiceLogs.Tracks n i
  events : i.events = ⟨r.id, r.events, []⟩
  id : i.id = r.id
  state : i.state = .held
  preimage : g.crates.sha256 i.paymentPreimage = k

/-- A row that holds the log of a held invoice with the key's preimage. -/
def HeldRow (g : Deployment) (k : PaymentHash) (r : InvoiceRow) : Prop :=
  ∃ n held, InvoiceLogs.InvoiceLog n r.events .held held ∧ g.crates.sha256 n.paymentPreimage = k

section
variable {g : Deployment} {A : Assignment} {w : World} {k : PaymentHash} {r : InvoiceRow}
variable {n : NewInvoice} {i : Invoice} {cur : Option PaymentHash}

/-- The invoices that `calls` has looked up are `ks`, and `R` holds of the world they leave. -/
def Asks {β : Type} (ks : List PaymentHash) (R : World → Prop) :
    Calls → Except AppError β → World → Prop :=
  fun calls _ w' => askedFor calls = ks ∧ R w'

/-- The try of `k` on the invoices of `w`. -/
def InvoiceTriedAt (A : Assignment) (w : World) (k : PaymentHash) (w' : World) : Prop :=
  Tried InvoiceEnded (fun k => !A.reconciles k) [k] w.db.invoices w'.db.invoices

theorem found_invoice (hl : w.db.invoices.lookup k = some r) (hheld : HeldRow g k r) :
    ∃ n i, Invoices.findByPaymentHash w.db k = .ok i ∧ LoadedInvoice g k r n i := by
  obtain ⟨n, held, hlog, hpre⟩ := hheld
  obtain ⟨i, hi, hev, hid, hs, -, ht⟩ := InvoiceLogs.hydrate_log r.id hlog
  refine ⟨n, i, ?_, ht, hev, hid, hs, ?_⟩
  · rw [Invoices.findByPaymentHash, hl]
    exact hi
  · rw [ht.paymentPreimage]
    exact hpre

/-- The commit of an invoice that was loaded as the table has it. -/
theorem solo_finish {i' : Invoice} {e : NewOutboxEvent} {new : InvoiceEvent} {s : InvoiceState}
    (hl : w.db.invoices.lookup k = some r) (hi : LoadedInvoice g k r n i) (hid : i'.id = i.id)
    (hev : i'.events = i.events.push new) (hs : i'.state = s) (htracks : InvoiceLogs.Tracks n i')
    (hend : s = .settled ∨ s = .canceled) (hA : A.reconciles k = true) :
    Solo g A w cur (transact (.invoice i' e) >>= fun _ => (pure () : App Unit))
      (Asks [] (InvoiceTriedAt A w k)) := by
  have hpersisted : i'.events.persisted = r.events := by rw [hev, hi.events]; rfl
  have hfresh : i'.events.fresh = [new] := by rw [hev, hi.events]; rfl
  have hrow : r.id = i'.id := by rw [hid, hi.id]
  have hnew : i'.events.fresh ≠ [] := by rw [hfresh]; exact List.cons_ne_nil _ _
  refine alone_call fun a c w' hx hfit => ?_
  obtain ⟨t, j, db', hr, rfl, rfl⟩ | ⟨t, err, he⟩ := exec_tx_served hx hfit
  · have hsnap : w.db.invoices.Snapshot k i'.id i'.events.persisted :=
      ⟨r, hl, hrow, hpersisted ▸ List.prefix_refl _⟩
    obtain ⟨r', hl', -, hw, -⟩ := run_invoice hnew hsnap hr
    cases hl.symm.trans hl'
    have hlog : InvoiceLogs.InvoiceLog n (r.events ++ [new]) s i'.heldAmountMsat := by
      have h := htracks.log
      rwa [EntityEvents.iterAll, hpersisted, hfresh, hs] at h
    rw [hfresh] at hw
    have hended : InvoiceEnded (r.grow i'.stateStr [new]) := by
      refine ⟨n, s, i'.heldAmountMsat, hend, hlog, ?_⟩
      rw [← hs]
      rfl
    apply alone_ret
    constructor
    · rfl
    · exact Tried.write (by rw [hA]; rfl) (run_invoice_order hnew hr) hw hended
  · obtain ⟨j, db', hok⟩ : ∃ j db', (Transaction.invoice i' e).run t w.db = .ok (j, db') :=
      run_invoice_ok hnew hl hrow hpersisted.symm
    rw [hok] at he
    cases he

theorem solo_unchanged {x : Except AppError Unit} (hA : A.reconciles k = false) :
    Alone (gateway g) (A.answering g.crates) w cur (.ret x) (Asks [] (InvoiceTriedAt A w k)) := by
  apply alone_ret
  constructor
  · rfl
  · exact Tried.left (by rw [hA]; rfl)

theorem commitSettle_solo {amtPaidMsat : MilliSatoshi} (hl : w.db.invoices.lookup k = some r)
    (hi : LoadedInvoice g k r n i) (hA : A.reconciles k = true) :
    Solo g A w cur (commitSettle i k amtPaidMsat) (Asks [] (InvoiceTriedAt A w k)) := by
  unfold commitSettle
  apply solo_now
  intro t
  obtain ⟨i', hset⟩ := InvoiceLogs.settle_held t hi.tracks hi.state
  obtain ⟨-, hstate, hid, hheld, hev, htracks⟩ := InvoiceLogs.settle_executed hi.tracks hset
  obtain ⟨amount, hamount⟩ : ∃ amount, i.heldAmountMsat = some amount := by
    have hlog := hi.tracks.log
    rw [hi.state] at hlog
    exact hlog.held_of_held
  rw [hamount] at hheld
  rw [hset]
  dsimp only
  rw [hheld]
  apply solo_now
  intro utcNow
  exact solo_finish hl hi hid hev hstate htracks (.inl rfl) hA

theorem commitCancel_solo {amtPaidMsat : MilliSatoshi} {reason : CancelReason}
    (hl : w.db.invoices.lookup k = some r) (hi : LoadedInvoice g k r n i)
    (hA : A.reconciles k = true) :
    Solo g A w cur (commitCancel i k reason amtPaidMsat) (Asks [] (InvoiceTriedAt A w k)) := by
  unfold commitCancel
  apply solo_now
  intro t
  obtain ⟨i', hcancel⟩ := InvoiceLogs.cancel_held reason t hi.tracks hi.state
  obtain ⟨-, hstate, hid, -, hev, htracks⟩ := InvoiceLogs.cancel_executed hi.tracks hcancel
  rw [hcancel]
  apply solo_now
  intro utcNow
  exact solo_finish hl hi hid hev hstate htracks (.inr rfl) hA

theorem settleInvoice_solo {preimage : Preimage} {f : Unit → App Unit} {R : World → Prop}
    (hpre : g.crates.sha256 preimage = k)
    (hok : A.settleInvoice k = .ok () → ∀ w', w'.db = w.db → Solo g A w' cur (f ()) (Asks [] R))
    (herr : ∀ st, A.settleInvoice k = .error st → ∀ w', w'.db = w.db →
      Asks (β := Unit) [] R [] (.error (.lnd (.rpc st))) w') :
    Solo g A w cur (LndClient.settleInvoice preimage >>= f) (Asks [] R) := by
  refine alone_call fun a c w₁ hx hfit => ?_
  obtain rfl := eq_of_agrees (α := Except Status Unit) hfit
  rw [hpre] at hx ⊢
  have hexec : exec g.crates (.lnd (.settleInvoice preimage)) c w = some (A.settleInvoice k, w₁) :=
    hx
  have hdb : w₁.db = w.db := ((exec_frame hexec).1 rfl).1
  cases hsettle : A.settleInvoice k with
  | ok u => exact hok hsettle w₁ hdb
  | error st => exact alone_ret (herr st hsettle w₁ hdb)

/-- Act on what LND says of the invoice. -/
theorem applyLndState_solo {update : InvoiceUpdate} (hl : w.db.invoices.lookup k = some r)
    (hi : LoadedInvoice g k r n i) (hread : readLookupInvoice k (A.lookupInvoice k) = .ok update) :
    Solo g A w cur (applyLndState i k update) (Asks [] (InvoiceTriedAt A w k)) := by
  have hA : A.reconciles k = match update.state with
      | .settled => true
      | .canceled => true
      | .accepted => (A.settleInvoice k).isOk
      | .opened => false := by
    rw [reconciles, hread]
  unfold applyLndState
  split
  next hs =>
    rw [hs] at hA
    refine settleInvoice_solo hi.preimage (fun hok w' hw => ?_) fun st herr w' hw => ⟨rfl, ?_⟩
    · rw [hok] at hA
      have hl' : w'.db.invoices.lookup k = some r := by rw [hw, hl]
      refine Alone.mono ?_ (commitSettle_solo hl' hi hA)
      rintro calls x w'' ⟨hasked, htried⟩
      refine ⟨hasked, ?_⟩
      unfold InvoiceTriedAt at htried ⊢
      rwa [hw] at htried
    · rw [herr] at hA
      rw [InvoiceTriedAt, hw]
      exact Tried.left (by rw [hA]; rfl)
  next hs =>
    rw [hs] at hA
    exact commitSettle_solo hl hi hA
  next hs =>
    rw [hs] at hA
    exact commitCancel_solo hl hi hA
  next hs =>
    rw [hs] at hA
    exact solo_unchanged hA

/-- One try looks its invoice up once, and ends it if LND lets it. -/
theorem reconcileHeldInvoice_solo (hl : w.db.invoices.lookup k = some r) (hheld : HeldRow g k r) :
    Solo g A w cur (reconcileHeldInvoice k) (Asks [k] (InvoiceTriedAt A w k)) := by
  obtain ⟨n, i, hfound, hi⟩ := found_invoice hl hheld
  have hstate : ¬i.state ≠ .held := not_not.mpr hi.state
  unfold reconcileHeldInvoice resolveHeld
  apply solo_findInvoice
  rw [hfound]
  change Solo g A w cur (if i.state ≠ .held then pure () else _) _
  rw [if_neg hstate]
  refine alone_call fun m c w₁ hx hfit => ?_
  obtain rfl := eq_of_agrees (α := Except Status WireInvoice) hfit
  cases c <;> simp only [gateway, exec, execLnd, reduceCtorEq] at hx
  cases hx
  have hrest : Alone (gateway g) (A.answering g.crates) w cur
      (ExceptT.bindCont (fun lnd => applyLndState i k lnd)
        ((readLookupInvoice k (A.lookupInvoice k)).mapError AppError.lnd))
      (Asks [] (InvoiceTriedAt A w k)) := by
    cases hread : readLookupInvoice k (A.lookupInvoice k) with
    | ok update => exact applyLndState_solo hl hi hread
    | error e => exact solo_unchanged (by rw [reconciles, hread])
  refine Alone.mono ?_ hrest
  rintro calls x w' ⟨hasked, htried⟩
  exact ⟨congrArg (k :: ·) hasked, htried⟩

end

end LightningGateway.SweepTries
