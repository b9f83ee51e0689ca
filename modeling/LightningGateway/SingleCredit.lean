import LightningGateway.IntraledgerTransfers
import LightningGateway.InvoiceLedger

/-!
# An invoice is credited once

A recipient can be credited twice for one invoice: by the journal of an
intraledger transfer and by the settled row of an HTLC. The transfer checks that
the invoice is open and cancels it at LND, but the journal is posted in between,
while an HTLC can still arrive; the listener then settles it. Where no HTLC is
accepted once a journal is posted, and no journal is posted once an HTLC is
accepted, every run credits an invoice at most once.
-/
namespace LightningGateway.SingleCredit
open Primitives EventTables EffectPrograms TaskPools InvoiceAggregate OutboxRows
open LndWire SymphonyWire GatewayStore StoreSpecs GatewayEffects PeerCalls InvoiceFlows
open GatewayMachine CallSites GatewayInvariant OutboxHistory InvoiceLedger IntraledgerTransfers

def isSettledRow (r : OutboxEvent) : Bool := r.domainEvent = .lightningInvoiceSettled

/-- The credits for `h`: its journal, which counts once however often it is repeated,
and its settled rows. -/
def credits (w : World) (h : PaymentHash) : ℕ :=
  (if w.authorized.any (journalsFor h) then 1 else 0) + (incomingRows w.db h).countP isSettledRow

/-- LND has accepted an HTLC for its hold invoice `h`. -/
def paid (l : Lnd) (h : PaymentHash) : Bool :=
  l.invoices h = some .accepted || l.invoices h = some .settled

/-- Journal and HTLC of one invoice exclude each other. -/
def exclusive (g : Deployment) : Discipline (gateway g) where
  call _ o c w :=
    match o, c with
    | .authorizeSpend r, .symphony posted _ =>
        match PaymentHash.fromStr r.idempotencyKey with
        | .ok h => !(posted && journalsFor h r && paid w.lnd h)
        | .error _ => true
    | _, _ => true
  env x w :=
    match x with
    | .acceptHtlc h => !w.authorized.any (journalsFor h)
    | _ => true

section
variable {g : Deployment} {crates : Crates} {entry : Entry} {past : Calls} {w w' : World}
variable {c : Choice} {ps : List (Past (gateway g))} {h : PaymentHash}

/-! ### How LND's hold invoices move -/

/-- The steps of a hold invoice that a call can cause. -/
inductive Moves : Option LndInvoiceState → Option LndInvoiceState → Prop where
  | stay {i : Option LndInvoiceState} : Moves i i
  | opened : Moves none (some .opened)
  | settled : Moves (some .accepted) (some .settled)
  | canceled {i : LndInvoiceState} : i = .opened ∨ i = .accepted → Moves (some i) (some .canceled)

theorem cancel_moves (l : Lnd) (k : PaymentHash) :
    Moves (l.invoices h) ((l.cancel k).invoices h) := by
  unfold Lnd.cancel
  split
  case h_1 hk | h_2 hk =>
    by_cases hh : h = k
    · subst hh
      simp only [Lnd.setInvoice_invoices, if_true, hk]
      exact .canceled (by simp)
    · simp only [Lnd.setInvoice_invoices, hh, if_false]
      exact .stay
  case h_3 => exact .stay

theorem settle_moves (l : Lnd) (k : PaymentHash) :
    Moves (l.invoices h) ((l.settle k).invoices h) := by
  unfold Lnd.settle
  split
  case h_1 hk =>
    by_cases hh : h = k
    · subst hh
      simp only [Lnd.setInvoice_invoices, if_true, hk]
      exact .settled
    · simp only [Lnd.setInvoice_invoices, hh, if_false]
      exact .stay
  case h_2 => exact .stay

theorem add_moves (l : Lnd) (k : PaymentHash) : Moves (l.invoices h) ((l.add k).invoices h) := by
  unfold Lnd.add
  split
  case h_1 hk =>
    by_cases hh : h = k
    · subst hh
      simp only [Lnd.setInvoice_invoices, if_true, hk]
      exact .opened
    · simp only [Lnd.setInvoice_invoices, hh, if_false]
      exact .stay
  case h_2 => exact .stay

theorem exec_moves {o : Op} {a : o.Ans} (hx : exec crates o c w = some (a, w')) :
    Moves (w.lnd.invoices h) (w'.lnd.invoices h) := by
  by_cases ho : isLnd o = true
  · cases o with
    | lnd o =>
        cases o <;> cases c <;> simp only [exec, execLnd, reduceCtorEq] at hx
        case sendPaymentV2.lndUnit =>
          split at hx <;> cases hx <;> exact .stay
        case addHoldInvoice.lndAdded =>
          cases hx
          split
          · exact add_moves ..
          · exact .stay
        case settleInvoice.lndUnit =>
          cases hx
          split
          · exact settle_moves ..
          · exact .stay
        case cancelInvoice.lndUnit =>
          cases hx
          split
          · exact cancel_moves ..
          · exact .stay
        all_goals
          cases hx
          exact .stay
    | _ => cases ho
  · rw [(exec_frame hx).2.1 (Bool.eq_false_iff.mpr ho)]
    exact .stay

/-- On its own LND accepts HTLCs and lets invoices expire. -/
theorem env_moves {x : Env} (hx : env x w = some w') :
    Moves (w.lnd.invoices h) (w'.lnd.invoices h) ∨
      (x = .acceptHtlc h ∧ w.lnd.invoices h = some .opened) := by
  cases x with
  | acceptHtlc k =>
      simp only [env] at hx
      split_ifs at hx with hk
      cases hx
      by_cases hh : h = k
      · subst hh
        exact .inr ⟨rfl, hk⟩
      · simp only [Lnd.setInvoice_invoices, hh, if_false]
        exact .inl .stay
  | expire k =>
      cases hx
      exact .inl (cancel_moves ..)
  | receive k =>
      simp only [env] at hx
      split_ifs at hx
      cases hx
      left
      split <;> exact .stay
  | lose k | resolve k b =>
      simp only [env] at hx
      split_ifs at hx <;> cases hx <;> exact .inl .stay
  | drawSequence =>
      cases hx
      exact .inl .stay

theorem Moves.settled_stays {i j : Option LndInvoiceState} (hm : Moves i j)
    (hi : i = some .settled) : j = some .settled := by
  cases hm with
  | stay => exact hi
  | opened => cases hi
  | settled => rfl
  | canceled hs => rcases hs with rfl | rfl <;> cases hi

theorem Moves.unpaid_stays {l l' : Lnd} (hm : Moves (l.invoices h) (l'.invoices h))
    (hp : paid l h = false) : paid l' h = false := by
  unfold paid at hp ⊢
  generalize l.invoices h = i at hm hp
  generalize l'.invoices h = j at hm ⊢
  cases hm with
  | stay => exact hp
  | opened | canceled => rfl
  | settled => cases hp

/-! ### The invariant -/

/-- The task has learned that LND settled its hold invoice `h`. -/
def Learned (p : Past (gateway g)) (h : PaymentHash) : Prop :=
  ToldInvoice p.entry p.calls h .settled ∨
    ∃ preimage, g.crates.sha256 preimage = h ∧
      Answered p.calls (.lnd (.settleInvoice preimage)) (.ok ())

structure Single (w : World) (ps : List (Past (gateway g))) : Prop where
  journal : ∀ h, w.authorized.any (journalsFor h) = true → paid w.lnd h = false
  learned : ∀ p ∈ ps, ∀ h, Learned p h → w.lnd.invoices h = some .settled
  row : ∀ h, hasRow w.db .lightningInvoiceSettled h = true → w.lnd.invoices h = some .settled

/-- What LND has told a task is older than its last call, or that call asked for it. -/
theorem toldInvoice_last {o : Op} {a : o.Ans} {s : LndInvoiceState}
    (ht : ToldInvoice entry (past ++ [⟨o, a⟩]) h s) :
    ToldInvoice entry past h s ∨
      ∃ m u, (⟨o, a⟩ : Call gatewaySignature) = ⟨.lnd (.lookupInvoice h), m⟩ ∧
        readLookupInvoice h m = .ok u ∧ u.state = s := by
  cases ht with
  | lookup ha hm hs =>
      rcases List.mem_append.mp ha with ha | ha
      · exact .inl (.lookup ha hm hs)
      · exact .inr ⟨_, _, (List.mem_singleton.mp ha).symm, hm, hs⟩
  | update he hh hs => exact .inl (.update he hh hs)

/-- What is new to a task comes from its last call. -/
theorem Learned.last {o : Op} {a : o.Ans}
    (hl : Learned (⟨entry, past ++ [⟨o, a⟩]⟩ : Past (gateway g)) h) :
    Learned (⟨entry, past⟩ : Past (gateway g)) h ∨
      (∃ m u, (⟨o, a⟩ : Call gatewaySignature) = ⟨.lnd (.lookupInvoice h), m⟩ ∧
        readLookupInvoice h m = .ok u ∧ u.state = .settled) ∨
      ∃ preimage, g.crates.sha256 preimage = h ∧
        (⟨o, a⟩ : Call gatewaySignature) = ⟨.lnd (.settleInvoice preimage), .ok ()⟩ := by
  rcases hl with ht | ⟨preimage, hp, ha⟩
  · rcases toldInvoice_last ht with ht | hnew
    · exact .inl (.inl ht)
    · exact .inr (.inl hnew)
  · rcases List.mem_append.mp ha with ha | ha
    · exact .inl (.inr ⟨preimage, hp, ha⟩)
    · exact .inr (.inr ⟨preimage, hp, (List.mem_singleton.mp ha).symm⟩)

theorem learned_call {o : Op} {a : o.Ans} (hd : (holdContract g).call ⟨entry, past⟩ o c w = true)
    (hx : exec g.crates o c w = some (a, w'))
    (hold : Learned (⟨entry, past⟩ : Past (gateway g)) h → w.lnd.invoices h = some .settled)
    (hl : Learned (⟨entry, past ++ [⟨o, a⟩]⟩ : Past (gateway g)) h) :
    w'.lnd.invoices h = some .settled := by
  rcases hl.last with hl | ⟨m, u, heq, hm, hs⟩ | ⟨preimage, rfl, heq⟩
  · exact (exec_moves hx).settled_stays (hold hl)
  · cases heq
    cases c <;> simp only [exec, execLnd, reduceCtorEq] at hx
    cases hx
    simpa only [holdContract, hm, hs, finalState, decide_eq_true_eq] using hd
  · -- LND acknowledges a settle only for an HTLC that it held or has settled already.
    cases heq
    cases c <;> simp only [exec, execLnd, reduceCtorEq] at hx
    cases hx
    simp only [holdContract, Bool.and_eq_true, Bool.or_eq_true, decide_eq_true_eq] at hd
    obtain ⟨rfl, hst⟩ := hd
    simp only [if_true, Lnd.settle]
    rcases hst with hst | hst
    · simp [hst]
    · simp [hst]

theorem Single.call {o : Op} {a : o.Ans} {i : ℕ} (hI : Single w ps) (hs : Sane g w ps)
    (hi : ps[i]? = some ⟨entry, past⟩) (hj : Justified g entry past o)
    (hl : (lawful g).call ⟨entry, past⟩ o c w = true)
    (hd : (exclusive g).call ⟨entry, past⟩ o c w = true) (hx : exec g.crates o c w = some (a, w')) :
    Single w' (ps.set i ⟨entry, past ++ [⟨o, a⟩]⟩) := by
  have hmem := List.mem_of_getElem? hi
  refine ⟨?_, ?_, ?_⟩
  · intro h hjournal
    refine (exec_moves hx).unpaid_stays ?_
    by_cases ho : isAuthorize o = true
    · cases o with
      | authorizeSpend r =>
          cases c with
          | symphony posted resp =>
              cases hx
              cases posted with
              | false => exact hI.journal h hjournal
              | true =>
                  simp only [if_true, List.any_append, Bool.or_eq_true] at hjournal
                  rcases hjournal with hjournal | hjournal
                  · exact hI.journal h hjournal
                  · have hr : journalsFor h r = true := by simpa using hjournal
                    have hkey : r.idempotencyKey = h.toHex := (of_decide_eq_true hr).1
                    simpa [exclusive, hkey, PaymentHash.fromStr_toHex, hr] using hd
          | _ => cases hx
      | _ => cases ho
    · rw [(exec_frame hx).2.2 (Bool.eq_false_iff.mpr ho)] at hjournal
      exact hI.journal h hjournal
  · exact pasts_call hi
      (fun p hp h hlearn => (exec_moves hx).settled_stays (hp h hlearn))
      (fun hpast h => learned_call (holdContract_call_of_lawful hl) hx (hpast h)) hI.learned
  · intro h hr
    refine (exec_moves hx).settled_stays ?_
    obtain ⟨b, db', -, hb, -, rfl⟩ | ⟨hdb, -⟩ := commit_or_frame hs.db (hs.calls _ hmem) hj hx
    · rcases hasRow_step hb hr with hr | ⟨hwhy, -⟩
      · exact hI.row h hr
      · exact hI.learned _ hmem h hwhy
    · exact hI.row h (hdb ▸ hr)

theorem Single.env {x : Env} (hI : Single w ps) (hd : (exclusive g).env x w = true)
    (hx : env x w = some w') : Single w' ps := by
  obtain ⟨-, -, hout, -, hauth, -⟩ := env_frame hx
  have settled : ∀ h, w.lnd.invoices h = some .settled → w'.lnd.invoices h = some .settled := by
    intro h hst
    rcases env_moves (h := h) hx with hm | ⟨-, hopen⟩
    · exact hm.settled_stays hst
    · cases hst.symm.trans hopen
  refine ⟨?_, fun p hp h hlearn => settled h (hI.learned p hp h hlearn), ?_⟩
  · intro h hjournal
    rw [hauth] at hjournal
    rcases env_moves (h := h) hx with hm | ⟨rfl, -⟩
    · exact hm.unpaid_stays (hI.journal h hjournal)
    · simp only [exclusive, hjournal] at hd
      cases hd
  · intro h hr
    refine settled h (hI.row h ?_)
    simpa only [hasRow, hout] using hr

theorem Single.spawn {e : Entry} (hI : Single w ps) (hd : (lawful g).spawn e w = true) :
    Single w (ps ++ [⟨e, []⟩]) := by
  refine ⟨hI.journal, pasts_spawn (fun h hlearn => ?_) hI.learned, hI.row⟩
  rcases hlearn with (⟨ha, -, -⟩ | @⟨u, rfl, rfl, hs⟩) | ⟨preimage, -, ha⟩
  · cases ha
  · simpa only [lawful, hs, finalState, decide_eq_true_eq] using hd
  · cases ha

end

/-! ### Runs -/

/-- The rows about an invoice hold at most one settlement. -/
theorem settled_rows_le_one {db : Db} {h : PaymentHash} (hr : RowsFollowLog db h) :
    (incomingRows db h).countP isSettledRow ≤ 1 := by
  obtain ⟨parked, outcome, hrows, hp, ho, -⟩ := hr
  have hmap : ∀ rows : List OutboxEvent, rows.countP isSettledRow =
      (rows.map OutboxEvent.domainEvent).countP (· = .lightningInvoiceSettled) := by
    intro rows
    rw [List.countP_map]
    rfl
  rw [hrows, hmap, List.map_append, hp, ho, List.countP_append, heldRows, outcomeRows]
  split_ifs <;> decide

/-- Where journals and HTLCs exclude each other, every run credits every invoice at
most once. -/
theorem credited_at_most_once (g : Deployment) (es : List (Event (gateway g)))
    (s : Pool (gateway g)) (hrun : Runs ((lawful g).both (exclusive g)) (boot g) es s)
    (h : PaymentHash) : credits s.world h ≤ 1 := by
  obtain ⟨-, -, hI⟩ := gateway_invariant ((lawful g).both (exclusive g)) (I := Single)
    ⟨fun h hj => (by cases hj), fun p hp => (by cases hp), fun h hr => (by cases hr)⟩
    (fun w ps e hd _ hI => hI.spawn (Discipline.both_spawn.mp hd).1)
    (fun w ps i entry past o c a w' hi hj hd hx hs hI =>
      hI.call hs hi hj (Discipline.both_call.mp hd).1 (Discipline.both_call.mp hd).2 hx)
    (fun w ps x w' hd hx _ hI => hI.env (Discipline.both_env.mp hd).2 hx) hrun
  obtain ⟨hseq, ha⟩ := announced_run _ hrun
  have hone := settled_rows_le_one (rowsFollowLog_of_announced hseq (ha h))
  unfold credits
  split_ifs with hj
  · -- A posted journal means that LND was never paid, so nothing was settled.
    have hunpaid := hI.journal h hj
    have hzero : (incomingRows s.world.db h).countP isSettledRow = 0 := by
      rw [List.countP_eq_zero]
      intro row hrow hset
      obtain ⟨hmem, hr⟩ := List.mem_filter.mp hrow
      have hrow' : hasRow s.world.db .lightningInvoiceSettled h = true :=
        List.any_eq_true.mpr ⟨row, hmem, by
          simpa using ⟨of_decide_eq_true hset, (of_decide_eq_true hr).2⟩⟩
      simp [paid, hI.row h hrow'] at hunpaid
    omega
  · omega

/-- The calls of task `i` that hold and settle an HTLC on the sample invoice. -/
def settleHtlc (i : ℕ) : List (Event (gateway Sample.deployment)) :=
  [.spawn (.handleInvoiceUpdate (Sample.invoiceUpdate .accepted 250000000)),
    .step i (.served Sample.noon), .step i (.clock Sample.noon), .step i (.clock Sample.noon),
    .step i (.served Sample.noon), .step i (.served Sample.noon),
    .step i (.lndInvoice (.ok ⟨Sample.hash.bytes, 3, 250000000, []⟩)),
    .step i (.lndUnit true (.ok ())), .step i (.clock Sample.noon), .step i (.clock Sample.noon),
    .step i (.served Sample.noon)]

def htlcRun : List (Event (gateway Sample.deployment)) :=
  Sample.issueInvoice 0 ++ [.env (.acceptHtlc Sample.hash)] ++ settleHtlc 1

theorem credited_at_most_once_htlc :
    ∃ s, Runs ((lawful Sample.deployment).both (exclusive Sample.deployment))
        (boot Sample.deployment) htlcRun s ∧ credits s.world Sample.hash = 1 := by
  obtain ⟨s, hrun, hc⟩ := exists_run_of_play
    ((lawful Sample.deployment).both (exclusive Sample.deployment))
    (boot Sample.deployment) htlcRun
    (fun s => decide (1 ≤ credits s.world Sample.hash)) (by decide +kernel)
  exact ⟨s, hrun, le_antisymm
    (credited_at_most_once Sample.deployment htlcRun s hrun Sample.hash) (of_decide_eq_true hc)⟩

/-- An HTLC arrives between the journal and the cancel, and the listener settles it. -/
def doubleRun : List (Event (gateway Sample.deployment)) :=
  Sample.issueInvoice 0 ++ (transferUpToCancel 1 (.ok ())).dropLast ++
    [.env (.acceptHtlc Sample.hash)] ++ settleHtlc 2

/-- Lawful peers are not enough: the recipient is credited twice. -/
theorem credited_twice :
    ∃ s, Runs (lawful Sample.deployment) (boot Sample.deployment) doubleRun s ∧
      credits s.world Sample.hash = 2 := by
  obtain ⟨s, hrun, hc⟩ := exists_run_of_play (lawful Sample.deployment)
    (boot Sample.deployment) doubleRun
    (fun s => decide (credits s.world Sample.hash = 2)) (by decide +kernel)
  exact ⟨s, hrun, of_decide_eq_true hc⟩

end LightningGateway.SingleCredit
