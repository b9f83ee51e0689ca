import LightningGateway.FeedInvariant

/-!
# When a client is told that an invoice has expired

`EXPIRED` ends a stream, so it must be right. It is derived from a row, which is
matched by the log, or from the aggregate, where the absence of an invoice stands
for its expiry. A lookup that fails is taken for that absence: this is the only way
to a wrong answer.
-/
namespace LightningGateway.StatusSoundness
open Primitives TaskPools GuardedRuns InvoiceAggregate OutboxRows GatewayStore GatewayMachine
open StatusMapping StatusFeed StatusRows FeedSteps FeedInvariant
open InvoiceLogs (InvoiceLog)

variable {g : Deployment} {db : Db} {h : PaymentHash} {now : Option Timestamp}

/-- `EXPIRED` is right: there is no invoice of `h`, or it is canceled, or it is open
and past its expiry at the time that was read. -/
def mayExpire (db : Db) (h : PaymentHash) (now : Option Timestamp) : Bool :=
  match db.invoices.lookup h with
  | none => true
  | some r =>
      match Invoices.hydrate r with
      | .ok i =>
          match i.state with
          | .canceled => true
          | .opened => now.any fun t => i.expiryAt.nanos ≤ t.nanos
          | .held | .settled => false
      | .error _ => false

/-- A lookup that fails does so while `EXPIRED` would be right anyway. -/
def failsHarmlessly (f : Feed g) : FeedEvent g → Bool
  | .stream i (.derive now _) =>
      match f.streams[i]? with
      | none => true
      | some s =>
          match s.phase with
          | .lookedUp source false => mayExpire source s.paymentHash (some now)
          | _ => true
  | _ => true

/-- An answered lookup is expired for one of the three reasons. -/
theorem mayExpire_of_lookup {now : Timestamp} (hf : DbFacts g db)
    (hs : lookedUpStatus db h true now = .expired) : mayExpire db h (some now) = true := by
  obtain ⟨hl, -⟩ | ⟨r, i, n, hl, hi, hfound, -⟩ := lookupInvoice_cases hf h
  · simp only [mayExpire, hl]
  · rw [lookedUpStatus_some hfound] at hs
    simp only [mayExpire, hl, hi]
    cases hst : i.state with
    | opened =>
        rw [hst] at hs
        simp only [initialStatus] at hs
        split_ifs at hs with hle
        simpa using hle
    | held | settled =>
        rw [hst] at hs
        cases hs
    | canceled => rfl

/-- A row that announces the end of the invoice is matched by its log. -/
theorem mayExpire_of_row (hf : DbFacts g db) (hc : Concluded db h .expired) :
    mayExpire db h now = true := by
  obtain ⟨r, hr, hcan⟩ := hc
  obtain ⟨hl, -⟩ | ⟨r', i, n, hl, hi, -, hlog⟩ := lookupInvoice_cases hf h
  · cases hl.symm.trans hr
  · cases hl.symm.trans hr
    have hst : i.state = .canceled := hlog.any_isCanceled.mp hcan
    simp only [mayExpire, hl, hi, hst]

/-- In every run in which a lookup for the aggregate's status fails only while
`EXPIRED` is right anyway, whatever other reads fail, `EXPIRED` is sent only for an
invoice that does not exist, is canceled, or is open and past its expiry in the
database that was read. -/
theorem expired_is_sound (g : Deployment) (es : List (FeedEvent g)) (f : Feed g)
    (hrun : Feeds failsHarmlessly es f) :
    ∀ s ∈ f.streams, ∀ m ∈ s.sent, m.payload.status = some .expired →
      mayExpire m.source s.paymentHash m.now = true := by
  refine emission_invariant (P := fun h m => m.payload.status = some .expired →
    mayExpire m.source h m.now = true) ?_ hrun
  intro f i x s m hI hs hget hadm ho hst
  cases ho with
  | @aggregate source read accepted now hp =>
      rw [buildPayload_status] at hst
      have hground := (hI.streams s hs).phase
      rw [hp] at hground
      obtain ⟨hf, -⟩ := hground
      cases read with
      | true => exact mayExpire_of_lookup hf (Option.some.inj hst)
      | false => simpa only [failsHarmlessly, hget, hp] using hadm
  | refusal message => cases hst
  | @row x row st hrow ha hev hne =>
      rw [buildPayload_status] at hst
      have hc : Concluded f.db s.paymentHash st :=
        hI.facts.concluded row hrow s.paymentHash ha st hev
      rw [Option.some.inj hst] at hc
      exact mayExpire_of_row hI.facts hc
  | paid hp =>
      rw [buildPayload_status] at hst
      cases hst

/-- The sample invoice is issued; then a client subscribes to it. -/
def subscribed : List (FeedEvent Sample.deployment) :=
  (Sample.issueInvoice 0).map .app ++ [.subscribe (.byHash Sample.hash) true none]

/-- A client that subscribes after the invoice has expired. -/
def lateSubscription : List (FeedEvent Sample.deployment) :=
  subscribed ++ [.stream 0 (.lookUp true),
    .stream 0 (.derive ⟨Sample.noon.nanos + 24 * 60 * 60 * 10 ^ 9⟩ true)]

theorem expired_is_sound_late :
    ∃ f, Feeds failsHarmlessly lateSubscription f ∧
      ∃ s ∈ f.streams, s.statuses = [.expired] ∧
        ∀ m ∈ s.sent, m.payload.status = some .expired →
          mayExpire m.source s.paymentHash m.now = true := by
  obtain ⟨f, hrun, hc⟩ := exists_run_of_play Feed.next failsHarmlessly
    (Feed.boot Sample.deployment) lateSubscription
    (fun f => f.streams.any fun s => decide (s.statuses = [.expired])) (by decide +kernel)
  obtain ⟨s, hs, hst⟩ := List.any_eq_true.mp hc
  exact ⟨f, hrun, s, hs, of_decide_eq_true hst,
    expired_is_sound Sample.deployment lateSubscription f hrun s hs⟩

/-- The lookup fails for a client of an open invoice. -/
def failedLookup : List (FeedEvent Sample.deployment) :=
  subscribed ++ [.stream 0 (.lookUp false), .stream 0 (.derive Sample.noon true)]

/-- The client is told that a payable invoice has expired. -/
theorem failed_lookup_expires :
    ∃ f, Feeds (fun _ _ => true) failedLookup f ∧
      ∃ s ∈ f.streams, ∃ m ∈ s.sent, m.payload.status = some .expired ∧
        mayExpire m.source s.paymentHash m.now = false := by
  obtain ⟨f, hrun, hc⟩ := exists_run_of_play Feed.next (fun _ _ => true)
    (Feed.boot Sample.deployment) failedLookup
    (fun f => f.streams.any fun s => s.sent.any fun m =>
      decide (m.payload.status = some .expired) && !mayExpire m.source s.paymentHash m.now)
    (by decide +kernel)
  obtain ⟨s, hs, hc⟩ := List.any_eq_true.mp hc
  obtain ⟨m, hm, hc⟩ := List.any_eq_true.mp hc
  simp only [Bool.and_eq_true, decide_eq_true_eq, Bool.not_eq_true'] at hc
  exact ⟨f, hrun, s, hs, m, hm, hc⟩

end LightningGateway.StatusSoundness
