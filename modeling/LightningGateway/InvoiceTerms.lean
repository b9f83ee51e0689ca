import LightningGateway.InvoiceCreation

/-!
# The terms of a created invoice

What LND was asked for is compared with what the database keeps: the lifetime, the
amount, and whether LND was asked at all for a request that is then refused. Each
comparison holds exactly on a set of requests that is stated with it.
-/
namespace LightningGateway.InvoiceTerms
open Primitives EventTables EffectPrograms TaskPools InvoiceAggregate LndWire GatewayStore
open StoreSpecs GatewayEffects PeerCalls InvoiceFlows GatewayMachine CallSites InvoiceCreation

/-! ### What was asked and what was kept -/

/-- The hold invoices that some calls ask LND for. -/
def asked (calls : Calls) : List WireAddHoldRequest :=
  calls.filterMap fun
    | ⟨.lnd (.addHoldInvoice added), _⟩ => some added
    | _ => none

/-- The lifetime that a row records in nanoseconds, when its column and its first event
agree on the expiry. -/
def lifetime (r : InvoiceRow) : Option ℤ :=
  match r.events with
  | .created _ _ _ _ expiryAt _ _ createdAt :: _ =>
      if r.cols.expiryAt = expiryAt then some (expiryAt.nanos - createdAt.nanos) else none
  | _ => none

section
variable {g : Deployment} {request : NewInvoiceRequest} {t : Timestamp} {preimage : Preimage}
variable {externalId text : String} {value : ℤ} {id : Uuid} {n : NewInvoice} {calls : Calls}

theorem asked_append (c₁ c₂ : Calls) : asked (c₁ ++ c₂) = asked c₁ ++ asked c₂ :=
  List.filterMap_append

theorem mem_asked {added : WireAddHoldRequest} (h : added ∈ asked calls) :
    ∃ answer, (⟨.lnd (.addHoldInvoice added), answer⟩ : Call gatewaySignature) ∈ calls := by
  obtain ⟨⟨o, a⟩, hc, hadded⟩ := List.mem_filterMap.mp h
  split at hadded
  case h_1 added' answer heq =>
    cases heq
    cases hadded
    exact ⟨answer, hc⟩
  case h_2 => cases hadded

theorem asked_accepted :
    asked (accepted g request t preimage value text id) = [addRequest g request preimage value] :=
  rfl

theorem draft_spec (h : draft g request t preimage externalId text id = .ok n) :
    request.amountMsat ≠ .zero ∧ n.amountMsat = some request.amountMsat ∧
      n.expiryAt.nanos - n.createdAt.nanos = (effectiveExpiry request.expirySeconds : ℤ) * 10 ^ 9 := by
  unfold draft NewInvoice.tryNew at h
  split_ifs at h with hzero
  cases h
  refine ⟨fun hz => hzero (by rw [hz]), rfl, ?_⟩
  dsimp only
  omega

theorem draft_ok (h : request.amountMsat ≠ .zero) :
    ∃ n, draft g request t preimage externalId text id = .ok n := by
  unfold draft NewInvoice.tryNew
  rw [if_neg fun hz => h (Option.some.inj hz)]
  exact ⟨_, rfl⟩

theorem draft_error {e : InvoiceError}
    (h : draft g request t preimage externalId text id = .error e) :
    request.amountMsat = .zero ∧ e = .invalidAmount := by
  unfold draft NewInvoice.tryNew at h
  split_ifs at h with hzero
  cases h
  exact ⟨Option.some.inj hzero, rfl⟩

theorem draft_zero (h : request.amountMsat = .zero) :
    draft g request t preimage externalId text id = .error .invalidAmount := by
  unfold draft NewInvoice.tryNew
  rw [h, if_pos rfl]

end

section
variable {g : Deployment} {D : Discipline (gateway g)} {es : List (Event (gateway g))}
variable {s : Pool (gateway g)} {request : NewInvoiceRequest} {i : Invoice} {t : Task (gateway g)}

/-- A successful creation asked LND once, and its row is in the database. -/
theorem created_facts (hrun : Runs D (boot g) es s) (ht : t ∈ s.tasks)
    (hentry : t.entry = .createInvoice request) (hrest : t.rest = some (.ret (.invoice (.ok i)))) :
    ∃ preimage value n, tryI64 request.amountMsat.msat = some value ∧
      asked t.calls = [addRequest g request preimage value] ∧
      request.amountMsat ≠ .zero ∧ n.amountMsat = some request.amountMsat ∧
      n.expiryAt.nanos - n.createdAt.nanos = (effectiveExpiry request.expirySeconds : ℤ) * 10 ^ 9 ∧
      Stored s.world.db n i := by
  obtain ⟨hends, -, hwitnessed⟩ := creation_run hrun
  have hcreation := hends t ht request _ hentry hrest
  generalize hr : (Except.ok i : Except AppError Invoice) = r at hcreation
  generalize hcalls : t.calls = calls at hcreation
  cases hcreation with
  | created at_ preimage text id j hadm hmode hn =>
      cases hr
      obtain ⟨hne, hamount, hspan⟩ := draft_spec hn
      have hstored := hwitnessed t ht ⟨.tx (.createInvoice _), .ok i⟩ (by
        rw [hcalls]
        exact List.mem_append_right _ List.mem_cons_self)
      refine ⟨preimage, _, _, hadm.2, ?_, hne, hamount, hspan, hstored⟩
      rw [asked_append, asked_accepted]
      rfl
  | _ => cases hr

/-! ### The lifetime -/

/-- LND and the database give the invoice the same lifetime. -/
def SameLifetime (db : Db) (calls : Calls) (i : Invoice) : Prop :=
  ∃ seconds, (asked calls).map WireAddHoldRequest.expiry = [seconds] ∧
    (db.invoices.lookup i.paymentHash).bind lifetime = some (seconds * 10 ^ 9)

theorem stored_lifetime {db : Db} {n : NewInvoice} (h : Stored db n i) :
    (db.invoices.lookup i.paymentHash).bind lifetime =
      some (n.expiryAt.nanos - n.createdAt.nanos) := by
  obtain ⟨r, hr, -, hexpiry, ⟨rest, hevents⟩⟩ := h.row
  rw [h.paymentHash, hr, Option.bind_some]
  unfold lifetime
  rw [← hevents]
  exact if_pos hexpiry

theorem effectiveExpiry_eq_iff (seconds : UInt32) :
    effectiveExpiry seconds = seconds.toNat ↔ 60 ≤ seconds.toNat ∧ seconds.toNat ≤ 86400 := by
  unfold effectiveExpiry
  have hmin : btcInvoiceMinSeconds = 60 := rfl
  have hmax : btcInvoiceMaxSeconds = 86400 := rfl
  have hdefault : btcInvoiceDefaultSeconds = 14400 := rfl
  split_ifs with h <;> omega

/-- The times that a client can ask for and that reach the bounds of the constructor. -/
theorem requested_bounds (expiresIn : Option UInt32) :
    (60 ≤ (saturatingMul32 (expiresIn.getD 1440) 60).toNat ∧
        (saturatingMul32 (expiresIn.getD 1440) 60).toNat ≤ 86400) ↔
      ∀ m ∈ expiresIn, 1 ≤ m.toNat ∧ m.toNat ≤ 1440 := by
  cases expiresIn with
  | none => simp [saturatingMul32]
  | some m =>
      have hsixty : (60 : UInt32).toNat = 60 := rfl
      have hmax : (4294967295 : UInt32).toNat = 4294967295 := rfl
      simp only [Option.getD_some, Option.mem_def, Option.some.injEq, forall_eq']
      unfold saturatingMul32
      split_ifs with h
      · rw [UInt32.toNat_mul, hsixty, Nat.mod_eq_of_lt (by rw [hsixty] at h; exact h)]
        omega
      · rw [hmax]
        rw [hsixty] at h
        omega

/-- The lifetimes of a created invoice agree exactly when the requested expiry is within
the bounds of the database; for a request of the mutation this is a time between one
minute and one day, or none. -/
theorem lifetime_agrees_iff (hrun : Runs D (boot g) es s) (ht : t ∈ s.tasks)
    (hentry : t.entry = .createInvoice request) (hrest : t.rest = some (.ret (.invoice (.ok i)))) :
    (SameLifetime s.world.db t.calls i ↔
      60 ≤ request.expirySeconds.toNat ∧ request.expirySeconds.toNat ≤ 86400) ∧
    ∀ (input : LnInvoiceCreateInput) (callerAuth : CallerAuth), request = input.request callerAuth →
      (SameLifetime s.world.db t.calls i ↔
        ∀ m ∈ input.expiresIn, 1 ≤ m.toNat ∧ m.toNat ≤ 1440) := by
  obtain ⟨preimage, value, n, -, hasked, -, -, hspan, hstored⟩ :=
    created_facts hrun ht hentry hrest
  have hiff : SameLifetime s.world.db t.calls i ↔
      60 ≤ request.expirySeconds.toNat ∧ request.expirySeconds.toNat ≤ 86400 := by
    rw [← effectiveExpiry_eq_iff]
    unfold SameLifetime
    rw [hasked, stored_lifetime hstored, hspan]
    simp only [List.map_cons, List.map_nil, addRequest, List.cons.injEq, and_true,
      Option.some.injEq, exists_eq_left']
    omega
  refine ⟨hiff, ?_⟩
  rintro input callerAuth rfl
  exact hiff.trans (requested_bounds input.expiresIn)

end

/-- An invoice over the sample amount that is to be payable for `expirySeconds`. -/
def lastingRequest (expirySeconds : UInt32) : NewInvoiceRequest :=
  { Sample.invoiceRequest with expirySeconds }

/-- The calls that create the invoice of a request, every one of them served. -/
def issueRun (request : NewInvoiceRequest) : List (Event (gateway Sample.deployment)) :=
  [.spawn (.createInvoice request), .step 0 (.clock Sample.noon), .step 0 (.ownership (.ok ())),
    .step 0 (.preimage Sample.preimage), .step 0 (.lndAdded true (.ok Sample.text)),
    .step 0 (.uuid Sample.invoiceId), .step 0 (.served Sample.noon), .step 0 .done]

/-- The calls of a creation that is alone in its pool, and its invoice. -/
def soleCreation (request : NewInvoiceRequest) (s : Pool (gateway Sample.deployment)) :
    Option (Calls × Invoice) :=
  match s.tasks with
  | [⟨⟨.createInvoice r, calls⟩, some (.ret (.invoice (.ok i)))⟩] =>
      if r = request then some (calls, i) else none
  | _ => none

theorem soleCreation_spec {request : NewInvoiceRequest} {s : Pool (gateway Sample.deployment)}
    {calls : Calls} {i : Invoice} (h : soleCreation request s = some (calls, i)) :
    ∃ t ∈ s.tasks, t.entry = .createInvoice request ∧ t.calls = calls ∧
      t.rest = some (.ret (.invoice (.ok i))) := by
  unfold soleCreation at h
  split at h
  case h_1 r calls' j htasks =>
    split_ifs at h with hr
    cases h
    have hmem : _ ∈ s.tasks := htasks ▸ List.mem_singleton_self _
    exact ⟨_, hmem, congrArg Entry.createInvoice hr, rfl, rfl⟩
  case h_2 => cases h

/-- LND was asked for `seconds`, and the row records `nanos`. -/
def lifetimes (seconds nanos : ℤ) (s : Pool (gateway Sample.deployment)) (calls : Calls)
    (i : Invoice) : Bool :=
  (asked calls).map WireAddHoldRequest.expiry = [seconds] ∧
    (s.world.db.invoices.lookup i.paymentHash).bind lifetime = some nanos

theorem lifetime_agrees_iff_day : ∃ s t i,
    Runs {} (boot Sample.deployment) (issueRun (lastingRequest 86400)) s ∧ t ∈ s.tasks ∧
      t.rest = some (.ret (.invoice (.ok i))) ∧ SameLifetime s.world.db t.calls i := by
  obtain ⟨s, hrun, hc⟩ := exists_run_of_play {} (boot Sample.deployment)
    (issueRun (lastingRequest 86400))
    (fun s => (soleCreation (lastingRequest 86400) s).isSome) (by decide +kernel)
  obtain ⟨⟨calls, i⟩, hsole⟩ := Option.isSome_iff_exists.mp hc
  obtain ⟨t, ht, hentry, -, hrest⟩ := soleCreation_spec hsole
  exact ⟨s, t, i, hrun, ht, hrest,
    (lifetime_agrees_iff hrun ht hentry hrest).1.mpr (by decide)⟩

/-- An invoice for two days is payable at LND for two days and expires in the database
after four hours. -/
theorem two_days_disagree : ∃ s t i,
    Runs {} (boot Sample.deployment) (issueRun (lastingRequest 172800)) s ∧ t ∈ s.tasks ∧
      t.entry = .createInvoice (lastingRequest 172800) ∧
      t.rest = some (.ret (.invoice (.ok i))) ∧
      lifetimes 172800 (14400 * 10 ^ 9) s t.calls i = true ∧
      ¬ SameLifetime s.world.db t.calls i := by
  obtain ⟨s, hrun, hc⟩ := exists_run_of_play {} (boot Sample.deployment)
    (issueRun (lastingRequest 172800))
    (fun s => (soleCreation (lastingRequest 172800) s).any fun c =>
      lifetimes 172800 (14400 * 10 ^ 9) s c.1 c.2) (by decide +kernel)
  obtain ⟨⟨calls, i⟩, hsole, hboth⟩ := Option.any_eq_true _ _ |>.mp hc
  obtain ⟨t, ht, hentry, rfl, hrest⟩ := soleCreation_spec hsole
  refine ⟨s, t, i, hrun, ht, hentry, hrest, hboth, ?_⟩
  rintro ⟨seconds, hasked, hspan⟩
  obtain ⟨hasked', hspan'⟩ := of_decide_eq_true hboth
  rw [hasked] at hasked'
  rw [hspan] at hspan'
  cases hasked'
  cases hspan'

/-! ### Refusals -/

/-- Calls that change LND or the database, or that start a listener. -/
def touches : Op → Bool
  | .lnd (.addHoldInvoice _) | .tx _ | .spawnListenerFor _ => true
  | _ => false

theorem digitCode_valid {n : ℕ} (h : n < 16) :
    (97 ≤ digitCode n ∧ digitCode n ≤ 122) ∨ (48 ≤ digitCode n ∧ digitCode n ≤ 57) := by
  interval_cases n <;> decide

/-- The identifier that stands in for a missing one always passes the check. -/
theorem isValidExternalId_toHex (h : PaymentHash) : isValidExternalId h.toHex = true := by
  have hlen : (utf8Bytes h.toHex).length = 64 := by
    unfold PaymentHash.toHex
    rw [utf8Bytes_hexEncode, List.length_flatMap]
    simp [h.size]
  have hall : (utf8Bytes h.toHex).all (fun b =>
      (97 ≤ b ∧ b ≤ 122) ∨ (48 ≤ b ∧ b ≤ 57) ∨ b = 45 ∨ b = 95) = true := by
    unfold PaymentHash.toHex
    rw [utf8Bytes_hexEncode, List.all_eq_true]
    intro b hb
    obtain ⟨x, -, hx⟩ := List.mem_flatMap.mp hb
    have hx' := x.toNat_lt
    have hvalid : (97 ≤ b ∧ b ≤ 122) ∨ (48 ≤ b ∧ b ≤ 57) := by
      rcases List.mem_cons.mp hx with rfl | hx
      · exact digitCode_valid (by omega)
      · obtain rfl := List.mem_singleton.mp hx
        exact digitCode_valid (by omega)
    exact decide_eq_true (hvalid.imp_right .inl)
  unfold isValidExternalId
  rw [hlen, hall]
  rfl

section
variable {g : Deployment} {request : NewInvoiceRequest}

/-- A client's identifier that the check refuses. -/
def Misnamed (request : NewInvoiceRequest) : Prop :=
  ∃ x, request.externalId = some x ∧ isValidExternalId x = false

theorem resolveExternalId_ok (h : ¬ Misnamed request) (hash : PaymentHash) :
    resolveExternalId request.externalId hash = .ok (request.externalId.getD hash.toHex) := by
  have hvalid : isValidExternalId (request.externalId.getD hash.toHex) = true := by
    cases hx : request.externalId with
    | none => exact isValidExternalId_toHex hash
    | some x =>
        cases hv : isValidExternalId x with
        | true => exact hv
        | false => exact absurd ⟨x, hx, hv⟩ h
  exact if_pos hvalid

theorem Misnamed.resolve (h : Misnamed request) (hash : PaymentHash) :
    ∃ e, resolveExternalId request.externalId hash = .error e := by
  obtain ⟨x, hx, hv⟩ := h
  unfold resolveExternalId
  rw [hx]
  dsimp only [Option.getD_some]
  rw [hv]
  exact ⟨_, rfl⟩

theorem admitted_passed {preimage : Preimage} {externalId : String} {value : ℤ}
    (h : Admitted g request preimage externalId value) :
    ¬ Misnamed request ∧ tryI64 request.amountMsat.msat ≠ none := by
  constructor
  · intro hm
    obtain ⟨e, he⟩ := hm.resolve (g.crates.sha256 preimage)
    exact absurd (he.symm.trans h.1) nofun
  · rw [h.2]
    exact nofun

/-- A creation that returned a refusal of the gateway's own has touched nothing, and no
creation has asked LND for an invoice without an amount. -/
def Untouched (t : Task (gateway g)) : Prop :=
  (∀ e, t.rest = some (.ret (.invoice (.error e))) → ownCheck e = true →
    ∀ c ∈ t.calls, touches c.op = false) ∧
  ∀ added ∈ asked t.calls, added.valueMsat ≠ 0

theorem tryI64_some {x : UInt64} {value : ℤ} (h : tryI64 x = some value) :
    value = x.toNat ∧ x.toNat < 2 ^ 63 := by
  unfold tryI64 at h
  split_ifs at h with hlt
  exact ⟨(Option.some.inj h).symm, hlt⟩

theorem opening_untouched (request : NewInvoiceRequest) (at_ : Timestamp) (preimage : Preimage) :
    ∀ c ∈ opening request at_ preimage, touches c.op = false := by
  simp [opening, touches]

/-- A refusal by the gateway itself comes before LND, unless it is about the amount or the
mode. -/
theorem refusal_untouched {db : Db} {calls : Calls} {r : Except AppError Invoice} {e : AppError}
    (h : Creation g request calls r) (hr : r = .error e) (hown : ownCheck e = true)
    (hdb : ∀ c ∈ calls, Witnessed db c)
    (hlive : (g.mode = .live ∧ request.amountMsat ≠ .zero) ∨ Misnamed request ∨
      tryI64 request.amountMsat.msat = none) :
    ∀ c ∈ calls, touches c.op = false := by
  have passed {preimage : Preimage} {externalId : String} {value : ℤ}
      (hadm : Admitted g request preimage externalId value) :
      g.mode = .live ∧ request.amountMsat ≠ .zero := by
    rcases hlive with hlive | hm | hn
    · exact hlive
    · exact absurd hm (admitted_passed hadm).1
    · exact absurd hn (admitted_passed hadm).2
  cases h with
  | unowned t e => simp [touches]
  | misnamed t preimage he => exact opening_untouched request t preimage
  | oversized t preimage hn => exact opening_untouched request t preimage
  | unanswered t preimage st hadm =>
      cases hr
      cases hown
  | refused t preimage text id hadm he => exact absurd (draft_error he).1 (passed hadm).2
  | dry t preimage text id hadm hmode =>
      have hmode' := (passed hadm).1
      rw [hmode] at hmode'
      cases hmode'
  | unwritten t preimage text id e' hadm hmode hn =>
      cases hr
      have hw : ownCheck e = false := hdb ⟨.tx (.createInvoice _), .error e⟩
        (List.mem_append_right _ (List.mem_singleton_self _))
      rw [hw] at hown
      cases hown
  | created t preimage text id i hadm hmode hn => cases hr

/-- Whatever LND accepts is asked for before the refusal. -/
theorem accepted_asked (at_ : Timestamp) (preimage : Preimage) (value : ℤ) (text : String)
    (id : Uuid) : ∃ c ∈ accepted g request at_ preimage value text id, touches c.op = true :=
  ⟨⟨.lnd (.addHoldInvoice (addRequest g request preimage value)), .ok text⟩,
    by simp [accepted], rfl⟩

/-- A refused creation leaves LND untouched, for every run, exactly when the gateway is
live and the amount is not zero, or the request fails a check that precedes LND. -/
theorem rejected_untouched_iff (g : Deployment) (request : NewInvoiceRequest) :
    (∀ es s, Runs {} (boot g) es s → ∀ t ∈ s.tasks, t.entry = .createInvoice request →
      Untouched t) ↔
    (g.mode = .live ∧ request.amountMsat ≠ .zero) ∨ Misnamed request ∨
      tryI64 request.amountMsat.msat = none := by
  constructor
  · intro h
    by_contra hcond
    obtain ⟨hlive, hcond⟩ := not_or.mp hcond
    obtain ⟨hnamed, hfits⟩ := not_or.mp hcond
    obtain ⟨value, hvalue⟩ := Option.ne_none_iff_exists'.mp hfits
    have hadm : Admitted g request Sample.preimage _ value :=
      ⟨resolveExternalId_ok hnamed _, hvalue⟩
    obtain ⟨e, hown, htraces⟩ : ∃ e, ownCheck e = true ∧
        Traces (createInvoice g.crates g.mode request).run
          (accepted g request Sample.noon Sample.preimage value Sample.text Sample.invoiceId)
          (.error e) := by
      by_cases hzero : request.amountMsat = .zero
      · exact ⟨_, rfl, traces_refused Sample.invoiceId hadm (draft_zero hzero)⟩
      · obtain ⟨n, hn⟩ := draft_ok hzero
        have hmode : g.mode = .dryRun := by
          cases hm : g.mode with
          | live => exact absurd ⟨hm, hzero⟩ hlive
          | dryRun => rfl
        exact ⟨_, rfl, traces_dry Sample.invoiceId hadm hn hmode⟩
    have hserved := accepted_served g request World.empty Sample.noon Sample.preimage value
      Sample.text Sample.invoiceId
    obtain ⟨es, hrun⟩ := ending_run hserved htraces
    obtain ⟨c, hc, htouch⟩ : ∃ c ∈ accepted g request Sample.noon Sample.preimage value Sample.text
        Sample.invoiceId, touches c.op = true := accepted_asked ..
    have hun := (h es _ hrun _ (List.mem_singleton_self _) rfl).1 e rfl hown c hc
    rw [htouch] at hun
    cases hun
  · intro hcond es s hrun t ht hentry
    obtain ⟨hends, hsites, hwitnessed⟩ := creation_run hrun
    constructor
    · intro e hrest hown
      exact refusal_untouched (hends t ht request _ hentry hrest) rfl hown (hwitnessed t ht) hcond
    · intro added hadded
      obtain ⟨answer, hmem⟩ := mem_asked hadded
      obtain ⟨preimage, externalId, value, hadm, rfl⟩ := hsites t ht request hentry _ hmem
      obtain ⟨hvalue, -⟩ := tryI64_some hadm.2
      rcases hcond with ⟨-, hne⟩ | hm | hn
      · intro hz
        have hzero : request.amountMsat.msat.toNat = 0 := by
          change value = 0 at hz
          omega
        refine hne (congrArg MilliSatoshi.mk (UInt64.toNat_inj.mp hzero))
      · exact absurd hm (admitted_passed hadm).1
      · exact absurd hn (admitted_passed hadm).2

end

/-- A request for no amount at all. -/
def zeroRequest : NewInvoiceRequest := { Sample.invoiceRequest with amountMsat := .zero }

/-- Its task has ended in a refusal, and has asked LND for an invoice without an amount. -/
def RefusedAsked (s : Pool (gateway Sample.deployment)) : Bool :=
  match s.tasks with
  | [⟨⟨.createInvoice r, calls⟩, some (.ret (.invoice (.error e)))⟩] =>
      decide (r = zeroRequest) && decide (e = .invoice .invalidAmount) &&
        decide ((asked calls).map WireAddHoldRequest.valueMsat = [0])
  | _ => false

/-- It is refused after LND has opened a hold invoice for any amount. -/
theorem zero_amount_touches : ∃ s t e,
    Runs {} (boot Sample.deployment) ((issueRun zeroRequest).take 6) s ∧ t ∈ s.tasks ∧
      t.entry = .createInvoice zeroRequest ∧ t.rest = some (.ret (.invoice (.error e))) ∧
      e = .invoice .invalidAmount ∧ (asked t.calls).map WireAddHoldRequest.valueMsat = [0] ∧
      ¬ Untouched t := by
  obtain ⟨s, hrun, hc⟩ := exists_run_of_play {} (boot Sample.deployment)
    ((issueRun zeroRequest).take 6) RefusedAsked (by decide +kernel)
  unfold RefusedAsked at hc
  split at hc
  case h_1 r calls e htasks =>
    simp only [Bool.and_eq_true, decide_eq_true_eq] at hc
    obtain ⟨⟨rfl, he⟩, hvalues⟩ := hc
    have hmem : _ ∈ s.tasks := htasks ▸ List.mem_singleton_self _
    refine ⟨s, _, e, hrun, hmem, rfl, rfl, he, hvalues, fun hun => ?_⟩
    obtain ⟨added, hadded, hvalue⟩ := List.mem_map.mp (hvalues ▸ List.mem_singleton_self (0 : ℤ))
    exact hun.2 added hadded hvalue
  case h_2 => cases hc

/-! ### The amount -/

/-- The payload reports an error, or its invoice was asked for at LND, is kept and is
echoed over exactly `sat` satoshis. -/
def AmountSurvives (db : Db) (calls : Calls) (sat : UInt64) (r : Except AppError Invoice) : Prop :=
  ∃ payload, lnInvoiceCreate r = some payload ∧
    (payload.errors ≠ [] ∨ ∃ invoice row, payload.invoice = some invoice ∧
      invoice.satoshis = sat ∧ db.invoices.lookup invoice.paymentHash = some row ∧
      row.cols.amountMsat = some (1000 * sat.toNat : ℤ) ∧
      (asked calls).map WireAddHoldRequest.valueMsat = [(1000 * sat.toNat : ℤ)])

theorem toMsat_toNat (sat : UInt64) :
    (SatAmount.toMsat sat).msat.toNat = sat.toNat * 1000 % 2 ^ 64 :=
  UInt64.toNat_mul ..

theorem SatAmount_parse_number (sat : UInt64) :
    SatAmount.parse (.number sat.toNat) = some sat := by
  have hread (bound n : ℕ) (h : n < bound) : scalarValue bound (.number n) = some n := by
    simp only [scalarValue, Int.natCast_nonneg, Nat.cast_lt, h, and_self, if_true,
      Int.toNat_natCast]
  unfold SatAmount.parse
  rw [hread _ _ sat.toNat_lt, Option.map_some, UInt64.ofNat_toNat]

section
variable {db : Db} {calls : Calls} {n : NewInvoice} {i : Invoice} {amount : MilliSatoshi}

/-- What the client reads of a created invoice, and what is kept of it. -/
theorem stored_payload (h : Stored db n i) (hn : n.amountMsat = some amount) {value : ℤ}
    (hvalue : tryI64 amount.msat = some value) :
    lnInvoiceCreate (.ok i) = some ⟨[], some ⟨n.paymentHash, i.boltInvoice.text, "",
        amount.msat / 1000⟩⟩ ∧
      ∃ row, db.invoices.lookup n.paymentHash = some row ∧ row.cols.amountMsat = some value := by
  obtain ⟨row, hrow, hcols, -⟩ := h.row
  rw [hn] at hcols
  change (tryI64 amount.msat).map some = _ at hcols
  rw [hvalue] at hcols
  refine ⟨?_, row, hrow, (Option.some.inj hcols).symm⟩
  simp only [lnInvoiceCreate, h.amountMsat, hn, h.paymentHash, Option.map_some]

/-- The amount of a creation that succeeded survives exactly when its product has not
wrapped. -/
theorem created_amount (h : Stored db n i) {sat : UInt64}
    (hn : n.amountMsat = some (SatAmount.toMsat sat)) {value : ℤ}
    (hvalue : tryI64 (SatAmount.toMsat sat).msat = some value)
    (hasked : (asked calls).map WireAddHoldRequest.valueMsat = [value]) :
    AmountSurvives db calls sat (.ok i) ↔ sat.toNat * 1000 < 2 ^ 64 := by
  obtain ⟨hpayload, row, hrow, hcols⟩ := stored_payload h hn hvalue
  obtain ⟨hval, -⟩ := tryI64_some hvalue
  have hmsat := toMsat_toNat sat
  constructor
  · rintro ⟨payload, hp, hgood⟩
    obtain rfl := Option.some.inj (hpayload.symm.trans hp)
    rcases hgood with herrors | ⟨invoice, row', -, -, -, -, hasked'⟩
    · exact absurd rfl herrors
    · rw [hasked] at hasked'
      have heq : value = 1000 * sat.toNat := List.singleton_inj.mp hasked'
      omega
  · intro hlt
    have hexact : value = 1000 * sat.toNat := by omega
    have hecho : (SatAmount.toMsat sat).msat / 1000 = sat := by
      have hk : (1000 : UInt64).toNat = 1000 := rfl
      apply UInt64.toNat_inj.mp
      rw [UInt64.toNat_div, hk, hmsat]
      omega
    rw [hexact] at hcols hasked
    exact ⟨_, hpayload, .inr ⟨_, row, rfl, hecho, hrow, hcols, hasked⟩⟩

end

/-- The mutation's input that asks for `sat` and leaves the rest to the defaults. -/
def plainInput (sat : UInt64) : LnInvoiceCreateInput := ⟨sat, none, none, none, Sample.payeeWallet⟩

/-- A live gateway creates an invoice over whatever the product has become, as long as it
is not zero and fits LND's field. -/
theorem plain_creation {sat : UInt64} {value : ℤ}
    (hvalue : tryI64 (SatAmount.toMsat sat).msat = some value)
    (hne : SatAmount.toMsat sat ≠ .zero) : ∃ es s t i,
      Runs {} (boot Sample.deployment) es s ∧ t ∈ s.tasks ∧
      t.entry = .createInvoice ((plainInput sat).request Sample.caller) ∧
      t.rest = some (.ret (.invoice (.ok i))) := by
  let request := (plainInput sat).request Sample.caller
  have hnamed : ¬ Misnamed request := by
    rintro ⟨x, hx, -⟩
    cases hx
  have hadm : Admitted Sample.deployment request Sample.preimage _ value :=
    ⟨resolveExternalId_ok hnamed _, hvalue⟩
  obtain ⟨n, hn⟩ : ∃ n, draft Sample.deployment request Sample.noon Sample.preimage
      (request.externalId.getD (Sample.deployment.crates.sha256 Sample.preimage).toHex) Sample.text
      Sample.invoiceId = .ok n := draft_ok hne
  have henc : Invoices.encodeAmount n.amountMsat = some (some value) := by
    rw [(draft_spec hn).2.1]
    change (tryI64 (SatAmount.toMsat sat).msat).map some = _
    rw [hvalue]
    rfl
  have haccepted := accepted_served Sample.deployment request World.empty Sample.noon
    Sample.preimage value Sample.text Sample.invoiceId
  obtain ⟨i, w, hcreated⟩ := created_served (g := Sample.deployment)
    (w := { World.empty with
      lnd := World.empty.lnd.add (Sample.deployment.crates.sha256 Sample.preimage) }) rfl henc
  obtain ⟨es, hrun⟩ := ending_run (served_append.mpr ⟨_, haccepted, hcreated⟩)
    (traces_created Sample.invoiceId i hadm hn rfl)
  exact ⟨es, _, _, i, hrun, List.mem_singleton_self _, rfl, rfl⟩

/-- The amount of the mutation's input survives in every run exactly when its product with
1000 does not wrap, or wraps to zero or to a number that LND's field refuses. -/
theorem amounts_survive_iff (sat : UInt64) :
    (∀ value, SatAmount.parse value = some sat →
      ∀ g (input : LnInvoiceCreateInput) callerAuth, input.amount = sat →
      ∀ es s, Runs {} (boot g) es s →
      ∀ t ∈ s.tasks, t.entry = .createInvoice (input.request callerAuth) →
      ∀ r, t.rest = some (.ret (.invoice r)) → AmountSurvives s.world.db t.calls sat r) ↔
    sat.toNat * 1000 < 2 ^ 64 ∨ sat.toNat * 1000 % 2 ^ 64 = 0 ∨
      2 ^ 63 ≤ sat.toNat * 1000 % 2 ^ 64 := by
  have hmsat := toMsat_toNat sat
  constructor
  · intro h
    by_contra hcond
    obtain ⟨hwraps, hcond⟩ := not_or.mp hcond
    obtain ⟨hzero, hfits⟩ := not_or.mp hcond
    have hvalue : tryI64 (SatAmount.toMsat sat).msat =
        some ((SatAmount.toMsat sat).msat.toNat : ℤ) := if_pos (by omega)
    have hne : SatAmount.toMsat sat ≠ .zero := by
      intro hz
      rw [hz] at hmsat
      exact hzero hmsat.symm
    obtain ⟨es, s, t, i, hrun, ht, hentry, hrest⟩ := plain_creation hvalue hne
    have hsurvives := h _ (SatAmount_parse_number sat) Sample.deployment (plainInput sat)
      Sample.caller rfl es s hrun t ht hentry _ hrest
    obtain ⟨preimage, value, n, hvalue', hasked, -, hamount, -, hstored⟩ :=
      created_facts hrun ht hentry hrest
    exact hwraps ((created_amount hstored hamount hvalue' (by rw [hasked]; rfl)).mp hsurvives)
  · rintro hcond value - g input callerAuth rfl es s hrun t ht hentry r hrest
    cases r with
    | error e => exact ⟨_, rfl, .inl (List.cons_ne_nil _ _)⟩
    | ok i =>
        obtain ⟨preimage, value, n, hvalue, hasked, hne, hamount, -, hstored⟩ :=
          created_facts hrun ht hentry hrest
        obtain ⟨-, hfits⟩ := tryI64_some hvalue
        refine (created_amount hstored hamount hvalue (by rw [hasked]; rfl)).mpr ?_
        have hpos : (SatAmount.toMsat input.amount).msat.toNat ≠ 0 := fun hz =>
          hne (congrArg MilliSatoshi.mk (UInt64.toNat_inj.mp hz))
        change (SatAmount.toMsat input.amount).msat.toNat < 2 ^ 63 at hfits
        omega

/-- The first amount whose product wraps: LND is asked for 384 millisatoshis. -/
theorem wrapped_amount_differs : ∃ s t i,
    Runs {} (boot Sample.deployment)
      (issueRun ((plainInput 18446744073709552).request Sample.caller)) s ∧ t ∈ s.tasks ∧
      t.entry = .createInvoice ((plainInput 18446744073709552).request Sample.caller) ∧
      t.rest = some (.ret (.invoice (.ok i))) ∧
      (asked t.calls).map WireAddHoldRequest.valueMsat = [384] ∧
      ¬ AmountSurvives s.world.db t.calls 18446744073709552 (.ok i) := by
  obtain ⟨s, hrun, hc⟩ := exists_run_of_play {} (boot Sample.deployment)
    (issueRun ((plainInput 18446744073709552).request Sample.caller))
    (fun s => (soleCreation ((plainInput 18446744073709552).request Sample.caller) s).any
      fun c => (asked c.1).map WireAddHoldRequest.valueMsat = [384]) (by decide +kernel)
  obtain ⟨⟨calls, i⟩, hsole, hvalues⟩ := Option.any_eq_true _ _ |>.mp hc
  obtain ⟨t, ht, hentry, rfl, hrest⟩ := soleCreation_spec hsole
  have hasked := of_decide_eq_true hvalues
  refine ⟨s, t, i, hrun, ht, hentry, hrest, hasked, ?_⟩
  rintro ⟨payload, hpayload, herrors | ⟨-, -, -, -, -, -, hasked'⟩⟩
  · obtain ⟨amount, -, rfl⟩ := Option.map_eq_some_iff.mp hpayload
    exact herrors rfl
  · rw [hasked] at hasked'
    cases hasked'

end LightningGateway.InvoiceTerms
