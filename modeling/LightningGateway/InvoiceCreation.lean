import LightningGateway.GatewayInvariant

/-!
# Creating an invoice

The GraphQL mutation in front of `create_invoice`, and what a finished call of the use
case has done: which calls it made, in their order, and what it returned. A request
passes some checks before LND is called and some after it; its expiry reaches LND as it
is and the database after coercion.
-/
namespace LightningGateway.InvoiceCreation
open Primitives EventTables EffectPrograms TaskPools InvoiceAggregate LndWire GatewayStore
open StoreSpecs GatewayEffects PeerCalls InvoiceFlows GatewayMachine CallSites GatewayInvariant

/-! ### The mutation -/

/-- A JSON value of a variable, as far as the scalars look at it. -/
inductive GqlValue where
  | number (n : ℤ)
  | string (s : String)
  | other
deriving DecidableEq, Repr

/-- The value of a non-empty string of decimal digits. -/
def digitsValue (cs : List Char) : Option ℕ :=
  if cs ≠ [] ∧ cs.all Char.isDigit then some (cs.foldl (fun n c => 10 * n + (c.toNat - 48)) 0)
  else none

/-- `str::parse` for an unsigned type below `bound`: one leading plus sign is skipped. -/
def parseUnsigned (bound : ℕ) (s : String) : Option ℕ :=
  let digits := match s.toList with
    | '+' :: cs => cs
    | cs => cs
  (digitsValue digits).filter (· < bound)

/-- A number or its decimal text. -/
def scalarValue (bound : ℕ) : GqlValue → Option ℕ
  | .number n => if 0 ≤ n ∧ n < bound then some n.toNat else none
  | .string s => parseUnsigned bound s
  | .other => none

def SatAmount.parse (value : GqlValue) : Option UInt64 := (scalarValue (2 ^ 64) value).map UInt64.ofNat

def Minutes.parse (value : GqlValue) : Option UInt32 := (scalarValue (2 ^ 32) value).map UInt32.ofNat

/-- The product wraps. -/
def SatAmount.toMsat (sat : UInt64) : MilliSatoshi := ⟨sat * 1000⟩

/-- `u32::saturating_mul`. -/
def saturatingMul32 (a b : UInt32) : UInt32 :=
  if a.toNat * b.toNat < 2 ^ 32 then a * b else 4294967295

structure LnInvoiceCreateInput where
  amount : UInt64
  expiresIn : Option UInt32
  externalId : Option String
  memo : Option String
  walletId : WalletId
deriving DecidableEq, Repr

/-- The request the mutation makes of its input: a day unless another time is asked for. -/
def LnInvoiceCreateInput.request (input : LnInvoiceCreateInput) (callerAuth : CallerAuth) :
    NewInvoiceRequest :=
  { callerAuth
    walletId := input.walletId
    amountMsat := SatAmount.toMsat input.amount
    expirySeconds := saturatingMul32 (input.expiresIn.getD 1440) 60
    memo := input.memo
    externalId := input.externalId }

structure LnInvoice where
  paymentHash : PaymentHash
  paymentRequest : String
  paymentSecret : String
  satoshis : UInt64
deriving DecidableEq, Repr

/-- An error stands for its message. -/
structure LnInvoicePayload where
  errors : List AppError
  invoice : Option LnInvoice
deriving DecidableEq, Repr

/-- What `lnInvoiceCreate` answers; the amount of an invoice it created is never absent. -/
def lnInvoiceCreate : Except AppError Invoice → Option LnInvoicePayload
  | .ok invoice => invoice.amountMsat.map fun amountMsat =>
      ⟨[], some ⟨invoice.paymentHash, invoice.boltInvoice.text, "", amountMsat.msat / 1000⟩⟩
  | .error e => some ⟨[e], none⟩

/-! ### What a finished call has done -/

section
variable {g : Deployment} {request : NewInvoiceRequest}

/-- The calls before LND is asked. -/
def opening (request : NewInvoiceRequest) (t : Timestamp) (preimage : Preimage) : Calls :=
  [⟨.now, t⟩, ⟨.checkOwnership request.callerAuth request.walletId, .ok ()⟩,
    ⟨.generatePreimage, preimage⟩]

/-- The request to LND. -/
def addRequest (g : Deployment) (request : NewInvoiceRequest) (preimage : Preimage) (value : ℤ) :
    WireAddHoldRequest :=
  ⟨g.crates.sha256 preimage, value, request.expirySeconds.toNat, request.memo.getD ""⟩

/-- LND has accepted the hold invoice and an identifier was drawn. -/
def accepted (g : Deployment) (request : NewInvoiceRequest) (t : Timestamp) (preimage : Preimage)
    (value : ℤ) (text : String) (id : Uuid) : Calls :=
  opening request t preimage ++
    [⟨.lnd (.addHoldInvoice (addRequest g request preimage value)), .ok text⟩, ⟨.newUuid, id⟩]

/-- The constructor's verdict on LND's answer. -/
def draft (g : Deployment) (request : NewInvoiceRequest) (t : Timestamp) (preimage : Preimage)
    (externalId text : String) (id : Uuid) : Except InvoiceError NewInvoice :=
  NewInvoice.tryNew id (g.crates.sha256 preimage) preimage request.walletId
    (some request.amountMsat) request.expirySeconds ⟨text⟩ externalId t

/-- Both parts of the request that are checked before LND have passed. -/
def Admitted (g : Deployment) (request : NewInvoiceRequest) (preimage : Preimage)
    (externalId : String) (value : ℤ) : Prop :=
  resolveExternalId request.externalId (g.crates.sha256 preimage) = .ok externalId ∧
    tryI64 request.amountMsat.msat = some value

/-- The ways in which `create_invoice` ends. -/
inductive Creation (g : Deployment) (request : NewInvoiceRequest) :
    Calls → Except AppError Invoice → Prop where
  | unowned (t : Timestamp) (e : String) :
      Creation g request
        [⟨.now, t⟩, ⟨.checkOwnership request.callerAuth request.walletId, .error e⟩]
        (.error (.walletOwnership e))
  | misnamed (t : Timestamp) (preimage : Preimage) {e : InvoiceError} :
      resolveExternalId request.externalId (g.crates.sha256 preimage) = .error e →
      Creation g request (opening request t preimage) (.error (.invoice e))
  | oversized (t : Timestamp) (preimage : Preimage) :
      tryI64 request.amountMsat.msat = none →
      Creation g request (opening request t preimage)
        (.error (.lnd (.invalidResponse "amount_msat exceeds i64::MAX")))
  | unanswered (t : Timestamp) (preimage : Preimage) (st : Status) {externalId : String}
      {value : ℤ} : Admitted g request preimage externalId value →
      Creation g request (opening request t preimage ++
        [⟨.lnd (.addHoldInvoice (addRequest g request preimage value)), .error st⟩])
        (.error (.lnd (.rpc st)))
  | refused (t : Timestamp) (preimage : Preimage) (text : String) (id : Uuid)
      {externalId : String} {value : ℤ} {e : InvoiceError} :
      Admitted g request preimage externalId value →
      draft g request t preimage externalId text id = .error e →
      Creation g request (accepted g request t preimage value text id) (.error (.invoice e))
  | dry (t : Timestamp) (preimage : Preimage) (text : String) (id : Uuid)
      {externalId : String} {value : ℤ} :
      Admitted g request preimage externalId value → g.mode = .dryRun →
      Creation g request (accepted g request t preimage value text id)
        (.error (.walletOwnership "DryRun mode not yet wired in slice 1a"))
  | unwritten (t : Timestamp) (preimage : Preimage) (text : String) (id : Uuid) (e : AppError)
      {externalId : String} {value : ℤ} {n : NewInvoice} :
      Admitted g request preimage externalId value → g.mode = .live →
      draft g request t preimage externalId text id = .ok n →
      Creation g request (accepted g request t preimage value text id ++
        [⟨.tx (.createInvoice n), .error e⟩]) (.error e)
  | created (t : Timestamp) (preimage : Preimage) (text : String) (id : Uuid) (i : Invoice)
      {externalId : String} {value : ℤ} {n : NewInvoice} :
      Admitted g request preimage externalId value → g.mode = .live →
      draft g request t preimage externalId text id = .ok n →
      Creation g request (accepted g request t preimage value text id ++
        [⟨.tx (.createInvoice n), .ok i⟩, ⟨.spawnListenerFor i.paymentHash, ()⟩]) (.ok i)

/-- LND is only asked about requests that the first checks have passed. -/
def AddSite (g : Deployment) (request : NewInvoiceRequest) : Op → Prop
  | .lnd (.addHoldInvoice added) => ∃ preimage externalId value,
      Admitted g request preimage externalId value ∧ added = addRequest g request preimage value
  | _ => True

theorem createInvoice_creates (g : Deployment) (request : NewInvoiceRequest) :
    Emits (S := gatewaySignature) (fun _ o => AddSite g request o) (Creation g request) []
      (createInvoice g.crates g.mode request).run := by
  unfold createInvoice
  refine now_bind trivial fun t => ?_
  refine checkWalletOwnership_bind trivial ?_ fun e => .unowned t e
  refine perform_bind trivial fun preimage => ?_
  refine ofExcept_bind (fun externalId hid => ?_) fun e he => .misnamed t preimage he
  unfold LndClient.addHoldInvoice
  split
  next hnone => exact .oversized t preimage hnone
  next value hvalue =>
    have hadm : Admitted g request preimage externalId value := ⟨hid, hvalue⟩
    refine ⟨⟨preimage, externalId, value, hadm, rfl⟩, fun added => ?_⟩
    cases added with
    | error st => exact .unanswered t preimage st hadm
    | ok text =>
        refine newUuid_bind trivial fun id => ?_
        refine ofExcept_bind (fun n hn => ?_) fun e he => .refused t preimage text id hadm he
        split
        next hmode => exact .dry t preimage text id hadm hmode
        next hmode =>
          refine transact_bind trivial (fun i => ?_)
            fun e => .unwritten t preimage text id e hadm hmode hn
          exact ⟨trivial, fun _ => .created t preimage text id i hadm hmode hn⟩

/-! ### Every such ending is reached -/

theorem traces_ofExcept {δ α β : Type} {convert : δ → AppError} {r : Except δ α} {a : α}
    {f : α → App β} {calls : Calls} {b : Except AppError β} (hr : r = .ok a)
    (h : Traces (f a).run calls b) :
    Traces (S := gatewaySignature) (Fallible.ofExcept convert r >>= f).run calls b := by
  subst hr
  exact h

theorem traces_ofExcept_error {δ α β : Type} {convert : δ → AppError} {r : Except δ α} {e : δ}
    {f : α → App β} (hr : r = .error e) :
    Traces (S := gatewaySignature) (Fallible.ofExcept convert r >>= f).run []
      (.error (convert e)) := by
  subst hr
  exact .ret

theorem traces_addHoldInvoice (params : AddHoldInvoiceParams) {value : ℤ} (text : String)
    (hv : LndClient.addHoldInvoice.addHoldValue params.amountMsat = some value) :
    Traces (LndClient.addHoldInvoice params).run
      [⟨.lnd (.addHoldInvoice ⟨params.paymentHash, value, params.expirySeconds.toNat,
        params.memo.getD ""⟩), .ok text⟩] (.ok ⟨text⟩) := by
  unfold LndClient.addHoldInvoice
  rw [hv]
  exact .call .ret

/-- The endings that follow an acceptance by LND, with what is left of the program. -/
theorem traces_accepted {t : Timestamp} {preimage : Preimage} {externalId text : String}
    {value : ℤ} (id : Uuid) {calls : Calls} {r : Except AppError Invoice}
    (hadm : Admitted g request preimage externalId value)
    (hrest : Traces (S := gatewaySignature)
      (Fallible.ofExcept AppError.invoice (draft g request t preimage externalId text id) >>=
        fun newInvoice =>
          match g.mode with
          | .dryRun => throw (.walletOwnership "DryRun mode not yet wired in slice 1a")
          | .live => do
              let invoice ← transact (.createInvoice newInvoice)
              Fallible.lift (perform (.spawnListenerFor invoice.paymentHash))
              pure invoice : App Invoice).run calls r) :
    Traces (createInvoice g.crates g.mode request).run
      (accepted g request t preimage value text id ++ calls) r := by
  have hadd := traces_addHoldInvoice ⟨g.crates.sha256 preimage, some request.amountMsat,
    request.memo, request.expirySeconds⟩ text hadm.2
  refine .call (.call (.call (traces_ofExcept hadm.1 ?_)))
  change Traces _ ([_] ++ (⟨.newUuid, id⟩ :: calls)) r
  refine traces_fallible_ok hadd ?_
  exact .call hrest

theorem traces_refused {t : Timestamp} {preimage : Preimage} {externalId text : String}
    {value : ℤ} (id : Uuid) {e : InvoiceError}
    (hadm : Admitted g request preimage externalId value)
    (he : draft g request t preimage externalId text id = .error e) :
    Traces (createInvoice g.crates g.mode request).run
      (accepted g request t preimage value text id) (.error (.invoice e)) := by
  have h := traces_accepted id hadm (traces_ofExcept_error he)
  rwa [List.append_nil] at h

theorem traces_dry {t : Timestamp} {preimage : Preimage} {externalId text : String}
    {value : ℤ} (id : Uuid) {n : NewInvoice} (hadm : Admitted g request preimage externalId value)
    (hn : draft g request t preimage externalId text id = .ok n) (hmode : g.mode = .dryRun) :
    Traces (createInvoice g.crates g.mode request).run
      (accepted g request t preimage value text id)
      (.error (.walletOwnership "DryRun mode not yet wired in slice 1a")) := by
  rw [← List.append_nil (accepted g request t preimage value text id)]
  refine traces_accepted id hadm (traces_ofExcept hn ?_)
  rw [hmode]
  exact .ret

theorem traces_created {t : Timestamp} {preimage : Preimage} {externalId text : String}
    {value : ℤ} (id : Uuid) {n : NewInvoice} (i : Invoice)
    (hadm : Admitted g request preimage externalId value)
    (hn : draft g request t preimage externalId text id = .ok n) (hmode : g.mode = .live) :
    Traces (createInvoice g.crates g.mode request).run
      (accepted g request t preimage value text id ++
        [⟨.tx (.createInvoice n), .ok i⟩, ⟨.spawnListenerFor i.paymentHash, ()⟩]) (.ok i) := by
  refine traces_accepted id hadm (traces_ofExcept hn ?_)
  rw [hmode]
  exact .call (.call .ret)

end

/-! ### What the database keeps -/

/-- The refusals that the gateway decides on its own. -/
def ownCheck : AppError → Bool
  | .walletOwnership _ | .invoice (.invalidExternalId _) | .invoice .invalidAmount => true
  | _ => false

/-- The row and the aggregate that an insert of `n` leaves behind. -/
structure Stored (db : Db) (n : NewInvoice) (i : Invoice) : Prop where
  row : ∃ r, db.invoices.lookup n.paymentHash = some r ∧
    Invoices.encodeAmount n.amountMsat = some r.cols.amountMsat ∧
    r.cols.expiryAt = n.expiryAt ∧ [n.createdEvent] <+: r.events
  paymentHash : i.paymentHash = n.paymentHash
  amountMsat : i.amountMsat = n.amountMsat

section
variable {g : Deployment} {db db' : Db} {n : NewInvoice} {i : Invoice} {clock : Timestamp}

theorem Stored.extends (h : Stored db n i) (he : db.invoices.Extends db'.invoices) :
    Stored db' n i := by
  obtain ⟨r, hr, hamount, hexpiry, hlog⟩ := h.row
  obtain ⟨r', hr', -, hcols, hprefix⟩ := he _ r hr
  rw [← hcols] at hamount hexpiry
  exact ⟨⟨r', hr', hamount, hexpiry, hlog.trans hprefix⟩, h.paymentHash, h.amountMsat⟩

theorem createInOp_stored (h : Invoices.createInOp n clock db = .ok (i, db')) : Stored db' n i := by
  unfold Invoices.createInOp at h
  split at h
  case h_1 => cases h
  case h_2 amount hamount =>
    split at h
    case h_2 => cases h
    case h_3 => cases h
    case h_1 invoices hinsert =>
      split_ifs at h
      split at h
      case h_2 => cases h
      case h_1 j hj =>
        cases h
        cases hj
        obtain ⟨-, -, hlookup⟩ := Table.insert_spec hinsert
        have hrow := hlookup n.paymentHash
        rw [if_pos rfl] at hrow
        exact ⟨⟨_, hrow, hamount, rfl, List.prefix_refl _⟩, rfl, rfl⟩

/-- An insert that fails does so for a reason of the database. -/
theorem createInOp_error {e : AppError} (h : Invoices.createInOp n clock db = .error e) :
    ownCheck e = false := by
  unfold Invoices.createInOp at h
  split at h
  case h_1 =>
    cases h
    rfl
  case h_2 amount hamount =>
    split at h
    case h_2 | h_3 =>
      cases h
      rfl
    case h_1 =>
      split_ifs at h
      · cases h
        rfl
      · split at h
        case h_1 => cases h
        case h_2 =>
          cases h
          rfl

/-- What the answer to an insert means for the state of the database. -/
def Witnessed (db : Db) : Call gatewaySignature → Prop
  | ⟨.tx (.createInvoice n), .ok i⟩ => Stored db n i
  | ⟨.tx (.createInvoice _), .error e⟩ => ownCheck e = false
  | _ => True

theorem Witnessed.extends {c : Call gatewaySignature} (h : Witnessed db c)
    (he : db.invoices.Extends db'.invoices) : Witnessed db' c := by
  unfold Witnessed at h ⊢
  split at h
  case h_1 => exact h.extends he
  case h_2 => exact h
  case h_3 => trivial

theorem exec_witnessed {w w' : World} {o : Op} {c : Choice} {a : o.Ans}
    (hx : exec g.crates o c w = some (a, w')) : Witnessed w'.db ⟨o, a⟩ := by
  cases o with
  | tx b =>
      cases b with
      | createInvoice n =>
          obtain ⟨t, i, db', hr, rfl, ⟨-, rfl⟩ | ⟨-, rfl⟩⟩ | ⟨-, ⟨t, e, -, he, rfl⟩ | ⟨-, rfl⟩⟩ :=
            exec_tx hx
          · exact createInOp_stored hr
          · rfl
          · exact createInOp_error he
          · rfl
      | _ => trivial
  | _ => trivial

end

/-! ### Runs -/

section
variable {g : Deployment} {D : Discipline (gateway g)} {es : List (Event (gateway g))}
variable {s : Pool (gateway g)} {request : NewInvoiceRequest}

theorem program_creates (g : Deployment) (entry : Entry) :
    Emits (S := gatewaySignature)
      (fun _ o => ∀ request, entry = .createInvoice request → AddSite g request o)
      (fun past outcome => ∀ request r, entry = .createInvoice request → outcome = .invoice r →
        Creation g request past r) [] (program g entry) := by
  cases entry with
  | createInvoice request =>
      refine emits_bind (Emits.mono ?_ (Emits.weaken ?_ (createInvoice_creates g request)))
      · rintro past r hr request' r' hentry hout
        cases hentry
        cases hout
        exact hr
      · rintro past o ho request' hentry
        cases hentry
        exact ho
  | _ =>
      refine Emits.mono ?_ (Emits.weaken ?_ (emits_any _))
      · intro _ _ _ _ _ hentry
        cases hentry
      · intro _ _ _ _ hentry
        cases hentry

/-- What every run says about its creations: how they ended, what LND was asked, and what
the database holds. -/
theorem creation_run (hrun : Runs D (boot g) es s) :
    (∀ t ∈ s.tasks, ∀ request r, t.entry = .createInvoice request →
      t.rest = some (.ret (.invoice r)) → Creation g request t.calls r) ∧
    (∀ t ∈ s.tasks, ∀ request, t.entry = .createInvoice request →
      ∀ c ∈ t.calls, AddSite g request c.op) ∧
    ∀ t ∈ s.tasks, ∀ c ∈ t.calls, Witnessed s.world.db c := by
  obtain ⟨hsound, hexplained⟩ := described_run (program_creates g) hrun
  have hwitnessed := (gateway_invariant D
    (I := fun w ps => ∀ p ∈ ps, ∀ c ∈ p.calls, Witnessed w.db c) (fun p hp => by cases hp)
    (fun w ps e _ _ hI => pasts_spawn (fun _ hc => by cases hc) hI)
    (fun w ps i entry past o c a w' hi hj _ hx hs hI => by
      have hgrow := exec_grows hs.db (hs.calls _ (List.mem_of_getElem? hi)) hj hx
      exact calls_call hi (fun _ hw => hw.extends hgrow.2) (exec_witnessed hx) hI)
    (fun w ps x w' _ hx _ hI p hp c hc => by
      obtain ⟨-, hi, -⟩ := env_frame hx
      exact (hI p hp c hc).extends (hi ▸ .refl _)) hrun).2.2
  refine ⟨?_, ?_, fun t ht c hc => hwitnessed t.toPast (List.mem_map_of_mem ht) c hc⟩
  · intro t ht request r hentry hrest
    exact hsound t ht _ hrest request r hentry rfl
  · intro t ht request hentry c hc
    obtain ⟨before, after, hcalls⟩ := List.append_of_mem hc
    exact hexplained t.toPast (List.mem_map_of_mem ht) before c after hcalls request hentry

/-- A trace that the machine serves is the whole of some run. -/
theorem ending_run {calls : Calls} {r : Except AppError Invoice} {w : World}
    (hserved : Served (gateway g) World.empty calls w)
    (htraces : Traces (createInvoice g.crates g.mode request).run calls r) :
    ∃ es, Runs {} (boot g) es
      ⟨w, [⟨⟨.createInvoice request, calls⟩, some (.ret (.invoice r))⟩]⟩ := by
  have hprogram : Traces ((gateway g).program (.createInvoice request)) calls (.invoice r) :=
    traces_bind.mpr ⟨calls, r, [], htraces, .ret, (List.append_nil _).symm⟩
  exact hserved.exists_run hprogram

/-- LND can accept what it is asked. -/
theorem accepted_served (g : Deployment) (request : NewInvoiceRequest) (w : World) (t : Timestamp)
    (preimage : Preimage) (value : ℤ) (text : String) (id : Uuid) :
    Served (gateway g) w (accepted g request t preimage value text id)
      { w with lnd := w.lnd.add (g.crates.sha256 preimage) } := by
  refine .cons (c := Choice.clock t) rfl ?_
  refine .cons (c := Choice.ownership (.ok ())) rfl ?_
  refine .cons (c := Choice.preimage preimage) rfl ?_
  refine .cons (c := Choice.lndAdded true (.ok text)) rfl ?_
  exact .cons (c := Choice.uuid id) rfl .nil

/-- Into an empty database every draft can be inserted. -/
theorem created_served {w : World} {n : NewInvoice} {value : Option ℤ}
    (hw : w.db = Db.empty) (hv : Invoices.encodeAmount n.amountMsat = some value) :
    ∃ i w', Served (gateway g) w
      [⟨.tx (.createInvoice n), .ok i⟩, ⟨.spawnListenerFor i.paymentHash, ()⟩] w' := by
  obtain ⟨i, db', hrun⟩ : ∃ i db',
      (Transaction.createInvoice n).run n.createdAt w.db = .ok (i, db') := by
    rw [hw]
    change ∃ i db', Invoices.createInOp n n.createdAt Db.empty = .ok (i, db')
    unfold Invoices.createInOp
    rw [hv]
    exact ⟨_, _, rfl⟩
  have hexec : (gateway g).exec (.tx (.createInvoice n)) (Choice.served n.createdAt) w = some (.ok i,
      ({ w with db := db', commits := w.commits ++ [.createInvoice n] } : World)) := by
    simp only [gateway, exec, World.commit, hrun]
    rfl
  exact ⟨i, _, .cons hexec (.cons (c := Choice.done) rfl .nil)⟩

end

end LightningGateway.InvoiceCreation
