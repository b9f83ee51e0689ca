import LightningGateway.ExpiringCache
import LightningGateway.GuardedRuns
import LightningGateway.Primitives

/-!
# Who may spend from a wallet

`ApolloRouterOwnershipChecker::check` asks the router, as the caller, for the caller's
wallets, and keeps the answer for a while under the caller's `sub`. Calls overlap: each
looks at the cache, may wait for the router, and may store its answer, and between these
steps other calls take theirs. Every step happens at an instant of a clock that does not
go back.
-/
namespace LightningGateway.OwnershipChecker
open ExpiringCache GuardedRuns Primitives

/-! ### One round trip -/

inductive WalletOwnershipError where
  | notOwned (walletId : WalletId)
  | unauthenticated
  | unreachable (detail : String)
  | queryError (detail : String)
deriving DecidableEq, Repr

structure WalletRef where
  id : String
deriving DecidableEq, Repr

structure DefaultAccount where
  wallets : List WalletRef
deriving DecidableEq, Repr

structure Me where
  defaultAccount : Option DefaultAccount
deriving DecidableEq, Repr

structure MeData where
  me : Option Me
deriving DecidableEq, Repr

structure GraphQlError where
  message : String
deriving DecidableEq, Repr

structure Envelope where
  data : Option MeData
  errors : Option (List GraphQlError)
deriving DecidableEq, Repr

/-- What comes of a request: it fails on the way, or there is a response, whose body may
not decode. -/
inductive RouterReply where
  | failed (detail : String)
  | http (status : ℕ) (body : Except String Envelope)
deriving DecidableEq, Repr

inductive Mode where
  | real
  | bootStub
deriving DecidableEq, Repr

/-- The checker, with what it takes from the HTTP crates: the texts allowed in a header
and the way a status prints. -/
structure Checker where
  mode : Mode
  /-- Nanoseconds. -/
  ttl : ℕ
  headerValue : String → Bool
  statusText : ℕ → String

variable {k : Checker} {caller : CallerAuth} {reply : RouterReply} {owned : List String}

def isSuccess (status : ℕ) : Bool := 200 ≤ status ∧ status < 300

/-- The wallets of `me.defaultAccount`. -/
def Envelope.wallets (envelope : Envelope) : Option (List WalletRef) :=
  ((envelope.data.bind MeData.me).bind Me.defaultAccount).map DefaultAccount.wallets

def readEnvelope (envelope : Envelope) : Except WalletOwnershipError (List String) :=
  match envelope.errors with
  | some (first :: _) => .error (.queryError first.message)
  | some [] | none =>
      match envelope.wallets with
      | some wallets => .ok (wallets.map WalletRef.id)
      | none => .error (.queryError "me.defaultAccount missing")

def fetchOwnedWallets (k : Checker) (caller : CallerAuth) (reply : RouterReply) :
    Except WalletOwnershipError (List String) :=
  match k.mode with
  | .bootStub => .error (.unreachable "wallet-ownership checker not configured (boot stub)")
  | .real =>
      if k.headerValue ("Bearer " ++ caller.jwt) then
        match reply with
        | .failed detail => .error (.unreachable detail)
        | .http status body =>
            if isSuccess status then
              match body with
              | .error detail => .error (.queryError ("decode: " ++ detail))
              | .ok envelope => readEnvelope envelope
            else .error (.queryError ("router returned HTTP " ++ k.statusText status))
      else .error (.queryError "invalid bearer token")

/-- The only replies that are not an error: a response of success whose body decodes, names
no error and has an account. -/
def Lists (k : Checker) (caller : CallerAuth) (reply : RouterReply) (owned : List String) :
    Prop :=
  k.mode = .real ∧ k.headerValue ("Bearer " ++ caller.jwt) = true ∧
    ∃ status envelope wallets, reply = .http status (.ok envelope) ∧ isSuccess status = true ∧
      (envelope.errors = none ∨ envelope.errors = some []) ∧
      envelope.wallets = some wallets ∧ wallets.map WalletRef.id = owned

theorem readEnvelope_ok {envelope : Envelope} : readEnvelope envelope = .ok owned ↔
    (envelope.errors = none ∨ envelope.errors = some []) ∧
      ∃ wallets, envelope.wallets = some wallets ∧ wallets.map WalletRef.id = owned := by
  unfold readEnvelope
  have hread : (match envelope.wallets with
      | some wallets => Except.ok (wallets.map WalletRef.id)
      | none => .error (WalletOwnershipError.queryError "me.defaultAccount missing")) =
        .ok owned ↔
      ∃ wallets, envelope.wallets = some wallets ∧ wallets.map WalletRef.id = owned := by
    cases envelope.wallets <;> simp
  rcases envelope.errors with _ | _ | ⟨first, rest⟩ <;> simp [hread]

theorem fetchOwnedWallets_ok :
    fetchOwnedWallets k caller reply = .ok owned ↔ Lists k caller reply owned := by
  unfold fetchOwnedWallets Lists
  cases k.mode with
  | bootStub => simp
  | real =>
      cases k.headerValue ("Bearer " ++ caller.jwt) with
      | false => simp
      | true =>
          rcases reply with detail | ⟨status, detail | envelope⟩
          · simp
          · by_cases hs : isSuccess status = true <;> simp [hs]
          · cases hs : isSuccess status with
            | false => simp [hs]
            | true => simp [hs, readEnvelope_ok]

/-! ### Calls -/

/-- Where a call of `check` stands. -/
inductive Stage where
  /-- Authenticated, about to look at the cache. -/
  | entered
  | fetching
  | storing (owned : List String)
  | done (result : Except WalletOwnershipError Unit)
deriving DecidableEq, Repr

/-- A call of `check`. No step reads the last three fields: when it looked at the cache,
what the router answered, and when it stored the answer. -/
structure Check where
  caller : CallerAuth
  walletId : WalletId
  stage : Stage
  lookedAt : Option ℕ
  reply : Option RouterReply
  storedAt : Option ℕ
deriving DecidableEq, Repr

def isAuthenticated (caller : CallerAuth) : Bool := !caller.jwt.isEmpty && !caller.sub.isEmpty

def verdict (owned : List String) (walletId : WalletId) : Except WalletOwnershipError Unit :=
  if owned.contains walletId.toText then .ok () else .error (.notOwned walletId)

namespace Check

def enter (caller : CallerAuth) (walletId : WalletId) : Check :=
  ⟨caller, walletId,
    if isAuthenticated caller then .entered else .done (.error .unauthenticated),
    none, none, none⟩

def look (c : Check) (now : ℕ) : Option (List String) → Check
  | some owned => { c with stage := .done (verdict owned c.walletId), lookedAt := some now }
  | none => { c with stage := .fetching, lookedAt := some now }

def hear (c : Check) (reply : RouterReply) : Except WalletOwnershipError (List String) → Check
  | .error e => { c with stage := .done (.error e), reply := some reply }
  | .ok owned => { c with stage := .storing owned, reply := some reply }

def store (c : Check) (owned : List String) (now : ℕ) : Check :=
  { c with stage := .done (verdict owned c.walletId), storedAt := some now }

section
variable (c : Check) (now : ℕ) (found : Option (List String)) (reply : RouterReply)
variable (r : Except WalletOwnershipError (List String))

@[simp] theorem look_caller : (c.look now found).caller = c.caller := by cases found <;> rfl

@[simp] theorem look_walletId : (c.look now found).walletId = c.walletId := by
  cases found <;> rfl

@[simp] theorem look_reply : (c.look now found).reply = c.reply := by cases found <;> rfl

@[simp] theorem look_storedAt : (c.look now found).storedAt = c.storedAt := by
  cases found <;> rfl

@[simp] theorem look_lookedAt : (c.look now found).lookedAt = some now := by
  cases found <;> rfl

@[simp] theorem hear_caller : (c.hear reply r).caller = c.caller := by cases r <;> rfl

@[simp] theorem hear_walletId : (c.hear reply r).walletId = c.walletId := by cases r <;> rfl

@[simp] theorem hear_reply : (c.hear reply r).reply = some reply := by cases r <;> rfl

@[simp] theorem hear_storedAt : (c.hear reply r).storedAt = c.storedAt := by cases r <;> rfl

end

end Check

inductive Action where
  | enter (caller : CallerAuth) (walletId : WalletId)
  | look
  | hear (reply : RouterReply)
  /-- `seen` is what the clock showed as the sweep came to each entry. -/
  | store (seen : String → ℕ)

/-- A step of the call `id`. -/
structure Event where
  now : ℕ
  id : ℕ
  action : Action

abbrev Wallets := Cache String (List String) ℕ

structure State where
  now : ℕ
  cache : Wallets
  checks : ℕ → Option Check

def start : State := ⟨0, ∅, fun _ => none⟩

/-- `CACHE_PRUNE_THRESHOLD`, on the number of entries. -/
def pastThreshold (len : ℕ) : Bool := 10000 ≤ len

namespace Checker

/-- `elapsed() < ttl` -/
def fresh (k : Checker) (stamp now : ℕ) : Bool := now - stamp < k.ttl

def cached (k : Checker) (cache : Wallets) (sub : String) (now : ℕ) : Option (List String) :=
  find k.fresh cache sub now

def store (k : Checker) (prunes : ℕ → Bool) (cache : Wallets) (sub : String)
    (owned : List String) (seen : String → ℕ) (now : ℕ) : Wallets :=
  (if prunes cache.entries.length then retain k.fresh cache seen else cache).insert sub (owned, now)

end Checker

/-- What the step makes of the call and of the cache. -/
def move (k : Checker) (prunes : ℕ → Bool) (s : State) (e : Event) : Option (Check × Wallets) :=
  match e.action, s.checks e.id with
  | .enter caller walletId, none => some (Check.enter caller walletId, s.cache)
  | .look, some c =>
      if c.stage = .entered then
        some (c.look e.now (k.cached s.cache c.caller.sub e.now), s.cache)
      else none
  | .hear reply, some c =>
      if c.stage = .fetching then
        some (c.hear reply (fetchOwnedWallets k c.caller reply), s.cache)
      else none
  | .store seen, some c =>
      match c.stage with
      | .storing owned =>
          some (c.store owned e.now, k.store prunes s.cache c.caller.sub owned seen e.now)
      | _ => none
  | _, _ => none

def step (prunes : ℕ → Bool) (k : Checker) (s : State) (e : Event) : Option State :=
  (move k prunes s e).map fun m => ⟨e.now, m.2, Function.update s.checks e.id (some m.1)⟩

/-- The clock does not go back, neither between the steps nor within one. -/
def Ticks (s : State) (e : Event) : Prop :=
  s.now ≤ e.now ∧
    ∀ seen, e.action = .store seen → ∀ sub, s.now ≤ seen sub ∧ seen sub ≤ e.now

abbrev Runs (prunes : ℕ → Bool) (k : Checker) (es : List Event) (s : State) : Prop :=
  Run (step prunes k) Ticks start es s

/-! ### What a step is -/

variable {prunes prunes' : ℕ → Bool} {s s' t : State} {e : Event} {es : List Event} {c : Check}
variable {cache : Wallets} {id : ℕ} {sub : String} {keys : String → Bool}

inductive Moves (k : Checker) (prunes : ℕ → Bool) (s : State) (e : Event) :
    Check → Wallets → Prop where
  | enter {caller : CallerAuth} {walletId : WalletId} : e.action = .enter caller walletId →
      s.checks e.id = none → Moves k prunes s e (Check.enter caller walletId) s.cache
  | look {c : Check} : e.action = .look → s.checks e.id = some c → c.stage = .entered →
      Moves k prunes s e (c.look e.now (k.cached s.cache c.caller.sub e.now)) s.cache
  | hear {c : Check} {reply : RouterReply} : e.action = .hear reply → s.checks e.id = some c →
      c.stage = .fetching →
      Moves k prunes s e (c.hear reply (fetchOwnedWallets k c.caller reply)) s.cache
  | store {c : Check} {owned : List String} {seen : String → ℕ} : e.action = .store seen →
      s.checks e.id = some c → c.stage = .storing owned →
      Moves k prunes s e (c.store owned e.now)
        (k.store prunes s.cache c.caller.sub owned seen e.now)

theorem move_iff : move k prunes s e = some (c, cache) ↔ Moves k prunes s e c cache := by
  constructor
  · intro h
    unfold move at h
    split at h
    case h_1 ha hc =>
      cases h
      exact .enter ha hc
    case h_2 ha hc =>
      split_ifs at h with hstage
      cases h
      exact .look ha hc hstage
    case h_3 ha hc =>
      split_ifs at h with hstage
      cases h
      exact .hear ha hc hstage
    case h_4 ha hc =>
      split at h
      case h_1 hstage =>
        cases h
        exact .store ha hc hstage
      case h_2 => cases h
    case h_5 => cases h
  · intro h
    unfold move
    cases h with
    | enter ha hc => rw [ha, hc]
    | look ha hc hstage =>
        rw [ha, hc]
        exact if_pos hstage
    | hear ha hc hstage =>
        rw [ha, hc]
        exact if_pos hstage
    | store ha hc hstage =>
        rw [ha, hc]
        dsimp only
        rw [hstage]

theorem step_moves (h : step prunes k s e = some t) : ∃ c cache, Moves k prunes s e c cache ∧
    t = ⟨e.now, cache, Function.update s.checks e.id (some c)⟩ := by
  obtain ⟨⟨c, cache⟩, hmove, rfl⟩ := Option.map_eq_some_iff.mp h
  exact ⟨c, cache, move_iff.mp hmove, rfl⟩

theorem step_of_moves (h : Moves k prunes s e c cache) :
    step prunes k s e = some ⟨e.now, cache, Function.update s.checks e.id (some c)⟩ := by
  rw [step, move_iff.mpr h]
  rfl

/-- A call keeps its caller and its wallet, and once done it stays as it is. -/
structure Later (c c' : Check) : Prop where
  caller : c'.caller = c.caller
  walletId : c'.walletId = c.walletId
  final : ∀ result, c.stage = .done result → c' = c

theorem Later.refl (c : Check) : Later c c := ⟨rfl, rfl, fun _ _ => rfl⟩

theorem Later.trans {c c' c'' : Check} (h : Later c c') (h' : Later c' c'') : Later c c'' := by
  refine ⟨h'.caller.trans h.caller, h'.walletId.trans h.walletId, fun result hdone => ?_⟩
  have hc := h.final result hdone
  exact (h'.final result (hc ▸ hdone)).trans hc

theorem Moves.later {c' : Check} (h : Moves k prunes s e c' cache) (hc : s.checks e.id = some c) :
    Later c c' := by
  cases h with
  | enter _ hnone => rw [hnone] at hc; cases hc
  | look _ hsome hstage =>
      rw [hsome] at hc
      cases hc
      exact ⟨Check.look_caller .., Check.look_walletId ..,
        fun _ hdone => absurd (hstage.symm.trans hdone) (by simp)⟩
  | hear _ hsome hstage =>
      rw [hsome] at hc
      cases hc
      exact ⟨Check.hear_caller .., Check.hear_walletId ..,
        fun _ hdone => absurd (hstage.symm.trans hdone) (by simp)⟩
  | store _ hsome hstage =>
      rw [hsome] at hc
      cases hc
      exact ⟨rfl, rfl, fun _ hdone => absurd (hstage.symm.trans hdone) (by simp)⟩

theorem later_step (h : step prunes k s e = some t) (hc : s.checks id = some c) :
    ∃ c', t.checks id = some c' ∧ Later c c' := by
  obtain ⟨c', cache, hmoves, rfl⟩ := step_moves h
  by_cases hid : id = e.id
  · subst hid
    exact ⟨c', Function.update_self .., hmoves.later hc⟩
  · exact ⟨c, (Function.update_of_ne hid ..).trans hc, .refl c⟩

theorem later_run (h : Run (step prunes k) Ticks s es t) (hc : s.checks id = some c) :
    ∃ c', t.checks id = some c' ∧ Later c c' :=
  h.invariant (J := fun u => ∃ c', u.checks id = some c' ∧ Later c c')
    (fun _ _ _ _ hstep ⟨_, hsome, hlater⟩ =>
      let ⟨c'', hsome', hlater'⟩ := later_step hstep hsome
      ⟨c'', hsome', hlater.trans hlater'⟩)
    ⟨c, hc, .refl c⟩

/-! ### Two checkers side by side -/

/-- The second checker has seen only the calls of the callers in `keys`, and no look-up of
theirs can tell it from the first. -/
structure Alike (k : Checker) (keys : String → Bool) (s s' : State) : Prop where
  now : s'.now ≤ s.now
  cache : Agree k.fresh keys s.now s.cache s'.cache
  checks : ∀ id, s'.checks id = (s.checks id).filter fun c => keys c.caller.sub

theorem fresh_wanes : Wanes k.fresh := by
  intro stamp now later hle h
  simp only [Checker.fresh, decide_eq_true_eq] at h ⊢
  omega

theorem agree_sweep {c c' : Wallets} {now : ℕ} {seen : String → ℕ}
    (h : Agree k.fresh keys now c c') (hseen : ∀ sub, seen sub ≤ now) :
    Agree k.fresh keys now (if prunes c.entries.length then retain k.fresh c seen else c)
      (if prunes' c'.entries.length then retain k.fresh c' seen else c') := by
  split_ifs
  · exact (h.retain_left fresh_wanes hseen).retain_right fresh_wanes hseen
  · exact h.retain_left fresh_wanes hseen
  · exact h.retain_right fresh_wanes hseen
  · exact h

theorem hidden (h : keys c.caller.sub = false) :
    (some c).filter (fun c => keys c.caller.sub) = none :=
  if_neg (by simpa using h)

theorem Alike.checks_update (h : Alike k keys s s') (hc : keys c.caller.sub = true) :
    Function.update s'.checks id (some c) =
      fun j => (Function.update s.checks id (some c) j).filter fun c => keys c.caller.sub := by
  funext j
  by_cases hj : j = id
  · subst hj
    rw [Function.update_self, Function.update_self]
    exact (if_pos hc).symm
  · rw [Function.update_of_ne hj, Function.update_of_ne hj]
    exact h.checks j

theorem Alike.shared (h : Alike k keys s s') (hc : s.checks id = some c)
    (hkeys : keys c.caller.sub = true) : s'.checks id = some c := by
  rw [h.checks, hc]
  exact if_pos hkeys

theorem Alike.ticks (h : Alike k keys s s') (htick : Ticks s e) : Ticks s' e :=
  ⟨h.now.trans htick.1, fun seen ha sub =>
    ⟨h.now.trans (htick.2 seen ha sub).1, (htick.2 seen ha sub).2⟩⟩

/-- A call of the chosen callers takes the same step in both. -/
theorem Alike.both (h : Alike k keys s s') (htick : Ticks s e)
    (hmoves : Moves k prunes s e c cache) (hkeys : keys c.caller.sub = true) :
    ∃ cache', Moves k prunes' s' e c cache' ∧ Agree k.fresh keys e.now cache cache' := by
  have hagree := h.cache.mono htick.1
  cases hmoves with
  | enter ha hnone =>
      exact ⟨_, .enter ha (by rw [h.checks, hnone]; rfl), hagree⟩
  | @look c ha hsome hstage =>
      rw [Check.look_caller] at hkeys
      have hfound : k.cached s.cache c.caller.sub e.now = k.cached s'.cache c.caller.sub e.now :=
        h.cache _ _ hkeys htick.1
      rw [hfound]
      exact ⟨_, .look ha (h.shared hsome hkeys) hstage, hagree⟩
  | hear ha hsome hstage =>
      rw [Check.hear_caller] at hkeys
      exact ⟨_, .hear ha (h.shared hsome hkeys) hstage, hagree⟩
  | store ha hsome hstage =>
      refine ⟨_, .store ha (h.shared hsome hkeys) hstage, ?_⟩
      exact (agree_sweep hagree fun sub => (htick.2 _ ha sub).2).insert_both

/-- A call of any other caller is not seen by the chosen ones. -/
theorem Alike.first (h : Alike k keys s s') (htick : Ticks s e)
    (hmoves : Moves k prunes s e c cache) (hkeys : keys c.caller.sub = false) :
    Agree k.fresh keys e.now cache s'.cache := by
  have hagree := h.cache.mono htick.1
  cases hmoves with
  | enter _ _ => exact hagree
  | look _ _ _ => exact hagree
  | hear _ _ _ => exact hagree
  | store ha hsome hstage =>
      refine Agree.insert_left ?_ hkeys
      split_ifs
      · exact hagree.retain_left fresh_wanes fun sub => (htick.2 _ ha sub).2
      · exact hagree

/-- Whether a step of the run to `t` belongs to a call of the chosen callers. -/
def concerns (keys : String → Bool) (t : State) (e : Event) : Bool :=
  (t.checks e.id).any fun c => keys c.caller.sub

theorem alike_step (h : Alike k keys s s') (htick : Ticks s e)
    (hstep : step prunes k s e = some t) (hmine : concerns keys t e = true) :
    ∃ t', step prunes' k s' e = some t' ∧ Alike k keys t t' := by
  obtain ⟨c, cache, hmoves, rfl⟩ := step_moves hstep
  have hkeys : keys c.caller.sub = true := by
    simpa [concerns, Function.update_self] using hmine
  obtain ⟨cache', hmoves', hagree⟩ : ∃ cache', Moves k prunes' s' e c cache' ∧
      Agree k.fresh keys e.now cache cache' := h.both htick hmoves hkeys
  exact ⟨_, step_of_moves hmoves', le_refl _, hagree, fun id =>
    congrFun (h.checks_update hkeys) id⟩

theorem alike_stutter (h : Alike k keys s s') (htick : Ticks s e)
    (hstep : step prunes k s e = some t) (hother : concerns keys t e = false) :
    Alike k keys t s' := by
  obtain ⟨c, cache, hmoves, rfl⟩ := step_moves hstep
  have hkeys : keys c.caller.sub = false := by
    simpa [concerns, Function.update_self] using hother
  refine ⟨h.now.trans htick.1, h.first htick hmoves hkeys, fun id => ?_⟩
  rw [h.checks id]
  by_cases hid : id = e.id
  · subst hid
    dsimp only
    rw [Function.update_self]
    rw [hidden hkeys]
    cases hold : s.checks e.id with
    | none => rfl
    | some old => exact hidden ((hmoves.later hold).caller ▸ hkeys)
  · dsimp only
    rw [Function.update_of_ne hid]

/-- The calls of the chosen callers go through the same stages in the second checker, on
their own steps alone and whatever its policy of sweeping. -/
theorem alike_run (h : Run (step prunes k) Ticks s es t) (hs : Alike k keys s s') :
    ∃ t', Run (step prunes' k) Ticks s' (es.filter (concerns keys t)) t' ∧ Alike k keys t t' := by
  induction es generalizing s s' with
  | nil => exact ⟨s', run_nil.mpr rfl, run_nil.mp h ▸ hs⟩
  | cons e es ih =>
      obtain ⟨htick, u, hstep, hrest⟩ := run_cons.mp h
      have hlast : concerns keys t e = concerns keys u e := by
        obtain ⟨c, cache, -, rfl⟩ := step_moves hstep
        obtain ⟨c', hc', hlater⟩ := later_run hrest (Function.update_self ..)
        simp [concerns, hc', hlater.caller, Function.update_self]
      cases hmine : concerns keys t e with
      | true =>
          rw [List.filter_cons_of_pos hmine]
          obtain ⟨u', hstep', hu⟩ : ∃ u', step prunes' k s' e = some u' ∧ Alike k keys u u' :=
            alike_step hs htick hstep (hlast ▸ hmine)
          obtain ⟨t', hrun, ht⟩ := ih hrest hu
          exact ⟨t', run_cons.mpr ⟨hs.ticks htick, u', hstep', hrun⟩, ht⟩
      | false =>
          rw [List.filter_cons_of_neg (by rw [hmine]; decide)]
          exact ih hrest (alike_stutter hs htick hstep (hlast ▸ hmine))

theorem alike_start : Alike k keys start start :=
  ⟨le_refl _, fun _ _ _ _ => rfl, fun _ => rfl⟩

/-- Every step of a run belongs to a call that the last state knows. -/
theorem known_of_mem (h : Run (step prunes k) Ticks s es t) (he : e ∈ es) :
    ∃ c, t.checks e.id = some c := by
  induction es generalizing s with
  | nil => cases he
  | cons e' es ih =>
      obtain ⟨-, u, hstep, hrest⟩ := run_cons.mp h
      rcases List.mem_cons.mp he with rfl | he
      · obtain ⟨c, cache, -, rfl⟩ := step_moves hstep
        obtain ⟨c', hc', -⟩ := later_run hrest (Function.update_self ..)
        exact ⟨c', hc'⟩
      · exact ih hrest he

/-! ### Where an answer comes from -/

/-- The call `c'` got `owned` from the router and stored it at `stamp`. -/
structure Stored (k : Checker) (s : State) (sub : String) (owned : List String) (stamp : ℕ) :
    Prop where
  past : stamp ≤ s.now
  source : ∃ j c' reply, s.checks j = some c' ∧ c'.caller.sub = sub ∧ c'.reply = some reply ∧
    Lists k c'.caller reply owned ∧ c'.storedAt = some stamp

/-- The call was authenticated, and its wallet is in an answer of the router: its own, or one
to the same `sub` that was stored less than a lifetime before the call looked. -/
structure Granted (k : Checker) (s : State) (c : Check) : Prop where
  jwt : c.caller.jwt ≠ ""
  sub : c.caller.sub ≠ ""
  listed : (∃ reply owned, c.reply = some reply ∧ Lists k c.caller reply owned ∧
      c.walletId.toText ∈ owned) ∨
    ∃ looked stamp owned, c.lookedAt = some looked ∧ Stored k s c.caller.sub owned stamp ∧
      stamp ≤ looked ∧ looked - stamp < k.ttl ∧ c.walletId.toText ∈ owned

theorem isAuthenticated_iff : isAuthenticated caller = true ↔
    caller.jwt ≠ "" ∧ caller.sub ≠ "" := by
  simp [isAuthenticated]

theorem verdict_ok {w : WalletId} : verdict owned w = .ok () ↔ w.toText ∈ owned := by
  unfold verdict
  split_ifs with h
  · exact ⟨fun _ => List.contains_iff_mem.mp h, fun _ => rfl⟩
  · exact ⟨nofun, fun hmem => absurd (List.contains_iff_mem.mpr hmem) h⟩

/-- What is known of one call. -/
structure Honest (k : Checker) (s : State) (c : Check) : Prop where
  authenticated : (∀ e, c.stage ≠ .done (.error e)) → isAuthenticated c.caller = true
  granted : c.stage = .done (.ok ()) → Granted k s c
  heard : ∀ owned, c.stage = .storing owned →
    ∃ reply, c.reply = some reply ∧ fetchOwnedWallets k c.caller reply = .ok owned
  refused : ∀ reply e, c.reply = some reply → fetchOwnedWallets k c.caller reply = .error e →
    c.stage = .done (.error e) ∧ c.storedAt = none
  unstored : (∀ r, c.stage ≠ .done r) → c.storedAt = none

structure Faithful (k : Checker) (s : State) : Prop where
  entries : ∀ sub owned stamp, s.cache.lookup sub = some (owned, stamp) →
    Stored k s sub owned stamp
  checks : ∀ id c, s.checks id = some c → Honest k s c

theorem Honest.done_of_stored {stamp : ℕ} (h : Honest k s c) (hstored : c.storedAt = some stamp) :
    ∃ r, c.stage = .done r := by
  by_contra hnone
  rw [h.unstored (not_exists.mp hnone)] at hstored
  cases hstored

theorem Stored.step {stamp : ℕ} (h : Stored k s sub owned stamp) (hf : Faithful k s)
    (htick : Ticks s e) (hstep : step prunes k s e = some t) : Stored k t sub owned stamp := by
  obtain ⟨j, c', reply, hc', hsub, hreply, hlists, hstored⟩ := h.source
  obtain ⟨c'', hc'', hlater⟩ := later_step hstep hc'
  obtain ⟨r, hdone⟩ := (hf.checks j c' hc').done_of_stored hstored
  obtain rfl := hlater.final r hdone
  have hnow : t.now = e.now := by
    obtain ⟨_, _, -, rfl⟩ := step_moves hstep
    rfl
  exact ⟨h.past.trans (hnow ▸ htick.1), j, c'', reply, hc'', hsub, hreply, hlists, hstored⟩

theorem Granted.mono (h : Granted k s c)
    (hstored : ∀ sub owned stamp, Stored k s sub owned stamp → Stored k t sub owned stamp) :
    Granted k t c := by
  obtain ⟨hjwt, hsub, hown | ⟨looked, stamp, owned, hlook, hst, hle, hfresh, hmem⟩⟩ := h
  · exact ⟨hjwt, hsub, .inl hown⟩
  · exact ⟨hjwt, hsub, .inr ⟨looked, stamp, owned, hlook, hstored _ _ _ hst, hle, hfresh, hmem⟩⟩

theorem Honest.mono (h : Honest k s c)
    (hstored : ∀ sub owned stamp, Stored k s sub owned stamp → Stored k t sub owned stamp) :
    Honest k t c :=
  { h with granted := fun hdone => (h.granted hdone).mono hstored }

theorem honest_enter (w : WalletId) : Honest k s (Check.enter caller w) := by
  unfold Check.enter
  by_cases hauth : isAuthenticated caller = true
  · rw [if_pos hauth]
    exact ⟨fun _ => hauth, nofun, nofun, nofun, fun _ => rfl⟩
  · rw [if_neg hauth]
    exact ⟨fun h => absurd rfl (h _), nofun, nofun, nofun, fun _ => rfl⟩

/-- A call that waits has heard no error. -/
theorem Honest.no_error {reply : RouterReply} {err : WalletOwnershipError} (h : Honest k s c)
    (hstage : ∀ r, c.stage ≠ .done r) (hreply : c.reply = some reply) :
    fetchOwnedWallets k c.caller reply ≠ .error err :=
  fun herr => hstage _ (h.refused reply err hreply herr).1

theorem Honest.look (h : Honest k s c) (hf : Faithful k s) (htick : s.now ≤ e.now)
    (hstage : c.stage = .entered) :
    Honest k s (c.look e.now (k.cached s.cache c.caller.sub e.now)) := by
  have hwaits : ∀ r, c.stage ≠ .done r := by rw [hstage]; exact fun _ => nofun
  have hauth : isAuthenticated c.caller = true :=
    h.authenticated fun _ => hwaits _
  cases hfound : k.cached s.cache c.caller.sub e.now with
  | none =>
      exact ⟨fun _ => hauth, nofun, nofun,
        fun reply err hreply herr => absurd herr (h.no_error hwaits hreply),
        fun _ => h.unstored hwaits⟩
  | some owned =>
      refine ⟨fun _ => hauth, fun hok => ?_, nofun,
        fun reply err hreply herr => absurd herr (h.no_error hwaits hreply),
        fun _ => h.unstored hwaits⟩
      obtain ⟨stamp, hlook, hfresh⟩ := find_eq_some.mp hfound
      have hstored := hf.entries _ _ _ hlook
      obtain ⟨hjwt, hsub⟩ := isAuthenticated_iff.mp hauth
      exact ⟨hjwt, hsub, .inr ⟨e.now, stamp, owned, rfl, hstored, hstored.past.trans htick,
        of_decide_eq_true hfresh, verdict_ok.mp (Stage.done.inj hok)⟩⟩

theorem Honest.hear (h : Honest k s c) (hstage : c.stage = .fetching) :
    Honest k s (c.hear reply (fetchOwnedWallets k c.caller reply)) := by
  have hwaits : ∀ r, c.stage ≠ .done r := by rw [hstage]; exact fun _ => nofun
  have hauth : isAuthenticated c.caller = true :=
    h.authenticated fun _ => hwaits _
  cases hfetch : fetchOwnedWallets k c.caller reply with
  | error err =>
      refine ⟨fun hnot => absurd rfl (hnot err), nofun, nofun, fun reply' err' hreply herr => ?_,
        fun _ => h.unstored hwaits⟩
      cases hreply
      obtain rfl := Except.error.inj (hfetch.symm.trans herr)
      exact ⟨rfl, h.unstored hwaits⟩
  | ok owned =>
      refine ⟨fun _ => hauth, nofun, fun owned' howned => ?_, fun reply' err hreply herr => ?_,
        fun _ => h.unstored hwaits⟩
      · cases howned
        exact ⟨reply, rfl, hfetch⟩
      · cases hreply
        exact absurd (hfetch.symm.trans herr) nofun

theorem Honest.store (h : Honest k s c) (hstage : c.stage = .storing owned) (now : ℕ) :
    Honest k s (c.store owned now) := by
  have hwaits : ∀ r, c.stage ≠ .done r := by rw [hstage]; exact fun _ => nofun
  have hauth : isAuthenticated c.caller = true :=
    h.authenticated fun _ => hwaits _
  obtain ⟨reply, hreply, hfetch⟩ := h.heard owned hstage
  refine ⟨fun _ => hauth, fun hok => ?_, nofun, fun reply' err hreply' herr => ?_,
    fun hnot => absurd rfl (hnot _)⟩
  · obtain ⟨hjwt, hsub⟩ := isAuthenticated_iff.mp hauth
    exact ⟨hjwt, hsub, .inl ⟨reply, owned, hreply, fetchOwnedWallets_ok.mp hfetch,
      verdict_ok.mp (Stage.done.inj hok)⟩⟩
  · exact absurd herr (h.no_error hwaits hreply')

theorem honest_moves (hf : Faithful k s) (htick : s.now ≤ e.now)
    (hmoves : Moves k prunes s e c cache) : Honest k s c := by
  cases hmoves with
  | enter _ _ => exact honest_enter _
  | look _ hsome hstage => exact (hf.checks _ _ hsome).look hf htick hstage
  | hear _ hsome hstage => exact (hf.checks _ _ hsome).hear hstage
  | store _ hsome hstage => exact (hf.checks _ _ hsome).store hstage _

/-- The cache holds what it held, and what the call stores. -/
theorem Moves.entries {stamp : ℕ} (hmoves : Moves k prunes s e c cache)
    (hlook : cache.lookup sub = some (owned, stamp)) :
    s.cache.lookup sub = some (owned, stamp) ∨
      sub = c.caller.sub ∧ stamp = e.now ∧ c.storedAt = some stamp ∧
        ∃ old, s.checks e.id = some old ∧ old.stage = .storing owned ∧ c.reply = old.reply ∧
          c.caller = old.caller := by
  cases hmoves with
  | enter _ _ => exact .inl hlook
  | look _ _ _ => exact .inl hlook
  | hear _ _ _ => exact .inl hlook
  | @store old owned' seen _ hsome hstage =>
      unfold Checker.store at hlook
      by_cases hsub : sub = old.caller.sub
      · rw [hsub, AList.lookup_insert] at hlook
        cases hlook
        exact .inr ⟨hsub, rfl, rfl, old, hsome, hstage, rfl, rfl⟩
      · rw [AList.lookup_insert_ne hsub] at hlook
        split_ifs at hlook
        · exact .inl (lookup_retain_eq_some.mp hlook).1
        · exact .inl hlook

theorem Faithful.step (hf : Faithful k s) (htick : Ticks s e)
    (hstep : step prunes k s e = some t) : Faithful k t := by
  have hstored : ∀ sub owned stamp, Stored k s sub owned stamp → Stored k t sub owned stamp :=
    fun _ _ _ h => h.step hf htick hstep
  obtain ⟨c, cache, hmoves, rfl⟩ := step_moves hstep
  constructor
  · intro sub owned stamp hlook
    rcases hmoves.entries hlook with hlook | ⟨hsub, rfl, hst, old, hold, hstage, hreply, hcaller⟩
    · exact hstored _ _ _ (hf.entries _ _ _ hlook)
    · obtain ⟨reply, hheard, hfetch⟩ := (hf.checks _ _ hold).heard _ hstage
      exact ⟨le_refl _, e.id, c, reply, Function.update_self .., hsub.symm, hreply.trans hheard,
        hcaller ▸ fetchOwnedWallets_ok.mp hfetch, hst⟩
  · intro id c' hc'
    by_cases hid : id = e.id
    · subst hid
      obtain rfl : c = c' := by simpa [Function.update_self] using hc'
      exact (honest_moves hf htick.1 hmoves).mono hstored
    · exact (hf.checks id c' (by simpa [Function.update_of_ne hid] using hc')).mono hstored

theorem faithful_start : Faithful k start := by
  constructor
  · intro sub owned stamp h
    cases h
  · intro id c h
    cases h

theorem faithful_run (h : Runs prunes k es s) : Faithful k s :=
  h.invariant (fun _ _ _ htick hstep hf => hf.step htick hstep) faithful_start

/-- Only a call that stores touches the cache. -/
theorem cache_untouched (hstep : step prunes k s e = some t) (hc : t.checks e.id = some c)
    (hstored : c.storedAt = none) : t.cache = s.cache := by
  obtain ⟨c', cache, hmoves, rfl⟩ := step_moves hstep
  obtain rfl : c' = c := by simpa [Function.update_self] using hc
  cases hmoves with
  | enter _ _ => rfl
  | look _ _ _ => rfl
  | hear _ _ _ => rfl
  | store _ _ _ => cases hstored

/-- The gate of a wallet. An `Ok` goes back to an answer of the router to the same `sub` that
is the call's own or still fresh; whatever is not a list of wallets denies and leaves the cache
as it was; the calls of one `sub` go as if no other `sub` had called; and no call can tell when,
or whether, expired entries are swept. -/
theorem ownership_cache_sound (h : Runs pastThreshold k es s) :
    (∀ id c, s.checks id = some c → c.stage = .done (.ok ()) → Granted k s c) ∧
      (∀ id c reply err, s.checks id = some c → c.reply = some reply →
        fetchOwnedWallets k c.caller reply = .error err →
        c.stage = .done (.error err) ∧ c.storedAt = none) ∧
      (∀ caller reply owned, fetchOwnedWallets k caller reply = .ok owned ↔
        Lists k caller reply owned) ∧
      (∀ e t c, step pastThreshold k s e = some t → t.checks e.id = some c →
        c.storedAt = none → t.cache = s.cache) ∧
      (∀ es' t id c r, Run (step pastThreshold k) Ticks s es' t → s.checks id = some c →
        c.stage = .done r → t.checks id = some c) ∧
      (∀ sub, ∃ s', Runs pastThreshold k (es.filter (concerns (fun x => x = sub) s)) s' ∧
        ∀ id, s'.checks id = (s.checks id).filter fun c => c.caller.sub = sub) ∧
      ∀ prunes, ∃ s', Runs prunes k es s' ∧ s'.checks = s.checks := by
  have hf := faithful_run h
  refine ⟨fun id c hc => (hf.checks id c hc).granted, fun id c reply err hc =>
    (hf.checks id c hc).refused reply err, fun _ _ _ => fetchOwnedWallets_ok,
    fun e t c => cache_untouched, fun es' t id c r hrun hc hdone => ?_, fun sub => ?_,
    fun prunes => ?_⟩
  · obtain ⟨c', hc', hlater⟩ := later_run hrun hc
    rwa [hlater.final r hdone] at hc'
  · have hstart : Alike k (fun x => x = sub) start start := alike_start
    obtain ⟨s', hrun, hs⟩ := alike_run h hstart
    exact ⟨s', hrun, hs.checks⟩
  · have hstart : Alike k (fun _ => true) start start := alike_start
    obtain ⟨s', hrun, hs⟩ : ∃ s', Runs prunes k (es.filter (concerns (fun _ => true) s)) s' ∧
      Alike k (fun _ => true) s s' := alike_run h hstart
    have hall : es.filter (concerns (fun _ => true) s) = es := by
      refine List.filter_eq_self.mpr fun e he => ?_
      obtain ⟨c, hc⟩ := known_of_mem h he
      rw [concerns, hc]
      rfl
    rw [hall] at hrun
    refine ⟨s', hrun, funext fun id => (hs.checks id).trans ?_⟩
    cases s.checks id <;> rfl

namespace Sample

/-- The default lifetime of sixty seconds. -/
def checker : Checker := ⟨.real, 60 * 10 ^ 9, fun _ => true, fun _ => "500"⟩

def alice : CallerAuth := ⟨"token", "alice"⟩

def wallet : WalletId := ⟨⟨List.replicate 16 24, rfl⟩⟩

def listing : RouterReply :=
  .http 200 (.ok ⟨some ⟨some ⟨some ⟨[⟨wallet.toText⟩]⟩⟩⟩, none⟩)

/-- One call asks the router, the next finds its answer. -/
def twice : List Event :=
  [⟨1, 0, .enter alice wallet⟩, ⟨2, 0, .look⟩, ⟨3, 0, .hear listing⟩,
    ⟨4, 0, .store fun _ => 4⟩, ⟨5, 1, .enter alice wallet⟩, ⟨6, 1, .look⟩]

end Sample

theorem ownership_cache_sound_twice : ∃ s c,
    Runs pastThreshold Sample.checker Sample.twice s ∧ s.checks 1 = some c ∧ c.reply = none ∧
      c.stage = .done (.ok ()) ∧ Granted Sample.checker s c := by
  have htick {s : State} {e : Event} (hle : s.now ≤ e.now) (ha : ∀ seen, e.action ≠ .store seen) :
      Ticks s e := ⟨hle, fun seen hs => absurd hs (ha seen)⟩
  have hrun : ∃ s, Runs pastThreshold Sample.checker Sample.twice s ∧
      s.checks 1 = some ⟨Sample.alice, Sample.wallet,
        .done (verdict [Sample.wallet.toText] Sample.wallet), some 6, none, none⟩ := by
    refine ⟨_, run_cons.mpr ⟨htick (by decide) (by simp), _, rfl, run_cons.mpr
      ⟨htick (by decide) (by simp), _, rfl, run_cons.mpr ⟨htick (by decide) (by simp), _, rfl,
      run_cons.mpr ⟨⟨by decide, ?_⟩, _, rfl, run_cons.mpr ⟨htick (by decide) (by simp), _, rfl,
      run_cons.mpr ⟨htick (by decide) (by simp), _, rfl, run_nil.mpr rfl⟩⟩⟩⟩⟩⟩, rfl⟩
    intro seen hs sub
    cases hs
    exact ⟨show 3 ≤ 4 by decide, show 4 ≤ 4 by decide⟩
  obtain ⟨s, hrun, hc⟩ := hrun
  have hok : verdict [Sample.wallet.toText] Sample.wallet = .ok () :=
    verdict_ok.mpr (List.mem_singleton.mpr rfl)
  exact ⟨s, _, hrun, hc, rfl, congrArg Stage.done hok,
    (ownership_cache_sound hrun).1 1 _ hc (congrArg Stage.done hok)⟩

end LightningGateway.OwnershipChecker
