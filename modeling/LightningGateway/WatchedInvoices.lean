import LightningGateway.ListenerSlots
import LightningGateway.ProjectionColumns
import LightningGateway.InvoiceCreation

/-!
# No open invoice goes unwatched

An invoice that is `Open` or `Held` needs a listener: without one its HTLC is not noticed.
Once the recovery sweep of a process is through, every such invoice is watched, whatever the
process does meanwhile, up to the exceptions that the code leaves: a row the sweep could not
load, and an invoice whose creator was not told of the commit.
-/
namespace LightningGateway.WatchedInvoices
open GuardedRuns Primitives EventTables EffectPrograms TaskPools InvoiceAggregate LndWire
open GatewayStore StoreSpecs GatewayEffects PeerCalls InvoiceFlows GatewayMachine CallSites
open GatewayInvariant ProjectionColumns InvoiceMonitor ListenerSlots
open InvoiceCreation (exec_witnessed)
open InvoiceListener (Listener SubscribeInvoiceExit terminal)

variable {g : Deployment} {s t : Process g} {h : PaymentHash}

/-! ### Watched -/

/-- A listener waits for LND's final word on the hash, or it has entered the consumer's
channel, or the process shuts down. -/
def Watched (s : Process g) (h : PaymentHash) : Prop :=
  h ∈ s.active ∨ (∃ u ∈ updates s, u.paymentHash = h ∧ terminal u = true) ∨ s.cancelled = true

theorem Watched.keep (hw : Watched s h) (hactive : s.active ⊆ t.active)
    (hupdates : updates s ⊆ updates t) (hcancelled : s.cancelled = true → t.cancelled = true) :
    Watched t h := by
  rcases hw with hw | ⟨u, hu, hfinal⟩ | hw
  · exact .inl (hactive hw)
  · exact .inr (.inl ⟨u, hupdates hu, hfinal⟩)
  · exact .inr (.inr (hcancelled hw))

theorem spawn_watched (s : Process g) (h : PaymentHash) (script : Script) :
    Watched (s.spawnListenerFor h script) h :=
  .inl (by rw [spawn_active]; exact Finset.mem_insert_self h s.active)

theorem Watched.spawn (hw : Watched s h) (k : PaymentHash) (script : Script) :
    Watched (s.spawnListenerFor k script) h := by
  obtain ⟨-, hupdates, hcancelled, -⟩ := spawn_frame s k script
  refine hw.keep ?_ (hupdates ▸ List.Subset.refl _) fun hc => hcancelled.trans hc
  rw [spawn_active]
  exact Finset.subset_insert k s.active

/-- What is watched stays watched: a slot is given back only after a final update or in
the shutdown. -/
theorem Watched.step (hw : Watched s h) (hs : Orderly s) (hmoved : Moved s t) : Watched t h := by
  cases hmoved with
  | pool | retried | listed | loaded | skipped | gathered | swept | finished | stopped =>
      exact hw
  | asked | spawned =>
      refine Watched.spawn ?_ _ _
      exact hw
  | @listener l₁ l₂ l l' x new =>
      refine hw.keep (Finset.Subset.refl _) (fun u hu => ?_) id
      rw [updates, ← List.append_assoc]
      exact List.mem_append_left _ hu
  | received _ hchannel _ =>
      refine hw.keep (Finset.Subset.refl _) (fun u hu => ?_) id
      simpa [updates, hchannel] using hu
  | cancelled => exact .inr (.inr rfl)
  | @released l₁ l₂ l exit hsplit hphase =>
      by_cases hk : h = l.paymentHash
      case neg =>
        refine hw.imp (fun hactive => ?_) id
        exact Finset.mem_erase.mpr ⟨hk, hactive⟩
      case pos =>
        have hran : Ran l := hs.ran l (by simp [hsplit])
        refine .inr ?_
        cases exit with
        | terminal =>
            obtain ⟨u, hu, hterm⟩ := hran.final hphase
            have hlane : u ∈ lane h (s.ended ++ s.listeners) := by
              refine List.mem_flatMap.mpr ⟨l, by simp [hsplit], ?_⟩
              rwa [if_pos hk.symm]
            rw [← hs.lanes h] at hlane
            obtain ⟨hmem, hhash⟩ := List.mem_filter.mp hlane
            exact .inl ⟨u, hmem, of_decide_eq_true hhash, hterm⟩
        | cancelled => exact .inr (hs.tokens l (by simp [hsplit]) (hran.excused hphase))

/-! ### The tasks of a process -/

section
variable {w : World} {u : Pool (gateway g)} {es : List (Event (gateway g))}

/-- What the tasks find is well formed. -/
theorem pool_sane (hw : DbOk g w.db) (hcolumns : ColumnsAgree w.db)
    (hrun : Runs {} ⟨w, []⟩ es u) :
    Sane g u.world u.pasts ∧ ColumnsAgree u.world.db ∧ Grows w.db u.world.db := by
  have hsane : Sane g w [] := ⟨hw, fun _ hp => (by cases hp), fun _ hp => (by cases hp)⟩
  refine (gateway_invariant_from {} (I := fun w' _ => ColumnsAgree w'.db ∧ Grows w.db w'.db)
    (fun _ _ _ _ _ hI => hI) ?_ ?_ hrun (sound_empty w) hsane ⟨hcolumns, .refl _, .refl _⟩).2
  · intro w' ps i entry past o c a w'' hp hj _ hx hs hI
    have hcalls := hs.calls _ (List.mem_of_getElem? hp)
    exact ⟨exec_agree hs.db hcalls hj hx hI.1, hI.2.trans (exec_grows hs.db hcalls hj hx)⟩
  · intro w' ps x w'' _ hx _ hI
    obtain ⟨hp, hi, -⟩ := env_frame hx
    exact ⟨⟨hp ▸ hI.1.payments, hi ▸ hI.1.invoices⟩, hp ▸ hI.2.1, hi ▸ hI.2.2⟩

/-- The commit that stores an invoice with this hash. -/
def stores (h : PaymentHash) : Op → Bool
  | .tx (.createInvoice n) => n.paymentHash = h
  | _ => false

theorem stores_spec {o : Op} (hstores : stores h o = true) :
    ∃ n, o = .tx (.createInvoice n) ∧ n.paymentHash = h := by
  unfold stores at hstores
  split at hstores
  case h_1 n => exact ⟨n, rfl, of_decide_eq_true hstores⟩
  case h_2 => cases hstores

theorem LedgerStep.stored {entry : Entry} {past : Calls} {db db' : Db} {b : Transaction}
    {r : InvoiceRow} (hb : LedgerStep g entry past db db' b)
    (hr : db'.invoices.lookup h = some r) :
    (∃ r₀, db.invoices.lookup h = some r₀) ∨ stores h (.tx b) = true := by
  have written {k : PaymentHash} {r' r₀ : InvoiceRow} (hw : WritesInvoice db db' k r')
      (hk : db.invoices.lookup k = some r₀) : ∃ r₀, db.invoices.lookup h = some r₀ := by
    rw [hw h] at hr
    split_ifs at hr with hkey
    · exact ⟨r₀, hkey ▸ hk⟩
    · exact ⟨r, hr⟩
  cases hb with
  | intent _ _ _ _ _ hi _ | pending _ _ _ _ _ _ hi _ | completed _ _ _ _ _ _ _ hi _
  | failed _ _ _ _ _ _ _ hi _ => exact .inl ⟨r, hi ▸ hr⟩
  | transfer _ _ _ _ _ hl _ _ _ hwi _ => exact .inl (written hwi hl)
  | held _ hl _ _ _ hwi _ _ | settled _ hl _ _ _ hwi _ _ | canceled _ hl _ _ _ _ hwi _ _ =>
      exact .inl (written hwi hl)
  | createInvoice _ _ _ hwi _ _ =>
      rw [hwi h] at hr
      split_ifs at hr with hkey
      · exact .inr (decide_eq_true hkey.symm)
      · exact .inl ⟨r, hr⟩

/-- A row that was not there at the boot was stored by a task of this process. -/
theorem stored_here (hw : DbOk g w.db)
    (hrun : Runs {} ⟨w, []⟩ es u) {r : InvoiceRow} (hr : u.world.db.invoices.lookup h = some r)
    (hnew : w.db.invoices.lookup h = none) :
    ∃ t ∈ u.tasks, ∃ c ∈ t.calls, stores h c.op = true := by
  have hsane : Sane g w [] := ⟨hw, fun _ hp => (by cases hp), fun _ hp => (by cases hp)⟩
  have hstored := (gateway_invariant_from {}
    (I := fun w' ps => (∃ r, w'.db.invoices.lookup h = some r) →
      callCount (fun c => stores h c.op) ps ≠ 0) ?_ ?_ ?_ hrun (sound_empty w) hsane ?_).2.2 ⟨r, hr⟩
  · obtain ⟨p, hp, c, hc, hq⟩ := exists_of_callCount_ne_zero hstored
    obtain ⟨t, ht, rfl⟩ := List.mem_map.mp hp
    exact ⟨t, ht, c, hc, hq⟩
  · intro w' ps e _ _ hI hr
    rw [callCount_spawn]
    exact hI hr
  · rintro w' ps i entry past o c a w'' hp hj _ hx hs hI ⟨r', hr'⟩
    obtain ⟨b, db', rfl, hb, -, rfl⟩ | ⟨hdb, -⟩ :=
      commit_or_frame hs.db (hs.calls _ (List.mem_of_getElem? hp)) hj hx
    · rcases LedgerStep.stored hb hr' with hold | hstores
      · exact callCount_call_ne_zero hp (hI hold)
      · rw [callCount_call hp, if_pos hstores]
        omega
    · exact callCount_call_ne_zero hp (hI ⟨r', hdb ▸ hr'⟩)
  · rintro w' ps x w'' _ hx _ hI ⟨r', hr'⟩
    obtain ⟨-, hi, -⟩ := env_frame hx
    exact hI ⟨r', hi ▸ hr'⟩
  · rintro ⟨r', hr'⟩
    cases hnew.symm.trans hr'

/-- Right after its invoice is stored, `create_invoice` asks for a listener. -/
def Announces (entry : Entry) (past : Calls) (o : Op) : Prop :=
  (∃ request, entry = .createInvoice request) → ∀ n i,
    past.getLast? = some ⟨.tx (.createInvoice n), .ok i⟩ → o = .spawnListenerFor i.paymentHash

def Announced (entry : Entry) (past : Calls) : Prop :=
  (∃ request, entry = .createInvoice request) → ∀ n i,
    past.getLast? ≠ some ⟨.tx (.createInvoice n), .ok i⟩

theorem announces_other {entry : Entry} {past : Calls} {c : Call gatewaySignature} (o : Op)
    (hc : ∀ n i, c ≠ ⟨.tx (.createInvoice n), .ok i⟩) : Announces entry (past ++ [c]) o :=
  fun _ n i hlast => absurd (Option.some.inj (List.getLast?_concat.symm.trans hlast)) (hc n i)

theorem announced_other {entry : Entry} {past : Calls} {c : Call gatewaySignature}
    (hc : ∀ n i, c ≠ ⟨.tx (.createInvoice n), .ok i⟩) : Announced entry (past ++ [c]) :=
  fun _ n i hlast => hc n i (Option.some.inj (List.getLast?_concat.symm.trans hlast))

theorem createInvoice_announces (g : Deployment) (request : NewInvoiceRequest) :
    Emits (S := gatewaySignature) (Announces (.createInvoice request))
      (fun past _ => Announced (.createInvoice request) past) []
      (createInvoice g.crates g.mode request).run := by
  unfold createInvoice
  refine now_bind (fun _ _ _ hlast => by cases hlast) fun t => ?_
  refine checkWalletOwnership_bind (announces_other _ fun _ _ hc => by cases hc) ?_
    fun e => announced_other fun _ _ hc => by cases hc
  refine perform_bind (announces_other _ fun _ _ hc => by cases hc) fun preimage => ?_
  refine ofExcept_bind (fun externalId _ => ?_)
    fun _ _ => announced_other fun _ _ hc => by cases hc
  unfold LndClient.addHoldInvoice
  split
  next => exact announced_other fun _ _ hc => by cases hc
  next value hvalue =>
    refine ⟨announces_other _ fun _ _ hc => (by cases hc), fun added => ?_⟩
    cases added with
    | error st => exact announced_other fun _ _ hc => by cases hc
    | ok text =>
        refine newUuid_bind (announces_other _ fun _ _ hc => by cases hc) fun id => ?_
        refine ofExcept_bind (fun n hn => ?_)
          fun _ _ => announced_other fun _ _ hc => by cases hc
        split
        next => exact announced_other fun _ _ hc => by cases hc
        next =>
          refine transact_bind (announces_other _ fun _ _ hc => by cases hc) (fun i => ?_)
            fun e => announced_other fun _ _ hc => by cases hc
          refine ⟨fun _ n' i' hlast => ?_, fun _ => announced_other fun _ _ hc => (by cases hc)⟩
          cases Option.some.inj (List.getLast?_concat.symm.trans hlast)
          rfl

theorem program_announces (g : Deployment) (entry : Entry) :
    Emits (S := gatewaySignature) (Announces entry) (fun past _ => Announced entry past) []
      (program g entry) := by
  cases entry with
  | createInvoice request => exact emits_bind (createInvoice_announces g request)
  | _ =>
      refine Emits.mono ?_ (Emits.weaken ?_ (emits_any _))
      · rintro _ _ _ ⟨_, hentry⟩
        cases hentry
      · rintro _ _ _ ⟨_, hentry⟩
        cases hentry

/-- The invoice handed back is the one that was to be stored. -/
def SameHash (c : Call gatewaySignature) : Prop :=
  ∀ n i, c = ⟨.tx (.createInvoice n), .ok i⟩ → i.paymentHash = n.paymentHash

theorem exec_sameHash {crates : Crates} {o : Op} {c : Choice} {w w' : World} {a : o.Ans}
    (hx : exec crates o c w = some (a, w')) : SameHash ⟨o, a⟩ := by
  intro n i hc
  cases hc
  exact (exec_witnessed (g := ⟨crates, .live⟩) hx).paymentHash

theorem pool_announces (hrun : Runs {} ⟨w, []⟩ es u) :
    Sound Announces (fun entry past _ => Announced entry past) u ∧ Explained Announces u.pasts ∧
      ∀ p ∈ u.pasts, ∀ c ∈ p.calls, SameHash c := by
  obtain ⟨hsound, hexplained⟩ := described_run (program_announces g) hrun
  refine ⟨hsound, hexplained, ?_⟩
  exact (pool_invariant (I := fun _ ps => ∀ p ∈ ps, ∀ c ∈ p.calls, SameHash c)
    (program_announces g) {} (fun _ _ _ _ hI => pasts_spawn (fun _ hc => by cases hc) hI)
    (fun _ _ _ _ _ _ _ _ hi _ _ hx hI => calls_call hi (fun _ ha => ha) (exec_sameHash hx) hI)
    (fun _ _ _ _ _ _ hI => hI) hrun (sound_empty w) fun _ hp => (by cases hp)).2

/-- The task stored the invoice just now and asks for its listener next. -/
def Asking (t : Task (gateway g)) (h : PaymentHash) : Prop :=
  ∃ k, t.rest = some (.call (.spawnListenerFor h) k)

/-- The task was told that its commit failed. -/
def ToldFailed (t : Task (gateway g)) (h : PaymentHash) : Prop :=
  ∃ n e, n.paymentHash = h ∧ ⟨.tx (.createInvoice n), .error e⟩ ∈ t.calls

/-- What becomes of a task that stores an invoice. -/
theorem creator_cases (hw : DbOk g w.db) (hcolumns : ColumnsAgree w.db)
    (hrun : Runs {} ⟨w, []⟩ es u) {t : Task (gateway g)} (ht : t ∈ u.tasks)
    (halive : t.rest ≠ none) {c : Call gatewaySignature} (hc : c ∈ t.calls)
    (hstores : stores h c.op = true) :
    (∃ c ∈ t.calls, listenerFor c.op = some h) ∨ Asking t h ∨ ToldFailed t h := by
  obtain ⟨hsound, hexplained, hsame⟩ := pool_announces hrun
  have hp : t.toPast ∈ u.pasts := List.mem_map_of_mem ht
  obtain ⟨o, a⟩ := c
  obtain ⟨n, rfl, rfl⟩ := stores_spec hstores
  cases a with
  | error e => exact .inr (.inr ⟨n, e, rfl, hc⟩)
  | ok i =>
      have hhash : i.paymentHash = n.paymentHash := hsame _ hp _ hc n i rfl
      obtain ⟨before, after, hcalls⟩ := List.append_of_mem hc
      obtain ⟨request, -, -, hentry, -⟩ :=
        (pool_sane hw hcolumns hrun).1.explained _ hp before _ after hcalls
      cases after with
      | cons c' after =>
          have hnext := hexplained _ hp (before ++ [⟨.tx (.createInvoice n), .ok i⟩]) c' after
            (by rw [List.append_assoc]; exact hcalls) ⟨request, hentry⟩ n i List.getLast?_concat
          refine .inl ⟨c', ?_, ?_⟩
          · rw [hcalls]
            exact List.mem_append_right _ (List.mem_cons_of_mem _ List.mem_cons_self)
          · rw [hnext, ← hhash]
            rfl
      | nil =>
          have hlast : t.calls.getLast? = some ⟨.tx (.createInvoice n), .ok i⟩ :=
            hcalls ▸ List.getLast?_concat
          cases hrest : t.rest with
          | none => exact absurd hrest halive
          | some p =>
              have hp := hsound t ht p hrest
              cases p with
              | ret r => exact absurd hlast (hp ⟨request, hentry⟩ n i)
              | call o k =>
                  obtain rfl : o = .spawnListenerFor i.paymentHash :=
                    hp.1 ⟨request, hentry⟩ n i hlast
                  exact .inr (.inl (hhash ▸ ⟨k, hrest⟩))

end

/-! ### The life of a process -/

section
variable {w : World} {es : List (MonitorEvent g)}

/-- The pool of a process moves as that of any gateway. -/
theorem life_pool (hlife : Lives w es s) : ∃ es', Runs {} ⟨w, []⟩ es' s.pool := by
  refine hlife.component (f := Process.pool) fun s e t _ hnext => ?_
  cases next_spec hnext with
  | @pool e _ _ hpool _ => exact .inr ⟨e, free_guard _ e, hpool⟩
  | received _ _ hpool => exact .inr ⟨_, free_guard _ _, hpool⟩
  | @asked e pool h script _ hpool _ =>
      rw [(spawn_frame { s with pool } h script).1]
      exact .inr ⟨e, free_guard _ e, hpool⟩
  | @spawned h rest script =>
      rw [(spawn_frame { s with sweep := .spawning rest } h script).1]
      exact .inl rfl
  | _ => exact .inl rfl

/-- Whatever a task of the process has asked a listener for is watched, and the process has not
lost a task. -/
structure Attended (s : Process g) : Prop where
  asked : ∀ p ∈ s.pool.pasts, ∀ c ∈ p.calls, ∀ h, listenerFor c.op = some h → Watched s h
  alive : ∀ t ∈ s.pool.tasks, t.rest ≠ none

theorem requested_step {p : Pool (gateway g)} {i : ℕ} {c : (gateway g).Choice}
    {t : Task (gateway g)} {o : gatewaySignature.Op}
    {k : gatewaySignature.Ans o → Program gatewaySignature (gateway g).Result}
    (ht : p.tasks[i]? = some t) (hrest : t.rest = some (.call o k)) :
    requested p (.step i c) = listenerFor o := by
  simp only [requested, ht, hrest]

/-- A step of the gateway; the listener it asks for, if any, is watched in `t`. -/
theorem Attended.next {e : Event (gateway g)} {pool : Pool (gateway g)} (ha : Attended s)
    (hadmitted : e ≠ .crash) (hpool : s.pool.next e = some pool) (hkeep : t.pool = pool)
    (hwatched : ∀ h, Watched s h → Watched t h)
    (hasked : ∀ h, requested s.pool e = some h → Watched t h) : Attended t := by
  have hcalls := ha.asked
  obtain ⟨x, -, rfl⟩ | ⟨i, c, task, o, k, a, w, rfl, hi, hrest, -, rfl⟩ | ⟨x, w, -, -, rfl⟩ |
    ⟨rfl, -⟩ := next_cases hpool
  · refine ⟨?_, ?_⟩
    · rw [hkeep, Pool.pasts, List.map_append]
      exact pasts_spawn (fun c hc => by cases hc)
        fun p hp c hc h hh => hwatched h (hcalls p hp c hc h hh)
    · rw [hkeep]
      intro task htask
      rcases List.mem_append.mp htask with htask | htask
      · exact ha.alive task htask
      · rw [List.mem_singleton.mp htask]
        simp
  · refine ⟨?_, ?_⟩
    · have hp : s.pool.pasts[i]? = some task.toPast := by simp [Pool.pasts, hi]
      rw [hkeep, Pool.pasts, List.map_set]
      refine calls_call (A := fun c => ∀ h, listenerFor c.op = some h → Watched s h)
        (B := fun c => ∀ h, listenerFor c.op = some h → Watched t h) hp
        (fun _ hold h hh => hwatched h (hold h hh)) (fun h hh => hasked h ?_) hcalls
      exact (requested_step hi hrest).trans hh
    · rw [hkeep]
      intro task' htask'
      rcases List.mem_or_eq_of_mem_set htask' with htask' | rfl
      · exact ha.alive task' htask'
      · simp
  · refine ⟨?_, by rw [hkeep]; exact ha.alive⟩
    rw [hkeep]
    exact fun p hp c hc h hh => hwatched h (hcalls p hp c hc h hh)
  · exact absurd rfl hadmitted

theorem Attended.step (ha : Attended s) (hs : Orderly s) (hmoved : Moved s t) : Attended t := by
  have hwatched : ∀ h, Watched s h → Watched t h := fun h hw => hw.step hs hmoved
  have still (hpool : t.pool = s.pool) : Attended t := by
    refine ⟨?_, by rw [hpool]; exact ha.alive⟩
    rw [hpool]
    exact fun p hp c hc h hh => hwatched h (ha.asked p hp c hc h hh)
  cases hmoved with
  | pool hadmitted hpool hnone =>
      refine ha.next (by rintro rfl; cases hadmitted) hpool rfl hwatched fun h hh => ?_
      cases hnone.symm.trans hh
  | @asked e pool h script hadmitted hpool hsome =>
      refine ha.next (by rintro rfl; cases hadmitted) hpool (spawn_frame _ h script).1 hwatched
        fun k hk => ?_
      cases hsome.symm.trans hk
      exact spawn_watched _ h script
  | received _ _ hpool =>
      refine ha.next (by simp) hpool rfl hwatched fun h hh => ?_
      cases hh
  | spawned => exact still (spawn_frame _ _ _).1
  | _ => exact still rfl

theorem attended_life (hlife : Lives w es s) : Attended s := by
  refine (hlife.invariant (J := fun s => Orderly s ∧ Attended s) ?_ ⟨orderly_start w, ?_⟩).2
  · rintro s e t _ hnext ⟨hs, ha⟩
    have hmoved := next_spec hnext
    exact ⟨hs.step hmoved, ha.step hs hmoved⟩
  · constructor
    · intro p hp
      cases hp
    · intro t ht
      cases ht

end

/-! ### The recovery sweep -/

section
variable {w : World} {es : List (MonitorEvent g)} {r r' : InvoiceRow}

/-- What the sweep has still in hand for a row. -/
def InHand (s : Process g) (r : InvoiceRow) : Prop :=
  match s.sweep with
  | .due => True
  | .loading rest found => r.id ∈ rest ∨ r.key ∈ found
  | .spawning rest => r.key ∈ rest ∨ Watched s r.key
  | .complete => Watched s r.key

/-- The sweep takes care of every waiting invoice that it found at the boot. -/
def Swept (w : World) (s : Process g) : Prop :=
  ∀ r ∈ openInvoices s.db, (∃ r₀, w.db.invoices.lookup r.key = some r₀) →
    r.id ∈ s.skipped ∨ InHand s r

theorem InHand.keep (hr : InHand s r) (hsweep : t.sweep = s.sweep)
    (hwatched : ∀ h, Watched s h → Watched t h) : InHand t r := by
  unfold InHand at hr ⊢
  rw [hsweep]
  split at hr
  · trivial
  · exact hr
  · exact hr.imp_right (hwatched _)
  · exact hwatched _ hr

/-- An invoice that waits after some commits waited before them. -/
theorem openInvoices_back {db db' : Db} (hdb : DbOk g db) (hdb' : DbOk g db')
    (hgrow : Grows db db') (hr : r ∈ openInvoices db') {r₀ : InvoiceRow}
    (hr₀ : db.invoices.lookup r.key = some r₀) :
    r₀ ∈ openInvoices db ∧ r₀.id = r.id ∧ r₀.key = r.key := by
  obtain ⟨hmem, hstate⟩ := List.mem_filter.mp hr
  obtain ⟨r', hr', hid, -, hlog⟩ := hgrow.2 r.key r₀ hr₀
  cases (Table.lookup_of_mem hmem).symm.trans hr'
  obtain ⟨n, st, held, hrow, -⟩ := hdb.invoices r.key r₀ hr₀
  obtain ⟨n', st', held', hrow', -⟩ := hdb'.invoices r.key r hr'
  obtain ⟨more, hmore⟩ := hlog
  have hlive : st' = .opened ∨ st' = .held := by
    simpa [replayed_of_invoiceLog hrow'] using hstate
  have hwaited : st = .opened ∨ st = .held := by
    rw [← hmore] at hrow'
    exact hrow.live_prefix hrow' hlive
  refine ⟨List.mem_filter.mpr ⟨Table.lookup_mem hr₀, ?_⟩, hid.symm, Table.lookup_key hr₀⟩
  simpa [replayed_of_invoiceLog hrow] using hwaited

/-- A step of a process leaves the database as it is or lets it grow. -/
theorem moved_grows (hw : DbOk g w.db) (hcolumns : ColumnsAgree w.db) (hlife : Lives w es s)
    (hmoved : Moved s t) : Grows s.db t.db := by
  obtain ⟨es', hrun⟩ := life_pool hlife
  have hsound := (described_run (program_emits g) hrun).1
  have hsane := (pool_sane hw hcolumns hrun).1
  have single {e : Event (gateway g)} {pool : Pool (gateway g)}
      (hpool : s.pool.next e = some pool) : Grows s.db pool.world.db := by
    have hone : Runs {} s.pool [e] pool :=
      run_cons.mpr ⟨free_guard s.pool e, pool, hpool, run_nil.mpr rfl⟩
    refine (gateway_invariant_from {} (I := fun w' _ => Grows s.db w'.db)
      (fun _ _ _ _ _ hI => hI) ?_ ?_ hone hsound hsane ⟨.refl _, .refl _⟩).2.2
    · intro w' ps i entry past o c a w'' hp hj _ hx hs hI
      exact hI.trans (exec_grows hs.db (hs.calls _ (List.mem_of_getElem? hp)) hj hx)
    · intro w' ps x w'' _ hx _ hI
      obtain ⟨hp, hi, -⟩ := env_frame hx
      exact ⟨hp ▸ hI.1, hi ▸ hI.2⟩
  have still (hpool : t.pool = s.pool) : Grows s.db t.db := by
    rw [Process.db, Process.db, hpool]
    exact ⟨.refl _, .refl _⟩
  cases hmoved with
  | pool _ hpool _ | received _ _ hpool => exact single hpool
  | @asked _ pool h script _ hpool _ =>
      change Grows s.db ({ s with pool }.spawnListenerFor h script).pool.world.db
      rw [(spawn_frame { s with pool } h script).1]
      exact single hpool
  | spawned => exact still (spawn_frame _ _ _).1
  | _ => exact still rfl

theorem openInvoices_text (hcolumns : ColumnsAgree s.db) (hr : r ∈ openInvoices s.db) :
    r ∈ s.db.invoices.rows.filter fun r => r.state = "open" ∨ r.state = "held" := by
  obtain ⟨hmem, hstate⟩ := List.mem_filter.mp hr
  refine List.mem_filter.mpr ⟨hmem, decide_eq_true ?_⟩
  exact (of_decide_eq_true hstate).imp (invoice_text hcolumns hmem .opened).mpr
    (invoice_text hcolumns hmem .held).mpr

/-- An invoice that is loaded has the hash of its row. -/
theorem loaded_key (hdb : DbOk g s.db) (hr : r ∈ s.db.invoices.rows) {invoice : Invoice}
    (hload : Invoices.findById s.db r.id = .ok invoice) : invoice.paymentHash = r.key := by
  obtain ⟨n, st, held, hlog, hhash, -⟩ := hdb.invoices r.key r (Table.lookup_of_mem hr)
  rw [findById_of_mem hr] at hload
  obtain ⟨-, -, -, -, htracks⟩ := InvoiceLogs.hydrate_tracks hlog hload
  exact htracks.paymentHash.trans hhash

theorem Swept.step (hw : DbOk g w.db) (hcolumns : ColumnsAgree w.db) (hlife : Lives w es s)
    (hmoved : Moved s t) (hdb' : DbOk g t.db) (hswept : Swept w s) : Swept w t := by
  obtain ⟨es', hrun⟩ := life_pool hlife
  obtain ⟨hsane, hagree, hgrown⟩ := pool_sane hw hcolumns hrun
  have hwatched : ∀ h, Watched s h → Watched t h :=
    fun h hh => hh.step (orderly_life hlife) hmoved
  rintro r hr ⟨r₀, hr₀⟩
  obtain ⟨r₁, hr₁, -⟩ := hgrown.2 r.key r₀ hr₀
  obtain ⟨hwaits, hid, hkey⟩ :=
    openInvoices_back hsane.db hdb' (moved_grows hw hcolumns hlife hmoved) hr hr₁
  have hbefore := hswept r₁ hwaits ⟨r₀, hkey ▸ hr₀⟩
  have carry (hsweep : t.sweep = s.sweep) (hskipped : t.skipped = s.skipped) :
      r.id ∈ t.skipped ∨ InHand t r := by
    rw [hskipped, ← hid]
    refine hbefore.imp_right fun hhand => ?_
    have hkept := hhand.keep hsweep hwatched
    unfold InHand at hkept ⊢
    rwa [← hid, ← hkey]
  rw [hid] at hbefore
  unfold InHand at hbefore
  rw [hid, hkey] at hbefore
  cases hmoved with
  | pool | listener | released | received | finished | stopped | retried | cancelled =>
      exact carry rfl rfl
  | @asked _ pool h script =>
      obtain ⟨-, -, -, hsweep, hskipped, -⟩ := spawn_frame { s with pool } h script
      exact carry hsweep hskipped
  | listed =>
      exact .inr (.inl (List.mem_map_of_mem (openInvoices_text hagree hr)))
  | @loaded id rest found invoice hsweep hload =>
      rw [hsweep] at hbefore
      refine hbefore.imp_right fun hhand => ?_
      rcases hhand with hhand | hhand
      · rcases List.mem_cons.mp hhand with hnow | hlater
        · rw [← hnow] at hload
          have hloaded := loaded_key hsane.db (List.mem_filter.mp hr).1 hload
          exact .inr (List.mem_append_right _ (List.mem_singleton.mpr hloaded.symm))
        · exact .inl hlater
      · exact .inr (List.mem_append_left _ hhand)
  | @skipped id rest found hsweep =>
      rw [hsweep] at hbefore
      rcases hbefore with hold | hhand | hhand
      · exact .inl (List.mem_append_left _ hold)
      · rcases List.mem_cons.mp hhand with hnow | hlater
        · exact .inl (List.mem_append_right _ (List.mem_singleton.mpr hnow))
        · exact .inr (.inl hlater)
      · exact .inr (.inr hhand)
  | gathered hsweep =>
      rw [hsweep] at hbefore
      refine hbefore.imp_right fun hhand => ?_
      rcases hhand with hhand | hhand
      · cases hhand
      · exact .inl hhand
  | @spawned k rest script hsweep =>
      rw [hsweep] at hbefore
      obtain ⟨-, -, -, hsweep', hskipped, -⟩ :=
        spawn_frame { s with sweep := .spawning rest } k script
      rw [hskipped]
      refine hbefore.imp_right fun hhand => ?_
      unfold InHand
      rw [hsweep']
      rcases hhand with hhand | hhand
      · rcases List.mem_cons.mp hhand with hnow | hlater
        · rw [hnow]
          exact .inr (spawn_watched _ k script)
        · exact .inl hlater
      · exact .inr (hwatched _ hhand)
  | swept hsweep =>
      rw [hsweep] at hbefore
      refine hbefore.imp_right fun hhand => ?_
      rcases hhand with hhand | hhand
      · cases hhand
      · exact hwatched _ hhand

theorem swept_life (hw : DbOk g w.db) (hcolumns : ColumnsAgree w.db) (hlife : Lives w es s) :
    Swept w s := by
  induction es using List.reverseRecOn generalizing s with
  | nil =>
      obtain rfl := run_nil.mp hlife
      exact fun r _ _ => .inr trivial
  | append_singleton es e ih =>
      obtain ⟨s₀, hbefore, -, hnext⟩ := run_snoc.mp hlife
      obtain ⟨es', hrun⟩ := life_pool hlife
      have hdb : DbOk g s.db := (pool_sane hw hcolumns hrun).1.db
      exact Swept.step hw hcolumns hbefore (next_spec hnext) hdb (ih hbefore)

end

/-! ### The result -/

/-- Once the recovery sweep is through, every invoice that is `Open` or `Held` is watched,
whatever the earlier processes have left and whatever this one does meanwhile, unless the
sweep could not load it, or it was created since: then its creator is about to ask for the
listener, or was told that its commit failed. -/
theorem no_invoice_unwatched {D : Discipline (gateway g)} {es₀ : List (Event (gateway g))}
    {q : Pool (gateway g)} (hbefore : Runs D (boot g) es₀ q) {es : List (MonitorEvent g)}
    (hlife : Lives q.world es s) (hsweep : s.sweep = .complete) {r : InvoiceRow}
    (hr : r ∈ openInvoices s.db) :
    r.id ∈ s.skipped ∨ Watched s r.key ∨
      ∃ t ∈ s.pool.tasks, Asking t r.key ∨ ToldFailed t r.key := by
  have hw : DbOk g q.world.db := dbOk_run hbefore
  have hcolumns := columns_agree hbefore
  cases hold : q.world.db.invoices.lookup r.key with
  | some r₀ =>
      have hswept := swept_life hw hcolumns hlife r hr ⟨r₀, hold⟩
      rw [InHand, hsweep] at hswept
      exact hswept.imp_right .inl
  | none =>
      obtain ⟨es', hrun⟩ := life_pool hlife
      have hattended := attended_life hlife
      obtain ⟨t, ht, c, hc, hstores⟩ :=
        stored_here hw hrun (Table.lookup_of_mem (List.mem_filter.mp hr).1) hold
      rcases creator_cases hw hcolumns hrun ht (hattended.alive t ht) hc hstores with
        ⟨c', hc', hasked⟩ | hasking | hfailed
      · exact .inr (.inl (hattended.asked t.toPast (List.mem_map_of_mem ht) c' hc' _ hasked))
      · exact .inr (.inr ⟨t, ht, .inl hasking⟩)
      · exact .inr (.inr ⟨t, ht, .inr hfailed⟩)

/-- A process restarts over one open invoice and sweeps. -/
def recovery : List (MonitorEvent Sample.deployment) :=
  [.list true, .load true, .load true, .spawnNext [], .spawnNext []]

theorem no_invoice_unwatched_restart :
    ∃ q s r, Runs {} (boot Sample.deployment) (Sample.issueInvoice 0) q ∧
      Lives q.world recovery s ∧ s.sweep = .complete ∧ r ∈ openInvoices s.db ∧
      Watched s r.key := by
  obtain ⟨q, hbefore, hq⟩ := exists_run_of_play {} (boot Sample.deployment)
    (Sample.issueInvoice 0)
    (fun q => (play Process.next (fun _ _ => true) (Process.start q.world) recovery).any fun s =>
      s.sweep = .complete ∧ s.skipped = [] ∧ s.pool.tasks.length = 0 ∧
        (openInvoices s.db).length = 1)
    (by decide +kernel)
  obtain ⟨s, hlife, hs⟩ := exists_life_of_play q.world recovery _ hq
  obtain ⟨hsweep, hskipped, htasks, hopen⟩ := of_decide_eq_true hs
  obtain ⟨r, hr⟩ := List.length_eq_one_iff.mp hopen
  have hmem : r ∈ openInvoices s.db := by
    rw [hr]
    exact List.mem_singleton.mpr rfl
  have hwatched := no_invoice_unwatched hbefore hlife hsweep hmem
  rw [hskipped, List.eq_nil_of_length_eq_zero htasks] at hwatched
  refine ⟨q, s, r, hbefore, hlife, hsweep, hmem, ?_⟩
  simpa using hwatched

end LightningGateway.WatchedInvoices
