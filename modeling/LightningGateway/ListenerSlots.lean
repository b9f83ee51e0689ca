import LightningGateway.InvoiceMonitor

/-!
# One listener per hash

What one step of a process can do is said once, in `Moved`. It follows that a hash has at
most one listener, that the consumer receives for every hash what its listeners forwarded,
in that order, and that it handles one update at a time.
-/
namespace LightningGateway.ListenerSlots
open GuardedRuns Primitives EventTables EffectPrograms TaskPools SerialHandlers
open InvoiceAggregate LndWire GatewayStore GatewayEffects GatewayMachine InvoiceMonitor
open InvoiceListener (Listener Session SubscribeInvoiceExit subscribeInvoice terminal due relevant
  accept Standing standing_run Quiet quiet_start upTo upTo_initial)

/-! ### One listener -/

/-- The state of a listener after some steps of its own and of its surroundings. -/
def Ran (l : Listener) : Prop :=
  ∃ script es, InvoiceListener.Runs (subscribeInvoice true l.paymentHash script) es l

variable {l l' : Listener} {x : InvoiceListener.Event} {h : PaymentHash}

/-- A step neither changes the hash nor takes an update back, and only the shared token and
the consumer change what the listener knows of them. -/
theorem step_frame (hstep : l.step x = some l') :
    l'.paymentHash = l.paymentHash ∧ l.forwarded <+: l'.forwarded ∧
      l'.cancelled = (l.cancelled || x = .cancel) ∧
      l'.receiverLive = (l.receiverLive && x ≠ .dropReceiver) := by
  cases x with
  | advance =>
      have hkept : l'.paymentHash = l.paymentHash ∧ l.forwarded <+: l'.forwarded ∧
          l'.cancelled = l.cancelled ∧ l'.receiverLive = l.receiverLive := by
        change l.advance = some l' at hstep
        unfold Listener.advance at hstep
        split at hstep
        case h_4 =>
          split at hstep
          all_goals cases hstep
          all_goals exact ⟨rfl, List.prefix_rfl, rfl, rfl⟩
        case h_6 update stream _ =>
          cases hstep
          unfold Listener.sendUpdate
          by_cases hlive : l.receiverLive = true
          · rw [if_pos hlive]
            exact ⟨rfl, List.prefix_append _ _, rfl, rfl⟩
          · rw [if_neg hlive]
            exact ⟨rfl, List.prefix_rfl, rfl, rfl⟩
        all_goals cases hstep
        all_goals exact ⟨rfl, List.prefix_rfl, rfl, rfl⟩
      simpa using hkept
  | noticeCancel =>
      change l.noticeCancel = some l' at hstep
      unfold Listener.noticeCancel at hstep
      split_ifs at hstep with hcancel
      split at hstep
      all_goals cases hstep
      all_goals exact ⟨rfl, List.prefix_rfl, by simp, by simp⟩
  | cancel | dropReceiver =>
      cases hstep
      exact ⟨rfl, List.prefix_rfl, by simp, by simp⟩

theorem Ran.step (hran : Ran l) (hstep : l.step x = some l') : Ran l' := by
  obtain ⟨script, es, hrun⟩ := hran
  refine ⟨script, es ++ [x], ?_⟩
  rw [(step_frame hstep).1]
  exact run_snoc.mpr ⟨l, hrun, trivial, hstep⟩

/-- Everything a listener forwards concerns its invoice. -/
theorem Ran.about (hran : Ran l) : ∀ u ∈ l.forwarded, u.paymentHash = l.paymentHash := by
  obtain ⟨script, es, hrun⟩ := hran
  intro u hu
  have hdue := (upTo_initial _ _).subset ((standing_run hrun).initial.subset hu)
  obtain ⟨answer, -, hanswer⟩ := List.mem_flatMap.mp hdue
  cases answer with
  | error e => cases hanswer
  | ok stream =>
      obtain ⟨m, -, hm⟩ := List.mem_filterMap.mp hanswer
      unfold accept at hm
      split at hm
      · cases hm
      · split_ifs at hm with hhash
        cases hm
        exact hhash

/-- It returns `Terminal` only after a final update. -/
theorem Ran.final (hran : Ran l) (hphase : l.phase = .returned .terminal) :
    ∃ u ∈ l.forwarded, terminal u = true := by
  obtain ⟨script, es, hrun⟩ := hran
  cases standing_run hrun with
  | pumping hp => rw [hphase] at hp; cases hp
  | gone hp => rw [hphase] at hp; cases hp
  | ended _ _ hlast =>
      obtain ⟨u, hu, hterm⟩ := hlast
      exact ⟨u, List.mem_of_getLast? hu, hterm⟩

/-- It returns `Cancelled` only if it was cancelled or its receiver was dropped. -/
theorem Ran.excused (hran : Ran l) (hphase : l.phase = .returned .cancelled) :
    l.cancelled = true ∨ l.receiverLive = false := by
  obtain ⟨script, es, hrun⟩ := hran
  have hcalm : l.cancelled = true ∨ l.receiverLive = false ∨ Quiet l := by
    refine hrun.invariant
      (J := fun l => l.cancelled = true ∨ l.receiverLive = false ∨ Quiet l) ?_
      (.inr (.inr quiet_start))
    intro l x l' _ hstep hl
    obtain ⟨-, -, hc, hr⟩ := step_frame hstep
    rcases hl with hl | hl | hl
    · exact .inl (by rw [hc, hl]; rfl)
    · exact .inr (.inl (by rw [hr, hl]; rfl))
    · cases x with
      | advance => exact .inr (.inr (hl.advance hstep))
      | noticeCancel =>
          change l.noticeCancel = some l' at hstep
          unfold Listener.noticeCancel at hstep
          rw [hl.cancelled] at hstep
          cases hstep
      | cancel => exact .inl (by simp [hc])
      | dropReceiver => exact .inr (.inl (by simp [hr]))
  rcases hcalm with hl | hl | hl
  · exact .inl hl
  · exact .inr hl
  · have hstays := hl.stays
    rw [hphase] at hstays
    cases hstays

/-! ### What a process can do in one step -/

variable {g : Deployment} {s t : Process g}

theorem newListener_ran (s : Process g) (h : PaymentHash) (script : Script) :
    Ran (s.newListener h script) := by
  refine ⟨script, (if s.cancelled then [.cancel] else []) ++
    (if s.consumer = .stopped then [.dropReceiver] else []), ?_⟩
  unfold Process.newListener
  cases hc : s.cancelled <;> by_cases hr : s.consumer = .stopped <;> simp [hr] <;>
    simp [Listener.step, subscribeInvoice]

/-- The steps of a process. -/
inductive Moved (s : Process g) : Process g → Prop where
  | pool {e : Event (gateway g)} {pool : Pool (gateway g)} : admitted e = true →
      s.pool.next e = some pool → requested s.pool e = none → Moved s { s with pool }
  | asked {e : Event (gateway g)} {pool : Pool (gateway g)} {h : PaymentHash} {script : Script} :
      admitted e = true → s.pool.next e = some pool → requested s.pool e = some h →
      Moved s ({ s with pool }.spawnListenerFor h script)
  | listener {l₁ l₂ : List Listener} {l l' : Listener} {x : InvoiceListener.Event}
      {new : List InvoiceUpdate} : s.listeners = l₁ ++ l :: l₂ →
      x = .advance ∨ x = .noticeCancel → l.step x = some l' →
      l'.forwarded = l.forwarded ++ new →
      Moved s { s with listeners := l₁ ++ l' :: l₂, channel := s.channel ++ new }
  | released {l₁ l₂ : List Listener} {l : Listener} {exit : SubscribeInvoiceExit} :
      s.listeners = l₁ ++ l :: l₂ → l.phase = .returned exit →
      Moved s { s with
        active := s.active.erase l.paymentHash
        listeners := l₁ ++ l₂
        ended := s.ended ++ [l] }
  | received {update : InvoiceUpdate} {rest : List InvoiceUpdate} {pool : Pool (gateway g)} :
      s.consumer = .waiting → s.channel = update :: rest →
      s.pool.next (.spawn (.handleInvoiceUpdate update)) = some pool →
      Moved s { s with
        pool
        channel := rest
        consumer := .handling s.pool.tasks.length
        handled := s.handled ++ [update] }
  | finished {consumer : Consumer} : s.consumer.finish s.pool = some consumer →
      Moved s { s with consumer }
  | stopped : s.consumer = .waiting → s.cancelled = true →
      Moved s { s with
        consumer := .stopped
        listeners := s.listeners.map fun l => { l with receiverLive := false } }
  | retried : s.sweep = .due → Moved s s
  | listed : s.sweep = .due →
      Moved s { s with sweep := .loading ((s.db.invoices.rows.filter fun r =>
        r.state = "open" ∨ r.state = "held").map Row.id) [] }
  | loaded {id : InvoiceId} {rest : List InvoiceId} {found : List PaymentHash}
      {invoice : Invoice} : s.sweep = .loading (id :: rest) found →
      Invoices.findById s.db id = .ok invoice →
      Moved s { s with sweep := .loading rest (found ++ [invoice.paymentHash]) }
  | skipped {id : InvoiceId} {rest : List InvoiceId} {found : List PaymentHash} :
      s.sweep = .loading (id :: rest) found →
      Moved s { s with sweep := .loading rest found, skipped := s.skipped ++ [id] }
  | gathered {found : List PaymentHash} : s.sweep = .loading [] found →
      Moved s { s with sweep := .spawning found }
  | spawned {h : PaymentHash} {rest : List PaymentHash} {script : Script} :
      s.sweep = .spawning (h :: rest) →
      Moved s ({ s with sweep := .spawning rest }.spawnListenerFor h script)
  | swept : s.sweep = .spawning [] → Moved s { s with sweep := .complete }
  | cancelled : Moved s s.cancel

theorem move_spec {i : ℕ} {step : Listener → Option Listener}
    (hsteps : ∀ l l', step l = some l' → ∃ x,
      (x = .advance ∨ x = .noticeCancel) ∧ l.step x = some l')
    (hmove : s.move i step = some t) : Moved s t := by
  unfold Process.move at hmove
  split at hmove
  case h_1 => cases hmove
  case h_2 l hl =>
    split at hmove
    case h_1 => cases hmove
    case h_2 l' hl' =>
      obtain ⟨x, hx, hstep⟩ := hsteps l l' hl'
      obtain ⟨new, hnew⟩ := (step_frame hstep).2.1
      obtain ⟨hi, hget⟩ := List.getElem?_eq_some_iff.mp hl
      have hsplit : s.listeners = s.listeners.take i ++ l :: s.listeners.drop (i + 1) := by
        rw [← hget, ← List.drop_eq_getElem_cons hi, List.take_append_drop]
      have hset : s.listeners.set i l' =
          s.listeners.take i ++ l' :: s.listeners.drop (i + 1) :=
        List.set_eq_take_append_cons_drop.trans (if_pos hi)
      cases hmove
      rw [hset, ← hnew, List.drop_left]
      exact .listener hsplit hx hstep hnew.symm

theorem release_spec {i : ℕ} (hrelease : s.release i = some t) : Moved s t := by
  unfold Process.release at hrelease
  split at hrelease
  case h_1 => cases hrelease
  case h_2 l hl =>
    split at hrelease
    case h_2 => cases hrelease
    case h_1 exit hphase =>
      obtain ⟨hi, hget⟩ := List.getElem?_eq_some_iff.mp hl
      have hsplit : s.listeners = s.listeners.take i ++ l :: s.listeners.drop (i + 1) := by
        rw [← hget, ← List.drop_eq_getElem_cons hi, List.take_append_drop]
      cases hrelease
      rw [List.eraseIdx_eq_take_drop_succ]
      exact .released hsplit hphase

theorem next_spec {e : MonitorEvent g} (hnext : s.next e = some t) : Moved s t := by
  cases e with
  | app e script =>
      simp only [Process.next, Process.app] at hnext
      split_ifs at hnext with hadmitted
      split at hnext
      case h_1 => cases hnext
      case h_2 pool hpool =>
        split at hnext
        case h_1 hnone =>
          cases hnext
          exact .pool hadmitted hpool hnone
        case h_2 h hsome =>
          cases hnext
          exact .asked hadmitted hpool hsome
  | advance i =>
      refine move_spec (fun l l' hl => ⟨.advance, .inl rfl, ?_⟩) hnext
      split_ifs at hl
      exact hl
  | noticeCancel i => exact move_spec (fun l l' hl => ⟨.noticeCancel, .inr rfl, hl⟩) hnext
  | release i => exact release_spec hnext
  | receive =>
      simp only [Process.next, Process.receive] at hnext
      split at hnext
      case h_2 => cases hnext
      case h_1 update rest hwaiting hchannel =>
        split at hnext
        case h_1 => cases hnext
        case h_2 pool hpool =>
          cases hnext
          exact .received hwaiting hchannel hpool
  | finish =>
      obtain ⟨consumer, hfinish, rfl⟩ := Option.map_eq_some_iff.mp hnext
      exact .finished hfinish
  | stop =>
      simp only [Process.next, Process.stop] at hnext
      split_ifs at hnext with hstop
      cases hnext
      exact .stopped hstop.1 hstop.2
  | list read =>
      simp only [Process.next, Process.list] at hnext
      split at hnext
      case h_2 => cases hnext
      case h_1 hdue =>
        split_ifs at hnext
        · cases hnext
          exact .listed hdue
        · cases hnext
          exact .retried hdue
  | load read =>
      simp only [Process.next, Process.load] at hnext
      split at hnext
      case h_3 => cases hnext
      case h_1 found hloading =>
        cases hnext
        exact .gathered hloading
      case h_2 id rest found hloading =>
        split at hnext
        case h_2 =>
          cases hnext
          exact .skipped hloading
        case h_1 invoice hread =>
          split_ifs at hread
          cases hnext
          exact .loaded hloading hread
  | spawnNext script =>
      simp only [Process.next, Process.spawnNext] at hnext
      split at hnext
      case h_3 => cases hnext
      case h_1 hspawning =>
        cases hnext
        exact .swept hspawning
      case h_2 h rest hspawning =>
        cases hnext
        exact .spawned hspawning
  | cancel =>
      cases hnext
      exact .cancelled

/-! ### One listener per hash, one lane per hash -/

/-- What the listeners of a hash have forwarded. -/
def lane (h : PaymentHash) (ls : List Listener) : List InvoiceUpdate :=
  ls.flatMap fun l => if l.paymentHash = h then l.forwarded else []

@[simp] theorem lane_nil (h : PaymentHash) : lane h [] = [] := rfl

@[simp] theorem lane_append (h : PaymentHash) (l₁ l₂ : List Listener) :
    lane h (l₁ ++ l₂) = lane h l₁ ++ lane h l₂ := List.flatMap_append

@[simp] theorem lane_cons (h : PaymentHash) (l : Listener) (ls : List Listener) :
    lane h (l :: ls) = (if l.paymentHash = h then l.forwarded else []) ++ lane h ls :=
  List.flatMap_cons

theorem lane_other {ls : List Listener} (hls : h ∉ ls.map Listener.paymentHash) :
    lane h ls = [] := by
  refine List.flatMap_eq_nil_iff.mpr fun l hl => if_neg fun hh => ?_
  exact hls (List.mem_map.mpr ⟨l, hl, hh⟩)

theorem lane_map {f : Listener → Listener} (hhash : ∀ l, (f l).paymentHash = l.paymentHash)
    (hforwarded : ∀ l, (f l).forwarded = l.forwarded) (ls : List Listener) :
    lane h (ls.map f) = lane h ls := by
  simp only [lane, List.flatMap_map, hhash, hforwarded]

/-- Everything the consumer has received or will receive, in order. -/
def updates (s : Process g) : List InvoiceUpdate := s.handled ++ s.channel

structure Orderly (s : Process g) : Prop where
  slots : ∀ h, h ∈ s.active ↔ h ∈ s.listeners.map Listener.paymentHash
  single : (s.listeners.map Listener.paymentHash).Nodup
  ran : ∀ l ∈ s.ended ++ s.listeners, Ran l
  /-- Nothing but the shutdown cancels a listener or drops the receiver. -/
  tokens : ∀ l ∈ s.listeners, l.cancelled = true ∨ l.receiverLive = false → s.cancelled = true
  stopped : s.consumer = .stopped → s.cancelled = true
  lanes : ∀ h, (updates s).filter (fun u => u.paymentHash = h) = lane h (s.ended ++ s.listeners)

theorem orderly_start (w : World) : Orderly (Process.start w : Process g) where
  slots h := by simp [Process.start]
  single := List.nodup_nil
  ran l hl := by cases hl
  tokens l hl := by cases hl
  stopped hstop := by cases hstop
  lanes h := rfl

/-- The pool, the sweep and the consumer's turns do not concern the listeners. -/
theorem Orderly.same (hs : Orderly s) (hactive : t.active = s.active)
    (hlisteners : t.listeners = s.listeners) (hended : t.ended = s.ended)
    (hcancelled : t.cancelled = s.cancelled) (hstop : t.consumer = .stopped → t.cancelled = true)
    (hupdates : updates t = updates s) : Orderly t where
  slots h := by rw [hactive, hlisteners]; exact hs.slots h
  single := hlisteners ▸ hs.single
  ran l hl := hs.ran l (by rwa [hended, hlisteners] at hl)
  tokens l hl hl' := hcancelled ▸ hs.tokens l (hlisteners ▸ hl) hl'
  stopped := hstop
  lanes h := by rw [hupdates, hended, hlisteners]; exact hs.lanes h

theorem Orderly.spawn (hs : Orderly s) (h : PaymentHash) (script : Script) :
    Orderly (s.spawnListenerFor h script) := by
  unfold Process.spawnListenerFor
  split_ifs with hactive
  · exact hs
  · have hnew : h ∉ s.listeners.map Listener.paymentHash := mt (hs.slots h).mpr hactive
    refine ⟨fun k => ?_, ?_, ?_, ?_, hs.stopped, fun k => ?_⟩
    · simp only [Finset.mem_insert, List.map_append, List.mem_append, hs.slots k, List.map_cons,
        List.map_nil, List.mem_singleton]
      exact or_comm
    · rw [List.map_append]
      exact hs.single.append (List.nodup_singleton _) (List.disjoint_singleton.mpr hnew)
    · intro l hl
      rw [← List.append_assoc] at hl
      rcases List.mem_append.mp hl with hl | hl
      · exact hs.ran l hl
      · exact List.mem_singleton.mp hl ▸ newListener_ran s h script
    · intro l hl htoken
      rcases List.mem_append.mp hl with hl | hl
      · exact hs.tokens l hl htoken
      · rw [List.mem_singleton.mp hl] at htoken
        rcases htoken with hcancelled | hlive
        · exact hcancelled
        · exact hs.stopped (not_not.mp (of_decide_eq_false hlive))
    · have hforwarded : (s.newListener h script).forwarded = [] := rfl
      change (updates s).filter _ = lane k (s.ended ++ (s.listeners ++ [s.newListener h script]))
      rw [← List.append_assoc, lane_append, lane_cons, hforwarded, ite_self, lane_nil,
        List.append_nil, List.append_nil]
      exact hs.lanes k

/-- A listener takes a step, and what it forwards enters the channel. -/
theorem Orderly.forward {l₁ l₂ : List Listener} {new : List InvoiceUpdate} (hs : Orderly s)
    (hsplit : s.listeners = l₁ ++ l :: l₂) (hx : x = .advance ∨ x = .noticeCancel)
    (hstep : l.step x = some l') (hnew : l'.forwarded = l.forwarded ++ new) :
    Orderly { s with listeners := l₁ ++ l' :: l₂, channel := s.channel ++ new } := by
  obtain ⟨hhash, -, hc, hr⟩ := step_frame hstep
  have hran : Ran l' := (hs.ran l (by simp [hsplit])).step hstep
  have hkeys : (l₁ ++ l' :: l₂).map Listener.paymentHash =
      s.listeners.map Listener.paymentHash := by
    simp only [hsplit, List.map_append, List.map_cons, hhash]
  refine ⟨fun k => ?_, hkeys ▸ hs.single, ?_, ?_, hs.stopped, fun k => ?_⟩
  · rw [hkeys]
    exact hs.slots k
  · intro j hj
    simp only [List.mem_append, List.mem_cons] at hj
    rcases hj with hj | hj | rfl | hj
    · exact hs.ran j (by simp [hj])
    · exact hs.ran j (by simp [hsplit, hj])
    · exact hran
    · exact hs.ran j (by simp [hsplit, hj])
  · intro j hj htoken
    rcases List.mem_append.mp hj with hj | hj
    · exact hs.tokens j (by simp [hsplit, hj]) htoken
    rcases List.mem_cons.mp hj with rfl | hj
    · refine hs.tokens l (by simp [hsplit]) ?_
      rcases hx with rfl | rfl <;> simpa [hc, hr] using htoken
    · exact hs.tokens j (by simp [hsplit, hj]) htoken
  · -- The other listeners of the list have other hashes.
    have hsingle := hs.single
    rw [hsplit, List.map_append, List.map_cons, List.nodup_append] at hsingle
    have hrest : l.paymentHash ∉ l₂.map Listener.paymentHash :=
      (List.nodup_cons.mp hsingle.2.1).1
    have hlane := hs.lanes k
    rw [hsplit, updates] at hlane
    simp only [lane_append, lane_cons] at hlane ⊢
    rw [updates, ← List.append_assoc, List.filter_append, hlane, hhash, hnew]
    by_cases hk : l.paymentHash = k
    · have hnewfilter : new.filter (fun u => u.paymentHash = k) = new := by
        refine List.filter_eq_self.mpr fun u hu => decide_eq_true ?_
        rw [← hk, ← hhash]
        exact hran.about u (by simp [hnew, hu])
      have hnil : lane k l₂ = [] := lane_other (hk ▸ hrest)
      rw [hnewfilter, if_pos hk, if_pos hk, hnil]
      simp only [List.append_nil, List.append_assoc]
    · have hnewfilter : new.filter (fun u => u.paymentHash = k) = [] := by
        refine List.filter_eq_nil_iff.mpr fun u hu hu' => hk ?_
        rw [← hhash, ← of_decide_eq_true hu']
        exact (hran.about u (by simp [hnew, hu])).symm
      rw [hnewfilter, if_neg hk, if_neg hk, List.append_nil]

theorem Orderly.release {l₁ l₂ : List Listener} (hs : Orderly s)
    (hsplit : s.listeners = l₁ ++ l :: l₂) :
    Orderly { s with
      active := s.active.erase l.paymentHash
      listeners := l₁ ++ l₂
      ended := s.ended ++ [l] } := by
  have hsingle := hs.single
  rw [hsplit] at hsingle
  have hperm : (l₁ ++ l :: l₂).Perm (l :: (l₁ ++ l₂)) := List.perm_middle
  have hcons : (l.paymentHash :: (l₁ ++ l₂).map Listener.paymentHash).Nodup :=
    (hperm.map Listener.paymentHash).nodup_iff.mp hsingle
  obtain ⟨hfresh, hrest⟩ := List.nodup_cons.mp hcons
  refine ⟨fun k => ?_, hrest, ?_, ?_, hs.stopped, fun k => ?_⟩
  · have hkeys : k ∈ s.listeners.map Listener.paymentHash ↔
        k = l.paymentHash ∨ k ∈ (l₁ ++ l₂).map Listener.paymentHash := by
      rw [hsplit, (hperm.map Listener.paymentHash).mem_iff, List.map_cons, List.mem_cons]
    rw [Finset.mem_erase, hs.slots k, hkeys]
    constructor
    · exact fun hk => hk.2.resolve_left hk.1
    · exact fun hk => ⟨fun hkl => hfresh (hkl ▸ hk), .inr hk⟩
  · intro j hj
    refine hs.ran j ?_
    rw [hsplit]
    simp only [List.mem_append, List.mem_cons, List.not_mem_nil, or_false] at hj ⊢
    tauto
  · intro j hj
    refine hs.tokens j ?_
    rw [hsplit]
    rcases List.mem_append.mp hj with hj | hj
    · exact List.mem_append_left _ hj
    · exact List.mem_append_right _ (List.mem_cons_of_mem _ hj)
  · have hlane := hs.lanes k
    rw [hsplit] at hlane
    change (updates s).filter _ = _
    rw [hlane]
    simp only [lane_append, lane_cons, lane_nil, List.append_assoc, List.append_nil,
      List.append_cancel_left_eq]
    by_cases hk : l.paymentHash = k
    · rw [List.map_append, List.mem_append, not_or] at hfresh
      have hnil : lane k l₁ = [] := lane_other (hk ▸ hfresh.1)
      rw [hnil, List.nil_append, List.nil_append]
    · rw [if_neg hk, List.nil_append, List.nil_append]

/-- The shutdown reaches all listeners. -/
theorem Orderly.informed {f : Listener → Listener} (hs : Orderly s)
    (hf : ∀ l, ∃ x, l.step x = some (f l)) (hforwarded : ∀ l, (f l).forwarded = l.forwarded)
    (hactive : t.active = s.active) (hlisteners : t.listeners = s.listeners.map f)
    (hended : t.ended = s.ended) (hcancelled : t.cancelled = true)
    (hupdates : updates t = updates s) : Orderly t := by
  have hhash (l : Listener) : (f l).paymentHash = l.paymentHash := by
    obtain ⟨x, hx⟩ := hf l
    exact (step_frame hx).1
  have hkeys : t.listeners.map Listener.paymentHash = s.listeners.map Listener.paymentHash := by
    rw [hlisteners, List.map_map]
    exact List.map_congr_left fun l _ => hhash l
  refine ⟨fun k => ?_, hkeys ▸ hs.single, ?_, fun _ _ _ => hcancelled, fun _ => hcancelled,
    fun k => ?_⟩
  · rw [hactive, hkeys]
    exact hs.slots k
  · intro j hj
    rw [hended, hlisteners] at hj
    rcases List.mem_append.mp hj with hj | hj
    · exact hs.ran j (List.mem_append_left _ hj)
    · obtain ⟨l, hl, rfl⟩ := List.mem_map.mp hj
      obtain ⟨x, hx⟩ := hf l
      exact (hs.ran l (List.mem_append_right _ hl)).step hx
  · rw [hupdates, hs.lanes k, hended, hlisteners, lane_append, lane_append,
      lane_map hhash hforwarded]

theorem Orderly.step (hs : Orderly s) (hmoved : Moved s t) : Orderly t := by
  cases hmoved with
  | pool | retried | listed | loaded | skipped | gathered | swept =>
      exact hs.same rfl rfl rfl rfl hs.stopped rfl
  | asked | spawned =>
      refine Orderly.spawn ?_ _ _
      exact hs.same rfl rfl rfl rfl hs.stopped rfl
  | listener hsplit hx hstep hnew => exact hs.forward hsplit hx hstep hnew
  | released hsplit _ => exact hs.release hsplit
  | received _ hchannel _ =>
      refine hs.same rfl rfl rfl rfl (fun hstop => by cases hstop) ?_
      simp [updates, hchannel]
  | finished hfinish =>
      refine hs.same rfl rfl rfl rfl (fun hstop => ?_) rfl
      cases (Consumer.finish_spec hfinish).1.symm.trans hstop
  | stopped _ hcancelled =>
      exact hs.informed (f := fun l => { l with receiverLive := false })
        (fun l => ⟨.dropReceiver, rfl⟩) (fun _ => rfl) rfl rfl rfl hcancelled rfl
  | cancelled =>
      exact hs.informed (f := fun l => { l with cancelled := true })
        (fun l => ⟨.cancel, rfl⟩) (fun _ => rfl) rfl rfl rfl rfl rfl

theorem orderly_life {w : World} {es : List (MonitorEvent g)} (hlife : Lives w es s) :
    Orderly s :=
  hlife.invariant (J := Orderly) (fun _ _ _ _ hnext hs => hs.step (next_spec hnext))
    (orderly_start w)

theorem spawn_active (s : Process g) (h : PaymentHash) (script : Script) :
    (s.spawnListenerFor h script).active = insert h s.active := by
  unfold Process.spawnListenerFor
  split_ifs with hactive
  · exact (Finset.insert_eq_of_mem hactive).symm
  · rfl

theorem spawn_frame (s : Process g) (h : PaymentHash) (script : Script) :
    let t := s.spawnListenerFor h script
    t.pool = s.pool ∧ updates t = updates s ∧ t.cancelled = s.cancelled ∧ t.sweep = s.sweep ∧
      t.skipped = s.skipped ∧ t.consumer = s.consumer ∧ t.handled = s.handled := by
  unfold Process.spawnListenerFor
  split_ifs
  · exact ⟨rfl, rfl, rfl, rfl, rfl, rfl, rfl⟩
  · exact ⟨rfl, rfl, rfl, rfl, rfl, rfl, rfl⟩

/-! ### One update at a time -/

/-- The handlers are those of the received updates, one at a time. -/
abbrev InTurn (s : Process g) : Prop := Serial handlerOf s.pool s.handled s.consumer

end LightningGateway.ListenerSlots
