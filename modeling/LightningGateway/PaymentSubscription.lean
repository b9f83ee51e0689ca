import LightningGateway.SerialHandlers
import LightningGateway.GatewayMachine

/-!
# The payment subscription of a process

`subscribe_payments` opens LND's stream of all payments, reads every message into an update
and sends it into a bounded channel; a lost stream is opened again. A consumer empties the
channel into `handle_payment_update`, one update at a time. The task that runs both waits
for the producer, then for the consumer, and posts to the supervisor how the subscription
ended. The other tasks of the gateway run beside it in one pool. The history that the
`Process` keeps of messages and updates is read by none of its steps.
-/
namespace LightningGateway.PaymentSubscription
open GuardedRuns Primitives EffectPrograms TaskPools SerialHandlers PaymentAggregate LndWire
open GatewayStore GatewayEffects GatewayMachine

/-- The capacity of the channel of payment updates. -/
def updateCapacity : ℕ := 64

/-- Where `subscribe_payments` stands. From `reading` to `driven` it is inside
`drive_stream`. -/
inductive Phase where
  | start
  /-- Boot-stub mode: only the token is awaited. -/
  | parked
  /-- At the head of the loop. -/
  | looping
  | opening
  | reading
  | sending (update : PaymentUpdate)
  /-- `drive_stream` has its result, the token is not looked at yet. -/
  | driven (res : Except LndError Unit)
  | backoff
  | returned (result : Except LndError Unit)
deriving DecidableEq, Repr

structure Process (g : Deployment) where
  pool : Pool (gateway g)
  connected : Bool
  phase : Phase
  /-- Sent and not yet received. -/
  channel : List PaymentUpdate
  consumer : Consumer
  /-- The token shared by all tasks. -/
  cancelled : Bool
  /-- What the task has posted to the supervisor. -/
  report : Option (Except String Unit)
  /-- The messages taken off LND's streams, latest last. -/
  read : List WirePayment
  /-- What the channel took, latest last. -/
  forwarded : List PaymentUpdate
  /-- What the consumer has received, latest last. -/
  handled : List PaymentUpdate

inductive SubscriptionEvent (g : Deployment) where
  | app (e : Event (gateway g))
  | advance
  /-- LND answers `track_payments_stream`. -/
  | opened (answer : Except LndError Unit)
  /-- What `stream.message()` resolves to. -/
  | message (m : Except Status (Option WirePayment))
  | noticeCancel
  | receive
  | finish
  | stop
  | unwind
  | exit
  | cancel

def handlerOf : Entry → Option PaymentUpdate
  | .handlePaymentUpdate update => some update
  | _ => none

/-- Only the consumer starts the handler of a payment update. -/
def admitted {g : Deployment} : Event (gateway g) → Bool
  | .spawn (.handlePaymentUpdate _) | .crash => false
  | _ => true

namespace Process

variable {g : Deployment}

/-- A process boots over the world that earlier ones have left. -/
def start (w : World) (connected : Bool) : Process g :=
  ⟨⟨w, []⟩, connected, .start, [], .waiting, false, none, [], [], []⟩

def app (s : Process g) (e : Event (gateway g)) : Option (Process g) :=
  if admitted e then (s.pool.next e).map fun pool => { s with pool } else none

/-- `tx.send` fails once the receiver is dropped and waits for room before that. -/
def sendUpdate (s : Process g) (update : PaymentUpdate) : Option (Process g) :=
  if s.consumer = .stopped then some { s with phase := .driven (.ok ()) }
  else if s.channel.length < updateCapacity then
    some { s with
      phase := .reading
      channel := s.channel ++ [update]
      forwarded := s.forwarded ++ [update] }
  else none

/-- The producer runs to its next await, or the await it is at completes. -/
def advance (s : Process g) : Option (Process g) :=
  match s.phase with
  | .start => some { s with phase := if s.connected then .looping else .parked }
  | .looping => some { s with phase := if s.cancelled then .returned (.ok ()) else .opening }
  | .sending update => s.sendUpdate update
  -- The result of the stream is only logged.
  | .driven _ => some { s with phase := if s.cancelled then .returned (.ok ()) else .backoff }
  | .backoff => some { s with phase := .looping }
  | .parked | .opening | .reading | .returned _ => none

def opened (s : Process g) (answer : Except LndError Unit) : Option (Process g) :=
  match s.phase, answer with
  | .opening, .ok () => some { s with phase := .reading }
  | .opening, .error _ => some { s with phase := .backoff }
  | _, _ => none

/-- One turn of `drive_stream`; what cannot be read is skipped. -/
def message (s : Process g) (m : Except Status (Option WirePayment)) : Option (Process g) :=
  match s.phase, m with
  | .reading, .error status => some { s with phase := .driven (.error (.rpc status)) }
  | .reading, .ok none => some { s with phase := .driven (.ok ()) }
  | .reading, .ok (some payment) =>
      match paymentToUpdate payment with
      | .ok update => some { s with phase := .sending update, read := s.read ++ [payment] }
      | .error _ => some { s with read := s.read ++ [payment] }
  | _, _ => none

/-- The branches of the `select!`s that await the token. -/
def noticeCancel (s : Process g) : Option (Process g) :=
  if s.cancelled then
    match s.phase with
    | .parked | .backoff => some { s with phase := .returned (.ok ()) }
    | .reading | .sending _ => some { s with phase := .driven (.ok ()) }
    | _ => none
  else none

def receive (s : Process g) : Option (Process g) :=
  match s.consumer, s.channel with
  | .waiting, update :: rest =>
      (s.pool.next (.spawn (.handlePaymentUpdate update))).map fun pool =>
        { s with
          pool
          channel := rest
          consumer := .handling s.pool.tasks.length
          handled := s.handled ++ [update] }
  | _, _ => none

/-- Errors of the handler are only logged. -/
def finish (s : Process g) : Option (Process g) :=
  (s.consumer.finish s.pool).map fun consumer => { s with consumer }

/-- The producer has dropped its end of the channel. -/
def senderGone (s : Process g) : Bool :=
  match s.phase with
  | .returned _ => true
  | _ => false

/-- The consumer returns on the token, or when an empty channel has lost its sender. -/
def stop (s : Process g) : Option (Process g) :=
  if s.consumer = .waiting ∧ (s.cancelled ∨ (s.senderGone ∧ s.channel = [])) then
    some { s with consumer := .stopped }
  else none

/-- A panic inside `handle_payment_update` ends the consumer's task. -/
def unwind (s : Process g) : Option (Process g) :=
  match s.consumer with
  | .handling i =>
      if s.pool.tasks[i]?.any Task.live then
        some { s with pool := s.pool.lose i, consumer := .stopped }
      else none
  | _ => none

/-- The exit reason, after the producer's result and the end of the consumer. -/
def exitReason (cancelled : Bool) (producerResult : Except LndError Unit) : Except String Unit :=
  if cancelled then .ok ()
  else
    match producerResult with
    | .ok () => .error "LND payment-subscription producer exited without cancellation"
    | .error _ => .error "LND payment-subscription producer error"

def exit (s : Process g) : Option (Process g) :=
  match s.phase, s.consumer, s.report with
  | .returned result, .stopped, none =>
      some { s with report := some (exitReason s.cancelled result) }
  | _, _, _ => none

def next (s : Process g) : SubscriptionEvent g → Option (Process g)
  | .app e => s.app e
  | .advance => s.advance
  | .opened answer => s.opened answer
  | .message m => s.message m
  | .noticeCancel => s.noticeCancel
  | .receive => s.receive
  | .finish => s.finish
  | .stop => s.stop
  | .unwind => s.unwind
  | .exit => s.exit
  | .cancel => some { s with cancelled := true }

end Process

/-- What can happen in the life of a process. -/
abbrev Lives {g : Deployment} (w : World) (connected : Bool) (es : List (SubscriptionEvent g))
    (s : Process g) : Prop :=
  GuardedRuns.Run Process.next (fun _ _ => True) (Process.start w connected) es s

/-- A check on the last state of a played list of events is a check on a life. -/
theorem exists_life_of_play {g : Deployment} (w : World) (connected : Bool)
    (es : List (SubscriptionEvent g)) (check : Process g → Bool)
    (h : (play Process.next (fun _ _ => true) (Process.start w connected) es).any check = true) :
    ∃ s, Lives w connected es s ∧ check s = true := by
  obtain ⟨s, hrun, hs⟩ := GuardedRuns.exists_run_of_play _ _ _ _ check h
  exact ⟨s, hrun.admitted (J := fun _ => True) (fun _ _ _ _ _ _ => trivial)
    (fun _ _ _ _ => trivial) trivial, hs⟩

/-! ### What one step can do -/

/-- The update that the producer is sending. -/
def Phase.inHand : Phase → List PaymentUpdate
  | .sending update => [update]
  | _ => []

/-- Neither sending nor back from the loop. -/
def Phase.between : Phase → Bool
  | .sending _ | .returned _ => false
  | _ => true

/-- The moves of the producer that neither read nor send. -/
inductive Turn {g : Deployment} (s : Process g) : Phase → Prop
  | onward {p : Phase} : s.phase.between = true → (∀ res, s.phase ≠ .driven res) →
      p.between = true → Turn s p
  | retry {res : Except LndError Unit} : s.phase = .driven res → s.cancelled = false →
      Turn s .backoff
  | leave : s.phase.between = true → s.cancelled = true → Turn s (.returned (.ok ()))
  | drop {update : PaymentUpdate} : s.phase = .sending update →
      s.cancelled = true ∨ s.consumer = .stopped → Turn s (.driven (.ok ()))

inductive Moved {g : Deployment} (s : Process g) : Process g → Prop
  | pool {e : Event (gateway g)} {pool : Pool (gateway g)} : admitted e = true →
      s.pool.next e = some pool → Moved s { s with pool }
  | turned {p : Phase} : Turn s p → Moved s { s with phase := p }
  | skipped {payment : WirePayment} {error : LndError} : s.phase = .reading →
      paymentToUpdate payment = .error error → Moved s { s with read := s.read ++ [payment] }
  | taken {payment : WirePayment} {update : PaymentUpdate} : s.phase = .reading →
      paymentToUpdate payment = .ok update →
      Moved s { s with phase := .sending update, read := s.read ++ [payment] }
  | sent {update : PaymentUpdate} : s.phase = .sending update → s.consumer ≠ .stopped →
      Moved s { s with
        phase := .reading
        channel := s.channel ++ [update]
        forwarded := s.forwarded ++ [update] }
  | received {update : PaymentUpdate} {rest : List PaymentUpdate} {pool : Pool (gateway g)} :
      s.consumer = .waiting → s.channel = update :: rest →
      s.pool.next (.spawn (.handlePaymentUpdate update)) = some pool →
      Moved s { s with
        pool
        channel := rest
        consumer := .handling s.pool.tasks.length
        handled := s.handled ++ [update] }
  | finished {consumer : Consumer} : s.consumer.finish s.pool = some consumer →
      Moved s { s with consumer }
  | stopped : s.consumer = .waiting → Moved s { s with consumer := .stopped }
  | unwound {i : ℕ} : s.consumer = .handling i →
      Moved s { s with pool := s.pool.lose i, consumer := .stopped }
  | exited {result : Except LndError Unit} : s.phase = .returned result →
      Moved s { s with report := some (Process.exitReason s.cancelled result) }
  | cancelled : Moved s { s with cancelled := true }

variable {g : Deployment} {s t : Process g}

theorem advance_spec (hadvance : s.advance = some t) : Moved s t := by
  unfold Process.advance at hadvance
  split at hadvance
  case h_1 hphase =>
    cases hadvance
    refine .turned (.onward (by rw [hphase]; rfl) (by rw [hphase]; exact fun _ => nofun) ?_)
    split_ifs <;> rfl
  case h_2 hphase =>
    cases hadvance
    by_cases hcancelled : s.cancelled = true
    · rw [if_pos hcancelled]
      exact .turned (.leave (by rw [hphase]; rfl) hcancelled)
    · rw [if_neg hcancelled]
      exact .turned
        (.onward (by rw [hphase]; rfl) (by rw [hphase]; exact fun _ => nofun) rfl)
  case h_3 update hphase =>
    unfold Process.sendUpdate at hadvance
    split_ifs at hadvance with hstopped hroom
    · cases hadvance
      exact .turned (.drop hphase (.inr hstopped))
    · cases hadvance
      exact .sent hphase hstopped
  case h_4 res hphase =>
    cases hadvance
    by_cases hcancelled : s.cancelled = true
    · rw [if_pos hcancelled]
      exact .turned (.leave (by rw [hphase]; rfl) hcancelled)
    · rw [if_neg hcancelled]
      exact .turned (.retry hphase (Bool.eq_false_iff.mpr hcancelled))
  case h_5 hphase =>
    cases hadvance
    exact .turned (.onward (by rw [hphase]; rfl) (by rw [hphase]; exact fun _ => nofun) rfl)
  all_goals cases hadvance

theorem opened_spec {answer : Except LndError Unit} (hopened : s.opened answer = some t) :
    Moved s t := by
  unfold Process.opened at hopened
  split at hopened
  case h_3 => cases hopened
  all_goals
    rename_i hphase
    cases hopened
    exact .turned (.onward (by rw [hphase]; rfl) (by rw [hphase]; exact fun _ => nofun) rfl)

theorem message_spec {m : Except Status (Option WirePayment)} (hmessage : s.message m = some t) :
    Moved s t := by
  unfold Process.message at hmessage
  split at hmessage
  case h_1 | h_2 =>
    rename_i hphase
    cases hmessage
    exact .turned (.onward (by rw [hphase]; rfl) (by rw [hphase]; exact fun _ => nofun) rfl)
  case h_3 payment hphase =>
    split at hmessage
    case h_1 update hread =>
      cases hmessage
      exact .taken hphase hread
    case h_2 error hread =>
      cases hmessage
      exact .skipped hphase hread
  case h_4 => cases hmessage

theorem noticeCancel_spec (hnotice : s.noticeCancel = some t) : Moved s t := by
  unfold Process.noticeCancel at hnotice
  split_ifs at hnotice with hcancelled
  split at hnotice
  case h_1 hphase | h_2 hphase =>
    cases hnotice
    exact .turned (.leave (by rw [hphase]; rfl) hcancelled)
  case h_3 hphase =>
    cases hnotice
    exact .turned (.onward (by rw [hphase]; rfl) (by rw [hphase]; exact fun _ => nofun) rfl)
  case h_4 update hphase =>
    cases hnotice
    exact .turned (.drop hphase (.inl hcancelled))
  case h_5 => cases hnotice

theorem next_spec {e : SubscriptionEvent g} (hnext : s.next e = some t) : Moved s t := by
  cases e with
  | app e =>
      simp only [Process.next, Process.app] at hnext
      split_ifs at hnext with hadmitted
      obtain ⟨pool, hpool, rfl⟩ := Option.map_eq_some_iff.mp hnext
      exact .pool hadmitted hpool
  | advance => exact advance_spec hnext
  | opened answer => exact opened_spec hnext
  | message m => exact message_spec hnext
  | noticeCancel => exact noticeCancel_spec hnext
  | receive =>
      simp only [Process.next, Process.receive] at hnext
      split at hnext
      case h_1 update rest hwaiting hchannel =>
        obtain ⟨pool, hpool, rfl⟩ := Option.map_eq_some_iff.mp hnext
        exact .received hwaiting hchannel hpool
      case h_2 => cases hnext
  | finish =>
      obtain ⟨consumer, hfinish, rfl⟩ := Option.map_eq_some_iff.mp hnext
      exact .finished hfinish
  | stop =>
      simp only [Process.next, Process.stop] at hnext
      split_ifs at hnext with hstop
      cases hnext
      exact .stopped hstop.1
  | unwind =>
      simp only [Process.next, Process.unwind] at hnext
      split at hnext
      case h_1 i hhandling =>
        split_ifs at hnext
        cases hnext
        exact .unwound hhandling
      case h_2 => cases hnext
  | exit =>
      simp only [Process.next, Process.exit] at hnext
      split at hnext
      case h_1 result hphase _ _ =>
        cases hnext
        exact .exited hphase
      case h_2 => cases hnext
  | cancel =>
      cases hnext
      exact .cancelled

/-! ### The subscription in order -/

/-- What the adapter reads out of a message. -/
def readable (payment : WirePayment) : Option PaymentUpdate := (paymentToUpdate payment).toOption

/-- Where the updates read off LND's streams are. -/
inductive Taken (s : Process g) : Prop where
  | kept : s.read.filterMap readable = s.forwarded ++ s.phase.inHand → Taken s
  /-- The token interrupted a send, and the producer is on its way out. -/
  | dropped {update : PaymentUpdate} : s.cancelled = true →
      (∃ result, s.phase = .driven result ∨ s.phase = .returned result) →
      s.read.filterMap readable = s.forwarded ++ [update] → Taken s
  /-- The receiver is gone. -/
  | deaf : s.consumer = .stopped → s.forwarded <+: s.read.filterMap readable → Taken s

structure Orderly (s : Process g) : Prop where
  queued : s.handled ++ s.channel = s.forwarded
  taken : Taken s
  serial : Serial handlerOf s.pool s.handled s.consumer
  /-- The producer returns on the token only. -/
  leaving : ∀ result, s.phase = .returned result → s.cancelled = true
  reported : ∀ reason, s.report = some reason → s.cancelled = true ∧ reason = .ok ()

theorem Taken.queued (hs : Taken s) : s.forwarded <+: s.read.filterMap readable := by
  cases hs with
  | kept hread => exact ⟨_, hread.symm⟩
  | dropped _ _ hread => exact ⟨_, hread.symm⟩
  | deaf _ hread => exact hread

/-- A step that neither reads nor sends. -/
theorem Taken.same (hs : Taken s) (hread : t.read = s.read) (hforwarded : t.forwarded = s.forwarded)
    (hphase : t.phase = s.phase) (hcancelled : s.cancelled = true → t.cancelled = true)
    (hstopped : s.consumer = .stopped → t.consumer = .stopped) : Taken t := by
  cases hs with
  | kept h => exact .kept (by rw [hread, hforwarded, hphase]; exact h)
  | dropped hc hp h =>
      exact .dropped (hcancelled hc) (by rw [hphase]; exact hp) (by rw [hread, hforwarded]; exact h)
  | deaf hc h => exact .deaf (hstopped hc) (by rw [hread, hforwarded]; exact h)

theorem inHand_between {p : Phase} (hp : p.between = true) : p.inHand = [] := by
  cases p <;> first | rfl | cases hp

theorem Taken.turned {p : Phase} (hs : Taken s) (hturn : Turn s p) :
    Taken { s with phase := p } := by
  cases hs with
  | deaf hc h => exact .deaf hc h
  | kept h =>
      cases hturn with
      | onward hbetween _ hp =>
          rw [inHand_between hbetween, ← inHand_between hp] at h
          exact .kept h
      | retry hphase _ =>
          rw [hphase] at h
          exact .kept h
      | leave hbetween _ =>
          rw [inHand_between hbetween] at h
          exact .kept h
      | drop hphase hwhy =>
          rw [hphase] at h
          rcases hwhy with hcancelled | hstopped
          · exact .dropped hcancelled ⟨_, .inl rfl⟩ h
          · exact .deaf hstopped ⟨_, h.symm⟩
  | dropped hc hp h =>
      obtain ⟨result, hp | hp⟩ := hp
      · cases hturn with
        | onward _ hne _ => exact absurd hp (hne result)
        | retry _ hnot => rw [hc] at hnot; cases hnot
        | leave _ _ => exact .dropped hc ⟨_, .inr rfl⟩ h
        | drop hphase _ => cases hp.symm.trans hphase
      · cases hturn with
        | onward hbetween _ _ | leave hbetween _ => rw [hp] at hbetween; cases hbetween
        | retry hphase _ | drop hphase _ => cases hp.symm.trans hphase

theorem Taken.reading (hs : Taken s) (hphase : s.phase = .reading) :
    s.read.filterMap readable = s.forwarded ∨
      (s.consumer = .stopped ∧ s.forwarded <+: s.read.filterMap readable) := by
  cases hs with
  | kept h =>
      rw [hphase] at h
      exact .inl (h.trans (List.append_nil _))
  | dropped _ hp _ =>
      rw [hphase] at hp
      obtain ⟨_, hp | hp⟩ := hp <;> cases hp
  | deaf hc h => exact .inr ⟨hc, h⟩

theorem Orderly.step (hs : Orderly s) (hmoved : Moved s t) : Orderly t := by
  cases hmoved with
  | pool hadmitted hpool =>
      refine ⟨hs.queued, hs.taken.same rfl rfl rfl id id, ?_, hs.leaving, hs.reported⟩
      refine hs.serial.next (fun x hx => ?_) hpool
      subst hx
      cases x with
      | handlePaymentUpdate update => cases hadmitted
      | _ => rfl
  | turned hturn =>
      refine ⟨hs.queued, hs.taken.turned hturn, hs.serial, fun result hresult => ?_, hs.reported⟩
      cases hturn with
      | onward _ _ hp => cases hresult; cases hp
      | retry | drop => cases hresult
      | leave _ hcancelled => exact hcancelled
  | @skipped payment error hphase hread =>
      refine ⟨hs.queued, ?_, hs.serial, hs.leaving, hs.reported⟩
      have hnone : readable payment = none := by rw [readable, hread]; rfl
      have hsame : (s.read ++ [payment]).filterMap readable = s.read.filterMap readable := by
        rw [List.filterMap_append, List.filterMap_cons, hnone]
        exact List.append_nil _
      rcases hs.taken.reading hphase with h | ⟨hstopped, h⟩
      · refine .kept ?_
        rw [hsame, h, hphase]
        exact (List.append_nil _).symm
      · exact .deaf hstopped (by rw [hsame]; exact h)
  | @taken payment update hphase hread =>
      refine ⟨hs.queued, ?_, hs.serial, (fun _ hresult => by cases hresult), hs.reported⟩
      have hsome : readable payment = some update := by rw [readable, hread]; rfl
      rcases hs.taken.reading hphase with h | ⟨hstopped, h⟩
      · refine .kept ?_
        rw [List.filterMap_append, h, List.filterMap_cons, hsome]
        rfl
      · exact .deaf hstopped (h.trans (by rw [List.filterMap_append]; exact List.prefix_append _ _))
  | @sent update hphase hlive =>
      refine ⟨?_, ?_, hs.serial, (fun _ hresult => by cases hresult), hs.reported⟩
      · rw [← List.append_assoc, hs.queued]
      · cases hs.taken with
        | kept h =>
            rw [hphase] at h
            exact .kept (h.trans (List.append_nil _).symm)
        | dropped _ hp _ =>
            rw [hphase] at hp
            obtain ⟨_, hp | hp⟩ := hp <;> cases hp
        | deaf hstopped _ => exact absurd hstopped hlive
  | received hwaiting hchannel hpool =>
      have hqueued := hs.queued
      rw [hchannel] at hqueued
      have hserial := hs.serial
      rw [hwaiting] at hserial
      refine ⟨?_, hs.taken.same rfl rfl rfl id (fun hstopped => ?_),
        hserial.receive rfl hpool, hs.leaving, hs.reported⟩
      · rw [List.append_assoc]
        exact hqueued
      · cases hwaiting.symm.trans hstopped
  | finished hfinish =>
      refine ⟨hs.queued, hs.taken.same rfl rfl rfl id (fun hstopped => ?_),
        hs.serial.finish hfinish, hs.leaving, hs.reported⟩
      obtain ⟨-, i, hhandling, -⟩ := Consumer.finish_spec hfinish
      cases hhandling.symm.trans hstopped
  | stopped hwaiting =>
      refine ⟨hs.queued, hs.taken.same rfl rfl rfl id (fun _ => rfl),
        hs.serial.free fun i hi => ?_, hs.leaving, hs.reported⟩
      cases hwaiting.symm.trans hi
  | unwound hhandling =>
      have hserial := hs.serial
      rw [hhandling] at hserial
      exact ⟨hs.queued, hs.taken.same rfl rfl rfl id (fun _ => rfl), hserial.unwind, hs.leaving,
        hs.reported⟩
  | exited hphase =>
      have hcancelled := hs.leaving _ hphase
      refine ⟨hs.queued, hs.taken.same rfl rfl rfl id id, hs.serial, hs.leaving, ?_⟩
      rintro reason ⟨⟩
      exact ⟨hcancelled, by unfold Process.exitReason; rw [if_pos hcancelled]⟩
  | cancelled =>
      exact ⟨hs.queued, hs.taken.same rfl rfl rfl (fun _ => rfl) id, hs.serial,
        fun _ _ => rfl, fun reason hreason => ⟨rfl, (hs.reported reason hreason).2⟩⟩

theorem orderly_life {w : World} {connected : Bool} {es : List (SubscriptionEvent g)}
    (hlife : Lives w connected es s) : Orderly s := by
  refine hlife.invariant (J := Orderly)
    (fun _ _ _ _ hnext hs => hs.step (next_spec hnext)) ?_
  exact ⟨rfl, .kept rfl, Serial.empty (M := gateway g) w, fun _ hresult => (by cases hresult),
    fun _ hreason => (by cases hreason)⟩

/-- Across every reconnect and whatever else the gateway does meanwhile: the channel takes the
updates that LND's messages are read into, in the order of the messages; while the consumer
lives and nobody cancels, all of them but the one being sent. Every received update has one
handler, in the order of the channel, and at most one handler has a call left. -/
theorem transitions_in_order {w : World} {connected : Bool} {es : List (SubscriptionEvent g)}
    (hlife : Lives w connected es s) :
    s.forwarded <+: s.read.filterMap readable ∧
      (s.consumer ≠ .stopped → s.cancelled = false →
        s.read.filterMap readable = s.handled ++ s.channel ++ s.phase.inHand) ∧
      s.handled ++ s.channel = s.forwarded ∧
      s.pool.tasks.filterMap (handles handlerOf) = s.handled ∧
      ∀ (i j : ℕ) (t t' : Task (gateway g)), s.pool.tasks[i]? = some t →
        s.pool.tasks[j]? = some t' → (handles handlerOf t).isSome = true →
        (handles handlerOf t').isSome = true → t.live = true → t'.live = true → i = j := by
  have hs := orderly_life hlife
  refine ⟨hs.taken.queued, fun hlive hnot => ?_, hs.queued, hs.serial.started,
    fun i j t t' hi hj ht ht' hl hl' => hs.serial.unique hi hj ht ht' hl hl'⟩
  cases hs.taken with
  | kept h => rw [h, hs.queued]
  | dropped hcancelled _ _ => rw [hnot] at hcancelled; cases hcancelled
  | deaf hstopped _ => exact absurd hstopped hlive

/-- LND reports a payment settled; the stream breaks and its successor repeats the report. -/
def repeatedReport : List (SubscriptionEvent Sample.deployment) :=
  let settled := Sample.message 2 Sample.preimage.toHex
  [.advance, .advance, .opened (.ok ()), .message (Sample.message 7 ""), .message settled,
    .advance, .receive, .message (.error ⟨Status.unavailable, "gone"⟩), .advance, .advance,
    .advance, .opened (.ok ()), .message settled, .app (.step 0 (.served Sample.noon)), .finish,
    .advance]

theorem transitions_in_order_repeated :
    ∃ s, Lives World.empty true repeatedReport s ∧ s.read.length = 3 ∧
      s.handled = [Sample.settledUpdate] ∧ s.channel = [Sample.settledUpdate] ∧
      s.read.filterMap readable = s.handled ++ s.channel ++ s.phase.inHand := by
  obtain ⟨s, hlife, hc⟩ := exists_life_of_play World.empty true repeatedReport
    (fun s => s.read.length = 3 ∧ s.handled = [Sample.settledUpdate] ∧
      s.channel = [Sample.settledUpdate] ∧ s.consumer = .waiting ∧ s.cancelled = false)
    (by decide +kernel)
  obtain ⟨hlength, hhandled, hchannel, hwaiting, hnot⟩ := of_decide_eq_true hc
  have hall := (transitions_in_order hlife).2.1 (by rw [hwaiting]; decide) hnot
  exact ⟨s, hlife, hlength, hhandled, hchannel, hall⟩

/-! ### A dead consumer -/

/-- Nothing starts the consumer again. -/
theorem stopped_step (hmoved : Moved s t) (hstopped : s.consumer = .stopped) :
    t.consumer = .stopped ∧ t.handled = s.handled ∧ t.forwarded = s.forwarded := by
  cases hmoved with
  | sent _ hlive => exact absurd hstopped hlive
  | received hwaiting _ _ | stopped hwaiting => cases hwaiting.symm.trans hstopped
  | finished hfinish =>
      obtain ⟨-, i, hhandling, -⟩ := Consumer.finish_spec hfinish
      cases hhandling.symm.trans hstopped
  | unwound hhandling => cases hhandling.symm.trans hstopped
  | _ => exact ⟨hstopped, rfl, rfl⟩

/-- The consumer's task can end on a panic of a handler. From then on no update is forwarded
or handled, whatever LND sends; the producer goes on, and the supervisor hears of it only when
it cancels the token itself, as a clean exit. -/
theorem dead_consumer_unreported {w : World} {connected : Bool}
    {es es' : List (SubscriptionEvent g)} (hlife : Lives w connected es s)
    (hstopped : s.consumer = .stopped) (hrun : Run Process.next (fun _ _ => True) s es' t) :
    t.forwarded = s.forwarded ∧
      t.pool.tasks.filterMap (handles handlerOf) = s.pool.tasks.filterMap (handles handlerOf) ∧
      (t.cancelled = false → t.report = none ∧ ∀ result, t.phase ≠ .returned result) ∧
      ∀ reason, t.report = some reason → reason = .ok () := by
  have hs := orderly_life hlife
  have ht := orderly_life (hlife.append hrun)
  obtain ⟨-, hhandled, hforwarded⟩ := hrun.invariant
    (J := fun u => u.consumer = .stopped ∧ u.handled = s.handled ∧ u.forwarded = s.forwarded)
    (fun u _ v _ hnext hu => by
      obtain ⟨hc, hh, hf⟩ := stopped_step (next_spec hnext) hu.1
      exact ⟨hc, hh.trans hu.2.1, hf.trans hu.2.2⟩)
    ⟨hstopped, rfl, rfl⟩
  refine ⟨hforwarded, ?_, fun hnot => ⟨?_, fun result hphase => ?_⟩,
    fun reason hreason => (ht.reported reason hreason).2⟩
  · rw [ht.serial.started, hs.serial.started, hhandled]
  · cases hreport : t.report with
    | none => rfl
    | some reason =>
        rw [(ht.reported reason hreport).1] at hnot
        cases hnot
  · rw [ht.leaving result hphase] at hnot
    cases hnot

/-- The first handler panics. -/
def panicked : List (SubscriptionEvent Sample.deployment) :=
  [.advance, .advance, .opened (.ok ()), .message (Sample.message 2 Sample.preimage.toHex),
    .advance, .receive, .unwind]

/-- The producer cannot send the next report, opens the stream again and goes on reading. -/
def unheard : List (SubscriptionEvent Sample.deployment) :=
  [.message (Sample.message 3 ""), .advance, .advance, .advance, .advance, .opened (.ok ()),
    .message (Sample.message 3 "")]

theorem dead_consumer_unreported_unheard :
    ∃ s t, Lives World.empty true panicked s ∧
      Run Process.next (fun _ _ => True) s unheard t ∧
      t.read.length = 3 ∧ t.forwarded.length = 1 ∧ t.report = none := by
  obtain ⟨s, hlife, hs⟩ := exists_life_of_play World.empty true panicked
    (fun s => s.consumer = .stopped ∧ s.forwarded.length = 1 ∧
      (play Process.next (fun _ _ => true) s unheard).any
        (fun t => t.read.length = 3 ∧ t.cancelled = false) = true)
    (by decide +kernel)
  obtain ⟨hstopped, hlength, hplay⟩ := of_decide_eq_true hs
  obtain ⟨t, hrun, ht⟩ := GuardedRuns.exists_run_of_play _ _ _ _ _ hplay
  obtain ⟨hread, hnot⟩ := of_decide_eq_true ht
  have hrun' : Run Process.next (fun _ _ => True) s unheard t :=
    hrun.admitted (J := fun _ => True) (fun _ _ _ _ _ _ => trivial) (fun _ _ _ _ => trivial)
      trivial
  obtain ⟨hforwarded, -, hdark, -⟩ := dead_consumer_unreported hlife hstopped hrun'
  exact ⟨s, t, hlife, hrun', hread, by rw [hforwarded, hlength], (hdark hnot).1⟩

end LightningGateway.PaymentSubscription
