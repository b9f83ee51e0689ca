import LightningGateway.FirstReports
import LightningGateway.GuardedRuns
import LightningGateway.PaymentSubscription

/-!
# The supervisor of a process

`run_cmd` spawns its servers, its two consumers of LND's updates and the handler of shutdown
signals, waits for the first of them to report how it ended, cancels the token that all share
and awaits the tasks one after the other, each for a bounded time. The clock counts seconds.
-/
namespace LightningGateway.Supervisor
open GuardedRuns FirstReports LndWire

/-- The tasks whose handles `run_cmd` collects. -/
inductive ServerTask where
  | grpc
  | graphql
  | health
  | invoiceUpdates
  | paymentSubscription
  | signal
deriving DecidableEq, Repr

/-- In the order of their spawns. -/
def ServerTask.handles : List ServerTask :=
  [.grpc, .graphql, .health, .invoiceUpdates, .paymentSubscription, .signal]

theorem ServerTask.mem_handles (task : ServerTask) : task ∈ ServerTask.handles := by
  cases task <;> decide

instance : Fintype ServerTask := ⟨⟨ServerTask.handles, by decide⟩, ServerTask.mem_handles⟩

/-- An error stands for its outermost message. -/
abbrev ExitResult := Except String Unit

/-- Where the signal handler stands. -/
inductive SignalStage where
  | waiting
  | received
  /-- Health says `NotServing` since the time given; the grace window runs. -/
  | flipped (since : ℕ)
  /-- The token is cancelled. -/
  | drained (since : ℕ)
deriving DecidableEq, Repr

inductive Stage where
  | supervising
  /-- Awaiting the first of `rest` since the time given. -/
  | draining (reason : ExitResult) (rest : List ServerTask) (since : ℕ)
  /-- `run_cmd` has returned, without a reason when the channel was closed. -/
  | exited (reason : Option ExitResult)

/-- `took`, `panicked` and `aborted` are a history: no step reads when the reason was taken or
which tasks have panicked. -/
structure Gateway where
  tasks : Group ServerTask ExitResult
  signal : SignalStage
  /-- What the gRPC health service answers. -/
  serving : Bool
  /-- The token shared by all tasks. -/
  cancelled : Bool
  stage : Stage
  clock : ℕ
  took : Option ℕ
  panicked : List ServerTask
  /-- The tasks that were told to abort. -/
  aborted : List ServerTask

inductive SupervisorEvent where
  | tick
  /-- A server's future resolves. -/
  | serves (task : ServerTask) (result : ExitResult)
  /-- The loop of the invoice-update consumer breaks: on the token, or on a closed channel. -/
  | invoiceUpdates (disconnected : Bool)
  | paymentSubscription (producerResult : Except LndError Unit)
  /-- `wait_for_shutdown_signal` resolves. -/
  | signal (result : ExitResult)
  | setNotServing
  | graceElapsed
  | signalExits
  | panic (task : ServerTask)
  /-- An abort takes effect. -/
  | abort (task : ServerTask)
  /-- `receive.recv()` resolves. -/
  | receive
  /-- The handle awaited resolves. -/
  | joined
  | timeout
  /-- `jobs.shutdown` is back, whose error is only logged. -/
  | jobsShutdown

namespace Gateway

def start : Gateway := ⟨.start, .waiting, true, false, .supervising, 0, none, [], []⟩

/-- `report_exit`: the last thing a task does. -/
def reportExit (s : Gateway) (task : ServerTask) (result : ExitResult) : Option Gateway :=
  (s.tasks.post task result).map fun tasks => { s with tasks }

def live (s : Gateway) (task : ServerTask) : Bool := s.tasks.standing task = .running

/-- The context that `run_cmd` adds to the error of a server. -/
def serverContext : ServerTask → Option String
  | .grpc => some "gRPC server error"
  | .graphql => some "GraphQL subgraph server error"
  | .health => some "HTTP health server error"
  | .invoiceUpdates | .paymentSubscription | .signal => none

def serves (s : Gateway) (task : ServerTask) (result : ExitResult) : Option Gateway :=
  match serverContext task with
  | some context => s.reportExit task (result.mapError fun _ => context)
  | none => none

/-- Who keeps an `App`, and in it the dispatcher with a sender of invoice updates: `run_cmd`
itself (`none`) and the tasks that were given a clone. -/
def senders (s : Gateway) : List (Option ServerTask) :=
  none :: ([.graphql, .invoiceUpdates, .paymentSubscription].filter s.live).map some

/-- Whether the consumer's `select!` can leave its loop this way. -/
def breaks (s : Gateway) : (disconnected : Bool) → Bool
  | false => s.cancelled
  | true => s.senders.isEmpty

/-- What its loop breaks with. -/
def outcome : (disconnected : Bool) → ExitResult
  | false => .ok ()
  | true => .error "invoice-update consumer exited: every listener Sender dropped"

def invoiceUpdates (s : Gateway) (disconnected : Bool) : Option Gateway :=
  if s.breaks disconnected then
    s.reportExit .invoiceUpdates (if s.cancelled then .ok () else outcome disconnected)
  else none

def paymentSubscription (s : Gateway) (producerResult : Except LndError Unit) : Option Gateway :=
  s.reportExit .paymentSubscription
    (PaymentSubscription.Process.exitReason s.cancelled producerResult)

/-- The handlers of the signals cannot be installed, or one of the signals arrives. -/
def signalReceived (s : Gateway) (result : ExitResult) : Option Gateway :=
  if s.signal = .waiting ∧ s.live .signal then
    match result with
    | .ok () => some { s with signal := .received }
    | .error _ => s.reportExit .signal (.error "install shutdown signal handler")
  else none

def setNotServing (s : Gateway) : Option Gateway :=
  if s.signal = .received ∧ s.live .signal then
    some { s with signal := .flipped s.clock, serving := false }
  else none

def graceElapsed (grace : ℕ) (s : Gateway) : Option Gateway :=
  match s.signal with
  | .flipped since =>
      if since + grace ≤ s.clock ∧ s.live .signal then
        some { s with signal := .drained since, cancelled := true }
      else none
  | .waiting | .received | .drained _ => none

def signalExits (s : Gateway) : Option Gateway :=
  match s.signal with
  | .drained _ => s.reportExit .signal (.ok ())
  | .waiting | .received | .flipped _ => none

def panic (s : Gateway) (task : ServerTask) : Option Gateway :=
  (s.tasks.lose task).map fun tasks => { s with tasks, panicked := task :: s.panicked }

def abort (s : Gateway) (task : ServerTask) : Option Gateway :=
  if task ∈ s.aborted then (s.tasks.lose task).map fun tasks => { s with tasks } else none

def receive (s : Gateway) : Option Gateway :=
  s.tasks.receive.map fun tasks =>
    match tasks.taken with
    | some (some reason) =>
        { s with
          tasks
          cancelled := true
          stage := .draining reason ServerTask.handles s.clock
          took := some s.clock }
    | some none | none => { s with tasks, stage := .exited none }

def drainDeadline (grace : ℕ) : ℕ := grace + 5

/-- A handle resolves when its task has ended, however it has. -/
def joined (s : Gateway) : Option Gateway :=
  match s.stage with
  | .draining reason (task :: rest) _ =>
      if s.live task then none else some { s with stage := .draining reason rest s.clock }
  | _ => none

/-- `timeout` looks at the handle before it looks at the time. -/
def timeout (grace : ℕ) (s : Gateway) : Option Gateway :=
  match s.stage with
  | .draining reason (task :: rest) since =>
      if s.live task ∧ since + drainDeadline grace ≤ s.clock then
        some { s with
          stage := .draining reason rest s.clock
          aborted := task :: s.aborted }
      else none
  | _ => none

def jobsShutdown (s : Gateway) : Option Gateway :=
  match s.stage with
  | .draining reason [] _ => some { s with stage := .exited (some reason) }
  | _ => none

/-- What `run_cmd` returns when no task is left to post a reason. -/
def unreported : ExitResult := .error "all server tasks exited without reporting status"

def result (s : Gateway) : Option ExitResult :=
  match s.stage with
  | .exited reason => some (reason.getD unreported)
  | .supervising | .draining _ _ _ => none

def next (grace : ℕ) (s : Gateway) (e : SupervisorEvent) : Option Gateway :=
  -- With the return of `run_cmd` everything ends.
  if s.result.isSome then none
  else
    match e with
    | .tick => some { s with clock := s.clock + 1 }
    | .serves task result => s.serves task result
    | .invoiceUpdates disconnected => s.invoiceUpdates disconnected
    | .paymentSubscription producerResult => s.paymentSubscription producerResult
    | .signal result => s.signalReceived result
    | .setNotServing => s.setNotServing
    | .graceElapsed => s.graceElapsed grace
    | .signalExits => s.signalExits
    | .panic task => s.panic task
    | .abort task => s.abort task
    | .receive => s.receive
    | .joined => s.joined
    | .timeout => s.timeout grace
    | .jobsShutdown => s.jobsShutdown

end Gateway

/-- What can happen from the boot of the supervisor on. -/
abbrev Runs (grace : ℕ) (es : List SupervisorEvent) (s : Gateway) : Prop :=
  GuardedRuns.Run (Gateway.next grace) (fun _ _ => True) .start es s

/-- A check on the last state of a played list of events is a check on a run. -/
theorem exists_runs_of_play (grace : ℕ) (es : List SupervisorEvent) (check : Gateway → Bool)
    (h : (play (Gateway.next grace) (fun _ _ => true) .start es).any check = true) :
    ∃ s, Runs grace es s ∧ check s = true := by
  obtain ⟨s, hrun, hs⟩ := GuardedRuns.exists_run_of_play _ _ _ _ check h
  exact ⟨s, hrun.admitted (J := fun _ => True) (fun _ _ _ _ _ _ => trivial)
    (fun _ _ _ _ => trivial) trivial, hs⟩

/-! ### What one step can do -/

/-- What a task may report, in the state in which it does. -/
inductive Reports (s : Gateway) : ServerTask → ExitResult → Prop
  | server {task : ServerTask} {result : ExitResult} :
      (Gateway.serverContext task).isSome = true → Reports s task result
  | invoiceUpdates : s.cancelled = true → Reports s .invoiceUpdates (.ok ())
  | paymentSubscription (producerResult : Except LndError Unit) :
      Reports s .paymentSubscription
        (PaymentSubscription.Process.exitReason s.cancelled producerResult)
  | notInstalled {message : String} : s.signal = .waiting → Reports s .signal (.error message)
  | signal {since : ℕ} : s.signal = .drained since → Reports s .signal (.ok ())

inductive Moved (grace : ℕ) (s : Gateway) : Gateway → Prop
  | ticked : Moved grace s { s with clock := s.clock + 1 }
  | reported {task : ServerTask} {result : ExitResult} {tasks : Group ServerTask ExitResult} :
      Reports s task result → s.tasks.post task result = some tasks →
      Moved grace s { s with tasks }
  | signalled : s.signal = .waiting → Moved grace s { s with signal := .received }
  | flipped : s.signal = .received →
      Moved grace s { s with signal := .flipped s.clock, serving := false }
  | graceElapsed {since : ℕ} : s.signal = .flipped since → since + grace ≤ s.clock →
      Moved grace s { s with signal := .drained since, cancelled := true }
  | panicked {task : ServerTask} {tasks : Group ServerTask ExitResult} :
      s.tasks.lose task = some tasks →
      Moved grace s { s with tasks, panicked := task :: s.panicked }
  | lost {task : ServerTask} {tasks : Group ServerTask ExitResult} : task ∈ s.aborted →
      s.tasks.lose task = some tasks → Moved grace s { s with tasks }
  | taken {tasks : Group ServerTask ExitResult} {reason : ExitResult} :
      s.tasks.receive = some tasks → tasks.taken = some (some reason) →
      Moved grace s { s with
        tasks
        cancelled := true
        stage := .draining reason ServerTask.handles s.clock
        took := some s.clock }
  | closed {tasks : Group ServerTask ExitResult} : s.tasks.receive = some tasks →
      tasks.taken = some none →
      Moved grace s { s with tasks, stage := .exited none }
  | joined {reason : ExitResult} {task : ServerTask} {rest : List ServerTask} {since : ℕ} :
      s.stage = .draining reason (task :: rest) since → s.live task = false →
      Moved grace s { s with stage := .draining reason rest s.clock }
  | timedOut {reason : ExitResult} {task : ServerTask} {rest : List ServerTask} {since : ℕ} :
      s.stage = .draining reason (task :: rest) since →
      since + Gateway.drainDeadline grace ≤ s.clock →
      Moved grace s { s with
        stage := .draining reason rest s.clock
        aborted := task :: s.aborted }
  | shutDown {reason : ExitResult} {since : ℕ} : s.stage = .draining reason [] since →
      Moved grace s { s with stage := .exited (some reason) }

variable {grace : ℕ} {s t : Gateway}

theorem reportExit_spec {task : ServerTask} {result : ExitResult}
    (hreport : s.reportExit task result = some t) (hmay : Reports s task result) :
    Moved grace s t := by
  obtain ⟨tasks, htasks, rfl⟩ := Option.map_eq_some_iff.mp hreport
  exact .reported hmay htasks

theorem serves_spec {task : ServerTask} {result : ExitResult}
    (hserves : s.serves task result = some t) : Moved grace s t := by
  unfold Gateway.serves at hserves
  split at hserves
  case h_1 context hcontext =>
    exact reportExit_spec hserves (.server (by rw [hcontext]; rfl))
  case h_2 => cases hserves

/-- `run_cmd` keeps a sender, so the consumer leaves its loop on the token only. -/
theorem breaks_cancelled {disconnected : Bool} (hbreaks : s.breaks disconnected = true) :
    disconnected = false ∧ s.cancelled = true := by
  cases disconnected with
  | false => exact ⟨rfl, hbreaks⟩
  | true => cases hbreaks

theorem invoiceUpdates_spec {disconnected : Bool}
    (hinvoice : s.invoiceUpdates disconnected = some t) : Moved grace s t := by
  unfold Gateway.invoiceUpdates at hinvoice
  split_ifs at hinvoice with hbreaks hcancelled
  · exact reportExit_spec hinvoice (.invoiceUpdates hcancelled)
  · exact absurd (breaks_cancelled hbreaks).2 hcancelled

theorem signalReceived_spec {result : ExitResult} (hsignal : s.signalReceived result = some t) :
    Moved grace s t := by
  unfold Gateway.signalReceived at hsignal
  split_ifs at hsignal with hwaiting
  cases result with
  | ok =>
      cases hsignal
      exact .signalled hwaiting.1
  | error message => exact reportExit_spec hsignal (.notInstalled hwaiting.1)

theorem setNotServing_spec (hset : s.setNotServing = some t) : Moved grace s t := by
  unfold Gateway.setNotServing at hset
  split_ifs at hset with hreceived
  cases hset
  exact .flipped hreceived.1

theorem graceElapsed_spec (helapsed : s.graceElapsed grace = some t) : Moved grace s t := by
  unfold Gateway.graceElapsed at helapsed
  split at helapsed
  case h_1 since hflipped =>
    split_ifs at helapsed with hdue
    cases helapsed
    exact .graceElapsed hflipped hdue.1
  all_goals cases helapsed

theorem signalExits_spec (hexits : s.signalExits = some t) : Moved grace s t := by
  unfold Gateway.signalExits at hexits
  split at hexits
  case h_1 since hdrained => exact reportExit_spec hexits (.signal hdrained)
  all_goals cases hexits

theorem panic_spec {task : ServerTask} (hpanic : s.panic task = some t) : Moved grace s t := by
  obtain ⟨tasks, htasks, rfl⟩ := Option.map_eq_some_iff.mp hpanic
  exact .panicked htasks

theorem abort_spec {task : ServerTask} (habort : s.abort task = some t) : Moved grace s t := by
  unfold Gateway.abort at habort
  split_ifs at habort with htold
  obtain ⟨tasks, htasks, rfl⟩ := Option.map_eq_some_iff.mp habort
  exact .lost htold htasks

theorem receive_spec (hreceive : s.receive = some t) : Moved grace s t := by
  obtain ⟨tasks, htasks, rfl⟩ := Option.map_eq_some_iff.mp hreceive
  cases htaken : tasks.taken with
  | none => exact absurd htaken (Group.receive_spec htasks).2.1
  | some answer =>
      cases answer with
      | some reason => exact .taken htasks htaken
      | none => exact .closed htasks htaken

theorem joined_spec (hjoined : s.joined = some t) : Moved grace s t := by
  unfold Gateway.joined at hjoined
  split at hjoined
  case h_1 reason task rest since hstage =>
    split_ifs at hjoined with hlive
    cases hjoined
    exact .joined hstage (Bool.eq_false_iff.mpr hlive)
  case h_2 => cases hjoined

theorem timeout_spec (htimeout : s.timeout grace = some t) : Moved grace s t := by
  unfold Gateway.timeout at htimeout
  split at htimeout
  case h_1 reason task rest since hstage =>
    split_ifs at htimeout with hdue
    cases htimeout
    exact .timedOut hstage hdue.2
  case h_2 => cases htimeout

theorem jobsShutdown_spec (hshutdown : s.jobsShutdown = some t) : Moved grace s t := by
  unfold Gateway.jobsShutdown at hshutdown
  split at hshutdown
  case h_1 reason since hstage =>
    cases hshutdown
    exact .shutDown hstage
  case h_2 => cases hshutdown

theorem next_spec {e : SupervisorEvent} (hnext : s.next grace e = some t) : Moved grace s t := by
  unfold Gateway.next at hnext
  split_ifs at hnext with hended
  cases e with
  | tick =>
      cases hnext
      exact .ticked
  | serves task result => exact serves_spec hnext
  | invoiceUpdates disconnected => exact invoiceUpdates_spec hnext
  | paymentSubscription producerResult =>
      exact reportExit_spec hnext (.paymentSubscription producerResult)
  | signal result => exact signalReceived_spec hnext
  | setNotServing => exact setNotServing_spec hnext
  | graceElapsed => exact graceElapsed_spec hnext
  | signalExits => exact signalExits_spec hnext
  | panic task => exact panic_spec hnext
  | abort task => exact abort_spec hnext
  | receive => exact receive_spec hnext
  | joined => exact joined_spec hnext
  | timeout => exact timeout_spec hnext
  | jobsShutdown => exact jobsShutdown_spec hnext

/-! ### The first report decides -/

/-- What the supervisor has been told. -/
def Stage.answer : Stage → Option (Option ExitResult)
  | .supervising => none
  | .draining reason _ _ => some (some reason)
  | .exited reason => some reason

/-- What a report says about the state it is read in. -/
def Justified (s : Gateway) : ServerTask × ExitResult → Prop
  | (.invoiceUpdates, result) => result = .ok () ∧ s.cancelled = true
  | (.paymentSubscription, result) => result = .ok () → s.cancelled = true
  | (.signal, result) => result = .ok () → ∃ since, s.signal = .drained since
  | (.grpc, _) | (.graphql, _) | (.health, _) => True

theorem Reports.justified {task : ServerTask} {result : ExitResult}
    (hreports : Reports s task result) : Justified s (task, result) := by
  cases hreports with
  | server hserver =>
      cases task
      case grpc | graphql | health => trivial
      all_goals cases hserver
  | invoiceUpdates hcancelled => exact ⟨rfl, hcancelled⟩
  | paymentSubscription producerResult =>
      intro hok
      unfold PaymentSubscription.Process.exitReason at hok
      split_ifs at hok with hcancelled
      · exact hcancelled
      · cases producerResult <;> cases hok
  | notInstalled => exact fun hok => nomatch hok
  | signal hdrained => exact fun _ => ⟨_, hdrained⟩

theorem Moved.cancelled_of (hmoved : Moved grace s t) (hcancelled : s.cancelled = true) :
    t.cancelled = true := by
  cases hmoved with
  | graceElapsed | taken => rfl
  | _ => exact hcancelled

theorem Moved.drained_of {since : ℕ} (hmoved : Moved grace s t)
    (hdrained : s.signal = .drained since) : t.signal = .drained since := by
  cases hmoved with
  | signalled h | flipped h | graceElapsed h => rw [hdrained] at h; cases h
  | _ => exact hdrained

theorem Moved.justified {report : ServerTask × ExitResult} (hmoved : Moved grace s t)
    (hjustified : Justified s report) : Justified t report := by
  obtain ⟨task, result⟩ := report
  cases task with
  | grpc | graphql | health => trivial
  | invoiceUpdates => exact ⟨hjustified.1, hmoved.cancelled_of hjustified.2⟩
  | paymentSubscription => exact fun hok => hmoved.cancelled_of (hjustified hok)
  | signal => exact fun hok => (hjustified hok).imp fun _ => hmoved.drained_of

structure Answered (s : Gateway) : Prop where
  sound : Sound s.tasks
  answer : s.tasks.taken = s.stage.answer
  justified : ∀ report ∈ s.tasks.reports, Justified s report
  lost : ∀ task, s.tasks.standing task = .lost → task ∈ s.panicked ∨ task ∈ s.aborted
  panicked : ∀ task ∈ s.panicked, s.tasks.standing task = .lost
  told : ∀ task ∈ s.aborted, ∃ reason, s.stage.answer = some (some reason)

theorem Answered.start : Answered .start where
  sound := .start
  answer := rfl
  justified _ hmem := nomatch hmem
  lost _ hlost := nomatch hlost
  panicked _ hmem := nomatch hmem
  told _ hmem := nomatch hmem

/-- Steps that leave the tasks alone. -/
theorem Answered.onward (hs : Answered s)
    (hjustified : ∀ report ∈ s.tasks.reports, Justified t report) (htasks : t.tasks = s.tasks)
    (hstage : t.stage.answer = s.stage.answer) (hpanicked : t.panicked = s.panicked)
    (haborted : ∀ task ∈ t.aborted, task ∈ s.aborted ∨ ∃ reason, s.stage.answer = some (some reason))
    (hkept : ∀ task ∈ s.aborted, task ∈ t.aborted) : Answered t where
  sound := htasks ▸ hs.sound
  answer := by rw [htasks, hstage, hs.answer]
  justified report hmem := hjustified report (htasks ▸ hmem)
  lost task hlost := by
    rw [htasks] at hlost
    rw [hpanicked]
    exact (hs.lost task hlost).imp_right (hkept task)
  panicked task hmem := by
    rw [hpanicked] at hmem
    rw [htasks]
    exact hs.panicked task hmem
  told task hmem := by
    rw [hstage]
    exact (haborted task hmem).elim (hs.told task) id

theorem Answered.reported {task : ServerTask} {result : ExitResult}
    {tasks : Group ServerTask ExitResult} (hs : Answered s) (hreports : Reports s task result)
    (hpost : s.tasks.post task result = some tasks) : Answered { s with tasks } := by
  obtain ⟨-, htaken, hlog, hlost⟩ := Group.post_spec hpost
  refine ⟨hs.sound.post hpost, htaken.trans hs.answer, fun report hmem => ?_,
    fun other h => hs.lost other ((hlost other).mp h),
    fun other hmem => (hlost other).mpr (hs.panicked other hmem), hs.told⟩
  rcases List.mem_append.mp (hlog ▸ hmem) with hold | hnew
  · exact hs.justified report hold
  · obtain rfl := List.mem_singleton.mp hnew
    exact hreports.justified

theorem Answered.step (hs : Answered s) (hmoved : Moved grace s t) : Answered t := by
  have hjustified := fun report hmem => hmoved.justified (hs.justified report hmem)
  cases hmoved with
  | reported hreports hpost => exact hs.reported hreports hpost
  | @panicked task tasks hlose =>
      obtain ⟨-, htaken, hlog, hlost⟩ := Group.lose_spec hlose
      refine ⟨hs.sound.lose hlose, htaken.trans hs.answer,
        fun report hmem => hjustified report (hlog ▸ hmem), fun other h => ?_,
        fun other hmem => (hlost other).mpr ?_, hs.told⟩
      · rcases (hlost other).mp h with rfl | hbefore
        · exact .inl List.mem_cons_self
        · exact (hs.lost other hbefore).imp_left (List.mem_cons_of_mem task)
      · exact (List.mem_cons.mp hmem).imp_right (hs.panicked other)
  | @lost task tasks htold hlose =>
      obtain ⟨-, htaken, hlog, hlost⟩ := Group.lose_spec hlose
      refine ⟨hs.sound.lose hlose, htaken.trans hs.answer,
        fun report hmem => hjustified report (hlog ▸ hmem), fun other h => ?_,
        fun other hmem => (hlost other).mpr (.inr (hs.panicked other hmem)), hs.told⟩
      rcases (hlost other).mp h with rfl | hbefore
      · exact .inr htold
      · exact hs.lost other hbefore
  | @taken tasks reason hreceive htaken =>
      obtain ⟨-, -, hstanding, hlog⟩ := Group.receive_spec hreceive
      exact ⟨hs.sound.receive hreceive, htaken,
        fun report hmem => hjustified report (hlog ▸ hmem),
        fun other h => hs.lost other (hstanding ▸ h),
        fun other hmem => hstanding ▸ hs.panicked other hmem, fun _ _ => ⟨reason, rfl⟩⟩
  | @closed tasks hreceive htaken =>
      obtain ⟨hwaiting, -, hstanding, hlog⟩ := Group.receive_spec hreceive
      refine ⟨hs.sound.receive hreceive, htaken,
        fun report hmem => hjustified report (hlog ▸ hmem),
        fun other h => hs.lost other (hstanding ▸ h),
        fun other hmem => hstanding ▸ hs.panicked other hmem, fun other hmem => ?_⟩
      obtain ⟨reason, hreason⟩ := hs.told other hmem
      rw [hs.answer, hreason] at hwaiting
      cases hwaiting
  | ticked | signalled | flipped | graceElapsed =>
      exact hs.onward hjustified rfl rfl rfl (fun _ => .inl) fun _ => id
  | joined hstage | shutDown hstage =>
      exact hs.onward hjustified rfl (by rw [hstage]; rfl) rfl (fun _ => .inl) fun _ => id
  | timedOut hstage =>
      exact hs.onward hjustified rfl (by rw [hstage]; rfl) rfl
        (fun _ _ => .inr ⟨_, by rw [hstage]; rfl⟩) fun _ => List.mem_cons_of_mem _

theorem runs_answered {es : List SupervisorEvent} (hrun : Runs grace es s) : Answered s :=
  hrun.invariant (fun _ _ _ _ hnext hs => hs.step (next_spec hnext)) .start

/-- The first report that any task has posted is what `run_cmd` returns; a task that panics
posts none, and as long as nothing else is posted and one task has not panicked the supervisor
goes on supervising. The consumer of invoice updates reports nothing but a shutdown. -/
theorem first_report_decides {es : List SupervisorEvent} (hrun : Runs grace es s) :
    (s.stage = .supervising → s.tasks.slot = s.tasks.reports.head?.map Prod.snd) ∧
      (∀ result, s.result = some result →
        s.tasks.reports.head?.map Prod.snd = some result ∨
          (s.tasks.reports = [] ∧ (∀ task, task ∈ s.panicked) ∧
            result = Gateway.unreported)) ∧
      (s.tasks.reports = [] → (∃ task, task ∉ s.panicked) → s.stage = .supervising) ∧
      (∀ task ∈ s.panicked, task ∉ s.tasks.reports.map Prod.fst) ∧
      ∀ result, (.invoiceUpdates, result) ∈ s.tasks.reports →
        result = .ok () ∧ s.cancelled = true := by
  have hs := runs_answered hrun
  have hclosed : s.tasks.taken = some none → ∀ task, task ∈ s.panicked := by
    intro htaken task
    refine (hs.lost task ((hs.sound.closed htaken).2 task)).resolve_right fun htold => ?_
    obtain ⟨reason, hreason⟩ := hs.told task htold
    rw [← hs.answer, htaken] at hreason
    cases hreason
  refine ⟨fun hstage => ?_, fun result hresult => ?_, fun hnone hlive => ?_,
    fun task hpanicked hposted => ?_, fun result hmem => hs.justified _ hmem⟩
  · exact hs.sound.pending (by rw [hs.answer, hstage]; rfl)
  · unfold Gateway.result at hresult
    split at hresult
    case h_1 reason hstage =>
      have htaken : s.tasks.taken = some reason := by rw [hs.answer, hstage]; rfl
      cases hresult
      cases reason with
      | some first => exact .inl (hs.sound.first first htaken)
      | none => exact .inr ⟨(hs.sound.closed htaken).1, hclosed htaken, rfl⟩
    all_goals cases hresult
  · have hopen : ∀ reason, s.tasks.taken ≠ some (some reason) := by
      intro reason htaken
      have hfirst := hs.sound.first reason htaken
      rw [hnone] at hfirst
      cases hfirst
    obtain ⟨task, htask⟩ := hlive
    cases hstage : s.stage with
    | supervising => rfl
    | draining reason rest since =>
        exact absurd (by rw [hs.answer, hstage]; rfl) (hopen reason)
    | exited reason =>
        have htaken : s.tasks.taken = some reason := by rw [hs.answer, hstage]; rfl
        cases reason with
        | some first => exact absurd htaken (hopen first)
        | none => exact absurd (hclosed htaken task) htask
  · have hlost := hs.panicked task hpanicked
    rw [(hs.sound.posted task).mp hposted] at hlost
    cases hlost

/-- The consumer of invoice updates panics; a signal later brings the gateway down. -/
def panicked : List SupervisorEvent :=
  [.panic .invoiceUpdates, .signal (.ok ()), .setNotServing] ++ List.replicate 5 .tick ++
    [.graceElapsed, .serves .grpc (.ok ()), .serves .graphql (.ok ()), .serves .health (.ok ()),
      .paymentSubscription (.ok ()), .signalExits, .receive] ++
    List.replicate 6 .joined ++ [.jobsShutdown]

theorem first_report_decides_panicked : ∃ s, Runs 5 panicked s ∧ s.result = some (.ok ()) ∧
    .invoiceUpdates ∉ s.tasks.reports.map Prod.fst := by
  obtain ⟨s, hrun, hs⟩ := exists_runs_of_play 5 panicked
    (fun s => s.panicked = [.invoiceUpdates] ∧ s.result = some (.ok ())) (by decide +kernel)
  obtain ⟨hpanicked, hresult⟩ := of_decide_eq_true hs
  obtain ⟨-, -, -, hsilent, -⟩ := first_report_decides hrun
  exact ⟨s, hrun, hresult, hsilent _ (hpanicked ▸ List.mem_cons_self)⟩

/-! ### The order of a shutdown -/

/-- The supervisor has yet to see the end of a task. -/
def Stage.awaits : Stage → ServerTask → Prop
  | .supervising, _ => True
  | .draining _ rest _, task => task ∈ rest
  | .exited _, _ => False

structure Ordered (grace : ℕ) (s : Gateway) : Prop where
  flipped : ∀ since, s.signal = .flipped since → s.serving = false
  drained : ∀ since, s.signal = .drained since → s.serving = false ∧ since + grace ≤ s.clock
  cancelled : s.cancelled = true →
    (∃ since, s.signal = .drained since) ∨ ∃ reason, s.stage.answer = some (some reason)
  took : ∀ reason, s.stage.answer = some (some reason) → s.cancelled = true ∧
    ∃ time, s.took = some time ∧ time ≤ s.clock
  since : ∀ reason rest since, s.stage = .draining reason rest since →
    ∀ time, s.took = some time → time ≤ since
  aborted : ∀ task ∈ s.aborted, ∀ time, s.took = some time →
    time + Gateway.drainDeadline grace ≤ s.clock
  ended : ∀ task, s.stage.awaits task ∨ s.live task = false ∨ task ∈ s.aborted

theorem Ordered.start : Ordered grace .start where
  flipped _ h := nomatch h
  drained _ h := nomatch h
  cancelled h := nomatch h
  took _ h := nomatch h
  since _ _ _ h := nomatch h
  aborted _ h := nomatch h
  ended _ := .inl trivial

/-- A step of the tasks under which none comes to life. -/
theorem Ordered.tasks {tasks : Group ServerTask ExitResult} {panicked : List ServerTask}
    (hs : Ordered grace s)
    (hended : ∀ task, s.tasks.standing task ≠ .running → tasks.standing task ≠ .running) :
    Ordered grace { s with tasks, panicked } :=
  { hs with
    ended := fun task => (hs.ended task).imp_right fun h => h.imp_left fun hdead =>
      decide_eq_false (hended task (of_decide_eq_false hdead)) }

theorem Ordered.taken_by {reason : ExitResult} {time : ℕ} (hs : Ordered grace s)
    (hanswer : s.stage.answer = some (some reason)) (htime : s.took = some time) :
    time ≤ s.clock := by
  obtain ⟨time', htime', hle⟩ := (hs.took reason hanswer).2
  cases htime.symm.trans htime'
  exact hle

theorem Ordered.step (hs : Ordered grace s) (ha : Answered s) (hmoved : Moved grace s t) :
    Ordered grace t := by
  cases hmoved with
  | ticked =>
      exact { hs with
        drained := fun since h => (hs.drained since h).imp_right (Nat.le_succ_of_le ·)
        took := fun reason h => (hs.took reason h).imp_right
          fun ⟨time, htime, hle⟩ => ⟨time, htime, Nat.le_succ_of_le hle⟩
        aborted := fun task h time htime => Nat.le_succ_of_le (hs.aborted task h time htime) }
  | reported _ hpost => exact hs.tasks fun _ => Group.post_ended hpost
  | panicked hlose | lost _ hlose => exact hs.tasks fun _ => Group.lose_ended hlose
  | signalled hwaiting =>
      exact { hs with
        flipped := fun _ h => nomatch h
        drained := fun _ h => nomatch h
        cancelled := fun h => (hs.cancelled h).imp_left fun ⟨since, hsince⟩ => by
          rw [hwaiting] at hsince
          cases hsince }
  | flipped hreceived =>
      exact { hs with
        flipped := fun _ _ => rfl
        drained := fun _ h => nomatch h
        cancelled := fun h => (hs.cancelled h).imp_left fun ⟨since, hsince⟩ => by
          rw [hreceived] at hsince
          cases hsince }
  | @graceElapsed since hflipped hdue =>
      exact { hs with
        flipped := fun _ h => nomatch h
        drained := fun since' h => by
          cases h
          exact ⟨hs.flipped since hflipped, hdue⟩
        cancelled := fun _ => .inl ⟨since, rfl⟩
        took := fun reason h => ⟨rfl, (hs.took reason h).2⟩ }
  | @taken tasks reason hreceive htaken =>
      have hnone : ∀ task, task ∉ s.aborted := by
        intro task hmem
        obtain ⟨earlier, hearlier⟩ := ha.told task hmem
        have hwaiting := (Group.receive_spec hreceive).1
        rw [ha.answer, hearlier] at hwaiting
        cases hwaiting
      exact {
        flipped := hs.flipped
        drained := hs.drained
        cancelled := fun _ => .inr ⟨reason, rfl⟩
        took := fun _ _ => ⟨rfl, s.clock, rfl, le_rfl⟩
        since := fun _ _ _ h time htime => by
          cases h
          cases htime
          exact le_rfl
        aborted := fun task h => absurd h (hnone task)
        ended := fun task => .inl task.mem_handles }
  | @closed tasks hreceive htaken =>
      have hclosed := ((ha.sound.receive hreceive).closed htaken).2
      have hsupervising := (Group.receive_spec hreceive).1
      rw [ha.answer] at hsupervising
      exact { hs with
        cancelled := fun h => (hs.cancelled h).imp_right fun ⟨reason, hreason⟩ => by
          rw [hsupervising] at hreason
          cases hreason
        took := fun _ h => nomatch h
        since := fun _ _ _ h => nomatch h
        ended := fun task => .inr (.inl (decide_eq_false (by rw [hclosed task]; nofun))) }
  | @joined reason task rest since hstage hdead =>
      have hanswer : s.stage.answer = some (some reason) := by
        rw [hstage]
        rfl
      exact { hs with
        cancelled := fun _ => .inr ⟨reason, rfl⟩
        took := fun _ _ => hs.took reason hanswer
        since := fun _ _ _ h time htime => by
          cases h
          exact hs.taken_by hanswer htime
        ended := fun other => by
          have hother := hs.ended other
          rw [hstage] at hother
          rcases hother with hawaits | hrest
          · rcases List.mem_cons.mp hawaits with rfl | hlater
            · exact .inr (.inl hdead)
            · exact .inl hlater
          · exact .inr hrest }
  | @timedOut reason task rest since hstage hdue =>
      have hanswer : s.stage.answer = some (some reason) := by
        rw [hstage]
        rfl
      exact { hs with
        cancelled := fun _ => .inr ⟨reason, rfl⟩
        took := fun _ _ => hs.took reason hanswer
        since := fun _ _ _ h time htime => by
          cases h
          exact hs.taken_by hanswer htime
        aborted := fun other h time htime => by
          rcases List.mem_cons.mp h with rfl | hbefore
          · exact (Nat.add_le_add_right (hs.since _ _ _ hstage time htime) _).trans hdue
          · exact hs.aborted other hbefore time htime
        ended := fun other => by
          have hother := hs.ended other
          rw [hstage] at hother
          rcases hother with hawaits | hdead | hbefore
          · rcases List.mem_cons.mp hawaits with rfl | hlater
            · exact .inr (.inr List.mem_cons_self)
            · exact .inl hlater
          · exact .inr (.inl hdead)
          · exact .inr (.inr (List.mem_cons_of_mem _ hbefore)) }
  | @shutDown reason since hstage =>
      exact { hs with
        cancelled := fun _ => .inr ⟨reason, rfl⟩
        took := fun _ _ => hs.took reason (by rw [hstage]; rfl)
        since := fun _ _ _ h => nomatch h
        ended := fun task => by
          have htask := hs.ended task
          rw [hstage] at htask
          exact .inr (htask.resolve_left List.not_mem_nil) }

end LightningGateway.Supervisor
