import LightningGateway.InvoiceListener
import LightningGateway.GatewayMachine
import LightningGateway.SerialHandlers
import Mathlib.Data.Finset.Basic

/-!
# The invoice listeners of a process

`InvoiceUpdateDispatcher` keeps one listener per payment hash. `create_invoice` asks for
one once its invoice is stored, and the recovery sweep asks for one for every invoice that
was `Open` or `Held` when the process started. The listeners share one bounded channel;
a single consumer empties it into `handle_invoice_update`. A `Process` is one life of a
gateway that is connected to LND: it boots over the database its predecessors left, and the
tasks of the gateway, the listeners, the consumer and the sweep move one await at a time and
in any order.
-/
namespace LightningGateway.InvoiceMonitor
open Primitives EventTables EffectPrograms TaskPools SerialHandlers InvoiceAggregate LndWire
open GatewayStore GatewayEffects GatewayMachine
open InvoiceListener (Listener Session subscribeInvoice)

/-- The capacity of the channel of invoice updates. -/
def updateCapacity : ℕ := 64

/-- Where `run_invoice_subscription_recovery_sweep` stands. -/
inductive RecoverySweep where
  | due
  /-- `list_open_invoices` loads the invoices it has listed, one by one. -/
  | loading (rest : List InvoiceId) (found : List PaymentHash)
  | spawning (rest : List PaymentHash)
  | complete
deriving DecidableEq, Repr

structure Process (g : Deployment) where
  pool : Pool (gateway g)
  /-- The dispatcher's set of hashes with a listener. -/
  active : Finset PaymentHash
  listeners : List Listener
  /-- Sent by the listeners and not yet received. -/
  channel : List InvoiceUpdate
  consumer : Consumer
  /-- The token shared by all tasks. -/
  cancelled : Bool
  sweep : RecoverySweep
  /-- The invoices the sweep could not load, as it logs them. -/
  skipped : List InvoiceId
  /-- What the consumer has received, latest last. No step reads this, nor what follows. -/
  handled : List InvoiceUpdate
  /-- The listeners that gave their slot back, latest last. -/
  ended : List Listener

/-- How LND answers the opens of one listener. -/
abbrev Script := List (Except LndError Session)

inductive MonitorEvent (g : Deployment) where
  /-- The gateway takes a step; `script` is for the listener it may start. -/
  | app (e : Event (gateway g)) (script : Script)
  | advance (i : ℕ)
  | noticeCancel (i : ℕ)
  | release (i : ℕ)
  | receive
  | finish
  | stop
  | list (read : Bool)
  | load (read : Bool)
  | spawnNext (script : Script)
  | cancel

/-- The hash an operation asks a listener for. -/
def listenerFor : Op → Option PaymentHash
  | .spawnListenerFor h => some h
  | _ => none

/-- The hash a step of the gateway asks a listener for. -/
def requested {g : Deployment} (p : Pool (gateway g)) : Event (gateway g) → Option PaymentHash
  | .step i _ =>
      match p.tasks[i]? with
      | some t =>
          match t.rest with
          | some (.call o _) => listenerFor o
          | _ => none
      | none => none
  | .spawn _ | .env _ | .crash => none

def handlerOf : Entry → Option InvoiceUpdate
  | .handleInvoiceUpdate update => some update
  | _ => none

/-- Only the consumer starts the handler of an invoice update. -/
def admitted {g : Deployment} : Event (gateway g) → Bool
  | .spawn (.handleInvoiceUpdate _) | .crash => false
  | _ => true

namespace Process

variable {g : Deployment}

/-- A process boots over the world that earlier ones have left. -/
def start (w : World) : Process g := ⟨⟨w, []⟩, ∅, [], [], .waiting, false, .due, [], [], []⟩

def db (s : Process g) : Db := s.pool.world.db

def newListener (s : Process g) (h : PaymentHash) (script : Script) : Listener :=
  { subscribeInvoice true h script with
    cancelled := s.cancelled
    receiverLive := s.consumer ≠ .stopped }

/-- A hash that has a listener does not get a second one. -/
def spawnListenerFor (s : Process g) (h : PaymentHash) (script : Script) : Process g :=
  if h ∈ s.active then s
  else
    { s with
      active := insert h s.active
      listeners := s.listeners ++ [s.newListener h script] }

def app (s : Process g) (e : Event (gateway g)) (script : Script) : Option (Process g) :=
  if admitted e then
    match s.pool.next e with
    | none => none
    | some pool =>
        match requested s.pool e with
        | none => some { s with pool }
        | some h => some ({ s with pool }.spawnListenerFor h script)
  else none

/-- Listener `i` takes a step; what it forwards enters the channel. -/
def move (s : Process g) (i : ℕ) (step : Listener → Option Listener) : Option (Process g) :=
  match s.listeners[i]? with
  | none => none
  | some l =>
      match step l with
      | none => none
      | some l' =>
          some { s with
            listeners := s.listeners.set i l'
            channel := s.channel ++ l'.forwarded.drop l.forwarded.length }

/-- `tx.send` waits for room. -/
def waits (s : Process g) (l : Listener) : Bool :=
  match l.phase with
  | .sending .. => l.receiverLive && updateCapacity ≤ s.channel.length
  | _ => false

def advance (s : Process g) (i : ℕ) : Option (Process g) :=
  s.move i fun l => if s.waits l then none else l.advance

/-- A listener that has returned gives its slot back. -/
def release (s : Process g) (i : ℕ) : Option (Process g) :=
  match s.listeners[i]? with
  | none => none
  | some l =>
      match l.phase with
      | .returned _ =>
          some { s with
            active := s.active.erase l.paymentHash
            listeners := s.listeners.eraseIdx i
            ended := s.ended ++ [l] }
      | _ => none

def receive (s : Process g) : Option (Process g) :=
  match s.consumer, s.channel with
  | .waiting, update :: rest =>
      match s.pool.next (.spawn (.handleInvoiceUpdate update)) with
      | none => none
      | some pool =>
          some { s with
            pool
            channel := rest
            consumer := .handling s.pool.tasks.length
            handled := s.handled ++ [update] }
  | _, _ => none

/-- Errors of the handler are only logged. -/
def finish (s : Process g) : Option (Process g) :=
  (s.consumer.finish s.pool).map fun consumer => { s with consumer }

def stop (s : Process g) : Option (Process g) :=
  if s.consumer = .waiting ∧ s.cancelled then
    some { s with
      consumer := .stopped
      listeners := s.listeners.map fun l => { l with receiverLive := false } }
  else none

/-- A listing that fails leaves the sweep to the retry of its job. -/
def list (s : Process g) (read : Bool) : Option (Process g) :=
  match s.sweep with
  | .due =>
      if read then
        let rows := s.db.invoices.rows.filter fun r => r.state = "open" ∨ r.state = "held"
        some { s with sweep := .loading (rows.map Row.id) [] }
      else some s
  | _ => none

/-- Load the next invoice; one that fails to load is skipped. -/
def load (s : Process g) (read : Bool) : Option (Process g) :=
  match s.sweep with
  | .loading [] found => some { s with sweep := .spawning found }
  | .loading (id :: rest) found =>
      match if read then Invoices.findById s.db id else .error .sqlx with
      | .ok invoice => some { s with sweep := .loading rest (found ++ [invoice.paymentHash]) }
      | .error _ => some { s with sweep := .loading rest found, skipped := s.skipped ++ [id] }
  | _ => none

def spawnNext (s : Process g) (script : Script) : Option (Process g) :=
  match s.sweep with
  | .spawning [] => some { s with sweep := .complete }
  | .spawning (h :: rest) => some ({ s with sweep := .spawning rest }.spawnListenerFor h script)
  | _ => none

def cancel (s : Process g) : Process g :=
  { s with
    cancelled := true
    listeners := s.listeners.map fun l => { l with cancelled := true } }

def next (s : Process g) : MonitorEvent g → Option (Process g)
  | .app e script => s.app e script
  | .advance i => s.advance i
  | .noticeCancel i => s.move i Listener.noticeCancel
  | .release i => s.release i
  | .receive => s.receive
  | .finish => s.finish
  | .stop => s.stop
  | .list read => s.list read
  | .load read => s.load read
  | .spawnNext script => s.spawnNext script
  | .cancel => some s.cancel

end Process

/-- What can happen in the life of a process. -/
abbrev Lives {g : Deployment} (w : World) (es : List (MonitorEvent g)) (s : Process g) : Prop :=
  GuardedRuns.Run Process.next (fun _ _ => True) (Process.start w) es s

/-- A check on the last state of a played list of events is a check on a life. -/
theorem exists_life_of_play {g : Deployment} (w : World) (es : List (MonitorEvent g))
    (check : Process g → Bool)
    (h : (GuardedRuns.play Process.next (fun _ _ => true) (Process.start w) es).any check = true) :
    ∃ s, Lives w es s ∧ check s = true := by
  obtain ⟨s, hrun, hs⟩ := GuardedRuns.exists_run_of_play _ _ _ _ check h
  exact ⟨s, hrun.admitted (J := fun _ => True) (fun _ _ _ _ _ _ => trivial)
    (fun _ _ _ _ => trivial) trivial, hs⟩

/-! ### A sample life

Events that lead the sample invoice's listener from its start to an accepted HTLC. -/

namespace Sample

open GatewayMachine.Sample

/-- LND's stream of the sample invoice: open, then with an HTLC parked on it. -/
def stream : Session :=
  ⟨[⟨hash.bytes, 0, 0, []⟩, ⟨hash.bytes, 3, 250000000, []⟩], .ok ()⟩

/-- Issue the sample invoice as task `i`. -/
def issue (i : ℕ) : List (MonitorEvent deployment) :=
  (issueInvoice i).map fun e => .app e [.ok stream]

/-- The first listener forwards both messages of its stream. -/
def follow : List (MonitorEvent deployment) := List.replicate 7 (.advance 0)

end Sample

end LightningGateway.InvoiceMonitor
