import LightningGateway.EventStream
import LightningGateway.StatusMapping
import LightningGateway.GatewayMachine

/-!
# The status feed of the GraphQL API

Every `lnInvoicePaymentStatus` subscription runs a task of its own beside the tasks
of the gateway. The subscriptions share one ingest task, which listens to the outbox,
reads each notified row once and broadcasts it to the receivers attached at that
time. A receiver that does not keep up loses the oldest values and is told so. All
of them, and the writers of the outbox, move one await at a time and in any order.
-/
namespace LightningGateway.StatusFeed
open Primitives TaskPools InvoiceAggregate OutboxRows GatewayStore GatewayEffects GatewayMachine
open StatusMapping
open EventStream (Listener Notification fetchAfterBatch countAfter findBySequence
  maxBackfillEvents baseBackoffMs maxBackoffMs)

/-! ### The ingest task and its connection -/

structure Ingest where
  listener : Listener
  backoffMs : ℕ
  /-- Received by the session and not yet forwarded. -/
  notified : List ℤ
  channel : List Notification
  /-- The rows it will not broadcast: nobody listened when they committed, or they
  were looked up in vain. No step reads this. -/
  dropped : List ℤ

/-- How `find_by_sequence` answers. -/
inductive RowRead where
  | served
  | empty
  | failed
deriving DecidableEq, Repr

/-- The steps of `connection_loop`. -/
inductive ListenStep where
  | connect (ok : Bool)
  | listen (ok : Bool)
  | lose
  | forward
  | wake
deriving DecidableEq, Repr

namespace Ingest

def start : Ingest := ⟨.connecting, baseBackoffMs, [], [], []⟩

/-- `pg_notify` reaches a session that listens. -/
def hear (s : Ingest) (sequences : List ℤ) : Ingest :=
  match s.listener with
  | .listening => { s with notified := s.notified ++ sequences }
  | _ => { s with dropped := s.dropped ++ sequences }

def disconnect (s : Ingest) : Ingest :=
  { s with channel := s.channel ++ [.listenDisconnected], listener := .backoff }

def connect (s : Ingest) (ok : Bool) : Option Ingest :=
  match s.listener with
  | .connecting =>
      if ok then some { s with listener := .connected, backoffMs := baseBackoffMs }
      else some s.disconnect
  | _ => none

def listen (s : Ingest) (ok : Bool) : Option Ingest :=
  match s.listener with
  | .connected => if ok then some { s with listener := .listening } else some s.disconnect
  | _ => none

def lose (s : Ingest) : Option Ingest :=
  match s.listener with
  | .listening => some { s with listener := .lost }
  | _ => none

/-- Pass on the next notification. A lost session ends with `ListenDisconnected`. -/
def forward (s : Ingest) : Option Ingest :=
  match s.listener, s.notified with
  | .listening, q :: rest | .lost, q :: rest =>
      some { s with notified := rest, channel := s.channel ++ [.sequence q] }
  | .lost, [] => some s.disconnect
  | _, _ => none

def wake (s : Ingest) : Option Ingest :=
  match s.listener with
  | .backoff =>
      some { s with listener := .connecting, backoffMs := min (s.backoffMs * 2) maxBackoffMs }
  | _ => none

def relay (s : Ingest) : ListenStep → Option Ingest
  | .connect ok => s.connect ok
  | .listen ok => s.listen ok
  | .lose => s.lose
  | .forward => s.forward
  | .wake => s.wake

end Ingest

/-! ### A status stream -/

/-- Where `run_status_stream` stands. `first` tells the backfill of a resumed stream
from one after a lag. -/
inductive Phase where
  /-- The aggregate is to be read. -/
  | lookingUp
  /-- It was read from `source`; `read` says whether the database answered. -/
  | lookedUp (source : Db) (read : Bool)
  | counting (first : Bool)
  | paging (first : Bool)
  /-- The rest of a page. -/
  | scanning (rows : List OutboxEvent) (first : Bool)
  /-- `row` means `PAID`, for which the invoice is to be read. -/
  | paying (row : OutboxEvent)
  | live
  | closed

def Phase.isClosed : Phase → Bool
  | closed => true
  | _ => false

/-- A payload handed to `tx.send`, the database it was built from and the clock that
was read for it. -/
structure Emission where
  payload : LnInvoicePaymentStatusPayload
  source : Db
  now : Option Timestamp

structure StatusStream where
  paymentHash : PaymentHash
  resume : Option ℤ
  phase : Phase
  /-- Broadcast and not yet received. -/
  buffer : List OutboxEvent
  /-- Values were overwritten before they were received. -/
  lagged : Bool
  cursor : ℤ
  emitter : StatusEmitter
  /-- Latest last. -/
  sent : List Emission
  /-- The subscriber was found gone, or the process shuts down. -/
  gone : Bool
  /-- The counter of the outbox when the receiver was attached: rows from here on
  committed later. No step reads this, nor what follows. -/
  attachedAt : ℤ
  /-- The rows that moved the cursor, latest last. -/
  processed : List OutboxEvent
  /-- The status the aggregate had at the start, or after the resume. -/
  derived : Option InvoicePaymentStatus

/-- `lookup_invoice`: a read that fails counts as no invoice. -/
def lookupInvoice (db : Db) (paymentHash : PaymentHash) (read : Bool) : Option Invoice :=
  if read then
    match Invoices.maybeFindByPaymentHash db paymentHash with
    | .ok invoice => invoice
    | .error _ => none
  else none

/-- The steps of one stream, each from one await to the next. Where a payload is sent,
`accepted` says whether the subscriber is still there. -/
inductive StreamStep where
  | lookUp (read : Bool)
  | derive (now : Timestamp) (accepted : Bool)
  | count (read : Bool) (accepted : Bool)
  | page (read : Bool)
  | scan (accepted : Bool)
  | pay (read : Bool) (accepted : Bool)
  | receive (accepted : Bool)
  /-- The channel overwrites the `n` oldest values. -/
  | overflow (n : ℕ)
  /-- The subscriber is gone, or the process shuts down. -/
  | leave
deriving DecidableEq, Repr

namespace StatusStream

/-- Attach a receiver. -/
def attach (db : Db) (paymentHash : PaymentHash) (resume : Option ℤ) : StatusStream where
  paymentHash := paymentHash
  resume := resume
  phase := match resume with
    | none => .lookingUp
    | some _ => .counting true
  buffer := []
  lagged := false
  cursor := resume.getD 0
  emitter := .default
  sent := []
  gone := false
  attachedAt := db.nextSequence
  processed := []
  derived := none

def close (s : StatusStream) : StatusStream := { s with phase := .closed }

/-- A broadcast value; a task that has returned has dropped its receiver. -/
def offer (s : StatusStream) (row : OutboxEvent) : StatusStream :=
  if s.phase.isClosed then s else { s with buffer := s.buffer ++ [row] }

/-- `tx.send`, and where the task goes on unless the subscriber is gone. -/
def send (s : StatusStream) (m : Emission) (accepted : Bool) (phase : Phase) : StatusStream :=
  if accepted then { s with sent := s.sent ++ [m], phase }
  else { s with sent := s.sent ++ [m], gone := true, phase := .closed }

/-- `emit_for_event`; `PAID` needs a read before it is sent. -/
def emitForEvent (s : StatusStream) (db : Db) (row : OutboxEvent) (accepted : Bool)
    (continue_ : Phase) : StatusStream :=
  match statusFromEvent row.domainEvent with
  | none => { s with phase := continue_ }
  | some status =>
      match s.emitter.next status with
      | (none, emitter) => { s with emitter, phase := continue_ }
      | (some .paid, emitter) => { s with emitter, phase := .paying row }
      | (some status, emitter) =>
          { s with emitter }.send ⟨buildPayload status s.paymentHash none, db, none⟩ accepted
            (if isTerminal status then .closed else continue_)

/-- Move the cursor to a row, and emit its status when it is about this invoice. -/
def handle (s : StatusStream) (db : Db) (row : OutboxEvent) (accepted : Bool)
    (continue_ : Phase) : StatusStream :=
  let s := { s with cursor := row.sequence, processed := s.processed ++ [row] }
  if row.referenceId = s.paymentHash.toHex then s.emitForEvent db row accepted continue_
  else { s with phase := continue_ }

def lookUp (s : StatusStream) (db : Db) (read : Bool) : Option StatusStream :=
  match s.phase with
  | .lookingUp => some { s with phase := .lookedUp db read }
  | _ => none

/-- Derive the status of the aggregate. A resumed stream reports it only when it is
terminal. -/
def derive (s : StatusStream) (now : Timestamp) (accepted : Bool) : Option StatusStream :=
  match s.phase with
  | .lookedUp source read =>
      let invoice := lookupInvoice source s.paymentHash read
      let status := initialStatus (invoice.map fun i => (i.state, i.expiryAt)) now
      let phase : Phase := if isTerminal status then .closed else .live
      let s : StatusStream := { s with derived := some status }
      if s.resume = none ∨ isTerminal status then
        match s.emitter.next status with
        | (none, emitter) => some { s with emitter, phase }
        | (some status, emitter) =>
            some ({ s with emitter }.send
              ⟨buildPayload status s.paymentHash invoice, source, some now⟩ accepted phase)
      else some { s with phase }
  | _ => none

def tooMany (count : ℕ) : String :=
  "too many events to backfill (" ++ toString count ++ "); reconnect from a more recent sequence"

/-- A backfill that is too long is refused. -/
def count (s : StatusStream) (db : Db) (read accepted : Bool) : Option StatusStream :=
  match s.phase with
  | .counting first =>
      if read then
        let count := countAfter db.outbox s.cursor
        if maxBackfillEvents < count then
          some (s.send ⟨errorPayload (tooMany count), db, none⟩ accepted .closed)
        else some { s with phase := .paging first }
      else some s.close
  | _ => none

/-- Read the next page; an empty one ends the backfill. -/
def page (s : StatusStream) (db : Db) (read : Bool) : Option StatusStream :=
  match s.phase with
  | .paging first =>
      if read then
        match fetchAfterBatch db.outbox s.cursor with
        | [] => some { s with phase := if first then .lookingUp else .live }
        | rows => some { s with phase := .scanning rows first }
      else some s.close
  | _ => none

def scan (s : StatusStream) (db : Db) (accepted : Bool) : Option StatusStream :=
  match s.phase with
  | .scanning (row :: rows) first =>
      some (s.handle db row accepted (match rows with
        | [] => .paging first
        | rows => .scanning rows first))
  | _ => none

/-- Send `PAID` with what the invoice says; a failed read leaves that out. -/
def pay (s : StatusStream) (db : Db) (read accepted : Bool) : Option StatusStream :=
  match s.phase with
  | .paying _ =>
      let invoice := lookupInvoice db s.paymentHash read
      some (s.send ⟨buildPayload .paid s.paymentHash invoice, db, none⟩ accepted .closed)
  | _ => none

/-- Take the next value of the broadcast; one that is not above the cursor is
skipped, and a lag starts a backfill. -/
def receive (s : StatusStream) (db : Db) (accepted : Bool) : Option StatusStream :=
  match s.phase with
  | .live =>
      if s.lagged then some { s with lagged := false, phase := .counting false }
      else
        match s.buffer with
        | [] => none
        | row :: rest =>
            if row.sequence ≤ s.cursor then some { s with buffer := rest }
            else some ({ s with buffer := rest }.handle db row accepted .live)
  | _ => none

def overflow (s : StatusStream) (n : ℕ) : Option StatusStream :=
  if s.phase.isClosed ∨ n = 0 ∨ s.buffer.length < n then none
  else some { s with buffer := s.buffer.drop n, lagged := true }

def leave (s : StatusStream) : Option StatusStream :=
  match s.phase with
  | .live => some { s with gone := true, phase := .closed }
  | _ => none

def step (s : StatusStream) (db : Db) : StreamStep → Option StatusStream
  | .lookUp read => s.lookUp db read
  | .derive now accepted => s.derive now accepted
  | .count read accepted => s.count db read accepted
  | .page read => s.page db read
  | .scan accepted => s.scan db accepted
  | .pay read accepted => s.pay db read accepted
  | .receive accepted => s.receive db accepted
  | .overflow n => s.overflow n
  | .leave => s.leave

/-- The statuses sent so far. -/
def statuses (s : StatusStream) : List InvoicePaymentStatus :=
  s.sent.filterMap fun m => m.payload.status

end StatusStream

/-! ### The feed -/

structure Feed (g : Deployment) where
  pool : Pool (gateway g)
  ingest : Ingest
  streams : List StatusStream
  /-- The answers to subscriptions that were not started. -/
  refused : List LnInvoicePaymentStatusPayload

inductive FeedEvent (g : Deployment) where
  | app (e : Event (gateway g))
  | relay (x : ListenStep)
  /-- `ingest_loop` takes the next notification. -/
  | ingest (read : RowRead)
  /-- A client subscribes; `configured` says whether the backend is in its context. -/
  | subscribe (input : StatusInput) (configured : Bool) (resume : Option ℤ)
  | stream (i : ℕ) (x : StreamStep)

namespace Feed

variable {g : Deployment}

def boot (g : Deployment) : Feed g := ⟨GatewayMachine.boot g, .start, [], []⟩

def db (f : Feed g) : Db := f.pool.world.db

/-- The gateway takes a step. A crash ends the ingest task and all streams; the
restarted process starts with a new task and no streams. -/
def app (f : Feed g) (e : Event (gateway g)) : Option (Feed g) :=
  match f.pool.next e with
  | none => none
  | some pool =>
      match e with
      | .crash =>
          some { f with pool, ingest := .start, streams := [] }
      | _ =>
          let rows := pool.world.db.outbox.drop f.db.outbox.length
          some { f with pool, ingest := f.ingest.hear (rows.map OutboxEvent.sequence) }

/-- Look up the notified row and broadcast it. A row that is missing or cannot be
read, and the loss of the session, are only logged. -/
def ingestNext (f : Feed g) (read : RowRead) : Option (Feed g) :=
  match f.ingest.channel with
  | [] => none
  | .listenDisconnected :: rest => some { f with ingest := { f.ingest with channel := rest } }
  | .sequence q :: rest =>
      match read, findBySequence f.db.outbox q with
      | .served, some row =>
          some { f with
            ingest := { f.ingest with channel := rest }
            streams := f.streams.map fun s => s.offer row }
      | _, _ =>
          let dropped := f.ingest.dropped ++ [q]
          some { f with ingest := { f.ingest with channel := rest, dropped } }

/-- `build_status_stream`. -/
def subscribe (f : Feed g) (input : StatusInput) (configured : Bool) (resume : Option ℤ) :
    Feed g :=
  match configured, input.hashResult g.crates with
  | true, .ok paymentHash =>
      { f with streams := f.streams ++ [.attach f.db paymentHash resume] }
  | _, .error message => { f with refused := f.refused ++ [errorPayload message] }
  | false, .ok _ =>
      { f with refused := f.refused ++ [errorPayload "subscription backend not configured"] }

def next (f : Feed g) : FeedEvent g → Option (Feed g)
  | .app e => f.app e
  | .relay x => (f.ingest.relay x).map fun ingest => { f with ingest }
  | .ingest read => f.ingestNext read
  | .subscribe input configured resume => some (f.subscribe input configured resume)
  | .stream i x =>
      match f.streams[i]? with
      | none => none
      | some s => (s.step f.db x).map fun t => { f with streams := f.streams.set i t }

end Feed

/-- The runs of the feed under a guard, from its start. -/
abbrev Feeds {g : Deployment} (admits : Feed g → FeedEvent g → Bool) :
    List (FeedEvent g) → Feed g → Prop :=
  GuardedRuns.Run Feed.next (fun f e => admits f e = true) (Feed.boot g)

end LightningGateway.StatusFeed
