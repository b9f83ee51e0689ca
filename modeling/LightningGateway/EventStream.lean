import LightningGateway.GuardedRuns
import LightningGateway.CursorFeeds
import LightningGateway.OutboxRows

/-!
# The event stream

One subscriber of `SubscribeEvents`, with the three parties its stream depends on:
the writers of the outbox, the `LISTEN` connection and the subscription loop. They
share the table and two channels and otherwise run on their own. A row draws its
sequence when it is inserted and becomes visible, together with its `NOTIFY`, when
its transaction commits; every transaction of the gateway publishes one row.
-/
namespace LightningGateway.EventStream
open Primitives OutboxRows CursorFeeds

/-! ### Reading the outbox -/

def backfillBatchSize : ℕ := 1000
def maxBackfillEvents : ℕ := 100000

/-- `fetch_after_batch`. -/
def fetchAfterBatch (rows : List OutboxEvent) (afterSequence : ℤ) : List OutboxEvent :=
  page OutboxEvent.sequence backfillBatchSize rows afterSequence

def countAfter (rows : List OutboxEvent) (afterSequence : ℤ) : ℕ :=
  rows.countP fun r => afterSequence < r.sequence

def findBySequence (rows : List OutboxEvent) (sequence : ℤ) : Option OutboxEvent :=
  rows.find? fun r => r.sequence = sequence

/-! ### The parties -/

/-- What the connection loop hands to the subscription loop. -/
inductive Notification where
  | sequence (sequence : ℤ)
  | listenDisconnected
deriving DecidableEq, Repr

/-- Where `connection_loop` stands. -/
inductive Listener where
  /-- Not started, or returned. -/
  | stopped
  | connecting
  /-- The session is up and `LISTEN` has not completed. -/
  | connected
  | listening
  /-- The session is gone; what it has received is still being forwarded. -/
  | lost
  | backoff
deriving DecidableEq, Repr

/-- Where `subscription_loop` stands. -/
inductive Phase where
  /-- There is no subscriber yet. -/
  | idle
  /-- About to read a page, for the first backfill or a later one. -/
  | backfill
  /-- The rows still to be sent, of a page or of one notification. -/
  | sending (rows : List OutboxEvent) (backfilling : Bool)
  | live
  | fetching (sequence : ℤ)
  /-- The connection was lost and the backfill limit is being checked. -/
  | recounting
  | closed

structure Subscription where
  nextSequence : ℤ
  /-- The rows of open transactions. -/
  inserted : List OutboxEvent
  /-- The visible rows, in the order of their commits. -/
  committed : List OutboxEvent
  listener : Listener
  backoffMs : ℕ
  /-- Received by the session and not yet forwarded. -/
  notified : List ℤ
  channel : List Notification
  phase : Phase
  afterSequence : ℤ
  lastSentSequence : ℤ
  /-- The rows the subscriber has been sent, latest last. -/
  sent : List OutboxEvent

def baseBackoffMs : ℕ := 1000
def maxBackoffMs : ℕ := 30000

/-- An empty outbox and no subscriber. -/
def Subscription.empty : Subscription :=
  ⟨1, [], [], .stopped, baseBackoffMs, [], [], .idle, 0, 0, []⟩

namespace Subscription

/-! ### Writers -/

/-- `publish_in_tx` draws the sequence. -/
def insert (s : Subscription) (event : NewOutboxEvent) : Subscription :=
  { s with
    inserted := s.inserted ++ [event.row s.nextSequence]
    nextSequence := s.nextSequence + 1 }

/-- The row becomes visible, and a session that listens is notified. -/
def reveal (s : Subscription) (row : OutboxEvent) : Subscription :=
  { s with
    inserted := s.inserted.filter fun r => r.sequence ≠ row.sequence
    committed := s.committed ++ [row]
    notified := if s.listener = .listening then s.notified ++ [row.sequence] else s.notified }

def commit (s : Subscription) (sequence : ℤ) : Option Subscription :=
  (findBySequence s.inserted sequence).map s.reveal

def rollback (s : Subscription) (sequence : ℤ) : Subscription :=
  { s with inserted := s.inserted.filter fun r => r.sequence ≠ sequence }

/-! ### `connection_loop` -/

/-- Send to the subscription loop and go on as `listener`; return when the receiver
is gone. -/
def deliver (s : Subscription) (n : Notification) (listener : Listener) : Subscription :=
  match s.phase with
  | .closed => { s with listener := .stopped, notified := [] }
  | _ => { s with channel := s.channel ++ [n], listener }

def connect (s : Subscription) (ok : Bool) : Option Subscription :=
  match s.listener with
  | .connecting =>
      if ok then some { s with listener := .connected, backoffMs := baseBackoffMs }
      else some (s.deliver .listenDisconnected .backoff)
  | _ => none

def listen (s : Subscription) (ok : Bool) : Option Subscription :=
  match s.listener with
  | .connected =>
      if ok then some { s with listener := .listening }
      else some (s.deliver .listenDisconnected .backoff)
  | _ => none

def lose (s : Subscription) : Option Subscription :=
  match s.listener with
  | .listening => some { s with listener := .lost }
  | _ => none

/-- Pass on the next notification. A lost session ends with `ListenDisconnected`. -/
def forward (s : Subscription) : Option Subscription :=
  match s.listener, s.notified with
  | .listening, q :: rest | .lost, q :: rest =>
      some ({ s with notified := rest }.deliver (.sequence q) s.listener)
  | .lost, [] => some (s.deliver .listenDisconnected .backoff)
  | _, _ => none

def wake (s : Subscription) : Option Subscription :=
  match s.listener with
  | .backoff =>
      some { s with listener := .connecting, backoffMs := min (s.backoffMs * 2) maxBackoffMs }
  | _ => none

/-- The loop sees the cancellation; what it has not forwarded is dropped. -/
def cancelListener (s : Subscription) : Option Subscription :=
  match s.listener with
  | .connecting | .listening | .lost => some { s with listener := .stopped, notified := [] }
  | _ => none

/-! ### `subscription_loop` -/

/-- `subscribe`: a backfill that is too long is refused, else both loops start. -/
def subscribe (s : Subscription) (afterSequence : UInt64) (read : Bool) : Option Subscription :=
  match s.phase with
  | .idle =>
      if read ∧ countAfter s.committed (asI64 afterSequence) ≤ maxBackfillEvents then
        some
          { s with
            phase := .backfill
            afterSequence := asI64 afterSequence
            lastSentSequence := asI64 afterSequence
            listener := .connecting }
      else some s
  | _ => none

/-- Read the next page; an empty one ends the backfill. -/
def readPage (s : Subscription) (read : Bool) : Option Subscription :=
  match s.phase with
  | .backfill =>
      if read then
        match fetchAfterBatch s.committed s.lastSentSequence with
        | [] => some { s with phase := .live }
        | rows => some { s with phase := .sending rows true }
      else some { s with phase := .closed }
  | _ => none

/-- Send the next row in hand; a subscriber that does not take it is dropped. -/
def send (s : Subscription) (accepted : Bool) : Option Subscription :=
  match s.phase with
  | .sending (row :: rows) backfilling =>
      if accepted then
        some
          { s with
            lastSentSequence := row.sequence
            sent := s.sent ++ [row]
            phase := match rows, backfilling with
              | [], true => .backfill
              | [], false => .live
              | rows, backfilling => .sending rows backfilling }
      else some { s with phase := .closed }
  | _ => none

/-- Take the next notification; a sequence that is not above the last one sent is
skipped. -/
def recv (s : Subscription) : Option Subscription :=
  match s.phase, s.channel with
  | .live, .sequence q :: rest =>
      if q ≤ s.lastSentSequence then some { s with channel := rest }
      else some { s with channel := rest, phase := .fetching q }
  | .live, .listenDisconnected :: rest => some { s with channel := rest, phase := .recounting }
  | .live, [] => if s.listener = .stopped then some { s with phase := .closed } else none
  | _, _ => none

/-- Look up the notified row; a row that is missing or cannot be read is only
logged. -/
def lookUp (s : Subscription) (read : Bool) : Option Subscription :=
  match s.phase with
  | .fetching q =>
      match read, findBySequence s.committed q with
      | true, some row => some { s with phase := .sending [row] false }
      | _, _ => some { s with phase := .live }
  | _ => none

def recount (s : Subscription) (read : Bool) : Option Subscription :=
  match s.phase with
  | .recounting =>
      if read ∧ countAfter s.committed s.lastSentSequence ≤ maxBackfillEvents then
        some { s with phase := .backfill }
      else some { s with phase := .closed }
  | _ => none

/-- The loop sees the cancellation. -/
def cancelSubscription (s : Subscription) : Option Subscription :=
  match s.phase with
  | .backfill | .live => some { s with phase := .closed }
  | _ => none

end Subscription

/-! ### Steps -/

inductive StreamEvent where
  | insert (event : NewOutboxEvent)
  | commit (sequence : ℤ)
  | rollback (sequence : ℤ)
  | connect (ok : Bool)
  | listen (ok : Bool)
  | lose
  | forward
  | wake
  | cancelListener
  | subscribe (afterSequence : UInt64) (read : Bool)
  | readPage (read : Bool)
  | send (accepted : Bool)
  | recv
  | lookUp (read : Bool)
  | recount (read : Bool)
  | cancelSubscription

def next (s : Subscription) : StreamEvent → Option Subscription
  | .insert event => some (s.insert event)
  | .commit sequence => s.commit sequence
  | .rollback sequence => some (s.rollback sequence)
  | .connect ok => s.connect ok
  | .listen ok => s.listen ok
  | .lose => s.lose
  | .forward => s.forward
  | .wake => s.wake
  | .cancelListener => s.cancelListener
  | .subscribe afterSequence read => s.subscribe afterSequence read
  | .readPage read => s.readPage read
  | .send accepted => s.send accepted
  | .recv => s.recv
  | .lookUp read => s.lookUp read
  | .recount read => s.recount read
  | .cancelSubscription => s.cancelSubscription

end LightningGateway.EventStream
