import LightningGateway.GuardedRuns
import LightningGateway.LndWire

/-!
# The listener of one invoice

`subscribe_invoice` opens LND's stream for one hash, pumps its messages into the
channel of the update consumer, and opens the stream again when it ends. LND's side
is a script: what each open is answered with, and the messages of each session. The
token may be cancelled and the receiver dropped at any time. Left alone, the listener
forwards what concerns its invoice up to the first final state, and nothing else.
-/
namespace LightningGateway.InvoiceListener
open GuardedRuns Primitives LndWire

/-! ### Up to the first hit -/

section
universe u
variable {α : Type u} {p : α → Bool} {ys : List α} {x : α}

/-- The elements through the first one that satisfies `p`. -/
def upTo (p : α → Bool) : List α → List α
  | [] => []
  | x :: xs => if p x then [x] else x :: upTo p xs

theorem upTo_hit (h : p x = true) : upTo p (x :: ys) = [x] := if_pos h

theorem upTo_miss (h : p x = false) : upTo p (x :: ys) = x :: upTo p ys :=
  if_neg (by rw [h]; decide)

theorem upTo_initial (p : α → Bool) (xs : List α) : upTo p xs <+: xs := by
  induction xs with
  | nil => exact List.prefix_rfl
  | cons x xs ih =>
      unfold upTo
      split_ifs
      · exact ⟨xs, rfl⟩
      · exact (List.prefix_cons_inj x).mpr ih

end

/-! ### The listener -/

/-- `SubscribeInvoiceExit` -/
inductive SubscribeInvoiceExit where
  | terminal
  | cancelled
deriving DecidableEq, Repr

/-- What LND sends on one stream, and how the stream ends. -/
structure Session where
  messages : List WireInvoice
  closing : Except Status Unit
deriving DecidableEq, Repr

/-- Where `subscribe_invoice` stands. From `reading` to `driven` it is inside
`drive_stream`. -/
inductive Phase where
  | start
  /-- Boot-stub mode: only the token is awaited. -/
  | parked
  /-- At the head of the loop. -/
  | looping
  | opening
  | reading (stream : Session)
  | sending (update : InvoiceUpdate) (stream : Session)
  /-- `drive_stream` has its result, the token is not looked at yet. -/
  | driven (res : Except LndError (Option SubscribeInvoiceExit))
  | backoff
  | returned (exit : SubscribeInvoiceExit)
deriving DecidableEq, Repr

structure Listener where
  connected : Bool
  paymentHash : PaymentHash
  phase : Phase
  /-- How LND answers the next opens. -/
  script : List (Except LndError Session)
  cancelled : Bool
  receiverLive : Bool
  /-- What the channel took, latest last. -/
  forwarded : List InvoiceUpdate
deriving DecidableEq, Repr

inductive Event where
  /-- The listener runs to its next await, or the await it is at completes. -/
  | advance
  /-- A `select!` takes the branch of the cancelled token. -/
  | noticeCancel
  | cancel
  | dropReceiver
deriving DecidableEq, Repr

def terminal (update : InvoiceUpdate) : Bool :=
  update.state = .settled ∨ update.state = .canceled

/-- One turn of `drive_stream`, on the next message of the stream. -/
def readMessage (paymentHash : PaymentHash) : Session → Phase
  | ⟨[], .ok ()⟩ => .driven (.ok none)
  | ⟨[], .error status⟩ => .driven (.error (.rpc status))
  | ⟨invoice :: rest, closing⟩ =>
      match lndInvoiceToUpdate invoice with
      | .error _ => .reading ⟨rest, closing⟩
      | .ok update =>
          if update.paymentHash ≠ paymentHash then .reading ⟨rest, closing⟩
          else .sending update ⟨rest, closing⟩

namespace Listener

def sendUpdate (s : Listener) (update : InvoiceUpdate) (stream : Session) : Listener :=
  if s.receiverLive then
    { s with
      forwarded := s.forwarded ++ [update]
      phase := if terminal update then .driven (.ok (some .terminal)) else .reading stream }
  else { s with phase := .driven (.ok (some .cancelled)) }

/-- What the loop does with the result of `drive_stream`. -/
def afterStream (cancelled : Bool) : Except LndError (Option SubscribeInvoiceExit) → Phase
  | .ok (some exit) => if cancelled then .returned .cancelled else .returned exit
  | .ok none | .error _ => if cancelled then .returned .cancelled else .backoff

def advance (s : Listener) : Option Listener :=
  match s.phase with
  | .start => some { s with phase := if s.connected then .looping else .parked }
  | .parked => none
  | .looping => some { s with phase := if s.cancelled then .returned .cancelled else .opening }
  | .opening =>
      match s.script with
      | [] => none
      | .ok stream :: script => some { s with phase := .reading stream, script }
      | .error _ :: script => some { s with phase := .backoff, script }
  | .reading stream => some { s with phase := readMessage s.paymentHash stream }
  | .sending update stream => some (s.sendUpdate update stream)
  | .driven res => some { s with phase := afterStream s.cancelled res }
  | .backoff => some { s with phase := .looping }
  | .returned _ => none

/-- The branches of the four `select!`s that await the token. -/
def noticeCancel (s : Listener) : Option Listener :=
  if s.cancelled then
    match s.phase with
    | .parked | .backoff => some { s with phase := .returned .cancelled }
    | .reading _ | .sending _ _ => some { s with phase := .driven (.ok (some .cancelled)) }
    | _ => none
  else none

def step (s : Listener) : Event → Option Listener
  | .advance => s.advance
  | .noticeCancel => s.noticeCancel
  | .cancel => some { s with cancelled := true }
  | .dropReceiver => some { s with receiverLive := false }

end Listener

/-- A call of `subscribe_invoice`. -/
def subscribeInvoice (connected : Bool) (paymentHash : PaymentHash)
    (script : List (Except LndError Session)) : Listener :=
  ⟨connected, paymentHash, .start, script, false, true, []⟩

abbrev Runs (s : Listener) (es : List Event) (t : Listener) : Prop :=
  Run Listener.step (fun _ _ => True) s es t

/-! ### What concerns the invoice -/

/-- The message as an update, if the adapter reads it and it is about this hash. -/
def accept (paymentHash : PaymentHash) (invoice : WireInvoice) : Option InvoiceUpdate :=
  match lndInvoiceToUpdate invoice with
  | .error _ => none
  | .ok update => if update.paymentHash = paymentHash then some update else none

def Session.relevant (paymentHash : PaymentHash) (stream : Session) : List InvoiceUpdate :=
  stream.messages.filterMap (accept paymentHash)

/-- Nothing comes of a refused open. -/
def relevant (paymentHash : PaymentHash) : Except LndError Session → List InvoiceUpdate
  | .error _ => []
  | .ok stream => stream.relevant paymentHash

/-- The updates of a script that concern the invoice, through the first final one. -/
def due (paymentHash : PaymentHash) (script : List (Except LndError Session)) :
    List InvoiceUpdate :=
  upTo terminal (script.flatMap (relevant paymentHash))

variable {hash : PaymentHash} {script : List (Except LndError Session)} {s t : Listener}
variable {es : List Event} {whole : List InvoiceUpdate} {exit : SubscribeInvoiceExit}

/-- What the rest of the script still holds for the listener. -/
def Listener.ahead (s : Listener) : List InvoiceUpdate :=
  match s.phase with
  | .reading stream =>
      stream.relevant s.paymentHash ++ s.script.flatMap (relevant s.paymentHash)
  | .sending update stream =>
      update :: (stream.relevant s.paymentHash ++ s.script.flatMap (relevant s.paymentHash))
  | _ => s.script.flatMap (relevant s.paymentHash)

/-- The loop goes on. -/
def Phase.pumping : Phase → Bool
  | .parked | .driven (.ok (some _)) | .returned _ => false
  | _ => true

/-- A final update was forwarded. -/
def Phase.over : Phase → Bool
  | .driven (.ok (some .terminal)) | .returned .terminal => true
  | _ => false

/-- Cancelled, or never connected. -/
def Phase.gone : Phase → Bool
  | .parked | .driven (.ok (some .cancelled)) | .returned .cancelled => true
  | _ => false

/-- Where a listener stands with respect to the updates it is to forward. -/
inductive Standing (whole : List InvoiceUpdate) (s : Listener) : Prop where
  | pumping : s.phase.pumping = true → (∀ u ∈ s.forwarded, terminal u = false) →
      whole = s.forwarded ++ upTo terminal s.ahead → Standing whole s
  | ended : s.phase.over = true → s.forwarded = whole →
      (∃ u, s.forwarded.getLast? = some u ∧ terminal u = true) → Standing whole s
  | gone : s.phase.gone = true → s.forwarded <+: whole → Standing whole s

theorem not_over_of_pumping {p : Phase} (h : p.pumping = true) :
    p.over = false ∧ p.gone = false := by
  cases p with
  | driven res => rcases res with e | _ | exit <;> first | exact ⟨rfl, rfl⟩ | cases h
  | parked => cases h
  | returned exit => cases h
  | _ => exact ⟨rfl, rfl⟩

theorem Standing.initial (h : Standing whole s) : s.forwarded <+: whole := by
  cases h with
  | pumping _ _ hwhole => exact ⟨_, hwhole.symm⟩
  | ended _ hwhole _ => rw [hwhole]
  | gone _ hpre => exact hpre

/-- The phase moves on and the script is read, the channel is not touched. -/
theorem Standing.turn (h : Standing whole s) (hfrom : s.phase.pumping = true)
    (hto : t.phase.pumping = true) (hforwarded : t.forwarded = s.forwarded)
    (hahead : t.ahead = s.ahead) : Standing whole t := by
  cases h with
  | pumping _ hnone hwhole =>
      exact .pumping hto (hforwarded ▸ hnone) (by rw [hforwarded, hahead]; exact hwhole)
  | ended hover => exact absurd hover (by rw [(not_over_of_pumping hfrom).1]; decide)
  | gone hgone => exact absurd hgone (by rw [(not_over_of_pumping hfrom).2]; decide)

theorem Standing.leave (h : Standing whole s) (hforwarded : t.forwarded = s.forwarded)
    (hto : t.phase.gone = true) : Standing whole t :=
  .gone hto (hforwarded ▸ h.initial)

/-- The token and the receiver do not change where the listener stands. -/
theorem Standing.same (h : Standing whole s) (hphase : t.phase = s.phase)
    (hforwarded : t.forwarded = s.forwarded) (hahead : t.ahead = s.ahead) :
    Standing whole t := by
  cases h with
  | pumping hp hnone hwhole =>
      exact .pumping (hphase ▸ hp) (hforwarded ▸ hnone) (by rw [hforwarded, hahead]; exact hwhole)
  | ended hp hwhole hlast =>
      exact .ended (hphase ▸ hp) (hforwarded.trans hwhole) (hforwarded ▸ hlast)
  | gone hp hpre => exact .gone (hphase ▸ hp) (hforwarded ▸ hpre)

theorem standing_start (connected : Bool) :
    Standing (due hash script) (subscribeInvoice connected hash script) :=
  .pumping rfl nofun rfl

/-- A message that does not concern the invoice is passed over, one that does is next. -/
theorem readMessage_spec (hash : PaymentHash) (stream : Session) :
    (∃ res, readMessage hash stream = .driven res ∧ stream.messages = [] ∧
        ∀ exit, res ≠ .ok (some exit)) ∨
      (∃ rest, readMessage hash stream = .reading rest ∧
        rest.relevant hash = stream.relevant hash ∧
        rest.messages.length + 1 = stream.messages.length) ∨
      ∃ update rest, readMessage hash stream = .sending update rest ∧
        stream.relevant hash = update :: rest.relevant hash ∧
        rest.messages.length + 1 = stream.messages.length := by
  obtain ⟨messages, closing⟩ := stream
  cases messages with
  | nil =>
      refine .inl ?_
      cases closing with
      | ok => exact ⟨_, rfl, rfl, nofun⟩
      | error status => exact ⟨_, rfl, rfl, nofun⟩
  | cons invoice rest =>
      refine .inr ?_
      unfold Session.relevant readMessage
      dsimp only
      cases hread : lndInvoiceToUpdate invoice with
      | error e =>
          refine .inl ⟨⟨rest, closing⟩, rfl, ?_, rfl⟩
          rw [List.filterMap_cons, accept, hread]
      | ok update =>
          by_cases hhash : update.paymentHash = hash
          · refine .inr ⟨update, ⟨rest, closing⟩, if_neg (not_not.mpr hhash), ?_, rfl⟩
            rw [List.filterMap_cons, accept, hread]
            dsimp only
            rw [if_pos hhash]
          · refine .inl ⟨⟨rest, closing⟩, if_pos hhash, ?_, rfl⟩
            rw [List.filterMap_cons, accept, hread]
            dsimp only
            rw [if_neg hhash]

theorem Standing.send {update : InvoiceUpdate} {stream : Session} (h : Standing whole s)
    (hphase : s.phase = .sending update stream) :
    Standing whole (s.sendUpdate update stream) := by
  cases h with
  | ended hp => rw [hphase] at hp; cases hp
  | gone hp => rw [hphase] at hp; cases hp
  | pumping _ hnone hwhole =>
      have hahead : s.ahead = update :: (stream.relevant s.paymentHash ++
          s.script.flatMap (relevant s.paymentHash)) := by
        rw [Listener.ahead, hphase]
      rw [hahead] at hwhole
      unfold Listener.sendUpdate
      split_ifs with hlive hterm
      · rw [upTo_hit hterm] at hwhole
        exact .ended rfl hwhole.symm ⟨update, List.getLast?_concat .., hterm⟩
      · have hterm := Bool.eq_false_iff.mpr hterm
        rw [upTo_miss hterm] at hwhole
        refine .pumping rfl ?_ (hwhole.trans (List.append_assoc _ [update] _).symm)
        intro u hu
        rcases List.mem_append.mp hu with hu | hu
        · exact hnone u hu
        · exact List.mem_singleton.mp hu ▸ hterm
      · exact .gone rfl ⟨_, hwhole.symm⟩

/-- The result of `drive_stream` returns the call or leads to the next open. -/
theorem Standing.conclude {res : Except LndError (Option SubscribeInvoiceExit)}
    (h : Standing whole s) (hphase : s.phase = .driven res) :
    Standing whole { s with phase := Listener.afterStream s.cancelled res } := by
  by_cases hc : s.cancelled = true
  · refine h.leave rfl ?_
    rw [hc]
    rcases res with e | _ | exit <;> rfl
  · rw [Bool.not_eq_true] at hc
    rcases res with e | _ | exit
    · exact h.turn (by rw [hphase]; rfl) (by rw [hc]; rfl) rfl (by
        simp only [Listener.ahead, hphase, hc]; rfl)
    · exact h.turn (by rw [hphase]; rfl) (by rw [hc]; rfl) rfl (by
        simp only [Listener.ahead, hphase, hc]; rfl)
    · have hsame : (Listener.afterStream s.cancelled (.ok (some exit))).over = s.phase.over ∧
          (Listener.afterStream s.cancelled (.ok (some exit))).gone = s.phase.gone := by
        rw [hc, hphase]
        cases exit <;> exact ⟨rfl, rfl⟩
      cases h with
      | pumping hp => rw [hphase] at hp; cases hp
      | ended hp hwhole hlast => exact .ended (hsame.1.trans hp) hwhole hlast
      | gone hp hpre => exact .gone (hsame.2.trans hp) hpre

theorem Standing.advance (h : Standing whole s) (hstep : s.advance = some t) :
    Standing whole t := by
  unfold Listener.advance at hstep
  split at hstep
  case h_1 hphase =>
    cases hstep
    split_ifs
    · exact h.turn (by rw [hphase]; rfl) rfl rfl (by simp only [Listener.ahead, hphase])
    · exact h.leave rfl rfl
  case h_2 => cases hstep
  case h_3 hphase =>
    cases hstep
    split_ifs
    · exact h.leave rfl rfl
    · exact h.turn (by rw [hphase]; rfl) rfl rfl (by simp only [Listener.ahead, hphase])
  case h_4 hphase =>
    split at hstep
    case h_1 => cases hstep
    case h_2 stream rest hscript =>
      cases hstep
      exact h.turn (by rw [hphase]; rfl) rfl rfl (by
        simp only [Listener.ahead, hphase, hscript, List.flatMap_cons, relevant])
    case h_3 e rest hscript =>
      cases hstep
      exact h.turn (by rw [hphase]; rfl) rfl rfl (by
        simp only [Listener.ahead, hphase, hscript, List.flatMap_cons, relevant, List.nil_append])
  case h_5 stream hphase =>
    cases hstep
    have hfrom : s.phase.pumping = true := by rw [hphase]; rfl
    obtain ⟨res, hread, hnil, hres⟩ | ⟨rest, hread, hrel, -⟩ | ⟨update, rest, hread, hrel, -⟩ :=
      readMessage_spec s.paymentHash stream
    · rw [hread]
      refine h.turn hfrom ?_ rfl ?_
      · rcases res with e | _ | exit
        · rfl
        · rfl
        · exact absurd rfl (hres exit)
      · simp only [Listener.ahead, hphase, Session.relevant, hnil, List.filterMap_nil,
          List.nil_append]
    · rw [hread]
      exact h.turn hfrom rfl rfl (by simp only [Listener.ahead, hphase, hrel])
    · rw [hread]
      exact h.turn hfrom rfl rfl (by simp only [Listener.ahead, hphase, hrel, List.cons_append])
  case h_6 update stream hphase =>
    cases hstep
    exact h.send hphase
  case h_7 res hphase =>
    cases hstep
    exact h.conclude hphase
  case h_8 hphase =>
    cases hstep
    exact h.turn (by rw [hphase]; rfl) rfl rfl (by simp only [Listener.ahead, hphase])
  case h_9 => cases hstep

theorem Standing.noticeCancel (h : Standing whole s) (hstep : s.noticeCancel = some t) :
    Standing whole t := by
  unfold Listener.noticeCancel at hstep
  split_ifs at hstep
  split at hstep
  all_goals cases hstep
  all_goals exact h.leave rfl rfl

theorem Standing.step {e : Event} (h : Standing whole s) (hstep : s.step e = some t) :
    Standing whole t := by
  cases e with
  | advance => exact h.advance hstep
  | noticeCancel => exact h.noticeCancel hstep
  | cancel =>
      cases hstep
      exact h.same rfl rfl rfl
  | dropReceiver =>
      cases hstep
      exact h.same rfl rfl rfl

theorem standing_run {connected : Bool} (h : Runs (subscribeInvoice connected hash script) es s) :
    Standing (due hash script) s :=
  h.invariant (J := Standing (due hash script)) (fun _ _ _ _ hstep hs => hs.step hstep)
    (standing_start connected)

/-! ### Left alone -/

/-- Connected, with a live receiver, not cancelled. -/
structure Quiet (s : Listener) : Prop where
  connected : s.connected = true
  cancelled : s.cancelled = false
  receiverLive : s.receiverLive = true
  stays : s.phase.gone = false

/-- Nobody cancels the token or drops the receiver. -/
def Undisturbed (es : List Event) : Prop := .cancel ∉ es ∧ .dropReceiver ∉ es

theorem Quiet.advance (h : Quiet s) (hstep : s.advance = some t) : Quiet t := by
  obtain ⟨hconn, hcancel, hlive, hstays⟩ := h
  unfold Listener.advance at hstep
  split at hstep
  case h_1 =>
    cases hstep
    exact ⟨hconn, hcancel, hlive, by simp only [hconn, if_true]; rfl⟩
  case h_2 => cases hstep
  case h_3 =>
    cases hstep
    exact ⟨hconn, hcancel, hlive, by simp only [hcancel]; rfl⟩
  case h_4 =>
    split at hstep
    case h_1 => cases hstep
    all_goals
      cases hstep
      exact ⟨hconn, hcancel, hlive, rfl⟩
  case h_5 stream _ =>
    cases hstep
    refine ⟨hconn, hcancel, hlive, ?_⟩
    obtain ⟨res, hread, -, hres⟩ | ⟨rest, hread, -, -⟩ | ⟨update, rest, hread, -, -⟩ :=
      readMessage_spec s.paymentHash stream
    · simp only [hread]
      rcases res with e | _ | exit
      · rfl
      · rfl
      · exact absurd rfl (hres exit)
    · simp only [hread]
      rfl
    · simp only [hread]
      rfl
  case h_6 update stream _ =>
    cases hstep
    unfold Listener.sendUpdate
    rw [if_pos hlive]
    refine ⟨hconn, hcancel, hlive, ?_⟩
    dsimp only
    split_ifs <;> rfl
  case h_7 res hphase =>
    cases hstep
    refine ⟨hconn, hcancel, hlive, ?_⟩
    rw [hphase] at hstays
    simp only [hcancel]
    rcases res with e | _ | exit
    · rfl
    · rfl
    · cases exit with
      | terminal => rfl
      | cancelled => cases hstays
  case h_8 =>
    cases hstep
    exact ⟨hconn, hcancel, hlive, rfl⟩
  case h_9 => cases hstep

/-- How many steps a phase may still take before the next open. -/
def Phase.weight : Phase → ℕ
  | .parked | .returned _ => 0
  | .opening => 1
  | .looping => 2
  | .backoff | .start => 3
  | .driven _ => 4
  | .reading stream => 2 * stream.messages.length + 5
  | .sending _ stream => 2 * stream.messages.length + 6

def attemptWeight : Except LndError Session → ℕ
  | .error _ => 3
  | .ok stream => 2 * stream.messages.length + 5

def Listener.weight (s : Listener) : ℕ := s.phase.weight + (s.script.map attemptWeight).sum

theorem afterStream_weight (cancelled : Bool)
    (res : Except LndError (Option SubscribeInvoiceExit)) :
    (Listener.afterStream cancelled res).weight ≤ 3 := by
  rcases res with e | _ | exit <;> cases cancelled <;> simp [Listener.afterStream, Phase.weight]

/-- The loops end: every step takes something off what is left of the script. -/
theorem advance_weight (hstep : s.advance = some t) : t.weight < s.weight := by
  unfold Listener.advance at hstep
  unfold Listener.weight
  split at hstep
  case h_1 hphase =>
    cases hstep
    rw [hphase]
    dsimp only
    split_ifs <;> simp only [Phase.weight] <;> omega
  case h_2 => cases hstep
  case h_3 hphase =>
    cases hstep
    rw [hphase]
    dsimp only
    split_ifs <;> simp only [Phase.weight] <;> omega
  case h_4 hphase =>
    split at hstep
    case h_1 => cases hstep
    all_goals
      rename_i hscript
      cases hstep
      rw [hphase, hscript]
      simp only [List.map_cons, List.sum_cons, attemptWeight, Phase.weight]
      omega
  case h_5 stream hphase =>
    cases hstep
    rw [hphase]
    obtain ⟨res, hread, hnil, -⟩ | ⟨rest, hread, -, hlen⟩ | ⟨update, rest, hread, -, hlen⟩ :=
      readMessage_spec s.paymentHash stream
    all_goals
      simp only [hread, Phase.weight]
      omega
  case h_6 update stream hphase =>
    cases hstep
    rw [hphase]
    unfold Listener.sendUpdate
    split_ifs <;> simp only [Phase.weight] <;> omega
  case h_7 res hphase =>
    cases hstep
    rw [hphase]
    dsimp only
    have hle := afterStream_weight s.cancelled res
    have hdriven : (Phase.driven res).weight = 4 := rfl
    omega
  case h_8 hphase =>
    cases hstep
    rw [hphase]
    simp only [Phase.weight]
    omega
  case h_9 => cases hstep

theorem quiet_run (h : Runs s es t) (hes : Undisturbed es) (hs : Quiet s) :
    Quiet t ∧ es.length + t.weight ≤ s.weight := by
  induction es generalizing s with
  | nil =>
      rw [run_nil.mp h] at hs ⊢
      exact ⟨hs, by simp⟩
  | cons e es ih =>
      obtain ⟨-, u, hu, hrest⟩ := run_cons.mp h
      have hes' : Undisturbed es :=
        ⟨fun hm => hes.1 (List.mem_cons_of_mem _ hm), fun hm => hes.2 (List.mem_cons_of_mem _ hm)⟩
      cases e with
      | advance =>
          obtain ⟨hq, hle⟩ := ih hrest hes' (hs.advance hu)
          have hlt := advance_weight hu
          exact ⟨hq, by rw [List.length_cons]; omega⟩
      | noticeCancel =>
          have hstop : s.noticeCancel = none := by
            unfold Listener.noticeCancel
            rw [hs.cancelled]
            rfl
          exact absurd (hstop.symm.trans hu) (by simp)
      | cancel => exact absurd List.mem_cons_self hes.1
      | dropReceiver => exact absurd List.mem_cons_self hes.2

theorem quiet_start : Quiet (subscribeInvoice true hash script) := ⟨rfl, rfl, rfl, rfl⟩

/-- A listener that is left alone stops only where it returned or where LND does not answer. -/
theorem Quiet.stopped (h : Quiet s) (hstop : s.advance = none) :
    s.phase = .returned .terminal ∨ s.phase = .opening ∧ s.script = [] := by
  have hstays := h.stays
  unfold Listener.advance at hstop
  split at hstop
  case h_2 hphase => rw [hphase] at hstays; cases hstays
  case h_4 hphase =>
    split at hstop
    case h_1 hscript => exact .inr ⟨hphase, hscript⟩
    all_goals cases hstop
  case h_9 exit hphase =>
    cases exit with
    | terminal => exact .inl hphase
    | cancelled => rw [hphase] at hstays; cases hstays
  all_goals cases hstop

/-- What has returned neither forwards nor moves again. -/
theorem returned_step {e : Event} (hphase : s.phase = .returned exit) (hstep : s.step e = some t) :
    t.phase = .returned exit ∧ t.forwarded = s.forwarded := by
  cases e with
  | advance =>
      have hstop : s.advance = none := by rw [Listener.advance, hphase]
      exact absurd (hstop.symm.trans hstep) (by simp)
  | noticeCancel =>
      have hstop : s.noticeCancel = none := by
        rw [Listener.noticeCancel, hphase]
        split_ifs <;> rfl
      exact absurd (hstop.symm.trans hstep) (by simp)
  | cancel =>
      cases hstep
      exact ⟨hphase, rfl⟩
  | dropReceiver =>
      cases hstep
      exact ⟨hphase, rfl⟩

theorem returned_run (h : Runs s es t) (hphase : s.phase = .returned exit) :
    t.phase = .returned exit ∧ t.forwarded = s.forwarded :=
  h.invariant (J := fun t => t.phase = .returned exit ∧ t.forwarded = s.forwarded)
    (fun _ _ _ _ hstep hs =>
      let ⟨hp, hf⟩ := returned_step hs.1 hstep
      ⟨hp, hf.trans hs.2⟩)
    ⟨hphase, rfl⟩

/-- A listener that stopped, having forwarded all that is due, returned exactly if there was
something final to forward; otherwise it waits for the next open. -/
theorem stopped_spec (hs : Standing whole s) (hq : Quiet s) (hstop : s.advance = none) :
    s.forwarded = whole ∧
      (s.phase = .returned .terminal ∧ (∃ u, whole.getLast? = some u ∧ terminal u = true) ∨
        s.phase = .opening ∧ s.script = [] ∧ ∀ u ∈ whole, terminal u = false) := by
  rcases hq.stopped hstop with hphase | ⟨hphase, hscript⟩
  · cases hs with
    | pumping hp => rw [hphase] at hp; cases hp
    | ended _ hfwd hlast => exact ⟨hfwd, .inl ⟨hphase, hfwd ▸ hlast⟩⟩
    | gone hp => rw [hphase] at hp; cases hp
  · cases hs with
    | ended hp => rw [hphase] at hp; cases hp
    | gone hp => rw [hphase] at hp; cases hp
    | pumping _ hnone hahead =>
        have hnil : s.ahead = [] := by rw [Listener.ahead, hphase, hscript]; rfl
        rw [hnil, upTo, List.append_nil] at hahead
        exact ⟨hahead.symm, .inr ⟨hphase, hscript, hahead ▸ hnone⟩⟩

/-- Left alone, the listener forwards what is due and nothing else, in the order in which the
sessions brought it, within a number of steps that the script bounds, and returns `Terminal`
exactly when the last of it is final. However it is disturbed, it never forwards anything
else, never returns `Terminal` without a final update, and is silent once it returned. -/
theorem listener_forwards_exactly (hash : PaymentHash) (script : List (Except LndError Session)) :
    (∀ es s, Runs (subscribeInvoice true hash script) es s → Undisturbed es →
        s.forwarded <+: due hash script ∧
          es.length ≤ (script.map attemptWeight).sum + 3 ∧
          (∀ exit, s.phase = .returned exit → exit = .terminal ∧ s.forwarded = due hash script) ∧
          (s.step .advance = none → s.forwarded = due hash script ∧
            (s.phase = .returned .terminal ∧
                (∃ u, (due hash script).getLast? = some u ∧ terminal u = true) ∨
              s.phase = .opening ∧ s.script = [] ∧
                ∀ u ∈ due hash script, terminal u = false))) ∧
      ∀ connected es s, Runs (subscribeInvoice connected hash script) es s →
        s.forwarded <+: due hash script ∧
          (s.phase = .returned .terminal →
            ∃ u, s.forwarded.getLast? = some u ∧ terminal u = true) ∧
          ∀ exit es' t, s.phase = .returned exit → Runs s es' t →
            t.phase = .returned exit ∧ t.forwarded = s.forwarded := by
  constructor
  · intro es s hrun hes
    have hs := standing_run hrun
    obtain ⟨hq, hlen⟩ := quiet_run hrun hes quiet_start
    refine ⟨hs.initial, ?_, fun exit hphase => ?_, fun hstop => stopped_spec hs hq hstop⟩
    · have hstart : (subscribeInvoice true hash script).weight =
          3 + (script.map attemptWeight).sum := rfl
      omega
    · have hstop : s.advance = none := by rw [Listener.advance, hphase]
      obtain ⟨hfwd, ⟨hp, -⟩ | ⟨hp, -, -⟩⟩ := stopped_spec hs hq hstop
      · rw [hphase] at hp
        cases hp
        exact ⟨rfl, hfwd⟩
      · rw [hphase] at hp
        cases hp
  · intro connected es s hrun
    have hs := standing_run hrun
    refine ⟨hs.initial, fun hphase => ?_, fun exit es' t hphase hrest => returned_run hrest hphase⟩
    cases hs with
    | pumping hp => rw [hphase] at hp; cases hp
    | ended _ _ hlast => exact hlast
    | gone hp => rw [hphase] at hp; cases hp

end LightningGateway.InvoiceListener
