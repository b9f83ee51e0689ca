import LightningGateway.AggregateMethods
import LightningGateway.PaymentLogs
import LightningGateway.InvoiceLogs
import Mathlib.Computability.RegularExpressions

/-!
# The words of event kinds a log can spell

A regular expression for each aggregate. Commands in any order, with any arguments
and any restarts in between, produce logs whose kinds spell a word of the
expression, and every word is produced by some commands.
-/
namespace LightningGateway.EventWords
open Primitives EventTables EventSourcing PaymentAggregate InvoiceAggregate AggregateMethods
open RegularExpression

/-! ### Kinds -/

inductive PaymentKind where
  | initiated
  | pending
  | completed
  | failed
  | reversed
deriving DecidableEq, Repr

def paymentKind : PaymentEvent → PaymentKind
  | .initiated .. => .initiated
  | .pending _ => .pending
  | .completed .. => .completed
  | .failed .. => .failed
  | .reversed .. => .reversed

inductive InvoiceKind where
  | created
  | htlcHeld
  | settled
  | settledIntraledger
  | canceled
deriving DecidableEq, Repr

def invoiceKind : InvoiceEvent → InvoiceKind
  | .created .. => .created
  | .htlcHeld .. => .htlcHeld
  | .settled _ => .settled
  | .settledIntraledger _ => .settledIntraledger
  | .canceled .. => .canceled

def paymentWord (p : Payment) : List PaymentKind := p.events.iterAll.map paymentKind

def invoiceWord (i : Invoice) : List InvoiceKind := i.events.iterAll.map invoiceKind

/-- `Initiated Pending? (Failed | Completed Reversed?)?`. -/
def paymentWords : RegularExpression PaymentKind :=
  char .initiated * (1 + char .pending) *
    (1 + (char .failed + char .completed * (1 + char .reversed)))

/-- `Created (HtlcHeld (Settled | Canceled)? | SettledIntraledger | Canceled)?`. -/
def invoiceWords : RegularExpression InvoiceKind :=
  char .created *
    (1 + (char .htlcHeld * (1 + (char .settled + char .canceled)) + char .settledIntraledger +
      char .canceled))

theorem mem_char {α : Type} {a : α} {w : List α} : w ∈ (char a).matches' ↔ w = [a] := Iff.rfl

/-- An optional part is missing or there. -/
theorem mem_optional {α : Type} {P : RegularExpression α} {w : List α} :
    w ∈ (1 + P).matches' ↔ w = [] ∨ w ∈ P.matches' := Iff.rfl

/-- The words of `paymentWords`, listed. -/
theorem mem_paymentWords {w : List PaymentKind} :
    w ∈ paymentWords.matches' ↔
      w = [.initiated] ∨ w = [.initiated, .pending] ∨ w = [.initiated, .failed] ∨
        w = [.initiated, .pending, .failed] ∨ w = [.initiated, .completed] ∨
        w = [.initiated, .pending, .completed] ∨ w = [.initiated, .completed, .reversed] ∨
        w = [.initiated, .pending, .completed, .reversed] := by
  constructor
  · intro h
    simp only [paymentWords, matches'_mul, Language.mem_mul, matches'_add _ (_ * _),
      Language.mem_add, mem_optional, mem_char] at h
    obtain ⟨_, ⟨_, rfl, b, hb, rfl⟩, c, hc, rfl⟩ := h
    rcases hb with rfl | rfl <;> rcases hc with rfl | rfl | ⟨_, rfl, d, rfl | rfl, rfl⟩ <;> simp
  · rintro (rfl | rfl | rfl | rfl | rfl | rfl | rfl | rfl) <;>
      exact (rmatch_iff_matches' _ _).mp (by decide)

theorem mem_invoiceWords {w : List InvoiceKind} :
    w ∈ invoiceWords.matches' ↔
      w = [.created] ∨ w = [.created, .htlcHeld] ∨ w = [.created, .htlcHeld, .settled] ∨
        w = [.created, .htlcHeld, .canceled] ∨ w = [.created, .settledIntraledger] ∨
        w = [.created, .canceled] := by
  constructor
  · intro h
    simp only [invoiceWords, matches'_mul, Language.mem_mul, matches'_add (_ + _) _,
      matches'_add (_ * _) _, Language.mem_add, mem_optional, matches'_add (char _) _, mem_char] at h
    obtain ⟨_, rfl, c, hc, rfl⟩ := h
    rcases hc with rfl | (⟨_, rfl, d, rfl | rfl | rfl, rfl⟩ | rfl) | rfl <;> simp
  · rintro (rfl | rfl | rfl | rfl | rfl | rfl) <;>
      exact (rmatch_iff_matches' _ _).mp (by decide)

/-! ### From logs to words -/

/-- A log spells a word that ends as its state says. -/
theorem paymentLog_word {n : NewPayment} {log : List PaymentEvent} {s : PaymentState}
    (h : PaymentLogs.PaymentLog n log s) : log.map paymentKind ∈ paymentWords.matches' := by
  have live : ∀ {log s}, PaymentLogs.PaymentLog n log s → s = .initiated ∨ s = .pending →
      log.map paymentKind = [.initiated] ∨ log.map paymentKind = [.initiated, .pending] := by
    intro log s h hs
    cases h with
    | initiated => exact .inl rfl
    | pending t h =>
        cases h
        exact .inr rfl
    | completed | failed | reversed => rcases hs with hs | hs <;> cases hs
  rw [mem_paymentWords]
  cases h with
  | initiated => exact .inl rfl
  | pending t h =>
      cases h
      exact .inr (.inl rfl)
  | completed t p f o hs h | failed t r hs h =>
      rcases live h hs with hw | hw <;> simp [hw, paymentKind]
  | reversed t r h =>
      cases h with
      | completed t p f o hs h => rcases live h hs with hw | hw <;> simp [hw, paymentKind]

theorem invoiceLog_word {n : NewInvoice} {log : List InvoiceEvent} {s : InvoiceState}
    {held : Option MilliSatoshi} (h : InvoiceLogs.InvoiceLog n log s held) :
    log.map invoiceKind ∈ invoiceWords.matches' := by
  have opened : ∀ {log held}, InvoiceLogs.InvoiceLog n log .opened held →
      log.map invoiceKind = [.created] := by
    intro log held h
    cases h
    rfl
  have parked : ∀ {log held}, InvoiceLogs.InvoiceLog n log .held held →
      log.map invoiceKind = [.created, .htlcHeld] := by
    intro log held h
    cases h with
    | htlcHeld t a h => simp [opened h, invoiceKind]
  rw [mem_invoiceWords]
  cases h with
  | created => exact .inl rfl
  | htlcHeld t a h | settledIntraledger t h => simp [opened h, invoiceKind]
  | settled t h => simp [parked h, invoiceKind]
  | canceled t r hs h =>
      rcases hs with rfl | rfl
      · simp [opened h, invoiceKind]
      · simp [parked h, invoiceKind]

/-- No command leaves the family of logs. -/
theorem PaymentCommand.tracks {n : NewPayment} {p : Payment} (c : PaymentCommand)
    (h : PaymentLogs.Tracks n p) : PaymentLogs.Tracks n (c.method.on p).2 := by
  by_cases he : (c.method.on p).1 = .ok .executed
  · rw [c.method_on] at he ⊢
    cases hf : c.function p with
    | error e => exact h
    | ok r =>
        obtain ⟨r, p'⟩ := r
        rw [hf] at he
        obtain rfl : r = .executed := Except.ok.inj he
        cases c with
        | markPending t => exact (PaymentLogs.markPending_executed h hf).2.2
        | settle x f o t => exact (PaymentLogs.settle_executed h hf).2.2.2.2
        | fail r t => exact (PaymentLogs.fail_executed h hf).2.2.2.2
        | reverse r t => exact (PaymentLogs.reverse_executed h hf).2.2.2.2
  · rwa [Records.unchanged c.records he]

theorem InvoiceCommand.tracks {n : NewInvoice} {i : Invoice} (c : InvoiceCommand)
    (h : InvoiceLogs.Tracks n i) : InvoiceLogs.Tracks n (c.method.on i).2 := by
  by_cases he : (c.method.on i).1 = .ok .executed
  · rw [c.method_on] at he ⊢
    cases hf : c.function i with
    | error e => exact h
    | ok r =>
        obtain ⟨r, i'⟩ := r
        rw [hf] at he
        obtain rfl : r = .executed := Except.ok.inj he
        cases c with
        | markHeld a t => exact (InvoiceLogs.markHeld_executed h hf).2.2.2.2.2
        | settle t => exact (InvoiceLogs.settle_executed h hf).2.2.2.2.2
        | settleIntraledger t => exact (InvoiceLogs.settleIntraledger_executed h hf).2
        | cancel r t => exact (InvoiceLogs.cancel_executed h hf).2.2.2.2.2
  · rwa [Records.unchanged c.records he]

theorem newPayment_tracks (n : NewPayment) :
    ∃ p, Payment.tryFromEvents n.intoEvents = .ok p ∧ PaymentLogs.Tracks n p :=
  ⟨_, rfl, .initiated, rfl, rfl, rfl, rfl⟩

theorem newInvoice_tracks (n : NewInvoice) :
    ∃ i, Invoice.tryFromEvents n.intoEvents = .ok i ∧ InvoiceLogs.Tracks n i :=
  ⟨_, rfl, .created, rfl, rfl, rfl, rfl, rfl⟩

theorem reload_payment {n : NewPayment} {p : Payment} (h : PaymentLogs.Tracks n p) :
    ∃ q, paymentSourcing.reload p = .ok q ∧ PaymentLogs.Tracks n q := by
  obtain ⟨q, hq, -, -, -, ht⟩ := PaymentLogs.hydrate_log p.events.id h.log
  exact ⟨q, hq, ht⟩

theorem reload_invoice {n : NewInvoice} {i : Invoice} (h : InvoiceLogs.Tracks n i) :
    ∃ j, invoiceSourcing.reload i = .ok j ∧ InvoiceLogs.Tracks n j := by
  obtain ⟨j, hj, -, -, -, -, ht⟩ := InvoiceLogs.hydrate_log i.events.id h.log
  exact ⟨j, hj, ht⟩

/-! ### From words to commands -/

/-- A command for each event that can follow the first one. -/
def paymentCommandFor (preimage : Preimage) (t : Timestamp) : PaymentKind → PaymentCommand
  | .initiated | .pending => .markPending t
  | .completed => .settle preimage .zero [] t
  | .failed => .fail .timeout t
  | .reversed => .reverse "" t

def invoiceCommandFor (t : Timestamp) : InvoiceKind → InvoiceCommand
  | .created | .htlcHeld => .markHeld .zero t
  | .settled => .settle t
  | .settledIntraledger => .settleIntraledger t
  | .canceled => .cancel .expired t

theorem payment_spells {n : NewPayment} {p : Payment} {w : List PaymentKind}
    (hp : Payment.tryFromEvents n.intoEvents = .ok p) (hw : w ∈ paymentWords.matches')
    (preimage : Preimage) (t : Timestamp) :
    paymentWord (obey PaymentCommand.method p (w.tail.map (paymentCommandFor preimage t))) = w := by
  cases hp
  rcases mem_paymentWords.mp hw with rfl | rfl | rfl | rfl | rfl | rfl | rfl | rfl <;> rfl

theorem invoice_spells {n : NewInvoice} {i : Invoice} {w : List InvoiceKind}
    (hi : Invoice.tryFromEvents n.intoEvents = .ok i) (hw : w ∈ invoiceWords.matches')
    (t : Timestamp) :
    invoiceWord (obey InvoiceCommand.method i (w.tail.map (invoiceCommandFor t))) = w := by
  cases hi
  rcases mem_invoiceWords.mp hw with rfl | rfl | rfl | rfl | rfl | rfl <;> rfl

/-! ### Exactly these words -/

theorem paymentWords_exclusive {w : List PaymentKind} (hw : w ∈ paymentWords.matches') :
    w.Nodup ∧ ¬(.failed ∈ w ∧ .completed ∈ w) := by
  rcases mem_paymentWords.mp hw with rfl | rfl | rfl | rfl | rfl | rfl | rfl | rfl <;> decide

theorem invoiceWords_exclusive {w : List InvoiceKind} (hw : w ∈ invoiceWords.matches') :
    w.Nodup ∧ (.settled ∈ w →
      [.htlcHeld, .settled].Sublist w ∧ .settledIntraledger ∉ w ∧ .canceled ∉ w) := by
  rcases mem_invoiceWords.mp hw with rfl | rfl | rfl | rfl | rfl | rfl <;> decide

/-- The kinds of a reachable payment log spell a word of `paymentWords`, those of an
invoice log a word of `invoiceWords`, through any commands and restarts; and commands
alone spell every word. -/
theorem event_words :
    (∀ n : NewPayment, ∃ p₀, Payment.tryFromEvents n.intoEvents = .ok p₀ ∧
      (∀ acts : List (Act PaymentCommand),
        ∃ p, live paymentSourcing PaymentCommand.method p₀ acts = .ok p ∧
          paymentWord p ∈ paymentWords.matches' ∧ (paymentWord p).Nodup ∧
          ¬(.failed ∈ paymentWord p ∧ .completed ∈ paymentWord p)) ∧
      ∀ w ∈ paymentWords.matches', ∃ commands,
        paymentWord (obey PaymentCommand.method p₀ commands) = w) ∧
    ∀ n : NewInvoice, ∃ i₀, Invoice.tryFromEvents n.intoEvents = .ok i₀ ∧
      (∀ acts : List (Act InvoiceCommand),
        ∃ i, live invoiceSourcing InvoiceCommand.method i₀ acts = .ok i ∧
          invoiceWord i ∈ invoiceWords.matches' ∧ (invoiceWord i).Nodup ∧
          (.settled ∈ invoiceWord i → [.htlcHeld, .settled].Sublist (invoiceWord i) ∧
            .settledIntraledger ∉ invoiceWord i ∧ .canceled ∉ invoiceWord i)) ∧
      ∀ w ∈ invoiceWords.matches', ∃ commands,
        invoiceWord (obey InvoiceCommand.method i₀ commands) = w := by
  constructor
  · intro n
    obtain ⟨p₀, hp₀, ht⟩ := newPayment_tracks n
    refine ⟨p₀, hp₀, fun acts => ?_, fun w hw => ?_⟩
    · obtain ⟨p, hp, hlog⟩ := live_invariant (S := paymentSourcing)
        (fun c p => PaymentCommand.tracks (n := n) c) (fun p => reload_payment) ht acts
      have hword := paymentLog_word hlog.log
      exact ⟨p, hp, hword, paymentWords_exclusive hword⟩
    · exact ⟨_, payment_spells hp₀ hw ⟨List.replicate 32 0, rfl⟩ ⟨0⟩⟩
  · intro n
    obtain ⟨i₀, hi₀, ht⟩ := newInvoice_tracks n
    refine ⟨i₀, hi₀, fun acts => ?_, fun w hw => ?_⟩
    · obtain ⟨i, hi, hlog⟩ := live_invariant (S := invoiceSourcing)
        (fun c i => InvoiceCommand.tracks (n := n) c) (fun i => reload_invoice) ht acts
      have hword := invoiceLog_word hlog.log
      exact ⟨i, hi, hword, invoiceWords_exclusive hword⟩
    · exact ⟨_, invoice_spells hi₀ hw ⟨0⟩⟩

end LightningGateway.EventWords
