import Mathlib.Logic.Function.Basic
import Mathlib.Data.Option.Basic

/-!
# The books of a gateway

What a gateway between a ledger and a payment network is for, with every mechanism left out.
Under each key there is at most one outgoing payment and at most one incoming invoice. A
payment is announced, may be pending, and ends once; an invoice is opened, may park the amount
of the payer, and ends once. When both sides of a payment have their wallets here, one move
completes the payment and settles the invoice.
-/
namespace LightningGateway.TransferBooks

universe u v
variable {κ : Type u} {α : Type v}

/-- The amount is what the payee is to receive. -/
inductive Outgoing (α : Type v) where
  | initiated (amount : α)
  | pending (amount : α)
  | completed (amount : α)
  | failed (amount : α)
  | transferred (amount : α)
deriving DecidableEq, Repr

/-- The amount is what the network has parked. -/
inductive Incoming (α : Type v) where
  | opened
  | held (amount : α)
  | settled (amount : α)
  | canceled (parked : Option α)
  | transferred
deriving DecidableEq, Repr

def Outgoing.ended : Outgoing α → Bool
  | .initiated _ | .pending _ => false
  | .completed _ | .failed _ | .transferred _ => true

def Incoming.ended : Incoming α → Bool
  | .opened | .held _ => false
  | .settled _ | .canceled _ | .transferred => true

/-- An invoice without an outcome. -/
def Incoming.waiting : Option α → Incoming α
  | none => .opened
  | some amount => .held amount

structure Books (κ : Type u) (α : Type v) where
  outgoing : κ → Option (Outgoing α)
  incoming : κ → Option (Incoming α)

inductive Move (κ : Type u) (α : Type v) where
  | initiate (key : κ) (amount : α)
  | pend (key : κ) (amount : α)
  | complete (key : κ) (amount : α)
  | fail (key : κ) (amount : α)
  | transfer (key : κ) (amount : α)
  | issue (key : κ)
  | hold (key : κ) (amount : α)
  | settle (key : κ) (amount : α)
  | cancel (key : κ) (parked : Option α)

namespace Books

def empty : Books κ α := ⟨fun _ => none, fun _ => none⟩

section
variable [DecidableEq κ]

def pay (s : Books κ α) (key : κ) (entry : Outgoing α) : Books κ α :=
  { s with outgoing := Function.update s.outgoing key (some entry) }

def receive (s : Books κ α) (key : κ) (entry : Incoming α) : Books κ α :=
  { s with incoming := Function.update s.incoming key (some entry) }

@[simp] theorem pay_outgoing (s : Books κ α) (key : κ) (entry : Outgoing α) :
    (s.pay key entry).outgoing = Function.update s.outgoing key (some entry) := rfl

@[simp] theorem pay_incoming (s : Books κ α) (key : κ) (entry : Outgoing α) :
    (s.pay key entry).incoming = s.incoming := rfl

@[simp] theorem receive_outgoing (s : Books κ α) (key : κ) (entry : Incoming α) :
    (s.receive key entry).outgoing = s.outgoing := rfl

@[simp] theorem receive_incoming (s : Books κ α) (key : κ) (entry : Incoming α) :
    (s.receive key entry).incoming = Function.update s.incoming key (some entry) := rfl

end

variable [DecidableEq κ] [DecidableEq α]

/-- The payment is announced and has no outcome. -/
def live (s : Books κ α) (key : κ) (amount : α) : Prop :=
  s.outgoing key = some (.initiated amount) ∨ s.outgoing key = some (.pending amount)

instance (s : Books κ α) (key : κ) (amount : α) : Decidable (s.live key amount) :=
  inferInstanceAs (Decidable (_ ∨ _))

def step (s : Books κ α) : Move κ α → Option (Books κ α)
  | .initiate key amount =>
      if s.outgoing key = none then some (s.pay key (.initiated amount)) else none
  | .pend key amount =>
      if s.outgoing key = some (.initiated amount) then some (s.pay key (.pending amount))
      else none
  | .complete key amount =>
      if s.live key amount then some (s.pay key (.completed amount)) else none
  | .fail key amount => if s.live key amount then some (s.pay key (.failed amount)) else none
  | .transfer key amount =>
      if s.outgoing key = none ∧ s.incoming key = some .opened then
        some ((s.pay key (.transferred amount)).receive key .transferred)
      else none
  | .issue key => if s.incoming key = none then some (s.receive key .opened) else none
  | .hold key amount =>
      if s.incoming key = some .opened then some (s.receive key (.held amount)) else none
  | .settle key amount =>
      if s.incoming key = some (.held amount) then some (s.receive key (.settled amount)) else none
  | .cancel key parked =>
      if s.incoming key = some (.waiting parked) then some (s.receive key (.canceled parked))
      else none

variable {s t : Books κ α} {move : Move κ α} {key : κ}

/-- What a move puts in the books, and what was there before. -/
theorem step_cases (hstep : s.step move = some t) :
    (∃ key entry, t = s.pay key entry ∧ (∀ amount, entry ≠ .transferred amount) ∧
      ∀ before, s.outgoing key = some before → before.ended = false) ∨
    (∃ key entry, t = s.receive key entry ∧ entry ≠ .transferred ∧
      ∀ before, s.incoming key = some before → before.ended = false) ∨
    ∃ key amount, t = (s.pay key (.transferred amount)).receive key .transferred ∧
      s.outgoing key = none ∧ s.incoming key = some .opened := by
  have hlive {key : κ} {amount : α} (h : s.live key amount) :
      ∀ before, s.outgoing key = some before → before.ended = false := by
    intro before hbefore
    rcases h with h | h <;> cases h.symm.trans hbefore <;> rfl
  cases move with
  | initiate key amount =>
      obtain ⟨hnone, rfl⟩ := Option.ite_none_right_eq_some.mp hstep |>.imp_right Option.some.inj
      exact .inl ⟨key, _, rfl, nofun, fun _ h => by rw [hnone] at h; cases h⟩
  | pend key amount =>
      obtain ⟨hbefore, rfl⟩ := Option.ite_none_right_eq_some.mp hstep |>.imp_right Option.some.inj
      exact .inl ⟨key, _, rfl, nofun, hlive (.inl hbefore)⟩
  | complete key amount | fail key amount =>
      obtain ⟨hbefore, rfl⟩ := Option.ite_none_right_eq_some.mp hstep |>.imp_right Option.some.inj
      exact .inl ⟨key, _, rfl, nofun, hlive hbefore⟩
  | transfer key amount =>
      obtain ⟨⟨hnone, hopened⟩, rfl⟩ :=
        Option.ite_none_right_eq_some.mp hstep |>.imp_right Option.some.inj
      exact .inr (.inr ⟨key, amount, rfl, hnone, hopened⟩)
  | issue key =>
      obtain ⟨hnone, rfl⟩ := Option.ite_none_right_eq_some.mp hstep |>.imp_right Option.some.inj
      exact .inr (.inl ⟨key, _, rfl, nofun, fun _ h => by rw [hnone] at h; cases h⟩)
  | hold key amount | settle key amount =>
      obtain ⟨hbefore, rfl⟩ := Option.ite_none_right_eq_some.mp hstep |>.imp_right Option.some.inj
      exact .inr (.inl ⟨key, _, rfl, nofun, fun _ h => by cases hbefore.symm.trans h; rfl⟩)
  | cancel key parked =>
      obtain ⟨hbefore, rfl⟩ := Option.ite_none_right_eq_some.mp hstep |>.imp_right Option.some.inj
      refine .inr (.inl ⟨key, _, rfl, nofun, fun _ h => ?_⟩)
      cases hbefore.symm.trans h
      cases parked <;> rfl

/-- Every outcome booked in `s` is booked in `t`. -/
structure Kept (s t : Books κ α) : Prop where
  outgoing : ∀ key entry, s.outgoing key = some entry → entry.ended = true →
    t.outgoing key = some entry
  incoming : ∀ key entry, s.incoming key = some entry → entry.ended = true →
    t.incoming key = some entry

omit [DecidableEq κ] [DecidableEq α] in
theorem Kept.refl (s : Books κ α) : Kept s s := ⟨fun _ _ h _ => h, fun _ _ h _ => h⟩

omit [DecidableEq κ] [DecidableEq α] in
theorem Kept.trans {u : Books κ α} (h : Kept s t) (h' : Kept t u) : Kept s u where
  outgoing key entry hentry hended := h'.outgoing key entry (h.outgoing key entry hentry hended) hended
  incoming key entry hentry hended := h'.incoming key entry (h.incoming key entry hentry hended) hended

/-- An outcome is final. -/
theorem step_kept (hstep : s.step move = some t) : Kept s t := by
  obtain ⟨at', entry', rfl, -, hbefore⟩ | ⟨at', entry', rfl, -, hbefore⟩ |
    ⟨at', amount, rfl, hnone, hopened⟩ := step_cases hstep
  · refine ⟨fun key entry h hended => ?_, fun _ _ h _ => h⟩
    have hne : key ≠ at' := by
      rintro rfl
      rw [hbefore entry h] at hended
      cases hended
    exact (Function.update_of_ne hne _ _).trans h
  · refine ⟨fun _ _ h _ => h, fun key entry h hended => ?_⟩
    have hne : key ≠ at' := by
      rintro rfl
      rw [hbefore entry h] at hended
      cases hended
    exact (Function.update_of_ne hne _ _).trans h
  · refine ⟨fun key entry h hended => ?_, fun key entry h hended => ?_⟩
    · have hne : key ≠ at' := by
        rintro rfl
        cases hnone.symm.trans h
      exact (Function.update_of_ne hne _ _).trans h
    · have hne : key ≠ at' := by
        rintro rfl
        cases hopened.symm.trans h
        cases hended
      exact (Function.update_of_ne hne _ _).trans h

/-- The two sides of a transfer are booked together. -/
def Paired (s : Books κ α) : Prop :=
  ∀ key, (∃ amount, s.outgoing key = some (.transferred amount)) ↔
    s.incoming key = some .transferred

omit [DecidableEq κ] [DecidableEq α] in
theorem paired_empty : Paired (empty : Books κ α) := fun _ => by simp [empty]

theorem Paired.step (hs : s.Paired) (hstep : s.step move = some t) : t.Paired := by
  intro key
  obtain ⟨at', entry, rfl, hentry, hbefore⟩ | ⟨at', entry, rfl, hentry, hbefore⟩ |
    ⟨at', amount, rfl, -, -⟩ := step_cases hstep
  · rcases eq_or_ne key at' with rfl | hne
    · have hnot : s.incoming key ≠ some .transferred := by
        intro htransferred
        obtain ⟨amount, hamount⟩ := (hs key).mpr htransferred
        cases hbefore _ hamount
      simp [hentry, hnot]
    · simpa [hne] using hs key
  · rcases eq_or_ne key at' with rfl | hne
    · have hnot : ¬∃ amount, s.outgoing key = some (.transferred amount) := by
        intro htransferred
        cases hbefore _ ((hs key).mp htransferred)
      simpa [hentry] using hnot
    · simpa [hne] using hs key
  · rcases eq_or_ne key at' with rfl | hne
    · simp
    · simpa [hne] using hs key

end Books

end LightningGateway.TransferBooks
