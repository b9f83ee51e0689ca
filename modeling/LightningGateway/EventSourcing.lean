import LightningGateway.EventTables
import Mathlib.Data.List.Induction

/-!
# Event-sourced aggregates

An aggregate holds its own events and, in its other fields, what they amount to. It
is written twice: the command that pushes an event changes the fields by hand, and
hydration folds the whole log again. `Sourcing` states what hydration does with one
more event; a method that changes the fields in the same way keeps the aggregate
equal to what its log hydrates to, and so does every sequence of such methods.
-/
namespace LightningGateway.EventSourcing
open EventTables

variable {A I E C ε δ : Type}

/-- An aggregate type `A` over events `E`, and how a log is hydrated. -/
structure Sourcing (A I E δ : Type) where
  events : A → EntityEvents I E
  /-- The same fields over other events. -/
  place : A → EntityEvents I E → A
  /-- The fields after one more event. -/
  project : A → E → A
  hydrate : EntityEvents I E → Except δ A
  events_place : ∀ a es, events (place a es) = es
  /-- Hydration reads the log and not how much of it is written already. -/
  hydrate_move : ∀ {a es es'}, hydrate es = .ok a → es'.id = es.id → es'.iterAll = es.iterAll →
    hydrate es' = .ok (place a es')
  /-- One more event is one more projection. -/
  hydrate_snoc : ∀ {a e es es'}, hydrate es = .ok a → es'.id = es.id →
    es'.iterAll = es.iterAll ++ [e] → hydrate es' = .ok (place (project a e) es')

namespace Sourcing

def push (S : Sourcing A I E δ) (a : A) (e : E) : A := S.place a ((S.events a).push e)

/-- The aggregate after an event was pushed and projected. -/
def record (S : Sourcing A I E δ) (a : A) (e : E) : A :=
  S.place (S.project a e) ((S.events a).push e)

/-- The aggregate is the one its events hydrate to. -/
def Faithful (S : Sourcing A I E δ) (a : A) : Prop := S.hydrate (S.events a) = .ok a

variable {S : Sourcing A I E δ} {a : A}

theorem Faithful.record (h : S.Faithful a) (e : E) : S.Faithful (S.record a e) := by
  unfold Faithful Sourcing.record
  rw [S.events_place]
  exact S.hydrate_snoc h rfl (EntityEvents.iterAll_push _ _)

/-- Any split of the log into written and unwritten events hydrates to the aggregate. -/
theorem Faithful.rehydrate {es : EntityEvents I E} (h : S.Faithful a)
    (hid : es.id = (S.events a).id) (hlog : es.iterAll = (S.events a).iterAll) :
    S.hydrate es = .ok (S.place a es) :=
  S.hydrate_move h hid hlog

end Sourcing

/-! ### Fields that events overwrite -/

section
variable {B V : Type} {write : E → Option V} {log : List E} {e : E}

/-- What the last event that writes has written. -/
def lastWritten (write : E → Option V) (log : List E) : Option V := (log.filterMap write).getLast?

theorem lastWritten_snoc :
    lastWritten write (log ++ [e]) = (write e).or (lastWritten write log) := by
  unfold lastWritten
  rw [List.filterMap_append, List.getLast?_append]
  cases hw : write e with
  | none => simp [hw]
  | some v => simp [hw]

/-- A field that each event overwrites or leaves alone holds what was written last. -/
theorem foldl_lastWritten {apply : B → E → B} (field : B → Option V)
    (happly : ∀ b e, field (apply b e) = (write e).or (field b)) (b : B) (log : List E) :
    field (log.foldl apply b) = (lastWritten write log).or (field b) := by
  induction log using List.reverseRecOn with
  | nil => rfl
  | append_singleton log e ih =>
      rw [List.foldl_concat, happly, ih, lastWritten_snoc, Option.or_assoc]

end

/-! ### Methods

A method works on the aggregate in place, so an error leaves behind whatever was
changed before it. -/

abbrev Method (A ε : Type) := ExceptT ε (StateM A)

/-- What a method returns and the aggregate it leaves behind. -/
def Method.on (m : Method A ε Idempotent) (a : A) : Except ε Idempotent × A := (m.run.run a).run

namespace Method

@[simp] theorem on_pure (r : Idempotent) (a : A) :
    Method.on (pure r : Method A ε Idempotent) a = (.ok r, a) := rfl
@[simp] theorem on_throw (e : ε) (a : A) :
    Method.on (throw e : Method A ε Idempotent) a = (.error e, a) := rfl
@[simp] theorem on_get (f : A → Method A ε Idempotent) (a : A) :
    Method.on (get >>= f) a = (f a).on a := rfl
@[simp] theorem on_modify (g : A → A) (f : PUnit → Method A ε Idempotent) (a : A) :
    Method.on (modify g >>= f) a = (f ⟨⟩).on (g a) := rfl

end Method

/-- The effect of a method that is given as a function. -/
def Method.outcome (a : A) : Except ε (Idempotent × A) → Except ε Idempotent × A
  | .ok (r, a') => (.ok r, a')
  | .error e => (.error e, a)

/-- The usual method: a guard against repetition, a guard on the state, the event
and the fields that go with it. -/
def transition (S : Sourcing A I E δ) (applied : E → Bool) (allowed : A → Bool) (refuse : A → ε)
    (event : E) (update : A → A) : Method A ε Idempotent := do
  if (S.events (← get)).iterAll.reverse.any applied then
    return .alreadyApplied
  if !allowed (← get) then
    throw (refuse (← get))
  modify fun a => S.push a event
  modify update
  return .executed

theorem transition_on (S : Sourcing A I E δ) (applied : E → Bool) (allowed : A → Bool)
    (refuse : A → ε) (event : E) (update : A → A) (a : A) :
    (transition S applied allowed refuse event update).on a =
      if (S.events a).iterAll.any applied then (.ok .alreadyApplied, a)
      else if allowed a then (.ok .executed, update (S.push a event))
      else (.error (refuse a), a) := by
  rw [← List.any_reverse]
  unfold transition
  rw [Method.on_get]
  split_ifs with ha hs
  · rw [Method.on_pure]
  · rw [Method.on_get, hs]
    rfl
  · rw [Method.on_get, Bool.eq_false_iff.mpr hs]
    rfl

/-- The same method as a function. -/
theorem transition_outcome (S : Sourcing A I E δ) (applied : E → Bool) (allowed : A → Bool)
    (refuse : A → ε) (event : E) (update : A → A) (a : A) :
    (transition S applied allowed refuse event update).on a =
      Method.outcome a
        (if (S.events a).iterAll.any applied then .ok (.alreadyApplied, a)
        else if ¬allowed a = true then .error (refuse a)
        else .ok (.executed, update (S.push a event))) := by
  rw [transition_on]
  split_ifs <;> rfl

/-! ### Sequences of methods -/

/-- A method either leaves the aggregate as it was or records one event. -/
def Records (S : Sourcing A I E δ) (m : Method A ε Idempotent) : Prop :=
  ∀ a, (∃ e, m.on a = (.ok .executed, S.record a e)) ∨
    ((m.on a).1 ≠ .ok .executed ∧ (m.on a).2 = a)

/-- A transition records its event when its update is the event's projection. -/
theorem transition_records {S : Sourcing A I E δ} {applied : E → Bool} {allowed : A → Bool}
    {refuse : A → ε} {event : E} {update : A → A}
    (hupdate : ∀ a, update (S.push a event) = S.record a event) :
    Records S (transition S applied allowed refuse event update) := by
  intro a
  rw [transition_on]
  split_ifs
  · exact .inr ⟨by simp, rfl⟩
  · exact .inl ⟨event, by rw [hupdate]⟩
  · exact .inr ⟨by simp, rfl⟩

theorem Records.unchanged {S : Sourcing A I E δ} {m : Method A ε Idempotent} {a : A}
    (hm : Records S m) (h : (m.on a).1 ≠ .ok .executed) : (m.on a).2 = a := by
  rcases hm a with ⟨e, he⟩ | ⟨-, ha⟩
  · exact absurd (congrArg Prod.fst he) h
  · exact ha

theorem Records.faithful {S : Sourcing A I E δ} {m : Method A ε Idempotent} {a : A}
    (hm : Records S m) (h : S.Faithful a) : S.Faithful (m.on a).2 := by
  rcases hm a with ⟨e, he⟩ | ⟨-, he⟩
  · rw [he]
    exact h.record e
  · rwa [he]

/-- The aggregate after a list of commands, whatever they returned. -/
def obey (method : C → Method A ε Idempotent) (a : A) (commands : List C) : A :=
  commands.foldl (fun a c => ((method c).on a).2) a

theorem faithful_obey {S : Sourcing A I E δ} {method : C → Method A ε Idempotent} {a : A}
    (hm : ∀ c, Records S (method c)) (h : S.Faithful a) (commands : List C) :
    S.Faithful (obey method a commands) := by
  induction commands generalizing a with
  | nil => exact h
  | cons c commands ih => exact ih ((hm c).faithful h)

/-! ### Commands and restarts -/

/-- A step in the life of an aggregate. -/
inductive Act (C : Type) where
  | command (c : C)
  /-- Everything is written and loaded again. -/
  | rehydrate

def Sourcing.reload (S : Sourcing A I E δ) (a : A) : Except δ A :=
  S.hydrate ⟨(S.events a).id, (S.events a).iterAll, []⟩

def live (S : Sourcing A I E δ) (method : C → Method A ε Idempotent) : A → List (Act C) → Except δ A
  | a, [] => .ok a
  | a, .command c :: acts => live S method ((method c).on a).2 acts
  | a, .rehydrate :: acts =>
      match S.reload a with
      | .ok b => live S method b acts
      | .error e => .error e

/-- What commands and restarts preserve holds throughout, and no restart fails. -/
theorem live_invariant {S : Sourcing A I E δ} {method : C → Method A ε Idempotent} {P : A → Prop}
    (hcommand : ∀ c a, P a → P ((method c).on a).2)
    (hreload : ∀ a, P a → ∃ b, S.reload a = .ok b ∧ P b) {a : A} (h : P a) (acts : List (Act C)) :
    ∃ b, live S method a acts = .ok b ∧ P b := by
  induction acts generalizing a with
  | nil => exact ⟨a, rfl, h⟩
  | cons act acts ih =>
      cases act with
      | command c => exact ih (hcommand c a h)
      | rehydrate =>
          obtain ⟨b, hb, hP⟩ := hreload a h
          simp only [live, hb]
          exact ih hP

theorem Records.log_grows {S : Sourcing A I E δ} {m : Method A ε Idempotent} {a : A}
    (hm : Records S m) : (S.events a).iterAll <+: (S.events (m.on a).2).iterAll := by
  rcases hm a with ⟨e, he⟩ | ⟨-, he⟩
  · rw [he, Sourcing.record, S.events_place, EntityEvents.iterAll_push]
    exact List.prefix_append _ _
  · rw [he]

/-- A restart changes nothing but how much of the log is written. -/
theorem Sourcing.Faithful.reload {S : Sourcing A I E δ} {a : A} (h : S.Faithful a) :
    ∃ b, S.reload a = .ok b ∧ S.Faithful b ∧ (S.events b).iterAll = (S.events a).iterAll := by
  let written : EntityEvents I E := ⟨(S.events a).id, (S.events a).iterAll, []⟩
  have hlog : written.iterAll = (S.events a).iterAll := List.append_nil _
  have hb : S.hydrate written = .ok (S.place a written) := h.rehydrate rfl hlog
  refine ⟨S.place a written, hb, ?_, ?_⟩
  · unfold Sourcing.Faithful
    rw [S.events_place]
    exact hb
  · rw [S.events_place]
    exact hlog

/-- Throughout its life an aggregate is the one its log hydrates to, and the log grows. -/
theorem live_faithful {S : Sourcing A I E δ} {method : C → Method A ε Idempotent}
    (hm : ∀ c, Records S (method c)) {a : A} (h : S.Faithful a) (acts : List (Act C)) :
    ∃ b, live S method a acts = .ok b ∧ S.Faithful b ∧
      (S.events a).iterAll <+: (S.events b).iterAll := by
  let P (b : A) : Prop := S.Faithful b ∧ (S.events a).iterAll <+: (S.events b).iterAll
  have hcommand (c : C) (b : A) (hb : P b) : P ((method c).on b).2 :=
    ⟨(hm c).faithful hb.1, hb.2.trans (hm c).log_grows⟩
  have hreload (b : A) (hb : P b) : ∃ c, S.reload b = .ok c ∧ P c := by
    obtain ⟨c, hc, hfaithful, hlog⟩ := hb.1.reload
    exact ⟨c, hc, hfaithful, by rw [hlog]; exact hb.2⟩
  exact live_invariant (P := P) hcommand hreload ⟨h, List.prefix_refl _⟩ acts

end LightningGateway.EventSourcing
