import Mathlib.Data.List.Basic

/-!
# Sequential programs over an effect signature

A program is a finite tree: it either returns, or calls one operation of its
signature and continues with the answer. Everything between two calls is pure
and happens at once, so the calls are exactly the points at which other
programs may run. `Emits` is the sequential proof rule: it describes what a
program may call after which of its own earlier calls, and what it returns,
without saying anything about the world that answers.
-/
namespace LightningGateway.EffectPrograms

universe u

/-- Operations together with the type of their answers. -/
structure Signature where
  Op : Type u
  Ans : Op → Type

inductive Program (S : Signature.{u}) (α : Type) : Type u where
  | ret (a : α)
  | call (o : S.Op) (k : S.Ans o → Program S α)

variable {S : Signature.{u}} {α β : Type}

namespace Program

def bind : Program S α → (α → Program S β) → Program S β
  | ret a, f => f a
  | call o k, f => call o (fun a => (k a).bind f)

instance : Monad (Program S) where
  pure := ret
  bind := bind

/-- Call one operation and return its answer. -/
def ask (o : S.Op) : Program S (S.Ans o) := call o ret

end Program

open Program

/-- One completed call of a program: the operation and the answer it got. -/
structure Call (S : Signature.{u}) where
  op : S.Op
  ans : S.Ans op

/-- `Emits J Q past p`: having made the calls `past`, the program `p` only makes
calls that `J` justifies from the calls made so far, and returns only values
that `Q` accepts, whatever the answers are. -/
def Emits (J : List (Call S) → S.Op → Prop) (Q : List (Call S) → α → Prop) :
    List (Call S) → Program S α → Prop
  | past, .ret a => Q past a
  | past, .call o k => J past o ∧ ∀ a, Emits J Q (past ++ [⟨o, a⟩]) (k a)

variable {J : List (Call S) → S.Op → Prop} {Q : List (Call S) → β → Prop}
variable {past : List (Call S)}

theorem emits_bind {p : Program S α} {f : α → Program S β}
    (h : Emits J (fun past' a => Emits J Q past' (f a)) past p) :
    Emits J Q past (p >>= f) := by
  induction p generalizing past with
  | ret a => exact h
  | call o k ih => exact ⟨h.1, fun a => ih a (h.2 a)⟩

theorem Emits.mono {Q R : List (Call S) → α → Prop} {p : Program S α}
    (hQ : ∀ past a, Q past a → R past a) (h : Emits J Q past p) : Emits J R past p := by
  induction p generalizing past with
  | ret a => exact hQ past a h
  | call o k ih => exact ⟨h.1, fun a => ih a (h.2 a)⟩

/-- A program keeps to every description that allows more. -/
theorem Emits.weaken {J' : List (Call S) → S.Op → Prop} {Q : List (Call S) → α → Prop}
    {p : Program S α} (hJ : ∀ past o, J past o → J' past o) (h : Emits J Q past p) :
    Emits J' Q past p := by
  induction p generalizing past with
  | ret a => exact h
  | call o k ih => exact ⟨hJ past o h.1, fun a => ih a (h.2 a)⟩

/-- A description that asks for nothing. -/
theorem emits_any (p : Program S α) :
    Emits (fun _ _ => True) (fun _ _ => True) past p := by
  induction p generalizing past with
  | ret a => trivial
  | call o k ih => exact ⟨trivial, fun a => ih a⟩

/-- Once a call was made that justifies everything, a program may go on as it likes. -/
theorem emits_after {c : Call S} (hJ : ∀ past o, c ∈ past → J past o) (hc : c ∈ past)
    (p : Program S α) : Emits J (fun _ _ => True) past p := by
  induction p generalizing past with
  | ret a => trivial
  | call o k ih => exact ⟨hJ past o hc, fun a => ih a (List.mem_append_left _ hc)⟩

/-! ### Assumptions on answers -/

/-- What `J` justifies as long as every call was answered as `A` says. -/
def Given (A : Call S → Prop) (J : List (Call S) → S.Op → Prop) (past : List (Call S)) (o : S.Op) :
    Prop :=
  (∀ c ∈ past, A c) → J past o

theorem emits_refuted {A : Call S → Prop} {p : Program S α} (hA : ¬∀ c ∈ past, A c) :
    Emits (Given A J) (fun _ _ => True) past p := by
  induction p generalizing past with
  | ret a => trivial
  | call o k ih =>
      exact ⟨fun h => absurd h hA,
        fun a => ih a fun h => hA fun c hc => h c (List.mem_append_left _ hc)⟩

/-- A description under an assumption may use it of the answers so far. -/
theorem emits_given {A : Call S → Prop} {p : Program S α}
    (h : (∀ c ∈ past, A c) → Emits (Given A J) (fun _ _ => True) past p) :
    Emits (Given A J) (fun _ _ => True) past p := by
  by_cases hA : ∀ c ∈ past, A c
  · exact h hA
  · exact emits_refuted hA

/-! ### Programs that may fail -/

variable {ε δ : Type}

/-- A fallible computation over the signature: the early returns of a function
whose result type is an error or a value. -/
abbrev Fallible (S : Signature.{u}) (ε α : Type) := ExceptT ε (Program S) α

/-- Run an infallible program inside a fallible one. -/
def Fallible.lift (p : Program S α) : Fallible S ε α :=
  ExceptT.mk (p >>= fun a => pure (.ok a))

/-- Propagate the error of a call after converting it. -/
def Fallible.orThrow (convert : δ → ε) (p : Program S (Except δ α)) : Fallible S ε α :=
  ExceptT.mk (p >>= fun r => pure (r.mapError convert))

/-- Inspect the error of a fallible computation instead of propagating it. -/
def Fallible.attempt (p : Fallible S ε α) : Fallible S δ (Except ε α) :=
  Fallible.lift p.run

/-- Continue with a pure result, propagating its error. -/
def Fallible.ofExcept (convert : δ → ε) (r : Except δ α) : Fallible S ε α :=
  ExceptT.mk (pure (r.mapError convert))

/-- What a fallible computation establishes once it continues with `f`. -/
def Then (J : List (Call S) → S.Op → Prop) (Q : List (Call S) → Except ε β → Prop)
    (f : α → Fallible S ε β) (past : List (Call S)) : Except ε α → Prop
  | .ok a => Emits J Q past (f a).run
  | .error e => Q past (.error e)

section
variable {Q : List (Call S) → Except ε β → Prop} {P : List (Call S) → Except ε α → Prop}

theorem fallible_bind {p : Fallible S ε α} {f : α → Fallible S ε β}
    (h : Emits J (Then J Q f) past p.run) : Emits J Q past (p >>= f).run := by
  refine emits_bind (Emits.mono ?_ h)
  intro past' r hr
  cases r with
  | ok a => exact hr
  | error e => exact hr

theorem fallible_lift {p : Program S α}
    (h : Emits J (fun past' a => P past' (.ok a)) past p) :
    Emits J P past (Fallible.lift p : Fallible S ε α).run :=
  emits_bind h

theorem fallible_attempt {P : List (Call S) → Except δ (Except ε α) → Prop}
    {p : Fallible S ε α} (h : Emits J (fun past' r => P past' (.ok r)) past p.run) :
    Emits J P past (Fallible.attempt p : Fallible S δ (Except ε α)).run :=
  fallible_lift h

/-- Composition of two descriptions that say nothing about results. -/
theorem fallible_bind_any {p : Fallible S ε α} {f : α → Fallible S ε β}
    (hp : Emits J (fun _ _ => True) past p.run)
    (hf : ∀ past a, Emits J (fun _ _ => True) past (f a).run) :
    Emits J (fun _ _ => True) past (p >>= f).run := by
  refine fallible_bind (Emits.mono (fun past' r _ => ?_) hp)
  cases r with
  | ok a => exact hf past' a
  | error e => trivial

end

/-! ### Traces -/

/-- `Traces p calls a`: given the answers in `calls`, the program `p` makes exactly
those calls and returns `a`. -/
inductive Traces : Program S α → List (Call S) → α → Prop where
  | ret {a : α} : Traces (.ret a) [] a
  | call {o : S.Op} {k : S.Ans o → Program S α} {x : S.Ans o} {calls : List (Call S)} {a : α} :
      Traces (k x) calls a → Traces (.call o k) (⟨o, x⟩ :: calls) a

variable {calls : List (Call S)}

theorem traces_pure {a b : α} (h : Traces (pure a : Program S α) calls b) : calls = [] ∧ b = a := by
  cases h
  exact ⟨rfl, rfl⟩

theorem traces_bind {p : Program S α} {f : α → Program S β} {b : β} :
    Traces (p >>= f) calls b ↔
      ∃ c₁ a c₂, Traces p c₁ a ∧ Traces (f a) c₂ b ∧ calls = c₁ ++ c₂ := by
  constructor
  · intro h
    induction p generalizing calls with
    | ret a => exact ⟨[], a, calls, .ret, h, rfl⟩
    | call o k ih =>
        have h' : Traces (.call o fun x => (k x).bind f) calls b := h
        cases h' with
        | @call _ _ x rest _ hrest =>
            obtain ⟨c₁, a, c₂, hp, hf, rfl⟩ := ih x hrest
            exact ⟨⟨o, x⟩ :: c₁, a, c₂, .call hp, hf, rfl⟩
  · rintro ⟨c₁, a, c₂, hp, hf, rfl⟩
    induction hp with
    | ret => exact hf
    | call _ ih => exact .call (ih hf)

/-- What a program's description says about one of its traces. -/
theorem Traces.describes {Q : List (Call S) → α → Prop} {p : Program S α} {a : α}
    (ht : Traces p calls a) (h : Emits J Q past p) : Q (past ++ calls) a := by
  induction ht generalizing past with
  | ret =>
      rw [List.append_nil]
      exact h
  | call _ ih =>
      have hrest := ih (h.2 _)
      rwa [List.append_assoc] at hrest

/-- Each call of a trace is justified by the calls before it. -/
theorem Traces.justified {Q : List (Call S) → α → Prop} {p : Program S α} {a : α} {c : Call S}
    (ht : Traces p calls a) (h : Emits J Q past p) (hc : c ∈ calls) : ∃ past', J past' c.op := by
  induction ht generalizing past with
  | ret => cases hc
  | call _ ih =>
      rcases List.mem_cons.mp hc with rfl | hc
      · exact ⟨past, h.1⟩
      · exact ih (h.2 _) hc

/-- A program makes its traces. -/
theorem emits_traces (past : List (Call S)) (p : Program S α) :
    Emits (fun _ _ => True) (fun past' a => ∃ calls, past' = past ++ calls ∧ Traces p calls a)
      past p := by
  induction p generalizing past with
  | ret a => exact ⟨[], (List.append_nil _).symm, .ret⟩
  | call o k ih =>
      refine ⟨trivial, fun x => Emits.mono ?_ (ih x (past ++ [⟨o, x⟩]))⟩
      rintro past' a ⟨calls, rfl, h⟩
      exact ⟨⟨o, x⟩ :: calls, by rw [List.append_assoc]; rfl, .call h⟩

section
variable {p : Fallible S ε α} {f : α → Fallible S ε β} {b : Except ε β}

theorem traces_fallible_ok {c₁ c₂ : List (Call S)} {a : α} (hp : Traces p.run c₁ (.ok a))
    (hf : Traces (f a).run c₂ b) : Traces (p >>= f).run (c₁ ++ c₂) b :=
  traces_bind.mpr ⟨c₁, .ok a, c₂, hp, hf, rfl⟩

/-- An attempt goes on with the result of the computation, error or not. -/
theorem traces_attempt {p : Fallible S δ α} {f : Except δ α → Fallible S ε β} :
    Traces (Fallible.attempt p >>= f).run calls b ↔
      ∃ c₁ r c₂, Traces p.run c₁ r ∧ Traces (f r).run c₂ b ∧ calls = c₁ ++ c₂ := by
  constructor
  · intro h
    obtain ⟨c₁, x, c₂, hp, hf, rfl⟩ := traces_bind.mp h
    obtain ⟨c, r, c', hr, hpure, rfl⟩ := traces_bind.mp hp
    obtain ⟨rfl, rfl⟩ := traces_pure hpure
    exact ⟨c, r, c₂, hr, hf, by rw [List.append_nil]⟩
  · rintro ⟨c₁, r, c₂, hp, hf, rfl⟩
    have hattempt : Traces (Fallible.attempt p : Fallible S ε (Except δ α)).run c₁ (.ok r) :=
      traces_bind.mpr ⟨c₁, r, [], hp, .ret, (List.append_nil _).symm⟩
    exact traces_fallible_ok hattempt hf

end

end LightningGateway.EffectPrograms
