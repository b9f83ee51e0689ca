import LightningGateway.TaskPools

/-!
# Programs that run alone

A program that nothing interleaves with is a sequence of answers. `Answering` describes
answers that may depend on what the calls before them have left in a memory of its own,
and `Alone` is the proof rule for programs that are answered so: every run of the program
from a world ends as the postcondition says. `serve` runs a program on given choices.
-/
namespace LightningGateway.SoloRuns
open EffectPrograms TaskPools

universe u

/-- How calls are answered. What a call leaves in the memory, the answers to later calls
may depend on. -/
structure Answering (S : Signature.{u}) where
  Memory : Type
  fits : Memory → Call S → Bool
  next : Memory → Call S → Memory

variable {S : Signature.{u}} {M : Machine S} {A : Answering S} {α β ε δ : Type}

namespace Answering

/-- Every call is answered as it should be. -/
def accepts (A : Answering S) : A.Memory → List (Call S) → Bool
  | _, [] => true
  | x, c :: cs => A.fits x c && A.accepts (A.next x c) cs

theorem accepts_append {x : A.Memory} {c₁ c₂ : List (Call S)} :
    A.accepts x (c₁ ++ c₂) = (A.accepts x c₁ && A.accepts (c₁.foldl A.next x) c₂) := by
  induction c₁ generalizing x with
  | nil => rfl
  | cons c c₁ ih => simp only [List.cons_append, accepts, List.foldl_cons, ih, Bool.and_assoc]

end Answering

/-- Whenever `p` runs to its end alone from `w`, answered as `A` says, `Q` holds of its
calls, its result and the world it leaves. -/
def Alone (M : Machine S) (A : Answering S) (w : M.World) (x : A.Memory) (p : Program S α)
    (Q : List (Call S) → α → M.World → Prop) : Prop :=
  ∀ calls a w', Traces p calls a → Served M w calls w' → A.accepts x calls = true → Q calls a w'

variable {w : M.World} {x : A.Memory} {p : Program S α}
variable {Q R : List (Call S) → α → M.World → Prop}

theorem Alone.mono (hQ : ∀ calls a w', Q calls a w' → R calls a w') (h : Alone M A w x p Q) :
    Alone M A w x p R :=
  fun calls a w' ht hs hf => hQ calls a w' (h calls a w' ht hs hf)

theorem alone_ret {a : α} (h : Q [] a w) : Alone M A w x (.ret a) Q := by
  intro calls b w' ht hs _
  cases ht
  cases hs
  exact h

theorem alone_call {o : S.Op} {k : S.Ans o → Program S α}
    (h : ∀ a c w', M.exec o c w = some (a, w') → A.fits x ⟨o, a⟩ = true →
      Alone M A w' (A.next x ⟨o, a⟩) (k a) fun calls => Q (⟨o, a⟩ :: calls)) :
    Alone M A w x (.call o k) Q := by
  intro calls b w' ht hs hf
  cases ht with
  | call ht =>
      cases hs with
      | cons hx hs =>
          obtain ⟨hone, hrest⟩ := (Bool.and_eq_true _ _).mp hf
          exact h _ _ _ hx hone _ _ _ ht hs hrest

/-- An attempt goes on with the result of the computation, error or not. -/
theorem alone_attempt {p : Fallible S δ α} {f : Except δ α → Fallible S ε β}
    {Q : List (Call S) → Except ε β → M.World → Prop}
    (h : Alone M A w x p.run fun c₁ r w₁ =>
      Alone M A w₁ (c₁.foldl A.next x) (f r).run fun c₂ => Q (c₁ ++ c₂)) :
    Alone M A w x (Fallible.attempt p >>= f).run Q := by
  intro calls b w' ht hs hf
  obtain ⟨c₁, r, c₂, hp, hfr, rfl⟩ := traces_attempt.mp ht
  obtain ⟨w₁, hs₁, hs₂⟩ := served_append.mp hs
  obtain ⟨hf₁, hf₂⟩ := (Bool.and_eq_true _ _).mp (Answering.accepts_append.symm.trans hf)
  exact h c₁ r w₁ hp hs₁ hf₁ c₂ b w' hfr hs₂ hf₂

/-- Run a program on a list of choices that is just long enough. -/
def serve (M : Machine S) : Program S α → List M.Choice → M.World →
    Option (List (Call S) × α × M.World)
  | .ret a, [], w => some ([], a, w)
  | .call o k, c :: cs, w =>
      match M.exec o c w with
      | some (a, w') =>
          match serve M (k a) cs w' with
          | some (calls, b, w'') => some (⟨o, a⟩ :: calls, b, w'')
          | none => none
      | none => none
  | _, _, _ => none

theorem serve_spec {cs : List M.Choice} {calls : List (Call S)} {a : α} {w' : M.World}
    (h : serve M p cs w = some (calls, a, w')) : Traces p calls a ∧ Served M w calls w' := by
  induction p generalizing cs calls w with
  | ret b =>
      cases cs with
      | nil =>
          cases h
          exact ⟨.ret, .nil⟩
      | cons c cs => cases h
  | call o k ih =>
      cases cs with
      | nil => cases h
      | cons c cs =>
          simp only [serve] at h
          split at h
          case h_1 b w₁ hx =>
            split at h
            case h_1 rest b' w₂ hrest =>
              cases h
              obtain ⟨ht, hs⟩ := ih b hrest
              exact ⟨.call ht, .cons hx hs⟩
            case h_2 => cases h
          case h_2 => cases h

/-! ### Rounds -/

section
variable {program : M.World → Program S α} {admits : M.World → List (Call S) → Bool}

/-- Runs of a program in a row, each alone and from the world that the one before has left. -/
inductive Rounds (M : Machine S) (A : Answering S) (x : A.Memory)
    (program : M.World → Program S α) (admits : M.World → List (Call S) → Bool) :
    M.World → List (List (Call S)) → M.World → Prop where
  | nil {w : M.World} : Rounds M A x program admits w [] w
  | cons {w w' w'' : M.World} {calls : List (Call S)} {rounds : List (List (Call S))} {a : α} :
      Traces (program w) calls a → Served M w calls w' → A.accepts x calls = true →
      admits w calls = true → Rounds M A x program admits w' rounds w'' →
      Rounds M A x program admits w (calls :: rounds) w''

/-- Play rounds on lists of choices, one for each. -/
def playRounds (M : Machine S) (A : Answering S) (x : A.Memory)
    (program : M.World → Program S α) (admits : M.World → List (Call S) → Bool) :
    M.World → List (List M.Choice) → Option (List (List (Call S)) × M.World)
  | w, [] => some ([], w)
  | w, cs :: rest =>
      match serve M (program w) cs w with
      | some (calls, _, w') =>
          if A.accepts x calls && admits w calls then
            (playRounds M A x program admits w' rest).map fun r => (calls :: r.1, r.2)
          else none
      | none => none

theorem rounds_of_play {css : List (List M.Choice)} {rounds : List (List (Call S))}
    {w' : M.World} (h : playRounds M A x program admits w css = some (rounds, w')) :
    Rounds M A x program admits w rounds w' := by
  induction css generalizing w rounds with
  | nil =>
      cases h
      exact .nil
  | cons cs css ih =>
      simp only [playRounds] at h
      split at h
      case h_1 calls a w₁ hserve =>
        obtain ⟨ht, hs⟩ := serve_spec hserve
        split_ifs at h with hok
        obtain ⟨hf, hadmits⟩ := (Bool.and_eq_true _ _).mp hok
        obtain ⟨r, hr, hcons⟩ := Option.map_eq_some_iff.mp h
        cases hcons
        exact .cons ht hs hf hadmits (ih hr)
      case h_2 => cases h

end

end LightningGateway.SoloRuns
