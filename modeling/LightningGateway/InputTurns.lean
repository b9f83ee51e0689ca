import LightningGateway.SoloRuns

/-!
# Inputs that are handled one after the other

A handler runs alone on each input of a list, from the world that the input before has
left; between two inputs the surrounding systems may take steps of their own. `Once`
describes a change that such inputs make at most one time. The rule for it says that a
list of inputs either leaves the world as good as it was or makes the change once, and
which of the two depends on the first world and on whether some input acts, not on how
many inputs there are or on their order.
-/
namespace LightningGateway.InputTurns
open EffectPrograms TaskPools SoloRuns

universe u

variable {S : Signature.{u}} {M : Machine S} {ι α : Type} {program : ι → Program S α}

/-- The handler has run once on an input, with these calls. -/
structure Turn (S : Signature.{u}) (ι : Type) where
  input : ι
  calls : List (Call S)

/-- The handler runs on each input alone, in order. -/
inductive InTurn (M : Machine S) (program : ι → Program S α) :
    M.World → List (Turn S ι) → M.World → Prop where
  | nil {w : M.World} : InTurn M program w [] w
  | env {x : M.Env} {w w' w'' : M.World} {turns : List (Turn S ι)} :
      M.env x w = some w' → InTurn M program w' turns w'' → InTurn M program w turns w''
  | turn {i : ι} {calls : List (Call S)} {a : α} {w w' w'' : M.World} {turns : List (Turn S ι)} :
      Traces (program i) calls a → Served M w calls w' → InTurn M program w' turns w'' →
      InTurn M program w (⟨i, calls⟩ :: turns) w''

/-- Run the handler on inputs, each with the choices for its calls. -/
def playTurns (M : Machine S) (program : ι → Program S α) :
    M.World → List (ι × List M.Choice) → Option (List (Turn S ι) × M.World)
  | w, [] => some ([], w)
  | w, (i, cs) :: rest =>
      match serve M (program i) cs w with
      | some (calls, _, w') => (playTurns M program w' rest).map fun r => (⟨i, calls⟩ :: r.1, r.2)
      | none => none

theorem inTurn_of_play {w w' : M.World} {inputs : List (ι × List M.Choice)}
    {turns : List (Turn S ι)} (h : playTurns M program w inputs = some (turns, w')) :
    InTurn M program w turns w' := by
  induction inputs generalizing w turns with
  | nil =>
      cases h
      exact .nil
  | cons input inputs ih =>
      simp only [playTurns] at h
      split at h
      case h_1 calls a w₁ hserve =>
        obtain ⟨ht, hs⟩ := serve_spec hserve
        obtain ⟨r, hr, hcons⟩ := Option.map_eq_some_iff.mp h
        cases hcons
        exact .turn ht hs (ih hr)
      case h_2 => cases h

/-- A change that inputs make at most once. `Same` forgets what other steps may change. An
input `acts` when its handling went so that the change, if it is due, must have happened. -/
structure Once (M : Machine S) (program : ι → Program S α) (admits : ι → Prop)
    (acts : Turn S ι → Prop) where
  Same : M.World → M.World → Prop
  Change : M.World → M.World → Prop
  due : M.World → Prop
  refl : ∀ w, Same w w
  trans : ∀ {w₁ w₂ w₃}, Same w₁ w₂ → Same w₂ w₃ → Same w₁ w₃
  same_change : ∀ {w₁ w₂ w₃}, Same w₁ w₂ → Change w₂ w₃ → Change w₁ w₃
  change_same : ∀ {w₁ w₂ w₃}, Change w₁ w₂ → Same w₂ w₃ → Change w₁ w₃
  due_same : ∀ {w₁ w₂}, Same w₁ w₂ → due w₁ → due w₂
  /-- The change happens only when it is due, and then it is due no more. -/
  due_change : ∀ {w₁ w₂}, Change w₁ w₂ → due w₁ ∧ ¬due w₂
  env : ∀ {x w w'}, M.env x w = some w' → Same w w'
  turn : ∀ {i calls a w w'}, admits i → Traces (program i) calls a → Served M w calls w' →
    Same w w' ∧ (due w → ¬acts ⟨i, calls⟩) ∨ Change w w'

namespace Once

variable {admits : ι → Prop} {acts : Turn S ι → Prop} {w w' : M.World} {turns : List (Turn S ι)}

/-- Nothing happens, and then no input acts while the change is due, or the change happens. -/
theorem run (O : Once M program admits acts) (h : InTurn M program w turns w')
    (hadmits : ∀ t ∈ turns, admits t.input) :
    O.Same w w' ∧ (O.due w → ∀ t ∈ turns, ¬acts t) ∨ O.Change w w' := by
  induction h with
  | nil => exact .inl ⟨O.refl _, fun _ _ ht => (List.not_mem_nil ht).elim⟩
  | env hx _ ih =>
      rcases ih hadmits with ⟨hsame, hnone⟩ | hchange
      · exact .inl ⟨O.trans (O.env hx) hsame, fun hdue => hnone (O.due_same (O.env hx) hdue)⟩
      · exact .inr (O.same_change (O.env hx) hchange)
  | turn ht hs _ ih =>
      obtain ⟨hfirst, hrest⟩ := List.forall_mem_cons.mp hadmits
      rcases O.turn hfirst ht hs with ⟨hsame, hnone⟩ | hchange
      · rcases ih hrest with ⟨hsame', hnone'⟩ | hchange'
        · refine .inl ⟨O.trans hsame hsame', fun hdue => List.forall_mem_cons.mpr ⟨hnone hdue, ?_⟩⟩
          exact hnone' (O.due_same hsame hdue)
        · exact .inr (O.same_change hsame hchange')
      · -- The change is not due a second time.
        rcases ih hrest with ⟨hsame', -⟩ | hchange'
        · exact .inr (O.change_same hchange hsame')
        · exact absurd (O.due_change hchange').1 (O.due_change hchange).2

/-- Inputs of which one acts make the change when it is due, however many they are. -/
theorem run_change (O : Once M program admits acts) (h : InTurn M program w turns w')
    (hadmits : ∀ t ∈ turns, admits t.input) (hacts : ∃ t ∈ turns, acts t) (hdue : O.due w) :
    O.Change w w' := by
  rcases O.run h hadmits with ⟨-, hnone⟩ | hchange
  · obtain ⟨t, ht, hact⟩ := hacts
    exact absurd hact (hnone hdue t ht)
  · exact hchange

/-- Inputs change nothing when the change is not due. -/
theorem run_same (O : Once M program admits acts) (h : InTurn M program w turns w')
    (hadmits : ∀ t ∈ turns, admits t.input) (hdue : ¬O.due w) : O.Same w w' := by
  rcases O.run h hadmits with ⟨hsame, -⟩ | hchange
  · exact hsame
  · exact absurd (O.due_change hchange).1 hdue

end Once

end LightningGateway.InputTurns
