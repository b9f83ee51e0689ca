import Mathlib.Data.List.Forall2
import Mathlib.Data.List.Induction

/-!
# Runs of a partial step function under a guard

A system is given by a partial step function: `step s e = some t` when event
`e` is enabled in `s` and leads to `t`. A guard selects, state by state, the
events an environment is willing to produce. Nothing here fixes what states
and events are; every safety result of the development is an invariant of such
runs, and every concrete execution is one of them with its event list spelled
out.
-/
namespace LightningGateway.GuardedRuns

universe u v
variable {σ : Type u} {ε : Type v}

/-- `Run step guard s es t`: the events `es` lead from `s` to `t`, each of them
admitted by `guard` in the state in which it happens. -/
def Run (step : σ → ε → Option σ) (guard : σ → ε → Prop) : σ → List ε → σ → Prop
  | s, [], t => s = t
  | s, e :: es, t => guard s e ∧ ∃ u, step s e = some u ∧ Run step guard u es t

variable {step : σ → ε → Option σ} {guard : σ → ε → Prop}

@[simp] theorem run_nil {s t : σ} : Run step guard s [] t ↔ s = t := Iff.rfl

@[simp] theorem run_cons {s t : σ} {e : ε} {es : List ε} :
    Run step guard s (e :: es) t ↔
      guard s e ∧ ∃ u, step s e = some u ∧ Run step guard u es t := Iff.rfl

/-- A run can be continued. -/
theorem Run.append {s t u : σ} {es es' : List ε} (h : Run step guard s es t)
    (h' : Run step guard t es' u) : Run step guard s (es ++ es') u := by
  induction es generalizing s with
  | nil => exact run_nil.mp h ▸ h'
  | cons e es ih =>
      obtain ⟨hg, v, hv, hr⟩ := run_cons.mp h
      exact run_cons.mpr ⟨hg, v, hv, ih hr⟩

/-- The last event of a run. -/
theorem run_snoc {s u : σ} {e : ε} {es : List ε} :
    Run step guard s (es ++ [e]) u ↔
      ∃ t, Run step guard s es t ∧ guard t e ∧ step t e = some u := by
  constructor
  · intro h
    induction es generalizing s with
    | nil =>
        obtain ⟨hg, t, ht, hnil⟩ := run_cons.mp h
        exact ⟨s, run_nil.mpr rfl, hg, run_nil.mp hnil ▸ ht⟩
    | cons e' es ih =>
        obtain ⟨hg, v, hv, hr⟩ := run_cons.mp h
        obtain ⟨t, ht, hlast⟩ := ih hr
        exact ⟨t, run_cons.mpr ⟨hg, v, hv, ht⟩, hlast⟩
  · rintro ⟨t, hr, hg, hu⟩
    exact hr.append (run_cons.mpr ⟨hg, u, hu, run_nil.mpr rfl⟩)

/-- A step lemma becomes a run lemma: whatever every admitted step preserves
holds at the end of every run. -/
theorem Run.invariant {J : σ → Prop}
    (preserved : ∀ s e t, guard s e → step s e = some t → J s → J t)
    {s t : σ} {es : List ε} (h : Run step guard s es t) (hs : J s) : J t := by
  induction es generalizing s with
  | nil => exact run_nil.mp h ▸ hs
  | cons e es ih =>
      obtain ⟨hg, u, hu, hr⟩ := run_cons.mp h
      exact ih hr (preserved s e u hg hu hs)

/-- The same for what relates the state to the events so far. -/
theorem Run.history {J : List ε → σ → Prop}
    (preserved : ∀ es s e t, guard s e → step s e = some t → J es s → J (es ++ [e]) t)
    {s t : σ} {es : List ε} (h : Run step guard s es t) (hs : J [] s) : J es t := by
  induction es using List.reverseRecOn generalizing t with
  | nil => exact run_nil.mp h ▸ hs
  | append_singleton es e ih =>
      obtain ⟨u, hr, hg, hu⟩ := run_snoc.mp h
      exact preserved es u e t hg hu (ih hr)

/-- A run is one under another guard that admits the events in the states it visits. -/
theorem Run.admitted {guard' : σ → ε → Prop} {J : σ → Prop}
    (preserved : ∀ s e t, guard s e → step s e = some t → J s → J t)
    (admits : ∀ s e, guard s e → J s → guard' s e)
    {s t : σ} {es : List ε} (h : Run step guard s es t) (hs : J s) : Run step guard' s es t := by
  induction es generalizing s with
  | nil => exact h
  | cons e es ih =>
      obtain ⟨hg, u, hu, hr⟩ := run_cons.mp h
      exact run_cons.mpr ⟨admits s e hg hs, u, hu, ih hr (preserved s e u hg hu hs)⟩

/-- A component of a larger system runs when every step of the system leaves it alone or is
one of its own steps. -/
theorem Run.component {τ δ : Type*} {step' : τ → δ → Option τ} {guard' : τ → δ → Prop} {f : σ → τ}
    (steps : ∀ s e t, guard s e → step s e = some t →
      f t = f s ∨ ∃ d, guard' (f s) d ∧ step' (f s) d = some (f t))
    {s t : σ} {es : List ε} (h : Run step guard s es t) : ∃ ds, Run step' guard' (f s) ds (f t) := by
  induction es generalizing s with
  | nil => exact ⟨[], run_nil.mpr (congrArg f (run_nil.mp h))⟩
  | cons e es ih =>
      obtain ⟨hg, u, hu, hr⟩ := run_cons.mp h
      obtain ⟨ds, hds⟩ := ih hr
      rcases steps s e u hg hu with hsame | ⟨d, hd, hstep⟩
      · exact ⟨ds, hsame ▸ hds⟩
      · exact ⟨d :: ds, run_cons.mpr ⟨hd, f u, hstep, hds⟩⟩

/-- Play a list of events, stopping where one is not admitted or not enabled. -/
def play (step : σ → ε → Option σ) (admits : σ → ε → Bool) : σ → List ε → Option σ
  | s, [] => some s
  | s, e :: es => if admits s e then (step s e).bind fun u => play step admits u es else none

theorem run_of_play {admits : σ → ε → Bool} {s t : σ} {es : List ε}
    (h : play step admits s es = some t) : Run step (fun s e => admits s e = true) s es t := by
  induction es generalizing s with
  | nil => exact Option.some.inj h
  | cons e es ih =>
      unfold play at h
      split_ifs at h with hg
      obtain ⟨u, hu, hr⟩ := Option.bind_eq_some_iff.mp h
      exact run_cons.mpr ⟨hg, u, hu, ih hr⟩

/-- Two systems that answer every event alike, from states that are alike, play every
list alike. -/
theorem play_rel {τ : Type*} {step' : τ → ε → Option τ} {R : σ → τ → Prop} {es : List ε}
    (h : ∀ s t e, e ∈ es → R s t → Option.Rel R (step s e) (step' t e)) {s : σ} {t : τ}
    (hst : R s t) :
    Option.Rel R (play step (fun _ _ => true) s es) (play step' (fun _ _ => true) t es) := by
  induction es generalizing s t with
  | nil => exact .some hst
  | cons e es ih =>
      have hone := h s t e List.mem_cons_self hst
      have hrest : ∀ s t x, x ∈ es → R s t → Option.Rel R (step s x) (step' t x) :=
        fun s t x hx => h s t x (List.mem_cons_of_mem _ hx)
      simp only [play, if_true]
      generalize step s e = u, step' t e = v at hone
      cases hone with
      | none => exact .none
      | some huv => exact ih hrest huv

/-- A check on the last state of a played list is a check on a run. -/
theorem exists_run_of_play (step : σ → ε → Option σ) (admits : σ → ε → Bool) (s : σ)
    (es : List ε) (check : σ → Bool) (h : (play step admits s es).any check = true) :
    ∃ t, Run step (fun s e => admits s e = true) s es t ∧ check t = true := by
  obtain ⟨t, ht, hc⟩ := (Option.any_eq_true _ _).mp h
  exact ⟨t, run_of_play ht, hc⟩

/-! ### Lists of components -/

section
variable {α β : Type*} {R : α → β → Prop} {l : List α} {l' : List β}

/-- Related lists hold related components at the same places. -/
theorem forall₂_get (h : List.Forall₂ R l l') (i : ℕ) : Option.Rel R l[i]? l'[i]? := by
  induction h generalizing i with
  | nil => exact .none
  | cons ha _ ih =>
      cases i with
      | zero => exact .some ha
      | succ i => exact ih i

theorem forall₂_set (h : List.Forall₂ R l l') (i : ℕ) {a : α} {b : β} (hab : R a b) :
    List.Forall₂ R (l.set i a) (l'.set i b) := by
  induction h generalizing i with
  | nil => exact .nil
  | cons ha hrest ih =>
      cases i with
      | zero => exact .cons hab hrest
      | succ i => exact .cons ha (ih i)

/-- A component that is replaced by one of the same kind. -/
theorem filterMap_set {f : α → Option β} {i : ℕ} {x y : α} (hi : l[i]? = some x)
    (hf : f y = f x) : (l.set i y).filterMap f = l.filterMap f := by
  induction l generalizing i with
  | nil => rfl
  | cons a l ih =>
      cases i with
      | zero =>
          cases hi
          rw [List.set_cons_zero, List.filterMap_cons, List.filterMap_cons, hf]
      | succ i => rw [List.set_cons_succ, List.filterMap_cons, List.filterMap_cons, ih hi]

end

end LightningGateway.GuardedRuns
