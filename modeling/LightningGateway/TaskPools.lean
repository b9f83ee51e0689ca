import LightningGateway.GuardedRuns
import LightningGateway.EffectPrograms
import Mathlib.Algebra.Order.BigOperators.Group.List
import Mathlib.Algebra.Order.Ring.Nat
import Mathlib.Data.List.Induction

/-!
# Pools of interleaved programs

A machine interprets the operations of a signature over a world. The answer of
an operation may depend on a choice that the program does not control: what a
clock shows, what a peer replies, whether a connection breaks. A pool runs any
number of programs against one world, one call at a time and in any order, and
may lose all unfinished programs at once in a crash. Every task keeps the list
of the calls it has completed; no program and no interpretation reads it.

`pool_invariant` is the only induction over pools: an invariant of the world
and of the completed calls is preserved by every run as soon as it is preserved
by each call that the programs are allowed to make.
-/
namespace LightningGateway.TaskPools
open GuardedRuns EffectPrograms

universe u

structure Machine (S : Signature.{u}) where
  World : Type
  Choice : Type
  /-- One call; `none` when the choice does not fit the operation. -/
  exec : (o : S.Op) → Choice → World → Option (S.Ans o × World)
  Env : Type
  /-- A step the surrounding systems take on their own. -/
  env : Env → World → Option World
  Entry : Type
  Result : Type
  program : Entry → Program S Result

variable {S : Signature.{u}} {M : Machine S}

/-- What a task was started as and which calls it has completed. -/
structure Past (M : Machine S) where
  entry : M.Entry
  calls : List (Call S)

structure Task (M : Machine S) extends Past M where
  /-- The rest of the program; `none` after a crash. -/
  rest : Option (Program S M.Result)

structure Pool (M : Machine S) where
  world : M.World
  tasks : List (Task M)

inductive Event (M : Machine S) where
  | spawn (e : M.Entry)
  | step (i : ℕ) (c : M.Choice)
  | env (x : M.Env)
  | crash

/-- A crash loses every program that has not returned. -/
def Task.crash (t : Task M) : Task M :=
  match t.rest with
  | some (.ret _) => t
  | _ => { t with rest := none }

/-- The task has run to its end. -/
def Task.returned (t : Task M) : Bool :=
  match t.rest with
  | some (.ret _) => true
  | _ => false

theorem Task.returned_iff {t : Task M} : t.returned = true ↔ ∃ r, t.rest = some (.ret r) := by
  unfold Task.returned
  split
  next r hr => simp [hr]
  next hne => simpa using fun r hr => hne r hr

/-- The task has a call left to make. -/
def Task.live (t : Task M) : Bool :=
  match t.rest with
  | some (.call ..) => true
  | _ => false

/-- Let the task make its next call. -/
def Task.advance (t : Task M) (c : M.Choice) (w : M.World) : Option (Task M × M.World) :=
  match t.rest with
  | some (.call o k) =>
      match M.exec o c w with
      | some (a, w') => some ({ t with calls := t.calls ++ [⟨o, a⟩], rest := some (k a) }, w')
      | none => none
  | _ => none

def Pool.next (s : Pool M) : Event M → Option (Pool M)
  | .spawn e => some { s with tasks := s.tasks ++ [⟨⟨e, []⟩, some (M.program e)⟩] }
  | .step i c =>
      match s.tasks[i]? with
      | some t =>
          match t.advance c s.world with
          | some (t', w) => some ⟨w, s.tasks.set i t'⟩
          | none => none
      | none => none
  | .env x =>
      match M.env x s.world with
      | some w => some { s with world := w }
      | none => none
  | .crash => some { s with tasks := s.tasks.map Task.crash }

/-- One program is lost. -/
def Pool.lose (s : Pool M) (i : ℕ) : Pool M :=
  match s.tasks[i]? with
  | some t => { s with tasks := s.tasks.set i t.crash }
  | none => s

/-- The tasks of a pool without their remaining programs. -/
def Pool.pasts (s : Pool M) : List (Past M) := s.tasks.map Task.toPast

/-- Restrictions on what the environment of the programs may do: which tasks it
starts, how it answers a call, which steps it takes itself. -/
structure Discipline (M : Machine S) where
  spawn : M.Entry → M.World → Bool := fun _ _ => true
  call : Past M → S.Op → M.Choice → M.World → Bool := fun _ _ _ _ => true
  env : M.Env → M.World → Bool := fun _ _ => true

namespace Discipline

def guard (D : Discipline M) (s : Pool M) : Event M → Bool
  | .spawn e => D.spawn e s.world
  | .step i c =>
      match s.tasks[i]? with
      | some t =>
          match t.rest with
          | some (.call o _) => D.call t.toPast o c s.world
          | _ => true
      | none => true
  | .env x => D.env x s.world
  | .crash => true

/-- Both disciplines at once. -/
def both (D E : Discipline M) : Discipline M where
  spawn e w := D.spawn e w && E.spawn e w
  call p o c w := D.call p o c w && E.call p o c w
  env x w := D.env x w && E.env x w

theorem both_spawn {D E : Discipline M} {e : M.Entry} {w : M.World} :
    (D.both E).spawn e w = true ↔ D.spawn e w = true ∧ E.spawn e w = true := by
  simp [both]

theorem both_call {D E : Discipline M} {p : Past M} {o : S.Op} {c : M.Choice} {w : M.World} :
    (D.both E).call p o c w = true ↔ D.call p o c w = true ∧ E.call p o c w = true := by
  simp [both]

theorem both_env {D E : Discipline M} {x : M.Env} {w : M.World} :
    (D.both E).env x w = true ↔ D.env x w = true ∧ E.env x w = true := by
  simp [both]

end Discipline

/-- The runs of the pool of `M` under `D`. -/
abbrev Runs (D : Discipline M) : Pool M → List (Event M) → Pool M → Prop :=
  Run Pool.next fun s e => D.guard s e = true

/-- A check on the last state of a played list of events is a check on a run. -/
theorem exists_run_of_play (D : Discipline M) (s : Pool M) (es : List (Event M))
    (check : Pool M → Bool) (h : (play Pool.next D.guard s es).any check = true) :
    ∃ t, Runs D s es t ∧ check t = true :=
  GuardedRuns.exists_run_of_play _ _ s es check h

/-- Without restrictions every event is admitted. -/
theorem free_guard (s : Pool M) (e : Event M) : ({} : Discipline M).guard s e = true := by
  cases e with
  | step i c =>
      simp only [Discipline.guard]
      split
      · split <;> rfl
      · rfl
  | _ => rfl

/-! ### Counting calls over all tasks -/

/-- An element that is never preceded by another of its kind occurs once. -/
theorem countP_le_one {α : Type u} {q : α → Bool} {xs : List α}
    (h : ∀ l x l', xs = l ++ x :: l' → q x = true → ∀ y ∈ l, q y = false) :
    xs.countP q ≤ 1 := by
  induction xs using List.reverseRecOn with
  | nil => simp
  | append_singleton xs x ih =>
      rw [List.countP_append]
      cases hx : q x with
      | false =>
          have hxs : xs.countP q ≤ 1 := ih fun l y l' hl =>
            h l y (l' ++ [x]) (by rw [hl, List.append_assoc, List.cons_append])
          simpa [hx] using hxs
      | true =>
          have hxs : xs.countP q = 0 := by
            rw [List.countP_eq_zero]
            exact fun y hy => by simp [h xs x [] rfl hx y hy]
          simp [hxs, hx]

theorem eq_of_countP_le_one {α : Type u} {q : α → Bool} {xs : List α} {x y : α}
    (h : xs.countP q ≤ 1) (hx : x ∈ xs) (hy : y ∈ xs) (hqx : q x = true) (hqy : q y = true) :
    x = y := by
  induction xs with
  | nil => cases hx
  | cons z xs ih =>
      have positive : ∀ {y}, y ∈ xs → q y = true → 0 < xs.countP q :=
        fun hy hq => List.countP_pos_iff.mpr ⟨_, hy, hq⟩
      rw [List.countP_cons] at h
      rcases List.mem_cons.mp hx with hz | hx' <;> rcases List.mem_cons.mp hy with hz' | hy'
      · rw [hz, hz']
      · subst hz
        have := positive hy' hqy
        simp only [hqx, if_true] at h
        omega
      · subst hz'
        have := positive hx' hqx
        simp only [hqy, if_true] at h
        omega
      · exact ih (by omega) hx' hy'

/-- How many completed calls of a pool satisfy `q`. -/
def callCount (q : Call S → Bool) (ps : List (Past M)) : ℕ :=
  (ps.map fun p => p.calls.countP q).sum

section
variable {q : Call S → Bool} {ps : List (Past M)}

theorem callCount_spawn (q : Call S → Bool) (ps : List (Past M)) (e : M.Entry) :
    callCount q (ps ++ [⟨e, []⟩]) = callCount q ps := by
  simp [callCount]

theorem callCount_call {i : ℕ} {e : M.Entry} {past : List (Call S)} {c : Call S}
    (h : ps[i]? = some ⟨e, past⟩) :
    callCount q (ps.set i ⟨e, past ++ [c]⟩) = callCount q ps + if q c then 1 else 0 := by
  induction ps generalizing i with
  | nil => cases h
  | cons p ps ih =>
      cases i with
      | zero =>
          cases h
          simp [callCount, List.countP_append, List.countP_cons]
          omega
      | succ i =>
          have := ih (i := i) h
          simp only [callCount, List.set_cons_succ, List.map_cons, List.sum_cons] at this ⊢
          omega

theorem callCount_call_ne_zero {i : ℕ} {e : M.Entry} {past : List (Call S)} {c : Call S}
    (h : ps[i]? = some ⟨e, past⟩) (hq : callCount q ps ≠ 0) :
    callCount q (ps.set i ⟨e, past ++ [c]⟩) ≠ 0 := by
  rw [callCount_call h]
  omega

theorem callCount_ne_zero {p : Past M} {c : Call S} (hp : p ∈ ps) (hc : c ∈ p.calls)
    (hq : q c = true) : callCount q ps ≠ 0 := by
  have hpos : 0 < p.calls.countP q := List.countP_pos_iff.mpr ⟨c, hc, hq⟩
  have hle : p.calls.countP q ≤ callCount q ps :=
    List.single_le_sum (fun _ _ => Nat.zero_le _) _ (List.mem_map_of_mem hp)
  omega

theorem callCount_eq_zero (h : ∀ p ∈ ps, ∀ c ∈ p.calls, q c = false) : callCount q ps = 0 := by
  induction ps with
  | nil => rfl
  | cons p ps ih =>
      have hp : p.calls.countP q = 0 := by
        rw [List.countP_eq_zero]
        exact fun c hc => by simp [h p List.mem_cons_self c hc]
      have hps := ih fun p' hp' => h p' (List.mem_cons_of_mem _ hp')
      simp only [callCount, List.map_cons, List.sum_cons] at hps ⊢
      omega

theorem exists_of_callCount_ne_zero (h : callCount q ps ≠ 0) :
    ∃ p ∈ ps, ∃ c ∈ p.calls, q c = true := by
  by_contra hne
  refine h (callCount_eq_zero fun p hp c hc => ?_)
  rw [Bool.eq_false_iff]
  exact fun hq => hne ⟨p, hp, c, hc, hq⟩

theorem callCount_mono {q' : Call S → Bool}
    (h : ∀ p ∈ ps, p.calls.countP q ≤ p.calls.countP q') : callCount q ps ≤ callCount q' ps :=
  List.sum_le_sum h

/-- The other tasks are still there after one of them made a call. -/
theorem mem_set_or_eq {p : Past M} (i : ℕ) (p' : Past M) (hp : p ∈ ps) :
    p ∈ ps.set i p' ∨ ps[i]? = some p := by
  obtain ⟨j, hj⟩ := List.getElem?_of_mem hp
  by_cases hij : i = j
  · exact .inr (hij ▸ hj)
  · exact .inl (List.mem_of_getElem? ((List.getElem?_set_ne hij).trans hj))

/-- When only one call satisfies `q`, only one task made such a call. -/
theorem callCount_le_one {p p' : Past M} {c c' : Call S} (h : callCount q ps ≤ 1) (hp : p ∈ ps)
    (hp' : p' ∈ ps) (hc : c ∈ p.calls) (hc' : c' ∈ p'.calls) (hq : q c = true)
    (hq' : q c' = true) : p = p' := by
  have positive : ∀ {p : Past M} {c}, c ∈ p.calls → q c = true → 0 < p.calls.countP q :=
    fun hc hq => List.countP_pos_iff.mpr ⟨_, hc, hq⟩
  induction ps with
  | nil => cases hp
  | cons x ps ih =>
      have hsum : x.calls.countP q + callCount q ps ≤ 1 := by
        simpa only [callCount, List.map_cons, List.sum_cons] using h
      have member : ∀ {p : Past M}, p ∈ ps → p.calls.countP q ≤ callCount q ps :=
        fun hp => List.single_le_sum (fun _ _ => Nat.zero_le _) _ (List.mem_map_of_mem hp)
      have hpos := positive hc hq
      have hpos' := positive hc' hq'
      rcases List.mem_cons.mp hp with hx | hp₁ <;> rcases List.mem_cons.mp hp' with hx' | hp₁'
      · rw [hx, hx']
      · subst hx
        have := member hp₁'
        omega
      · subst hx'
        have := member hp₁
        omega
      · exact ih (by omega) hp₁ hp₁'

end

/-! ### What holds of every task -/

section
variable {ps : List (Past M)} {P R : Past M → Prop} {A B : Call S → Prop}

theorem pasts_spawn {e : M.Entry} (hnew : P ⟨e, []⟩) (h : ∀ p ∈ ps, P p) :
    ∀ p ∈ ps ++ [⟨e, []⟩], P p := by
  intro p hp
  rcases List.mem_append.mp hp with hp | hp
  · exact h p hp
  · exact List.mem_singleton.mp hp ▸ hnew

/-- A call concerns the task that makes it; for the others `kept` is enough. -/
theorem pasts_call {i : ℕ} {e : M.Entry} {past : List (Call S)} {c : Call S}
    (hi : ps[i]? = some ⟨e, past⟩) (kept : ∀ p, P p → R p)
    (hcall : P ⟨e, past⟩ → R ⟨e, past ++ [c]⟩) (h : ∀ p ∈ ps, P p) :
    ∀ p ∈ ps.set i ⟨e, past ++ [c]⟩, R p := by
  intro p hp
  rcases List.mem_or_eq_of_mem_set hp with hp | rfl
  · exact kept p (h p hp)
  · exact hcall (h _ (List.mem_of_getElem? hi))

/-- The case of a fact about single calls. -/
theorem calls_call {i : ℕ} {e : M.Entry} {past : List (Call S)} {c : Call S}
    (hi : ps[i]? = some ⟨e, past⟩) (kept : ∀ x, A x → B x) (hc : B c)
    (h : ∀ p ∈ ps, ∀ x ∈ p.calls, A x) :
    ∀ p ∈ ps.set i ⟨e, past ++ [c]⟩, ∀ x ∈ p.calls, B x := by
  refine pasts_call hi (fun p hp x hx => kept x (hp x hx)) (fun hpast x hx => ?_) h
  rcases List.mem_append.mp hx with hx | hx
  · exact kept x (hpast x hx)
  · exact List.mem_singleton.mp hx ▸ hc

end

section
variable (J : M.Entry → List (Call S) → S.Op → Prop)
variable (Q : M.Entry → List (Call S) → M.Result → Prop)

/-- Every program of the pool still keeps to its sequential description. -/
def Sound (s : Pool M) : Prop :=
  ∀ t ∈ s.tasks, ∀ p, t.rest = some p → Emits (J t.entry) (Q t.entry) t.calls p

/-- Every completed call was justified by the calls before it. -/
def Explained (ps : List (Past M)) : Prop :=
  ∀ p ∈ ps, ∀ l c l', p.calls = l ++ c :: l' → J p.entry l c.op

variable {J Q}

theorem explained_spawn {ps : List (Past M)} (e : M.Entry) (h : Explained J ps) :
    Explained J (ps ++ [⟨e, []⟩]) := by
  refine pasts_spawn (fun l c l' hl => ?_) h
  cases l <;> cases hl

theorem explained_call {ps : List (Past M)} {i : ℕ} {e : M.Entry} {past : List (Call S)}
    {o : S.Op} {a : S.Ans o} (hp : ps[i]? = some ⟨e, past⟩) (hj : J e past o)
    (h : Explained J ps) : Explained J (ps.set i ⟨e, past ++ [⟨o, a⟩]⟩) := by
  refine pasts_call hp (fun _ h => h) (fun hpast l c l' hl => ?_) h
  -- The call is the new one exactly when nothing follows it.
  rcases List.eq_nil_or_concat l' with rfl | ⟨init, last, rfl⟩
  · obtain ⟨rfl, hc⟩ := List.append_inj' hl rfl
    cases hc
    exact hj
  · rw [List.concat_eq_append, ← List.cons_append, ← List.append_assoc] at hl
    obtain ⟨hl, -⟩ := List.append_inj' hl rfl
    exact hpast l c init hl

theorem Task.crash_toPast (t : Task M) : t.crash.toPast = t.toPast := by
  unfold Task.crash
  split <;> rfl

theorem Task.crash_live (t : Task M) : t.crash.live = false := by
  unfold Task.crash
  split
  next r hr => rw [Task.live, hr]
  next => rfl

theorem Task.returned_not_live {t : Task M} (h : t.returned = true) : t.live = false := by
  obtain ⟨r, hr⟩ := Task.returned_iff.mp h
  rw [Task.live, hr]

theorem Task.crash_rest {t : Task M} {p : Program S M.Result} (h : t.crash.rest = some p) :
    t.rest = some p := by
  unfold Task.crash at h
  split at h
  · exact h
  · cases h

theorem Task.advance_spec {t t' : Task M} {c : M.Choice} {w w' : M.World}
    (h : t.advance c w = some (t', w')) :
    ∃ o k a, t.rest = some (.call o k) ∧ M.exec o c w = some (a, w') ∧
      t' = ⟨⟨t.entry, t.calls ++ [⟨o, a⟩]⟩, some (k a)⟩ := by
  unfold Task.advance at h
  split at h
  case h_1 o k hr =>
    split at h
    case h_1 a v hx =>
      cases h
      exact ⟨o, k, a, hr, hx, rfl⟩
    case h_2 => cases h
  case h_2 => cases h

/-- What one step of a pool can be. -/
theorem next_cases {s u : Pool M} {e : Event M} (h : s.next e = some u) :
    (∃ x, e = .spawn x ∧ u = { s with tasks := s.tasks ++ [⟨⟨x, []⟩, some (M.program x)⟩] }) ∨
    (∃ i c t o k a w, e = .step i c ∧ s.tasks[i]? = some t ∧ t.rest = some (.call o k) ∧
      M.exec o c s.world = some (a, w) ∧
      u = ⟨w, s.tasks.set i ⟨⟨t.entry, t.calls ++ [⟨o, a⟩]⟩, some (k a)⟩⟩) ∨
    (∃ x w, e = .env x ∧ M.env x s.world = some w ∧ u = { s with world := w }) ∨
    (e = .crash ∧ u = { s with tasks := s.tasks.map Task.crash }) := by
  cases e with
  | spawn x => exact .inl ⟨x, rfl, (Option.some.inj h).symm⟩
  | step i c =>
      simp only [Pool.next] at h
      split at h
      case h_1 t ht =>
        split at h
        case h_1 t' w ha =>
          obtain ⟨o, k, a, hr, hx, rfl⟩ := Task.advance_spec ha
          exact .inr (.inl ⟨i, c, t, o, k, a, w, rfl, ht, hr, hx, (Option.some.inj h).symm⟩)
        case h_2 => cases h
      case h_2 => cases h
  | env x =>
      simp only [Pool.next] at h
      split at h
      case h_1 w hw => exact .inr (.inr (.inl ⟨x, w, rfl, hw, (Option.some.inj h).symm⟩))
      case h_2 => cases h
  | crash => exact .inr (.inr (.inr ⟨rfl, (Option.some.inj h).symm⟩))

theorem next_sound (programs : ∀ e, Emits (J e) (Q e) [] (M.program e)) {s u : Pool M}
    {e : Event M} (h : s.next e = some u) (hs : Sound J Q s) : Sound J Q u := by
  obtain ⟨x, -, rfl⟩ | ⟨i, c, t, o, k, a, w, -, ht, hr, -, rfl⟩ | ⟨x, w, -, -, rfl⟩ | ⟨-, rfl⟩ :=
    next_cases h
  · intro t ht p hp
    rcases List.mem_append.mp ht with ht | ht
    · exact hs t ht p hp
    · obtain rfl := List.mem_singleton.mp ht
      cases hp
      exact programs x
  · intro t' ht' p hp
    rcases List.mem_or_eq_of_mem_set ht' with ht' | rfl
    · exact hs t' ht' p hp
    · cases hp
      exact (hs t (List.mem_of_getElem? ht) _ hr).2 a
  · exact hs
  · intro t' ht' p hp
    obtain ⟨t, ht, rfl⟩ := List.mem_map.mp ht'
    rw [Task.crash_toPast]
    exact hs t ht p (Task.crash_rest hp)

/-- The invariant rule. `hcall` may use that the call is justified by the calls
its task has completed, and whatever the discipline says about the answer. -/
theorem pool_invariant (programs : ∀ e, Emits (J e) (Q e) [] (M.program e))
    (D : Discipline M) {I : M.World → List (Past M) → Prop}
    (hspawn : ∀ w ps e, D.spawn e w = true → I w ps → I w (ps ++ [⟨e, []⟩]))
    (hcall : ∀ w ps i p o c a w', ps[i]? = some p → J p.entry p.calls o → D.call p o c w = true →
      M.exec o c w = some (a, w') → I w ps →
      I w' (ps.set i ⟨p.entry, p.calls ++ [⟨o, a⟩]⟩))
    (henv : ∀ w ps x w', D.env x w = true → M.env x w = some w' → I w ps → I w' ps)
    {s t : Pool M} {es : List (Event M)} (h : Runs D s es t)
    (hs : Sound J Q s) (hI : I s.world s.pasts) :
    Sound J Q t ∧ I t.world t.pasts := by
  refine h.invariant (J := fun s => Sound J Q s ∧ I s.world s.pasts) ?_ ⟨hs, hI⟩
  rintro s e u hg hu ⟨hs, hI⟩
  refine ⟨next_sound programs hu hs, ?_⟩
  obtain ⟨x, rfl, rfl⟩ | ⟨i, c, t, o, k, a, w, rfl, ht, hr, hx, rfl⟩ | ⟨x, w, rfl, hx, rfl⟩ |
    ⟨rfl, rfl⟩ := next_cases hu
  · simpa [Pool.pasts] using hspawn s.world s.pasts x hg hI
  · have hp : s.pasts[i]? = some t.toPast := by simp [Pool.pasts, ht]
    have hj := (hs t (List.mem_of_getElem? ht) _ hr).1
    have hc : D.call t.toPast o c s.world = true := by simpa [Discipline.guard, ht, hr] using hg
    simpa [Pool.pasts, List.map_set] using
      hcall s.world s.pasts i t.toPast o c a w hp hj hc hx hI
  · simpa [Pool.pasts] using henv s.world s.pasts x w hg hx hI
  · have hmap : (s.tasks.map Task.crash).map Task.toPast = s.tasks.map Task.toPast := by
      rw [List.map_map]
      exact List.map_congr_left fun t _ => Task.crash_toPast t
    simpa [Pool.pasts, hmap] using hI

/-- A pool without tasks keeps to every description. -/
theorem sound_empty (w : M.World) : Sound J Q (⟨w, []⟩ : Pool M) := by
  intro t ht
  cases ht

/-- In a run from a pool without tasks every program keeps to its description, and so
does every call that was completed. -/
theorem described_run (programs : ∀ e, Emits (J e) (Q e) [] (M.program e)) {D : Discipline M}
    {w : M.World} {s : Pool M} {es : List (Event M)} (h : Runs D ⟨w, []⟩ es s) :
    Sound J Q s ∧ Explained J s.pasts :=
  pool_invariant (I := fun _ ps => Explained J ps) programs D
    (fun _ _ e _ hI => explained_spawn e hI)
    (fun _ _ _ _ _ _ _ _ hp hj _ _ hI => explained_call hp hj hI) (fun _ _ _ _ _ _ hI => hI) h
    (sound_empty w) fun p hp => (by cases hp)

/-- When the machine answers every call as `A` says, what a task calls next is justified
as it was described under `A`. -/
theorem justified_next {A : Call S → Prop}
    (programs : ∀ e, Emits (Given A (J e)) (Q e) [] (M.program e)) {D : Discipline M}
    (hexec : ∀ o c w a w', M.exec o c w = some (a, w') → A ⟨o, a⟩) {w : M.World} {s : Pool M}
    {es : List (Event M)} (h : Runs D ⟨w, []⟩ es s) {t : Task M} (ht : t ∈ s.tasks) {o : S.Op}
    {k : S.Ans o → Program S M.Result} (hr : t.rest = some (.call o k)) :
    J t.entry t.calls o := by
  obtain ⟨hsound, hanswers⟩ := pool_invariant (I := fun _ ps => ∀ p ∈ ps, ∀ c ∈ p.calls, A c)
    programs D
    (fun _ _ _ _ hI => pasts_spawn (fun _ hc => by cases hc) hI)
    (fun w _ _ _ o c a w' hi _ _ hx hI =>
      calls_call hi (fun _ ha => ha) (hexec o c w a w' hx) hI)
    (fun _ _ _ _ _ _ hI => hI) h (sound_empty w) fun _ hp => (by cases hp)
  exact (hsound t ht _ hr).1 (hanswers _ (List.mem_map_of_mem ht))

end

/-! ### One program alone -/

/-- The machine answers the calls one after the other, leading from `w` to `w'`. -/
inductive Served (M : Machine S) : M.World → List (Call S) → M.World → Prop where
  | nil {w : M.World} : Served M w [] w
  | cons {w w' w'' : M.World} {o : S.Op} {c : M.Choice} {a : S.Ans o} {calls : List (Call S)} :
      M.exec o c w = some (a, w') → Served M w' calls w'' → Served M w (⟨o, a⟩ :: calls) w''

section
variable {w w' w'' : M.World} {c₁ c₂ : List (Call S)}

theorem served_append : Served M w (c₁ ++ c₂) w'' ↔ ∃ w', Served M w c₁ w' ∧ Served M w' c₂ w'' := by
  constructor
  · intro h
    induction c₁ generalizing w with
    | nil => exact ⟨w, .nil, h⟩
    | cons c c₁ ih =>
        cases h with
        | cons hx h =>
            obtain ⟨w', h₁, h₂⟩ := ih h
            exact ⟨w', .cons hx h₁, h₂⟩
  · rintro ⟨w', h₁, h₂⟩
    induction h₁ with
    | nil => exact h₂
    | cons hx _ ih => exact .cons hx (ih h₂)

/-- A task that is alone can be run to its end along any trace that the machine serves. -/
theorem Served.advances {e : M.Entry} {past calls : List (Call S)} {p : Program S M.Result}
    {r : M.Result} {ts : List (Task M)} (h : Served M w calls w') (ht : Traces p calls r) :
    ∃ es, Runs {} ⟨w, ts ++ [⟨⟨e, past⟩, some p⟩]⟩ es
      ⟨w', ts ++ [⟨⟨e, past ++ calls⟩, some (.ret r)⟩]⟩ := by
  induction h generalizing past p with
  | nil =>
      cases ht
      refine ⟨[], run_nil.mpr ?_⟩
      rw [List.append_nil]
  | @cons w w₁ w' o c a calls hx _ ih =>
      cases ht with
      | @call _ k _ _ _ ht =>
          obtain ⟨es, hes⟩ : ∃ es, Runs {} ⟨w₁, ts ++ [⟨⟨e, past ++ [⟨o, a⟩]⟩, some (k a)⟩]⟩ es
              ⟨w', ts ++ [⟨⟨e, (past ++ [⟨o, a⟩]) ++ calls⟩, some (.ret r)⟩]⟩ := ih ht
          rw [List.append_assoc] at hes
          refine ⟨.step ts.length c :: es, run_cons.mpr ⟨?_, _, ?_, hes⟩⟩
          · simp [Discipline.guard]
          · simp [Pool.next, Task.advance, hx]

/-- Starting a program and running it to its end is a run. -/
theorem Served.exists_run {e : M.Entry} {calls : List (Call S)} {r : M.Result}
    {ts : List (Task M)} (h : Served M w calls w') (ht : Traces (M.program e) calls r) :
    ∃ es, Runs {} ⟨w, ts⟩ es ⟨w', ts ++ [⟨⟨e, calls⟩, some (.ret r)⟩]⟩ := by
  obtain ⟨es, hes⟩ : ∃ es, Runs {} ⟨w, ts ++ [⟨⟨e, []⟩, some (M.program e)⟩]⟩ es
      ⟨w', ts ++ [⟨⟨e, [] ++ calls⟩, some (.ret r)⟩]⟩ := h.advances ht
  exact ⟨.spawn e :: es, run_cons.mpr ⟨rfl, _, rfl, hes⟩⟩

end

end LightningGateway.TaskPools
