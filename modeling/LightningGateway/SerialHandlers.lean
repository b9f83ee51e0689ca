import LightningGateway.TaskPools

/-!
# One handler at a time

A consumer takes messages off a queue and runs one program of a pool on each, awaiting the
program before it takes the next message. Other programs run beside it. The handlers of the
pool are then those of the messages taken, in their order, and at most one still has a call
to make.
-/
namespace LightningGateway.SerialHandlers
open GuardedRuns EffectPrograms TaskPools

universe u v
variable {S : Signature.{u}} {M : Machine S} {U : Type v}

inductive Consumer where
  | waiting
  /-- It awaits the program of task `i`. -/
  | handling (i : ℕ)
  /-- It has given up its end of the queue. -/
  | stopped
deriving DecidableEq, Repr

/-- The awaited program has returned. -/
def Consumer.finish (s : Pool M) : Consumer → Option Consumer
  | .handling i => if s.tasks[i]?.any Task.returned then some .waiting else none
  | _ => none

theorem Consumer.finish_spec {s : Pool M} {consumer consumer' : Consumer}
    (hfinish : consumer.finish s = some consumer') :
    consumer' = .waiting ∧ ∃ i, consumer = .handling i ∧
      s.tasks[i]?.any Task.returned = true := by
  unfold Consumer.finish at hfinish
  split at hfinish
  case h_1 i =>
    split_ifs at hfinish with hreturned
    cases hfinish
    exact ⟨rfl, i, rfl, hreturned⟩
  case h_2 => cases hfinish

/-- The message a task handles, when programs of some entries handle messages. -/
def handles (message : M.Entry → Option U) (t : Task M) : Option U := message t.entry

structure Serial (message : M.Entry → Option U) (s : Pool M) (handled : List U)
    (consumer : Consumer) : Prop where
  started : s.tasks.filterMap (handles message) = handled
  single : ∀ i t, s.tasks[i]? = some t → (handles message t).isSome = true →
    t.live = true → consumer = .handling i

variable {message : M.Entry → Option U} {s t : Pool M} {handled : List U}
variable {consumer consumer' : Consumer}

theorem Serial.empty (w : M.World) : Serial message (⟨w, []⟩ : Pool M) [] consumer :=
  ⟨rfl, fun i t hi => by cases hi⟩

/-- Two handlers with calls to make are one. -/
theorem Serial.unique (hs : Serial message s handled consumer) {i j : ℕ} {x y : Task M}
    (hi : s.tasks[i]? = some x) (hj : s.tasks[j]? = some y)
    (hx : (handles message x).isSome = true) (hy : (handles message y).isSome = true)
    (hlive : x.live = true) (hlive' : y.live = true) : i = j :=
  Consumer.handling.inj ((hs.single i x hi hx hlive).symm.trans (hs.single j y hj hy hlive'))

/-- Once the handler it awaits has no call left, the consumer may go on to anything. -/
theorem Serial.free (hs : Serial message s handled consumer)
    (hfree : ∀ i, consumer = .handling i → s.tasks[i]?.any Task.live = false) :
    Serial message s handled consumer' := by
  refine ⟨hs.started, fun i x hi hx hlive => ?_⟩
  have hidle := hfree i (hs.single i x hi hx hlive)
  rw [hi, Option.any_some, hlive] at hidle
  cases hidle

theorem Serial.finish (hs : Serial message s handled consumer)
    (hfinish : consumer.finish s = some consumer') : Serial message s handled consumer' := by
  obtain ⟨-, i, rfl, hreturned⟩ := Consumer.finish_spec hfinish
  refine hs.free fun j hj => ?_
  cases hj
  cases hi : s.tasks[i]? with
  | none => rfl
  | some x =>
      rw [hi] at hreturned
      exact Task.returned_not_live hreturned

/-- A step of the pool that starts no handler. -/
theorem Serial.next {e : Event M} (hs : Serial message s handled consumer)
    (hother : ∀ x, e = .spawn x → message x = none) (hnext : s.next e = some t) :
    Serial message t handled consumer := by
  obtain ⟨x, rfl, rfl⟩ | ⟨i, c, x, o, k, a, w, rfl, hi, hrest, -, rfl⟩ | ⟨x, w, rfl, -, rfl⟩ |
    ⟨rfl, rfl⟩ := next_cases hnext
  · have hx := hother x rfl
    refine ⟨?_, fun i y hi hy hlive => ?_⟩
    · rw [List.filterMap_append, hs.started, List.filterMap_cons, handles, hx]
      exact List.append_nil _
    · rcases lt_or_ge i s.tasks.length with hlt | hge
      · rw [List.getElem?_append_left hlt] at hi
        exact hs.single i y hi hy hlive
      · rw [List.getElem?_append_right hge] at hi
        obtain rfl := List.mem_singleton.mp (List.mem_of_getElem? hi)
        rw [handles, hx] at hy
        cases hy
  · refine ⟨?_, fun j y hj hy hlive => ?_⟩
    · rw [← hs.started]
      exact filterMap_set hi rfl
    rcases eq_or_ne i j with rfl | hne
    · rw [List.getElem?_set_self (List.getElem?_eq_some_iff.mp hi).1] at hj
      cases hj
      exact hs.single i x hi hy (by rw [Task.live, hrest])
    · rw [List.getElem?_set_ne hne] at hj
      exact hs.single j y hj hy hlive
  · exact ⟨hs.started, hs.single⟩
  · refine ⟨?_, fun i y hi _ hlive => ?_⟩
    · have hsame : handles message ∘ Task.crash = handles message :=
        funext fun x => congrArg (fun p : Past M => message p.entry) x.crash_toPast
      rw [List.filterMap_map, hsame, hs.started]
    · rw [List.getElem?_map] at hi
      obtain ⟨x, -, rfl⟩ := Option.map_eq_some_iff.mp hi
      rw [x.crash_live] at hlive
      cases hlive

/-- The consumer takes a message and starts its handler. -/
theorem Serial.receive {x : M.Entry} {m : U} (hs : Serial message s handled .waiting)
    (hx : message x = some m) (hnext : s.next (.spawn x) = some t) :
    Serial message t (handled ++ [m]) (.handling s.tasks.length) := by
  cases hnext
  refine ⟨?_, fun i y hi hy hlive => ?_⟩
  · rw [List.filterMap_append, hs.started, List.filterMap_cons, handles, hx]
    rfl
  · rcases lt_or_ge i s.tasks.length with hlt | hge
    · rw [List.getElem?_append_left hlt] at hi
      cases hs.single i y hi hy hlive
    · rw [List.getElem?_append_right hge] at hi
      have hlen : i - s.tasks.length < 1 := (List.getElem?_eq_some_iff.mp hi).1
      exact congrArg Consumer.handling (by omega)

/-- A panic loses the handler that the consumer awaits, and the consumer with it. -/
theorem Serial.unwind {i : ℕ} (hs : Serial message s handled (.handling i)) :
    Serial message (s.lose i) handled consumer := by
  cases hi : s.tasks[i]? with
  | none =>
      have hsame : s.lose i = s := by
        rw [Pool.lose, hi]
      rw [hsame]
      exact hs.free fun j hj => by cases hj; rw [hi]; rfl
  | some x =>
      have hset : s.lose i = { s with tasks := s.tasks.set i x.crash } := by
        rw [Pool.lose, hi]
      rw [hset]
      have hsame : handles message x.crash = handles message x :=
        congrArg (fun p : Past M => message p.entry) x.crash_toPast
      refine ⟨(filterMap_set hi hsame).trans hs.started, fun j y hj hy hlive => ?_⟩
      rcases eq_or_ne i j with rfl | hne
      · rw [List.getElem?_set_self (List.getElem?_eq_some_iff.mp hi).1] at hj
        cases hj
        rw [x.crash_live] at hlive
        cases hlive
      · rw [List.getElem?_set_ne hne] at hj
        exact absurd (Consumer.handling.inj (hs.single j y hj hy hlive)) hne

end LightningGateway.SerialHandlers
