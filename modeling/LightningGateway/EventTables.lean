import Mathlib.Data.List.Nodup
import Mathlib.Data.List.Infix

/-!
# Event-sourced tables with an optimistic sequence check

A row carries a primary identifier, a second unique key, fixed columns, a state
text and the log of its events. Rows are inserted once and afterwards only ever
grow at the end of their log: a writer names the number of events it has
loaded, and the append is refused when the stored log has a different length.
Both uniqueness constraints are fields of the table, so no table violates them.

A snapshot is what a reader keeps from a row: some prefix of its log. Snapshots
stay snapshots while the table grows, and an append through a snapshot of full
length extends exactly that log.
-/
namespace LightningGateway.EventTables

variable {I K C E : Type}

/-- The events of an aggregate in memory: those read from or already written to
its row, and those pushed since. -/
structure EntityEvents (I E : Type) where
  id : I
  persisted : List E
  fresh : List E
deriving DecidableEq, Repr

namespace EntityEvents

/-- The events of an aggregate that is about to be created. -/
def init (id : I) (events : List E) : EntityEvents I E := ⟨id, [], events⟩

def iterAll (es : EntityEvents I E) : List E := es.persisted ++ es.fresh

def push (es : EntityEvents I E) (e : E) : EntityEvents I E :=
  { es with fresh := es.fresh ++ [e] }

def markPersisted (es : EntityEvents I E) : EntityEvents I E :=
  { es with persisted := es.persisted ++ es.fresh, fresh := [] }

@[simp] theorem push_id (es : EntityEvents I E) (e : E) : (es.push e).id = es.id := rfl
@[simp] theorem push_persisted (es : EntityEvents I E) (e : E) :
    (es.push e).persisted = es.persisted := rfl
@[simp] theorem push_fresh (es : EntityEvents I E) (e : E) :
    (es.push e).fresh = es.fresh ++ [e] := rfl
@[simp] theorem iterAll_push (es : EntityEvents I E) (e : E) :
    (es.push e).iterAll = es.iterAll ++ [e] := by simp [iterAll, push]
@[simp] theorem markPersisted_iterAll (es : EntityEvents I E) :
    es.markPersisted.iterAll = es.iterAll := by simp [iterAll, markPersisted]

end EntityEvents

/-- An event of a prefix is an event of the log. -/
theorem any_prefix_mono {q : E → Bool} {log log' : List E} (hp : log <+: log')
    (hq : log.any q = true) : log'.any q = true := by
  obtain ⟨e, he, hqe⟩ := List.any_eq_true.mp hq
  exact List.any_eq_true.mpr ⟨e, hp.subset he, hqe⟩

/-- Outcome of a command that tolerates being repeated. -/
inductive Idempotent where
  | executed
  | alreadyApplied
deriving DecidableEq, Repr

/-! ### Errors of a repository over such a table -/

inductive CreateError (Column : Type) where
  | constraintViolation (column : Option Column) (value : Option String)
  | hydration (uninitializedField : String)
  | sqlx
deriving DecidableEq, Repr

inductive ModifyError where
  | concurrentModification
  | sqlx
deriving DecidableEq, Repr

inductive FindError where
  | notFound
  | hydration (uninitializedField : String)
  | sqlx
deriving DecidableEq, Repr

/-! ### Tables -/

structure Row (I K C E : Type) where
  id : I
  key : K
  cols : C
  state : String
  events : List E
deriving DecidableEq, Repr

/-- A row after new events and a new state text were written to it. -/
def Row.grow (r : Row I K C E) (state : String) (new : List E) : Row I K C E :=
  { r with state := state, events := r.events ++ new }

structure Table (I K C E : Type) where
  rows : List (Row I K C E)
  ids : (rows.map Row.id).Nodup
  keys : (rows.map Row.key).Nodup

theorem nodup_map_snoc {A B : Type} {f : A → B} {xs : List A} {x : A}
    (h : (xs.map f).Nodup) (hx : f x ∉ xs.map f) : ((xs ++ [x]).map f).Nodup := by
  rw [List.map_append, List.map_singleton]
  exact h.append (List.nodup_singleton _) (List.disjoint_singleton.mpr hx)

/-- The uniqueness constraint an insert violates. -/
inductive Conflict where
  | id
  | key
deriving DecidableEq, Repr

inductive AppendError where
  | missing
  | stale
deriving DecidableEq, Repr

namespace Table

def empty : Table I K C E := ⟨[], by simp, by simp⟩

variable [DecidableEq I] [DecidableEq K]

def lookup (t : Table I K C E) (k : K) : Option (Row I K C E) :=
  t.rows.find? (fun r => r.key = k)

def insert (t : Table I K C E) (r : Row I K C E) : Except Conflict (Table I K C E) :=
  if hi : r.id ∈ t.rows.map Row.id then .error .id
  else if hk : r.key ∈ t.rows.map Row.key then .error .key
  else .ok
    { rows := t.rows ++ [r]
      ids := nodup_map_snoc t.ids hi
      keys := nodup_map_snoc t.keys hk }

def growAt (id : I) (state : String) (new : List E) (r : Row I K C E) : Row I K C E :=
  if r.id = id then r.grow state new else r

omit [DecidableEq K] in
theorem growAt_id (id : I) (state : String) (new : List E) (r : Row I K C E) :
    (growAt id state new r).id = r.id := by
  unfold growAt
  split <;> rfl

omit [DecidableEq K] in
theorem growAt_key (id : I) (state : String) (new : List E) (r : Row I K C E) :
    (growAt id state new r).key = r.key := by
  unfold growAt
  split <;> rfl

/-- Write `new` behind the first `loaded` events of row `id`. -/
def append (t : Table I K C E) (id : I) (loaded : ℕ) (state : String) (new : List E) :
    Except AppendError (Table I K C E) :=
  match t.rows.find? (fun r => r.id = id) with
  | none => .error .missing
  | some r =>
      if r.events.length = loaded then
        .ok
          { rows := t.rows.map (growAt id state new)
            ids := by
              have h : Row.id ∘ growAt (K := K) (C := C) id state new = Row.id :=
                funext (growAt_id id state new)
              rw [List.map_map, h]
              exact t.ids
            keys := by
              have h : Row.key ∘ growAt (K := K) (C := C) id state new = Row.key :=
                funext (growAt_key id state new)
              rw [List.map_map, h]
              exact t.keys }
      else .error .stale

variable {t t' t'' : Table I K C E} {r r' : Row I K C E} {k : K} {id : I}

omit [DecidableEq I] in
@[simp] theorem lookup_empty (k : K) : (empty : Table I K C E).lookup k = none := rfl

omit [DecidableEq I] in
theorem lookup_mem (h : t.lookup k = some r) : r ∈ t.rows := List.mem_of_find?_eq_some h

omit [DecidableEq I] in
theorem lookup_key (h : t.lookup k = some r) : r.key = k := by
  simpa using List.find?_some h

omit [DecidableEq I] in
theorem lookup_of_mem (h : r ∈ t.rows) : t.lookup r.key = some r := by
  unfold lookup
  cases hf : t.rows.find? (fun x => x.key = r.key) with
  | none => exact absurd (List.find?_eq_none.mp hf r h) (by simp)
  | some x =>
      have hx : x.key = r.key := by simpa using List.find?_some hf
      exact congrArg some (List.inj_on_of_nodup_map t.keys (List.mem_of_find?_eq_some hf) h hx)

omit [DecidableEq I] in
theorem lookup_eq_none : t.lookup k = none ↔ ∀ r ∈ t.rows, r.key ≠ k := by
  simp [lookup, List.find?_eq_none]

omit [DecidableEq I] in
/-- Two keys with the same identifier are the same row. -/
theorem lookup_unique {k' : K} (h : t.lookup k = some r) (h' : t.lookup k' = some r')
    (hid : r.id = r'.id) : r = r' :=
  List.inj_on_of_nodup_map t.ids (lookup_mem h) (lookup_mem h') hid

theorem insert_spec (h : t.insert r = .ok t') :
    t.lookup r.key = none ∧ t'.rows = t.rows ++ [r] ∧
      ∀ k, t'.lookup k = if k = r.key then some r else t.lookup k := by
  unfold insert at h
  split at h
  case isTrue => cases h
  case isFalse hi =>
    split at h
    case isTrue => cases h
    case isFalse hk =>
      cases h
      have hnone : t.lookup r.key = none :=
        lookup_eq_none.mpr fun x hx he => hk (List.mem_map.mpr ⟨x, hx, he⟩)
      refine ⟨hnone, rfl, fun k => ?_⟩
      simp only [lookup, List.find?_append] at hnone ⊢
      split_ifs with he
      · subst he
        simp [hnone]
      · simp [Ne.symm he]

theorem insert_ok (hi : ∀ x ∈ t.rows, x.id ≠ r.id) (hk : t.lookup r.key = none) :
    ∃ t', t.insert r = .ok t' := by
  unfold insert
  have hi' : r.id ∉ t.rows.map Row.id := by
    rintro h
    obtain ⟨x, hx, he⟩ := List.mem_map.mp h
    exact hi x hx he
  have hk' : r.key ∉ t.rows.map Row.key := by
    rintro h
    obtain ⟨x, hx, he⟩ := List.mem_map.mp h
    exact lookup_eq_none.mp hk x hx he
  rw [dif_neg hi', dif_neg hk']
  exact ⟨_, rfl⟩

/-- A key is refused exactly when it is taken, after the identifier was found new. -/
theorem insert_key_iff :
    t.insert r = .error .key ↔ (∀ x ∈ t.rows, x.id ≠ r.id) ∧ ∃ x, t.lookup r.key = some x := by
  have hids : r.id ∈ t.rows.map Row.id ↔ ¬∀ x ∈ t.rows, x.id ≠ r.id := by simp
  have hkeys : r.key ∈ t.rows.map Row.key ↔ ∃ x, t.lookup r.key = some x := by
    constructor
    · intro h
      obtain ⟨x, hx, he⟩ := List.mem_map.mp h
      exact ⟨x, he ▸ lookup_of_mem hx⟩
    · rintro ⟨x, hx⟩
      exact List.mem_map.mpr ⟨x, lookup_mem hx, lookup_key hx⟩
  unfold insert
  rw [← hkeys]
  split_ifs with hi hk
  · simp [hids.mp hi]
  · simpa [hk] using not_not.mp (mt hids.mpr hi)
  · simp [hk]

theorem append_spec {n : ℕ} {state : String} {new : List E}
    (h : t.append id n state new = .ok t') :
    ∃ r, r.id = id ∧ r.events.length = n ∧ t.lookup r.key = some r ∧
      ∀ k, t'.lookup k = if k = r.key then some (r.grow state new) else t.lookup k := by
  unfold append at h
  split at h
  case h_1 => cases h
  case h_2 r hr =>
    have hid : r.id = id := by simpa using List.find?_some hr
    have hmem := List.mem_of_find?_eq_some hr
    split at h
    case isFalse => cases h
    case isTrue hn =>
      cases h
      refine ⟨r, hid, hn, lookup_of_mem hmem, fun k => ?_⟩
      have hmap : (t.rows.map (growAt id state new)).find? (fun x => x.key = k) =
          (t.lookup k).map (growAt id state new) := by
        rw [List.find?_map]
        congr 1
        unfold lookup
        congr 1
        funext x
        simp [growAt_key]
      change (t.rows.map (growAt id state new)).find? (fun x => x.key = k) = _
      rw [hmap]
      split_ifs with he
      · rw [he, lookup_of_mem hmem]
        simp [growAt, hid]
      · cases hl : t.lookup k with
        | none => rfl
        | some x =>
            have hne : x.id ≠ id := fun hx => he <| by
              rw [← lookup_key hl, List.inj_on_of_nodup_map t.ids (lookup_mem hl) hmem
                (hx.trans hid.symm)]
            simp [growAt, hne]

omit [DecidableEq K] in
/-- Growing a row moves no row. -/
theorem append_order {n : ℕ} {state : String} {new : List E}
    (h : t.append id n state new = .ok t') : t'.rows.map Row.key = t.rows.map Row.key := by
  unfold append at h
  split at h
  case h_1 => cases h
  case h_2 =>
    split_ifs at h
    cases h
    have hkey : Row.key ∘ growAt (K := K) (C := C) id state new = Row.key :=
      funext (growAt_key id state new)
    rw [List.map_map, hkey]

omit [DecidableEq K] in
/-- A row is found under its identifier. -/
theorem find_id_of_mem (h : r ∈ t.rows) (hid : r.id = id) :
    t.rows.find? (fun x => x.id = id) = some r := by
  cases hf : t.rows.find? (fun x => x.id = id) with
  | none => exact absurd (List.find?_eq_none.mp hf r h) (by simp [hid])
  | some x =>
      have hx : x.id = id := by simpa using List.find?_some hf
      exact congrArg some (List.inj_on_of_nodup_map t.ids (List.mem_of_find?_eq_some hf) h
        (hx.trans hid.symm))

/-- A row that is there takes new events unless it has moved on. -/
theorem append_found (state : String) (new : List E) (h : t.lookup k = some r) (hid : r.id = id)
    (n : ℕ) :
    (∃ t', t.append id n state new = .ok t') ∨
      (r.events.length ≠ n ∧ t.append id n state new = .error .stale) := by
  unfold append
  rw [find_id_of_mem (lookup_mem h) hid]
  by_cases hn : r.events.length = n
  · simp only [hn, if_true]
    exact .inl ⟨_, rfl⟩
  · simp only [hn, if_false]
    exact .inr ⟨hn, trivial⟩

theorem append_ok {n : ℕ} (state : String) (new : List E) (h : t.lookup k = some r)
    (hid : r.id = id) (hn : r.events.length = n) :
    ∃ t', t.append id n state new = .ok t' :=
  (append_found state new h hid n).resolve_right fun hs => hs.1 hn

/-- Every row of `t` is still there, perhaps with a longer log. -/
def Extends (t t' : Table I K C E) : Prop :=
  ∀ k r, t.lookup k = some r →
    ∃ r', t'.lookup k = some r' ∧ r'.id = r.id ∧ r'.cols = r.cols ∧ r.events <+: r'.events

omit [DecidableEq I] in
theorem Extends.refl (t : Table I K C E) : t.Extends t :=
  fun _ r h => ⟨r, h, rfl, rfl, List.prefix_refl _⟩

omit [DecidableEq I] in
theorem Extends.trans (h : t.Extends t') (h' : t'.Extends t'') : t.Extends t'' := by
  intro k r hr
  obtain ⟨r', hr', hid, hc, hp⟩ := h k r hr
  obtain ⟨r'', hr'', hid', hc', hp'⟩ := h' k r' hr'
  exact ⟨r'', hr'', hid'.trans hid, hc'.trans hc, hp.trans hp'⟩

theorem insert_extends (h : t.insert r = .ok t') : t.Extends t' := by
  obtain ⟨hnone, -, hl⟩ := insert_spec h
  intro k x hx
  have hk : k ≠ r.key := fun hk => by rw [hk, hnone] at hx; cases hx
  exact ⟨x, by rw [hl, if_neg hk, hx], rfl, rfl, List.prefix_refl _⟩

theorem append_extends {n : ℕ} {state : String} {new : List E}
    (h : t.append id n state new = .ok t') : t.Extends t' := by
  obtain ⟨r, -, -, hr, hl⟩ := append_spec h
  intro k x hx
  by_cases hk : k = r.key
  · rw [hk, hr] at hx
    cases hx
    exact ⟨r.grow state new, by rw [hl, if_pos hk], rfl, rfl, List.prefix_append _ _⟩
  · exact ⟨x, by rw [hl, if_neg hk, hx], rfl, rfl, List.prefix_refl _⟩

/-- `log` is some earlier log of the row with key `k` and identifier `id`. -/
def Snapshot (t : Table I K C E) (k : K) (id : I) (log : List E) : Prop :=
  ∃ r, t.lookup k = some r ∧ r.id = id ∧ log <+: r.events

omit [DecidableEq I] in
theorem Snapshot.extends {log : List E} (h : t.Snapshot k id log) (he : t.Extends t') :
    t'.Snapshot k id log := by
  obtain ⟨r, hr, hid, hp⟩ := h
  obtain ⟨r', hr', hid', -, hp'⟩ := he k r hr
  exact ⟨r', hr', hid'.trans hid, hp.trans hp'⟩

/-- An append that succeeds through a snapshot found the snapshot's own log. -/
theorem append_snapshot {log new : List E} {state : String}
    (h : t.append id log.length state new = .ok t') (hs : t.Snapshot k id log) :
    ∃ r, t.lookup k = some r ∧ r.id = id ∧ r.events = log ∧
      ∀ k', t'.lookup k' = if k' = k then some (r.grow state new) else t.lookup k' := by
  obtain ⟨r, hid, hn, hr, hl⟩ := append_spec h
  obtain ⟨x, hx, hxid, hp⟩ := hs
  obtain rfl := lookup_unique hr hx (hid.trans hxid.symm)
  have hk : r.key = k := lookup_key hx
  exact ⟨r, hx, hid, (hp.eq_of_length hn.symm).symm, fun k' => by rw [hl, hk]⟩

end Table

end LightningGateway.EventTables
