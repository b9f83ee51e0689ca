import LightningGateway.EventTables
import LightningGateway.SoloRuns
import Mathlib.Data.List.Count
import Mathlib.Tactic.Ring

/-!
# Capped scans of a table

A scan selects the rows that satisfy a predicate, in table order and up to a cap, and
tries every one of them. A row that a try leaves as it was is selected again by the next
scan, ahead of the rows that the cap has shut out. Scans in a row reach the whole backlog
exactly when the slots they spend on such rows are slots they have to spare.
-/
namespace LightningGateway.CappedScans
open EventTables EffectPrograms TaskPools SoloRuns

section
variable {α : Type} (n : ℕ) (stuck : α → Bool)

/-- What a scan of the first `n` elements leaves of a backlog. -/
def advance (xs : List α) : List α := (xs.take n).filter stuck ++ xs.drop n

/-- What `t` scans in a row look at. -/
def visited : ℕ → List α → List α
  | 0, _ => []
  | t + 1, xs => xs.take n ++ visited t (advance n stuck xs)

/-- The slots that `t` scans spend on elements looked at before, if `kept` of those stand
in front of the backlog. -/
def revisits : ℕ → ℕ → List α → ℕ
  | 0, _, _ => 0
  | t + 1, kept, xs =>
      min n kept + revisits t (kept + (xs.take (n - kept)).countP stuck) (xs.drop (n - kept))

variable {n stuck} {xs old : List α} {t : ℕ}

theorem advance_sublist : (advance n stuck xs).Sublist xs := by
  have h : ((xs.take n).filter stuck ++ xs.drop n).Sublist (xs.take n ++ xs.drop n) :=
    List.filter_sublist.append (List.Sublist.refl _)
  rwa [List.take_append_drop] at h

theorem revisits_le (kept : ℕ) : revisits n stuck t kept xs ≤ n * t := by
  induction t generalizing kept xs with
  | zero => exact Nat.le_refl 0
  | succ t ih =>
      have hrest : revisits n stuck t (kept + (xs.take (n - kept)).countP stuck)
          (xs.drop (n - kept)) ≤ n * t := ih _
      have hone : min n kept ≤ n := Nat.min_le_left n kept
      rw [Nat.mul_succ]
      unfold revisits
      omega

theorem filter_taken [DecidableEq α] (hnodup : xs.Nodup) :
    (xs.filter fun x => !decide (x ∈ xs.take n) || stuck x) = advance n stuck xs := by
  have hdisjoint : ∀ x ∈ xs.drop n, x ∉ xs.take n := by
    rw [← List.take_append_drop n xs] at hnodup
    exact fun x hx hm => List.disjoint_of_nodup_append hnodup hm hx
  unfold advance
  conv_lhs => enter [2]; rw [← List.take_append_drop n xs]
  rw [List.filter_append]
  congr 1
  · refine List.filter_congr fun x hx => ?_
    simp [hx]
  · refine List.filter_eq_self.mpr fun x hx => ?_
    simp [hdisjoint x hx]

/-- Elements that are stuck stay in front, joined by those that a scan has found stuck. -/
theorem advance_append (hold : ∀ x ∈ old, stuck x = true) :
    advance n stuck (old ++ xs) =
      (old ++ (xs.take (n - old.length)).filter stuck) ++ xs.drop (n - old.length) := by
  have htake : (old.take n).filter stuck = old.take n :=
    List.filter_eq_self.mpr fun x hx => hold x (List.mem_of_mem_take hx)
  unfold advance
  rw [List.take_append, List.drop_append, List.filter_append, htake]
  rcases Nat.le_total old.length n with hle | hle
  · rw [List.take_of_length_le hle, List.drop_of_length_le hle, List.nil_append]
  · have hzero : n - old.length = 0 := Nat.sub_eq_zero_of_le hle
    rw [hzero, List.take_zero, List.filter_nil, List.drop_zero, List.append_nil, List.append_nil,
      ← List.append_assoc, List.take_append_drop]

/-- A full cap of stuck elements lets nothing else through. -/
theorem visited_of_stuck (h : ∀ x ∈ xs.take n, stuck x = true) {x : α}
    (hx : x ∈ visited n stuck t xs) : x ∈ xs.take n := by
  have hadvance : advance n stuck xs = xs := by
    unfold advance
    rw [List.filter_eq_self.mpr h, List.take_append_drop]
  induction t with
  | zero => cases hx
  | succ t ih =>
      rcases List.mem_append.mp hx with hx | hx
      · exact hx
      · rw [hadvance] at hx
        exact ih hx

/-- Scans in a row look at everything behind the stuck elements exactly when their slots
suffice for it and for what they look at again. -/
theorem visited_all_iff (hold : ∀ x ∈ old, stuck x = true) (hnodup : (old ++ xs).Nodup) :
    (∀ x ∈ xs, x ∈ visited n stuck t (old ++ xs)) ↔
      xs.length + revisits n stuck t old.length xs ≤ n * t := by
  induction t generalizing old xs with
  | zero =>
      have hnil : (∀ x ∈ xs, x ∈ visited n stuck 0 (old ++ xs)) ↔ xs = [] := by
        rw [List.eq_nil_iff_forall_not_mem]
        exact forall₂_congr fun x _ => List.mem_nil_iff x
      rw [hnil]
      simp [revisits]
  | succ t ih =>
      -- One scan moves the boundary between the stuck elements and the rest.
      let fresh := xs.take (n - old.length)
      let rest := xs.drop (n - old.length)
      let old' := old ++ fresh.filter stuck
      have hsplit : fresh ++ rest = xs := List.take_append_drop _ _
      have hadvance : advance n stuck (old ++ xs) = old' ++ rest := advance_append hold
      have hold' : ∀ x ∈ old', stuck x = true := by
        intro x hx
        rcases List.mem_append.mp hx with hx | hx
        · exact hold x hx
        · exact (List.mem_filter.mp hx).2
      have hnodup' : (old' ++ rest).Nodup := hadvance ▸ hnodup.sublist advance_sublist
      have hlen : old'.length = old.length + fresh.countP stuck := by
        rw [List.length_append, List.countP_eq_length_filter]
      have hscan : (old ++ xs).take n = old.take n ++ fresh := List.take_append
      have hrest : (∀ x ∈ xs, x ∈ visited n stuck (t + 1) (old ++ xs)) ↔
          ∀ x ∈ rest, x ∈ visited n stuck t (old' ++ rest) := by
        have hvisited : visited n stuck (t + 1) (old ++ xs) =
            (old.take n ++ fresh) ++ visited n stuck t (old' ++ rest) := by
          rw [← hadvance, ← hscan]
          rfl
        rw [hvisited]
        constructor
        · intro h x hx
          have hxs : x ∈ xs := List.mem_of_mem_drop hx
          rcases List.mem_append.mp (h x hxs) with hnow | hlater
          · -- What this scan has looked at is not among the rest.
            have hdisjoint : (((old ++ xs).take n) ++ (old ++ xs).drop n).Nodup := by
              rw [List.take_append_drop]
              exact hnodup
            have hdrop : x ∈ (old ++ xs).drop n := by
              rw [List.drop_append]
              exact List.mem_append_right _ hx
            rw [← hscan] at hnow
            exact absurd hdrop (List.disjoint_of_nodup_append hdisjoint hnow)
          · exact hlater
        · intro h x hx
          rw [← hsplit] at hx
          rcases List.mem_append.mp hx with hx | hx
          · exact List.mem_append_left _ (List.mem_append_right _ hx)
          · exact List.mem_append_right _ (h x hx)
      have hbound : revisits n stuck t old'.length rest ≤ n * t := revisits_le _
      have hlength : rest.length = xs.length - (n - old.length) := List.length_drop
      have hrevisits : revisits n stuck (t + 1) old.length xs =
          min n old.length + revisits n stuck t old'.length rest := by
        rw [hlen]
        rfl
      rw [hrest, ih hold' hnodup', hrevisits, Nat.mul_succ]
      omega

end

/-! ### Scans of a table -/

section
variable {I K C E : Type} [DecidableEq K]

/-- The keys of the rows that satisfy `P`, in table order. -/
def select (P : Row I K C E → Bool) (t : Table I K C E) : List K := (t.rows.filter P).map Row.key

variable {P : Row I K C E → Bool} {Done : Row I K C E → Prop} {stuck : K → Bool}
variable {t t' t'' : Table I K C E} {k : K} {ks : List K} {n : ℕ}

omit [DecidableEq K] in
theorem select_nodup (P : Row I K C E → Bool) (t : Table I K C E) : (select P t).Nodup :=
  t.keys.sublist (List.filter_sublist.map _)

theorem mem_select : k ∈ select P t ↔ ∃ r, t.lookup k = some r ∧ P r = true := by
  constructor
  · intro h
    obtain ⟨r, hr, rfl⟩ := List.mem_map.mp h
    obtain ⟨hmem, hP⟩ := List.mem_filter.mp hr
    exact ⟨r, Table.lookup_of_mem hmem, hP⟩
  · rintro ⟨r, hr, hP⟩
    exact List.mem_map.mpr ⟨r, List.mem_filter.mpr ⟨Table.lookup_mem hr, hP⟩, Table.lookup_key hr⟩

/-- A selection can be read off the order of the keys and the rows behind them. -/
theorem select_eq (P : Row I K C E → Bool) (t : Table I K C E) :
    select P t = (t.rows.map Row.key).filter fun k => (t.lookup k).any P := by
  unfold select
  rw [List.filter_map]
  congr 1
  refine List.filter_congr fun r hr => ?_
  rw [Function.comp_apply, Table.lookup_of_mem hr]
  rfl

/-- Every key of `ks` has been tried: a row that is stuck is as it was, any other is done,
and the table has kept its order. -/
structure Tried (Done : Row I K C E → Prop) (stuck : K → Bool) (ks : List K)
    (t t' : Table I K C E) : Prop where
  order : t'.rows.map Row.key = t.rows.map Row.key
  kept : ∀ k, k ∉ ks ∨ stuck k = true → t'.lookup k = t.lookup k
  done : ∀ k ∈ ks, stuck k = false → ∃ r, t'.lookup k = some r ∧ Done r

theorem Tried.nil : Tried Done stuck [] t t :=
  ⟨rfl, fun _ _ => rfl, fun k hk => by cases hk⟩

/-- A try that leaves a stuck row alone. -/
theorem Tried.left (h : stuck k = true) : Tried Done stuck [k] t t := by
  constructor
  · rfl
  · exact fun _ _ => rfl
  · intro j hj hstuck
    obtain rfl := List.mem_singleton.mp hj
    rw [h] at hstuck
    cases hstuck

/-- A try that is done with a row and touches no other. -/
theorem Tried.write {r : Row I K C E} (hstuck : stuck k = false)
    (horder : t'.rows.map Row.key = t.rows.map Row.key)
    (hw : ∀ j, t'.lookup j = if j = k then some r else t.lookup j) (hdone : Done r) :
    Tried Done stuck [k] t t' := by
  constructor
  · exact horder
  · intro j hj
    have hne : j ≠ k := by
      rintro rfl
      rcases hj with hj | hj
      · exact hj List.mem_cons_self
      · rw [hstuck] at hj
        cases hj
    rw [hw, if_neg hne]
  · intro j hj _
    obtain rfl := List.mem_singleton.mp hj
    exact ⟨r, by rw [hw, if_pos rfl], hdone⟩

/-- One key after the other. -/
theorem Tried.cons (hone : Tried Done stuck [k] t t') (hrest : Tried Done stuck ks t' t'')
    (hk : k ∉ ks) : Tried Done stuck (k :: ks) t t'' := by
  constructor
  · rw [hrest.order, hone.order]
  · intro j hj
    have hj₁ : j ∉ [k] ∨ stuck j = true := hj.imp_left fun h hm =>
      h (List.mem_singleton.mp hm ▸ List.mem_cons_self)
    have hj₂ : j ∉ ks ∨ stuck j = true := hj.imp_left fun h hm => h (List.mem_cons_of_mem _ hm)
    rw [hrest.kept j hj₂, hone.kept j hj₁]
  · intro j hj hstuck
    rcases List.mem_cons.mp hj with rfl | hj
    · rw [hrest.kept j (.inl hk)]
      exact hone.done j List.mem_cons_self hstuck
    · exact hrest.done j hj hstuck

/-- A row that is selected after the keys were tried was selected before, as it is. -/
theorem Tried.lookup (h : Tried Done stuck ks t t') (hdone : ∀ r, Done r → P r = false)
    {r : Row I K C E} (hr : t'.lookup k = some r) (hP : P r = true) : t.lookup k = some r := by
  by_cases hkept : k ∉ ks ∨ stuck k = true
  · rwa [← h.kept k hkept]
  · obtain ⟨hmem, hstuck⟩ := not_or.mp hkept
    obtain ⟨r', hr', hd⟩ := h.done k (not_not.mp hmem) (Bool.eq_false_iff.mpr hstuck)
    cases hr.symm.trans hr'
    rw [hdone r hd] at hP
    cases hP

theorem select_filter {q : K → Bool} (horder : t'.rows.map Row.key = t.rows.map Row.key)
    (hrow : ∀ k, (t'.lookup k).any P = (q k && (t.lookup k).any P)) :
    select P t' = (select P t).filter q :=
  calc
    select P t' = (t'.rows.map Row.key).filter fun k => (t'.lookup k).any P := select_eq P t'
    _ = (t.rows.map Row.key).filter fun k => q k && (t.lookup k).any P := by
      rw [horder]
      exact List.filter_congr fun k _ => hrow k
    _ = ((t.rows.map Row.key).filter fun k => (t.lookup k).any P).filter q :=
      (List.filter_filter ..).symm
    _ = (select P t).filter q := by rw [← select_eq]

/-- Trying what the cap admits leaves the stuck rows in front of those it has shut out. -/
theorem Tried.advances (h : Tried Done stuck ((select P t).take n) t t')
    (hdone : ∀ r, Done r → P r = false) : select P t' = advance n stuck (select P t) := by
  rw [← filter_taken (select_nodup P t)]
  refine select_filter h.order fun k => ?_
  by_cases hkept : k ∉ (select P t).take n ∨ stuck k = true
  · rw [h.kept k hkept]
    rcases hkept with hmem | hstuck <;> simp [*]
  · obtain ⟨hmem, hstuck⟩ := not_or.mp hkept
    rw [Bool.not_eq_true] at hstuck
    obtain ⟨r, hr, hd⟩ := h.done k (not_not.mp hmem) hstuck
    rw [hr, Option.any_some, hdone r hd, hstuck]
    simp [not_not.mp hmem]

variable {L : Type} {looks : L → List K} {ls : List L}

/-- Scans in a row. Each of them tries what it selects, and `looks` records it. -/
inductive Scans (P : Row I K C E → Bool) (Done : Row I K C E → Prop) (stuck : K → Bool) (n : ℕ)
    (looks : L → List K) : Table I K C E → List L → Table I K C E → Prop where
  | nil {t : Table I K C E} : Scans P Done stuck n looks t [] t
  | cons {t t' t'' : Table I K C E} {l : L} {ls : List L} :
      looks l = (select P t).take n → Tried Done stuck ((select P t).take n) t t' →
      Scans P Done stuck n looks t' ls t'' → Scans P Done stuck n looks t (l :: ls) t''

theorem Scans.mem_looks (h : Scans P Done stuck n looks t ls t') (hdone : ∀ r, Done r → P r = false) :
    (∃ l ∈ ls, k ∈ looks l) ↔ k ∈ visited n stuck ls.length (select P t) := by
  induction h with
  | nil => simp [visited]
  | @cons t t₁ t₂ l ls hlooks htried _ ih =>
      rw [htried.advances hdone] at ih
      simp only [List.mem_cons, exists_eq_or_imp, hlooks, ih, List.length_cons, visited,
        List.mem_append]

/-- The scans look at the whole selection exactly when their slots suffice for it and for
what they look at again. -/
theorem Scans.reach_iff (h : Scans P Done stuck n looks t ls t')
    (hdone : ∀ r, Done r → P r = false) :
    (∀ k ∈ select P t, ∃ l ∈ ls, k ∈ looks l) ↔
      (select P t).length + revisits n stuck ls.length 0 (select P t) ≤ n * ls.length := by
  have hall : (∀ k ∈ select P t, k ∈ visited n stuck ls.length ([] ++ select P t)) ↔
      (select P t).length + revisits n stuck ls.length ([] : List K).length (select P t) ≤
        n * ls.length :=
    visited_all_iff (fun _ hx => by cases hx) (select_nodup P t)
  rw [List.nil_append, List.length_nil] at hall
  rw [← hall]
  exact forall₂_congr fun k _ => h.mem_looks hdone

/-- A row that is not selected stays as it is. -/
theorem Scans.unselected (h : Scans P Done stuck n looks t ls t') {r : Row I K C E}
    (hr : t.lookup k = some r) (hP : P r = false) :
    t'.lookup k = some r := by
  induction h with
  | nil => exact hr
  | @cons t t₁ t₂ l ls _ htried _ ih =>
      have hout : k ∉ (select P t).take n := by
        intro hk
        obtain ⟨r', hr', hP'⟩ := mem_select.mp (List.mem_of_mem_take hk)
        cases hr.symm.trans hr'
        rw [hP] at hP'
        cases hP'
      exact ih (by rw [htried.kept k (.inl hout), hr])

/-- A row that was looked at is done, unless it is stuck. -/
theorem Scans.done (h : Scans P Done stuck n looks t ls t') (hdone : ∀ r, Done r → P r = false)
    {l : L} (hl : l ∈ ls) (hk : k ∈ looks l) (hstuck : stuck k = false) :
    ∃ r, t'.lookup k = some r ∧ Done r := by
  induction h with
  | nil => cases hl
  | @cons t t₁ t₂ l' ls hlooks htried hrest ih =>
      rcases List.mem_cons.mp hl with rfl | hl
      · rw [hlooks] at hk
        obtain ⟨r, hr, hd⟩ := htried.done k hk hstuck
        exact ⟨r, hrest.unselected hr (hdone r hd), hd⟩
      · exact ih hl

/-- Rounds of a program that each try what they select are scans in a row. `J` is what the
program needs of the world it starts in. -/
theorem scans_of_rounds {S : Signature} {M : Machine S} {A : Answering S} {x : A.Memory} {α : Type}
    {program : M.World → Program S α} {admits : M.World → List (Call S) → Bool}
    {looks : List (Call S) → List K} {view : M.World → Table I K C E} {J : M.World → Prop}
    {w w' : M.World} {rounds : List (List (Call S))}
    (hround : ∀ w, J w → Alone M A w x (program w) fun calls _ w' => admits w calls = true →
      looks calls = (select P (view w)).take n ∧
        Tried Done stuck ((select P (view w)).take n) (view w) (view w') ∧ J w')
    (h : Rounds M A x program admits w rounds w') (hJ : J w) :
    Scans P Done stuck n looks (view w) rounds (view w') := by
  induction h with
  | nil => exact .nil
  | @cons w w₁ w₂ calls rounds a ht hs hf hadmits _ ih =>
      obtain ⟨hlooks, htried, hJ₁⟩ := hround w hJ calls a w₁ ht hs hf hadmits
      exact .cons hlooks htried (ih hJ₁)

end

end LightningGateway.CappedScans
