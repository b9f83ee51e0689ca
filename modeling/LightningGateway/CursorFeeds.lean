import Mathlib.Data.List.Sort
import Mathlib.Data.List.Forall2

/-!
# Cursors over a growing table

A reader follows a table whose rows carry distinct keys. It keeps one cursor, reads
pages of rows above the cursor in key order, and between two readings it is fed by
a queue of messages, each of which announces the key of a new row or asks for a new
reading. Since a single cursor cannot remember a row that it jumped over, what
matters is whether the queue reaches a row before it reaches anything larger;
`Covers` says that it does.
-/
namespace LightningGateway.CursorFeeds

universe u v w
variable {α : Type u} {κ : Type v} {μ : Type w} [LinearOrder κ]

/-! ### Pages -/

/-- The first `limit` rows above the cursor, in key order. -/
def page (key : α → κ) (limit : ℕ) (rows : List α) (cursor : κ) : List α :=
  ((rows.filter fun r => cursor < key r).insertionSort fun a b => key a ≤ key b).take limit

variable {key : α → κ} {limit : ℕ} {rows : List α} {cursor : κ} {r : α}

theorem page_eq_nil (hl : 0 < limit) (h : page key limit rows cursor = []) (hr : r ∈ rows) :
    key r ≤ cursor := by
  have hlen := congrArg List.length h
  rw [page, List.length_take, List.length_insertionSort, List.length_nil] at hlen
  have hnil : rows.filter (fun r => cursor < key r) = [] := List.length_eq_zero_iff.mp (by omega)
  have hno := List.filter_eq_nil_iff.mp hnil r hr
  exact not_lt.mp fun hlt => hno (decide_eq_true hlt)

theorem mem_page (hr : r ∈ page key limit rows cursor) : r ∈ rows ∧ cursor < key r := by
  obtain ⟨hr, hc⟩ := List.mem_filter.mp (List.mem_insertionSort _ |>.mp (List.mem_of_mem_take hr))
  exact ⟨hr, of_decide_eq_true hc⟩

/-- Sorted rows with distinct keys have increasing keys. -/
theorem insertionSort_pairwise (hs : rows.Pairwise fun a b => key a ≠ key b) :
    (rows.insertionSort fun a b => key a ≤ key b).Pairwise fun a b => key a < key b := by
  have : Std.Total fun a b => key a ≤ key b := ⟨fun a b => le_total (key a) (key b)⟩
  have : IsTrans α fun a b => key a ≤ key b := ⟨fun _ _ _ => le_trans⟩
  have hle := List.pairwise_insertionSort (fun a b => key a ≤ key b) rows
  have hne := (List.perm_insertionSort (fun a b => key a ≤ key b) rows).pairwise_iff
    (R := fun a b => key a ≠ key b) (fun h => h.symm) |>.mpr hs
  exact (hle.and hne).imp fun h => lt_of_le_of_ne h.1 h.2

theorem page_pairwise (hs : rows.Pairwise fun a b => key a ≠ key b) :
    (page key limit rows cursor).Pairwise fun a b => key a < key b :=
  (insertionSort_pairwise (hs.filter _)).take

/-- A row above the cursor is on the page or above all of it. -/
theorem page_complete (hs : rows.Pairwise fun a b => key a ≠ key b) (hr : r ∈ rows)
    (hc : cursor < key r) :
    r ∈ page key limit rows cursor ∨ ∀ x ∈ page key limit rows cursor, key x < key r := by
  have hp := insertionSort_pairwise (hs.filter fun r => cursor < key r)
  have hmem : r ∈ (rows.filter fun r => cursor < key r).insertionSort fun a b => key a ≤ key b :=
    (List.mem_insertionSort _).mpr (List.mem_filter.mpr ⟨hr, decide_eq_true hc⟩)
  rw [← List.take_append_drop limit (List.insertionSort _ _)] at hmem hp
  rcases List.mem_append.mp hmem with hmem | hmem
  · exact .inl hmem
  · exact .inr fun x hx => (List.pairwise_append.mp hp).2.2 x hx r hmem

/-- In a sorted list, what holds of every element and a later one holds of any two in
the order of their keys. -/
theorem rel_of_key_lt {R : α → α → Prop} (hs : rows.Pairwise fun a b => key a < key b)
    (hR : rows.Pairwise R) {a b : α} (ha : a ∈ rows) (hb : b ∈ rows) (h : key a < key b) :
    R a b := by
  obtain ⟨i, hi, rfl⟩ := List.getElem_of_mem ha
  obtain ⟨j, hj, rfl⟩ := List.getElem_of_mem hb
  have hij : i < j := by
    by_contra hno
    rcases (not_lt.mp hno).eq_or_lt with heq | hlt
    · subst heq
      exact lt_irrefl _ h
    · exact lt_asymm h (List.pairwise_iff_getElem.mp hs j i hj hi hlt)
  exact List.pairwise_iff_getElem.mp hR i j hi hj hij

/-! ### Two tables -/

section
universe x
variable {β : Type x} {R : α → β → Prop} {key' : β → κ} {rows' : List β} {b : β}

theorem orderedInsert_related (hkey : ∀ a b, R a b → key a = key' b) (hr : R r b)
    (h : List.Forall₂ R rows rows') :
    List.Forall₂ R (rows.orderedInsert (fun a b => key a ≤ key b) r)
      (rows'.orderedInsert (fun a b => key' a ≤ key' b) b) := by
  induction h with
  | nil => exact .cons hr .nil
  | cons hfirst hrest ih =>
      rw [List.orderedInsert_cons, List.orderedInsert_cons, hkey _ _ hr, hkey _ _ hfirst]
      split_ifs
      · exact .cons hr (.cons hfirst hrest)
      · exact .cons hfirst ih

theorem insertionSort_related (hkey : ∀ a b, R a b → key a = key' b)
    (h : List.Forall₂ R rows rows') :
    List.Forall₂ R (rows.insertionSort fun a b => key a ≤ key b)
      (rows'.insertionSort fun a b => key' a ≤ key' b) := by
  induction h with
  | nil => exact .nil
  | cons hfirst _ ih => exact orderedInsert_related hkey hfirst ih

/-- Tables that are related row by row, with the same keys, have related pages. -/
theorem page_related (hkey : ∀ a b, R a b → key a = key' b) (h : List.Forall₂ R rows rows') :
    List.Forall₂ R (page key limit rows cursor) (page key' limit rows' cursor) := by
  have hfilter : List.Forall₂ R (rows.filter fun r => cursor < key r)
      (rows'.filter fun r => cursor < key' r) :=
    List.rel_filter (fun a b hab => by simp only [hkey a b hab]) h
  exact List.forall₂_take limit (insertionSort_related hkey hfilter)

end

/-! ### Queues -/

/-- Reading the queue from its head, row `t` is announced, or a new reading is asked
for, before anything above `t` is announced. -/
def Covers (announces : μ → Option κ) (t : κ) : List μ → Prop
  | [] => False
  | m :: q =>
      match announces m with
      | none => True
      | some k => k = t ∨ (k < t ∧ Covers announces t q)

variable {announces : μ → Option κ} {t k : κ} {m : μ} {q q' : List μ}

theorem covers_cons_none (hm : announces m = none) : Covers announces t (m :: q) := by
  simp only [Covers, hm]

theorem covers_cons_some (hm : announces m = some k) :
    Covers announces t (m :: q) ↔ k = t ∨ (k < t ∧ Covers announces t q) := by
  simp only [Covers, hm]

/-- What an announcement of another row leaves covered. -/
theorem Covers.tail (h : Covers announces t (m :: q)) (hm : announces m = some k) (hk : k ≠ t) :
    k < t ∧ Covers announces t q :=
  ((covers_cons_some hm).mp h).resolve_left hk

theorem Covers.append (h : Covers announces t q) (q' : List μ) :
    Covers announces t (q ++ q') := by
  induction q with
  | nil => exact h.elim
  | cons m q ih =>
      cases hm : announces m with
      | none => exact covers_cons_none hm
      | some k =>
          refine (covers_cons_some hm).mpr ?_
          exact ((covers_cons_some hm).mp h).imp_right fun ⟨hk, hq⟩ => ⟨hk, ih hq⟩

/-- A queue may be cut off where a new reading is asked for. -/
theorem Covers.cut (h : Covers announces t (q ++ q')) (hm : announces m = none) :
    Covers announces t (q ++ [m]) := by
  induction q with
  | nil => exact covers_cons_none hm
  | cons x q ih =>
      cases hx : announces x with
      | none => exact covers_cons_none hx
      | some k =>
          refine (covers_cons_some hx).mpr ?_
          exact ((covers_cons_some hx).mp h).imp_right fun ⟨hk, hq⟩ => ⟨hk, ih hq⟩

/-- A queue that has announced smaller rows only covers `t` as soon as it holds a
message that does. -/
theorem covers_of_mem (hq : ∀ x ∈ q, ∀ k, announces x = some k → k ≤ t) (hm : m ∈ q)
    (hs : announces m = none ∨ announces m = some t) : Covers announces t q := by
  induction q with
  | nil => cases hm
  | cons x q ih =>
      cases hx : announces x with
      | none => exact covers_cons_none hx
      | some k =>
          refine (covers_cons_some hx).mpr ?_
          rcases (hq x List.mem_cons_self k hx).eq_or_lt with hk | hk
          · exact .inl hk
          · refine .inr ⟨hk, ih (fun y hy => hq y (List.mem_cons_of_mem _ hy)) ?_⟩
            rcases List.mem_cons.mp hm with rfl | hm
            · rcases hs with hs | hs
              · cases hx.symm.trans hs
              · cases hx.symm.trans hs
                exact absurd hk (lt_irrefl _)
            · exact hm

end LightningGateway.CursorFeeds
