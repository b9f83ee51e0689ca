import Mathlib.Data.List.AList
import Mathlib.Order.Basic

/-!
# A cache whose entries expire

Entries carry the instant at which they were stored, and a look-up shows an entry only
while it is fresh. Expiry is lazy: a sweep may drop what has expired, at any time or
never. Freshness only wanes, so on a clock that does not go back no later look-up can
tell whether a sweep took place.
-/
namespace LightningGateway.ExpiringCache

universe u v w
variable {κ : Type u} {α : Type v} {τ : Type w}

/-- For each key a value and the instant at which it was stored. -/
abbrev Cache (κ : Type u) (α : Type v) (τ : Type w) := AList fun _ : κ => α × τ

variable [DecidableEq κ] {fresh : τ → τ → Bool} {c c' : Cache κ α τ} {k l : κ} {v : α}
variable {now stamp : τ} {seen : κ → τ}

/-- The value of the key, if its entry is fresh at `now`. -/
def find (fresh : τ → τ → Bool) (c : Cache κ α τ) (k : κ) (now : τ) : Option α :=
  (c.lookup k).bind fun e => if fresh e.2 now then some e.1 else none

/-- Drop what has expired; the clock is read anew for every entry. -/
def retain (fresh : τ → τ → Bool) (c : Cache κ α τ) (seen : κ → τ) : Cache κ α τ :=
  ⟨c.entries.filter fun e => fresh e.2.2 (seen e.1), c.nodupKeys.sublist List.filter_sublist⟩

theorem find_eq_some : find fresh c k now = some v ↔
    ∃ stamp, c.lookup k = some (v, stamp) ∧ fresh stamp now = true := by
  unfold find
  rw [Option.bind_eq_some_iff]
  constructor
  · rintro ⟨⟨v', stamp⟩, hlook, hv⟩
    dsimp only at hv
    split_ifs at hv with hfresh
    cases hv
    exact ⟨stamp, hlook, hfresh⟩
  · rintro ⟨stamp, hlook, hfresh⟩
    exact ⟨(v, stamp), hlook, if_pos hfresh⟩

theorem lookup_retain_eq_some {e : α × τ} : (retain fresh c seen).lookup k = some e ↔
    c.lookup k = some e ∧ fresh e.2 (seen k) = true := by
  rw [← Option.mem_def, AList.mem_lookup_iff, retain, List.mem_filter, ← AList.mem_lookup_iff,
    Option.mem_def]

theorem find_insert_self :
    find fresh (c.insert k (v, stamp)) k now = if fresh stamp now then some v else none := by
  rw [find, AList.lookup_insert]
  rfl

theorem find_insert_other (h : l ≠ k) :
    find fresh (c.insert k (v, stamp)) l now = find fresh c l now := by
  rw [find, AList.lookup_insert_ne h]
  rfl

variable [Preorder τ]

/-- Once expired, an entry stays expired. -/
def Wanes (fresh : τ → τ → Bool) : Prop :=
  ∀ stamp now later, now ≤ later → fresh stamp later = true → fresh stamp now = true

/-- A sweep drops nothing that a later look-up would show. -/
theorem find_retain (hwanes : Wanes fresh) (h : seen k ≤ now) :
    find fresh (retain fresh c seen) k now = find fresh c k now := by
  ext v
  rw [find_eq_some, find_eq_some]
  constructor
  · rintro ⟨stamp, hlook, hfresh⟩
    exact ⟨stamp, (lookup_retain_eq_some.mp hlook).1, hfresh⟩
  · rintro ⟨stamp, hlook, hfresh⟩
    exact ⟨stamp, lookup_retain_eq_some.mpr ⟨hlook, hwanes _ _ _ h hfresh⟩, hfresh⟩

/-! ### Caches no look-up can tell apart -/

/-- From `now` on, both show the same for the keys in `keys`. -/
def Agree (fresh : τ → τ → Bool) (keys : κ → Bool) (now : τ) (c c' : Cache κ α τ) : Prop :=
  ∀ k t, keys k = true → now ≤ t → find fresh c k t = find fresh c' k t

variable {keys : κ → Bool} {later : τ}

theorem Agree.mono (h : Agree fresh keys now c c') (hle : now ≤ later) :
    Agree fresh keys later c c' :=
  fun k t hk ht => h k t hk (hle.trans ht)

theorem Agree.retain_left (h : Agree fresh keys now c c') (hwanes : Wanes fresh)
    (hseen : ∀ k, seen k ≤ now) : Agree fresh keys now (retain fresh c seen) c' :=
  fun k t hk ht => (find_retain hwanes ((hseen k).trans ht)).trans (h k t hk ht)

theorem Agree.symm (h : Agree fresh keys now c c') : Agree fresh keys now c' c :=
  fun k t hk ht => (h k t hk ht).symm

theorem Agree.retain_right (h : Agree fresh keys now c c') (hwanes : Wanes fresh)
    (hseen : ∀ k, seen k ≤ now) : Agree fresh keys now c (retain fresh c' seen) :=
  (h.symm.retain_left hwanes hseen).symm

theorem Agree.insert_both (h : Agree fresh keys now c c') :
    Agree fresh keys now (c.insert l (v, stamp)) (c'.insert l (v, stamp)) := by
  intro k t hk ht
  by_cases hkl : k = l
  · rw [hkl, find_insert_self, find_insert_self]
  · rw [find_insert_other hkl, find_insert_other hkl]
    exact h k t hk ht

/-- What is stored under a key outside `keys` cannot be told there. -/
theorem Agree.insert_left (h : Agree fresh keys now c c') (hl : keys l = false) :
    Agree fresh keys now (c.insert l (v, stamp)) c' := by
  intro k t hk ht
  have hkl : k ≠ l := by
    rintro rfl
    rw [hl] at hk
    cases hk
  rw [find_insert_other hkl]
  exact h k t hk ht

end LightningGateway.ExpiringCache
