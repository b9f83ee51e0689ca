import LightningGateway.OutboxRows
import Mathlib.Data.List.Forall2
import Mathlib.Data.List.Nodup

/-!
# Codecs into JSON that survive a store

A binary JSON column keeps the members of an object in an order of its own. `Same` relates a
document to what such a column may return, at every depth. A codec is stable when it reads
its own documents back whatever the column made of them; stability passes from the parts of
a codec to lists, optional values and the members of an object.
-/
namespace LightningGateway.JsonCodecs
open OutboxRows (Json)

/-- Equal up to the order of members. -/
inductive Same : Json → Json → Prop
  | same (j : Json) : Same j j
  | arr {xs ys : List Json} : List.Forall₂ Same xs ys → Same (.arr xs) (.arr ys)
  | obj {xs ys zs : List (String × Json)} : xs.map Prod.fst = ys.map Prod.fst →
      List.Forall₂ Same (xs.map Prod.snd) (ys.map Prod.snd) → ys.Perm zs →
      Same (.obj xs) (.obj zs)

theorem Same.str {s : String} {j : Json} (h : Same (.str s) j) : j = .str s := by
  cases h
  rfl

theorem Same.num {n : ℤ} {j : Json} (h : Same (.num n) j) : j = .num n := by
  cases h
  rfl

theorem Same.null {j : Json} (h : Same j .null) : j = .null := by
  cases h
  rfl

/-- The value of a key, in a list of members. -/
def value (members : List (String × Json)) (key : String) : Option Json :=
  (members.find? fun m => m.1 = key).map (·.2)

theorem value_same {xs ys : List (String × Json)} (hkeys : xs.map Prod.fst = ys.map Prod.fst)
    (hvalues : List.Forall₂ Same (xs.map Prod.snd) (ys.map Prod.snd)) {key : String} {v : Json}
    (hv : value xs key = some v) : ∃ v', value ys key = some v' ∧ Same v v' := by
  induction xs generalizing ys with
  | nil => cases hv
  | cons x xs ih =>
      cases ys with
      | nil => cases hkeys
      | cons y ys =>
          rw [List.map_cons, List.map_cons] at hkeys hvalues
          obtain ⟨hkey, hkeys⟩ := List.cons.inj hkeys
          obtain ⟨hfirst, hvalues⟩ := List.forall₂_cons.mp hvalues
          unfold value at hv ⊢
          rw [List.find?_cons] at hv ⊢
          rw [← hkey]
          by_cases hx : x.1 = key
          · simp only [hx, decide_true, Option.map_some, Option.some.injEq] at hv ⊢
            exact ⟨y.2, rfl, hv ▸ hfirst⟩
          · simp only [hx, decide_false] at hv ⊢
            exact ih hkeys hvalues hv

/-- With distinct keys, the order of the members does not matter. -/
theorem value_perm {xs ys : List (String × Json)} (hperm : xs.Perm ys)
    (hdistinct : (xs.map Prod.fst).Nodup) (key : String) : value ys key = value xs key := by
  induction hperm with
  | nil => rfl
  | cons x _ ih =>
      unfold value at ih ⊢
      rw [List.find?_cons, List.find?_cons]
      by_cases hx : x.1 = key
      · simp only [hx, decide_true]
      · simp only [hx, decide_false]
        exact ih (List.nodup_cons.mp hdistinct).2
  | swap x y l =>
      unfold value
      simp only [List.find?_cons]
      by_cases hx : x.1 = key
      · by_cases hy : y.1 = key
        · rw [List.map_cons, List.map_cons, hx, hy] at hdistinct
          exact absurd List.mem_cons_self (List.nodup_cons.mp hdistinct).1
        · simp only [hx, hy, decide_true, decide_false]
      · by_cases hy : y.1 = key
        · simp only [hx, hy, decide_true, decide_false]
        · simp only [hx, hy, decide_false]
  | trans h₁ _ ih₁ ih₂ => rw [ih₂ ((h₁.map _).nodup_iff.mp hdistinct), ih₁ hdistinct]

/-- What a store returns for an object with distinct keys. -/
structure Document (members : List (String × Json)) (j : Json) : Prop where
  same : Same (.obj members) j
  distinct : (members.map Prod.fst).Nodup

namespace Document

variable {members : List (String × Json)} {j : Json} {key : String}

theorem get (h : Document members j) {v : Json} (hv : value members key = some v) :
    ∃ v', j.get? key = some v' ∧ Same v v' := by
  obtain ⟨hsame, hdistinct⟩ := h
  cases hsame with
  | same => exact ⟨v, hv, .same v⟩
  | obj hkeys hvalues hperm =>
      obtain ⟨v', hv', hsame⟩ := value_same hkeys hvalues hv
      exact ⟨v', (value_perm hperm (hkeys ▸ hdistinct) key).trans hv', hsame⟩

/-- The store adds no member. -/
theorem get_none (h : Document members j) (hkey : key ∉ members.map Prod.fst) :
    j.get? key = none := by
  have absent (zs : List (String × Json)) (hzs : key ∉ zs.map Prod.fst) :
      value zs key = none := by
    refine Option.map_eq_none_iff.mpr (List.find?_eq_none.mpr fun m hm hmatch => ?_)
    exact hzs (of_decide_eq_true hmatch ▸ List.mem_map_of_mem hm)
  obtain ⟨hsame, -⟩ := h
  cases hsame with
  | same => exact absent members hkey
  | obj hkeys _ hperm =>
      exact absent _ fun hmem => hkey (hkeys ▸ (hperm.map _).mem_iff.mpr hmem)

end Document

/-! ### Codecs -/

universe u

structure Codec (α : Type u) where
  encode : α → Json
  decode : Json → Option α

variable {α : Type u}

namespace Codec

/-- What was stored is read back. -/
def Stable (c : Codec α) : Prop := ∀ a j, Same (c.encode a) j → c.decode j = some a

/-- A codec through text. -/
def text (print : α → String) (parse : String → Option α) : Codec α where
  encode a := .str (print a)
  decode j :=
    match j with
    | .str s => parse s
    | _ => none

theorem text_stable {print : α → String} {parse : String → Option α}
    (h : ∀ a, parse (print a) = some a) : (text print parse).Stable := by
  intro a j hj
  rw [hj.str]
  exact h a

/-- A codec through whole numbers. -/
def number (value : α → ℤ) (ofInt : ℤ → Option α) : Codec α where
  encode a := .num (value a)
  decode j :=
    match j with
    | .num n => ofInt n
    | _ => none

theorem number_stable {value : α → ℤ} {ofInt : ℤ → Option α}
    (h : ∀ a, ofInt (value a) = some a) : (number value ofInt).Stable := by
  intro a j hj
  rw [hj.num]
  exact h a

/-- A wrapper that leaves no trace in the document. -/
def transparent {β : Type u} (c : Codec β) (unwrap : α → β) (wrap : β → α) : Codec α where
  encode a := c.encode (unwrap a)
  decode j := (c.decode j).map wrap

theorem transparent_stable {β : Type u} {c : Codec β} (hc : c.Stable) {unwrap : α → β}
    {wrap : β → α} (h : ∀ a, wrap (unwrap a) = a) : (c.transparent unwrap wrap).Stable := by
  intro a j hj
  change (c.decode j).map wrap = some a
  rw [hc (unwrap a) j hj, Option.map_some, h]

/-- Nothing is written as null. -/
def option (c : Codec α) : Codec (Option α) where
  encode a :=
    match a with
    | none => .null
    | some a => c.encode a
  decode j :=
    match j with
    | .null => some none
    | j => (c.decode j).map some

theorem option_stable {c : Codec α} (hc : c.Stable) (hnull : ∀ a, c.encode a ≠ .null) :
    c.option.Stable := by
  intro a j hj
  cases a with
  | none =>
      cases hj
      rfl
  | some a =>
      have hdecode := hc a j hj
      cases j with
      | null => exact absurd hj.null (hnull a)
      | _ => exact congrArg (Option.map some) hdecode

def list (c : Codec α) : Codec (List α) where
  encode as := .arr (as.map c.encode)
  decode j :=
    match j with
    | .arr items => items.mapM c.decode
    | _ => none

theorem decode_all {c : Codec α} (hc : c.Stable) {as : List α} {items : List Json}
    (h : List.Forall₂ Same (as.map c.encode) items) : items.mapM c.decode = some as := by
  induction as generalizing items with
  | nil =>
      cases h
      rfl
  | cons a as ih =>
      cases h with
      | cons hfirst hrest =>
          rw [List.mapM_cons, hc a _ hfirst, ih hrest]
          rfl

theorem list_stable {c : Codec α} (hc : c.Stable) : c.list.Stable := by
  intro as j hj
  cases hj with
  | same => exact decode_all hc (List.forall₂_same.mpr fun v _ => .same v)
  | arr hitems => exact decode_all hc hitems

/-- A member of an object. -/
def member (c : Codec α) (j : Json) (key : String) : Option α := (j.get? key).bind c.decode

/-- A member that may be missing. -/
def optionalMember (c : Codec α) (j : Json) (key : String) : Option (Option α) :=
  match j.get? key with
  | none => some none
  | some v => c.option.decode v

end Codec

section
variable {c : Codec α} {members : List (String × Json)} {j : Json} {key : String}

/-- A member that was written is read back. -/
theorem Document.read (h : Document members j) (hc : c.Stable) {a : α}
    (hmember : value members key = some (c.encode a)) : c.member j key = some a := by
  obtain ⟨v, hv, hsame⟩ := h.get hmember
  rw [Codec.member, hv]
  exact hc a v hsame

theorem Document.readOptional (h : Document members j) (hc : c.option.Stable) {a : Option α}
    (hmember : value members key = some (c.option.encode a)) :
    c.optionalMember j key = some a := by
  obtain ⟨v, hv, hsame⟩ := h.get hmember
  rw [Codec.optionalMember, hv]
  exact hc a v hsame

end

end LightningGateway.JsonCodecs
