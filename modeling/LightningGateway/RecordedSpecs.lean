import Mathlib.Data.List.Basic

/-!
# Specifications that leave a record

An abstract system makes moves, and each move may add entries to a record that others read.
`Traces` says which records can be left on the way from one state to another. A record can be
cut anywhere between two entries when no move adds more than one, and a reader who knows
nothing but the record follows the system through every such cut.
-/
namespace LightningGateway.RecordedSpecs

universe u v w x
variable {τ : Type u} {δ : Type v} {ρ : Type w} {V : Type x}

structure Spec (τ : Type u) (δ : Type v) (ρ : Type w) where
  step : τ → δ → Option τ
  /-- The entries that a move may add, in their order. -/
  shows : δ → List ρ → Prop

inductive Spec.Traces (S : Spec τ δ ρ) (a : τ) : List ρ → τ → Prop
  | refl : S.Traces a [] a
  | move {record entries : List ρ} {d : δ} {b c : τ} : S.Traces a record b →
      S.step b d = some c → S.shows d entries → S.Traces a (record ++ entries) c

namespace Spec.Traces

variable {S : Spec τ δ ρ} {a b c : τ} {record record' : List ρ}

theorem trans (h : S.Traces a record b) (h' : S.Traces b record' c) :
    S.Traces a (record ++ record') c := by
  induction h' with
  | refl =>
      rw [List.append_nil]
      exact h
  | move _ hstep hshows ih =>
      rw [← List.append_assoc]
      exact .move ih hstep hshows

/-- What every move preserves holds at the end of every trace. -/
theorem invariant {J : τ → Prop} (preserved : ∀ b d c, S.step b d = some c → J b → J c)
    (h : S.Traces a record b) (ha : J a) : J b := by
  induction h with
  | refl => exact ha
  | move _ hstep _ ih => exact preserved _ _ _ hstep ih

/-- The reader's rule: `follow` is how the reader takes an entry in. -/
theorem replay {follow : V → ρ → V} {Agrees : V → τ → Prop}
    (agreed : ∀ v b d c entries, S.step b d = some c → S.shows d entries → Agrees v b →
      Agrees (entries.foldl follow v) c)
    (h : S.Traces a record b) {v : V} (ha : Agrees v a) :
    Agrees (record.foldl follow v) b := by
  induction h with
  | refl => exact ha
  | move _ hstep hshows ih =>
      rw [List.foldl_append]
      exact agreed _ _ _ _ _ hstep hshows ih

/-- A record without gaps up to some entry is the record of an earlier state. -/
theorem cut (single : ∀ d entries, S.shows d entries → entries.length ≤ 1)
    (h : S.Traces a record c) : ∀ seen rest, record = seen ++ rest →
      ∃ b, S.Traces a seen b ∧ S.Traces b rest c := by
  induction h with
  | refl =>
      intro seen rest hrecord
      obtain ⟨rfl, rfl⟩ := List.append_eq_nil_iff.mp hrecord.symm
      exact ⟨a, .refl, .refl⟩
  | @move record entries d b c htrace hstep hshows ih =>
      intro seen rest hrecord
      -- The cut lies before the last move, or past all that it adds.
      obtain ⟨more, rfl, hentries⟩ | ⟨more, hseen, rfl⟩ := List.append_eq_append_iff.mp hrecord
      · rcases more with _ | ⟨entry, more⟩
        · rw [List.append_nil]
          rw [List.nil_append] at hentries
          exact ⟨b, htrace, hentries ▸ .move .refl hstep hshows⟩
        · have hshort := single d entries hshows
          rw [hentries, List.cons_append, List.length_cons, List.length_append] at hshort
          obtain rfl : more = [] := List.eq_nil_of_length_eq_zero (by omega)
          obtain rfl : rest = [] := List.eq_nil_of_length_eq_zero (by omega)
          rw [List.append_nil] at hentries
          exact ⟨c, hentries ▸ .move htrace hstep hshows, .refl⟩
      · obtain ⟨e, hbefore, hafter⟩ := ih seen more hseen
        exact ⟨e, hbefore, .move hafter hstep hshows⟩

end Spec.Traces

end LightningGateway.RecordedSpecs
