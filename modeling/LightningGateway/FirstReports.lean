import Mathlib.Data.Fintype.Basic

/-!
# The first report of a group

The members of a group end one by one. One that ends in order posts a report into a slot with
room for one, where it is dropped when the slot is full; the others are lost with nothing
said. A receiver waits once for the slot. It is given the first report that was ever posted,
or, when every member has been lost, the news that none will come.
-/
namespace LightningGateway.FirstReports

universe u v
variable {ι : Type u} {α : Type v}

inductive Standing where
  | running
  | posted
  | lost
deriving DecidableEq, Repr

structure Group (ι : Type u) (α : Type v) where
  standing : ι → Standing
  slot : Option α
  /-- What the receiver was given, once it was: a report, or the end of all members. -/
  taken : Option (Option α)
  /-- Every report posted, latest last, those that were dropped included. -/
  reports : List (ι × α)

namespace Group

def start : Group ι α := ⟨fun _ => .running, none, none, []⟩

variable [DecidableEq ι]

/-- A full slot keeps what it holds. -/
def post (s : Group ι α) (i : ι) (report : α) : Option (Group ι α) :=
  if s.standing i = .running then
    some { s with
      standing := Function.update s.standing i .posted
      slot := s.slot.or (some report)
      reports := s.reports ++ [(i, report)] }
  else none

def lose (s : Group ι α) (i : ι) : Option (Group ι α) :=
  if s.standing i = .running then
    some { s with standing := Function.update s.standing i .lost }
  else none

omit [DecidableEq ι] in
/-- The slot is closed once no member is left to fill it. -/
def receive [Fintype ι] (s : Group ι α) : Option (Group ι α) :=
  match s.taken, s.slot with
  | some _, _ => none
  | none, some report => some { s with taken := some (some report), slot := none }
  | none, none =>
      if ∀ i, s.standing i ≠ .running then some { s with taken := some none } else none

/-- A member that posts has not ended before. -/
theorem post_spec {s t : Group ι α} {i : ι} {report : α} (hpost : s.post i report = some t) :
    s.standing i = .running ∧ t.taken = s.taken ∧ t.reports = s.reports ++ [(i, report)] ∧
      ∀ j, t.standing j = .lost ↔ s.standing j = .lost := by
  unfold Group.post at hpost
  split_ifs at hpost with hi
  cases hpost
  refine ⟨hi, rfl, rfl, fun j => ?_⟩
  rcases eq_or_ne j i with rfl | hne
  · simp [hi]
  · simp [hne]

theorem lose_spec {s t : Group ι α} {i : ι} (hlose : s.lose i = some t) :
    s.standing i = .running ∧ t.taken = s.taken ∧ t.reports = s.reports ∧
      ∀ j, t.standing j = .lost ↔ j = i ∨ s.standing j = .lost := by
  unfold Group.lose at hlose
  split_ifs at hlose with hi
  cases hlose
  refine ⟨hi, rfl, rfl, fun j => ?_⟩
  rcases eq_or_ne j i with rfl | hne
  · simp
  · simp [hne]

theorem post_ended {s t : Group ι α} {i j : ι} {report : α} (hpost : s.post i report = some t)
    (hj : s.standing j ≠ .running) : t.standing j ≠ .running := by
  unfold Group.post at hpost
  split_ifs at hpost with hi
  cases hpost
  have hne : j ≠ i := fun h => hj (h ▸ hi)
  simpa [hne] using hj

theorem lose_ended {s t : Group ι α} {i j : ι} (hlose : s.lose i = some t)
    (hj : s.standing j ≠ .running) : t.standing j ≠ .running := by
  unfold Group.lose at hlose
  split_ifs at hlose with hi
  cases hlose
  have hne : j ≠ i := fun h => hj (h ▸ hi)
  simpa [hne] using hj

omit [DecidableEq ι] in
/-- The receiver comes back with an answer, and the members stay as they are. -/
theorem receive_spec [Fintype ι] {s t : Group ι α} (hreceive : s.receive = some t) :
    s.taken = none ∧ t.taken ≠ none ∧ t.standing = s.standing ∧ t.reports = s.reports := by
  unfold Group.receive at hreceive
  split at hreceive
  case h_1 => cases hreceive
  case h_2 report htaken hslot =>
    cases hreceive
    exact ⟨htaken, nofun, rfl, rfl⟩
  case h_3 htaken hslot =>
    split_ifs at hreceive with hended
    cases hreceive
    exact ⟨htaken, nofun, rfl, rfl⟩

end Group

/-! ### The first report decides -/

structure Sound (s : Group ι α) : Prop where
  once : (s.reports.map Prod.fst).Nodup
  posted : ∀ i, i ∈ s.reports.map Prod.fst ↔ s.standing i = .posted
  pending : s.taken = none → s.slot = s.reports.head?.map Prod.snd
  first : ∀ report, s.taken = some (some report) → s.reports.head?.map Prod.snd = some report
  closed : s.taken = some none → s.reports = [] ∧ ∀ i, s.standing i = .lost

theorem Sound.start : Sound (Group.start : Group ι α) where
  once := List.nodup_nil
  posted i := by simp [Group.start]
  pending _ := rfl
  first _ htaken := nomatch htaken
  closed htaken := nomatch htaken

variable {s t : Group ι α} {i : ι}

theorem Sound.idle (hs : Sound s) (hi : s.standing i = .running) : i ∉ s.reports.map Prod.fst := by
  intro hmem
  rw [(hs.posted i).mp hmem] at hi
  cases hi

/-- A receiver that was told of the end was told so after the end. -/
theorem Sound.open_of_running (hs : Sound s) (hi : s.standing i = .running) :
    s.taken ≠ some none := by
  intro htaken
  rw [(hs.closed htaken).2 i] at hi
  cases hi

variable [DecidableEq ι]

theorem Sound.post {report : α} (hs : Sound s) (hpost : s.post i report = some t) : Sound t := by
  unfold Group.post at hpost
  split_ifs at hpost with hi
  cases hpost
  refine ⟨?_, fun j => ?_, fun htaken => ?_, fun first htaken => ?_, fun htaken => ?_⟩
  · rw [List.map_append, List.map_singleton]
    refine List.nodup_append.mpr ⟨hs.once, List.nodup_singleton _, fun j hj k hk => ?_⟩
    rintro rfl
    obtain rfl := List.mem_singleton.mp hk
    exact hs.idle hi hj
  · rw [List.map_append, List.mem_append, hs.posted j, List.map_singleton, List.mem_singleton]
    rcases eq_or_ne j i with rfl | hne
    · simp
    · simp [hne]
  · show s.slot.or (some report) = _
    rw [hs.pending htaken]
    cases s.reports <;> rfl
  · have hfirst := hs.first first htaken
    cases hreports : s.reports with
    | nil => rw [hreports] at hfirst; cases hfirst
    | cons head rest => rw [hreports] at hfirst; exact hfirst
  · exact absurd htaken (hs.open_of_running hi)

theorem Sound.lose (hs : Sound s) (hlose : s.lose i = some t) : Sound t := by
  unfold Group.lose at hlose
  split_ifs at hlose with hi
  cases hlose
  refine ⟨hs.once, fun j => ?_, hs.pending, hs.first, fun htaken => ?_⟩
  · rcases eq_or_ne j i with rfl | hne
    · simpa using hs.idle hi
    · simpa [hne] using hs.posted j
  · exact absurd htaken (hs.open_of_running hi)

omit [DecidableEq ι] in
theorem Sound.receive [Fintype ι] (hs : Sound s) (hreceive : s.receive = some t) : Sound t := by
  unfold Group.receive at hreceive
  split at hreceive
  case h_1 => cases hreceive
  case h_2 report htaken hslot =>
    cases hreceive
    refine ⟨hs.once, hs.posted, fun h => (nomatch h), fun first hfirst => ?_, fun h => (nomatch h)⟩
    cases hfirst
    exact (hs.pending htaken).symm.trans hslot
  case h_3 htaken hslot =>
    split_ifs at hreceive with hended
    cases hreceive
    have hnone : s.reports = [] := by
      have hhead := (hs.pending htaken).symm.trans hslot
      rwa [Option.map_eq_none_iff, List.head?_eq_none_iff] at hhead
    refine ⟨hs.once, hs.posted, fun h => (nomatch h), fun _ h => (nomatch h), fun _ => ⟨hnone, ?_⟩⟩
    intro i
    have hposted : s.standing i ≠ .posted := by
      rw [Ne, ← hs.posted i, hnone]
      exact List.not_mem_nil
    cases hi : s.standing i with
    | running => exact absurd hi (hended i)
    | posted => exact absurd hi hposted
    | lost => rfl

end LightningGateway.FirstReports
