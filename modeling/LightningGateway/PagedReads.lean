import LightningGateway.GuardedRuns
import LightningGateway.CursorFeeds
import Mathlib.Data.List.Count
import Mathlib.Order.Bounds.Basic

/-!
# Reading a table page after page

A reader fetches the first rows above its cursor, moves the cursor to each of them in
turn, and fetches again until a page is empty. The table is read once for every page,
so it may be another one each time. As long as every reading shows the rows of a table
`low`, none of these is skipped, and as long as it shows only rows of `high`, nothing
else is visited; for a table that stays the same this is the plain query. A machine
that contains such a reader inherits both from its `view`.
-/
namespace LightningGateway.PagedReads
open GuardedRuns CursorFeeds

universe u v w x
variable {α : Type u} {κ : Type v} [LinearOrder κ]

/-! ### The reader -/

structure Reader (α : Type u) (κ : Type v) where
  cursor : κ
  /-- What is left of the page. -/
  rest : List α
  /-- Latest last. -/
  visited : List α
  finished : Bool
deriving DecidableEq, Repr

namespace Reader

/-- About to fetch its first page. -/
def start (cursor : κ) (visited : List α) : Reader α κ := ⟨cursor, [], visited, false⟩

/-- Visit the next row in hand, or fetch a page from the table as it is now. -/
def step (key : α → κ) (limit : ℕ) (s : Reader α κ) (rows : List α) : Option (Reader α κ) :=
  if s.finished then none
  else
    match s.rest with
    | r :: rest => some { s with cursor := key r, rest, visited := s.visited ++ [r] }
    | [] =>
        match page key limit rows s.cursor with
        | [] => some { s with finished := true }
        | rest => some { s with rest }

end Reader

variable {key : α → κ} {limit : ℕ} {rows low : List α} {high : Set α} {x s t : Reader α κ}

/-- What one step can be. -/
inductive Moves (key : α → κ) (limit : ℕ) (s : Reader α κ) (rows : List α) : Reader α κ → Prop where
  | visit {r : α} {rest : List α} : s.rest = r :: rest →
      Moves key limit s rows { s with cursor := key r, rest, visited := s.visited ++ [r] }
  | fetch {r : α} {rest : List α} : s.rest = [] → page key limit rows s.cursor = r :: rest →
      Moves key limit s rows { s with rest := r :: rest }
  | finish : s.rest = [] → page key limit rows s.cursor = [] →
      Moves key limit s rows { s with finished := true }

theorem step_moves (h : s.step key limit rows = some t) :
    s.finished = false ∧ Moves key limit s rows t := by
  unfold Reader.step at h
  split_ifs at h with hf
  refine ⟨Bool.eq_false_iff.mpr hf, ?_⟩
  split at h
  case h_1 r rest hrest =>
    cases h
    exact .visit hrest
  case h_2 hrest =>
    split at h
    case h_1 hpage =>
      cases h
      exact .finish hrest hpage
    case h_2 rest hne =>
      cases h
      cases hpage : page key limit rows s.cursor with
      | nil => exact absurd hpage hne
      | cons r rest => exact .fetch hrest hpage

theorem step_visit {r : α} {rest : List α} (hf : s.finished = false) (hrest : s.rest = r :: rest) :
    s.step key limit rows =
      some { s with cursor := key r, rest, visited := s.visited ++ [r] } := by
  simp only [Reader.step, hf, hrest, Bool.false_eq_true, if_false]

theorem step_finish (hf : s.finished = false) (hrest : s.rest = [])
    (hpage : page key limit rows s.cursor = []) :
    s.step key limit rows = some { s with finished := true } := by
  simp only [Reader.step, hf, hrest, hpage, Bool.false_eq_true, if_false]

theorem step_fetch {r : α} {rest : List α} (hf : s.finished = false) (hrest : s.rest = [])
    (hpage : page key limit rows s.cursor = r :: rest) :
    s.step key limit rows = some { s with rest := r :: rest } := by
  simp only [Reader.step, hf, hrest, hpage, Bool.false_eq_true, if_false]

/-- A reader that has not finished can go on, whatever the table holds. -/
theorem step_enabled (h : s.finished = false) (rows : List α) :
    ∃ t, s.step key limit rows = some t := by
  unfold Reader.step
  rw [h]
  simp only [Bool.false_eq_true, if_false]
  split
  · exact ⟨_, rfl⟩
  · split <;> exact ⟨_, rfl⟩

/-! ### What has been visited -/

/-- How far a reader that started as `x` has come. -/
structure Progress (key : α → κ) (low : List α) (high : Set α) (x s : Reader α κ) : Prop where
  visited : ∃ new, s.visited = x.visited ++ new ∧ new.Pairwise (fun a b => key a < key b) ∧
    (∀ r ∈ new, r ∈ high ∧ x.cursor < key r ∧ key r ≤ s.cursor) ∧
    (∀ r ∈ low, x.cursor < key r → key r ≤ s.cursor → r ∈ new) ∧
    (s.cursor = x.cursor ∨ ∃ r ∈ new, key r = s.cursor)
  start_le : x.cursor ≤ s.cursor
  sorted : s.rest.Pairwise fun a b => key a < key b
  above : ∀ r ∈ s.rest, r ∈ high ∧ s.cursor < key r
  complete : s.rest ≠ [] → ∀ r ∈ low, s.cursor < key r → r ∈ s.rest ∨ ∀ y ∈ s.rest, key y < key r
  finished : s.finished = true → ∀ r ∈ low, key r ≤ s.cursor

theorem progress_start (cursor : κ) (visited : List α) :
    Progress key low high (.start cursor visited) (.start cursor visited) where
  visited := ⟨[], (List.append_nil _).symm, .nil, fun _ hr => (by cases hr),
    fun _ _ hc hle => absurd hle (not_le.mpr hc), .inl rfl⟩
  start_le := le_rfl
  sorted := .nil
  above _ hr := (by cases hr)
  complete h := absurd rfl h
  finished h := (by cases h)

/-- A table that shows the rows of `low` and only rows of `high`, with distinct keys. -/
structure Shows (key : α → κ) (low : List α) (high : Set α) (rows : List α) : Prop where
  distinct : rows.Pairwise fun a b => key a ≠ key b
  low : low ⊆ rows
  high : ∀ r ∈ rows, r ∈ high

theorem Progress.visit {r : α} {rest : List α} (hI : Progress key low high x s)
    (hrest : s.rest = r :: rest) :
    Progress key low high x
      { s with cursor := key r, rest, visited := s.visited ++ [r], finished := false } := by
  obtain ⟨new, hnew, hsorted, hsound, hcovered, -⟩ := hI.visited
  have hr : r ∈ s.rest := hrest ▸ List.mem_cons_self
  obtain ⟨hhigh, hlt⟩ := hI.above r hr
  have hrs := hI.sorted
  rw [hrest, List.pairwise_cons] at hrs
  have hne : s.rest ≠ [] := by rw [hrest]; exact List.cons_ne_nil _ _
  refine ⟨⟨new ++ [r], ?_, ?_, ?_, ?_, .inr ⟨r, by simp, rfl⟩⟩, hI.start_le.trans hlt.le, hrs.2,
    fun y hy => ⟨(hI.above y (hrest ▸ List.mem_cons_of_mem _ hy)).1, hrs.1 y hy⟩, ?_, by rintro ⟨⟩⟩
  · rw [hnew, List.append_assoc]
  · refine List.pairwise_append.mpr ⟨hsorted, List.pairwise_singleton _ _, fun a ha b hb => ?_⟩
    obtain rfl := List.mem_singleton.mp hb
    exact (hsound a ha).2.2.trans_lt hlt
  · intro y hy
    rcases List.mem_append.mp hy with hy | hy
    · obtain ⟨hyh, hyx, hys⟩ := hsound y hy
      exact ⟨hyh, hyx, hys.trans hlt.le⟩
    · obtain rfl := List.mem_singleton.mp hy
      exact ⟨hhigh, hI.start_le.trans_lt hlt, le_rfl⟩
  · intro y hy hyx hyr
    rcases le_or_gt (key y) s.cursor with hle | hgt
    · exact List.mem_append_left _ (hcovered y hy hyx hle)
    · -- A row between the cursor and the head of the page is the head.
      rcases hI.complete hne y hy hgt with hmem | hall
      · rw [hrest] at hmem
        rcases List.mem_cons.mp hmem with rfl | hmem
        · exact List.mem_append_right _ List.mem_cons_self
        · exact absurd hyr (not_le.mpr (hrs.1 y hmem))
      · exact absurd hyr (not_le.mpr (hall r hr))
  · intro _ y hy hyr
    rcases hI.complete hne y hy (hlt.trans hyr) with hmem | hall
    · rw [hrest] at hmem
      rcases List.mem_cons.mp hmem with rfl | hmem
      · exact absurd hyr (lt_irrefl _)
      · exact .inl hmem
    · exact .inr fun z hz => hall z (hrest ▸ List.mem_cons_of_mem _ hz)

theorem Progress.step (hI : Progress key low high x s) (hl : 0 < limit)
    (hrows : Shows key low high rows) (h : s.step key limit rows = some t) :
    Progress key low high x t := by
  obtain ⟨hf, hmoves⟩ := step_moves h
  cases hmoves with
  | visit hrest =>
      have hvisit := hI.visit hrest
      rw [← hf] at hvisit
      exact hvisit
  | fetch hrest hpage =>
      have hsorted : (page key limit rows s.cursor).Pairwise fun a b => key a < key b :=
        page_pairwise hrows.distinct
      rw [hpage] at hsorted
      refine ⟨hI.visited, hI.start_le, hsorted, fun r hr => ?_, fun _ r hr hc => ?_, ?_⟩
      · have hmem := mem_page (hpage ▸ hr)
        exact ⟨hrows.high r hmem.1, hmem.2⟩
      · rw [← hpage]
        exact page_complete hrows.distinct (hrows.low hr) hc
      · exact hI.finished
  | finish hrest hpage =>
      exact ⟨hI.visited, hI.start_le, hI.sorted, hI.above, hI.complete,
        fun _ r hr => page_eq_nil hl hpage (hrows.low hr)⟩

/-! ### The table that stays the same -/

/-- The rows above the cursor get fewer when the cursor moves to one of them. -/
theorem countP_above_lt {c : κ} {r : α} (hr : r ∈ rows) (hc : c < key r) :
    rows.countP (fun y => key r < key y) < rows.countP fun y => c < key y := by
  have hfilter : rows.countP (fun y => key r < key y) =
      (rows.filter fun y => c < key y).countP fun y => key r < key y := by
    rw [List.countP_filter]
    refine List.countP_congr fun y _ => ?_
    simp only [Bool.and_eq_true, decide_eq_true_eq]
    exact ⟨fun h => ⟨h, hc.trans h⟩, And.left⟩
  rw [hfilter, List.countP_eq_length_filter (p := fun y => decide (c < key y))]
  exact List.countP_lt_length_iff.mpr ⟨r, List.mem_filter.mpr ⟨hr, decide_eq_true hc⟩,
    decide_eq_false (lt_irrefl _)⟩

/-- A bound on the steps that are left. -/
def weight (key : α → κ) (rows : List α) (s : Reader α κ) : ℕ :=
  if s.finished then 0
  else 2 * rows.countP (fun r => s.cursor < key r) + if s.rest.isEmpty then 1 else 0

theorem step_weight (hI : Progress key low {r | r ∈ rows} x s)
    (h : s.step key limit rows = some t) : weight key rows t < weight key rows s := by
  obtain ⟨hf, hmoves⟩ := step_moves h
  cases hmoves with
  | visit hrest =>
      obtain ⟨hr, hlt⟩ := hI.above _ (hrest ▸ List.mem_cons_self)
      have hcount := countP_above_lt (show _ ∈ rows from hr) hlt
      simp only [weight, hf, hrest, List.isEmpty_cons, Bool.false_eq_true, if_false]
      split_ifs <;> omega
  | fetch hrest hpage => simp [weight, hf, hrest]
  | finish hrest hpage => simp [weight, hf, hrest]

/-- The rows above the start were visited after what had been visited before, in
increasing order, and the cursor is at the largest of them. -/
structure Drained (key : α → κ) (rows : List α) (x s : Reader α κ) : Prop where
  visited : ∃ new, s.visited = x.visited ++ new ∧ new.Pairwise (fun a b => key a < key b) ∧
    ∀ r, r ∈ new ↔ r ∈ rows ∧ x.cursor < key r
  cursor : IsGreatest ({x.cursor} ∪ {k | ∃ r ∈ rows, x.cursor < key r ∧ key r = k}) s.cursor

theorem Progress.drained (hI : Progress key rows {r | r ∈ rows} x s)
    (hf : s.finished = true) : Drained key rows x s := by
  obtain ⟨new, hnew, hsorted, hsound, hcovered, hcursor⟩ := hI.visited
  have hmem : ∀ r, r ∈ new ↔ r ∈ rows ∧ x.cursor < key r :=
    fun r => ⟨fun h => ⟨(hsound r h).1, (hsound r h).2.1⟩,
      fun h => hcovered r h.1 h.2 (hI.finished hf r h.1)⟩
  refine ⟨⟨new, hnew, hsorted, hmem⟩, ?_, ?_⟩
  · rcases hcursor with h | ⟨r, hr, h⟩
    · exact .inl h
    · exact .inr ⟨r, ((hmem r).mp hr).1, ((hmem r).mp hr).2, h⟩
  · rintro k (rfl | ⟨r, hr, -, rfl⟩)
    · exact hI.start_le
    · exact hI.finished hf r hr

/-- No row of `low` above the start is missing. -/
theorem Progress.none_skipped {r : α} (hI : Progress key low high x s)
    (hf : s.finished = true) (hr : r ∈ low) (hc : x.cursor < key r) : r ∈ s.visited := by
  obtain ⟨new, hnew, -, -, hcovered, -⟩ := hI.visited
  rw [hnew]
  exact List.mem_append_right _ (hcovered r hr hc (hI.finished hf r hr))

theorem progress_run {Ts : List (List α)} (hl : 0 < limit) (hI : Progress key low high x s)
    (hrun : Run (fun s T => s.step key limit T) (fun _ T => Shows key low high T) s Ts t) :
    Progress key low high x t :=
  hrun.invariant (fun _ _ _ hshows hstep hI => hI.step hl hshows hstep) hI

/-- Every step on the same table uses up weight. -/
theorem weight_run {Ts : List (List α)} (hl : 0 < limit)
    (hd : rows.Pairwise fun a b => key a ≠ key b) (hI : Progress key rows {r | r ∈ rows} x s)
    (hrun : Run (fun s T => s.step key limit T) (fun _ T => T = rows) s Ts t) :
    Ts.length + weight key rows t ≤ weight key rows s := by
  induction Ts generalizing s with
  | nil =>
      obtain rfl := run_nil.mp hrun
      simp
  | cons T Ts ih =>
      obtain ⟨rfl, u, hu, hrest⟩ := run_cons.mp hrun
      have hless := step_weight hI hu
      have hle := ih (hI.step hl ⟨hd, List.Subset.refl _, fun _ h => h⟩ hu) hrest
      rw [List.length_cons]
      omega

/-- Reading the same table again and again comes to an end. -/
theorem finishes (hl : 0 < limit) (hd : rows.Pairwise fun a b => key a ≠ key b)
    (hI : Progress key rows {r | r ∈ rows} x s) :
    ∃ Ts t, Run (fun s T => s.step key limit T) (fun _ T => T = rows) s Ts t ∧
      t.finished = true := by
  induction hw : weight key rows s using Nat.strong_induction_on generalizing s with
  | _ n ih =>
      cases hf : s.finished with
      | true => exact ⟨[], s, run_nil.mpr rfl, hf⟩
      | false =>
          obtain ⟨u, hu⟩ : ∃ u, s.step key limit rows = some u := step_enabled hf rows
          have hIu := hI.step hl ⟨hd, List.Subset.refl _, fun _ h => h⟩ hu
          obtain ⟨Ts, t, hrun, ht⟩ := ih _ (hw ▸ step_weight hI hu) hIu rfl
          exact ⟨rows :: Ts, t, run_cons.mpr ⟨rfl, u, hu, hrun⟩, ht⟩

/-! ### Machines that read -/

section
variable {σ : Type w} {ε : Type x} {step : σ → ε → Option σ} {table : σ → List α}
variable {view : σ → Option (Reader α κ)} {own : ε → Bool} {a b : σ} {es : List ε}

/-- The machine shows a reader that has not finished. -/
def Reading (view : σ → Option (Reader α κ)) (a : σ) : Prop :=
  ∃ y, view a = some y ∧ y.finished = false

/-- While the machine reads, its own events are steps of the reader on the table as it
is, unless they end the reading early; the other events leave the reader alone. -/
def Reads (key : α → κ) (limit : ℕ) (step : σ → ε → Option σ) (table : σ → List α)
    (view : σ → Option (Reader α κ)) (own : ε → Bool) : Prop :=
  ∀ a e b y z, step a e = some b → view a = some y → y.finished = false → view b = some z →
    if own e then y.step key limit (table a) = some z else z = y

variable {c : κ} {v : List α} {y z : Reader α κ}

/-- A machine has come as far as its reader. -/
theorem Reads.progress (hr : Reads key limit step table view own) (hl : 0 < limit)
    (ha : view a = some (.start c v))
    (hrun : Run step (fun a _ => Reading view a ∧ Shows key low high (table a)) a es b)
    (hb : view b = some y) : Progress key low high (.start c v) y := by
  refine hrun.invariant (J := fun a => ∀ y, view a = some y →
    Progress key low high (.start c v) y) ?_ ?_ y hb
  · rintro a e b ⟨⟨y, hy, hf⟩, hshows⟩ hstep hJ z hz
    have hsim := hr a e b y z hstep hy hf hz
    split_ifs at hsim
    · exact (hJ y hy).step hl hshows hsim
    · exact hsim ▸ hJ y hy
  · intro y hy
    cases ha.symm.trans hy
    exact progress_start _ _

omit [LinearOrder κ] in
/-- A run that shows a reader at its end shows one at its start. -/
theorem exists_view {guard : σ → ε → Prop} (hguard : ∀ a e, guard a e → Reading view a)
    (hrun : Run step guard a es b) (hb : view b = some z) : ∃ y, view a = some y := by
  cases es with
  | nil => exact ⟨z, run_nil.mp hrun ▸ hb⟩
  | cons e es =>
      obtain ⟨y, hy, -⟩ := hguard a e (run_cons.mp hrun).1
      exact ⟨y, hy⟩

/-- The machine's own events use up the weight of its reader. -/
theorem Reads.bounded (hr : Reads key limit step table view own) (hl : 0 < limit)
    (hd : rows.Pairwise fun a b => key a ≠ key b) (hI : Progress key rows {r | r ∈ rows} x y)
    (ha : view a = some y)
    (hrun : Run step (fun a _ => Reading view a ∧ table a = rows) a es b)
    (hb : view b = some z) : es.countP own + weight key rows z ≤ weight key rows y := by
  induction es generalizing a y with
  | nil =>
      obtain rfl := run_nil.mp hrun
      cases ha.symm.trans hb
      simp
  | cons e es ih =>
      obtain ⟨⟨⟨y', hy', hf⟩, htable⟩, u, hu, hrest⟩ := run_cons.mp hrun
      cases ha.symm.trans hy'
      obtain ⟨w, hw⟩ := exists_view (fun _ _ h => h.1) hrest hb
      have hsim := hr a e u y w hu ha hf hw
      rw [htable] at hsim
      rw [List.countP_cons]
      split_ifs at hsim with hown
      · have hIw := hI.step hl ⟨hd, List.Subset.refl _, fun _ h => h⟩ hsim
        have hless := step_weight hI hsim
        have hle := ih hIw hw hrest
        rw [if_pos hown]
        omega
      · subst hsim
        have hle := ih hI hw hrest
        rw [if_neg hown]
        omega

/-- What a machine whose reader is `y` in the state `a` has read by the time that its
reader has finished: the rows of a plain query when the table stays the same, and in any
case every row that was there. Its own steps are bounded. -/
structure EqualsQuery (key : α → κ) (step : σ → ε → Option σ) (table : σ → List α)
    (view : σ → Option (Reader α κ)) (own : ε → Bool) (a : σ) (y : Reader α κ) : Prop where
  bounded : ∀ es b z, Run step (fun c _ => Reading view c ∧ table c = table a) a es b →
    view b = some z → es.countP own ≤ 2 * (table a).countP (fun r => y.cursor < key r) + 1
  drained : ∀ es b z, Run step (fun c _ => Reading view c ∧ table c = table a) a es b →
    view b = some z → z.finished = true → Drained key (table a) y z
  covered : ∀ es b z, Run step (fun c _ => Reading view c) a es b → view b = some z →
    z.finished = true → ∀ r ∈ table a, y.cursor < key r → r ∈ z.visited

/-- A machine that reads, over a table that keeps its rows and the distinctness of their
keys. -/
theorem Reads.equalsQuery {J : σ → Prop} (hr : Reads key limit step table view own)
    (hl : 0 < limit) (hJ : ∀ c e d, step c e = some d → J c → J d)
    (hdistinct : ∀ c, J c → (table c).Pairwise fun r r' => key r ≠ key r')
    (hgrow : ∀ c e d, step c e = some d → J c → table c ⊆ table d)
    (ha : view a = some (.start c v)) (hJa : J a) :
    EqualsQuery key step table view own a (.start c v) := by
  have hd := hdistinct a hJa
  have hshows : ∀ c (_ : ε), (Reading view c ∧ table c = table a) → True →
      Reading view c ∧ Shows key (table a) {r | r ∈ table a} (table c) := by
    rintro c e ⟨hreading, htable⟩ -
    rw [htable]
    exact ⟨hreading, hd, List.Subset.refl _, fun _ h => h⟩
  refine ⟨fun es b z hrun hb => ?_, fun es b z hrun hb hf => ?_,
    fun es b z hrun hb hf r hrow hc => ?_⟩
  · have h := hr.bounded hl hd (progress_start c v) ha hrun hb
    simp only [weight, Reader.start, List.isEmpty_nil, Bool.false_eq_true, if_false,
      if_true] at h
    exact (Nat.le_add_right _ _).trans h
  · have hadmitted := hrun.admitted (J := fun _ => True) (fun _ _ _ _ _ _ => trivial) hshows trivial
    exact (hr.progress hl ha hadmitted hb).drained hf
  · have hadmitted : Run step
        (fun c _ => Reading view c ∧ Shows key (table a) Set.univ (table c)) a es b := by
      refine hrun.admitted (J := fun c => J c ∧ table a ⊆ table c) ?_ ?_ ⟨hJa, List.Subset.refl _⟩
      · rintro c e d - hstep ⟨hJc, hsub⟩
        exact ⟨hJ c e d hstep hJc, List.Subset.trans hsub (hgrow c e d hstep hJc)⟩
      · rintro c e hreading ⟨hJc, hsub⟩
        exact ⟨hreading, hdistinct c hJc, hsub, fun _ _ => trivial⟩
    exact (hr.progress hl ha hadmitted hb).none_skipped hf hrow hc

end

end LightningGateway.PagedReads
