import LightningGateway.SweepTries
import LightningGateway.ProjectionColumns
import LightningGateway.SweepSafety
import Mathlib.Algebra.Order.Floor.Div
import Mathlib.GroupTheory.GroupAction.Ring

/-!
# Progress of the capped sweeps

Ticks of a sweep in a row, with nothing in between and on a backlog that gets no new
rows. A tick tries what it selects under its cap. Rows that LND gives no outcome for stay
in the selection, in front of those the cap has shut out, so they take slots from them
tick after tick.
-/
namespace LightningGateway.SweepProgress
open Primitives GuardedRuns EventTables EffectPrograms TaskPools CappedScans SoloRuns
open PaymentAggregate InvoiceAggregate LndWire GatewayStore GatewayEffects PeerCalls
open PaymentFlows InvoiceFlows GatewayMachine SweepTries

/-! ### One tick of the orphan-hold sweep -/

/-- A payment that a sweep with this cutoff selects. -/
def isStranded (cutoff : Timestamp) (r : PaymentRow) : Bool :=
  decide (r.state = "initiated" ∧ r.cols.createdAt.nanos < cutoff.nanos)

theorem not_initiated (r : PaymentRow) (h : Ended r) : decide (r.state = "initiated") = false := by
  obtain ⟨n, s, hs, -, hstate⟩ := h
  rcases hs with rfl | rfl <;> simp [hstate, PaymentState.asStr]

theorem not_stranded {cutoff : Timestamp} (r : PaymentRow) (h : Ended r) :
    isStranded cutoff r = false := by
  have hstate := of_decide_eq_false (not_initiated r h)
  simp [isStranded, hstate]

/-- Every row with the text of an initiated payment holds the log of one. -/
def InitiatedLogs (db : Db) : Prop :=
  ∀ h r, db.payments.lookup h = some r → r.state = "initiated" →
    ∃ n, PaymentLogs.PaymentLog n r.events .initiated

/-- Tries leave initiated rows as they were. -/
theorem InitiatedLogs.tried {db db' : Db} {stuck : PaymentHash → Bool} {ks : List PaymentHash}
    (h : InitiatedLogs db) (htried : Tried Ended stuck ks db.payments db'.payments) :
    InitiatedLogs db' :=
  fun k r hr hstate => h k r (htried.lookup not_initiated hr (decide_eq_true hstate)) hstate

/-- A sweep at `utcNow` selects the payments older than the cutoff: none has become
stranded since. -/
def sameBacklog (idle : ℕ) (cutoff utcNow : Timestamp) (db : Db) : Bool :=
  db.payments.rows.all fun r => decide (r.state = "initiated" →
    (r.cols.createdAt.nanos < utcNow.nanos - idleDuration idle ↔
      r.cols.createdAt.nanos < cutoff.nanos))

/-- What the clock showed at the start of a tick. -/
def startOf : Calls → Option Timestamp
  | ⟨.now, utcNow⟩ :: _ => some utcNow
  | _ => none

section
variable {g : Deployment} {A : Assignment} {w : World} {idle n : ℕ} {cutoff : Timestamp}

theorem listStranded_eq {utcNow : Timestamp}
    (h : sameBacklog idle cutoff utcNow w.db = true) :
    Payments.listStrandedInitiated w.db ⟨utcNow.nanos - idleDuration idle⟩ n =
      .ok ((select (isStranded cutoff) w.db.payments).take n) := by
  have hfilter : (w.db.payments.rows.filter fun r =>
      r.state = "initiated" ∧ r.cols.createdAt.nanos < utcNow.nanos - idleDuration idle) =
        w.db.payments.rows.filter (isStranded cutoff) := by
    refine List.filter_congr fun r hr => ?_
    have hsame := of_decide_eq_true (List.all_eq_true.mp h r hr)
    by_cases hstate : r.state = "initiated"
    · simp [isStranded, hstate, hsame hstate]
    · simp [isStranded, hstate]
  have hlimit : ¬(n : ℤ) < 0 := by omega
  rw [Payments.listStrandedInitiated, if_neg hlimit, hfilter, Int.toNat_natCast, List.map_take]
  rfl

/-- The tries of a tick, one after the other. -/
theorem sweepStranded_solo {hs : List PaymentHash} {m : ℕ} {cur : Option PaymentHash}
    (hnodup : hs.Nodup) (hlive : ∀ h ∈ hs, ∃ r n, w.db.payments.lookup h = some r ∧
      PaymentLogs.PaymentLog n r.events .initiated) :
    Solo g A w cur (sweepStranded hs m) (Leaves cur hs fun w' =>
      Tried Ended (fun k => !A.concludes k) hs w.db.payments w'.db.payments) := by
  induction hs generalizing w m cur with
  | nil => exact alone_ret ⟨rfl, Tried.nil⟩
  | cons h hs ih =>
      obtain ⟨hout, hrest⟩ := List.nodup_cons.mp hnodup
      obtain ⟨r, n, hl, hlog⟩ := hlive h List.mem_cons_self
      rw [SweepSafety.sweepStranded_cons]
      apply alone_attempt
      refine Alone.mono ?_ (reconcileOrphanHold_solo hl hlog)
      rintro c₁ x w₁ ⟨hlooked₁, htried₁⟩
      have hlive₁ : ∀ j ∈ hs, ∃ r n, w₁.db.payments.lookup j = some r ∧
          PaymentLogs.PaymentLog n r.events .initiated := by
        intro j hj
        obtain ⟨rj, nj, hlj, hlogj⟩ := hlive j (List.mem_cons_of_mem _ hj)
        have hother : j ∉ [h] := fun hm => hout (List.mem_singleton.mp hm ▸ hj)
        exact ⟨rj, nj, (htried₁.kept j (.inl hother)).trans hlj, hlogj⟩
      refine Alone.mono ?_ (ih hrest hlive₁)
      rintro c₂ y w₂ ⟨hlooked₂, htried₂⟩
      constructor
      · rw [lookedUp_append, hlooked₁]
        exact congrArg ([h] ++ ·) hlooked₂
      · exact htried₁.cons htried₂ hout

/-- A tick looks up what it selects under its cap. -/
theorem sweepOrphanHolds_solo (cutoff : Timestamp) (hlogs : InitiatedLogs w.db) :
    Solo g A w none (sweepOrphanHolds idle n) fun calls _ w' =>
      (startOf calls).all (fun utcNow => sameBacklog idle cutoff utcNow w.db) = true →
        lookedUp none calls = (select (isStranded cutoff) w.db.payments).take n ∧
        Tried Ended (fun k => !A.concludes k) ((select (isStranded cutoff) w.db.payments).take n)
          w.db.payments w'.db.payments ∧ InitiatedLogs w'.db := by
  unfold sweepOrphanHolds
  apply solo_now
  intro utcNow
  by_cases hsame : sameBacklog idle cutoff utcNow w.db = true
  · have hlist := listStranded_eq (n := n) hsame
    refine alone_call fun r c w₁ hx hfit => ?_
    cases c <;> simp only [gateway, exec, reduceCtorEq] at hx
    case dbFault =>
      cases hx
      cases hfit
    case served t =>
      cases hx
      rw [hlist]
      have hlive : ∀ h ∈ (select (isStranded cutoff) w.db.payments).take n,
          ∃ r m, w.db.payments.lookup h = some r ∧ PaymentLogs.PaymentLog m r.events .initiated := by
        intro h hh
        obtain ⟨r, hr, hstranded⟩ := mem_select.mp (List.mem_of_mem_take hh)
        obtain ⟨m, hm⟩ := hlogs h r hr (of_decide_eq_true hstranded).1
        exact ⟨r, m, hr, hm⟩
      have hnodup := (select_nodup (isStranded cutoff) w.db.payments).sublist (List.take_sublist n _)
      refine Alone.mono ?_ (sweepStranded_solo hnodup hlive)
      rintro calls x w' ⟨hlooked, htried⟩ -
      exact ⟨hlooked, htried, hlogs.tried htried⟩
  · exact fun calls x w' _ _ _ hstart => absurd hstart hsame

/-- Ticks of the orphan-hold sweep in a row. -/
abbrev OrphanTicks (g : Deployment) (A : Assignment) (idle n : ℕ) (cutoff : Timestamp) :
    World → List Calls → World → Prop :=
  Rounds (gateway g) (A.answering g.crates) none (fun _ => (sweepOrphanHolds idle n).run)
    fun w calls => (startOf calls).all fun utcNow => sameBacklog idle cutoff utcNow w.db

/-- Ticks scan the payments table. -/
theorem orphanTicks_scan {ticks : List Calls} {w' : World}
    (h : OrphanTicks g A idle n cutoff w ticks w') (hlogs : InitiatedLogs w.db) :
    Scans (isStranded cutoff) Ended (fun k => !A.concludes k) n (lookedUp none) w.db.payments ticks
      w'.db.payments := by
  exact scans_of_rounds (fun _ => sweepOrphanHolds_solo cutoff) h hlogs

end

/-! ### One tick of the reconciliation sweep -/

def isHeld (r : InvoiceRow) : Bool := decide (r.state = "held")

theorem not_held (r : InvoiceRow) (h : InvoiceEnded r) : isHeld r = false := by
  obtain ⟨n, s, held, hs, -, hstate⟩ := h
  rcases hs with rfl | rfl <;> simp [isHeld, hstate, InvoiceState.asStr]

/-- Every row with the text of a held invoice holds the log of one. -/
def HeldLogs (g : Deployment) (db : Db) : Prop :=
  ∀ h r, db.invoices.lookup h = some r → isHeld r = true → HeldRow g h r

theorem HeldLogs.tried {g : Deployment} {db db' : Db} {stuck : PaymentHash → Bool}
    {ks : List PaymentHash} (h : HeldLogs g db)
    (htried : Tried InvoiceEnded stuck ks db.invoices db'.invoices) : HeldLogs g db' :=
  fun k r hr hheld => h k r (htried.lookup not_held hr hheld) hheld

section
variable {g : Deployment} {A : Assignment} {w : World} {n : ℕ}

theorem listHeld_select (db : Db) :
    Invoices.listHeld db n = .ok ((select isHeld db.invoices).take n) := by
  have hlimit : ¬(n : ℤ) < 0 := by omega
  rw [Invoices.listHeld, if_neg hlimit, Int.toNat_natCast, List.map_take]
  rfl

/-- The tries of a tick, one after the other. -/
theorem reconcileEach_solo {hs : List PaymentHash} {cur : Option PaymentHash} (hnodup : hs.Nodup)
    (hlive : ∀ h ∈ hs, ∃ r, w.db.invoices.lookup h = some r ∧ HeldRow g h r) :
    Solo g A w cur (reconcileEach hs) (Asks hs fun w' =>
      Tried InvoiceEnded (fun k => !A.reconciles k) hs w.db.invoices w'.db.invoices) := by
  induction hs generalizing w cur with
  | nil => exact alone_ret ⟨rfl, Tried.nil⟩
  | cons h hs ih =>
      obtain ⟨hout, hrest⟩ := List.nodup_cons.mp hnodup
      obtain ⟨r, hl, hheld⟩ := hlive h List.mem_cons_self
      unfold reconcileEach
      apply alone_attempt
      refine Alone.mono ?_ (reconcileHeldInvoice_solo hl hheld)
      rintro c₁ x w₁ ⟨hasked₁, htried₁⟩
      have hlive₁ : ∀ j ∈ hs, ∃ r, w₁.db.invoices.lookup j = some r ∧ HeldRow g j r := by
        intro j hj
        obtain ⟨rj, hlj, hheldj⟩ := hlive j (List.mem_cons_of_mem _ hj)
        have hother : j ∉ [h] := fun hm => hout (List.mem_singleton.mp hm ▸ hj)
        exact ⟨rj, (htried₁.kept j (.inl hother)).trans hlj, hheldj⟩
      refine Alone.mono ?_ (ih hrest hlive₁)
      rintro c₂ y w₂ ⟨hasked₂, htried₂⟩
      constructor
      · have happend : askedFor (c₁ ++ c₂) = askedFor c₁ ++ askedFor c₂ := List.filterMap_append
        rw [hasked₁] at happend
        exact happend.trans (congrArg ([h] ++ ·) hasked₂)
      · exact htried₁.cons htried₂ hout

/-- A tick looks up what it selects under its cap. -/
theorem invoiceReconciliationSweep_solo {cur : Option PaymentHash} (hlogs : HeldLogs g w.db) :
    Solo g A w cur (invoiceReconciliationSweep (Invoices.listHeld w.db n))
      (Asks ((select isHeld w.db.invoices).take n) fun w' =>
        Tried InvoiceEnded (fun k => !A.reconciles k) ((select isHeld w.db.invoices).take n)
          w.db.invoices w'.db.invoices ∧ HeldLogs g w'.db) := by
  have hlive : ∀ h ∈ (select isHeld w.db.invoices).take n,
      ∃ r, w.db.invoices.lookup h = some r ∧ HeldRow g h r := by
    intro h hh
    obtain ⟨r, hr, hheld⟩ := mem_select.mp (List.mem_of_mem_take hh)
    exact ⟨r, hr, hlogs h r hr hheld⟩
  have hnodup := (select_nodup isHeld w.db.invoices).sublist (List.take_sublist n _)
  rw [listHeld_select]
  refine Alone.mono ?_ (reconcileEach_solo hnodup hlive)
  rintro calls x w' ⟨hasked, htried⟩
  exact ⟨hasked, htried, hlogs.tried htried⟩

/-- Ticks of the reconciliation sweep in a row. -/
abbrev HeldTicks (g : Deployment) (A : Assignment) (n : ℕ) : World → List Calls → World → Prop :=
  Rounds (gateway g) (A.answering g.crates) none
    (fun w => (invoiceReconciliationSweep (Invoices.listHeld w.db n)).run) fun _ _ => true

/-- Ticks scan the invoices table. -/
theorem heldTicks_scan {ticks : List Calls} {w' : World} (h : HeldTicks g A n w ticks w')
    (hlogs : HeldLogs g w.db) :
    Scans isHeld InvoiceEnded (fun k => !A.reconciles k) n askedFor w.db.invoices ticks
      w'.db.invoices := by
  exact scans_of_rounds (fun _ hlogs => Alone.mono (fun _ _ _ hasks _ => hasks)
    (invoiceReconciliationSweep_solo hlogs)) h hlogs

end

/-! ### What ticks in a row reach -/

section
variable {g : Deployment} {D : Discipline (gateway g)} {s : Pool (gateway g)}
variable {es : List (Event (gateway g))}

theorem initiatedLogs_run (h : Runs D (boot g) es s) : InitiatedLogs s.world.db := by
  intro k r hr hstate
  obtain ⟨n, state, hlog, -⟩ := (GatewayInvariant.dbOk_run h).payments k r hr
  have htext := ProjectionColumns.payment_text (ProjectionColumns.columns_agree h)
    (Table.lookup_mem hr) .initiated
  have hreplay := htext.mp hstate
  rw [ProjectionColumns.replayed_of_paymentLog hlog] at hreplay
  cases hreplay
  exact ⟨n, hlog⟩

theorem heldLogs_run (h : Runs D (boot g) es s) : HeldLogs g s.world.db := by
  intro k r hr hheld
  obtain ⟨n, state, held, hlog, -, hpre⟩ := (GatewayInvariant.dbOk_run h).invoices k r hr
  have htext := ProjectionColumns.invoice_text (ProjectionColumns.columns_agree h)
    (Table.lookup_mem hr) .held
  have hreplay := htext.mp (of_decide_eq_true hheld)
  rw [ProjectionColumns.replayed_of_invoiceLog hlog] at hreplay
  cases hreplay
  exact ⟨n, held, hlog, hpre⟩

/-- Every stranded payment has been looked up, and has come to its end if LND says how. -/
def PaymentsReached (A : Assignment) (cutoff : Timestamp) (db db' : Db) (ticks : List Calls) :
    Prop :=
  ∀ k ∈ select (isStranded cutoff) db.payments,
    (∃ calls ∈ ticks, k ∈ lookedUp none calls) ∧
      (A.concludes k = true → ∃ p, Payments.findByPaymentHash db' k = .ok p ∧
        (p.state = .completed ∨ p.state = .failed))

/-- Every held invoice has been looked up, and has come to its end if LND lets it. -/
def InvoicesReached (A : Assignment) (db db' : Db) (ticks : List Calls) : Prop :=
  ∀ k ∈ select isHeld db.invoices,
    (∃ calls ∈ ticks, k ∈ askedFor calls) ∧
      (A.reconciles k = true → ∃ i, Invoices.findByPaymentHash db' k = .ok i ∧
        (i.state = .settled ∨ i.state = .canceled))

theorem payments_reached_iff {A : Assignment} {idle n : ℕ} {cutoff : Timestamp}
    {ticks : List Calls} {w : World} (hrun : Runs D (boot g) es s)
    (hticks : OrphanTicks g A idle n cutoff s.world ticks w) :
    PaymentsReached A cutoff s.world.db w.db ticks ↔
      (select (isStranded cutoff) s.world.db.payments).length +
        revisits n (fun k => !A.concludes k) ticks.length 0
          (select (isStranded cutoff) s.world.db.payments) ≤ n * ticks.length := by
  have hscans := orphanTicks_scan hticks (initiatedLogs_run hrun)
  rw [← hscans.reach_iff not_stranded]
  constructor
  · exact fun h k hk => (h k hk).1
  · intro h k hk
    obtain ⟨calls, hcalls, hlooked⟩ := h k hk
    refine ⟨⟨calls, hcalls, hlooked⟩, fun hconcludes => ?_⟩
    obtain ⟨r, hr, n, state, hstate, hlog, -⟩ := hscans.done not_stranded hcalls hlooked
      (by rw [hconcludes]; rfl)
    obtain ⟨p, hp, -, -, hs, -⟩ := PaymentLogs.hydrate_log r.id hlog
    rw [← hs] at hstate
    refine ⟨p, ?_, hstate⟩
    rw [Payments.findByPaymentHash, hr]
    exact hp

/-- When LND gives no outcome for as many payments as the cap admits, the payments behind
them are not looked up, however many ticks there are. -/
theorem backlog_blocked {A : Assignment} {idle n : ℕ} {cutoff : Timestamp} {ticks : List Calls}
    {w : World} (hrun : Runs D (boot g) es s)
    (hticks : OrphanTicks g A idle n cutoff s.world ticks w)
    (hstuck : ∀ k ∈ (select (isStranded cutoff) s.world.db.payments).take n, A.concludes k = false)
    {calls : Calls} {k : PaymentHash} (hcalls : calls ∈ ticks) (hk : k ∈ lookedUp none calls) :
    k ∈ (select (isStranded cutoff) s.world.db.payments).take n := by
  have hscans := orphanTicks_scan hticks (initiatedLogs_run hrun)
  have hvisited := (hscans.mem_looks not_stranded).mp ⟨calls, hcalls, hk⟩
  apply visited_of_stuck _ hvisited
  intro j hj
  rw [hstuck j hj]
  rfl

theorem invoices_reached_iff {A : Assignment} {n : ℕ} {ticks : List Calls} {w : World}
    (hrun : Runs D (boot g) es s) (hticks : HeldTicks g A n s.world ticks w) :
    InvoicesReached A s.world.db w.db ticks ↔
      (select isHeld s.world.db.invoices).length +
        revisits n (fun k => !A.reconciles k) ticks.length 0 (select isHeld s.world.db.invoices) ≤
          n * ticks.length := by
  have hscans := heldTicks_scan hticks (heldLogs_run hrun)
  rw [← hscans.reach_iff not_held]
  constructor
  · exact fun h k hk => (h k hk).1
  · intro h k hk
    obtain ⟨calls, hcalls, hasked⟩ := h k hk
    refine ⟨⟨calls, hcalls, hasked⟩, fun hreconciles => ?_⟩
    obtain ⟨r, hr, n, state, held, hstate, hlog, -⟩ := hscans.done not_held hcalls hasked
      (by rw [hreconciles]; rfl)
    obtain ⟨i, hi, -, -, hs, -⟩ := InvoiceLogs.hydrate_log r.id hlog
    rw [← hs] at hstate
    refine ⟨i, ?_, hstate⟩
    rw [Invoices.findByPaymentHash, hr]
    exact hi

/-- From any state the gateway reaches, as many ticks as it takes to select `k` rows `n` at
a time. The orphan-hold sweep has looked up every stranded payment, and ended each that LND
knows the end of, if and only if the slots that go to payments looked up before are slots
to spare; and the reconciliation sweep likewise for the held invoices. -/
theorem sweeps_reach_iff (hrun : Runs D (boot g) es s) (A : Assignment) (n : ℕ) :
    (∀ idle cutoff ticks w, OrphanTicks g A idle n cutoff s.world ticks w →
      let stranded := select (isStranded cutoff) s.world.db.payments
      ticks.length = stranded.length ⌈/⌉ n →
      (PaymentsReached A cutoff s.world.db w.db ticks ↔
        stranded.length + revisits n (fun k => !A.concludes k) (stranded.length ⌈/⌉ n) 0 stranded ≤
          n * (stranded.length ⌈/⌉ n))) ∧
    (∀ ticks w, HeldTicks g A n s.world ticks w →
      let held := select isHeld s.world.db.invoices
      ticks.length = held.length ⌈/⌉ n →
      (InvoicesReached A s.world.db w.db ticks ↔
        held.length + revisits n (fun k => !A.reconciles k) (held.length ⌈/⌉ n) 0 held ≤
          n * (held.length ⌈/⌉ n))) := by
  constructor
  · intro idle cutoff ticks w hticks stranded hlength
    rw [← hlength]
    exact payments_reached_iff hrun hticks
  · intro ticks w hticks held hlength
    rw [← hlength]
    exact invoices_reached_iff hrun hticks

end

/-! ### Two stranded payments and a held invoice

The sample invoice and one that differs from it in its hash are both sent and then lost
from sight by a crash; an invoice of the gateway's own is held. -/

namespace Backlog

def preimage₂ : Preimage :=
  ⟨[32, 33, 34, 35, 36, 37, 38, 39, 40, 41, 42, 43, 44, 45, 46, 47, 48, 49, 50, 51, 52, 53, 54,
    55, 56, 57, 58, 59, 60, 61, 62, 63], rfl⟩

/-- The SHA-256 digest of `preimage₂`. -/
def hash₂ : PaymentHash :=
  ⟨[114, 219, 183, 51, 108, 118, 120, 0, 35, 248, 61, 164, 195, 85, 242, 238, 234, 133, 115, 59,
    19, 211, 71, 118, 151, 145, 119, 144, 193, 34, 144, 132], rfl⟩

def text₂ : String :=
  "lnbc2500u1pvjluezsp5zyg3zyg3zyg3zyg3zyg3zyg3zyg3zyg3zyg3zyg3zyg3zyg3zygspp5wtdmwvmvweuqqglc8kjv" ++
  "x40jam4g2uemz0f5wa5hj9mepsfzjzzqdq5xysxxatsyp3k7enxv4jsxqzpu9qrsgqtfrxcu7fujuk0c0wmf37p8dsezja5" ++
  "yq98sequpggsjrw944nf5qs2udhwzxsdxyfvgtk332wecpd9t6gyrdnf8m5y035czgwwkmh67gqmurpvd"

/-- What `text₂` decodes to. -/
def invoice₂ : Bolt11Invoice :=
  ⟨hash₂, Sample.payee, some 250000000, 1496314718000000000, Sample.invoice.bounded⟩

def preimage₃ : Preimage :=
  ⟨[64, 65, 66, 67, 68, 69, 70, 71, 72, 73, 74, 75, 76, 77, 78, 79, 80, 81, 82, 83, 84, 85, 86,
    87, 88, 89, 90, 91, 92, 93, 94, 95], rfl⟩

/-- The SHA-256 digest of `preimage₃`. -/
def hash₃ : PaymentHash :=
  ⟨[202, 42, 79, 231, 39, 250, 174, 207, 22, 236, 209, 48, 168, 110, 8, 133, 197, 84, 12, 5, 55,
    83, 64, 68, 80, 113, 192, 101, 117, 85, 253, 66], rfl⟩

/-- The invoice that LND issues for `hash₃`. -/
def text₃ : String :=
  "lnbc2500u1pvjluezsp5zyg3zyg3zyg3zyg3zyg3zyg3zyg3zyg3zyg3zyg3zyg3zyg3zygspp5eg4ylee8l2hv79hv6yc2" ++
  "smsgshz4grq9xaf5q3zsw8qx2a24l4pqdq5xysxxatsyp3k7enxv4jsxqzpu9qrsgq35a00ce47c6nmkpzzu7h63m37lel3" ++
  "auv6qmkfy4s8fm5yqlh3sy8r3xy6zjln5m4s8zq0u3guxfhh89f9gygdzfgjxgfrq2cwuf8kjgpfny4yw"

def crates : Crates where
  bolt11 s :=
    if s = Sample.text then .ok Sample.invoice
    else if s = text₂ then .ok invoice₂
    else .error "not an invoice of this run"
  sha256 p :=
    if p = Sample.preimage then Sample.hash
    else if p = preimage₂ then hash₂
    else if p = preimage₃ then hash₃
    else ⟨p.bytes, p.size⟩

def deployment : Deployment := ⟨crates, .live⟩

/-- Task `i` sends the invoice to LND, which takes it. -/
def send (i : ℕ) (text : String) (h : PaymentHash) (id : Uuid) : List (Event (gateway deployment)) :=
  [.spawn (.sendPayment ⟨Sample.caller, Sample.payerWallet, text, none⟩),
    .step i (.clock Sample.noon), .step i (.ownership (.ok ())), .step i (.clock Sample.noon),
    .step i (.served Sample.noon), .step i (.uuid id), .step i (.clock Sample.noon),
    .step i (.served Sample.noon), .step i (.symphony true Sample.approval),
    .step i (.lndUnit true (.ok ())), .env (.receive h)]

/-- Task `i` issues an invoice for `hash₃`, and task `i + 1` hears that it is accepted. -/
def hold (i : ℕ) : List (Event (gateway deployment)) :=
  [.spawn (.createInvoice Sample.invoiceRequest), .step i (.clock Sample.noon),
    .step i (.ownership (.ok ())), .step i (.preimage preimage₃),
    .step i (.lndAdded true (.ok text₃)), .step i (.uuid Sample.invoiceId),
    .step i (.served Sample.noon), .step i .done, .env (.acceptHtlc hash₃),
    .spawn (.handleInvoiceUpdate ⟨hash₃, .accepted, ⟨250000000⟩, none⟩),
    .step (i + 1) (.served Sample.noon), .step (i + 1) (.clock Sample.noon),
    .step (i + 1) (.clock Sample.noon), .step (i + 1) (.served Sample.noon)]

/-- The run up to the crash. -/
def run : List (Event (gateway deployment)) :=
  send 0 Sample.text Sample.hash Sample.paymentId ++
    send 1 text₂ hash₂ Sample.invoiceId ++ hold 2 ++ [.crash]

/-- A moment later. -/
def later : Timestamp := ⟨Sample.noon.nanos + 1⟩

/-- LND's message about a payment. -/
def message (h : PaymentHash) (status : ℤ) (preimageText : String) :
    Except Status (Option WirePayment) :=
  .ok (some ⟨h.toHex, preimageText, status, 0, [], 0⟩)

/-- One of the payments is in flight and the other has failed; the invoice is settled. -/
def assignment (failed : PaymentHash) : Assignment where
  late _ := false
  trackPaymentV2 _ := .ok ()
  trackPaymentMessage h := message h (if h = failed then 3 else 1) ""
  lookupInvoice h := .ok ⟨h.bytes, 1, 250000000, []⟩
  settleInvoice _ := .ok ()

/-- The choices of a tick that looks up the payment `h`, and ends it if it has failed. -/
def tick (failed h : PaymentHash) : List Choice :=
  [.clock later, .served later, .served later, .clock later, .elapsed false, .lndUnit true (.ok ()),
    .lndPayment ((assignment failed).trackPaymentMessage h)] ++
    if h = failed then [.clock later, .served later] else []

/-- Two ticks of the orphan-hold sweep with a cap of one row. -/
def orphanTicks (failed h₁ h₂ : PaymentHash) (w : World) : Option (List Calls × World) :=
  playRounds (gateway deployment) ((assignment failed).answering crates) none
    (fun _ => (sweepOrphanHolds 0 (1 : ℕ)).run)
    (fun w calls => (startOf calls).all fun utcNow => sameBacklog 0 later utcNow w.db) w
    [tick failed h₁, tick failed h₂]

/-- A tick of the reconciliation sweep that finds the invoice settled. -/
def heldTick (failed : PaymentHash) (w : World) : Option (List Calls × World) :=
  playRounds (gateway deployment) ((assignment failed).answering crates) none
    (fun w => (invoiceReconciliationSweep (Invoices.listHeld w.db (1 : ℕ))).run) (fun _ _ => true) w
    [[.served later, .lndInvoice ((assignment failed).lookupInvoice hash₃), .clock later,
      .clock later, .served later]]

end Backlog

/-- The payment that failed stands first, so both ticks reach what they should. -/
theorem sweeps_reach_iff_backlog :
    ∃ s ticks w ticks' w', Runs {} (boot Backlog.deployment) Backlog.run s ∧
      Backlog.orphanTicks Sample.hash Sample.hash Backlog.hash₂ s.world = some (ticks, w) ∧
      PaymentsReached (Backlog.assignment Sample.hash) Backlog.later s.world.db w.db ticks ∧
      Backlog.heldTick Sample.hash s.world = some (ticks', w') ∧
      InvoicesReached (Backlog.assignment Sample.hash) s.world.db w'.db ticks' := by
  obtain ⟨s, hrun, hc⟩ := exists_run_of_play {} (boot Backlog.deployment) Backlog.run
    (fun s => decide (select (isStranded Backlog.later) s.world.db.payments =
        [Sample.hash, Backlog.hash₂]) && decide (select isHeld s.world.db.invoices = [Backlog.hash₃])
      && (Backlog.orphanTicks Sample.hash Sample.hash Backlog.hash₂ s.world).any
        (fun r : List Calls × World => decide (r.1.length = 2))
      && (Backlog.heldTick Sample.hash s.world).any (fun r : List Calls × World =>
        decide (r.1.length = 1)))
    (by decide +kernel)
  simp only [Bool.and_eq_true, decide_eq_true_eq, Option.any_eq_true] at hc
  obtain ⟨⟨⟨hstranded, hheld⟩, ⟨ticks, w⟩, hticks, hlen⟩, ⟨ticks', w'⟩, hticks', hlen'⟩ := hc
  obtain ⟨hpayments, hinvoices⟩ := sweeps_reach_iff hrun (Backlog.assignment Sample.hash) 1
  refine ⟨s, ticks, w, ticks', w', hrun, hticks, ?_, hticks', ?_⟩
  · refine (hpayments 0 Backlog.later ticks w (rounds_of_play hticks) ?_).mpr ?_
    · rw [hstranded, hlen]
      rfl
    · rw [hstranded]
      decide +kernel
  · refine (hinvoices ticks' w' (rounds_of_play hticks') ?_).mpr ?_
    · rw [hheld, hlen']
      rfl
    · rw [hheld]
      decide +kernel

/-- The payment that failed stands behind one in flight, which takes the only slot of both
ticks: it has failed at LND, and no tick has asked. -/
theorem failed_payment_not_reached :
    ∃ s ticks w, Runs {} (boot Backlog.deployment) Backlog.run s ∧
      OrphanTicks Backlog.deployment (Backlog.assignment Backlog.hash₂) 0 1 Backlog.later s.world
        ticks w ∧
      ticks.length = (select (isStranded Backlog.later) s.world.db.payments).length ⌈/⌉ 1 ∧
      ¬PaymentsReached (Backlog.assignment Backlog.hash₂) Backlog.later s.world.db w.db ticks := by
  obtain ⟨s, hrun, hc⟩ := exists_run_of_play {} (boot Backlog.deployment) Backlog.run
    (fun s => decide (select (isStranded Backlog.later) s.world.db.payments =
        [Sample.hash, Backlog.hash₂])
      && (Backlog.orphanTicks Backlog.hash₂ Sample.hash Sample.hash s.world).any
        (fun r : List Calls × World =>
          decide (r.1.map (lookedUp none) = [[Sample.hash], [Sample.hash]])))
    (by decide +kernel)
  simp only [Bool.and_eq_true, decide_eq_true_eq, Option.any_eq_true] at hc
  obtain ⟨hstranded, ⟨ticks, w⟩, hticks, hlooked⟩ := hc
  refine ⟨s, ticks, w, hrun, rounds_of_play hticks, ?_, ?_⟩
  · have hlen : ticks.length = 2 := by
      have h := congrArg List.length hlooked
      rwa [List.length_map] at h
    rw [hstranded, hlen]
    rfl
  · intro hreached
    have hmem : Backlog.hash₂ ∈ select (isStranded Backlog.later) s.world.db.payments := by
      rw [hstranded]
      exact List.mem_cons_of_mem _ List.mem_cons_self
    obtain ⟨⟨calls, hcalls, hh⟩, -⟩ := hreached Backlog.hash₂ hmem
    have hlook : lookedUp none calls ∈ ticks.map (lookedUp none) := List.mem_map_of_mem hcalls
    rw [hlooked] at hlook
    have honly : lookedUp none calls = [Sample.hash] := by simpa using hlook
    rw [honly] at hh
    exact absurd hh (by decide +kernel)

end LightningGateway.SweepProgress
