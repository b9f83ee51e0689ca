import LightningGateway.LagRecovery

/-!
# Every run has one without lags

Take a run in which streams lag. In the same run a stream whose buffer is never
overwritten starts alike, since nothing reads the buffer before the stream is live;
there it can wait until the other one is done, and then take its rows from the
buffer. It ends up telling its client the same.
-/
namespace LightningGateway.LagFreeRuns
open Primitives TaskPools GuardedRuns OutboxRows GatewayStore GatewayMachine
open StatusMapping StatusFeed StatusRows FeedSteps FeedInvariant StatusReplay FeedGaps LagRecovery
open EventStream (countAfter maxBackfillEvents)

variable {g : Deployment} {db : Db} {s t u v : StatusStream} {f f' : Feed g}

/-- No buffer is overwritten. -/
def lagFree (f : Feed g) (e : FeedEvent g) : Bool :=
  lossless f e && match e with
    | .stream _ (.overflow _) => false
    | _ => true

theorem lossless_of_lagFree {es : List (FeedEvent g)} (hrun : Feeds lagFree es f) :
    Feeds lossless es f := by
  refine hrun.admitted (J := fun _ => True) (fun _ _ _ _ _ _ => trivial) ?_ trivial
  intro f e hadm _
  exact (Bool.and_eq_true_iff.mp hadm).1

/-! ### Twins -/

/-- The same stream with another buffer. -/
def rebuffer (s : StatusStream) (buffer : List OutboxEvent) : StatusStream :=
  { s with buffer, lagged := false }

/-- The twin of a stream is the same but for its buffer, or it waits where the stream
became live. -/
inductive Twin (s : StatusStream) : StatusStream → Prop where
  | early (buffer : List OutboxEvent) : s.phase ≠ .live → Twin s (rebuffer s buffer)
  | behind {u : StatusStream} :
      u.paymentHash = s.paymentHash ∧ u.resume = s.resume ∧ u.attachedAt = s.attachedAt →
      s.derived = some .pending → u.derived = some .pending → u.phase = .live →
      u.lagged = false → u.cursor ≤ s.cursor → Twin s u

section
variable (b : List OutboxEvent) (row : OutboxEvent) (accepted : Bool) (k : Phase)

@[simp] theorem rebuffer_phase : (rebuffer s b).phase = s.phase := rfl
@[simp] theorem rebuffer_cursor : (rebuffer s b).cursor = s.cursor := rfl
@[simp] theorem rebuffer_emitter : (rebuffer s b).emitter = s.emitter := rfl
@[simp] theorem rebuffer_paymentHash : (rebuffer s b).paymentHash = s.paymentHash := rfl
@[simp] theorem rebuffer_resume : (rebuffer s b).resume = s.resume := rfl

theorem send_rebuffer (hu : u = rebuffer s b) (m : Emission) :
    u.send m accepted k = rebuffer (s.send m accepted k) b := by
  subst hu
  cases accepted <;> rfl

theorem emitForEvent_rebuffer (hu : u = rebuffer s b) (db : Db) :
    u.emitForEvent db row accepted k = rebuffer (s.emitForEvent db row accepted k) b := by
  subst hu
  unfold StatusStream.emitForEvent
  simp only [rebuffer_emitter]
  split
  · rfl
  · split
    · rfl
    · rfl
    · apply send_rebuffer
      rfl

theorem handle_rebuffer (db : Db) :
    (rebuffer s b).handle db row accepted k = rebuffer (s.handle db row accepted k) b := by
  unfold StatusStream.handle
  by_cases href : row.referenceId = s.paymentHash.toHex
  · simp only [rebuffer_paymentHash, href, if_true]
    apply emitForEvent_rebuffer
    rfl
  · simp only [rebuffer_paymentHash, href, if_false]
    rfl

/-- Before a stream is live, no step reads the buffer. -/
theorem step_rebuffer {x : StreamStep} (hlive : s.phase ≠ .live)
    (hover : ∀ n, x ≠ .overflow n) :
    (rebuffer s b).step db x = (s.step db x).map fun t => rebuffer t b := by
  cases x with
  | lookUp read =>
      simp only [StatusStream.step, StatusStream.lookUp, rebuffer_phase]
      split <;> rfl
  | derive now accepted =>
      cases hp : s.phase with
      | lookedUp source read =>
          simp only [StatusStream.step, StatusStream.derive, rebuffer, hp]
          generalize initialStatus ((lookupInvoice source s.paymentHash read).map
            fun i => (i.state, i.expiryAt)) now = st
          by_cases hsay : s.resume = none ∨ isTerminal st = true
          · simp only [hsay, if_true]
            cases s.emitter.next st with
            | mk status emitter =>
                cases status with
                | none => rfl
                | some status => cases accepted <;> rfl
          · simp only [hsay, if_false]
            rfl
      | _ => simp only [StatusStream.step, StatusStream.derive, rebuffer, hp, Option.map_none]
  | count read accepted =>
      simp only [StatusStream.step, StatusStream.count, rebuffer_phase, rebuffer_cursor]
      split
      · cases read with
        | false => rfl
        | true =>
            by_cases hmany : maxBackfillEvents < countAfter db.outbox s.cursor
            · simp only [hmany, if_true]
              exact congrArg some (send_rebuffer b accepted .closed rfl _)
            · simp only [hmany, if_true, if_false]
              rfl
      · rfl
  | page read =>
      simp only [StatusStream.step, StatusStream.page, rebuffer_phase, rebuffer_cursor]
      split
      · cases read with
        | false => rfl
        | true =>
            simp only [if_true]
            split <;> rfl
      · rfl
  | scan accepted =>
      simp only [StatusStream.step, StatusStream.scan, rebuffer_phase]
      split
      · exact congrArg some (handle_rebuffer b _ accepted _ db)
      · rfl
  | pay read accepted =>
      simp only [StatusStream.step, StatusStream.pay, rebuffer_phase]
      split
      · exact congrArg some (send_rebuffer b accepted .closed rfl _)
      · rfl
  | receive accepted =>
      simp only [StatusStream.step, StatusStream.receive, rebuffer_phase]
      rfl
  | overflow n => exact absurd rfl (hover n)
  | leave =>
      simp only [StatusStream.step, StatusStream.leave, rebuffer_phase]
      rfl

end

/-- Where the stream takes a step, its twin waits or takes the same. -/
theorem Twin.step {ingest : Ingest} {x : StreamStep} (hr : Replayed s)
    (hI : Followed db ingest s) (ht : s.step db x = some t) (hu : Twin s u) :
    Twin t u ∨ (∀ n, x ≠ .overflow n) ∧ s.phase ≠ .live ∧ u.cursor = s.cursor ∧
      ∃ v, u.step db x = some v ∧ Twin t v := by
  have hstep := step_spec ht
  cases hu with
  | early b hlive =>
      by_cases hover : ∃ n, x = .overflow n
      · left
        obtain ⟨n, rfl⟩ := hover
        cases hstep with
        | overflowed _ _ _ => exact .early b hlive
      · right
        rw [not_exists] at hover
        refine ⟨hover, hlive, rfl, rebuffer t b, ?_, ?_⟩
        · rw [step_rebuffer b hlive hover, ht]
          rfl
        · by_cases hp : t.phase = .live
          · have hd := (hr.step hstep).live_derived hp
            exact .behind ⟨rfl, rfl, rfl⟩ hd hd hp rfl le_rfl
          · exact .early b hp
  | behind hsame hd hd' hp hlag hle =>
      left
      obtain ⟨hh, hres, hat⟩ := hstep.frame
      refine .behind ?_ (hr.derived_kept hd hstep) hd' hp hlag (hle.trans (hI.cursor_le hstep))
      rwa [hh, hres, hat]

theorem Twin.offer (hu : Twin s u) (row : OutboxEvent) : Twin (s.offer row) (u.offer row) := by
  cases hu with
  | early b hlive =>
      have hphase : (s.offer row).phase = s.phase := by rw [offer_frame]
      have heq : (rebuffer s b).offer row = rebuffer (s.offer row) ((rebuffer s b).offer row).buffer := by
        rw [offer_frame s row, offer_frame (rebuffer s b) row]
        rfl
      rw [heq]
      exact .early _ (hphase ▸ hlive)
  | behind hsame hd hd' hp hlag hle =>
      rw [offer_frame s row, offer_frame u row]
      exact .behind hsame hd hd' hp hlag hle

/-! ### Runs of twins -/

/-- The same state with other streams. -/
def withStreams (f : Feed g) (streams : List StatusStream)
    (refused : List LnInvoicePaymentStatusPayload) : Feed g :=
  { f with streams, refused }

/-- Without lags one gets to the same state, but for the twins of the streams. -/
def HasTwin (f : Feed g) : Prop :=
  ∃ es us refused, Feeds lagFree es (withStreams f us refused) ∧ List.Forall₂ Twin f.streams us

variable {us : List StatusStream} (refused : List LnInvoicePaymentStatusPayload)

/-- The gateway does not look at the streams. -/
theorem app_withStreams {e : Event (gateway g)} (h : f.app e = some f')
    (htwins : List.Forall₂ Twin f.streams us) :
    ∃ us', (withStreams f us refused).app e = some (withStreams f' us' refused) ∧
      List.Forall₂ Twin f'.streams us' := by
  unfold Feed.app at h ⊢
  simp only [withStreams]
  cases hpool : f.pool.next e with
  | none =>
      rw [hpool] at h
      cases h
  | some pool =>
      rw [hpool] at h
      cases e with
      | crash =>
          cases h
          exact ⟨[], rfl, .nil⟩
      | step i c | spawn x | env x =>
          cases h
          exact ⟨us, rfl, htwins⟩

theorem ingest_withStreams {read : RowRead} (h : f.ingestNext read = some f')
    (htwins : List.Forall₂ Twin f.streams us) :
    ∃ us', (withStreams f us refused).ingestNext read = some (withStreams f' us' refused) ∧
      List.Forall₂ Twin f'.streams us' := by
  have hdb : (withStreams f us refused).db = f.db := rfl
  unfold Feed.ingestNext at h ⊢
  rw [hdb]
  simp only [withStreams]
  split at h
  case h_1 => cases h
  case h_2 rest hch =>
    cases h
    exact ⟨us, rfl, htwins⟩
  case h_3 q rest hch =>
    split at h
    case h_1 row hfind =>
      cases h
      refine ⟨us.map fun s => s.offer row, rfl, ?_⟩
      exact List.forall₂_map_left_iff.mpr (List.forall₂_map_right_iff.mpr
        (htwins.imp fun s u hu => hu.offer row))
    case h_2 hno =>
      cases h
      exact ⟨us, rfl, htwins⟩

theorem twin_attach (db : Db) (h : PaymentHash) (resume : Option ℤ) :
    Twin (.attach db h resume) (.attach db h resume) := by
  refine .early [] ?_
  cases resume <;> simp [StatusStream.attach]

theorem subscribe_withStreams (input : StatusInput) (configured : Bool) (resume : Option ℤ)
    (htwins : List.Forall₂ Twin f.streams us) :
    ∃ us' refused', (withStreams f us refused).subscribe input configured resume =
        withStreams (f.subscribe input configured resume) us' refused' ∧
      List.Forall₂ Twin (f.subscribe input configured resume).streams us' := by
  unfold Feed.subscribe
  split
  · exact ⟨_, _, rfl, List.rel_append htwins (.cons (twin_attach _ _ _) .nil)⟩
  · exact ⟨us, _, rfl, htwins⟩
  · exact ⟨us, _, rfl, htwins⟩

variable {refused}

/-- The twin's step is admitted as well: it counts from the same cursor. -/
theorem lagFree_twin {i : ℕ} {x : StreamStep} (hs : f.streams[i]? = some s)
    (hu : us[i]? = some u) (hover : ∀ n, x ≠ .overflow n) (hcursor : u.cursor = s.cursor)
    (hadm : lossless f (.stream i x) = true) :
    lagFree (withStreams f us refused) (.stream i x) = true := by
  have hu' : (withStreams f us refused).streams[i]? = some u := hu
  have hdb : (withStreams f us refused).db = f.db := rfl
  cases x with
  | overflow n => exact absurd rfl (hover n)
  | count read accepted =>
      simp only [lossless, hs, Option.all_some] at hadm
      simp only [lagFree, lossless, hu', hdb, hcursor, Option.all_some, Bool.and_true]
      exact hadm
  | _ =>
      simp only [lagFree, Bool.and_true]
      exact hadm

theorem HasTwin.next {es : List (FeedEvent g)} {e : FeedEvent g} (hrun : Feeds lossless es f)
    (hadm : lossless f e = true) (h : f.next e = some f') (hI : HasTwin f) : HasTwin f' := by
  obtain ⟨es', us, refused, hrun', htwins⟩ := hI
  have extend {f₂ : Feed g} (hadm' : lagFree (withStreams f us refused) e = true)
      (hnext : (withStreams f us refused).next e = some f₂) : Feeds lagFree (es' ++ [e]) f₂ :=
    hrun'.append (run_cons.mpr ⟨hadm', f₂, hnext, rfl⟩)
  cases e with
  | app e =>
      obtain ⟨us', happ, htwins'⟩ := app_withStreams refused h htwins
      refine ⟨_, us', refused, extend ?_ happ, htwins'⟩
      have happ' : f.app e = some f' := h
      simp only [lossless, happ', Option.all_some] at hadm
      simp only [lagFree, lossless, happ, Option.all_some, Bool.and_true]
      exact hadm
  | relay x =>
      obtain ⟨ingest, hrelay, rfl⟩ := Option.map_eq_some_iff.mp h
      refine ⟨_, us, refused, extend rfl ?_, htwins⟩
      exact Option.map_eq_some_iff.mpr ⟨ingest, hrelay, rfl⟩
  | ingest read =>
      obtain ⟨us', hingest, htwins'⟩ := ingest_withStreams refused h htwins
      refine ⟨_, us', refused, extend ?_ hingest, htwins'⟩
      simp only [lagFree, Bool.and_true]
      exact hadm
  | subscribe input configured resume =>
      cases h
      obtain ⟨us', refused', hsub, htwins'⟩ :=
        subscribe_withStreams refused input configured resume htwins
      refine ⟨_, us', refused', extend ?_ (congrArg some hsub), htwins'⟩
      simp only [lagFree, Bool.and_true]
      exact hadm
  | stream i x =>
      simp only [Feed.next] at h
      split at h
      case h_1 => cases h
      case h_2 s hget =>
        obtain ⟨t, ht, rfl⟩ := Option.map_eq_some_iff.mp h
        have hs := List.mem_of_getElem? hget
        have hI := followed_run (unbroken_of_lossless hrun) s hs
        have hrel := forall₂_get htwins i
        rw [hget] at hrel
        cases hgetu : us[i]? with
        | none =>
            rw [hgetu] at hrel
            cases hrel
        | some u =>
            rw [hgetu] at hrel
            cases hrel with
            | some hu =>
                obtain hstays | ⟨hover, hlive, hcursor, v, hv, htwin⟩ :=
                  hu.step (replayed_run hrun s hs) hI ht
                · refine ⟨es', us, refused, hrun', ?_⟩
                  have hset := forall₂_set htwins i hstays
                  obtain ⟨hi, rfl⟩ := List.getElem?_eq_some_iff.mp hgetu
                  rwa [List.set_getElem_self] at hset
                · have hadm' : lagFree (withStreams f us refused) (.stream i x) = true :=
                    lagFree_twin hget hgetu hover hcursor hadm
                  refine ⟨_, us.set i v, refused, extend hadm' ?_, forall₂_set htwins i htwin⟩
                  have hgetu' : (withStreams f us refused).streams[i]? = some u := hgetu
                  have hv' : u.step (withStreams f us refused).db x = some v := hv
                  simp only [Feed.next, hgetu', hv', Option.map_some]
                  rfl

/-- For every run without losses there is one without lags, up to twins. -/
theorem hasTwin_run {es : List (FeedEvent g)} (hrun : Feeds lossless es f) : HasTwin f := by
  have hboot : HasTwin (Feed.boot g) := ⟨[], [], [], rfl, .nil⟩
  have hall : (∃ es, Feeds lossless es f) ∧ HasTwin f := by
    refine hrun.invariant (J := fun f => (∃ es, Feeds lossless es f) ∧ HasTwin f) ?_
      ⟨⟨[], rfl⟩, hboot⟩
    rintro f e f' hadm h ⟨⟨es, hrun⟩, hI⟩
    exact ⟨⟨es ++ [e], hrun.append (run_cons.mpr ⟨hadm, f', h, rfl⟩)⟩, hI.next hrun hadm h⟩
  exact hall.2

/-! ### Emptying the queue -/

/-- A session that holds notifications is up, or has just been lost. -/
def Attentive (ingest : Ingest) : Prop :=
  ingest.notified ≠ [] → ingest.listener = .listening ∨ ingest.listener = .lost

theorem Attentive.drained {ingest : Ingest} (hI : Attentive ingest)
    (h : ¬(ingest.listener = .listening ∨ ingest.listener = .lost)) : ingest.notified = [] := by
  by_contra hne
  exact h (hI hne)

theorem Attentive.relay {ingest ingest' : Ingest} {x : ListenStep} (hI : Attentive ingest)
    (h : ingest.relay x = some ingest') : Attentive ingest' := by
  cases x with
  | connect ok =>
      simp only [Ingest.relay, Ingest.connect] at h
      split at h
      case h_2 => cases h
      case h_1 hl =>
        have hnil : ingest.notified = [] := hI.drained (by simp [hl])
        split_ifs at h <;> cases h <;> exact fun hne => absurd hnil hne
  | listen ok =>
      simp only [Ingest.relay, Ingest.listen] at h
      split at h
      case h_2 => cases h
      case h_1 hl =>
        have hnil : ingest.notified = [] := hI.drained (by simp [hl])
        split_ifs at h <;> cases h <;> exact fun hne => absurd hnil hne
  | lose =>
      simp only [Ingest.relay, Ingest.lose] at h
      split at h <;> cases h
      exact fun _ => .inr rfl
  | forward =>
      simp only [Ingest.relay, Ingest.forward] at h
      split at h
      case h_1 hl hn =>
        cases h
        exact fun _ => .inl hl
      case h_2 hl hn =>
        cases h
        exact fun _ => .inr hl
      case h_3 hl hn =>
        cases h
        exact fun hne => absurd hn hne
      case h_4 => cases h
  | wake =>
      simp only [Ingest.relay, Ingest.wake] at h
      split at h
      case h_2 => cases h
      case h_1 hl =>
        have hnil : ingest.notified = [] := hI.drained (by simp [hl])
        cases h
        exact fun hne => absurd hnil hne

theorem attentive_run {admits : Feed g → FeedEvent g → Bool} {es : List (FeedEvent g)}
    (hrun : Feeds admits es f) : Attentive f.ingest := by
  refine hrun.invariant (J := fun f => Attentive f.ingest) ?_ (fun hne => absurd rfl hne)
  intro f e f' _ h hI
  cases e with
  | app e =>
      have happ : f.app e = some f' := h
      unfold Feed.app at happ
      split at happ
      case h_1 => cases happ
      case h_2 pool _ =>
        split at happ <;> cases happ
        · exact fun hne => absurd rfl hne
        · simp only [Attentive, Ingest.hear]
          split
          case h_1 hl => exact fun _ => .inl hl
          case h_2 => exact hI
  | relay x =>
      obtain ⟨ingest, hrelay, rfl⟩ := Option.map_eq_some_iff.mp h
      exact hI.relay hrelay
  | ingest read =>
      have hnext : f.ingestNext read = some f' := h
      unfold Feed.ingestNext at hnext
      split at hnext
      case h_1 => cases hnext
      case h_2 =>
        cases hnext
        exact hI
      case h_3 =>
        split at hnext <;> cases hnext <;> exact hI
  | subscribe input configured resume =>
      cases h
      simp only [Feed.subscribe]
      split <;> exact hI
  | stream i x =>
      simp only [Feed.next] at h
      split at h
      case h_1 => cases h
      case h_2 =>
        obtain ⟨t, -, rfl⟩ := Option.map_eq_some_iff.mp h
        exact hI

/-- A run without lags goes on. -/
def Onward (f f' : Feed g) : Prop :=
  ∃ es, Run Feed.next (fun f e => lagFree f e = true) f es f'

theorem Onward.refl (f : Feed g) : Onward f f := ⟨[], rfl⟩

theorem Onward.step {f₁ f₂ : Feed g} {e : FeedEvent g} (hadm : lagFree f e = true)
    (h : f.next e = some f₁) (ho : Onward f₁ f₂) : Onward f f₂ := by
  obtain ⟨es, hrun⟩ := ho
  exact ⟨e :: es, run_cons.mpr ⟨hadm, f₁, h, hrun⟩⟩

theorem Onward.feeds {es : List (FeedEvent g)} (ho : Onward f f') (hrun : Feeds lagFree es f) :
    ∃ es, Feeds lagFree es f' := by
  obtain ⟨more, hmore⟩ := ho
  exact ⟨es ++ more, hrun.append hmore⟩

theorem Onward.trans {f₁ f₂ : Feed g} (h : Onward f f₁) (h' : Onward f₁ f₂) : Onward f f₂ := by
  obtain ⟨es, hrun⟩ := h
  obtain ⟨es', hrun'⟩ := h'
  exact ⟨es ++ es', hrun.append hrun'⟩

/-- The ingest task takes whatever comes next. -/
theorem ingest_served {x : EventStream.Notification} {rest : List EventStream.Notification}
    (hch : f.ingest.channel = x :: rest) :
    ∃ f' φ, f.ingestNext .served = some f' ∧ f'.pool = f.pool ∧
      f'.ingest.notified = f.ingest.notified ∧ f'.ingest.channel = rest ∧
      f'.streams = f.streams.map φ ∧ ∀ s, ∃ b, φ s = { s with buffer := b } := by
  unfold Feed.ingestNext
  rw [hch]
  cases x with
  | listenDisconnected =>
      exact ⟨_, id, rfl, rfl, rfl, rfl, (List.map_id _).symm, fun s => ⟨s.buffer, rfl⟩⟩
  | sequence q =>
      cases hfind : EventStream.findBySequence f.db.outbox q with
      | none =>
          simp only [hfind]
          exact ⟨_, id, rfl, rfl, rfl, rfl, (List.map_id _).symm, fun s => ⟨s.buffer, rfl⟩⟩
      | some row =>
          simp only [hfind]
          exact ⟨_, _, rfl, rfl, rfl, rfl, rfl, fun s => ⟨(s.offer row).buffer, offer_frame s row⟩⟩

/-- The next notification moves on, whatever it is. -/
theorem drain_step {es : List (FeedEvent g)} {i : ℕ} (hrun : Feeds lagFree es f)
    (hs : f.streams[i]? = some s) (hne : f.ingest.channel ≠ [] ∨ f.ingest.notified ≠ []) :
    ∃ e f' b, lagFree f e = true ∧ f.next e = some f' ∧ f'.pool = f.pool ∧
      f'.streams[i]? = some { s with buffer := b } ∧
      2 * f'.ingest.notified.length + f'.ingest.channel.length <
        2 * f.ingest.notified.length + f.ingest.channel.length := by
  cases hch : f.ingest.channel with
  | nil =>
      have hnot : f.ingest.notified ≠ [] := hne.resolve_left (fun h => h hch)
      obtain ⟨q, rest, hn⟩ := List.exists_cons_of_ne_nil hnot
      have hforward : f.ingest.forward = some { f.ingest with
          notified := rest
          channel := f.ingest.channel ++ [.sequence q] } := by
        rcases attentive_run hrun hnot with hl | hl <;> simp only [Ingest.forward, hl, hn]
      refine ⟨.relay .forward, { f with ingest := { f.ingest with
          notified := rest
          channel := f.ingest.channel ++ [.sequence q] } }, s.buffer, rfl, ?_, rfl, hs, ?_⟩
      · exact Option.map_eq_some_iff.mpr ⟨_, hforward, rfl⟩
      · simp only [hch, hn, List.length_append, List.length_cons, List.length_nil]
        omega
  | cons x rest =>
      have hshorter {f' : Feed g} (hn : f'.ingest.notified = f.ingest.notified)
          (hc : f'.ingest.channel = rest) :
          2 * f'.ingest.notified.length + f'.ingest.channel.length <
            2 * f.ingest.notified.length + (x :: rest).length := by
        rw [hn, hc, List.length_cons]
        omega
      obtain ⟨f', φ, hnext, hpool, hn, hc, hst, hφ⟩ := ingest_served hch
      obtain ⟨b, hb⟩ := hφ s
      refine ⟨.ingest .served, f', b, rfl, hnext, hpool, ?_, hshorter hn hc⟩
      rw [hst, List.getElem?_map, hs, Option.map_some, hb]

/-- All notifications can be moved on. -/
theorem flush {es : List (FeedEvent g)} {i : ℕ} (hrun : Feeds lagFree es f)
    (hs : f.streams[i]? = some s) :
    ∃ f' b, Onward f f' ∧ f'.pool = f.pool ∧ f'.streams[i]? = some { s with buffer := b } ∧
      pending f'.ingest = [] := by
  induction hn : 2 * f.ingest.notified.length + f.ingest.channel.length using Nat.strong_induction_on
    generalizing f s es with
  | _ n ih =>
      by_cases hne : f.ingest.channel ≠ [] ∨ f.ingest.notified ≠ []
      · obtain ⟨e, f₁, b, hadm, hnext, hpool, hs₁, hlt⟩ := drain_step hrun hs hne
        have hrun₁ : Feeds lagFree (es ++ [e]) f₁ :=
          hrun.append (run_cons.mpr ⟨hadm, f₁, hnext, rfl⟩)
        obtain ⟨f', b', ho, hpool', hs', hempty⟩ := ih _ (hn ▸ hlt) hrun₁ hs₁ rfl
        exact ⟨f', b', .step hadm hnext ho, hpool'.trans hpool, hs', hempty⟩
      · rw [not_or, not_not, not_not] at hne
        refine ⟨f, s.buffer, .refl f, rfl, hs, ?_⟩
        simp only [pending, hne.1, hne.2, List.filterMap_nil, List.append_nil]

/-! ### Catching up -/

/-- A row either leaves the stream where it was, or ends it. -/
theorem handle_goes (s : StatusStream) (db : Db) (row : OutboxEvent) (k : Phase) :
    (s.handle db row true k).phase = k ∨
      ∃ st, statusOf s.paymentHash row = some st ∧ isTerminal st = true := by
  unfold StatusStream.handle
  by_cases href : row.referenceId = s.paymentHash.toHex
  case neg =>
    simp only [href, if_false]
    exact .inl trivial
  case pos =>
    simp only [href, if_true]
    unfold StatusStream.emitForEvent
    cases hst : statusFromEvent row.domainEvent with
    | none => exact .inl rfl
    | some st =>
        by_cases hlast : s.emitter.last = some st
        · simp only [StatusEmitter.next, hlast, if_true]
          exact .inl trivial
        · simp only [StatusEmitter.next, hlast, if_false]
          have hof : statusOf s.paymentHash row = some st := statusOf_eq_some.mpr ⟨href, hst⟩
          cases st with
          | paid => exact .inr ⟨.paid, hof, rfl⟩
          | expired => exact .inr ⟨.expired, hof, rfl⟩
          | pending => exact .inl rfl

/-- The stream has taken all its rows up to `c`, or the row that ends it. -/
def CaughtUp (db : Db) (c : ℤ) (s : StatusStream) : Prop :=
  (∀ r ∈ db.outbox, tells s.paymentHash r = true → start s < r.sequence →
    s.cursor < r.sequence → c < r.sequence) ∨
  ∃ r ∈ s.processed, ∃ st, statusOf s.paymentHash r = some st ∧ isTerminal st = true

/-- Without lags a live stream with nothing on its way has its next rows in the buffer. -/
theorem next_in_buffer {es : List (FeedEvent g)} (hrun : Feeds lagFree es f)
    (hs : s ∈ f.streams) (hempty : pending f.ingest = []) (hp : s.phase = .live)
    (hlag : s.lagged = false) {r : OutboxEvent} (hr : r ∈ f.db.outbox)
    (htells : tells s.paymentHash r = true) (hstart : start s < r.sequence)
    (hc : s.cursor < r.sequence) : r.sequence ∈ s.buffer.map OutboxEvent.sequence := by
  have hlossless := lossless_of_lagFree hrun
  have hphase := (followed_run (unbroken_of_lossless hlossless) s hs).phase
  rw [hp] at hphase
  obtain ⟨-, hlagged | hdropped | hway⟩ := hphase r hr htells hstart hc
  · cases hlag.symm.trans hlagged
  · rw [(intact_run hlossless).1] at hdropped
    cases hdropped
  · rwa [hempty, List.append_nil] at hway

/-- The run goes on until the stream, which may move its cursor up to `c`, has caught up. -/
def CatchesUp (f : Feed g) (i : ℕ) (c : ℤ) (s : StatusStream) : Prop :=
  ∃ f' t, Onward f f' ∧ f'.pool = f.pool ∧ f'.streams[i]? = some t ∧
    (t.paymentHash = s.paymentHash ∧ t.resume = s.resume ∧ t.attachedAt = s.attachedAt) ∧
    t.derived = some .pending ∧ t.cursor ≤ c ∧ CaughtUp f.db c t

theorem stream_next {i : ℕ} {x : StreamStep} (hs : f.streams[i]? = some s)
    (ht : s.step f.db x = some t) :
    f.next (.stream i x) = some { f with streams := f.streams.set i t } ∧
      (f.streams.set i t)[i]? = some t := by
  constructor
  · simp only [Feed.next, hs, ht, Option.map_some]
  · obtain ⟨hi, -⟩ := List.getElem?_eq_some_iff.mp hs
    exact List.getElem?_set_self hi

theorem catch_up {es : List (FeedEvent g)} {i : ℕ} {c : ℤ} (hrun : Feeds lagFree es f)
    (hempty : pending f.ingest = []) (hs : f.streams[i]? = some s) (hp : s.phase = .live)
    (hlag : s.lagged = false) (hd : s.derived = some .pending) (hc : s.cursor ≤ c) :
    CatchesUp f i c s := by
  induction hb : s.buffer generalizing f s es with
  | nil =>
      have hmem := List.mem_of_getElem? hs
      refine ⟨f, s, .refl f, rfl, hs, ⟨rfl, rfl, rfl⟩, hd, hc, .inl fun r hr htells hstart hcur => ?_⟩
      have hway := next_in_buffer hrun hmem hempty hp hlag hr htells hstart hcur
      rw [hb] at hway
      cases hway
  | cons row rest ih =>
      have hmem := List.mem_of_getElem? hs
      rcases lt_or_ge c row.sequence with hlt | hle
      · refine ⟨f, s, .refl f, rfl, hs, ⟨rfl, rfl, rfl⟩, hd, hc,
          .inl fun r hr htells hstart hcur => ?_⟩
        have hway := next_in_buffer hrun hmem hempty hp hlag hr htells hstart hcur
        have hord := ((feedOk_run hrun).streams s hmem).ordered
        rw [hempty, List.append_nil, hb, List.map_cons] at hord
        rw [hb, List.map_cons] at hway
        rcases List.mem_cons.mp hway with heq | hrest
        · exact heq ▸ hlt
        · exact hlt.trans ((List.pairwise_cons.mp hord).1 _ hrest)
      · have onward {t : StatusStream} (ht : s.step f.db (.receive true) = some t)
            (hsame : t.paymentHash = s.paymentHash ∧ t.resume = s.resume ∧
              t.attachedAt = s.attachedAt)
            (hup : CatchesUp { f with streams := f.streams.set i t } i c t) :
            CatchesUp f i c s := by
          obtain ⟨f', u, ho, hpool, hget, ⟨hh, hr, hat⟩, hrest⟩ := hup
          refine ⟨f', u, .step rfl (stream_next hs ht).1 ho, hpool, hget, ?_, hrest⟩
          exact ⟨hh.trans hsame.1, hr.trans hsame.2.1, hat.trans hsame.2.2⟩
        have hrun₁ {t : StatusStream} (ht : s.step f.db (.receive true) = some t) :
            Feeds lagFree (es ++ [.stream i (.receive true)])
              { f with streams := f.streams.set i t } :=
          hrun.append (run_cons.mpr ⟨rfl, _, (stream_next hs ht).1, rfl⟩)
        by_cases hskip : row.sequence ≤ s.cursor
        · have ht : s.step f.db (.receive true) = some { s with buffer := rest } := by
            simp only [StatusStream.step, StatusStream.receive, hp, hlag, hb, hskip, if_true,
              Bool.false_eq_true, if_false]
          exact onward ht ⟨rfl, rfl, rfl⟩
            (ih (hrun₁ ht) hempty (stream_next hs ht).2 hp hlag hd hc rfl)
        · have ht : s.step f.db (.receive true) =
              some ({ s with buffer := rest }.handle f.db row true .live) := by
            simp only [StatusStream.step, StatusStream.receive, hp, hlag, hb, hskip, if_false,
              Bool.false_eq_true]
          have hhandled : Handled f.db { s with buffer := rest } row .live
              ({ s with buffer := rest }.handle f.db row true .live) := handle_spec true
          obtain ⟨⟨hh, hr, hat, hder, hbuf, hlagged⟩, hcur, hproc, -⟩ := hhandled.frame
          apply onward ht ⟨hh, hr, hat⟩
          rcases handle_goes { s with buffer := rest } f.db row .live with hlive | ⟨st, hst, hterm⟩
          · exact ih (hrun₁ ht) hempty (stream_next hs ht).2 hlive (hlagged.trans hlag)
              (hder.trans hd) (hcur ▸ hle) hbuf
          · refine ⟨_, _, .refl _, rfl, (stream_next hs ht).2, ⟨rfl, rfl, rfl⟩, hder.trans hd,
              hcur ▸ hle, .inr ⟨row, ?_, st, ?_, hterm⟩⟩
            · rw [hproc]
              exact List.mem_append_right _ (List.mem_singleton_self row)
            · rw [hh]
              exact hst

theorem start_lt_attachedAt {es : List (FeedEvent g)} (hrun : Feeds lossless es f)
    (hs : s ∈ f.streams) : start s < s.attachedAt := by
  have hlt := (intact_run hrun).2 s hs
  unfold start
  cases hr : s.resume with
  | none =>
      simp only [Option.getD_none]
      omega
  | some c => simpa [hr] using hlt

/-- A stream without lags that has caught up has told the same. -/
theorem caught_up_statuses {es es' : List (FeedEvent g)} (hrun : Feeds lossless es f)
    (hs : s ∈ f.streams) (hrun' : Feeds lagFree es' f') (ht : t ∈ f'.streams)
    (hdb : f'.db = f.db)
    (hsame : t.paymentHash = s.paymentHash ∧ t.resume = s.resume ∧ t.attachedAt = s.attachedAt)
    (hd : s.derived = some .pending) (hd' : t.derived = some .pending)
    (hle : t.cursor ≤ s.cursor) (hup : CaughtUp f.db s.cursor t) :
    t.statuses ++ inHand t = s.statuses ++ inHand s := by
  have hlossless := lossless_of_lagFree hrun'
  have hok := feedOk_run hrun
  have hok' := feedOk_run hrun'
  have hI := followed_run (unbroken_of_lossless hrun) s hs
  have hI' := followed_run (unbroken_of_lossless hlossless) t ht
  have hreplayed := replayed_run hrun s hs
  have hr' := replayed_run hrun' t ht
  have hsnap' := snapshot_run hrun' t ht
  rw [Followed.statuses_eq hok'.facts (hok'.streams t ht) hI' hr' hsnap',
    Followed.statuses_eq hok.facts (hok.streams s hs) hI hreplayed (snapshot_run hrun s hs)]
  obtain ⟨hh, hres, hat⟩ := hsame
  have hstart : start t = start s := by
    unfold start
    rw [hres, hat]
  have hcovered : covered f'.db t = covered f.db s := by
    unfold covered
    rw [hdb]
    apply List.filter_congr
    intro r hr
    rw [hh, hstart, decide_eq_decide]
    refine and_congr_right fun htells => and_congr_right fun hlt => ⟨fun h => h.trans hle, ?_⟩
    intro hrs
    by_contra hno
    rw [not_le] at hno
    rcases hup with hup | ⟨r₀, hr₀, st, hst, hterm⟩
    · exact absurd hrs (not_le.mpr (hup r hr (hh ▸ htells) (hstart ▸ hlt) hno))
    · -- The row that ended the one stream was processed by the other, and nothing with a
      -- status after it.
      have hnew : s.attachedAt ≤ r₀.sequence := by
        by_contra hold
        rw [not_le, ← hat] at hold
        have hpending := hsnap' hd' r₀ ((hok'.streams t ht).processed r₀ hr₀) hold st hst
        rw [hpending] at hterm
        cases hterm
      have hbefore : start s < s.attachedAt := start_lt_attachedAt hrun hs
      have hlt₀ := (hI'.bounded r₀ hr₀).2
      have hout : r₀ ∈ f.db.outbox := hdb ▸ (hok'.streams t ht).processed r₀ hr₀
      rw [hh] at hst
      have htells₀ : tells s.paymentHash r₀ = true := by
        simp only [tells, hst, Option.isSome_some]
      have hmem₀ := hI.complete r₀ hout htells₀ (hbefore.trans_le hnew) (hlt₀.trans hle)
      have hmem := hI.complete r hr htells hlt hrs
      obtain ⟨st', hst'⟩ := Option.isSome_iff_exists.mp htells
      have hpending := hI.told_before hreplayed hmem₀ hmem (hlt₀.trans_lt hno) hst hst'
      rw [hpending] at hterm
      cases hterm
  unfold unlagged
  rw [hcovered, hh, hres, hd, hd']

/-- Every run has one without lags, with the same commits and the same answers of the
aggregate, in which the client is told the same. -/
theorem lag_free_run {es : List (FeedEvent g)} (hrun : Feeds lossless es f) (hs : s ∈ f.streams) :
    ∃ es' f' t, Feeds lagFree es' f' ∧ f'.pool = f.pool ∧ t ∈ f'.streams ∧
      (t.paymentHash = s.paymentHash ∧ t.resume = s.resume ∧ t.attachedAt = s.attachedAt) ∧
      t.derived = s.derived ∧ t.statuses ++ inHand t = s.statuses ++ inHand s := by
  obtain ⟨es', us, refused, hrun', htwins⟩ := hasTwin_run hrun
  obtain ⟨i, hi⟩ := List.getElem?_of_mem hs
  have hrel := forall₂_get htwins i
  rw [hi] at hrel
  cases hu : us[i]? with
  | none =>
      rw [hu] at hrel
      cases hrel
  | some u =>
      rw [hu] at hrel
      cases hrel with
      | some htwin =>
          cases htwin with
          | early b hlive =>
              exact ⟨es', _, _, hrun', rfl, List.mem_of_getElem? hu, ⟨rfl, rfl, rfl⟩, rfl, rfl⟩
          | behind hsame hd hd' hp hlag hle =>
              obtain ⟨f₁, b, ho, hpool, hget, hempty⟩ := flush hrun' hu
              obtain ⟨es₁, hrun₁⟩ := ho.feeds hrun'
              obtain ⟨f₂, t, ho₂, hpool₂, hget₂, hsame₂, hd₂, hle₂, hup⟩ :=
                catch_up hrun₁ hempty hget hp hlag hd' hle
              obtain ⟨es₂, hrun₂⟩ := ho₂.feeds hrun₁
              have hpool' : f₂.pool = f.pool := hpool₂.trans hpool
              have hdb : f₂.db = f.db := congrArg (fun p => p.world.db) hpool'
              have hdb₁ : f₁.db = f.db := congrArg (fun p => p.world.db) hpool
              have hsame' : t.paymentHash = s.paymentHash ∧ t.resume = s.resume ∧
                  t.attachedAt = s.attachedAt :=
                ⟨hsame₂.1.trans hsame.1, hsame₂.2.1.trans hsame.2.1, hsame₂.2.2.trans hsame.2.2⟩
              have ht := List.mem_of_getElem? hget₂
              exact ⟨es₂, f₂, t, hrun₂, hpool', ht, hsame', hd₂.trans hd.symm,
                caught_up_statuses hrun hs hrun₂ ht hdb hsame' hd hd₂ hle₂ (hdb₁ ▸ hup)⟩

/-! ### What a client is told -/

/-- Attach, resume and lag recovery lose nothing and repeat nothing. In every run without
losses, what a client has been told is what the status of the aggregate and the rows up
to the cursor call for, and some run without lags tells the same. It is `PENDING` at
most once and then at most one terminal status, with which the stream ends; a stream
does not end otherwise unless its client is gone; and the terminal status of a row that
the cursor has reached was sent, or is the `PAID` that is in hand. -/
theorem lags_are_invisible (g : Deployment) (es : List (FeedEvent g)) (f : Feed g)
    (hrun : Feeds lossless es f) :
    ∀ s ∈ f.streams,
      s.statuses ++ inHand s = unlagged f.db s ∧
      (∃ es' f' t, Feeds lagFree es' f' ∧ f'.pool = f.pool ∧ t ∈ f'.streams ∧
        (t.paymentHash = s.paymentHash ∧ t.resume = s.resume ∧ t.attachedAt = s.attachedAt) ∧
        t.derived = s.derived ∧ t.statuses ++ inHand t = s.statuses ++ inHand s) ∧
      (∃ a b, s.statuses = a ++ b ∧ (a = [] ∨ a = [.pending]) ∧
        (b = [] ∨ b = [.paid] ∨ b = [.expired])) ∧
      (∀ st ∈ s.statuses, isTerminal st = true →
        s.phase = .closed ∧ ∀ db x, s.step db x = none) ∧
      (s.phase = .closed → s.gone = true ∨ ∃ st ∈ s.statuses, isTerminal st = true) ∧
      (∀ r ∈ f.db.outbox, s.resume.getD 0 < r.sequence → r.sequence ≤ s.cursor →
        ∀ st, statusOf s.paymentHash r = some st → isTerminal st = true →
          st ∈ s.statuses ++ inHand s) := by
  intro s hs
  have hok := feedOk_run hrun
  have hg := hok.streams s hs
  have hI := followed_run (unbroken_of_lossless hrun) s hs
  have hr := replayed_run hrun s hs
  have hsnap := snapshot_run hrun s hs
  refine ⟨Followed.statuses_eq hok.facts hg hI hr hsnap, lag_free_run hrun hs, hr.statuses_shape,
    ?_, ended_run hrun s hs, ?_⟩
  · intro st hst hterm
    have hclosed := hr.terminal_closed hst hterm
    exact ⟨hclosed, step_closed hclosed⟩
  · intro r hmem hresume hcursor st hst hterm
    have htells : tells s.paymentHash r = true := by simp only [tells, hst, Option.isSome_some]
    apply hr.told _ hst
    apply hI.complete r hmem htells _ hcursor
    cases hres : s.resume with
    | some c => simpa [start, hres] using hresume
    | none =>
        simp only [hres, Option.getD_none] at hresume
        simp only [start, hres, Option.getD_none]
        by_contra hold
        obtain hd | ⟨-, hzero⟩ := hr.fresh hres
        · have hpending := hsnap hd r hmem (by omega) st hst
          rw [hpending] at hterm
          cases hterm
        · omega

/-- Both rows of a settlement are overwritten in the buffer. -/
def laggedRun : List (FeedEvent Sample.deployment) :=
  listen ++ (Sample.issueInvoice 0).map .app ++ follow ++
    (SingleCredit.settleHtlc 1).map .app ++
    [.relay .forward, .relay .forward, .ingest .served, .ingest .served,
      .stream 0 (.overflow 2), .stream 0 (.receive true), .stream 0 (.count true true),
      .stream 0 (.page true), .stream 0 (.scan true), .stream 0 (.scan true),
      .stream 0 (.pay true true)]

theorem lags_are_invisible_settled :
    ∃ f, Feeds lossless laggedRun f ∧ ∃ s ∈ f.streams, s.statuses = [.pending, .paid] ∧
      s.phase = .closed ∧
      ∃ es' f' t, Feeds lagFree es' f' ∧ f'.pool = f.pool ∧ t ∈ f'.streams ∧
        t.statuses ++ inHand t = [.pending, .paid] := by
  obtain ⟨f, hrun, hc⟩ := exists_run_of_play Feed.next lossless (Feed.boot Sample.deployment)
    laggedRun (fun f => f.streams.any fun s => decide (s.statuses = [.pending, .paid]))
    (by decide +kernel)
  obtain ⟨s, hs, hst⟩ := List.any_eq_true.mp hc
  have hst := of_decide_eq_true hst
  obtain ⟨-, ⟨es', f', t, hrun', hpool, ht, -, -, htold⟩, -, hterm, -, -⟩ :=
    lags_are_invisible Sample.deployment laggedRun f hrun s hs
  have hclosed : s.phase = .closed := (hterm .paid (by rw [hst]; decide) rfl).1
  have hhand : inHand s = [] := inHand_of_phase hclosed (by simp)
  rw [hst, hhand] at htold
  exact ⟨f, hrun, s, hs, hst, hclosed, es', f', t, hrun', hpool, ht, htold⟩

end LightningGateway.LagFreeRuns
