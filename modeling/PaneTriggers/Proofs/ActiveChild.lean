import PaneTriggers.Proofs.CountingMachine
import PaneTriggers.Proofs.Phases
import PaneTriggers.Proofs.TwinWindows

/-!
# Runners that feed the active child only

A runner whose windows cannot merge feeds the active child of a composite only, and one whose
windows can feeds every child. Run side by side without merges, they have twin windows and agree
in everything else (`Twins`). Each operation keeps this and is answered alike (`perform_matches`),
so no answer of a run tells the two apart, and neither fails.
-/

namespace PaneTriggers.Runner

variable {κ σ : Type} {c : EarlyAndLate κ}

/-- The same runner but for its stored states, with windows that can merge. -/
def everyFed (v : Seen κ) (g : Contents) : Seen κ := { v with supportsMerging := true, store := g }

/-- The first runner feeds the active child, the second every child. All windows are twins and
nothing else differs. -/
structure Twins (c : EarlyAndLate κ) (v v' : Seen κ) : Prop where
  phased : Phased c v
  apart : v.supportsMerging = false
  same : ∃ g, v' = v.everyFed g
  windows : ∀ w, Twin c (v.store w) (v'.store w)

section Effects

variable {v v' : Seen κ} {g : Contents} {w : Window} {p p' : Progress κ}

/-- Where only the end of the window was asked for, one timer is set. -/
theorem armed_of_atEnd {ts : List (TimeDomain × Timestamp)} (h : ∀ x ∈ ts, (v.scope w).AtEnd x) :
    v.armed w ts = { v with timers := v.timers.insert (.endOf w) } := by
  have hqueue : (v.timers.insertAll (ts.map fun t => ⟨t.1, t.2, w⟩)).insert (.endOf w) =
      v.timers.insert (.endOf w) := by
    refine TimerQueue.ext (Std.ExtTreeSet.ext_mem fun t => ?_)
    rw [TimerQueue.mem_pending, TimerQueue.mem_pending, TimerQueue.mem_insert,
      TimerQueue.mem_insert, mem_insertAll]
    constructor
    · intro ht
      rcases ht with ht | ht | ht
      · exact .inl ht
      · obtain ⟨x, hx, rfl⟩ := List.mem_map.1 ht
        rw [h x hx]
        exact .inl rfl
      · exact .inr ht
    · intro ht
      rcases ht with ht | ht
      · exact .inl ht
      · exact .inr (.inr ht)
  unfold armed withTimers
  rw [hqueue]

theorem accepted_everyFed {t : Timestamp} (hp : ∀ x ∈ p.timers, (v.scope w).AtEnd x)
    (hp' : ∀ x ∈ p'.timers, (v.scope w).AtEnd x) :
    (v.everyFed g).accepted t w p' = (v.accepted t w p).everyFed (g.put w p'.state) := by
  unfold accepted
  rw [armed_of_atEnd hp, armed_of_atEnd (v := v.everyFed g) hp']
  rfl

theorem fired_everyFed (hp : p.timers = []) (hp' : p'.timers = [])
    (h : SameFinished p.state p'.state) :
    (v.everyFed g).fired w p' = (v.fired w p).everyFed (g.put w p'.state) := by
  have hclosed : (v.everyFed g).closedIn p'.state = v.closedIn p.state := h _
  unfold fired
  rw [hp, hp', hclosed]
  dsimp only
  split_ifs <;> rfl

end Effects

namespace Twins

variable {v v' : Seen κ} {w : Window}

theorem put (h : Twins c v v') {u u' : Seen κ} {s s' : WindowState} (hs : Twin c s s')
    (hu : Phased c u) (hm : u.supportsMerging = v.supportsMerging)
    (hstore : u.store = v.store.put w s) (hsame : u' = u.everyFed (v'.store.put w s')) :
    Twins c u u' := by
  refine ⟨hu, hm.trans h.apart, ⟨_, hsame⟩, fun x => ?_⟩
  rw [hsame, hstore]
  show Twin c (v.store.put w s x) (v'.store.put w s' x)
  by_cases hx : x = w
  · rw [hx, Contents.put_same, Contents.put_same]
    exact hs
  · rw [Contents.put_other _ _ hx, Contents.put_other _ _ hx]
    exact h.windows x

theorem dropped (h : Twins c v v') (reason : DropReason) :
    Twins c (v.dropped w reason) (v'.dropped w reason) := by
  obtain ⟨g, rfl⟩ := h.same
  exact ⟨h.phased, h.apart, ⟨g, rfl⟩, h.windows⟩

theorem collected (h : Twins c v v') : Twins c (v.collected w) (v'.collected w) := by
  obtain ⟨g, rfl⟩ := h.same
  exact h.put (.refl .empty) (h.phased.put EarlyAndLate.phase_empty rfl rfl rfl) rfl rfl rfl

theorem foldl_collected : ∀ (us : List Window) {v v' : Seen κ}, Twins c v v' →
    Twins c (us.foldl Runner.collected v) (us.foldl Runner.collected v')
  | [], _, _, h => h
  | _ :: us, _, _, h => foldl_collected us h.collected

theorem advance (h : Twins c v v') (t : Timestamp) :
    (v'.advance t).1 = (v.advance t).1 ∧ Twins c (v.advance t).2 (v'.advance t).2 := by
  obtain ⟨g, rfl⟩ := h.same
  have hphased := h.phased.advance t
  have hsame : (v.everyFed g).advance t = ((v.advance t).1, (v.advance t).2.everyFed g) := by
    unfold Runner.advance
    show (if v.watermark.any _ then _ else _) = _
    split_ifs <;> rfl
  have hapart : (v.advance t).2.supportsMerging = v.supportsMerging := by
    unfold Runner.advance
    split_ifs <;> rfl
  refine ⟨by rw [hsame], hphased, hapart.trans h.apart, ⟨g, by rw [hsame]⟩, fun w => ?_⟩
  rw [advance_store, hsame]
  exact h.windows w

theorem closed_eq (h : Twins c v v') : v'.closedIn (v'.store w) = v.closedIn (v.store w) := by
  have hroot : v'.root = v.root := by
    obtain ⟨g, rfl⟩ := h.same
    rfl
  unfold closedIn
  rw [hroot, (h.windows w).finished]

variable [CustomTrigger κ]

theorem dropReason_eq (h : Twins c v v') : v'.dropReason? w = v.dropReason? w := by
  have hclosed := h.closed_eq (w := w)
  unfold dropReason?
  rw [hclosed]
  obtain ⟨g, rfl⟩ := h.same
  rfl

theorem readiness_eq (hc : c.Customs Discreet) (h : Twins c v v') :
    v'.readiness w = v.readiness w := by
  have hclosed := h.closed_eq (w := w)
  unfold readiness
  rw [hclosed]
  have hready := EarlyAndLate.ready_twin (s := v.scope w) (m := true) hc (h.windows w)
  rw [← h.phased.1] at hready
  obtain ⟨g, rfl⟩ := h.same
  split_ifs
  · rfl
  · exact hready

theorem taking (hc : c.Customs Discreet) (h : Twins c v v') (hn : v.dropReason? w = none)
    {ws : List Window} {t : Timestamp} : ∃ p p', v.taking ws t w = .ok () p ∧
      v'.taking ws t w = .ok () p' ∧ Twins c (v.accepted t w p) (v'.accepted t w p') := by
  obtain ⟨_, p, p', hp, hp', htwin⟩ := EarlyAndLate.onElement_matches t ws hc
    (v.scope_open w) h.apart (h.phased.hasOpenChild hn) (h.windows w) { state := v.store w }
    { state := v'.store w } ⟨rfl, rfl⟩
  have htimers := EarlyAndLate.onElement_asks (s := v.scope w)
    (hc.mono fun k hk => hk.timerless) t ws
  have htimers' := EarlyAndLate.onElement_asks (s := (v.scope w).withMerging true)
    (hc.mono fun k hk => hk.timerless) t ws
  have hend := htimers.of_ok (by simp) hp
  have hend' := htimers'.of_ok (by simp) hp'
  rw [← h.phased.1] at hp hp'
  have hphased : Phased c (v.accepted t w p) := ((phased_invariant (F := False)
    (hc.mono fun k hk => hk.modest)).element v ws t w h.phased hn).of_ok rfl hp
  obtain ⟨g, rfl⟩ := h.same
  refine ⟨p, p', hp, hp', h.put htwin hphased rfl rfl ?_⟩
  exact accepted_everyFed hend hend'

theorem firing (hc : c.Customs Discreet) (h : Twins c v v') : ∃ p p', v.firing w = .ok () p ∧
    v'.firing w = .ok () p' ∧ Twins c (v.fired w p) (v'.fired w p') := by
  obtain ⟨_, p, p', hp, hp', htwin⟩ := EarlyAndLate.onFire_matches (m := true) hc
    (v.scope_open w) (h.windows w) { state := v.store w } { state := v'.store w } ⟨rfl, rfl⟩
  have none : ∀ (s : Scope) (a : WindowState) (q : Progress κ),
      (Node.root (.earlyAndLate c)).onFire s { state := a } = .ok () q → q.timers = [] := by
    intro s a q hq
    have hasks := EarlyAndLate.onFire_asks (T := fun _ => False) (s := s)
      (hc.mono fun k hk => hk.timerless)
    exact List.eq_nil_iff_forall_not_mem.2 (hasks.of_ok (by simp) hq)
  have hnil := none _ _ _ hp
  have hnil' := none _ _ _ hp'
  rw [← h.phased.1] at hp hp'
  have hphased : Phased c (v.fired w p) :=
    (phased_firing (F := False) (hc.mono fun k hk => hk.modest) v w h.phased).of_ok rfl hp
  obtain ⟨g, rfl⟩ := h.same
  refine ⟨p, p', hp, hp', h.put htwin hphased fired_supportsMerging fired_store ?_⟩
  exact fired_everyFed hnil hnil' htwin.finished

theorem readiness_ok (hc : c.Customs Discreet) (h : Twins c v v') (e : TriggerError) :
    v.readiness w ≠ .error e := fun he =>
  (phased_invariant (hc.mono fun _ hk => hk.modest)).ready v w h.phased e he

end Twins

section Steps

variable [StateStore σ] [LawfulStore σ] {r : Runner κ σ} {w : Window}

/-- The runners look like twins. -/
abbrev Alongside (c : EarlyAndLate κ) (r r' : Runner κ σ) : Prop := Twins c r.seen r'.seen

theorem isClosed_matches (hF : ¬LawfulStore.Faulty σ) :
    Matches (Alongside (σ := σ) c) (isClosed w) (isClosed w) (Alongside c) := by
  intro r r' h
  obtain ⟨b, q, hq, hb, hseen⟩ :=
    (isClosed_ensures (w := w)).returns (fun _ _ hf => hF hf.1) (s := r) rfl
  obtain ⟨b', q', hq', hb', hseen'⟩ :=
    (isClosed_ensures (w := w)).returns (fun _ _ hf => hF hf.1) (s := r') rfl
  have hbb : b' = b := by rw [hb, hb', h.closed_eq]
  refine ⟨b, q, q', hq, hbb ▸ hq', ?_⟩
  unfold Alongside
  rw [hseen, hseen']
  exact h

variable [CustomTrigger κ]

/-! ## What shows of a step that does not fail -/

theorem deliver_of_drop (hF : ¬LawfulStore.Faulty σ) (ws : List Window) (t : Timestamp)
    {reason : DropReason} (hd : r.seen.dropReason? w = some reason) :
    ∃ q, deliver ws t w r = .ok () q ∧ q.seen = r.seen.dropped w reason := by
  cases hx : deliver ws t w r with
  | ok _ q =>
    rcases deliver_ensures.of_ok rfl hx with ⟨reason', hd', hq⟩ | ⟨hd', -⟩
    · rw [hd] at hd'
      cases hd'
      exact ⟨q, rfl, hq⟩
    · rw [hd] at hd'
      cases hd'
  | error e q =>
    rcases (deliver_ensures.of_error rfl hx).1 with hf | ⟨hd', -⟩
    · exact absurd hf hF
    · rw [hd] at hd'
      cases hd'

theorem deliver_of_taking (hF : ¬LawfulStore.Faulty σ) {ws : List Window} {t : Timestamp}
    {p : Progress κ} (hd : r.seen.dropReason? w = none) (hp : r.seen.taking ws t w = .ok () p) :
    ∃ q, deliver ws t w r = .ok () q ∧ q.seen = r.seen.accepted t w p := by
  cases hx : deliver ws t w r with
  | ok _ q =>
    rcases deliver_ensures.of_ok rfl hx with ⟨reason, hd', -⟩ | ⟨-, p', hp', hq⟩
    · rw [hd] at hd'
      cases hd'
    · rw [hp] at hp'
      cases hp'
      exact ⟨q, rfl, hq⟩
  | error e q =>
    rcases (deliver_ensures.of_error rfl hx).1 with hf | ⟨-, e', p', hp'⟩
    · exact absurd hf hF
    · rw [hp] at hp'
      cases hp'

theorem onFire_of_firing (hF : ¬LawfulStore.Faulty σ) {p : Progress κ}
    (hp : r.seen.firing w = .ok () p) :
    ∃ q, onFire w r = .ok () q ∧ q.seen = r.seen.fired w p := by
  cases hx : onFire w r with
  | ok _ q =>
    obtain ⟨p', hp', hq⟩ := onFire_ensures.of_ok rfl hx
    rw [hp] at hp'
    cases hp'
    exact ⟨q, rfl, hq⟩
  | error e q =>
    rcases (onFire_ensures.of_error rfl hx).1 with hf | ⟨e', p', hp'⟩
    · exact absurd hf hF
    · rw [hp] at hp'
      cases hp'

theorem shouldFire_of_readiness (hF : ¬LawfulStore.Faulty σ) {b : Bool}
    (hb : r.seen.readiness w = .ok b) : ∃ q, shouldFire w r = .ok b q ∧ q.seen = r.seen := by
  cases hx : shouldFire w r with
  | ok b' q =>
    obtain ⟨hb', hq⟩ := shouldFire_ensures.of_ok rfl hx
    rw [hb] at hb'
    cases hb'
    exact ⟨q, rfl, hq⟩
  | error e q =>
    rcases (shouldFire_ensures.of_error rfl hx).1 with hf | ⟨e', he⟩
    · exact absurd hf hF
    · rw [hb] at he
      cases he

/-! ## The two runners side by side -/

theorem deliver_matches (hc : c.Customs Discreet) (hF : ¬LawfulStore.Faulty σ) (ws : List Window)
    (t : Timestamp) (w : Window) :
    Matches (Alongside (σ := σ) c) (deliver ws t w) (deliver ws t w) (Alongside c) := by
  intro r r' h
  have hsame := h.dropReason_eq (w := w)
  rcases hd : r.seen.dropReason? w with _ | reason
  · obtain ⟨p, p', hp, hp', htwins⟩ := h.taking hc hd
    obtain ⟨q, hq, hseen⟩ := deliver_of_taking hF hd hp
    obtain ⟨q', hq', hseen'⟩ := deliver_of_taking hF (hsame.trans hd) hp'
    refine ⟨(), q, q', hq, hq', ?_⟩
    unfold Alongside
    rw [hseen, hseen']
    exact htwins
  · obtain ⟨q, hq, hseen⟩ := deliver_of_drop hF ws t hd
    obtain ⟨q', hq', hseen'⟩ := deliver_of_drop hF ws t (hsame.trans hd)
    refine ⟨(), q, q', hq, hq', ?_⟩
    unfold Alongside
    rw [hseen, hseen']
    exact h.dropped reason

theorem onFire_matches (hc : c.Customs Discreet) (hF : ¬LawfulStore.Faulty σ) :
    Matches (Alongside (σ := σ) c) (onFire w) (onFire w) (Alongside c) := by
  intro r r' h
  obtain ⟨p, p', hp, hp', htwins⟩ := h.firing (w := w) hc
  obtain ⟨q, hq, hseen⟩ := onFire_of_firing hF hp
  obtain ⟨q', hq', hseen'⟩ := onFire_of_firing hF hp'
  refine ⟨(), q, q', hq, hq', ?_⟩
  unfold Alongside
  rw [hseen, hseen']
  exact htwins

theorem shouldFire_matches (hc : c.Customs Discreet) (hF : ¬LawfulStore.Faulty σ) :
    Matches (Alongside (σ := σ) c) (shouldFire w) (shouldFire w) (Alongside c) := by
  intro r r' h
  rcases hb : r.seen.readiness w with e | b
  · exact absurd hb (h.readiness_ok hc e)
  · obtain ⟨q, hq, hseen⟩ := shouldFire_of_readiness hF hb
    obtain ⟨q', hq', hseen'⟩ := shouldFire_of_readiness hF ((h.readiness_eq hc).trans hb)
    refine ⟨b, q, q', hq, hq', ?_⟩
    unfold Alongside
    rw [hseen, hseen']
    exact h

theorem fireIfReady_matches (hc : c.Customs Discreet) (hF : ¬LawfulStore.Faulty σ) :
    Matches (Alongside (σ := σ) c) (fireIfReady w) (fireIfReady w) (Alongside c) := by
  refine .bind (shouldFire_matches hc hF) fun b => ?_
  cases b with
  | true =>
    exact .bind (onFire_matches hc hF) fun _ => .bind (isClosed_matches hF) fun _ => .pure
  | false => exact .pure

theorem garbageCollect_matches (hc : c.Customs Discreet) (hF : ¬LawfulStore.Faulty σ) :
    Matches (Alongside (σ := σ) c) garbageCollect garbageCollect (Alongside c) := by
  intro r r' h
  have ready : ∀ {v : Seen κ}, (∀ w e, v.readiness w ≠ .error e) →
      ¬(LawfulStore.Faulty σ ∨ ∃ w, ∃ e, v.readiness w = .error e) := by
    intro v hv hf
    rcases hf with hf | ⟨w, e, he⟩
    · exact hF hf
    · exact hv w e he
  have hok : ∀ w e, r.seen.readiness w ≠ .error e := fun w => h.readiness_ok hc
  have hok' : ∀ w e, r'.seen.readiness w ≠ .error e := fun w e => by
    rw [h.readiness_eq hc]
    exact hok w e
  obtain ⟨us, q, hq, hus, hseen⟩ :=
    garbageCollect_ensures.returns (fun _ _ => ready hok) (s := r) rfl
  obtain ⟨us', q', hq', hus', hseen'⟩ :=
    garbageCollect_ensures.returns (fun _ _ => ready hok') (s := r') rfl
  have hidle : r'.seen.idle = r.seen.idle := by
    funext w
    unfold idle
    rw [h.readiness_eq hc]
  have hold : r'.seen.active.toList.filter r'.seen.expired =
      r.seen.active.toList.filter r.seen.expired := by
    obtain ⟨g, hg⟩ := h.same
    rw [hg]
    rfl
  have huu : us' = us := by rw [hus, hus', hold, hidle]
  refine ⟨us, q, q', hq, huu ▸ hq', ?_⟩
  unfold Alongside
  rw [hseen, hseen', huu]
  exact h.foldl_collected us

/-- Every operation without merges is answered alike, by neither runner with an error. -/
theorem perform_matches (hc : c.Customs Discreet) (hF : ¬LawfulStore.Faulty σ) {op : Operation}
    (hop : op.Plain) :
    Matches (Alongside (σ := σ) c) (perform op) (perform op) (Alongside c) := by
  cases op with
  | element ws t => exact .bind (.forM (deliver_matches hc hF ws t) ws) fun _ => .pure
  | advance t =>
    refine .bind (S := Alongside c) (fun r r' h => ?_) fun _ => .pure
    obtain ⟨hwoken, htwins⟩ := h.advance t
    obtain ⟨h₁, h₂⟩ := seen_advance t r
    obtain ⟨h₁', h₂'⟩ := seen_advance t r'
    refine ⟨(r.advance t).1, (r.advance t).2, (r'.advance t).2, rfl, ?_, ?_⟩
    · rw [← h₁, ← hwoken, h₁']
      rfl
    · unfold Alongside
      rw [← h₂, ← h₂']
      exact htwins
  | shouldFire w => exact .bind (shouldFire_matches hc hF) fun _ => .pure
  | fire w => exact .bind (onFire_matches hc hF) fun _ => .pure
  | fireIfReady w => exact .bind (fireIfReady_matches hc hF) fun _ => .pure
  | isClosed w => exact .bind (isClosed_matches hF) fun _ => .pure
  | collect => exact .bind (garbageCollect_matches hc hF) fun _ => .pure
  | merge ws d => exact hop.elim
  | tick t => exact hop.elim
  | windowState w => exact hop.elim

theorem step_matches (hc : c.Customs Discreet) (hF : ¬LawfulStore.Faulty σ) {op : Operation}
    (hop : op.Plain) {r r' : Runner κ σ} (h : Alongside c r r') :
    ∃ a, (r.step op).1 = .ok a ∧ (r'.step op).1 = .ok a ∧
      Alongside c (r.step op).2 (r'.step op).2 := by
  obtain ⟨a, q, q', hq, hq', h'⟩ := perform_matches hc hF hop r r' h
  rw [step_of_ok hq, step_of_ok hq']
  exact ⟨a, rfl, rfl, h'⟩

theorem run_matches (hc : c.Customs Discreet) (hF : ¬LawfulStore.Faulty σ) :
    ∀ (ops : List Operation) {r r' : Runner κ σ}, (∀ op ∈ ops, op.Plain) → Alongside c r r' →
    ∃ as : List Answer, r.answers ops = as.map .ok ∧ r'.answers ops = as.map .ok ∧
      Alongside c (r.run ops) (r'.run ops)
  | [], _, _, _, h => ⟨[], rfl, rfl, h⟩
  | op :: ops, r, r', hops, h => by
    obtain ⟨a, ha, ha', hstep⟩ := step_matches hc hF (hops op List.mem_cons_self) h
    obtain ⟨as, has, has', hrun⟩ :=
      run_matches hc hF ops (fun o ho => hops o (List.mem_cons_of_mem _ ho)) hstep
    refine ⟨a :: as, ?_, ?_, hrun⟩
    · unfold answers
      rw [ha, has, List.map_cons]
    · unfold answers
      rw [ha', has', List.map_cons]

end Steps

/-- Without merges, a composite may feed its active child only. Over discreet custom children, the
runner that does so and the one that feeds every child give the same answers, none of them an
error. After the run, and so after each part of it, they have the same watermark, timers, active
windows and telemetry, and in every window the same nodes are done. No counter differs but that of
the child whose turn it is not. -/
theorem active_child_suffices [CustomTrigger κ] (hc : c.Customs Discreet) (cfg : RunnerConfig)
    {ops : List Operation} (hops : ∀ op ∈ ops, op.Plain) :
    let r m := start (.earlyAndLate c) (cfg.withMerging m) MemoryStore.empty
    let one := (r false).run ops
    let all := (r true).run ops
    (r false).answers ops = (r true).answers ops ∧
      (∀ x ∈ (r false).answers ops, ∃ a, x = .ok a) ∧
      all.watermark = one.watermark ∧ all.timers = one.timers ∧ all.active = one.active ∧
      all.telemetry = one.telemetry ∧ ∀ w, Twin c (one.store.state w) (all.store.state w) := by
  intro r one all
  have hstart : Alongside c (r false) (r true) := by
    refine ⟨⟨rfl, fun w => ?_⟩, rfl, ⟨MemoryStore.empty.state, rfl⟩, fun w => .refl _⟩
    show c.Phase _ (MemoryStore.empty.state w)
    rw [MemoryStore.state_empty]
    exact EarlyAndLate.phase_empty
  obtain ⟨as, has, has', hrun⟩ := run_matches hc (fun hf => hf) ops hops hstart
  obtain ⟨g, hg⟩ := hrun.same
  have hseen : all.seen = one.seen.everyFed g := hg
  refine ⟨has.trans has'.symm, fun x hx => ?_, ?_, ?_, ?_, ?_, hrun.windows⟩
  · rw [has] at hx
    obtain ⟨a, -, rfl⟩ := List.mem_map.1 hx
    exact ⟨a, rfl⟩
  · show all.seen.watermark = one.seen.watermark
    rw [hseen]
    rfl
  · show all.seen.timers = one.seen.timers
    rw [hseen]
    rfl
  · show all.seen.active = one.seen.active
    rw [hseen]
    rfl
  · show all.seen.telemetry = one.seen.telemetry
    rw [hseen]
    rfl

/-- An early firing, the end of the window, and a late element, which only the runner that feeds
every child counts for the early child too. -/
theorem active_child_suffices_scripted :
    let c : EarlyAndLate ScriptedTrigger :=
      ⟨.custom { threshold := .clamp 2 }, some (.custom { threshold := .clamp 2 })⟩
    let a : Window := ⟨.clamp 0, .clamp 10⟩
    let ops : List Operation := [.element [a] (.clamp 3), .element [a] (.clamp 4), .fireIfReady a,
      .element [a] (.clamp 5), .advance (.clamp 12), .fireIfReady a, .element [a] (.clamp 6),
      .shouldFire a]
    let r m := start (.earlyAndLate c) { supportsMerging := m, allowedLateness := 5 }
      MemoryStore.empty
    (r false).answers ops = (r true).answers ops ∧
      Twin c (((r false).run ops).store.state a) (((r true).run ops).store.state a) ∧
      (((r false).run ops).store.state a).counter .early = 0 ∧
      (((r true).run ops).store.state a).counter .early = .clamp 1 := by
  intro c a ops
  have discreet : ∀ n, Discreet ({ threshold := n } : ScriptedTrigger) := fun n =>
    ScriptedTrigger.discreet (k := { threshold := n }) rfl rfl rfl
  have hc : c.Customs Discreet := by
    refine ⟨discreet (.clamp 2), fun t ht => ?_⟩
    cases ht
    exact discreet (.clamp 2)
  have hops : ∀ op ∈ ops, op.Plain := by simp [ops, Operation.Plain]
  obtain ⟨ha, -, -, -, -, -, hw⟩ := active_child_suffices hc { allowedLateness := 5 } hops
  exact ⟨ha, hw a, by decide +kernel, by decide +kernel⟩

end PaneTriggers.Runner
