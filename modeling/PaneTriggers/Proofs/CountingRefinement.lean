import PaneTriggers.Proofs.CountingMachine
import PaneTriggers.Proofs.RunnerSteps
import PaneTriggers.Proofs.ScriptedConduct
import PaneTriggers.Proofs.TreeEffects

/-!
# Runners refine the counting machine

A runner over a composite of counting triggers keeps, for each window, three done bits and two
counters. `Shows` reads the phase and the count of the machine off them; the counter of the child
whose turn it is not is not read, so that it does not matter whether that child is fed as well.
Every operation moves the stored states and the board together (`perform_ensures`), and so a run
answers as the machine does.
-/

namespace PaneTriggers

variable {κ σ : Type}

section Counting

variable [CustomTrigger κ]

/-- A custom trigger that counts elements and is ready from the count `n` on. -/
structure Counts (n : Counter) (k : κ) : Prop where
  onElement : ∀ (s : Site) t ws d, s.Open → ∃ d', CustomTrigger.onElement k s t ws d = .ok () d' ∧
    d'.state = d.state.setCounter s.position (d.state.counter s.position).next
  shouldFire : ∀ (s : Site) w, s.Open →
    CustomTrigger.shouldFire k s w = .ok (decide (n.toNat ≤ (w.counter s.position).toNat))
  onOnlyFiring : ∀ (s : Site) d, s.Open → ∃ d', CustomTrigger.onOnlyFiring k s d = .ok () d' ∧
    SameFinished d.state d'.state

/-- The trigger is custom and counts to `n`. -/
def OnceTrigger.CountsTo (n : Counter) : OnceTrigger κ → Prop
  | .custom k => Counts n k
  | _ => False

/-- The children of the composite count to the thresholds. -/
structure EarlyAndLate.CountsTo (m : Thresholds) (c : EarlyAndLate κ) : Prop where
  early : c.early.CountsTo m.early
  late : Option.Rel OnceTrigger.CountsTo m.late c.late

end Counting

/-- A scripted trigger that is ready by its count, and is not told to fail or to finish, counts. -/
theorem ScriptedTrigger.counts {k : ScriptedTrigger} (hr : k.readiness = .count)
    (hf : k.failures = []) (he : k.finishOnElement = false) : Counts k.threshold k where
  onElement s t _ d hs := by
    obtain ⟨_, d', hd, hstate⟩ :=
      (onElement_ensures he t).returns (s := d) (fun _ _ => not_mayFail hf hs) rfl
    exact ⟨d', hd, hstate⟩
  shouldFire s w _ := by
    rw [shouldFire_eq hf]
    unfold isReady
    rw [hr]
  onOnlyFiring s d hs := by
    obtain ⟨_, d', hd, hstate⟩ :=
      onOnlyFiring_ensures.returns (s := d) (fun _ _ => not_mayFail hf hs) rfl
    exact ⟨d', hd, hstate.sameFinished⟩

namespace Counter

theorem clamp_next (k : Nat) : (clamp k).next = clamp (k + 1) := by
  apply Counter.ext
  unfold next
  rw [toNat_clamp, toNat_clamp, toNat_clamp]
  split_ifs <;> omega

theorem le_clamp {n : Counter} {k : Nat} : n.toNat ≤ (clamp k).toNat ↔ n.toNat ≤ k := by
  have := n.le_greatest
  rw [toNat_clamp]
  split_ifs <;> omega

end Counter

/-- The hook adds one to the counter of its node. -/
def Next (p : Position) (w w' : WindowState) : Prop := w' = w.setCounter p (w.counter p).next

/-- The state of a window shows a phase and its count. -/
def Shows (c : EarlyAndLate κ) : CountPhase → WindowState → Prop
  | .early k, s => s.finished .root = false ∧ s.finished .early = false ∧
    s.finished .late = false ∧ s.counter .early = Counter.clamp k
  | .late k, s => c.late ≠ none ∧ s.finished .root = false ∧ s.finished .early = true ∧
    s.finished .late = false ∧ s.counter .late = Counter.clamp k
  | .closed, s => c.late = none ∧ s.finished .root = true ∧ s.finished .early = true

namespace Shows

variable {c : EarlyAndLate κ} {ph : CountPhase} {s s' w₁ : WindowState} {m : Thresholds}
  {ended : Bool}

theorem start : Shows c (.early 0) .empty := by
  refine ⟨by simp, by simp, by simp, ?_⟩
  rw [WindowState.counter_empty]
  rfl

theorem closed (h : Shows c ph s) : s.finished .root = decide (ph = .closed) := by
  cases ph with
  | early k => simp [h.1]
  | late k => simp [h.2.1]
  | closed => simp [h.2.1]

theorem hasOpenChild (h : Shows c ph s) (hr : s.finished .root = false) : c.HasOpenChild s := by
  cases ph with
  | early k => exact .inl h.2.1
  | late k => exact .inr ⟨h.1, h.2.2.2.1⟩
  | closed =>
    rw [h.2.1] at hr
    cases hr

section Counting

variable {k : Nat} {n : Counter} {p : Position}

theorem early_counts (h : Shows c (.early k) s) :
    Shows c (.early (k + 1)) (s.setCounter .early (s.counter .early).next) := by
  obtain ⟨hr, he, hl, hk⟩ := h
  refine ⟨by simp [hr], by simp [he], by simp [hl], ?_⟩
  rw [WindowState.counter_setCounter, if_pos rfl, hk, Counter.clamp_next]

theorem late_counts (h : Shows c (.late k) s) :
    Shows c (.late (k + 1)) (s.setCounter .late (s.counter .late).next) := by
  obtain ⟨hc, hr, he, hl, hk⟩ := h
  refine ⟨hc, by simp [hr], by simp [he], by simp [hl], ?_⟩
  rw [WindowState.counter_setCounter, if_pos rfl, hk, Counter.clamp_next]

/-- In the early phase the counter of the late child is not read. -/
theorem setCounter_late (h : Shows c (.early k) s) : Shows c (.early k) (s.setCounter .late n) := by
  obtain ⟨hr, he, hl, hk⟩ := h
  exact ⟨by simp [hr], by simp [he], by simp [hl], by simp [WindowState.counter_setCounter, hk]⟩

/-- In the late phase the counter of the early child is not read. -/
theorem setCounter_early (h : Shows c (.late k) s) : Shows c (.late k) (s.setCounter .early n) := by
  obtain ⟨hc, hr, he, hl, hk⟩ := h
  exact ⟨hc, by simp [hr], by simp [he], by simp [hl],
    by simp [WindowState.counter_setCounter, hk]⟩

theorem setCounter_closed (h : Shows c .closed s) : Shows c .closed (s.setCounter p n) := by
  obtain ⟨hc, hr, he⟩ := h
  exact ⟨hc, by simp [hr], by simp [he]⟩

end Counting

/-- An element adds one to the count, whether or not the idle child takes it too. -/
theorem element {merging : Bool} (h : Shows c ph s) (hf : c.Fed Next merging s s') :
    Shows c ph.element s' := by
  cases ph with
  | early k =>
    cases hf with
    | early _ _ hn =>
      cases hn
      exact h.early_counts
    | late _ he => simp [h.2.1] at he
    | alone _ _ hn =>
      cases hn
      exact h.early_counts
    | both _ _ hn hn' =>
      cases hn
      cases hn'
      exact h.early_counts.setCounter_late
  | late k =>
    cases hf with
    | early _ he => simp [h.2.2.1] at he
    | late _ _ _ _ hn =>
      cases hn
      exact h.late_counts
    | alone _ hc => exact absurd hc h.1
    | both _ _ hn hn' =>
      cases hn
      cases hn'
      exact h.setCounter_early.late_counts
  | closed =>
    cases hf with
    | early _ he => simp [h.2.2] at he
    | late _ _ hc => exact absurd h.1 hc
    | alone _ _ hn =>
      cases hn
      exact h.setCounter_closed
    | both _ hc => exact absurd h.1 hc

/-- A firing moves the phase on and puts the count back to zero. -/
theorem fired (hm : m.late.isSome = c.late.isSome) (h : Shows c ph s) (hs : SameFinished s w₁) :
    Shows c (ph.fire m ended) (c.fired ended w₁) := by
  have hzero : (0 : Counter) = Counter.clamp 0 := rfl
  unfold EarlyAndLate.fired
  cases ph with
  | early k =>
    obtain ⟨hr, he, hl, -⟩ := h
    rw [← hs] at hr he hl
    cases ended with
    | false =>
      simp [CountPhase.fire, Shows, WindowState.finished_setFinished,
        WindowState.finished_clearSubtree, WindowState.counter_clearSubtree, hr, he, hl, hzero]
    | true =>
      rcases hc : c.late with _ | t
      · rw [hc] at hm
        simp [CountPhase.fire, Shows, WindowState.finished_setFinished,
          WindowState.finished_clearSubtree, he, hm, hc]
      · rw [hc] at hm
        simp [CountPhase.fire, Shows, WindowState.finished_setFinished,
          WindowState.finished_clearSubtree, WindowState.counter_clearSubtree, hr, he, hl, hm, hc,
          hzero]
  | late k =>
    obtain ⟨hc, hr, he, hl, -⟩ := h
    rw [← hs] at hr he hl
    obtain ⟨t, hc'⟩ := Option.ne_none_iff_exists'.1 hc
    simp [CountPhase.fire, Shows, WindowState.finished_setFinished,
      WindowState.finished_clearSubtree, WindowState.counter_clearSubtree, hr, he, hc', hzero]
  | closed =>
    obtain ⟨hc, hr, he⟩ := h
    rw [← hs] at hr he
    simp [CountPhase.fire, Shows, WindowState.finished_setFinished, he, hc]

end Shows

namespace EarlyAndLate.CountsTo

variable [CustomTrigger κ] {m : Thresholds} {c : EarlyAndLate κ} {ph : CountPhase}
  {s : WindowState} {i : Scope}

theorem isSome_eq (hc : c.CountsTo m) : m.late.isSome = c.late.isSome := by
  have h := hc.late
  generalize m.late = l, c.late = t at h
  cases h <;> rfl

theorem late_eq (hc : c.CountsTo m) {t : OnceTrigger κ} (ht : c.late = some t) :
    ∃ n, m.late = some n ∧ t.CountsTo n := by
  have h := hc.late
  rw [ht] at h
  generalize m.late = l at h
  cases h with
  | some h => exact ⟨_, rfl, h⟩

theorem leaves (hc : c.CountsTo m) :
    ∀ l ∈ (Node.root (.earlyAndLate c)).leaves, ∃ n k, l.trigger = .custom k ∧ Counts n k := by
  have one : ∀ n (t : OnceTrigger κ), t.CountsTo n → ∃ n k, t = .custom k ∧ Counts n k := by
    intro n t ht
    cases t with
    | custom k => exact ⟨n, k, rfl, ht⟩
    | endOfWindow => exact ht.elim
    | never => exact ht.elim
  refine forall_leaves (one _ _ hc.early) fun t ht => ?_
  obtain ⟨n, -, hn⟩ := hc.late_eq ht
  exact one n t hn

theorem leaf_ready {n : Counter} {t : OnceTrigger κ} (ht : t.CountsTo n) (hi : i.Open)
    {p : Position} {k : Nat} (hk : s.counter p = Counter.clamp k) :
    Leaf.ready ⟨p, t⟩ i s = .ok (decide (n.toNat ≤ k)) := by
  cases t with
  | endOfWindow => exact ht.elim
  | never => exact ht.elim
  | custom k' =>
    have h : CustomTrigger.shouldFire k' (Leaf.site ⟨p, .custom k'⟩ i) s = .ok _ :=
      ht.shouldFire (Leaf.site ⟨p, .custom k'⟩ i) s hi
    refine h.trans ?_
    show Except.ok (decide (n.toNat ≤ (s.counter p).toNat)) = _
    rw [hk]
    simp only [Counter.le_clamp]

theorem ready (hc : c.CountsTo m) (hi : i.Open) (h : Shows c ph s)
    (hr : s.finished .root = false) :
    (Node.root (.earlyAndLate c)).ready i s = .ok (ph.ready m i.ended) := by
  cases ph with
  | early k =>
    obtain ⟨-, he, -, hk⟩ := h
    have hl : (c.earlyAt .root).ready i s = .ok (decide (m.early.toNat ≤ k)) :=
      leaf_ready hc.early hi hk
    rw [EarlyAndLate.ready_of_early he, hl]
    rfl
  | late k =>
    obtain ⟨hn, -, he, -, hk⟩ := h
    obtain ⟨t, ht⟩ := Option.ne_none_iff_exists'.1 hn
    obtain ⟨l, hl, hcount⟩ := hc.late_eq ht
    rw [EarlyAndLate.ready_of_late he, ht]
    unfold CountPhase.ready
    rw [hl]
    exact leaf_ready hcount hi hk
  | closed =>
    rw [h.2.1] at hr
    cases hr

theorem onElement_does (hc : c.CountsTo m) (hi : i.Open) (t : Timestamp) (ws : List Window) :
    ∀ l ∈ (Node.root (.earlyAndLate c)).leaves, l.trigger.IfCustom fun k =>
      HookDoes (Next l.position) False (CustomTrigger.onElement k (l.site i) t ws) := by
  intro l hl
  obtain ⟨n, k, hk, hcount⟩ := hc.leaves l hl
  rw [hk]
  refine .of_ok (fun d d' hd => ?_) (.inr fun d => ?_)
  · obtain ⟨d'', hd'', hs⟩ := hcount.onElement (l.site i) t ws d hi
    rw [hd] at hd''
    cases hd''
    exact hs
  · obtain ⟨d', hd, -⟩ := hcount.onElement (l.site i) t ws d hi
    exact ⟨d', hd⟩

theorem onOnlyFiring_does (hc : c.CountsTo m) (hi : i.Open) :
    ∀ l ∈ (Node.root (.earlyAndLate c)).leaves, l.trigger.IfCustom fun k =>
      HookDoes SameFinished False (CustomTrigger.onOnlyFiring k (l.site i)) := by
  intro l hl
  obtain ⟨n, k, hk, hcount⟩ := hc.leaves l hl
  rw [hk]
  refine .of_ok (fun d d' hd => ?_) (.inr fun d => ?_)
  · obtain ⟨d'', hd'', hs⟩ := hcount.onOnlyFiring (l.site i) d hi
    rw [hd] at hd''
    cases hd''
    exact hs
  · obtain ⟨d', hd, -⟩ := hcount.onOnlyFiring (l.site i) d hi
    exact ⟨d', hd⟩

theorem shouldFire_ok (hc : c.CountsTo m) (hi : i.Open) :
    ∀ l ∈ (Node.root (.earlyAndLate c)).leaves, l.trigger.IfCustom fun k =>
      ∀ w e, CustomTrigger.shouldFire k (l.site i) w = .error e → False := by
  intro l hl
  obtain ⟨n, k, hk, hcount⟩ := hc.leaves l hl
  rw [hk]
  intro w e he
  rw [hcount.shouldFire (l.site i) w hi] at he
  cases he

end EarlyAndLate.CountsTo

namespace Runner

/-- What shows of the runner is what the board shows. -/
structure Refines (c : EarlyAndLate κ) (lateness : Nat) (b : Board) (v : Seen κ) : Prop where
  root : v.root = .root (.earlyAndLate c)
  lateness : v.allowedLateness = lateness
  watermark : v.watermark = b.watermark
  active : v.active = b.active
  telemetry : v.telemetry = b.telemetry
  states : ∀ w, Shows c (b.phase w) (v.store w)

variable {c : EarlyAndLate κ} {n : Nat} {b : Board} {v : Seen κ} {w : Window}
  {m : Thresholds}

namespace Refines

theorem closed_eq (h : Refines c n b v) : v.closedIn (v.store w) = b.isClosed w := by
  unfold closedIn Board.isClosed
  rw [h.root]
  exact (h.states w).closed

theorem put (h : Refines c n b v) {s : WindowState} {ph : CountPhase} (hs : Shows c ph s)
    {v' : Seen κ} {b' : Board} (hroot : v'.root = v.root)
    (hlate : v'.allowedLateness = v.allowedLateness) (hstore : v'.store = v.store.put w s)
    (hphase : b'.phase = (b.put w ph).phase) (hw : v'.watermark = b'.watermark)
    (ha : v'.active = b'.active) (ht : v'.telemetry = b'.telemetry) : Refines c n b' v' := by
  refine ⟨hroot.trans h.root, hlate.trans h.lateness, hw, ha, ht, fun u => ?_⟩
  rw [hstore, hphase]
  by_cases huw : u = w
  · rw [huw, Contents.put_same, Board.put_phase_same]
    exact hs
  · rw [Contents.put_other _ _ huw, Board.put_phase_other _ _ huw]
    exact h.states u

theorem collected (h : Refines c n b v) : Refines c n (b.collect w) (v.collected w) := by
  refine h.put Shows.start rfl rfl rfl rfl h.watermark ?_ ?_
  · show v.active.erase w = b.active.erase w
    rw [h.active]
  · show { v.telemetry with collected := v.telemetry.collected + 1 } = _
    rw [h.telemetry]
    rfl

theorem foldl_collected : ∀ (us : List Window) {b : Board} {v : Seen κ}, Refines c n b v →
    Refines c n (us.foldl Board.collect b) (us.foldl Runner.collected v)
  | [], _, _, h => h
  | _ :: us, _, _, h => foldl_collected us h.collected

theorem advance (h : Refines c n b v) (t : Timestamp) :
    Refines c n (b.advance t) (v.advance t).2 := by
  unfold Runner.advance Board.advance
  rw [h.watermark]
  split_ifs
  · exact h
  · exact ⟨h.root, h.lateness, rfl, h.active, h.telemetry, h.states⟩

theorem dropped (h : Refines c n b v) {reason : DropReason} {b' : Board}
    (hb : b' = { b with telemetry := b.telemetry.countDrop reason }) :
    Refines c n b' (v.dropped w reason) := by
  rw [hb]
  refine ⟨h.root, h.lateness, h.watermark, h.active, ?_, h.states⟩
  show v.telemetry.countDrop reason = _
  rw [h.telemetry]

section Evaluating

variable [CustomTrigger κ]

theorem expired_eq (h : Refines c n b v) : v.expired w = b.expired n w := by
  unfold expired guarantee Board.expired
  rw [h.root, h.lateness, h.watermark]
  rfl

theorem readiness_eq (hc : c.CountsTo m) (h : Refines c n b v) :
    v.readiness w = .ok (b.ready m w) := by
  unfold readiness Board.ready
  rw [closedIn_root h.root]
  rcases hr : (v.store w).finished .root
  · have hready := hc.ready (v.scope_open w) (h.states w) hr
    rw [if_neg Bool.false_ne_true, h.root, hready, ← h.watermark]
    rfl
  · have hclosed : b.phase w = .closed := by
      have := (h.states w).closed
      rw [hr] at this
      exact of_decide_eq_true this.symm
    rw [if_pos rfl, hclosed]
    rfl

end Evaluating

end Refines

section Steps

variable [StateStore σ] [LawfulStore σ]

theorem isClosed_refines (hF : ¬LawfulStore.Faulty σ) :
    Ensures (fun r : Runner κ σ => Refines c n b r.seen) (isClosed w)
      (fun a r => a = b.isClosed w ∧ Refines c n b r.seen) fun _ _ => False := by
  refine .of_each (f := seen) fun v hv => isClosed_ensures.mono (fun _ h => h) ?_ ?_
  · intro a r hx
    obtain ⟨ha, hr⟩ := hx
    rw [hr, ha]
    exact ⟨hv.closed_eq, hv⟩
  · intro _ r hx
    obtain ⟨hf, -⟩ := hx
    exact hF hf

variable [CustomTrigger κ]

theorem deliver_refines (hc : c.CountsTo m) (hF : ¬LawfulStore.Faulty σ) (ws : List Window)
    (t : Timestamp) (b : Board) (w : Window) :
    Ensures (fun r : Runner κ σ => Refines c n b r.seen) (deliver ws t w)
      (fun _ r => Refines c n (b.deliver n w) r.seen) fun _ _ => False := by
  refine .of_each (f := seen) fun v hv => ?_
  have hexp : v.expired w = b.expired n w := hv.expired_eq
  have hclosed : v.closedIn (v.store w) = b.isClosed w := hv.closed_eq
  have taken : v.dropReason? w = none → Ensures (fun p => p = { state := v.store w })
      (v.root.onElement (v.scope w) t ws)
      (fun _ p => c.Fed Next v.supportsMerging (v.store w) p.state) fun _ _ => False := by
    intro hn
    have hopen := open_of_dropReason hn
    unfold closedIn at hopen
    rw [hv.root] at hopen
    rw [hv.root]
    have custom : ∀ l ∈ (Node.root (.earlyAndLate c)).leaves, l.trigger.Builtin →
        ∀ w, Next l.position w w := fun l hl hb => by
      obtain ⟨n, k, hk, -⟩ := hc.leaves l hl
      rw [hk] at hb
      exact hb.elim
    exact (EarlyAndLate.onElement_ensures custom (v.scope_open w)
      (hc.onElement_does (v.scope_open w) t ws) (.inr ((hv.states w).hasOpenChild hopen))).mono
      (fun p hp => by rw [hp]) (fun _ _ h => h) fun _ _ h => h
  refine deliver_ensures.mono (fun _ h => h) ?_ ?_
  · intro _ r hx
    rcases hx with ⟨reason, hreason, hr⟩ | ⟨hn, p, hp, hr⟩
    · rw [hr]
      unfold dropReason? at hreason
      rw [hexp, hclosed] at hreason
      unfold Board.deliver
      split_ifs at hreason ⊢ with he hcl
      · cases hreason
        exact hv.dropped rfl
      · cases hreason
        exact hv.dropped rfl
    · rw [hr]
      have hfed := (taken hn).of_ok rfl hp
      unfold dropReason? at hn
      rw [hexp, hclosed] at hn
      unfold Board.deliver
      split_ifs at hn ⊢ with he hcl
      refine hv.put ((hv.states w).element hfed) rfl rfl rfl rfl hv.watermark ?_ ?_
      · show v.active.insert w = b.active.insert w
        rw [hv.active]
      · show { v.telemetry with elements := v.telemetry.elements + 1 } = _
        rw [hv.telemetry]
  · intro _ r hx
    rcases hx with ⟨hf | ⟨hn, e, p, hp⟩, -⟩
    · exact hF hf
    · exact (taken hn).of_error rfl hp

theorem firing_refines (hc : c.CountsTo m) (h : Refines c n b v) :
    Ensures (fun p => p = { state := v.store w }) (v.root.onFire (v.scope w))
      (fun _ p => Refines c n (b.fire m w) (v.fired w p)) fun _ _ => False := by
  rw [h.root]
  refine (EarlyAndLate.onFire_ensures (A := fun _ => SameFinished) (fun _ => SameFinished.refl)
    (fun _ _ _ h => h) (hc.onOnlyFiring_does (v.scope_open w))
    (hc.shouldFire_ok (v.scope_open w))).mono
    (fun p hp => by rw [hp]) ?_ fun _ _ hf => hf
  intro _ p hx
  obtain ⟨w₁, h₁, hp⟩ := hx
  have hshows : Shows c ((b.phase w).fire m (w.endedBy b.watermark)) p.state := by
    rw [hp, ← h.watermark]
    exact (h.states w).fired hc.isSome_eq h₁
  refine h.put hshows fired_root fired_allowedLateness fired_store rfl ?_ ?_ ?_
  · rw [fired_watermark]
    exact h.watermark
  · rw [fired_active]
    exact h.active
  · have hclosed : v.closedIn p.state =
        (b.put w ((b.phase w).fire m (w.endedBy b.watermark))).isClosed w := by
      unfold closedIn Board.isClosed
      rw [h.root, Board.put_phase_same]
      exact hshows.closed
    rw [fired_telemetry, hclosed, h.telemetry]
    rfl

theorem onFire_refines (hc : c.CountsTo m) (hF : ¬LawfulStore.Faulty σ) :
    Ensures (fun r : Runner κ σ => Refines c n b r.seen) (onFire w)
      (fun _ r => Refines c n (b.fire m w) r.seen) fun _ _ => False := by
  refine .of_each (f := seen) fun v hv => onFire_ensures.mono (fun _ h => h) ?_ ?_
  · intro _ r hx
    obtain ⟨p, hp, hr⟩ := hx
    rw [hr]
    exact (firing_refines hc hv).of_ok rfl hp
  · intro _ r hx
    rcases hx with ⟨hf | ⟨e, p, hp⟩, -⟩
    · exact hF hf
    · exact (firing_refines hc hv).of_error rfl hp

theorem readiness_ok (hc : c.CountsTo m) (hF : ¬LawfulStore.Faulty σ) (h : Refines c n b v) :
    ¬(LawfulStore.Faulty σ ∨ ∃ e, v.readiness w = .error e) := by
  intro hx
  rcases hx with hf | ⟨e, he⟩
  · exact hF hf
  · rw [h.readiness_eq hc] at he
    cases he

theorem shouldFire_refines (hc : c.CountsTo m) (hF : ¬LawfulStore.Faulty σ) :
    Ensures (fun r : Runner κ σ => Refines c n b r.seen) (shouldFire w)
      (fun a r => a = b.ready m w ∧ Refines c n b r.seen) fun _ _ => False := by
  refine .of_each (f := seen) fun v hv => shouldFire_ensures.mono (fun _ h => h) ?_ ?_
  · intro a r hx
    obtain ⟨ha, hr⟩ := hx
    rw [hv.readiness_eq hc] at ha
    cases ha
    rw [hr]
    exact ⟨rfl, hv⟩
  · intro _ r hx
    obtain ⟨hf, -⟩ := hx
    exact readiness_ok hc hF hv hf

theorem fireIfReady_refines (hc : c.CountsTo m) (hF : ¬LawfulStore.Faulty σ) :
    Ensures (fun r : Runner κ σ => Refines c n b r.seen) (fireIfReady w)
      (fun o r => o = (b.tryFire m w).1 ∧ Refines c n (b.tryFire m w).2 r.seen)
      fun _ _ => False := by
  unfold Board.tryFire
  refine .bind (shouldFire_refines hc hF) fun a => .of_fact fun ha =>
    .ite (fun ht => ?_) fun hf => ?_
  · rw [if_pos (ha.symm.trans ht)]
    refine .bind (onFire_refines hc hF) fun _ => .bind (isClosed_refines hF) fun a => .pure ?_
    intro r h
    obtain ⟨rfl, hr⟩ := h
    exact ⟨rfl, hr⟩
  · rw [if_neg (ha ▸ hf)]
    exact .pure fun _ hr => ⟨rfl, hr⟩

theorem garbageCollect_refines (hc : c.CountsTo m) (hF : ¬LawfulStore.Faulty σ) :
    Ensures (fun r : Runner κ σ => Refines c n b r.seen) garbageCollect
      (fun us r => us = b.garbage m n ∧ Refines c n ((b.garbage m n).foldl Board.collect b) r.seen)
      fun _ _ => False := by
  refine .of_each (f := seen) fun v hv => garbageCollect_ensures.mono (fun _ h => h) ?_ ?_
  · intro us r hx
    obtain ⟨hus, hr⟩ := hx
    have hgarbage : us = b.garbage m n := by
      rw [hus, List.filter_filter]
      unfold Board.garbage
      rw [hv.active]
      refine List.filter_congr fun w _ => ?_
      unfold idle
      rw [hv.readiness_eq hc, hv.expired_eq, Bool.and_comm]
    rw [hr, hgarbage]
    exact ⟨rfl, hv.foldl_collected _⟩
  · intro _ r hx
    rcases hx with hf | ⟨u, e, he⟩
    · exact hF hf
    · exact readiness_ok hc hF hv (.inr ⟨e, he⟩)

end Steps

/-- The answer of a runner is what the machine tells of it. -/
def Agrees : Option Answer → Except RunnerError Answer → Prop
  | some a, x => x = .ok a
  | none, x => ∃ a, x = .ok a

section Run

variable [StateStore σ] [LawfulStore σ] [CustomTrigger κ]

/-- An operation is answered as by the machine and leaves the board that the machine leaves. -/
theorem perform_refines (hc : c.CountsTo m) (hF : ¬LawfulStore.Faulty σ) {op : Operation}
    (hop : op.Plain) :
    Ensures (fun r : Runner κ σ => Refines c n b r.seen) (perform op)
      (fun a r => Agrees (b.step m n op).1 (.ok a) ∧ Refines c n (b.step m n op).2 r.seen)
      fun _ _ => False := by
  cases op with
  | element ws t =>
    exact .bind (.forM_foldl (deliver_refines hc hF ws t) ws b) fun _ => .pure fun _ h => ⟨rfl, h⟩
  | advance t =>
    refine .bind (Q := fun _ r => Refines c n (b.advance t) r.seen)
      (.of_each (f := seen) fun v hv => advance_ensures.onReturn fun us r hr => ?_)
      fun us => .pure ?_
    · rw [hr.2]
      exact hv.advance t
    · intro r h
      exact ⟨⟨_, rfl⟩, h⟩
  | shouldFire w =>
    refine .bind (shouldFire_refines hc hF) fun a => .pure ?_
    intro r hx
    obtain ⟨rfl, hr⟩ := hx
    exact ⟨rfl, hr⟩
  | fire w => exact .bind (onFire_refines hc hF) fun _ => .pure fun _ h => ⟨rfl, h⟩
  | fireIfReady w =>
    refine .bind (fireIfReady_refines hc hF) fun o => .pure ?_
    intro r hx
    obtain ⟨rfl, hr⟩ := hx
    exact ⟨rfl, hr⟩
  | isClosed w =>
    refine .bind (isClosed_refines hF) fun a => .pure ?_
    intro r hx
    obtain ⟨rfl, hr⟩ := hx
    exact ⟨rfl, hr⟩
  | collect =>
    refine .bind (garbageCollect_refines hc hF) fun us => .pure ?_
    intro r hx
    obtain ⟨rfl, hr⟩ := hx
    exact ⟨rfl, hr⟩
  | merge ws d => exact hop.elim
  | tick t => exact hop.elim
  | windowState w => exact hop.elim

theorem step_refines (hc : c.CountsTo m) (hF : ¬LawfulStore.Faulty σ) {op : Operation}
    (hop : op.Plain) {r : Runner κ σ} (h : Refines c n b r.seen) :
    Agrees (b.step m n op).1 (r.step op).1 ∧ Refines c n (b.step m n op).2 (r.step op).2.seen := by
  obtain ⟨a, r', hr', ha, href⟩ := (perform_refines hc hF hop).returns (fun _ _ h => h) h
  rw [step_of_ok hr']
  exact ⟨ha, href⟩

theorem run_refines (hc : c.CountsTo m) (hF : ¬LawfulStore.Faulty σ) : ∀ (ops : List Operation)
    {b : Board} {r : Runner κ σ}, (∀ op ∈ ops, op.Plain) → Refines c n b r.seen →
    List.Forall₂ Agrees (b.answers m n ops) (r.answers ops) ∧
      Refines c n (b.run m n ops) (r.run ops).seen
  | [], _, _, _, h => ⟨.nil, h⟩
  | op :: ops, b, r, hops, h => by
    obtain ⟨ha, hs⟩ := step_refines hc hF (hops op List.mem_cons_self) h
    obtain ⟨has, hrun⟩ := run_refines hc hF ops (fun o ho => hops o (List.mem_cons_of_mem _ ho)) hs
    exact ⟨.cons ha has, hrun⟩

end Run

/-- A runner in memory over a composite of counting triggers behaves as the counting machine does,
whether or not its windows can merge. Its answers are those of the machine, and so are, after the
run, its watermark, its active windows, its telemetry, which counts the drops, and for each window
the phase, the count in it, and whether the window is closed. -/
theorem counting_refinement [CustomTrigger κ] (hc : c.CountsTo m) (cfg : RunnerConfig)
    {ops : List Operation} (hops : ∀ op ∈ ops, op.Plain) :
    let r := start (.earlyAndLate c) cfg MemoryStore.empty
    let b : Board := {}
    let r' := r.run ops
    let b' := b.run m cfg.allowedLateness ops
    List.Forall₂ Agrees (b.answers m cfg.allowedLateness ops) (r.answers ops) ∧
      r'.watermark = b'.watermark ∧ r'.active = b'.active ∧ r'.telemetry = b'.telemetry ∧
      ∀ w, Shows c (b'.phase w) (r'.store.state w) ∧
        r'.closedIn (r'.store.state w) = b'.isClosed w := by
  intro r b r' b'
  have hstart : Refines c cfg.allowedLateness b r.seen := by
    refine ⟨rfl, rfl, rfl, rfl, rfl, fun w => ?_⟩
    show Shows c (.early 0) (MemoryStore.empty.state w)
    rw [MemoryStore.state_empty]
    exact Shows.start
  obtain ⟨ha, h⟩ := run_refines (n := cfg.allowedLateness) hc (fun hf => hf) ops hops hstart
  exact ⟨ha, h.watermark, h.active, h.telemetry, fun w => ⟨h.states w, h.closed_eq⟩⟩

/-- The first window fires early, at its end, and is collected; the element past its end is counted
by the late trigger. -/
theorem counting_refinement_scripted :
    let c : EarlyAndLate ScriptedTrigger :=
      ⟨.custom { threshold := .clamp 2 }, some (.custom { threshold := .clamp 3 })⟩
    let m : Thresholds := ⟨.clamp 2, some (.clamp 3)⟩
    let a : Window := ⟨.clamp 0, .clamp 10⟩
    let b : Window := ⟨.clamp 10, .clamp 20⟩
    let ops : List Operation := [.element [a, b] (.clamp 3), .element [a] (.clamp 4),
      .fireIfReady a, .advance (.clamp 12), .fireIfReady a, .element [a] (.clamp 5), .shouldFire a,
      .advance (.clamp 18), .collect]
    let r := start (.earlyAndLate c) { supportsMerging := true, allowedLateness := 5 }
      MemoryStore.empty
    List.Forall₂ Agrees (Board.answers m 5 {} ops) (r.answers ops) ∧
      (Board.run m 5 {} ops).telemetry.firings = 2 ∧
      (r.run ops).telemetry = (Board.run m 5 {} ops).telemetry := by
  intro c m a b ops
  have counts : ∀ n, Counts n ({ threshold := n } : ScriptedTrigger) := fun n =>
    ScriptedTrigger.counts (k := { threshold := n }) rfl rfl rfl
  have hc : c.CountsTo m := ⟨counts (.clamp 2), .some (counts (.clamp 3))⟩
  have hops : ∀ op ∈ ops, op.Plain := by simp [ops, Operation.Plain]
  obtain ⟨ha, -, -, ht, -⟩ :=
    counting_refinement hc { supportsMerging := true, allowedLateness := 5 } hops
  exact ⟨ha, by decide +kernel, ht⟩

end Runner

end PaneTriggers
