import PaneTriggers.Proofs.Invariants
import PaneTriggers.Proofs.ScriptedConduct
import PaneTriggers.Proofs.TreeEffects

/-!
# The phases of a composite

A composite writes three done bits, its own and those of its children, in five places. In every
window they stay in one of three combinations: nothing done, or the early child done after the end
of the window, together with the root if there is no late child. `Phase` says so for one window.
A merge keeps it because the composite and the runner close the merged window under the same
condition, and then `phased_invariant` makes it an invariant of runners.
-/

namespace PaneTriggers

variable {κ σ : Type}

namespace EarlyAndLate

variable {c : EarlyAndLate κ} {ended : Bool} {s s' : WindowState}

/-- The done bits that a window can show. -/
structure Phase (c : EarlyAndLate κ) (ended : Bool) (s : WindowState) : Prop where
  ended : s.finished .early = true → ended = true
  alone : c.late = none → s.finished .root = s.finished .early
  unfinished : c.late ≠ none → s.finished .root = false ∧ s.finished .late = false

theorem phase_empty : c.Phase ended .empty := ⟨by simp, by simp, by simp⟩

theorem Phase.later (h : c.Phase ended s) {ended' : Bool} (he : ended = true → ended' = true) :
    c.Phase ended' s :=
  ⟨fun hf => he (h.ended hf), h.alone, h.unfinished⟩

theorem Phase.of_sameFinished (h : c.Phase ended s) (hs : SameFinished s s') :
    c.Phase ended s' := by
  refine ⟨fun hf => h.ended ?_, fun hc => ?_, fun hc => ?_⟩
  · rw [← hs .early, hf]
  · rw [hs .root, hs .early, h.alone hc]
  · rw [hs .root, hs .late]
    exact h.unfinished hc

/-- A window that is not closed has a child that takes its elements. -/
theorem Phase.hasOpenChild (h : c.Phase ended s) (hr : s.finished .root = false) :
    c.HasOpenChild s := by
  by_cases hc : c.late = none
  · exact .inl (by rw [← h.alone hc, hr])
  · exact .inr ⟨hc, (h.unfinished hc).2⟩

theorem Fed.sameFinished {m : Bool} (h : c.Fed CounterAt m s s') : SameFinished s s' := by
  cases h with
  | early _ _ h => exact h.sameFinished
  | late _ _ _ _ h => exact h.sameFinished
  | alone _ _ h => exact h.sameFinished
  | both _ _ h₁ h₂ => exact h₁.sameFinished.trans h₂.sameFinished

theorem Phase.fired (h : c.Phase ended s) : c.Phase ended (c.fired ended s) := by
  unfold EarlyAndLate.fired
  rcases he : s.finished .early
  · cases ended with
    | false =>
      refine ⟨fun hf => ?_, fun hc => ?_, fun hc => ?_⟩
      · simp [WindowState.finished_setFinished] at hf
      · simpa [WindowState.finished_setFinished, WindowState.finished_clearSubtree, he]
          using h.alone hc
      · simpa [WindowState.finished_setFinished, WindowState.finished_clearSubtree]
          using h.unfinished hc
    | true =>
      rcases hc : c.late with _ | t
      · refine ⟨fun _ => rfl, fun _ => ?_, fun hn => absurd hc hn⟩
        simp [WindowState.finished_setFinished, WindowState.finished_clearSubtree]
      · refine ⟨fun _ => rfl, fun hn => ?_, fun hn => ?_⟩
        · rw [hc] at hn
          cases hn
        · simpa [WindowState.finished_setFinished, WindowState.finished_clearSubtree]
            using h.unfinished hn
  · have hend := h.ended he
    rcases hc : c.late with _ | t
    · refine ⟨fun _ => hend, fun _ => ?_, fun hn => absurd hc hn⟩
      simp [WindowState.finished_setFinished, he]
    · refine ⟨fun _ => hend, fun hn => ?_, fun hn => ?_⟩
      · rw [hc] at hn
        cases hn
      · have hl := h.unfinished hn
        simp [WindowState.finished_setFinished, WindowState.finished_clearSubtree, hl.1]

theorem finishedInAll_false {ms : List MergeSource} {p : Position} (hms : ms ≠ [])
    (h : ∀ m ∈ ms, m.state.finished p = false) : finishedInAll ms p = false := by
  obtain ⟨m, ms', rfl⟩ := List.exists_cons_of_ne_nil hms
  simp [finishedInAll, h m List.mem_cons_self]

/-- What the composite and then the runner make of merged windows. -/
theorem Phase.merged {ms : List MergeSource} (hms : ms ≠ [])
    (h : ∀ m ∈ ms, ∃ e, c.Phase e m.state) (hs : c.Reconciled CounterAt ended ms .empty s) :
    c.Phase ended (if ended && !ms.isEmpty && finishedInAll ms .root then s.setFinished .root true
      else s) := by
  have hempty : ms.isEmpty = false := by simpa using hms
  have both : ∀ p, (finishedInAll ms p && ended) = true →
      finishedInAll ms p = true ∧ ended = true := fun p hp => by simpa using hp
  -- With a late child no source is closed, so the runner does not close the destination either.
  have hopen : c.late ≠ none →
      finishedInAll ms .root = false ∧ finishedInAll ms .late = false := fun hc =>
    ⟨finishedInAll_false hms fun m hm => by
      obtain ⟨e, he⟩ := h m hm
      exact (he.unfinished hc).1,
    finishedInAll_false hms fun m hm => by
      obtain ⟨e, he⟩ := h m hm
      exact (he.unfinished hc).2⟩
  -- Without one the runner closes it exactly when the composite retires the early child.
  have hroot : c.late = none → finishedInAll ms .root = finishedInAll ms .early := fun hc => by
    unfold finishedInAll
    rw [Bool.eq_iff_iff, List.all_eq_true, List.all_eq_true]
    refine forall₂_congr fun m hm => ?_
    obtain ⟨e, he⟩ := h m hm
    rw [he.alone hc]
  cases hs with
  | restarted hr =>
    unfold restarted
    rcases hc : c.late with _ | t
    · have hcond : (ended && !ms.isEmpty && finishedInAll ms .root) = false := by
        rw [hroot hc, hempty, Bool.not_false, Bool.and_true, Bool.and_comm, hr]
      rw [hcond]
      refine ⟨?_, fun _ => ?_, fun hn => absurd hc hn⟩ <;> simp
    · have hn : c.late ≠ none := by simp [hc]
      rw [(hopen hn).1, Bool.and_false]
      refine ⟨?_, fun hc' => absurd hc' hn, fun _ => ?_⟩ <;> simp
  | alone hr hc =>
    obtain ⟨hf, he⟩ := both _ hr
    have hcond : (ended && !ms.isEmpty && finishedInAll ms .root) = true := by
      rw [hroot hc, hempty, he, hf]
      rfl
    rw [hcond]
    refine ⟨fun _ => he, fun _ => ?_, fun hn => absurd hc hn⟩
    simp [WindowState.finished_setFinished]
  | lateEnd hr hc =>
    have hn : c.late ≠ none := by simp [hc]
    rw [(hopen hn).1, Bool.and_false]
    refine ⟨fun _ => (both _ hr).2, fun hc' => absurd hc' hn, fun _ => ?_⟩
    simp [WindowState.finished_setFinished, (hopen hn).2]
  | late hr hn _ hA =>
    rw [(hopen hn).1, Bool.and_false]
    refine Phase.of_sameFinished ⟨fun _ => (both _ hr).2, fun hc' => absurd hc' hn, fun _ => ?_⟩
      hA.sameFinished
    simp [WindowState.finished_setFinished]

end EarlyAndLate

namespace Runner

variable {c : EarlyAndLate κ}

/-- The root is the composite, and every window shows a phase. -/
def Phased (c : EarlyAndLate κ) (v : Seen κ) : Prop :=
  v.root = .root (.earlyAndLate c) ∧ ∀ w, c.Phase (w.endedBy v.watermark) (v.store w)

theorem Phased.put {v v' : Seen κ} (h : Phased c v) {w : Window} {s : WindowState}
    (hs : c.Phase (w.endedBy v.watermark) s) (hroot : v'.root = v.root)
    (hw : v'.watermark = v.watermark) (hstore : v'.store = v.store.put w s) : Phased c v' := by
  refine ⟨hroot.trans h.1, ?_⟩
  rw [hw, hstore]
  exact Contents.forall_put hs h.2

theorem Phased.advance {v : Seen κ} (h : Phased c v) (t : Timestamp) :
    Phased c (v.advance t).2 := by
  refine ⟨(v.advance_root t).trans h.1, fun w => ?_⟩
  rw [advance_store]
  exact (h.2 w).later endedBy_advance

variable [CustomTrigger κ] {F : Prop}

theorem Phased.hasOpenChild {v : Seen κ} {w : Window} (h : Phased c v)
    (hn : v.dropReason? w = none) : c.HasOpenChild (v.store w) := by
  have hopen := open_of_dropReason hn
  rw [closedIn_root h.1] at hopen
  exact (h.2 w).hasOpenChild hopen

theorem phased_firing (hc : c.Customs (Modest F)) : FiringKeeps F (Phased c) := by
  intro v w h
  rw [h.1]
  refine (EarlyAndLate.onFire_ensures CounterAt.refl (fun _ _ _ => CounterAt.sameFinished)
    (fun l hl => (hc.leaves l hl).mono fun k hk => hk.onOnlyFiring (v.scope_open w))
    fun l hl => (hc.leaves l hl).mono fun k hk _ _ => hk.shouldFire (v.scope_open w)).mono
    (fun p hp => by rw [hp]) ?_ fun _ _ hf => hf
  intro _ p hx
  obtain ⟨w₁, h₁, hp⟩ := hx
  refine h.put (s := p.state) ?_ fired_root fired_watermark fired_store
  rw [hp]
  exact ((h.2 w).of_sameFinished h₁.sameFinished).fired

/-- The phases are an invariant of runners whose custom triggers write their own counters only. -/
theorem phased_invariant (hc : c.Customs (Modest F)) : Invariant F (Phased c) where
  drop _ _ _ h := h
  element v ws t w h hn := by
    have hopen := h.hasOpenChild hn
    rw [h.1]
    refine (EarlyAndLate.onElement_ensures (fun _ _ _ => CounterAt.refl _) (v.scope_open w)
      (fun l hl => (hc.leaves l hl).mono fun k hk => hk.onElement (v.scope_open w) t ws)
      (.inr hopen)).mono
      (fun p hp => by rw [hp]) (fun _ p hp => ?_) fun _ _ hf => hf
    exact h.put ((h.2 w).of_sameFinished hp.sameFinished) rfl rfl rfl
  ready v w h e he := by
    unfold readiness at he
    split_ifs at he
    rw [h.1] at he
    exact EarlyAndLate.ready_error (fun l hl => (hc.leaves l hl).mono fun k hk _ _ =>
      hk.shouldFire (v.scope_open w)) he
  merge v ws d h hws := by
    rw [h.1]
    refine (EarlyAndLate.onMerge_ensures CounterAt.refl fun l hl =>
      (hc.leaves l hl).mono fun k hk => hk.onMerge (v.scope_open d) _).mono
      (fun p hp => by rw [hp]) (fun _ p hp => ?_) fun _ _ hf => hf
    have hphase : c.Phase (d.endedBy v.watermark) (v.mergedState ws d p.state) := by
      unfold mergedState closeMerged
      rw [h.1]
      refine EarlyAndLate.Phase.merged (by simpa [sources] using hws) (fun m hm => ?_) hp
      obtain ⟨w, -, rfl⟩ := List.mem_map.1 hm
      exact ⟨_, h.2 w⟩
    refine ⟨merged_root.trans h.1, fun u => ?_⟩
    rw [merged_watermark, merged_store]
    unfold Contents.commit
    split_ifs with hd
    · rw [hd]
      exact hphase
    · exact EarlyAndLate.phase_empty
    · exact h.2 u
  collect v w h _ := h.put EarlyAndLate.phase_empty rfl rfl rfl
  interrupted v w v' _ h hi := by
    obtain ⟨ts, rfl⟩ := hi
    exact h
  halfMerged v ws d ts g _ h hg := by
    refine ⟨h.1, fun u => ?_⟩
    show c.Phase _ (g u)
    rcases hg u with hu | ⟨-, -, hu⟩
    · rw [hu]
      exact h.2 u
    · rw [hu]
      exact EarlyAndLate.phase_empty

section Run

variable [StateStore σ] [LawfulStore σ] {store : σ}

omit [CustomTrigger κ] in
theorem phased_start (cfg : RunnerConfig) (hstore : LawfulStore.contents store = .empty) :
    Phased c (start (.earlyAndLate c) cfg store).seen := by
  refine ⟨rfl, fun w => ?_⟩
  show c.Phase _ (LawfulStore.contents store w)
  rw [hstore]
  exact EarlyAndLate.phase_empty

theorem phased_run (hc : c.Customs OwnCounter) {ops : List Operation}
    (hops : ∀ op ∈ ops, op.HasSources) {r : Runner κ σ} (hr : Phased c r.seen) :
    Phased c (r.run ops).seen := by
  have hc : c.Customs (Modest True) := hc.mono fun k hk => ⟨hk, .inl trivial⟩
  refine run_keeps (J := fun r => Phased c r.seen) (fun op hop => ?_) hr
  exact ((phased_invariant hc).perform_keeps (fun _ => trivial) (hops op hop)
    (fun _ => phased_firing hc) fun t _ v hv => hv.advance t).onFail fun _ _ h => h.2

/-- In every window of every run the early child is done only after the end of the window. Without
a late child the root is done together with it; with one neither the root nor the late child is
ever done, so that the window is never closed. -/
theorem done_bits_of_run (hc : c.Customs OwnCounter) (cfg : RunnerConfig)
    (hstore : LawfulStore.contents store = .empty) {ops : List Operation}
    (hops : ∀ op ∈ ops, op.HasSources) (w : Window) :
    let r := (start (.earlyAndLate c) cfg store).run ops
    let s := LawfulStore.contents r.store w
    (s.finished .early = true → ∃ now, r.watermark = some now ∧ w.maxTimestamp < now) ∧
      (c.late = none → (s.finished .root = true ↔ s.finished .early = true)) ∧
      (c.late ≠ none →
        s.finished .root = false ∧ s.finished .late = false ∧ r.closedIn s = false) := by
  intro r s
  have hr : Phased c r.seen := phased_run hc hops (phased_start cfg hstore)
  have hw : c.Phase (w.endedBy r.watermark) s := hr.2 w
  have hroot : r.root = .root (.earlyAndLate c) := hr.1
  refine ⟨fun he => ?_, fun hl => by rw [hw.alone hl], fun hl => ?_⟩
  · exact endedBy_iff.1 (hw.ended he)
  · have hu := hw.unfinished hl
    refine ⟨hu.1, hu.2, ?_⟩
    unfold closedIn
    rw [hroot]
    exact hu.1

end Run

/-- The late trigger fails to merge and the second window cannot be loaded, but the first window is
brought to the end of its early phase and stays there. -/
theorem done_bits_of_faulty_run :
    let c : EarlyAndLate ScriptedTrigger :=
      ⟨.custom {}, some (.custom { failures := [(.onMerge, .unsupported)] })⟩
    let a : Window := ⟨.clamp 0, .clamp 10⟩
    let b : Window := ⟨.clamp 10, .clamp 20⟩
    let r := (start (.earlyAndLate c) {} ({ faults := { load := [b] } } : FaultyStore)).run
      [.element [a, b] (.clamp 3), .tick (.clamp 12), .merge [a] (a.span a), .fire b]
    let s := LawfulStore.contents r.store a
    s.finished .early = true ∧ (∃ now, r.watermark = some now ∧ a.maxTimestamp < now) ∧
      s.finished .root = false ∧ s.finished .late = false ∧ r.closedIn s = false := by
  intro c a b
  have hc : c.Customs OwnCounter := by
    refine ⟨ScriptedTrigger.ownCounter rfl, fun t ht => ?_⟩
    cases ht
    exact ScriptedTrigger.ownCounter rfl
  have hstore : LawfulStore.contents ({ faults := { load := [b] } } : FaultyStore) = .empty := by
    funext w
    exact MemoryStore.state_empty
  have hops : ∀ op ∈ ([.element [a, b] (.clamp 3), .tick (.clamp 12), .merge [a] (a.span a),
      .fire b] : List Operation), op.HasSources := by
    simp [Operation.HasSources]
  have h := done_bits_of_run hc {} hstore hops a
  exact ⟨by decide +kernel, h.1 (by decide +kernel), h.2.2 nofun⟩

end Runner

end PaneTriggers
