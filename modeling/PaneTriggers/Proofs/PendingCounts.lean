import PaneTriggers.Proofs.Changes
import PaneTriggers.Proofs.TreeEffects
import PaneTriggers.Trigger.Scripted

/-!
# What a merge makes of the counts of the early phase

A composite in its late phase hands a merge to its late child, but one that goes back to its early
phase does not hand it to its early child. The early child starts afresh, whatever the sources had
counted (`EarlyAndLate.onMerge_restarts`). So a merge keeps up with the elements that the sources
were counting for an early pane exactly if there were none (`Runner.pending_kept_iff`), and the
next early pane comes late, or not before the end of the window (`Runner.early_pane_forgotten`).
-/

namespace PaneTriggers

variable {κ σ : Type} {ms : List MergeSource}

/-- What the sources in their early phase have counted for the next early pane. -/
def pendingCount (ms : List MergeSource) : Counter :=
  counterOfAll (ms.filter fun m => !m.state.finished .early) .early

theorem pendingCount_of_finished (h : finishedInAll ms .early = true) : pendingCount ms = 0 := by
  unfold pendingCount
  rw [List.filter_eq_nil_iff.2 fun m hm => by simpa using List.all_eq_true.1 h m hm]
  rfl

variable [CustomTrigger κ]

/-- Whatever its children are, a composite that goes back to its early phase starts it afresh. -/
theorem EarlyAndLate.onMerge_restarts {c : EarlyAndLate κ} {s : Scope} :
    Ensures (fun p => p.state = .empty) ((Node.root (.earlyAndLate c)).onMerge s ms)
      (fun _ p => (finishedInAll ms .early && s.ended) = false → p.state = .empty)
      fun _ _ => True := by
  have hook : ∀ h : Hook Unit, HookDoes (fun _ _ => True) True h := fun h _ d _ => by
    cases h d <;> trivial
  refine (EarlyAndLate.onMerge_ensures (A := fun _ _ _ => True) (s := s)
    (fun _ _ => trivial) fun l _ => ?_).onReturn ?_
  · cases l.trigger <;> first | trivial | exact hook _
  · intro _ p hp hphase
    generalize p.state = s' at hp
    cases hp with
    | restarted => simp only [restarted]; cases c.late <;> simp
    | alone h => simp [h] at hphase
    | lateEnd h => simp [h] at hphase
    | late h => simp [h] at hphase

namespace Runner

variable [StateStore σ] {ws : List Window} {d : Window}

theorem merge_of_isOk {r : Runner κ σ} (h : (r.step (.merge ws d)).1.isOk = true) :
    merge ws d r = .ok () (r.step (.merge ws d)).2 := by
  cases hm : merge ws d r with
  | ok _ r' =>
    have hs : r.step (.merge ws d) = (.ok .done, r') := step_of_ok (bind_of_ok hm)
    rw [hs]
  | error e r' =>
    have hs : r.step (.merge ws d) = (.error e, r') := step_of_error (bind_of_error hm)
    rw [hs] at h
    cases h

omit [CustomTrigger κ] [StateStore σ] in
theorem node_closeMerged_of_ne_root {r : Runner κ σ} {s : WindowState} {q : Position}
    (hroot : r.root.position = .root) (hq : q ≠ .root) :
    (r.closeMerged ms d s).node q = s.node q := by
  unfold closeMerged
  rw [hroot]
  split_ifs
  · rw [WindowState.node_setFinished, if_neg (Ne.symm hq)]
  · rfl

omit [CustomTrigger κ] [StateStore σ] in
/-- Closing the destination of a merge changes nothing about the early child. -/
theorem node_closeMerged {r : Runner κ σ} {s : WindowState} (hroot : r.root.position = .root) :
    (r.closeMerged ms d s).node .early = s.node .early :=
  node_closeMerged_of_ne_root hroot (by decide)

/-- A merge that does not stay in the late phase leaves the early phase at its start. Elements that
the sources have counted for an early pane are therefore still counted exactly if there are none. -/
theorem pending_kept_iff [LawfulStore σ] (c : EarlyAndLate κ) (cfg : RunnerConfig) (store : σ)
    (ops : List Operation) (ws : List Window) (d : Window)
    (hok : (((start (.earlyAndLate c) cfg store).run ops).step (.merge ws d)).1.isOk = true) :
    let r := (start (.earlyAndLate c) cfg store).run ops
    let s := LawfulStore.contents (r.step (.merge ws d)).2.store d
    let pending := pendingCount (r.seen.sources ws)
    ((finishedInAll (r.seen.sources ws) .early && d.endedBy r.watermark) = false →
      s.finished .early = false ∧ s.counter .early = 0) ∧
    (pending.toNat ≤ (s.counter .early).toNat ↔ pending = 0) := by
  intro r s pending
  have hroot : r.root = .root (.earlyAndLate c) := run_root ops (start (.earlyAndLate c) cfg store)
  obtain ⟨p, hp, hr⟩ := (merge_ensures (v := r.seen)).of_ok rfl (merge_of_isOk hok)
  have hrestarts : (finishedInAll (r.seen.sources ws) .early && d.endedBy r.watermark) = false →
      p.state = .empty := by
    have hmerging : (Node.root (.earlyAndLate c)).onMerge (r.seen.scope d) (r.seen.sources ws)
        { state := .empty } = .ok () p := by
      rw [← hroot]
      exact hp
    exact EarlyAndLate.onMerge_restarts.of_ok rfl hmerging
  have hs : s.node .early = p.state.node .early := by
    have hd : s = r.seen.closeMerged (r.seen.sources ws) d p.state := by
      show (r.step (.merge ws d)).2.seen.store d = _
      rw [hr, merged_store]
      exact if_pos rfl
    rw [hd]
    exact node_closeMerged (congrArg Node.position hroot)
  rcases hphase : finishedInAll (r.seen.sources ws) .early && d.endedBy r.watermark
  · have hempty : s.node .early = {} := by
      rw [hs, hrestarts hphase, WindowState.node_empty]
    have hcounter : s.counter .early = 0 := congrArg NodeState.counter hempty
    refine ⟨fun _ => ⟨congrArg NodeState.finished hempty, hcounter⟩, ?_⟩
    rw [hcounter, Counter.ext_iff, Counter.toNat_zero]
    omega
  · have hfinished : finishedInAll (r.seen.sources ws) .early = true := by
      simp only [Bool.and_eq_true] at hphase
      exact hphase.1
    have hpending : pending = 0 := pendingCount_of_finished hfinished
    refine ⟨nofun, ?_⟩
    rw [hpending]
    simp

/-- The first window has just had an early pane, and the second is in its late phase. -/
theorem pending_kept_after_early_pane :
    let k : ScriptedTrigger := { threshold := .clamp 2 }
    let a : Window := ⟨.clamp 10, .clamp 20⟩
    let b : Window := ⟨.clamp 0, .clamp 10⟩
    let r := (start (.earlyAndLate ⟨.custom k, some (.custom k)⟩)
      { supportsMerging := true, allowedLateness := 5 } MemoryStore.empty).run
      [.element [a] (.clamp 12), .element [a] (.clamp 13), .fireIfReady a, .element [b] (.clamp 4),
        .tick (.clamp 11), .element [b] (.clamp 5)]
    let s := LawfulStore.contents (r.step (.merge [a, b] (a.span b))).2.store (a.span b)
    (r.step (.merge [a, b] (a.span b))).1.isOk = true ∧ s.finished .early = false ∧
      (pendingCount (r.seen.sources [a, b])).toNat ≤ (s.counter .early).toNat := by
  intro k a b
  have hok : (((start (.earlyAndLate ⟨.custom k, some (.custom k)⟩)
      { supportsMerging := true, allowedLateness := 5 } MemoryStore.empty).run
      [.element [a] (.clamp 12), .element [a] (.clamp 13), .fireIfReady a, .element [b] (.clamp 4),
        .tick (.clamp 11), .element [b] (.clamp 5)]).step (.merge [a, b] (a.span b))).1.isOk =
      true := by decide +kernel
  have h := pending_kept_iff _ _ _ _ [a, b] (a.span b) hok
  exact ⟨hok, (h.1 (by decide +kernel)).1, h.2.2 (by decide +kernel)⟩

/-- Two windows have one element each, and two elements make an early pane. After their merge none
of the two counts, and the window is not ready. -/
theorem early_pane_forgotten :
    let k : ScriptedTrigger := { threshold := .clamp 2 }
    let a : Window := ⟨.clamp 0, .clamp 10⟩
    let b : Window := ⟨.clamp 5, .clamp 15⟩
    let r := (start (.earlyAndLate ⟨.custom k, none⟩) { supportsMerging := true }
      MemoryStore.empty).run [.element [a] (.clamp 3), .element [b] (.clamp 6)]
    let r' := (r.step (.merge [a, b] (a.span b))).2
    let s := LawfulStore.contents r'.store (a.span b)
    (r.step (.merge [a, b] (a.span b))).1.isOk = true ∧ s.finished .early = false ∧
      pendingCount (r.seen.sources [a, b]) = .clamp 2 ∧ s.counter .early = 0 ∧
      ¬(pendingCount (r.seen.sources [a, b])).toNat ≤ (s.counter .early).toNat ∧
      r'.seen.readiness (a.span b) = .ok false := by
  decide +kernel

end Runner

end PaneTriggers
