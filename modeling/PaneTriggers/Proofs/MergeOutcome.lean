import PaneTriggers.Proofs.MergeOrder
import PaneTriggers.Proofs.PendingCounts
import PaneTriggers.Proofs.PendingPanes
import PaneTriggers.Proofs.TickInvariant

/-!
# What becomes of the windows of a merge

Where the custom triggers count merges and do not fail at them, a merge succeeds. It marks the nodes
that were done in all its sources if the destination has ended too (`Trigger.onMerge_marks`), it
leaves nothing of the sources, and it changes no other window (`Runner.merge_reconciles`).

All sources of a merge without any had everything done, and of the places that ask only the runner
sees to this case. So the merge marks every node that it could carry over
(`Runner.merge_of_nothing`), and a window may be closed that never had a pane
(`Runner.merge_of_nothing_closes`).
-/

namespace PaneTriggers

variable {κ σ : Type} {ms : List MergeSource} {ended : Bool} {q : Position}

namespace Trigger

/-- A merge carries over that the node at `q` is done. -/
def CarriesOver : Trigger κ → Position → Prop
  | once .endOfWindow, q => q = .root
  | once _, _ => False
  | earlyAndLate c, q => q = .early ∨ q = .late ∧ c.late = some .endOfWindow

/-- The tree marks the node at `q` when it takes a merge. -/
def Marks (t : Trigger κ) (ended : Bool) (ms : List MergeSource) (q : Position) : Prop :=
  ended = true ∧ t.CarriesOver q ∧ finishedInAll ms q = true ∧
    (q = .late → finishedInAll ms .early = true)

variable {t : Trigger κ}

theorem marks_nil : t.Marks ended [] q ↔ ended = true ∧ t.CarriesOver q := by
  simp [Marks, finishedInAll]

/-- A composite marks its children only while it stays in its late phase. -/
theorem marks_earlyAndLate {c : EarlyAndLate κ} : (earlyAndLate c).Marks ended ms q ↔
    (finishedInAll ms .early && ended) = true ∧
      (q = .early ∨ q = .late ∧ c.late = some .endOfWindow ∧ finishedInAll ms .late = true) := by
  unfold Marks CarriesOver
  constructor
  · rintro ⟨he, rfl | ⟨rfl, hl⟩, hq, hearly⟩
    · simp [he, hq]
    · simp [he, hq, hl, hearly rfl]
  · simp only [Bool.and_eq_true]
    rintro ⟨⟨hearly, he⟩, rfl | ⟨rfl, hl, hlate⟩⟩
    · simp [he, hearly]
    · simp [he, hearly, hl, hlate]

end Trigger

section Evaluation

variable [CustomTrigger κ]

/-- A trigger takes a merge without failing and writes its own counter only. -/
def CountsMerges (k : κ) : Prop :=
  ∀ (s : Site) ms d, s.Open → ∃ d', CustomTrigger.onMerge k s ms d = .ok () d' ∧
    CounterAt s.position d.state d'.state

theorem CountsMerges.does {k : κ} (hk : CountsMerges k) {s : Site} (hs : s.Open) :
    HookDoes (CounterAt s.position) False (CustomTrigger.onMerge k s ms) := by
  refine .of_ok (fun d d' h => ?_) (.inr fun d => ?_)
  · obtain ⟨d'', h', hd⟩ := hk s ms d hs
    rw [h] at h'
    cases h'
    exact hd
  · obtain ⟨d', h, -⟩ := hk s ms d hs
    exact ⟨d', h⟩

theorem ScriptedTrigger.countsMerges {k : ScriptedTrigger} (hk : k.failures = []) :
    CountsMerges k := by
  intro s ms d hs
  obtain ⟨_, d', hd, hcounter⟩ :=
    (ScriptedTrigger.onMerge_ensures ms).returns (fun _ _ => not_mayFail hk hs) rfl
  exact ⟨d', hd, hcounter⟩

theorem Leaf.onMerge_marks {t : OnceTrigger κ} (ht : t.IfCustom CountsMerges) {s : Scope}
    (hs : s.Open) : Ensures (fun a => a.state = .empty) (Leaf.onMerge ⟨.root, t⟩ s ms)
      (fun _ a => ∀ q, a.state.finished q = true ↔ (Trigger.once t).Marks s.ended ms q)
      fun _ _ => False := by
  refine (Leaf.onMerge_ensures (l := ⟨.root, t⟩) (A := CounterAt) CounterAt.refl
    (ht.mono fun k hk => hk.does hs)).onReturn fun _ a ha q => ?_
  cases t with
  | endOfWindow =>
    rw [show a.state = WindowState.empty.setFinished .root _ from ha,
      WindowState.finished_setFinished]
    unfold Trigger.Marks Trigger.CarriesOver
    by_cases hq : q = .root
    · subst hq
      simp [and_comm]
    · simp [hq, Ne.symm hq]
  | never => simp [ha.sameFinished q, Trigger.Marks, Trigger.CarriesOver]
  | custom k => simp [ha.sameFinished q, Trigger.Marks, Trigger.CarriesOver]

theorem EarlyAndLate.onMerge_marks {c : EarlyAndLate κ} (hc : c.Customs CountsMerges) {s : Scope}
    (hs : s.Open) : Ensures (fun a => a.state = .empty) ((Node.root (.earlyAndLate c)).onMerge s ms)
      (fun _ a => ∀ q, a.state.finished q = true ↔ (Trigger.earlyAndLate c).Marks s.ended ms q)
      fun _ _ => False := by
  refine (EarlyAndLate.onMerge_ensures CounterAt.refl fun l hl =>
    (hc.leaves l hl).mono fun k hk => hk.does hs).onReturn fun _ a ha q => ?_
  rw [Trigger.marks_earlyAndLate]
  generalize a.state = w at ha
  have hmark : (WindowState.empty.setFinished .early true).finished q = true ↔ q = .early := by
    simp [WindowState.finished_setFinished, eq_comm]
  cases ha with
  | restarted hphase =>
    have hw : c.restarted .empty = .empty := by
      unfold restarted
      rcases c.late with _ | l <;> simp
    simp [hw, hphase]
  | alone hphase hl => simp [hmark, hphase, hl]
  | lateEnd hphase hl =>
    obtain ⟨hearly, he⟩ := Bool.and_eq_true_iff.1 hphase
    rw [WindowState.finished_setFinished]
    by_cases hq : q = .late
    · subst hq
      simp [hearly, hl, he]
    · simp [Ne.symm hq, hq, hmark, hphase]
  | late hphase _ hne hA => simp [hA.sameFinished q, hmark, hphase, hne]

/-- A tree that takes a merge marks the nodes that it carries over. -/
theorem Trigger.onMerge_marks {t : Trigger κ} (ht : t.Customs CountsMerges) {s : Scope}
    (hs : s.Open) : Ensures (fun a => a.state = .empty) ((Node.root t).onMerge s ms)
      (fun _ a => ∀ q, a.state.finished q = true ↔ t.Marks s.ended ms q) fun _ _ => False := by
  cases t with
  | once t => exact Leaf.onMerge_marks ht hs
  | earlyAndLate c => exact EarlyAndLate.onMerge_marks ht hs

/-- At the end of the window a tree is ready that has not marked the firing there. -/
theorem Trigger.ready_at_end {t : Trigger κ} {s : Scope} {w : WindowState}
    (ht : ∃ q, t.CarriesOver q) (hs : s.ended = true) (hw : w.finished .early = false) :
    (Node.root t).ready s w ≠ .ok false := by
  obtain ⟨q, hq⟩ := ht
  intro h
  cases t with
  | once t =>
    cases t with
    | endOfWindow =>
      have h : Except.ok s.ended = (.ok false : Except TriggerError Bool) := h
      rw [hs] at h
      cases h
    | never => exact hq
    | custom k => exact hq
  | earlyAndLate c => cases EarlyAndLate.ready_of_ended hw hs h

end Evaluation

namespace Runner

variable {t : Trigger κ} {v v' : Seen κ} {ws : List Window} {d w : Window} {s : WindowState}

theorem finishedInAll_sources :
    finishedInAll (v.sources ws) q = true ↔ ∀ w ∈ ws, (v.store w).finished q = true := by
  simp [finishedInAll, sources]

theorem finished_mergedState (hroot : v.root = .root t) :
    (v.mergedState ws d s).finished q = true ↔ s.finished q = true ∨ q = .root ∧
      d.endedBy v.watermark = true ∧ ws ≠ [] ∧ finishedInAll (v.sources ws) .root = true := by
  have hposition : v.root.position = .root := by rw [hroot]; rfl
  have hempty : (v.sources ws).isEmpty = ws.isEmpty := by simp [sources]
  unfold mergedState closeMerged
  rw [hposition, hempty]
  by_cases hq : q = .root
  · subst hq
    split_ifs with h <;> simp_all [WindowState.finished_setFinished]
  · split_ifs <;> simp [WindowState.finished_setFinished, hq, Ne.symm hq]

theorem endedBy_of_advance {r : Runner κ σ} {now : Timestamp} (hnow : w.maxTimestamp < now) :
    w.endedBy (r.advance now).2.watermark = true := by
  obtain ⟨⟨m, hm, hle⟩, ha⟩ | ⟨-, ha⟩ := r.advance_cases now
  · rw [Timestamp.le_iff] at hle
    rw [Timestamp.lt_iff] at hnow
    rw [ha]
    exact endedBy_iff.2 ⟨m, hm, Timestamp.lt_iff.2 (by omega)⟩
  · rw [ha]
    exact endedBy_iff.2 ⟨now, rfl, hnow⟩

/-- The watermark that passes the end of a window wakes it. -/
theorem mem_advance_of_pending {r : Runner κ σ} {now : Timestamp} (hx : Timer.endOf w ∈ r.timers)
    (hw : w.endedBy r.watermark = false) (hnow : w.maxTimestamp < now) : w ∈ (r.advance now).1 := by
  obtain ⟨-, ha⟩ | ⟨-, ha⟩ := r.advance_cases now
  · have hended := endedBy_of_advance (r := r) hnow
    rw [ha, hw] at hended
    cases hended
  · rw [ha]
    exact mem_woken.2 ⟨.endOf w, hx, by simp [TimerQueue.expires, Timer.endOf, hnow], rfl⟩

/-- The second runner is the first after a merge of `ws` into `d`. -/
structure Reconciles (t : Trigger κ) (ws : List Window) (d : Window) (v v' : Seen κ) : Prop where
  closed : v'.closedIn (v'.store d) = true ↔ (∀ w ∈ ws, v.closedIn (v.store w) = true) ∧
    ∃ now, v.watermark = some now ∧ d.maxTimestamp < now
  early : ∀ c, t = .earlyAndLate c → ((v'.store d).finished .early = true ↔
    (∀ w ∈ ws, (v.store w).finished .early = true) ∧
      ∃ now, v.watermark = some now ∧ d.maxTimestamp < now)
  late : ∀ c, t = .earlyAndLate c → (v'.store d).finished .early = false →
    (v'.store d).node .late = {}
  sources : ∀ w ∈ ws, w ≠ d → Unused v' w
  active : d ∈ v'.active
  pending : v'.closedIn (v'.store d) = false → Timer.endOf d ∈ v'.timers
  others : ∀ w, w ≠ d → w ∉ ws → v'.store w = v.store w ∧ (w ∈ v'.active ↔ w ∈ v.active) ∧
    ∀ x : Timer, x.window = w → (x ∈ v'.timers ↔ x ∈ v.timers)

variable [CustomTrigger κ]

theorem merging_marks (ht : t.Customs CountsMerges) (hroot : v.root = .root t) (ws : List Window)
    (d : Window) :
    Ensures (fun a => a = { state := .empty }) (v.root.onMerge (v.scope d) (v.sources ws))
      (fun _ a => ∀ q, a.state.finished q = true ↔
        t.Marks (d.endedBy v.watermark) (v.sources ws) q) fun _ _ => False := by
  rw [hroot]
  exact (Trigger.onMerge_marks ht (v.scope_open d)).mono (fun a ha => by rw [ha]) (fun _ _ h => h)
    fun _ _ h => h

/-- A composite that is not in its late phase after a merge starts afresh. -/
theorem merging_restarts {c : EarlyAndLate κ} (hroot : v.root = .root (.earlyAndLate c))
    {a : Progress κ} (ha : v.merging ws d = .ok () a)
    (hphase : (finishedInAll (v.sources ws) .early && d.endedBy v.watermark) = false) :
    a.state = .empty := by
  unfold merging at ha
  rw [hroot] at ha
  exact EarlyAndLate.onMerge_restarts.of_ok rfl ha hphase

theorem merged_reconciles (hroot : v.root = .root t) (hws : ws ≠ []) {a : Progress κ}
    (ha : v.merging ws d = .ok () a) (hmarks : ∀ q, a.state.finished q = true ↔
      t.Marks (d.endedBy v.watermark) (v.sources ws) q) :
    Reconciles t ws d v (v.merged ws d a) where
  closed := by
    rw [closedIn_root (merged_root.trans hroot), merged_store_destination,
      finished_mergedState hroot, hmarks, ← endedBy_iff, finishedInAll_sources]
    simp only [closedIn_root hroot]
    -- What the tree marks at the root, the runner would close as well.
    unfold Trigger.Marks
    rw [finishedInAll_sources]
    tauto
  early c hc := by
    subst hc
    rw [merged_store_destination, finished_mergedState hroot, hmarks, Trigger.marks_earlyAndLate,
      ← endedBy_iff, Bool.and_eq_true, finishedInAll_sources]
    simp
  late c hc hf := by
    subst hc
    have hphase : (finishedInAll (v.sources ws) .early && d.endedBy v.watermark) = false := by
      by_contra hphase
      have hearly : ((v.merged ws d a).store d).finished .early = true := by
        rw [merged_store_destination, finished_mergedState hroot, hmarks]
        exact .inl (Trigger.marks_earlyAndLate.2 ⟨by simpa using hphase, .inl rfl⟩)
      rw [hf] at hearly
      cases hearly
    have hlate : (v.mergedState ws d a.state).node .late = a.state.node .late :=
      node_closeMerged_of_ne_root (congrArg Node.position hroot) (by decide)
    rw [merged_store_destination, hlate, merging_restarts hroot ha hphase, WindowState.node_empty]
  sources w hw hd := by
    refine ⟨?_, ?_, fun x hx hxw => ?_⟩
    · rw [merged_store]
      simp [Contents.commit, hw, hd]
    · simp [mem_merged_active, hw, hd]
    · subst hxw
      rcases mem_merged_timers.1 hx with ⟨-, rfl⟩ | ⟨-, hx⟩
      · exact hd rfl
      · exact hd (hx hw)
  active := mem_merged_active.2 (.inl rfl)
  pending hopen := by
    rw [closedIn_root (merged_root.trans hroot), merged_store_destination] at hopen
    exact mem_merged_timers.2 (.inl ⟨(closedIn_root hroot).trans hopen, rfl⟩)
  others w hd hw := by
    refine ⟨?_, ?_, fun x hx => ?_⟩
    · rw [merged_store]
      simp [Contents.commit, hw, hd]
    · simp [mem_merged_active, hw, hd]
    · subst hx
      refine ⟨fun h => ?_, fun h => mem_merged_timers.2 (.inr ⟨mem_withTimers_of_mem h, ?_⟩)⟩
      · rcases mem_merged_timers.1 h with ⟨-, rfl⟩ | ⟨h, -⟩
        · exact absurd rfl hd
        · exact (mem_withTimers h).resolve_left hd
      · exact fun h => absurd h hw

section Step

variable [StateStore σ] [LawfulStore σ]

/-- A merge over a tree that counts merges succeeds, and the tree marks what it carries over. -/
theorem step_merge_marks (ht : t.Customs CountsMerges) (hF : ¬LawfulStore.Faulty σ)
    {r : Runner κ σ} (hroot : r.root = .root t) (ws : List Window) (d : Window) : ∃ r' a,
      r.step (.merge ws d) = (.ok .done, r') ∧ r'.seen = r.seen.merged ws d a ∧
        r.seen.merging ws d = .ok () a ∧ ∀ q, a.state.finished q = true ↔
          t.Marks (d.endedBy r.watermark) (r.seen.sources ws) q := by
  have hmarks := merging_marks (v := r.seen) ht hroot ws d
  have hmerge : Ensures (fun r : Runner κ σ => r.seen = _) (merge ws d) _ _ :=
    merge_ensures (v := r.seen)
  obtain ⟨_, r', hr', a, ha, hseen⟩ := hmerge.returns
    (fun _ _ h => h.1.elim hF fun ⟨_, _, ha⟩ => hmarks.of_error rfl ha) rfl
  exact ⟨r', a, step_of_ok (bind_of_ok hr'), hseen, ha, hmarks.of_ok rfl ha⟩

/-- Over a store that never fails, a merge of some windows succeeds. Its destination is closed if
the sources were and it has ended, and it is in its late phase if they were and it has ended;
otherwise its late child starts afresh. Nothing is left of the other sources, the destination is
active, with its end pending if it is open, and no other window is changed. -/
theorem merge_reconciles (ht : t.Customs CountsMerges) (hF : ¬LawfulStore.Faulty σ)
    {r : Runner κ σ} (hroot : r.root = .root t) (hws : ws ≠ []) (d : Window) :
    ∃ r', r.step (.merge ws d) = (.ok .done, r') ∧ Reconciles t ws d r.seen r'.seen := by
  obtain ⟨r', a, hr', hseen, ha, hmarks⟩ := step_merge_marks ht hF hroot ws d
  refine ⟨r', hr', ?_⟩
  rw [hseen]
  exact merged_reconciles hroot hws ha hmarks

/-- The first source is in its late phase, named twice, and the destination is the other source,
still in its early phase. -/
theorem merge_reconciles_across_phases :
    let k : ScriptedTrigger :=
      { threshold := .clamp 2, timers := [⟨.onMerge, .processingTime, .zero, 7⟩] }
    let c : EarlyAndLate ScriptedTrigger := ⟨.custom k, some (.custom k)⟩
    let a : Window := ⟨.clamp 0, .clamp 10⟩
    let d : Window := ⟨.clamp 0, .clamp 15⟩
    let r := (start (.earlyAndLate c) { supportsMerging := true, allowedLateness := 5 }
      MemoryStore.empty).run [.element [a, d] (.clamp 6), .tick (.clamp 12), .element [a] (.clamp 7)]
    (r.seen.store a).finished .early = true ∧ (r.seen.store d).finished .early = false ∧
      ∃ r', r.step (.merge [a, d, a] d) = (.ok .done, r') ∧
        Reconciles (.earlyAndLate c) [a, d, a] d r.seen r'.seen := by
  intro k c a d r
  have hk : CountsMerges k := ScriptedTrigger.countsMerges rfl
  have hroot : r.root = .root (.earlyAndLate c) := run_root _ _
  exact ⟨by decide +kernel, by decide +kernel,
    merge_reconciles (t := .earlyAndLate c) (σ := MemoryStore) (EarlyAndLate.Customs.pair hk hk) id
      hroot (by simp) d⟩

/-- A window in which nothing is done is woken as its end passes, and is not found unready then. -/
theorem woken_at_end (hF : ¬LawfulStore.Faulty σ) {r : Runner κ σ} (hroot : r.root = .root t)
    (hpending : Timer.endOf d ∈ r.timers) (hopen : d.endedBy r.watermark = false)
    (hundone : ∀ q, (r.seen.store d).finished q = false) {now : Timestamp}
    (hnow : d.maxTimestamp < now) : d ∈ (r.advance now).1 ∧ ((∃ q, t.CarriesOver q) →
      (((r.advance now).2).step (.shouldFire d)).1 ≠ .ok (.flag false)) := by
  refine ⟨mem_advance_of_pending hpending hopen hnow, fun hq => ?_⟩
  have hready : (r.seen.advance now).2.readiness d =
      (Node.root t).ready ((r.seen.advance now).2.scope d) (r.seen.store d) := by
    have hroot' : (r.seen.advance now).2.root = .root t := (advance_root _ _).trans hroot
    unfold readiness
    rw [closedIn_root hroot', advance_store, hundone, hroot']
    rfl
  rw [ne_eq, shouldFire_iff hF, ← (seen_advance now r).2, hready]
  exact Trigger.ready_at_end hq (endedBy_of_advance hnow) (hundone .early)

/-- A merge of no windows marks all that it can carry over if the destination has ended. If it has
not, nothing is marked, the watermark that passes its end wakes it, and a tree that fires there does
not find it unready. -/
theorem merge_of_nothing (ht : t.Customs CountsMerges) (hF : ¬LawfulStore.Faulty σ)
    {r : Runner κ σ} (hroot : r.root = .root t) (d : Window) :
    ∃ r', r.step (.merge [] d) = (.ok .done, r') ∧
      (∀ q, (LawfulStore.contents r'.store d).finished q = true ↔
        (∃ now, r.watermark = some now ∧ d.maxTimestamp < now) ∧ t.CarriesOver q) ∧
      ((¬∃ now, r.watermark = some now ∧ d.maxTimestamp < now) →
        ∀ now, d.maxTimestamp < now → d ∈ (r'.advance now).1 ∧
          ((∃ q, t.CarriesOver q) →
            (((r'.advance now).2).step (.shouldFire d)).1 ≠ .ok (.flag false))) := by
  obtain ⟨r', a, hr', hseen, -, hmarks⟩ := step_merge_marks ht hF hroot [] d
  have hbits : ∀ q, (r'.seen.store d).finished q = true ↔
      (∃ now, r.watermark = some now ∧ d.maxTimestamp < now) ∧ t.CarriesOver q := fun q => by
    rw [hseen, merged_store_destination, finished_mergedState hroot, hmarks, ← endedBy_iff]
    simp [sources, Trigger.marks_nil]
  refine ⟨r', hr', hbits, fun hended now hnow => ?_⟩
  have hundone : ∀ q, (r'.seen.store d).finished q = false := fun q => by
    rw [Bool.eq_false_iff, ne_eq, hbits]
    exact fun h => hended h.1
  have hopen : d.endedBy r'.watermark = false := by
    have hwatermark : r'.watermark = r.watermark :=
      (congrArg watermark hseen).trans merged_watermark
    rw [hwatermark, Bool.eq_false_iff, ne_eq, endedBy_iff]
    exact hended
  have hpending : Timer.endOf d ∈ r'.seen.timers := by
    rw [hseen]
    refine mem_merged_timers.2 (.inl ⟨?_, rfl⟩)
    rw [closedIn_root hroot, ← merged_store_destination, ← hseen, hundone]
  have hroot' : r'.root = .root t := (congrArg root hseen).trans (merged_root.trans hroot)
  exact woken_at_end hF hroot' hpending hopen hundone hnow

/-- The watermark is at the last event time of the destination, and then goes past it. -/
theorem merge_of_nothing_before_the_end :
    let c : EarlyAndLate ScriptedTrigger := ⟨.custom {}, some .endOfWindow⟩
    let d : Window := ⟨.clamp 0, .clamp 10⟩
    let r := (start (.earlyAndLate c) {} MemoryStore.empty).run [.advance (.clamp 9)]
    ∃ r', r.step (.merge [] d) = (.ok .done, r') ∧
      (LawfulStore.contents r'.store d).finished .early = false ∧ d ∈ (r'.advance (.clamp 10)).1 ∧
      (((r'.advance (.clamp 10)).2).step (.shouldFire d)).1 ≠ .ok (.flag false) := by
  intro c d r
  have hc : c.Customs CountsMerges := by
    refine ⟨ScriptedTrigger.countsMerges rfl, fun t ht => ?_⟩
    cases ht
    trivial
  have hended : ¬∃ now, r.watermark = some now ∧ d.maxTimestamp < now := by
    rintro ⟨now, hnow, hd⟩
    have hr : r.watermark = some (.clamp 9) := rfl
    obtain rfl := Option.some.inj (hr.symm.trans hnow)
    revert hd
    decide
  obtain ⟨r', hr', hbits, hwoken⟩ := merge_of_nothing (t := .earlyAndLate c) (σ := MemoryStore)
    (r := r) hc id (run_root _ _) d
  obtain ⟨hd, hready⟩ := hwoken hended (.clamp 10) (by decide)
  refine ⟨r', hr', ?_, hd, hready ⟨.early, .inl rfl⟩⟩
  rw [Bool.eq_false_iff, ne_eq, hbits]
  exact fun h => hended h.1

/-- Past the end of the destination, a merge of no windows closes it, or retires its early child.
Nothing has fired, and neither is ready. -/
theorem merge_of_nothing_closes :
    let d : Window := ⟨.clamp 0, .clamp 10⟩
    let ops : List Operation := [.advance (.clamp 10), .merge [] d]
    let early : ScriptedTrigger := { readiness := .always }
    let leaf := (start (.once .endOfWindow : Trigger ScriptedTrigger) {} MemoryStore.empty).run ops
    let composite := (start (.earlyAndLate ⟨.custom early, none⟩) {} MemoryStore.empty).run ops
    leaf.closedIn (leaf.seen.store d) = true ∧ leaf.telemetry.firings = 0 ∧
      leaf.seen.readiness d = .ok false ∧
      (composite.seen.store d).finished .early = true ∧ composite.telemetry.firings = 0 ∧
      composite.seen.readiness d = .ok false := by
  decide +kernel

end Step

end Runner

end PaneTriggers
