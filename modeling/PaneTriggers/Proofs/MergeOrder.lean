import Mathlib.Data.List.Nodup
import PaneTriggers.Proofs.Changes
import PaneTriggers.Proofs.MergedState
import PaneTriggers.Proofs.ScriptedConduct

/-!
# Merges in groups and in any order

Over a tree of summing triggers, what a merge leaves is settled by its sources and its destination
(`Joins.unique`), whatever the order of the sources (`Joins.perm`). Some of the sources may be
merged first, into an unused window that ends no later than the destination (`Joins.regroup`): if
that window ends, so does the destination, and if it does not, the early phase that the group goes
back to is the one that the whole merge would go back to.
-/

namespace PaneTriggers

/-- A window that stops no later has ended when the other has. -/
theorem Window.endedBy_of_stop_le {a b : Window} {now : Option Timestamp} (h : a.stop ≤ b.stop)
    (hb : b.endedBy now = true) : a.endedBy now = true := by
  obtain ⟨n, rfl, hn⟩ := Runner.endedBy_iff.1 hb
  refine Runner.endedBy_iff.2 ⟨n, rfl, ?_⟩
  rw [maxTimestamp_lt_iff] at hn ⊢
  exact ⟨Int.le_trans h hn.1, hn.2⟩

namespace Runner

variable {κ σ : Type} {t : Trigger κ} {v v₁ v₂ : Seen κ} {ws ws' xs ys : List Window}
  {d d₁ : Window}

/-- Nothing is kept about the window. -/
structure Unused (v : Seen κ) (w : Window) : Prop where
  store : v.store w = .empty
  active : w ∉ v.active
  timers : ∀ x ∈ v.timers, x.window ≠ w

/-- The windows `ws` were merged into `d`, without timers but the one at its end. -/
structure Joins (t : Trigger κ) (ws : List Window) (d : Window) (v v' : Seen κ) : Prop where
  watermark : v'.watermark = v.watermark
  destination : t.Settles (d.endedBy v.watermark) (v.sources ws) (v'.store d)
  others : ∀ w, w ≠ d → v'.store w = if w ∈ ws then .empty else v.store w
  timers : ∀ x, x ∈ v'.timers ↔ (v'.store d).finished .root = false ∧ x = .endOf d ∨
    x ∈ v.timers ∧ (x.window ∈ ws → x.window = d)
  active : ∀ w, w ∈ v'.active ↔ w = d ∨ w ∈ v.active ∧ w ∉ ws

theorem Joins.unique (h₁ : Joins t ws d v v₁) (h₂ : Joins t ws d v v₂) :
    v₁.store = v₂.store ∧ v₁.timers = v₂.timers ∧ v₁.active = v₂.active := by
  have hd : v₁.store d = v₂.store d := h₁.destination.unique h₂.destination
  refine ⟨?_, ?_, Std.ExtTreeSet.ext_mem fun w => (h₁.active w).trans (h₂.active w).symm⟩
  · funext w
    by_cases hw : w = d
    · rw [hw, hd]
    · rw [h₁.others w hw, h₂.others w hw]
  · refine TimerQueue.ext (Std.ExtTreeSet.ext_mem fun x => ?_)
    rw [TimerQueue.mem_pending, TimerQueue.mem_pending, h₁.timers, h₂.timers, hd]

theorem Joins.perm (h : Joins t ws d v v₁) (hws : ws.Perm ws') : Joins t ws' d v v₁ where
  watermark := h.watermark
  destination := h.destination.perm (hws.map _)
  others w hw := by simp only [h.others w hw, hws.mem_iff]
  timers x := by rw [h.timers, hws.mem_iff]
  active w := by rw [h.active, hws.mem_iff]

/-- The sources may be merged in two steps. -/
theorem Joins.regroup (h₁ : Joins t xs d₁ v v₁) (h₂ : Joins t (d₁ :: ys) d v₁ v₂)
    (hunused : v.Unused d₁) (hd₁ : d₁ ∉ xs ++ ys) (hd : d ∉ xs ++ ys) (hdisj : xs.Disjoint ys)
    (hle : d₁.stop ≤ d.stop) : Joins t (xs ++ ys) d v v₂ := by
  simp only [List.mem_append, not_or] at hd₁ hd
  have hsources : v₁.sources (d₁ :: ys) = ⟨d₁, v₁.store d₁⟩ :: v.sources ys := by
    refine congrArg (_ :: ·) (List.map_congr_left fun w hw => ?_)
    have hne : w ≠ d₁ := fun h => hd₁.2 (h ▸ hw)
    rw [h₁.others w hne, if_neg fun h => hdisj h hw]
  have hsettles : t.Settles (d.endedBy v.watermark) (⟨d₁, v₁.store d₁⟩ :: v.sources ys)
      (v₂.store d) := by
    have := h₂.destination
    rwa [h₁.watermark, hsources] at this
  -- A root that is done in the end was done in the group.
  have hroot : (v₁.store d₁).finished .root = false → (v₂.store d).finished .root = false := by
    intro h
    rw [hsettles.finished_root]
    simp [finishedInAll, h]
  refine ⟨h₂.watermark.trans h₁.watermark, ?_, fun w hw => ?_, fun x => ?_, fun w => ?_⟩
  · have := h₁.destination.regroup (Window.endedBy_of_stop_le hle) hsettles
    rwa [show v.sources (xs ++ ys) = v.sources xs ++ v.sources ys from List.map_append]
  · rw [h₂.others w hw]
    by_cases hw₁ : w = d₁
    · simp [hw₁, hd₁.1, hd₁.2, hunused.store]
    · rw [h₁.others w hw₁]
      simp only [List.mem_cons, List.mem_append, hw₁, false_or]
      split_ifs <;> simp_all
  · have hx : x ∈ v.timers → x.window ≠ d₁ := hunused.timers x
    rw [h₂.timers, h₁.timers]
    simp only [List.mem_cons, List.mem_append]
    constructor
    · rintro (h | ⟨⟨hopen, rfl⟩ | ⟨hmem, hxs⟩, hys⟩)
      · exact .inl h
      · -- The end of the group stays pending only if the group was merged into `d` itself.
        obtain rfl : d₁ = d := hys (.inl rfl)
        exact .inl ⟨hroot hopen, rfl⟩
      · exact .inr ⟨hmem, fun h => h.elim (fun h => absurd (hxs h) (hx hmem)) fun h => hys (.inr h)⟩
    · rintro (h | ⟨hmem, hw⟩)
      · exact .inl h
      · refine .inr ⟨.inr ⟨hmem, fun h => ?_⟩, fun h => hw ?_⟩
        · exact absurd (hw (.inl h) ▸ h) hd.1
        · exact .inr (h.resolve_left (hx hmem))
  · have hw : w ∈ v.active → w ≠ d₁ := fun h hw => hunused.active (hw ▸ h)
    rw [h₂.active, h₁.active]
    simp only [List.mem_cons, List.mem_append]
    tauto

/-- The destination of a merge is closed by the runner where all its sources were closed. -/
theorem settles_closeMerged {ms : List MergeSource} {s : WindowState} (hroot : v.root = .root t)
    (hms : ms ≠ []) (hs : ∀ q, s.node q = t.joined (d.endedBy v.watermark) ms q) :
    t.Settles (d.endedBy v.watermark) ms (v.closeMerged ms d s) := by
  have hempty : ms.isEmpty = false := by simpa using hms
  have hposition : v.root.position = .root := by rw [hroot]; rfl
  intro q
  unfold closeMerged Trigger.settled
  rw [hposition, hempty, ← hs q, Bool.and_comm (finishedInAll ms .root)]
  by_cases hclose : (d.endedBy v.watermark && finishedInAll ms .root) = true
  · rw [if_pos (by simpa using hclose), WindowState.node_setFinished]
    by_cases hq : q = .root
    · rw [if_pos hq.symm, if_pos ⟨hq, hclose⟩, hq]
    · rw [if_neg (Ne.symm hq), if_neg fun h => hq h.1]
  · rw [if_neg (by simpa using hclose), if_neg fun h => hclose h.2]

variable [CustomTrigger κ]

/-- A merge over a tree of summing triggers fails only if the store does. -/
theorem merge_joins [StateStore σ] [LawfulStore σ] (ht : t.Customs SumsOnMerge)
    (hroot : v.root = .root t) (hws : ws ≠ []) :
    Ensures (fun r : Runner κ σ => r.seen = v) (merge ws d) (fun _ r => Joins t ws d v r.seen)
      fun _ _ => LawfulStore.Faulty σ := by
  have htree : Ensures _ ((Node.root t).onMerge (v.scope d) (v.sources ws)) _ _ :=
    Trigger.onMerge_joined ht
  have hmerging : v.merging ws d = (Node.root t).onMerge (v.scope d) (v.sources ws)
      { state := .empty } := by
    unfold merging
    rw [hroot]
  refine merge_ensures.mono (fun _ h => h) ?_ ?_
  · rintro _ r ⟨p, hp, hr⟩
    obtain ⟨hnode, htimers⟩ := htree.of_ok ⟨rfl, rfl⟩ (hmerging ▸ hp)
    have hd : r.seen.store d = v.mergedState ws d p.state := by rw [hr, merged_store_destination]
    have hclosed : v.closedIn (r.seen.store d) = (r.seen.store d).finished .root :=
      closedIn_root hroot
    refine ⟨?_, ?_, fun w hw => ?_, fun x => ?_, fun w => ?_⟩
    · rw [hr, merged_watermark]
    · rw [hd]
      exact settles_closeMerged hroot (by simpa [sources] using hws) hnode
    · rw [hr, merged_store]
      exact if_neg hw
    · rw [← hclosed, hd, hr, mem_merged_timers, htimers]
      rfl
    · rw [hr, mem_merged_active]
  · rintro _ r ⟨hF | ⟨e, p, hp⟩, -⟩
    · exact hF
    · exact (htree.of_error ⟨rfl, rfl⟩ (hmerging ▸ hp)).elim

/-- Over the store in memory it never fails. -/
theorem step_merge_joins {r : Runner κ MemoryStore} (ht : t.Customs SumsOnMerge)
    (hroot : r.root = .root t) (hws : ws ≠ []) : ∃ r', r.step (.merge ws d) = (.ok .done, r') ∧
      r'.root = .root t ∧ Joins t ws d r.seen r'.seen := by
  obtain ⟨_, r', hr', hjoins⟩ :=
    (merge_joins (σ := MemoryStore) (v := r.seen) ht hroot hws).returns (fun _ _ h => h) rfl
  have hstep : r.step (.merge ws d) = (.ok .done, r') := step_of_ok (bind_of_ok hr')
  refine ⟨r', hstep, ?_, hjoins⟩
  have := run_root [.merge ws d] r
  rwa [hroot, show r.run [.merge ws d] = r' from congrArg Prod.snd hstep] at this

/-- Windows may be merged in two groups, through an unused window that ends no later, or all at
once and in any order. Both ways succeed and leave the same states, timers and active windows, and
the same windows closed. -/
theorem merge_in_groups (ht : t.Customs SumsOnMerge) (cfg : RunnerConfig)
    (before : List Operation) {xs ys zs : List Window} {d₁ d : Window}
    (hunused : ((start t cfg MemoryStore.empty).run before).seen.Unused d₁) (hxs : xs ≠ [])
    (hnodup : (xs ++ ys).Nodup) (hd₁ : d₁ ∉ xs ++ ys) (hd : d ∉ xs ++ ys) (hle : d₁.stop ≤ d.stop)
    (hzs : zs.Perm (xs ++ ys)) :
    let r := (start t cfg MemoryStore.empty).run before
    let grouped := r.run [.merge xs d₁, .merge (d₁ :: ys) d]
    let direct := r.run [.merge zs d]
    r.answers [.merge xs d₁, .merge (d₁ :: ys) d] = [.ok .done, .ok .done] ∧
      r.answers [.merge zs d] = [.ok .done] ∧ grouped.store = direct.store ∧
      grouped.timers = direct.timers ∧ grouped.active = direct.active ∧
      ∀ w, (grouped.step (.isClosed w)).1 = (direct.step (.isClosed w)).1 := by
  intro r grouped direct
  have hroot : r.root = .root t := run_root before (start t cfg MemoryStore.empty)
  have hzs' : zs ≠ [] := by
    rintro rfl
    exact hxs (List.append_eq_nil_iff.1 hzs.symm.eq_nil).1
  obtain ⟨r₁, h₁, hroot₁, hjoins₁⟩ := step_merge_joins (d := d₁) ht hroot hxs
  obtain ⟨r₂, h₂, hroot₂, hjoins₂⟩ :=
    step_merge_joins (d := d) ht hroot₁ (List.cons_ne_nil d₁ ys)
  obtain ⟨r₃, h₃, hroot₃, hjoins₃⟩ := step_merge_joins (d := d) ht hroot hzs'
  have hgrouped : grouped = r₂ := by
    show ((r.step _).2.step _).2 = _
    rw [h₁, h₂]
  have hdirect : direct = r₃ := congrArg Prod.snd h₃
  have hdisj : xs.Disjoint ys := hnodup.disjoint
  obtain ⟨hstore, htimers, hactive⟩ :=
    (hjoins₁.regroup hjoins₂ hunused hd₁ hd hdisj hle).unique (hjoins₃.perm hzs)
  have hstore : r₂.store = r₃.store := MemoryStore.ext_load fun w => congrFun hstore w
  have hclosed : ∀ w, (r₂.step (.isClosed w)).1 = (r₃.step (.isClosed w)).1 := fun w => by
    show Except.ok (Answer.flag (r₂.closedIn (r₂.store.state w))) = .ok (.flag _)
    rw [hstore, closedIn, hroot₂, ← hroot₃]
    rfl
  rw [hgrouped, hdirect]
  exact ⟨by simp [answers, h₁, h₂], by simp [answers, h₃], hstore, htimers, hactive, hclosed⟩

/-- The first two windows are in their late phases and the third is in its early phase. Merging the
first two keeps their late phase, which the merge with the third takes back. -/
theorem merge_in_groups_across_phases :
    let c : EarlyAndLate ScriptedTrigger := ⟨.custom { threshold := .clamp 2 }, some (.custom {})⟩
    let a : Window := ⟨.clamp 0, .clamp 10⟩
    let b : Window := ⟨.clamp 5, .clamp 15⟩
    let e : Window := ⟨.clamp 12, .clamp 30⟩
    let r := (start (.earlyAndLate c) { supportsMerging := true, allowedLateness := 20 }
      MemoryStore.empty).run [.element [a] (.clamp 3), .element [b] (.clamp 6), .tick (.clamp 20),
        .element [a] (.clamp 4), .element [e] (.clamp 16)]
    let grouped := r.run [.merge [a, b] (a.span b), .merge [a.span b, e] (a.span e)]
    let direct := r.run [.merge [e, a, b] (a.span e)]
    r.seen.Unused (a.span b) ∧
      r.answers [.merge [a, b] (a.span b), .merge [a.span b, e] (a.span e)] =
        [.ok .done, .ok .done] ∧
      r.answers [.merge [e, a, b] (a.span e)] = [.ok .done] ∧ grouped.store = direct.store ∧
      grouped.timers = direct.timers ∧ grouped.active = direct.active ∧
      ∀ w, (grouped.step (.isClosed w)).1 = (direct.step (.isClosed w)).1 := by
  intro c a b e
  have hc : (Trigger.earlyAndLate c).Customs SumsOnMerge := by
    refine ⟨ScriptedTrigger.sumsOnMerge rfl rfl, fun t ht => ?_⟩
    cases ht
    exact ScriptedTrigger.sumsOnMerge rfl rfl
  have hunused : ((start (.earlyAndLate c) { supportsMerging := true, allowedLateness := 20 }
      MemoryStore.empty).run [.element [a] (.clamp 3), .element [b] (.clamp 6), .tick (.clamp 20),
        .element [a] (.clamp 4), .element [e] (.clamp 16)]).seen.Unused (a.span b) := by
    refine ⟨by decide +kernel, by decide +kernel, fun x hx => ?_⟩
    revert x
    simp only [← TimerQueue.mem_toList]
    decide +kernel
  exact ⟨hunused, merge_in_groups hc _ _ hunused (by decide) (by decide) (by decide) (by decide)
    (by decide) (by decide)⟩

end Runner

end PaneTriggers
