import PaneTriggers.Proofs.MergeOrder
import PaneTriggers.Proofs.PendingPanes

/-!
# What a collection takes

Over a tree and a store that never fail, a collection takes the active windows that are past their
lateness and not ready (`Runner.Garbage`). It goes through its candidates one by one, but what it
does to one of them shows in none of the others (`Runner.Collects`), so it takes those that were
garbage when it started, and leaves no garbage behind: a second collection has nothing to do
(`Runner.collection_exact`).
-/

namespace PaneTriggers.Runner

variable {κ σ : Type} {v v' : Seen κ} {ws : List Window} {w : Window}

/-- Nothing is kept about the windows `ws`, and of the others everything. -/
structure Collects (ws : List Window) (v v' : Seen κ) : Prop where
  taken : ∀ w ∈ ws, v'.Unused w
  store : ∀ w, w ∉ ws → v'.store w = v.store w
  timers : ∀ x : Timer, x.window ∉ ws → (x ∈ v'.timers ↔ x ∈ v.timers)
  active : ∀ w, w ∉ ws → (w ∈ v'.active ↔ w ∈ v.active)
  root_eq : v'.root = v.root
  watermark : v'.watermark = v.watermark
  supportsMerging : v'.supportsMerging = v.supportsMerging
  allowedLateness : v'.allowedLateness = v.allowedLateness

theorem foldl_collects (ws : List Window) (v : Seen κ) : Collects ws v (ws.foldl collected v) := by
  obtain ⟨q, a, l, hfold, hq, ha⟩ := foldl_collected ws v
  rw [hfold]
  refine ⟨fun w hw => ⟨if_pos hw, ?_, ?_⟩, fun w hw => if_neg hw, fun x hx => ?_, fun w hw => ?_,
    rfl, rfl, rfl, rfl⟩
  · exact fun h => ((ha w).1 h).2 hw
  · rintro x hx rfl
    exact ((hq x).1 hx).2 hw
  · exact (hq x).trans (and_iff_left hx)
  · exact (ha w).trans (and_iff_left hw)

variable [CustomTrigger κ]

theorem Collects.expired_eq (h : Collects ws v v') : v'.expired w = v.expired w := by
  unfold expired guarantee
  rw [h.watermark, h.root_eq, h.allowedLateness]

theorem Collects.readiness_eq (h : Collects ws v v') (hw : w ∉ ws) :
    v'.readiness w = v.readiness w := by
  refine readiness_congr h.root_eq ?_ (h.store w hw)
  unfold scope
  rw [h.watermark, h.supportsMerging]

/-- The window is active, past its lateness, and not ready. -/
structure Garbage (v : Seen κ) (w : Window) : Prop where
  active : w ∈ v.active
  expired : v.expired w = true
  idle : v.readiness w = .ok false

theorem mem_garbage :
    w ∈ (v.active.toList.filter v.expired).filter v.idle ↔ v.Garbage w := by
  rw [List.mem_filter, List.mem_filter, Std.ExtTreeSet.mem_toList, idle_iff]
  exact ⟨fun h => ⟨h.1.1, h.1.2, h.2⟩, fun h => ⟨⟨h.active, h.expired⟩, h.idle⟩⟩

/-- Where the garbage was collected, there is none. -/
theorem Collects.no_garbage (h : Collects ws v v') (hws : ∀ w, w ∈ ws ↔ v.Garbage w) :
    ¬v'.Garbage w := by
  intro hg
  have hw : w ∉ ws := fun hw => (h.taken w hw).active hg.active
  refine hw ((hws w).2 ⟨(h.active w hw).1 hg.active, ?_, ?_⟩)
  · rw [← h.expired_eq, hg.expired]
  · rw [← h.readiness_eq hw, hg.idle]

section Step

variable [StateStore σ] [LawfulStore σ] {t : Trigger κ} {r : Runner κ σ}

/-- Over a tree and a store that never fail, a collection returns the garbage in order. -/
theorem step_collect (ht : t.Customs NeverFails) (hF : ¬LawfulStore.Faulty σ)
    (hroot : r.root = .root t) : ∃ ws r', r.step .collect = (.ok (.windows ws), r') ∧
      ws.Pairwise (fun u w => compare u w = .lt) ∧ (∀ w, w ∈ ws ↔ r.seen.Garbage w) ∧
      r'.seen = ws.foldl collected r.seen := by
  have nofail : ∀ (e : RunnerError) (r' : Runner κ σ),
      ¬(LawfulStore.Faulty σ ∨ ∃ w, ∃ e, r.seen.readiness w = .error e) := by
    rintro _ _ (hf | ⟨w, e, he⟩)
    · exact hF hf
    · exact readiness_returns (v := r.seen) hroot ht he
  obtain ⟨ws, r', hr', rfl, hseen⟩ := (garbageCollect_ensures (v := r.seen)).returns nofail rfl
  refine ⟨_, r', step_of_ok (bind_of_ok hr'), ?_, fun w => mem_garbage, hseen⟩
  exact (Std.ExtTreeSet.ordered_toList.filter _).filter _

/-- A collection takes the active windows that the watermark has left behind by more than their
lateness and that are not ready, in order. Nothing is kept about them, all is kept about the others,
and a second collection takes none and changes nothing. -/
theorem collection_exact (ht : t.Customs NeverFails) (hF : ¬LawfulStore.Faulty σ)
    (hroot : r.root = .root t) : ∃ ws r', r.step .collect = (.ok (.windows ws), r') ∧
      ws.Pairwise (fun u w => compare u w = .lt) ∧
      (∀ w, w ∈ ws ↔ w ∈ r.active ∧
        (∃ now, r.watermark = some now ∧ (r.guarantee w).shift r.allowedLateness < now) ∧
        (r.step (.shouldFire w)).1 = .ok (.flag false)) ∧
      Collects ws r.seen r'.seen ∧
      ∃ r'', r'.step .collect = (.ok (.windows []), r'') ∧ r''.seen = r'.seen := by
  obtain ⟨ws, r', hr', horder, hws, hseen⟩ := step_collect ht hF hroot
  have hcollects : Collects ws r.seen r'.seen := hseen ▸ foldl_collects ws r.seen
  refine ⟨ws, r', hr', horder, fun w => ?_, hcollects, ?_⟩
  · rw [hws, shouldFire_iff hF, ← expired_iff]
    exact ⟨fun h => ⟨h.active, h.expired, h.idle⟩, fun h => ⟨h.1, h.2.1, h.2.2⟩⟩
  · have hroot' : r'.root = .root t := hcollects.root_eq.trans hroot
    obtain ⟨us, r'', hr'', -, hus, hseen'⟩ := step_collect ht hF hroot'
    obtain rfl : us = [] := List.eq_nil_iff_forall_not_mem.2 fun w hw =>
      hcollects.no_garbage hws ((hus w).1 hw)
    exact ⟨r'', hr'', hseen'⟩

/-- Of three windows the first is closed, the second still has to be fired, and the third is not
past its lateness. -/
theorem collection_exact_of_three :
    let t : Trigger ScriptedTrigger := .earlyAndLate ⟨.custom { threshold := .clamp 2 }, none⟩
    let a : Window := ⟨.clamp 0, .clamp 10⟩
    let b : Window := ⟨.clamp 0, .clamp 12⟩
    let c : Window := ⟨.clamp 0, .clamp 16⟩
    let r := (start t { allowedLateness := 5 } MemoryStore.empty).run
      [.element [a, b, c] (.clamp 3), .advance (.clamp 20), .fireIfReady a]
    r.active.toList = [a, b, c] ∧ r.closedIn (r.seen.store a) = true ∧
      (r.step (.shouldFire b)).1 = .ok (.flag true) ∧ r.expired c = false ∧
      ∃ ws r', r.step .collect = (.ok (.windows ws), r') ∧ (a ∈ ws ∧ b ∉ ws ∧ c ∉ ws) ∧
        Collects ws r.seen r'.seen ∧
        ∃ r'', r'.step .collect = (.ok (.windows []), r'') ∧ r''.seen = r'.seen := by
  intro t a b c r
  have ht : t.Customs NeverFails := ⟨ScriptedTrigger.neverFails rfl, nofun⟩
  have hclosed : (r.step (.shouldFire a)).1 = .ok (.flag false) :=
    (shouldFire_iff id).2 (by decide +kernel)
  have hready : (r.step (.shouldFire b)).1 = .ok (.flag true) :=
    (shouldFire_iff id).2 (by decide +kernel)
  have hexpired : r.expired a = true := by decide +kernel
  have hlive : r.expired c = false := by decide +kernel
  obtain ⟨ws, r', hr', -, hws, hcollects, hagain⟩ :=
    collection_exact (σ := MemoryStore) (r := r) ht id (run_root _ _)
  refine ⟨by decide +kernel, by decide +kernel, hready, hlive, ws, r', hr', ⟨?_, ?_, ?_⟩,
    hcollects, hagain⟩
  · rw [hws, ← expired_iff]
    exact ⟨by decide +kernel, hexpired, hclosed⟩
  · rw [hws]
    rintro ⟨-, -, hidle⟩
    cases hready.symm.trans hidle
  · rw [hws, ← expired_iff]
    exact fun h => by simp [hlive] at h

end Step

end PaneTriggers.Runner
