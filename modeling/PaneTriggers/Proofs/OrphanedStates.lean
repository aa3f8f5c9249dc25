import PaneTriggers.Proofs.Changes
import PaneTriggers.Proofs.Collections
import PaneTriggers.Proofs.StrandedTimers

/-!
# Where states are stored

Collections go through the active windows, while states lie in the store. Every step keeps the two
together: a window that gets a state becomes active, and one that is no longer active has lost its
state (`Runner.Sheltered`). This is so over any tree, and whatever hooks and store calls fail, as
long as only active windows are fired. What it does not reach are states that the store held before
the runner, which starts with no active windows; `Runner.stored_active_or_from_start` says
what becomes of these.
-/

namespace PaneTriggers.Runner

variable {κ σ α : Type}

/-- A window with a state in `v'` is active there, unless it was not active in `v` and has the state
that it had. -/
def Sheltered (v v' : Seen κ) : Prop :=
  ∀ w, v'.store w ≠ .empty → w ∈ v'.active ∨ w ∉ v.active ∧ v'.store w = v.store w

section Sheltered

variable {v v' v'' : Seen κ} {w d : Window} {ws : List Window} {p : Progress κ}

theorem Sheltered.trans (h : Sheltered v v') (h' : Sheltered v' v'') : Sheltered v v'' := by
  intro w hw
  rcases h' w hw with ha | ⟨ha, hs⟩
  · exact .inl ha
  · rw [hs] at hw
    obtain ⟨hv, hs'⟩ := (h w hw).resolve_left ha
    exact .inr ⟨hv, hs.trans hs'⟩

/-- Each window keeps its state and stays active or not, or loses its state, or becomes active. -/
theorem Sheltered.of_each (h : ∀ w, v'.store w = v.store w ∧ (w ∈ v.active → w ∈ v'.active) ∨
    v'.store w = .empty ∨ w ∈ v'.active) : Sheltered v v' := by
  intro w hw
  rcases h w with ⟨hs, ha⟩ | he | ha
  · by_cases hv : w ∈ v.active
    · exact .inl (ha hv)
    · exact .inr ⟨hv, hs⟩
  · exact absurd he hw
  · exact .inl ha

theorem Sheltered.of_eq (hs : v'.store = v.store) (ha : v'.active = v.active) : Sheltered v v' :=
  .of_each fun w => .inl ⟨by rw [hs], by rw [ha]; exact id⟩

theorem Sheltered.refl (v : Seen κ) : Sheltered v v := .of_eq rfl rfl

theorem sheltered_accepted {t : Timestamp} : Sheltered v (v.accepted t w p) := by
  refine .of_each fun u => ?_
  by_cases hu : u = w
  · exact .inr (.inr (mem_active_insert.2 (.inl hu)))
  · exact .inl ⟨Contents.put_other _ _ hu, fun ha => mem_active_insert.2 (.inr ha)⟩

theorem sheltered_fired (hw : w ∈ v.active) : Sheltered v (v.fired w p) := by
  refine .of_each fun u => ?_
  rw [fired_store, fired_active]
  by_cases hu : u = w
  · exact .inr (.inr (hu ▸ hw))
  · exact .inl ⟨Contents.put_other _ _ hu, id⟩

theorem sheltered_merged : Sheltered v (v.merged ws d p) := by
  refine .of_each fun u => ?_
  rw [merged_store, mem_merged_active]
  by_cases hd : u = d
  · exact .inr (.inr (.inl hd))
  · by_cases hu : u ∈ ws
    · exact .inr (.inl ((if_neg hd).trans (if_pos hu)))
    · exact .inl ⟨(if_neg hd).trans (if_neg hu), fun ha => .inr ⟨ha, hu⟩⟩

theorem sheltered_halfMerged {ts : List (TimeDomain × Timestamp)} {g : Contents}
    (hg : HalfMerged ws d v.store g) : Sheltered v { v.withTimers d ts with store := g } := by
  refine .of_each fun u => ?_
  rcases hg u with hu | ⟨-, -, hu⟩
  · exact .inl ⟨hu, id⟩
  · exact .inr (.inl hu)

theorem sheltered_collected : Sheltered v (v.collected w) := by
  refine .of_each fun u => ?_
  by_cases hu : u = w
  · exact .inr (.inl (hu ▸ Contents.put_same _ _ _))
  · exact .inl ⟨Contents.put_other _ _ hu, fun ha => mem_collected_active.2 ⟨ha, hu⟩⟩

theorem Interrupted.sheltered (h : v.Interrupted w v') : Sheltered v v' := by
  obtain ⟨ts, rfl⟩ := h
  exact .of_eq rfl rfl

end Sheltered

section Steps

variable [CustomTrigger κ] [StateStore σ] [LawfulStore σ] {v₀ : Seen κ} {r : Runner κ σ}
  {w d : Window} {ws : List Window}

omit [CustomTrigger κ] in
theorem preserves_sheltered {act : RunnerM κ σ α}
    (h : ∀ v, Ensures (fun r => r.seen = v) act (fun _ r => Sheltered v r.seen)
      fun _ r => Sheltered v r.seen) : Preserves (fun r => Sheltered v₀ r.seen) act :=
  .of_each (f := seen) fun v hv => (h v).mono (fun _ h => h) (fun _ _ => hv.trans)
    fun _ _ => hv.trans

theorem deliver_sheltered {us : List Window} {t : Timestamp} :
    Preserves (fun r => Sheltered v₀ r.seen) (deliver us t w : RunnerM κ σ Unit) := by
  refine preserves_sheltered fun v => deliver_ensures.mono (fun _ h => h) ?_ fun _ r h =>
    h.2.sheltered
  rintro _ r (⟨reason, -, hr⟩ | ⟨-, p, -, hr⟩) <;> rw [hr]
  · exact .of_eq rfl rfl
  · exact sheltered_accepted

theorem merge_sheltered :
    Preserves (fun r => Sheltered v₀ r.seen) (merge ws d : RunnerM κ σ Unit) := by
  refine preserves_sheltered fun v => merge_ensures.mono (fun _ h => h) ?_ ?_
  · rintro _ r ⟨p, -, hr⟩
    rw [hr]
    exact sheltered_merged
  · rintro _ r ⟨-, ts, g, hg, hr⟩
    rw [hr]
    exact sheltered_halfMerged hg

theorem shouldFire_sheltered :
    Preserves (fun r => Sheltered v₀ r.seen) (shouldFire w : RunnerM κ σ Bool) :=
  preserves_sheltered fun v => shouldFire_ensures.mono (fun _ h => h)
    (fun _ _ h => h.2 ▸ .refl v) fun _ _ h => h.2 ▸ .refl v

theorem collectEach_sheltered : ∀ ws : List Window,
    Preserves (fun r => Sheltered v₀ r.seen) (collectEach ws : RunnerM κ σ (List Window))
  | [] => .pure fun _ h => h
  | w :: ws => by
    have hcollect : Preserves (fun r => Sheltered v₀ r.seen) (collect w : RunnerM κ σ Unit) :=
      preserves_sheltered fun v => collect_ensures.mono (fun _ h => h)
        (fun _ _ h => h ▸ sheltered_collected) fun _ _ h => h.2 ▸ .refl v
    exact .bind shouldFire_sheltered fun _ => .ite (fun _ => collectEach_sheltered ws) fun _ =>
      .bind hcollect fun _ => .bind (collectEach_sheltered ws) fun _ => .pure fun _ h => h

/-- A firing of an active window leaves it active. -/
theorem onFire_sheltered {a : Std.ExtTreeSet Window} (hw : w ∈ a) :
    Preserves (fun r => Sheltered v₀ r.seen ∧ r.seen.active = a)
      (onFire w : RunnerM κ σ Unit) := by
  refine .of_each (f := seen) (G := fun v => Sheltered v₀ v ∧ v.active = a) fun v hv =>
    onFire_ensures.mono (fun _ h => h) ?_ ?_
  · rintro _ r ⟨p, -, hr⟩
    rw [hr, fired_active]
    exact ⟨hv.1.trans (sheltered_fired (hv.2 ▸ hw)), hv.2⟩
  · rintro _ r ⟨-, ts, hr⟩
    rw [hr]
    exact ⟨hv.1.trans (.of_eq rfl rfl), hv.2⟩

theorem fireIfReady_sheltered {a : Std.ExtTreeSet Window} (hw : w ∈ a) :
    Preserves (fun r => Sheltered v₀ r.seen ∧ r.seen.active = a)
      (fireIfReady w : RunnerM κ σ FiringOutcome) := by
  refine .of_each (f := seen) (G := fun v => Sheltered v₀ v ∧ v.active = a) fun v hv =>
    fireIfReady_ensures.mono (fun _ h => h) ?_ ?_
  · rintro _ r (⟨-, -, hr⟩ | ⟨-, p, -, -, hr⟩) <;> rw [hr]
    · exact hv
    · exact ⟨hv.1.trans (sheltered_fired (hv.2 ▸ hw)), fired_active.trans hv.2⟩
  · rintro _ r ⟨-, ⟨ts, hr⟩ | ⟨p, -, hr⟩⟩ <;> rw [hr]
    · exact ⟨hv.1.trans (.of_eq rfl rfl), hv.2⟩
    · exact ⟨hv.1.trans (sheltered_fired (hv.2 ▸ hw)), fired_active.trans hv.2⟩

/-- An operation that fires active windows only keeps states sheltered, also if it fails. -/
theorem step_sheltered {op : Operation} (hop : ∀ w ∈ r.targets op, w ∈ r.active) :
    Sheltered r.seen (r.step op).2.seen := by
  have kept : Preserves (fun r' => Sheltered r.seen r'.seen) (perform op : RunnerM κ σ Answer) →
      Sheltered r.seen (r.step op).2.seen := fun h => step_ensures h (.refl _)
  have reading : ∀ {β : Type} {act : RunnerM κ σ β} {A : Seen κ → β → Prop} {G : Seen κ → Prop},
      (∀ v, Ensures (fun r => r.seen = v) act (fun a r => A v a ∧ r.seen = v)
        fun _ r => G v ∧ r.seen = v) →
      Preserves (fun r' : Runner κ σ => Sheltered r.seen r'.seen) act := fun h =>
    preserves_sheltered fun v => (h v).mono (fun _ h => h) (fun _ _ h => h.2 ▸ .refl v)
      fun _ _ h => h.2 ▸ .refl v
  have firing : ∀ w ∈ r.active, Preserves (fun r' : Runner κ σ => Sheltered r.seen r'.seen ∧
      r'.seen.active = r.active) (perform (.fireIfReady w)) := fun w hw =>
    .map (fireIfReady_sheltered hw)
  have advanced : ∀ now, Sheltered r.seen (r.advance now).2.seen := fun now =>
    .of_eq (by rw [← (seen_advance now r).2, advance_store])
      (by rw [← (seen_advance now r).2, advance_active])
  cases op with
  | element us t => exact kept (.map (.forM fun _ _ => deliver_sheltered))
  | merge us d => exact kept (.map merge_sheltered)
  | advance t => exact advanced t
  | tick t =>
    rw [step_tick]
    refine (run_keeps (J := fun r' => Sheltered r.seen r'.seen ∧ r'.seen.active = r.active)
      (fun op' hop' => ?_) ⟨advanced t, r.advance_active t⟩).1
    obtain ⟨w, hw, rfl⟩ := List.mem_map.1 hop'
    exact firing w (hop w hw)
  | shouldFire w => exact kept (.map shouldFire_sheltered)
  | fire w =>
    have hw : w ∈ r.active := hop w List.mem_cons_self
    have hfires : Preserves (fun r' : Runner κ σ => Sheltered r.seen r'.seen ∧
        r'.seen.active = r.active) (perform (.fire w)) := .map (onFire_sheltered hw)
    exact (step_ensures hfires ⟨.refl r.seen, rfl⟩).1
  | fireIfReady w =>
    exact (step_ensures (firing w (hop w List.mem_cons_self)) ⟨.refl r.seen, rfl⟩).1
  | isClosed w => exact kept (.map (reading fun _ => isClosed_ensures))
  | windowState w => exact kept (.map (reading fun _ => windowState_ensures))
  | collect =>
    exact kept (.map (.bind (Q := fun _ r' => Sheltered r.seen r'.seen) (.get fun _ h => h)
      fun _ => collectEach_sheltered _))

/-- The window is not active at the start of the run, nor after any step of it. -/
def NeverActive (w : Window) : Runner κ σ → List Operation → Prop
  | r, [] => w ∉ r.active
  | r, op :: ops => w ∉ r.active ∧ NeverActive w (r.step op).2 ops

omit [LawfulStore σ] in
theorem NeverActive.at_start : ∀ {ops : List Operation}, NeverActive w r ops → w ∉ r.active
  | [], h => h
  | _ :: _, h => h.1

theorem run_sheltered : ∀ {ops : List Operation} {r : Runner κ σ}, r.FiresActive ops →
    (r.run ops).seen.store w ≠ .empty → w ∉ (r.run ops).active →
      NeverActive w r ops ∧ (r.run ops).seen.store w = r.seen.store w
  | [], _, _, _, ha => ⟨ha, rfl⟩
  | op :: ops, r, hops, hs, ha => by
    obtain ⟨hop, hops⟩ : (∀ w ∈ r.targets op, w ∈ r.active) ∧ (r.step op).2.FiresActive ops := hops
    obtain ⟨hnever, hsame⟩ := run_sheltered hops hs ha
    have hs' : (r.step op).2.seen.store w ≠ .empty := hsame ▸ hs
    obtain ⟨hstart, hstep⟩ := (step_sheltered hop w hs').resolve_left hnever.at_start
    exact ⟨⟨hstart, hnever⟩, hsame.trans hstep⟩

/-- Over a tree that never fails and a store that never fails, a collection leaves no state of an
active window that has expired, unless the window is ready to fire. -/
theorem collect_leaves {t : Trigger κ} (ht : t.Customs NeverFails) (hF : ¬LawfulStore.Faulty σ)
    (hroot : r.root = .root t) :
    ∃ us r', r.step .collect = (.ok (.windows us), r') ∧
      ∀ w ∈ r'.active, r'.expired w = true → r'.seen.readiness w = .ok true := by
  obtain ⟨us, r', hr', -, hus, hseen⟩ := step_collect ht hF hroot
  have hcollects : Collects us r.seen r'.seen := hseen ▸ foldl_collects us r.seen
  refine ⟨us, r', hr', fun w hw he => ?_⟩
  rcases hb : r'.seen.readiness w with e | _ | _
  · exact (readiness_returns (hcollects.root_eq.trans hroot) ht hb).elim
  · exact (hcollects.no_garbage hus ⟨hw, he, hb⟩).elim
  · rfl

end Steps

variable [CustomTrigger κ] {t : Trigger κ}

/-- A window with a state is active, or the runner started over a store with that state and the
window has not been active since. And a collection leaves no expired window of the first kind,
unless it is ready to fire. -/
theorem stored_active_or_from_start (ht : t.Customs NeverFails) (cfg : RunnerConfig)
    (m : MemoryStore) {ops : List Operation} (hops : (start t cfg m).FiresActive ops) :
    let first := start t cfg m
    let r := first.run ops
    (∀ w, r.store.state w ≠ .empty →
      w ∈ r.active ∨ NeverActive w first ops ∧ r.store.state w = m.state w) ∧
    ∃ us r', r.step .collect = (.ok (.windows us), r') ∧
      ∀ w, r'.store.state w ≠ .empty → r'.expired w = true →
        (r'.step (.shouldFire w)).1 = .ok (.flag true) ∨
          NeverActive w first ops ∧ r'.store.state w = m.state w := by
  intro first r
  have hF : ¬LawfulStore.Faulty MemoryStore := id
  have hstates : ∀ w, r.store.state w ≠ .empty →
      w ∈ r.active ∨ NeverActive w first ops ∧ r.store.state w = m.state w := by
    intro w hs
    by_cases ha : w ∈ r.active
    · exact .inl ha
    · exact .inr (run_sheltered hops hs ha)
  refine ⟨hstates, ?_⟩
  have hroot : r.root = .root t := run_root ops first
  obtain ⟨us, r', hr', hready⟩ := collect_leaves ht hF hroot
  refine ⟨us, r', hr', fun w hs he => ?_⟩
  have hstep : Sheltered r.seen r'.seen := by
    have h : Sheltered r.seen (r.step .collect).2.seen :=
      step_sheltered fun _ hw => (List.not_mem_nil hw).elim
    rwa [hr'] at h
  rcases hstep w hs with ha | ⟨ha, hsame⟩
  · have hfire := shouldFire_ensures (v := r'.seen) (w := w) r' rfl
    have hb := hready w ha he
    refine .inl ?_
    cases hx : shouldFire w r' with
    | ok b r'' =>
      rw [hx, hb] at hfire
      obtain ⟨rfl⟩ := hfire.1
      have hs : r'.step (.shouldFire w) = (.ok (.flag true), r'') := step_of_ok (bind_of_ok hx)
      rw [hs]
    | error e r'' =>
      rw [hx, hb] at hfire
      rcases hfire.1 with hf | ⟨_, he⟩
      · exact hf.elim
      · cases he
  · have hs' : r.store.state w ≠ .empty := fun h => hs (hsame.trans h)
    refine .inr (((hstates w hs').resolve_left ha).imp_right fun h => ?_)
    exact hsame.trans h

/-- The store starts with the state of a closed window. Another window gets an element, and is kept
by the collection because it is ready. -/
theorem stored_active_or_from_start_restored :
    let k : ScriptedTrigger := { readiness := .endOfWindow, guaranteeOffset := some 0 }
    let a : Window := ⟨.clamp 0, .clamp 10⟩
    let b : Window := ⟨.clamp 0, .clamp 20⟩
    let closed := WindowState.empty.setFinished .root true
    let first := start (.once (.custom k)) {} (MemoryStore.empty.put a closed)
    let ops : List Operation := [.element [b] (.clamp 15), .advance (.clamp 40)]
    let r := first.run ops
    let r' := (r.step .collect).2
    (r.store.state a = closed ∧ NeverActive a first ops) ∧
      (r'.store.state b ≠ .empty ∧ r'.expired b = true) ∧
      (r'.step (.shouldFire b)).1 = .ok (.flag true) := by
  intro k a b closed first ops r r'
  have hret : (Trigger.once (.custom k)).Customs NeverFails := ScriptedTrigger.neverFails rfl
  have hops : first.FiresActive ops := by decide +kernel
  obtain ⟨hstates, us, r'', hr'', hcollected⟩ :=
    stored_active_or_from_start hret {} (MemoryStore.empty.put a closed) hops
  have hclosed : r.store.state a = closed := by decide +kernel
  obtain ⟨hnever, -⟩ := (hstates a (by decide +kernel)).resolve_left (by decide +kernel)
  have hb : r'.store.state b ≠ .empty ∧ r'.expired b = true := by decide +kernel
  have hr' : r'' = r' := (congrArg Prod.snd hr'').symm
  rw [hr'] at hcollected
  refine ⟨⟨hclosed, hnever⟩, hb, (hcollected b hb.1 hb.2).resolve_right fun h => ?_⟩
  have hempty : (MemoryStore.empty.put a closed).state b = .empty := by decide +kernel
  exact hb.1 (h.2.trans hempty)

/-- The store that a runner starts over holds a window that has had its on-time pane and is still
open. It expires, and no collection takes its state. -/
theorem restored_state_never_collected :
    let k : ScriptedTrigger := {}
    let w : Window := ⟨.clamp 0, .clamp 10⟩
    let store := MemoryStore.empty.put w (WindowState.empty.setFinished .early true)
    let r := (start (.earlyAndLate ⟨.never, some (.custom k)⟩) {} store).run
      [.advance (.clamp 100), .collect]
    r.store.state w ≠ .empty ∧ w ∉ r.active ∧ r.expired w = true ∧
      (r.step (.shouldFire w)).1 = .ok (.flag false) := by
  intro k w store r
  exact ⟨by decide +kernel, by decide +kernel, by decide +kernel, by rfl⟩

end PaneTriggers.Runner
