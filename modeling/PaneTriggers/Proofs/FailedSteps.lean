import PaneTriggers.Proofs.RunnerSteps
import PaneTriggers.Store.Faulty
import PaneTriggers.Trigger.Scripted

/-!
# What failed steps leave

Over a store that failing calls leave as it was, a step about one window that fails leaves timers of
that window and nothing else (`Runner.Stopped`): the state that it worked on was never saved. This
asks nothing of custom triggers. An element comes to its windows one by one, and a collection takes
its candidates one by one, so a failure at one of them keeps what was done for those before it.
-/

namespace PaneTriggers

variable {κ σ ν α : Type}

/-- If the call fails, it leaves what `view` shows of the store. -/
def Undone (view : σ → ν) (call : EStateM StoreError σ α) : Prop :=
  ∀ x, Ensures (fun m => view m = x) call (fun _ _ => True) fun _ m => view m = x

/-- Loads, and other calls if they fail, leave what `view` shows of the store. Nothing is said of
merges. -/
structure Reverting [StateStore σ] (view : σ → ν) : Prop where
  load : ∀ w x, Ensures (fun m => view m = x) (StateStore.load w) (fun _ m => view m = x)
    fun _ m => view m = x
  save : ∀ w s, Undone view (StateStore.save w s)
  discard : ∀ w, Undone view (StateStore.discard w)

/-- All of the store with faults stays as it was when a call fails. -/
theorem FaultyStore.reverting : Reverting (id : FaultyStore → FaultyStore) where
  load w x := .bind (Q := fun _ m => m = x) (.get fun _ h => h) fun a => by
    by_cases h : w ∈ a.faults.load
    · simp only [h, if_true]
      exact .throw fun _ h => h
    · simp only [h, if_false]
      exact .pure fun _ h => h
  save w s x := .bind (Q := fun _ m => m = x) (.get fun _ h => h) fun a => by
    by_cases h : w ∈ a.faults.save
    · simp only [h, if_true]
      exact .throw fun _ h => h
    · simp only [h, if_false]
      exact fun _ _ => trivial
  discard w x := .bind (Q := fun _ m => m = x) (.get fun _ h => h) fun a => by
    by_cases h : w ∈ a.faults.discard
    · simp only [h, if_true]
      exact .throw fun _ h => h
    · simp only [h, if_false]
      exact fun _ _ => trivial

namespace Runner

/-- The second runner is the first after a step about `w` that failed: timers of `w` may have been
set and hooks called, and the store shows what it showed. All else is as it was. -/
def Stopped (view : σ → ν) (w : Window) (r r' : Runner κ σ) : Prop :=
  ∃ m ts calls, view m = view r.store ∧ r' = { r.withTimers w ts with store := m, calls := calls }

variable {view : σ → ν} {w u : Window} {r r' r₀ : Runner κ σ}

theorem Stopped.refl (view : σ → ν) (w : Window) (r : Runner κ σ) : Stopped view w r r :=
  ⟨r.store, [], r.calls, rfl, rfl⟩

theorem Stopped.noted (h : Stopped view w r r') {m : σ} (hm : view m = view r'.store)
    (calls : List (Call κ)) : Stopped view w r { r' with store := m, calls := calls } := by
  obtain ⟨m', ts, calls', hm', rfl⟩ := h
  exact ⟨m, ts, calls, hm.trans hm', rfl⟩

theorem Stopped.withTimers (h : Stopped view w r r') (ts : List (TimeDomain × Timestamp)) :
    Stopped view w r (r'.withTimers w ts) := by
  obtain ⟨m, ts', calls, hm, rfl⟩ := h
  refine ⟨m, ts' ++ ts, calls, hm, ?_⟩
  unfold Runner.withTimers TimerQueue.insertAll
  rw [List.map_append, List.foldl_append]

/-- Goes on from `r₀` with a step about `w` that saves nothing, and so stops wherever it ends. -/
abbrev Passes (view : σ → ν) (w : Window) (r₀ : Runner κ σ) (act : RunnerM κ σ α) : Prop :=
  Ensures (Stopped view w r₀) act (fun _ => Stopped view w r₀) fun _ => Stopped view w r₀

/-- Goes on from `r₀` with a step about `w` that stops if it fails. -/
abbrev Stops (view : σ → ν) (w : Window) (r₀ : Runner κ σ) (act : RunnerM κ σ α) : Prop :=
  Ensures (Stopped view w r₀) act (fun _ _ => True) fun _ => Stopped view w r₀

theorem get_passes : Passes view w r₀ (MonadState.get : RunnerM κ σ (Runner κ σ)) :=
  .get fun _ h => h

theorem modify_stops {f : Runner κ σ → Runner κ σ} : Stops view w r₀ (modify f : RunnerM κ σ Unit) :=
  .modify fun _ _ => trivial

theorem evaluating_passes {s : WindowState} {act : Scope → Node κ → Eval κ Unit} :
    Passes view w r₀ (evaluating w s act) := by
  intro r hr
  have hset : ∀ p : Progress κ,
      Stopped view w r₀ { r.withTimers w p.timers with calls := r.calls ++ p.calls } := fun p =>
    (hr.withTimers p.timers).noted rfl _
  unfold evaluating
  cases act (r.scope w) r.root { state := s } with
  | ok _ p => exact hset p
  | error e p => exact hset p

theorem usingStore_stops {call : EStateM StoreError σ α} (h : Undone view call) :
    Stops view w r₀ (usingStore call : RunnerM κ σ α) := by
  intro r hr
  have h := h _ r.store rfl
  unfold usingStore
  cases hc : call r.store with
  | ok a m => trivial
  | error e m =>
    rw [hc] at h
    exact hr.noted h r.calls

section Steps

variable [StateStore σ]

theorem windowState_passes (hs : Reverting view) :
    Passes view w r₀ (windowState u : RunnerM κ σ WindowState) := by
  intro r hr
  have h := hs.load u _ r.store rfl
  unfold windowState usingStore
  cases hc : StateStore.load u r.store with
  | ok a m =>
    rw [hc] at h
    exact hr.noted h r.calls
  | error e m =>
    rw [hc] at h
    exact hr.noted h r.calls

theorem loadSources_passes (hs : Reverting view) : ∀ ws : List Window,
    Passes view w r₀ (loadSources ws : RunnerM κ σ (List MergeSource))
  | [] => .pure fun _ h => h
  | _ :: ws => .bind (windowState_passes hs) fun _ => .bind (loadSources_passes hs ws) fun _ =>
    .pure fun _ h => h

variable [CustomTrigger κ]

theorem shouldFire_passes (hs : Reverting view) :
    Passes view w r₀ (shouldFire w : RunnerM κ σ Bool) := by
  refine .bind (windowState_passes hs) fun s => .bind (Q := fun a r => a = r ∧ Stopped view w r₀ r)
    (.get fun _ h => ⟨rfl, h⟩) fun a => .ite (fun _ => .pure fun _ h => h.2) fun _ => ?_
  refine .bind (Q := fun _ => Stopped view w r₀) (.set fun r h => ?_) fun _ => ?_
  · rw [h.1]
    exact h.2.noted rfl _
  · cases a.root.ready (a.scope w) s with
    | ok b => exact .pure fun _ h => h
    | error e => exact .throw fun _ h => h

theorem accept_stops (hs : Reverting view) {ws : List Window} {t : Timestamp} {s : WindowState} :
    Stops view w r₀ (accept ws t w s : RunnerM κ σ Unit) :=
  .bind evaluating_passes fun _ => .bind (Q := fun _ => Stopped view w r₀)
    (.modify fun _ h => h.withTimers [(.eventTime, w.maxTimestamp)]) fun _ =>
      .bind (usingStore_stops (hs.save w _)) fun _ => .modify fun _ _ => trivial

theorem deliver_stops (hs : Reverting view) {ws : List Window} {t : Timestamp} :
    Stops view w r₀ (deliver ws t w : RunnerM κ σ Unit) :=
  .bind get_passes fun _ => .ite (fun _ => modify_stops) fun _ =>
    .bind (windowState_passes hs) fun _ => .bind get_passes fun _ =>
      .ite (fun _ => modify_stops) fun _ => accept_stops hs

theorem onFire_stops (hs : Reverting view) : Stops view w r₀ (onFire w : RunnerM κ σ Unit) := by
  refine .bind (windowState_passes hs) fun s => .bind evaluating_passes fun s' =>
    .bind get_passes fun a => .bind (usingStore_stops (hs.save w s')) fun _ =>
      .bind (Q := fun _ _ => True) (.modify fun _ _ => trivial) fun _ => ?_
  exact .ite (fun _ => .modify fun _ _ => trivial) fun _ => .pure fun _ _ => trivial

theorem collectEach_stops (hs : Reverting view) :
    Stops view w r₀ (collectEach [w] : RunnerM κ σ (List Window)) := by
  refine .bind (shouldFire_passes hs) fun b => .ite (fun _ => .pure fun _ _ => trivial) fun _ => ?_
  have hcollect : Stops view w r₀ (collect w : RunnerM κ σ Unit) :=
    .bind (usingStore_stops (hs.discard w)) fun _ => .modify fun _ _ => trivial
  exact .bind hcollect fun _ => .pure fun _ _ => trivial

/-- The part of a merge that works out the state of the destination. -/
def reconcile (ws : List Window) (d : Window) : RunnerM κ σ WindowState := do
  let merging ← loadSources ws
  evaluating d .empty fun scope root => root.onMerge scope merging

theorem reconcile_passes (hs : Reverting view) {ws : List Window} :
    Passes view w r₀ (reconcile ws w : RunnerM κ σ WindowState) :=
  .bind (loadSources_passes hs ws) fun _ => evaluating_passes

theorem merge_of_reconcile {ws : List Window} {e : RunnerError} (h : reconcile ws w r = .error e r') :
    merge ws w r = .error e r' := by
  unfold reconcile at h
  unfold merge
  cases hl : loadSources ws r with
  | error e' r₁ =>
    rw [bind_of_error hl] at h ⊢
    cases h
    rfl
  | ok ms r₁ =>
    rw [bind_of_ok hl] at h ⊢
    exact bind_of_error h

theorem merge_stops (hs : Reverting view) {ws : List Window}
    (hc : ∀ s, Undone view (StateStore.commitMerge ws w s : EStateM StoreError σ Unit)) :
    Stops view w r₀ (merge ws w : RunnerM κ σ Unit) := by
  refine .bind (loadSources_passes hs ws) fun _ => .bind evaluating_passes fun _ =>
    .bind get_passes fun _ => .bind get_passes fun _ => ?_
  exact .bind (usingStore_stops (hc _)) fun _ => .modify fun _ _ => trivial

/-- The candidates of a collection are taken one after the other. -/
theorem collectEach_cons (w : Window) (ws : List Window) :
    (collectEach (w :: ws) : RunnerM κ σ (List Window)) = (do
      let us ← collectEach [w]
      let vs ← collectEach ws
      return us ++ vs) := by
  simp only [collectEach, bind_assoc]
  congr 1
  funext b
  split_ifs <;> simp

/-- A collection that fails does so at one of its candidates. -/
theorem collectEach_of_error {e : RunnerError} :
    ∀ {ws : List Window} {r : Runner κ σ}, collectEach ws r = .error e r' →
      ∃ before w after us r₁, ws = before ++ w :: after ∧ collectEach before r = .ok us r₁ ∧
        collectEach [w] r₁ = .error e r'
  | [], _, h => by cases h
  | w :: ws, r, h => by
    rw [collectEach_cons] at h
    cases hw : collectEach [w] r with
    | error e' r₁ =>
      rw [bind_of_error hw] at h
      cases h
      exact ⟨[], w, ws, [], r, rfl, rfl, hw⟩
    | ok us r₁ =>
      rw [bind_of_ok hw] at h
      cases hws : collectEach ws r₁ with
      | ok vs r₂ =>
        rw [bind_of_ok hws] at h
        cases h
      | error e' r₂ =>
        rw [bind_of_error hws] at h
        cases h
        obtain ⟨before, u, after, vs, r₂, rfl, hbefore, hu⟩ := collectEach_of_error hws
        refine ⟨w :: before, u, after, us ++ vs, r₂, rfl, ?_, hu⟩
        rw [collectEach_cons, bind_of_ok hw, bind_of_ok hbefore]
        rfl

/-- A failed step keeps what was done for the windows before the one at which it failed. For that
one it leaves timers at most. A merge is about its destination; if its commit fails, that has to
leave the store as it was. -/
theorem failed_steps_keep_prefix (hs : Reverting view) (r : Runner κ σ) :
    (∀ ws t e r', processElement ws t r = .error e r' → ∃ before w after r₁,
      ws = before ++ w :: after ∧ before.forM (deliver ws t) r = .ok () r₁ ∧
        deliver ws t w r₁ = .error e r' ∧ Stopped view w r₁ r') ∧
    (∀ e r', garbageCollect r = .error e r' → ∃ before w after us r₁,
      r.active.toList.filter r.expired = before ++ w :: after ∧
        collectEach before r = .ok us r₁ ∧ collectEach [w] r₁ = .error e r' ∧
        Stopped view w r₁ r') ∧
    (∀ w e r', onFire w r = .error e r' → Stopped view w r r') ∧
    ∀ ws d e r', merge ws d r = .error e r' →
      ((∃ e₁ r₁, reconcile ws d r = .error e₁ r₁) ∨
        ∀ s, Undone view (StateStore.commitMerge ws d s : EStateM StoreError σ Unit)) →
      Stopped view d r r' := by
  refine ⟨fun ws t e r' h => ?element, fun e r' h => ?collect, fun w e r' h => ?fire,
    fun ws d e r' h hcause => ?merge⟩
  case element =>
    obtain ⟨before, w, after, r₁, hws, hbefore, hw⟩ := forM_of_error h
    exact ⟨before, w, after, r₁, hws, hbefore, hw, (deliver_stops hs).of_error (.refl ..) hw⟩
  case collect =>
    obtain ⟨before, w, after, us, r₁, hws, hbefore, hw⟩ := collectEach_of_error h
    exact ⟨before, w, after, us, r₁, hws, hbefore, hw,
      (collectEach_stops hs).of_error (.refl ..) hw⟩
  case fire => exact (onFire_stops hs).of_error (.refl ..) h
  case merge =>
    rcases hcause with ⟨e₁, r₁, hr⟩ | hc
    · rw [merge_of_reconcile hr] at h
      cases h
      exact (reconcile_passes hs).of_error (.refl ..) hr
    · exact (merge_stops hs hc).of_error (.refl ..) h

end Steps

/-- An element fails at its second window, whose state cannot be saved, and the collection at its
second candidate, which cannot be discarded. A firing fails in its hook, and a merge where it loads
its second source. -/
theorem failed_steps_keep_prefix_of_faulty :
    let k : ScriptedTrigger :=
      { readiness := .never
        guaranteeOffset := some 0
        failures := [(.onOnlyFiring, .unsupported)]
        timers := [⟨.onElement, .eventTime, .element, 5⟩] }
    let a : Window := ⟨.clamp 0, .clamp 10⟩
    let b : Window := ⟨.clamp 0, .clamp 60⟩
    let c : Window := ⟨.clamp 5, .clamp 20⟩
    let d : Window := ⟨.clamp 30, .clamp 50⟩
    let f : Window := ⟨.clamp 20, .clamp 50⟩
    let store : FaultyStore := { faults := { load := [f], save := [b], discard := [c] } }
    let r := (start (.once (.custom k)) {} store).run
      [.element [a, c] (.clamp 6), .advance (.clamp 40)]
    (∃ e r', processElement [d, b] (.clamp 35) r = .error e r' ∧ ∃ before w after r₁,
      [d, b] = before ++ w :: after ∧ Stopped id w r₁ r' ∧
        before.forM (deliver [d, b] (.clamp 35)) r = .ok () r₁) ∧
    (∃ e r', garbageCollect r = .error e r' ∧ ∃ before w after us r₁,
      [a, c] = before ++ w :: after ∧ Stopped id w r₁ r' ∧ collectEach before r = .ok us r₁) ∧
    (∃ e r', onFire a r = .error e r' ∧ Stopped id a r r') ∧
    ∃ e r', merge [a, f] d r = .error e r' ∧ Stopped id d r r' := by
  intro k a b c d f store r
  have fails : ∀ {α : Type} (act : RunnerM ScriptedTrigger FaultyStore α),
      (match act r with | .ok _ _ => false | .error _ _ => true) = true →
        ∃ e r', act r = .error e r' := by
    intro α act h
    cases hx : act r with
    | ok _ _ => rw [hx] at h; cases h
    | error e r' => exact ⟨e, r', rfl⟩
  obtain ⟨helement, hcollect, hfire, hmerge⟩ := failed_steps_keep_prefix FaultyStore.reverting r
  refine ⟨?_, ?_, ?_, ?_⟩
  · obtain ⟨e, r', h⟩ := fails (processElement [d, b] (.clamp 35)) (by decide +kernel)
    obtain ⟨before, w, after, r₁, hws, hbefore, -, hr'⟩ := helement _ _ _ _ h
    exact ⟨e, r', h, before, w, after, r₁, hws, hr', hbefore⟩
  · obtain ⟨e, r', h⟩ := fails garbageCollect (by decide +kernel)
    obtain ⟨before, w, after, us, r₁, hws, hbefore, -, hr'⟩ := hcollect _ _ h
    have hcandidates : r.active.toList.filter r.expired = [a, c] := by decide +kernel
    exact ⟨e, r', h, before, w, after, us, r₁, hcandidates ▸ hws, hr', hbefore⟩
  · obtain ⟨e, r', h⟩ := fails (onFire a) (by decide +kernel)
    exact ⟨e, r', h, hfire _ _ _ h⟩
  · obtain ⟨e, r', h⟩ := fails (merge [a, f] d) (by decide +kernel)
    exact ⟨e, r', h, hmerge _ _ _ _ h (.inl (fails (reconcile [a, f] d) (by decide +kernel)))⟩

end Runner

end PaneTriggers
