import PaneTriggers.Proofs.RunnerSteps

/-!
# Steps seen from their timers and active windows

A property of runners that depends neither on the store nor on what is recorded and counted
(`Runner.Unnoted`) is kept by every step that only reads. If it is kept by setting timers of a
window, firings of that window keep it, and if it is kept by retiring windows, collections do. If it
is also kept as the window becomes active, elements and merges into the window keep it. All this is
so over any store and any tree, and whether or not the step fails.
-/

namespace PaneTriggers.Runner

variable {κ σ α : Type} {J : Runner κ σ → Prop} {w : Window}

/-- `J` does not depend on the store, nor on what is recorded and counted. -/
def Unnoted (J : Runner κ σ → Prop) : Prop :=
  ∀ r store calls telemetry log, J r →
    J { r with store := store, calls := calls, telemetry := telemetry, log := log }

/-- The step keeps `J`, also when it fails. -/
abbrev Preserves (J : Runner κ σ → Prop) (act : RunnerM κ σ α) : Prop :=
  Ensures J act (fun _ => J) fun _ => J

namespace Unnoted

theorem usingStore (hJ : Unnoted J) {act : EStateM StoreError σ α} :
    Preserves J (Runner.usingStore act) :=
  usingStore_keeps fun r m => hJ r m r.calls r.telemetry r.log

theorem evaluating (hJ : Unnoted J) (htimers : ∀ r ts, J r → J (r.withTimers w ts))
    {s : WindowState} {act : Scope → Node κ → Eval κ Unit} :
    Preserves J (Runner.evaluating w s act) := by
  intro r hr
  have hset : ∀ p : Progress κ, J { r.withTimers w p.timers with calls := r.calls ++ p.calls } :=
    fun p => hJ _ r.store _ r.telemetry r.log (htimers r p.timers hr)
  unfold Runner.evaluating
  cases act (r.scope w) r.root { state := s } with
  | ok _ p => exact hset p
  | error e p => exact hset p

theorem drop (hJ : Unnoted J) {reason : DropReason} :
    Preserves J (Runner.drop w reason : RunnerM κ σ Unit) :=
  .modify fun r h => hJ r r.store r.calls _ _ h

variable [StateStore σ]

theorem isClosed (hJ : Unnoted J) : Preserves J (Runner.isClosed w : RunnerM κ σ Bool) :=
  .bind hJ.usingStore fun _ => .map (.get fun _ h => h)

theorem loadSources (hJ : Unnoted J) : ∀ ws : List Window,
    Preserves J (Runner.loadSources ws : RunnerM κ σ (List MergeSource))
  | [] => .pure fun _ h => h
  | _ :: ws => .bind hJ.usingStore fun _ => .map (hJ.loadSources ws)

variable [CustomTrigger κ]

theorem shouldFire (hJ : Unnoted J) : Preserves J (Runner.shouldFire w : RunnerM κ σ Bool) := by
  refine .bind hJ.usingStore fun s => .bind (Q := fun a r => a = r ∧ J r)
    (.get fun _ h => ⟨rfl, h⟩) fun a => .ite (fun _ => .pure fun _ h => h.2) fun _ => ?_
  refine .bind (Q := fun _ => J) (.set ?_) fun _ => ?_
  · rintro r ⟨rfl, h⟩
    exact hJ a a.store _ a.telemetry a.log h
  · cases a.root.ready (a.scope w) s with
    | ok b => exact .pure fun _ h => h
    | error e => exact .throw fun _ h => h

theorem onFire (hJ : Unnoted J) (htimers : ∀ r ts, J r → J (r.withTimers w ts)) :
    Preserves J (Runner.onFire w : RunnerM κ σ Unit) := by
  refine .bind hJ.usingStore fun s => .bind (hJ.evaluating htimers) fun s' =>
    .bind (Q := fun _ => J) (.get fun _ h => h) fun a => .bind hJ.usingStore fun _ => ?_
  exact .bind (Q := fun _ => J) (.modify fun r h => hJ r r.store r.calls _ _ h) fun _ =>
    .ite (fun _ => .modify fun r h => hJ r r.store r.calls _ _ h) fun _ => .pure fun _ h => h

theorem fireIfReady (hJ : Unnoted J) (htimers : ∀ r ts, J r → J (r.withTimers w ts)) :
    Preserves J (Runner.fireIfReady w : RunnerM κ σ FiringOutcome) :=
  .bind hJ.shouldFire fun _ => .ite
    (fun _ => .bind (hJ.onFire htimers) fun _ => .map hJ.isClosed)
    fun _ => .pure fun _ h => h

theorem accept (hJ : Unnoted J) (htimers : ∀ r ts, J r → J (r.withTimers w ts))
    (hactive : ∀ r, J r → J { r with active := r.active.insert w }) {ws : List Window}
    {t : Timestamp} {s : WindowState} :
    Preserves J (Runner.accept ws t w s : RunnerM κ σ Unit) :=
  .bind (hJ.evaluating htimers) fun _ =>
    .bind (Q := fun _ => J) (.modify fun r h => htimers r [(.eventTime, w.maxTimestamp)] h) fun _ =>
      .bind hJ.usingStore fun _ => .modify fun r h =>
        hJ { r with active := r.active.insert w } r.store r.calls _ _ (hactive r h)

theorem deliver (hJ : Unnoted J) (htimers : ∀ r ts, J r → J (r.withTimers w ts))
    (hactive : ∀ r, J r → J { r with active := r.active.insert w }) {ws : List Window}
    {t : Timestamp} : Preserves J (Runner.deliver ws t w : RunnerM κ σ Unit) :=
  .bind (Q := fun _ => J) (.get fun _ h => h) fun _ => .ite (fun _ => hJ.drop) fun _ =>
    .bind hJ.usingStore fun _ => .bind (Q := fun _ => J) (.get fun _ h => h) fun _ =>
      .ite (fun _ => hJ.drop) fun _ => hJ.accept htimers hactive

theorem collectEach (hJ : Unnoted J) (hretire : ∀ r w, J r → J (r.retire w)) : ∀ ws : List Window,
    Preserves J (Runner.collectEach ws : RunnerM κ σ (List Window))
  | [] => .pure fun _ h => h
  | w :: ws => by
    have hcollect : Preserves J (Runner.collect w : RunnerM κ σ Unit) :=
      .bind hJ.usingStore fun _ => .modify fun r h =>
        hJ (r.retire w) r.store r.calls _ _ (hretire r w h)
    exact .bind hJ.shouldFire fun _ => .ite (fun _ => hJ.collectEach hretire ws) fun _ =>
      .bind hcollect fun _ => .map (hJ.collectEach hretire ws)

theorem merge (hJ : Unnoted J) (htimers : ∀ r ts, J r → J (r.withTimers w ts))
    (hretire : ∀ r u, J r → J (r.retire u))
    (hactive : ∀ r, J r → J { r with active := r.active.insert w }) {ws : List Window} :
    Preserves J (Runner.merge ws w : RunnerM κ σ Unit) := by
  refine .bind (hJ.loadSources ws) fun ms => .bind (hJ.evaluating htimers) fun s =>
    .bind (Q := fun _ => J) (.get fun _ h => h) fun a =>
      .bind (Q := fun _ => J) (.get fun _ h => h) fun b =>
        .bind hJ.usingStore fun _ => .modify fun r h => ?_
  have hretired : J ((ws.filter (· ≠ w)).foldl retire r) :=
    List.foldlRecOn _ retire h fun r hr u _ => hretire r u hr
  generalize (ws.filter (· ≠ w)).foldl retire r = r₁ at hretired
  have hend : J { r₁ with
      timers := if b.closedIn (closeMerged a ms w s) then r₁.timers
        else r₁.timers.insert (.endOf w) } := by
    split_ifs
    · exact hretired
    · exact htimers r₁ [(.eventTime, w.maxTimestamp)] hretired
  dsimp only
  generalize (if b.closedIn (closeMerged a ms w s) then r₁.timers
    else r₁.timers.insert (.endOf w)) = timers at hend ⊢
  exact hJ { r₁ with timers := timers, active := r₁.active.insert w } r₁.store r₁.calls _ _
    (hactive _ hend)

end Unnoted

end PaneTriggers.Runner
