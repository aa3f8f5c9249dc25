import PaneTriggers.Proofs.RunnerSteps

/-!
# Invariants of runners

A property of what shows of a runner is an invariant if each thing that a step can do keeps it.
Then every operation keeps it (`Invariant.perform_keeps`) and so does every run (`run_keeps`). The
steps of the tree may fail only if `F`; with `F` false the operations do not fail, and nothing has
to be said about what a failure leaves.
-/

namespace PaneTriggers

/-- A merge has sources. -/
def Operation.HasSources : Operation → Prop
  | .merge ws _ => ws ≠ []
  | _ => True

/-- The operation can fire windows. -/
def Operation.Fires : Operation → Prop
  | .tick _ | .fire _ | .fireIfReady _ => True
  | _ => False

namespace Runner

variable {κ σ : Type}

section Keeps

variable [StateStore σ] [LawfulStore σ]

/-- The step keeps `I` and fails only if `F`. -/
abbrev Keeps {α : Type} (F : Prop) (I : Seen κ → Prop)
    (act : RunnerM κ σ α) : Prop :=
  Ensures (fun r => I r.seen) act (fun _ r => I r.seen) fun _ r => F ∧ I r.seen

/-- What only reads keeps everything. -/
theorem Keeps.reading {α : Type} {act : RunnerM κ σ α} {A : Seen κ → α → Prop}
    {G : Seen κ → Prop} {F : Prop} {I : Seen κ → Prop} (hG : ∀ v, I v → G v → F)
    (h : ∀ v, Ensures (fun r => r.seen = v) act (fun a r => A v a ∧ r.seen = v)
      fun _ r => G v ∧ r.seen = v) :
    Keeps F I act := by
  refine .of_each (f := seen) fun v hv => (h v).mono (fun _ h => h) ?_ ?_
  · intro a r hx
    obtain ⟨-, hr⟩ := hx
    rw [hr]
    exact hv
  · intro _ r hx
    obtain ⟨hg, hr⟩ := hx
    rw [hr]
    exact ⟨hG v hv hg, hv⟩

end Keeps

variable [CustomTrigger κ]

/-- `I` is kept by all that a step can do, the watermark apart, and the tree fails only if `F`. -/
structure Invariant (F : Prop) (I : Seen κ → Prop) : Prop where
  drop : ∀ v w reason, I v → I (v.dropped w reason)
  element : ∀ v ws t w, I v → v.dropReason? w = none →
    Ensures (fun p => p = { state := v.store w }) (v.root.onElement (v.scope w) t ws)
      (fun _ p => I (v.accepted t w p)) fun _ _ => F
  ready : ∀ v w, I v → ∀ e, v.readiness w = .error e → F
  merge : ∀ v ws d, I v → ws ≠ [] →
    Ensures (fun p => p = { state := .empty }) (v.root.onMerge (v.scope d) (v.sources ws))
      (fun _ p => I (v.merged ws d p)) fun _ _ => F
  collect : ∀ v w, I v → v.readiness w = .ok false → I (v.collected w)
  interrupted : ∀ v w v', F → I v → v.Interrupted w v' → I v'
  halfMerged : ∀ v ws d ts g, F → I v → HalfMerged ws d v.store g →
    I { v.withTimers d ts with store := g }

/-- `I` is kept by firings, forced ones included, and these fail only if `F`. -/
def FiringKeeps (F : Prop) (I : Seen κ → Prop) : Prop :=
  ∀ v w, I v → Ensures (fun p => p = { state := v.store w }) (v.root.onFire (v.scope w))
    (fun _ p => I (v.fired w p)) fun _ _ => F

namespace Invariant

variable [StateStore σ] [LawfulStore σ] {F : Prop} {I : Seen κ → Prop}

theorem deliver_keeps (hI : Invariant F I) (hF : LawfulStore.Faulty σ → F) {ws : List Window}
    {t : Timestamp} {w : Window} : Keeps F I (deliver ws t w : RunnerM κ σ Unit) := by
  refine .of_each (f := seen) fun v hv => deliver_ensures.mono (fun _ h => h) ?_ ?_
  · intro _ r hx
    rcases hx with ⟨reason, -, hr⟩ | ⟨hn, p, hp, hr⟩
    · rw [hr]
      exact hI.drop v w reason hv
    · rw [hr]
      exact (hI.element v ws t w hv hn).of_ok rfl hp
  · intro _ r hx
    rcases hx with ⟨hf | ⟨hn, e, p, hp⟩, hr⟩
    · exact ⟨hF hf, hI.interrupted v w _ (hF hf) hv hr⟩
    · have hf : F := (hI.element v ws t w hv hn).of_error rfl hp
      exact ⟨hf, hI.interrupted v w _ hf hv hr⟩

theorem processElement_keeps (hI : Invariant F I) (hF : LawfulStore.Faulty σ → F) {ws : List Window}
    {t : Timestamp} : Keeps F I (processElement ws t : RunnerM κ σ Unit) :=
  .forM fun _ _ => hI.deliver_keeps hF

theorem shouldFire_keeps (hI : Invariant F I) (hF : LawfulStore.Faulty σ → F) {w : Window} :
    Keeps F I (shouldFire w : RunnerM κ σ Bool) :=
  .reading (fun v hv hf => hf.elim hF fun ⟨e, he⟩ => hI.ready v w hv e he)
    fun _ => shouldFire_ensures

theorem onFire_keeps (hI : Invariant F I) (hfire : FiringKeeps F I)
    (hF : LawfulStore.Faulty σ → F) {w : Window} :
    Keeps F I (onFire w : RunnerM κ σ Unit) := by
  refine .of_each (f := seen) fun v hv => onFire_ensures.mono (fun _ h => h) ?_ ?_
  · intro _ r hx
    obtain ⟨p, hp, hr⟩ := hx
    rw [hr]
    exact (hfire v w hv).of_ok rfl hp
  · intro _ r hx
    obtain ⟨hf, hr⟩ := hx
    have hf : F := hf.elim hF fun ⟨e, p, hp⟩ => (hfire v w hv).of_error rfl hp
    exact ⟨hf, hI.interrupted v w _ hf hv hr⟩

theorem fireIfReady_keeps (hI : Invariant F I) (hfire : FiringKeeps F I)
    (hF : LawfulStore.Faulty σ → F) {w : Window} :
    Keeps F I (fireIfReady w : RunnerM κ σ FiringOutcome) := by
  refine .of_each (f := seen) fun v hv => fireIfReady_ensures.mono (fun _ h => h) ?_ ?_
  · intro o r hx
    rcases hx with ⟨-, -, hr⟩ | ⟨-, p, hp, -, hr⟩
    · rw [hr]
      exact hv
    · rw [hr]
      exact (hfire v w hv).of_ok rfl hp
  · intro _ r hx
    obtain ⟨hf, hr⟩ := hx
    have hf : F := by
      rcases hf with hf | ⟨e, he⟩ | ⟨-, e, p, hp⟩
      · exact hF hf
      · exact hI.ready v w hv e he
      · exact (hfire v w hv).of_error rfl hp
    rcases hr with hr | ⟨p, hp, hr⟩
    · exact ⟨hf, hI.interrupted v w _ hf hv hr⟩
    · rw [hr]
      exact ⟨hf, (hfire v w hv).of_ok rfl hp⟩

theorem fireEach_keeps (hI : Invariant F I) (hfire : FiringKeeps F I)
    (hF : LawfulStore.Faulty σ → F) : ∀ {ws : List Window},
    Ensures (fun r : Runner κ σ => I r.seen) (fireEach ws) (fun _ r => I r.seen) fun _ _ => False
  | [] => .pure fun _ h => h
  | _ :: _ => .bind (Q := fun _ r => I r.seen)
      (attempt_ensures ((hI.fireIfReady_keeps hfire hF).onFail fun _ _ h => h.2)) fun _ =>
      .bind (hI.fireEach_keeps hfire hF) fun _ => .pure fun _ h => h

theorem merge_keeps (hI : Invariant F I) (hF : LawfulStore.Faulty σ → F) {ws : List Window}
    (hws : ws ≠ []) {d : Window} : Keeps F I (Runner.merge ws d : RunnerM κ σ Unit) := by
  refine .of_each (f := seen) fun v hv => merge_ensures.mono (fun _ h => h) ?_ ?_
  · intro _ r hx
    obtain ⟨p, hp, hr⟩ := hx
    rw [hr]
    exact (hI.merge v ws d hv hws).of_ok rfl hp
  · intro _ r hx
    obtain ⟨hf, ts, g, hg, hr⟩ := hx
    have hf : F := hf.elim hF fun ⟨e, p, hp⟩ => (hI.merge v ws d hv hws).of_error rfl hp
    rw [hr]
    exact ⟨hf, hI.halfMerged v ws d ts g hf hv hg⟩

theorem collectEach_keeps (hI : Invariant F I) (hF : LawfulStore.Faulty σ → F) :
    ∀ {ws : List Window}, Keeps F I (collectEach ws : RunnerM κ σ (List Window))
  | [] => .pure fun _ h => h
  | w :: ws => by
    refine .of_each (f := seen) fun v hv => ?_
    refine .bind (Q := fun b r => v.readiness w = .ok b ∧ r.seen = v)
      (shouldFire_ensures.onFail ?_) fun b => .of_fact fun hb => ?_
    · intro _ r hx
      obtain ⟨hf, hr⟩ := hx
      rw [hr]
      exact ⟨hf.elim hF fun ⟨e, he⟩ => hI.ready v w hv e he, hv⟩
    · refine .ite (fun ht => ?_) fun hn => ?_
      · exact (hI.collectEach_keeps hF).mono (fun r hr => by rw [hr]; exact hv) (fun _ _ h => h)
          fun _ _ h => h
      · have hb : v.readiness w = .ok false := by simpa [hn] using hb
        refine .bind (collect_ensures.onFail ?_) fun _ => ?_
        · intro _ r hx
          obtain ⟨hf, hr⟩ := hx
          rw [hr]
          exact ⟨hF hf, hv⟩
        · refine .bind ((hI.collectEach_keeps hF).mono (fun r hr => ?_) (fun _ _ h => h)
            fun _ _ h => h) fun _ => .pure fun _ h => h
          rw [hr]
          exact hI.collect v w hv hb

theorem garbageCollect_keeps (hI : Invariant F I) (hF : LawfulStore.Faulty σ → F) :
    Keeps F I (garbageCollect : RunnerM κ σ (List Window)) :=
  .bind (Q := fun _ r => I r.seen) (.get fun _ h => h) fun _ => hI.collectEach_keeps hF

/-- Every operation keeps an invariant that survives its firings and the watermark it sets. -/
theorem perform_keeps (hI : Invariant F I) (hF : LawfulStore.Faulty σ → F) {op : Operation}
    (hop : op.HasSources)
    (hfire : op.Fires → FiringKeeps F I)
    (ht : ∀ t, op = .advance t ∨ op = .tick t → ∀ v, I v → I (v.advance t).2) :
    Keeps F I (perform op : RunnerM κ σ Answer) := by
  have advancing : ∀ t, op = .advance t ∨ op = .tick t →
      Keeps F I (modifyGet (advance t) : RunnerM κ σ (List Window)) := fun t h =>
    .of_each (f := seen) fun v hv => advance_ensures.onReturn fun _ r hr => by
      rw [hr.2]
      exact ht t h v hv
  cases op with
  | element ws t => exact .map (hI.processElement_keeps hF)
  | merge ws d => exact .map (hI.merge_keeps hF hop)
  | advance t => exact .map (advancing t (.inl rfl))
  | tick t =>
    exact .map (.bind (advancing t (.inr rfl)) fun _ =>
      (hI.fireEach_keeps (hfire trivial) hF).onFail fun _ _ h => h.elim)
  | shouldFire w => exact .map (hI.shouldFire_keeps hF)
  | fire w => exact .map (hI.onFire_keeps (hfire trivial) hF)
  | fireIfReady w => exact .map (hI.fireIfReady_keeps (hfire trivial) hF)
  | isClosed w => exact .map (Keeps.reading (fun _ _ => hF) fun _ => isClosed_ensures)
  | windowState w => exact .map (Keeps.reading (fun _ _ => hF) fun _ => windowState_ensures)
  | collect => exact .map (hI.garbageCollect_keeps hF)

end Invariant

variable [StateStore σ] {J : Runner κ σ → Prop}

/-- What every operation of a run keeps holds after the run. -/
theorem run_keeps : ∀ {ops : List Operation}, (∀ op ∈ ops,
      Ensures J (perform op : RunnerM κ σ Answer) (fun _ => J) fun _ => J) →
    ∀ {r : Runner κ σ}, J r → J (r.run ops)
  | [], _, _, hr => hr
  | _ :: _, h, _, hr => run_keeps (fun op hop => h op (List.mem_cons_of_mem _ hop))
      (step_ensures (h _ List.mem_cons_self) hr)

end Runner

end PaneTriggers
