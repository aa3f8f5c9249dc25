import PaneTriggers.Proofs.BarredWindows

/-!
# Runners in lockstep

Two runners that have the same tree, settings and watermark, and the same state of a window, do the
same at that window: what is done with elements and firings of it goes by nothing else. So a
relation between runners lasts if it survives what is done there (`Runner.Lockstep`).
-/

namespace PaneTriggers

variable {κ σ : Type}

/-- From the same progress both evaluations end in the same way, and leave the same state and
timers. The calls that they record may differ. -/
def Eval.EndsAlike (x y : Eval κ Unit) : Prop :=
  ∀ p, match x p, y p with
    | .ok _ q, .ok _ q' => q.toDraft = q'.toDraft
    | .error e q, .error e' q' => e = e' ∧ q.toDraft = q'.toDraft
    | _, _ => False

theorem Eval.EndsAlike.refl (x : Eval κ Unit) : EndsAlike x x := by
  intro p
  cases x p with
  | ok _ q => exact rfl
  | error e q => exact ⟨rfl, rfl⟩

namespace Runner

/-- Runners that `R` relates agree on what decides about the window, and `R` survives what an
operation does at the window. -/
structure Lockstep [StateStore σ] (R : Runner κ σ → Runner κ σ → Prop) (w : Window) : Prop where
  root_eq : ∀ {r r'}, R r r' → r.root = r'.root
  watermark_eq : ∀ {r r'}, R r r' → r.watermark = r'.watermark
  supportsMerging_eq : ∀ {r r'}, R r r' → r.supportsMerging = r'.supportsMerging
  allowedLateness_eq : ∀ {r r'}, R r r' → r.allowedLateness = r'.allowedLateness
  windowState : InStep R (windowState w) (windowState w) Eq
  save : ∀ s, InStep R (usingStore (StateStore.save w s)) (usingStore (StateStore.save w s)) Eq
  noted : ∀ r r' (calls calls' : List (Call κ)) (telemetry telemetry' : Telemetry)
    (log log' : RotatingLog), R r r' →
      R { r with calls := calls, telemetry := telemetry, log := log }
        { r' with calls := calls', telemetry := telemetry', log := log' }
  withTimers : ∀ {r r'} ts, R r r' → R (r.withTimers w ts) (r'.withTimers w ts)
  activated : ∀ {r r'}, R r r' →
    R { r with active := r.active.insert w } { r' with active := r'.active.insert w }

namespace Lockstep

variable [StateStore σ] {R : Runner κ σ → Runner κ σ → Prop} {w : Window} {r r' : Runner κ σ}

theorem scope_eq (hR : Lockstep R w) (h : R r r') : r.scope w = r'.scope w := by
  unfold scope
  rw [hR.watermark_eq h, hR.supportsMerging_eq h]

theorem closedIn_eq (hR : Lockstep R w) (h : R r r') (s : WindowState) :
    r.closedIn s = r'.closedIn s := by
  unfold closedIn
  rw [hR.root_eq h]

theorem isClosed (hR : Lockstep R w) : InStep R (isClosed w) (isClosed w) Eq :=
  .bind_eq hR.windowState fun s => .bind .get fun _ _ h => .pure (hR.closedIn_eq h s)

/-- Evaluations of the tree that end alike do so for both runners. -/
theorem evaluating (hR : Lockstep R w) {act act' : Scope → Node κ → Eval κ Unit}
    (hact : ∀ {r r'}, R r r' → ∀ scope, Eval.EndsAlike (act scope r.root) (act' scope r.root))
    (s : WindowState) : InStep R (evaluating w s act) (evaluating w s act') Eq := by
  intro r r' h
  have hends := hact h (r'.scope w) { state := s }
  have timers : ∀ {ts ts'}, ts = ts' → R (r.withTimers w ts) (r'.withTimers w ts') := by
    rintro ts _ rfl
    exact hR.withTimers ts h
  unfold Runner.evaluating
  rw [← hR.root_eq h, hR.scope_eq h]
  rcases hx : act (r'.scope w) r.root { state := s } with ⟨_, p⟩ | ⟨e, p⟩ <;>
    rcases hy : act' (r'.scope w) r.root { state := s } with ⟨_, p'⟩ | ⟨e', p'⟩ <;>
    rw [hx, hy] at hends
  · exact ⟨congrArg Draft.state hends,
      hR.noted _ _ _ _ _ _ _ _ (timers (congrArg Draft.timers hends))⟩
  · exact hends.elim
  · exact hends.elim
  · exact ⟨congrArg RunnerError.trigger hends.1,
      hR.noted _ _ _ _ _ _ _ _ (timers (congrArg Draft.timers hends.2))⟩

variable [CustomTrigger κ]

theorem expired_eq (hR : Lockstep R w) (h : R r r') : r.expired w = r'.expired w := by
  unfold expired guarantee
  rw [hR.root_eq h, hR.watermark_eq h, hR.allowedLateness_eq h]

theorem examine (hR : Lockstep R w) : InStep R (examine w) (examine w) Eq := by
  refine .bind .get fun r r' h => .ite ?_ (.pure rfl) (.bind_eq hR.windowState fun s =>
    .bind .get fun r r' h => .ite ?_ (.pure rfl) (.pure rfl))
  · rw [hR.expired_eq h]
  · rw [hR.closedIn_eq h s]

/-- An element that the tree takes alike with two lists of windows is delivered alike. -/
theorem deliver (hR : Lockstep R w) {us us' : List Window} {t : Timestamp}
    (ht : ∀ {r r'}, R r r' → ∀ scope,
      Eval.EndsAlike (r.root.onElement scope t us) (r.root.onElement scope t us')) :
    InStep R (deliver us t w) (deliver us' t w) Eq := by
  rw [deliver_eq, deliver_eq]
  refine .bind_eq hR.examine fun found => ?_
  rcases found with reason | s
  · exact .modify fun r r' h => hR.noted r r' _ _ _ _ _ _ h
  · refine .bind_eq (hR.evaluating ht s) fun s' => .bind_eq
      (.modify fun _ _ h => hR.withTimers [(.eventTime, w.maxTimestamp)] h) fun _ =>
        .bind_eq (hR.save s') fun _ => .modify fun r r' h => ?_
    exact hR.noted { r with active := r.active.insert w } { r' with active := r'.active.insert w }
      _ _ _ _ _ _ (hR.activated h)

theorem shouldFire (hR : Lockstep R w) : InStep R (shouldFire w) (shouldFire w) Eq := by
  refine .bind_eq hR.windowState fun s => .bind .get fun r r' h => .ite ?_ (.pure rfl)
    (.bind (.set (hR.noted r r' _ _ _ _ _ _ h)) fun _ _ _ => ?_)
  · rw [hR.closedIn_eq h s]
  · rw [hR.root_eq h, hR.scope_eq h]
    cases r'.root.ready (r'.scope w) s with
    | ok b => exact .pure rfl
    | error e => exact .throw

theorem onFire (hR : Lockstep R w) : InStep R (onFire w) (onFire w) Eq := by
  refine .bind_eq hR.windowState fun s => .bind_eq (hR.evaluating (fun _ _ => .refl _) s) fun s' =>
    .bind .get fun r r' h => .bind_eq (hR.save s') fun _ =>
      .bind_eq (.modify fun r r' h => hR.noted r r' _ _ _ _ _ _ h) fun _ =>
        .ite ?_ (.modify fun r r' h => hR.noted r r' _ _ _ _ _ _ h) (.pure rfl)
  rw [hR.closedIn_eq h s']

theorem fireIfReady (hR : Lockstep R w) : InStep R (fireIfReady w) (fireIfReady w) Eq :=
  .bind_eq hR.shouldFire fun _ => .ite Iff.rfl
    (.bind_eq hR.onFire fun _ => .bind_eq hR.isClosed fun _ => .pure rfl) (.pure rfl)

end Lockstep

/-- Steps whose operations are in step show the same, as far as `f` shows of their answers. -/
theorem step_inStep [StateStore σ] [CustomTrigger κ] {R : Runner κ σ → Runner κ σ → Prop}
    {V : Answer → Answer → Prop} {op op' : Operation} {γ : Type}
    {f : Except RunnerError Answer → γ} (hact : InStep R (perform op) (perform op') V)
    (hV : ∀ a b, V a b → f (.ok a) = f (.ok b)) {r r' : Runner κ σ} (h : R r r') :
    f (r.step op).1 = f (r'.step op').1 ∧ R (r.step op).2 (r'.step op').2 := by
  have hstep := hact r r' h
  unfold step
  rcases hx : perform op r with ⟨a, r₁⟩ | ⟨e, r₁⟩ <;>
    rcases hx' : perform op' r' with ⟨a', r₁'⟩ | ⟨e', r₁'⟩ <;> rw [hx, hx'] at hstep
  · exact hstep.imp_left (hV a a')
  · exact hstep.elim
  · exact hstep.elim
  · obtain ⟨rfl, hr⟩ := hstep
    exact ⟨rfl, hr⟩

end Runner

end PaneTriggers
