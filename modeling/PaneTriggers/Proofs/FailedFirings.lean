import PaneTriggers.Proofs.FailedSteps

/-!
# Firings that fail

A firing of a window that is ready loads its state, saves it, and then loads it once more to answer
whether the window is closed now. A failure before the save leaves the window as it was
(`Runner.Stopped`). A failure of the last load does not: the window has been fired and its pane
counted (`Runner.Unanswered`). That is ruled out over a steady store, which goes on to load a window
once it has.
-/

namespace PaneTriggers

variable {κ σ ν : Type}

/-- A load of the window returns. -/
def Loadable [StateStore σ] (w : Window) (m : σ) : Prop := ∃ s m', StateStore.load w m = .ok s m'

/-- After a load that returned, and after a save in between, the window can still be loaded. -/
structure Steady (σ : Type) [StateStore σ] : Prop where
  load : ∀ w, Ensures (fun _ : σ => True) (StateStore.load w) (fun _ => Loadable w) fun _ _ => True
  save : ∀ w s, Ensures (Loadable (σ := σ) w) (StateStore.save w s) (fun _ => Loadable w)
    fun _ _ => True

namespace FaultyStore

variable {m : FaultyStore} {w : Window}

theorem loadable_iff : Loadable w m ↔ w ∉ m.faults.load := by
  refine ⟨?_, fun hw => ⟨m.memory.state w, m, ?_⟩⟩
  · rintro ⟨s, m', h⟩ hw
    have hfail : StateStore.load w m = .error (.unavailable w "load fault") m := by
      refine (bind_of_ok (s := m) rfl).trans ?_
      simp only [hw, if_true]
      rfl
    rw [hfail] at h
    cases h
  · refine (bind_of_ok (s := m) rfl).trans ?_
    simp only [hw, if_false]
    rfl

/-- The faults of the store do not change by themselves. -/
theorem steady : Steady FaultyStore where
  load w := .bind (Q := fun a m => a = m) (.get fun _ _ => rfl) fun a => by
    by_cases h : w ∈ a.faults.load
    · simp only [h, if_true]
      exact .throw fun _ _ => trivial
    · simp only [h, if_false]
      exact .pure fun m ha => loadable_iff.2 (ha ▸ h)
  save w s := .bind (Q := fun a _ => Loadable w a) (.get fun _ h => h) fun a => by
    by_cases h : w ∈ a.faults.save
    · simp only [h, if_true]
      exact .throw fun _ _ => trivial
    · simp only [h, if_false]
      refine .set fun _ ha => ?_
      have hw : w ∉ a.faults.load := loadable_iff.1 ha
      exact loadable_iff.2 hw

end FaultyStore

namespace Runner

variable {w : Window} {n : Telemetry}

theorem evaluating_keeps {P : σ → Telemetry → Prop} {s : WindowState}
    {act : Scope → Node κ → Eval κ Unit} :
    Ensures (fun r : Runner κ σ => P r.store r.telemetry) (evaluating w s act)
      (fun _ r => P r.store r.telemetry) fun _ _ => True := by
  intro r hr
  unfold evaluating
  cases act (r.scope w) r.root { state := s } with
  | ok _ p => exact hr
  | error e p => trivial

variable [StateStore σ]

/-! ## Steady stores -/

section Steady

theorem windowState_steady (hs : Steady σ) : Ensures (fun _ : Runner κ σ => True) (windowState w)
    (fun _ r => Loadable w r.store) fun _ _ => True := by
  intro r _
  have h := hs.load w r.store trivial
  unfold windowState usingStore
  cases hc : StateStore.load w r.store with
  | ok s m =>
    rw [hc] at h
    exact h
  | error e m => trivial

theorem save_steady (hs : Steady σ) {s : WindowState} :
    Ensures (fun r : Runner κ σ => Loadable w r.store) (usingStore (StateStore.save w s))
      (fun _ r => Loadable w r.store) fun _ _ => True := by
  intro r hr
  have h := hs.save w s r.store hr
  unfold usingStore
  cases hc : StateStore.save w s r.store with
  | ok _ m =>
    rw [hc] at h
    exact h
  | error e m => trivial

theorem isClosed_steady : Ensures (fun r : Runner κ σ => Loadable w r.store) (isClosed w)
    (fun _ _ => True) fun _ _ => False := by
  rintro r ⟨s, m, h⟩
  have hstate : windowState w r = .ok s { r with store := m } := by
    unfold windowState usingStore
    rw [h]
  unfold isClosed
  rw [bind_of_ok hstate]
  trivial

variable [CustomTrigger κ]

theorem onFire_steady (hs : Steady σ) : Ensures (fun _ : Runner κ σ => True) (onFire w)
    (fun _ r => Loadable w r.store) fun _ _ => True := by
  refine .bind (windowState_steady hs) fun s =>
    .bind (evaluating_keeps (P := fun m _ => Loadable w m)) fun s' =>
      .bind (Q := fun _ r => Loadable w r.store) (.get fun _ h => h) fun a =>
        .bind (save_steady hs) fun _ => ?_
  exact .bind (Q := fun _ r => Loadable w r.store) (.modify fun _ h => h) fun _ =>
    .ite (fun _ => .modify fun _ h => h) fun _ => .pure fun _ h => h

end Steady

/-! ## What a failure leaves -/

variable {view : σ → ν} {r r' r₀ : Runner κ σ} {e : RunnerError}

theorem isClosed_passes (hs : Reverting view) :
    Passes view w r₀ (isClosed w : RunnerM κ σ Bool) :=
  .bind (windowState_passes hs) fun _ => .bind get_passes fun _ => .pure fun _ h => h

variable [CustomTrigger κ]

/-- A firing that returns counts one pane. -/
theorem onFire_counts : Ensures (fun r : Runner κ σ => r.telemetry = n) (onFire w)
    (fun _ r => r.telemetry.firings = n.firings + 1) fun _ _ => True := by
  have still : ∀ {α : Type} {call : EStateM StoreError σ α},
      Ensures (fun r : Runner κ σ => r.telemetry = n) (usingStore call)
        (fun _ r => r.telemetry = n) fun _ _ => True :=
    (usingStore_keeps fun _ _ h => h).onFail fun _ _ _ => trivial
  refine .bind still fun s =>
    .bind (evaluating_keeps (P := fun _ t => t = n)) fun s' =>
      .bind (Q := fun _ r => r.telemetry = n) (.get fun _ h => h) fun a =>
        .bind still fun _ => ?_
  refine .bind (Q := fun _ r => r.telemetry.firings = n.firings + 1) (.modify fun r h => ?_)
    fun _ => .ite (fun _ => .modify fun _ h => h) fun _ => .pure fun _ h => h
  exact congrArg (Telemetry.firings · + 1) h

/-- The window was ready and has been fired, and the pane counted. What failed was to ask whether
the window is closed now. -/
structure Unanswered (view : σ → ν) (w : Window) (r : Runner κ σ) (e : RunnerError)
    (r' : Runner κ σ) : Prop where
  calls : ∃ r₁ r₂, shouldFire w r = .ok true r₁ ∧ Stopped view w r r₁ ∧ onFire w r₁ = .ok () r₂ ∧
    isClosed w r₂ = .error e r' ∧ Stopped view w r₂ r'
  firings : r'.telemetry.firings = r.telemetry.firings + 1

omit [StateStore σ] [CustomTrigger κ] in
theorem Stopped.telemetry_eq (h : Stopped view w r r') : r'.telemetry = r.telemetry := by
  obtain ⟨m, ts, calls, -, rfl⟩ := h
  rfl

/-- A firing that failed stopped before anything was saved, or is unanswered. -/
theorem fireIfReady_fails (hs : Reverting view) (h : fireIfReady w r = .error e r') :
    Stopped view w r r' ∨ Unanswered view w r e r' := by
  unfold fireIfReady at h
  have hask : Passes view w r (shouldFire w : RunnerM κ σ Bool) := shouldFire_passes hs
  cases hb : shouldFire w r with
  | error e₁ r₁ =>
    rw [bind_of_error hb] at h
    cases h
    exact .inl (hask.of_error (.refl ..) hb)
  | ok b r₁ =>
    have hr₁ := hask.of_ok (.refl ..) hb
    rw [bind_of_ok hb] at h
    cases b with
    | false => cases h
    | true =>
      rw [if_pos rfl] at h
      cases hf : onFire w r₁ with
      | error e₂ r₂ =>
        rw [bind_of_error hf] at h
        cases h
        exact .inl ((onFire_stops hs).of_error hr₁ hf)
      | ok _ r₂ =>
        rw [bind_of_ok hf] at h
        cases hc : isClosed w r₂ with
        | ok c r₃ =>
          rw [bind_of_ok hc] at h
          cases h
        | error e₃ r₃ =>
          rw [bind_of_error hc] at h
          cases h
          have hr' := (isClosed_passes hs).of_error (.refl view w r₂) hc
          refine .inr ⟨⟨r₁, r₂, hb, hr₁, hf, hc, hr'⟩, ?_⟩
          rw [hr'.telemetry_eq, onFire_counts.of_ok hr₁.telemetry_eq hf]

theorem Unanswered.not_steady (h : Unanswered view w r e r') : ¬Steady σ := by
  intro hs
  obtain ⟨r₁, r₂, -, -, hf, hc, -⟩ := h.calls
  exact isClosed_steady.of_error ((onFire_steady hs).of_ok trivial hf) hc

/-- A failed firing leaves the window as it was, unless it has fired the window and then failed to
answer. Over a steady store it leaves the window as it was. -/
theorem failed_firing_stops (hs : Reverting view) (h : fireIfReady w r = .error e r') :
    (Stopped view w r r' ↔ ¬Unanswered view w r e r') ∧ (Steady σ → Stopped view w r r') := by
  have hcases := fireIfReady_fails hs h
  refine ⟨⟨fun hstop hlate => ?_, hcases.resolve_right⟩, fun hsteady =>
    hcases.resolve_right fun hlate => hlate.not_steady hsteady⟩
  have hfirings := hlate.firings
  rw [hstop.telemetry_eq] at hfirings
  omega

/-- The window is ready, and its state cannot be saved. -/
theorem failed_firing_stops_at_save :
    let w : Window := ⟨.clamp 0, .clamp 10⟩
    let k : ScriptedTrigger := { threshold := .clamp 2 }
    let store : FaultyStore :=
      { memory := MemoryStore.empty.put w (WindowState.empty.setCounter .early (.clamp 1))
        faults := { save := [w] } }
    let r := (start (.earlyAndLate ⟨.custom k, none⟩) {} store).run [.advance (.clamp 10)]
    ∃ e r', fireIfReady w r = .error e r' ∧ Stopped id w r r' := by
  intro w k store r
  have hfails : (match fireIfReady w r with | .ok _ _ => false | .error _ _ => true) = true := by
    decide +kernel
  cases h : fireIfReady w r with
  | ok o r' =>
    rw [h] at hfails
    cases hfails
  | error e r' =>
    exact ⟨e, r', rfl, (failed_firing_stops FaultyStore.reverting h).2 FaultyStore.steady⟩

end Runner

/-- A store in memory whose loads fail as a script says. -/
structure FlakyStore where
  memory : MemoryStore := .empty
  /-- Which of the loads to come fail. -/
  script : List Bool := []

namespace FlakyStore

instance : StateStore FlakyStore where
  load w := do
    let store ← get
    set { store with script := store.script.tail }
    if store.script.head? = some true then throw (.unavailable w "load fault")
    return store.memory.state w
  save w s := modify fun store => { store with memory := store.memory.put w s }
  discard w := modify fun store => { store with memory := store.memory.erase w }

theorem reverting : Reverting FlakyStore.memory where
  load w x := .bind (Q := fun a _ => a.memory = x) (.get fun _ h => h) fun a =>
    .bind (Q := fun _ m => m.memory = x) (.set fun _ h => h) fun _ => by
      by_cases h : a.script.head? = some true
      · simp only [h, if_true]
        exact .throw fun _ h => h
      · simp only [h, if_false]
        exact .pure fun _ h => h
  save _ _ _ := .modify fun _ _ => trivial
  discard _ _ := .modify fun _ _ => trivial

end FlakyStore

/-- The last of the loads of a firing fails. The firing fails, but the window has been fired and
closed and the pane counted. A second try finds the window not ready. -/
theorem Runner.failed_firing_fires :
    let w : Window := ⟨.clamp 0, .clamp 10⟩
    let store : FlakyStore := { script := [false, false, false, true] }
    let r := (start (.once .endOfWindow : Trigger ScriptedTrigger) {} store).run
      [.element [w] (.clamp 3), .advance (.clamp 10)]
    let r' := (r.step (.fireIfReady w)).2
    Reverting FlakyStore.memory ∧
      (r.step (.fireIfReady w)).1 = .error (.store (.unavailable w "load fault")) ∧
      (r.store.memory.state w = .empty ∧ r.telemetry.firings = 0 ∧ r.telemetry.closed = 0) ∧
      (r'.store.memory.state w ≠ .empty ∧ r'.telemetry.firings = 1 ∧ r'.telemetry.closed = 1) ∧
      (r'.step (.fireIfReady w)).1 = .ok (.outcome .notReady) := by
  intro w store r r'
  exact ⟨FlakyStore.reverting, by rfl, by decide +kernel, by decide +kernel, by rfl⟩

end PaneTriggers
