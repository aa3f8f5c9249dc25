import Mathlib.Logic.Relation
import PaneTriggers.Proofs.StepFrames

/-!
# What operations are made of

Over any store and any custom triggers, and whether or not it fails, an operation takes a runner
through a few kinds of changes (`Change`): timers of a window are set, a window is retired, the
watermark moves, or a window becomes active. The last happens only to a window whose end is pending
as a timer, or to the destination of a merge that the tree left closed. What every change keeps is
kept by every run (`run_changes`).
-/

namespace PaneTriggers.Runner

variable {κ σ α : Type} [CustomTrigger κ]

/-- From some sources the tree makes a closed destination. -/
def MergesClosed (r : Runner κ σ) (d : Window) : Prop :=
  ∃ ms p, r.root.onMerge (r.scope d) ms { state := .empty } = .ok () p ∧
    r.closedIn (r.closeMerged ms d p.state) = true

/-- One thing that can happen to a runner. -/
inductive Change : Runner κ σ → Runner κ σ → Prop where
  | noted (r : Runner κ σ) (store : σ) (calls : List (Call κ)) (telemetry : Telemetry)
      (log : RotatingLog) :
      Change r { r with store := store, calls := calls, telemetry := telemetry, log := log }
  | timers (r : Runner κ σ) (w : Window) (ts : List (TimeDomain × Timestamp)) :
      Change r (r.withTimers w ts)
  | retired (r : Runner κ σ) (w : Window) : Change r (r.retire w)
  | advanced (r : Runner κ σ) (t : Timestamp) : Change r (r.advance t).2
  | activated (r : Runner κ σ) (w : Window) : Timer.endOf w ∈ r.timers ∨ r.MergesClosed w →
      Change r { r with active := r.active.insert w }

/-- What can happen to a runner, one change after the other. -/
abbrev Changes : Runner κ σ → Runner κ σ → Prop := Relation.ReflTransGen Change

/-- The step goes on from `r₀` by changes, also when it fails. -/
abbrev Traced (r₀ : Runner κ σ) (act : RunnerM κ σ α) : Prop :=
  Ensures (Changes r₀) act (fun _ => Changes r₀) fun _ => Changes r₀

variable {r₀ : Runner κ σ} {w : Window}

theorem Change.root_eq {r r' : Runner κ σ} (h : Change r r') : r'.root = r.root := by
  cases h with
  | noted => rfl
  | timers => rfl
  | retired => rfl
  | advanced t => exact r.advance_root t
  | activated => rfl

theorem Change.settings_eq {r r' : Runner κ σ} (h : Change r r') :
    r'.supportsMerging = r.supportsMerging ∧ r'.allowedLateness = r.allowedLateness := by
  cases h with
  | noted => exact ⟨rfl, rfl⟩
  | timers => exact ⟨rfl, rfl⟩
  | retired => exact ⟨rfl, rfl⟩
  | advanced t => obtain ⟨-, h⟩ | ⟨-, h⟩ := r.advance_cases t <;> rw [h] <;> exact ⟨rfl, rfl⟩
  | activated => exact ⟨rfl, rfl⟩

theorem Changes.next {r r' : Runner κ σ} (h : Changes r₀ r) (hc : Change r r') : Changes r₀ r' :=
  h.tail hc

theorem Changes.noted {r : Runner κ σ} (h : Changes r₀ r) (store : σ) (calls : List (Call κ))
    (telemetry : Telemetry) (log : RotatingLog) :
    Changes r₀ { r with store := store, calls := calls, telemetry := telemetry, log := log } :=
  h.next (.noted r store calls telemetry log)

theorem changes_foldl_retire : ∀ (ws : List Window) (r : Runner κ σ), Changes r (ws.foldl retire r)
  | [], _ => .refl
  | w :: ws, r => .head (.retired r w) (changes_foldl_retire ws (r.retire w))

theorem mergesClosed_foldl_retire {d : Window} : ∀ (ws : List Window) {r : Runner κ σ},
    r.MergesClosed d → (ws.foldl retire r).MergesClosed d
  | [], _, h => h
  | w :: ws, r, h => mergesClosed_foldl_retire ws (r := r.retire w) h

theorem changes_unnoted : Unnoted (Changes r₀) :=
  fun _ store calls telemetry log h => h.noted store calls telemetry log

/-- An evaluation that returns has worked on the root in the scope of the runner that it leaves. -/
theorem evaluating_traced {s : WindowState} {act : Scope → Node κ → Eval κ Unit} :
    Ensures (Changes r₀) (evaluating w s act)
      (fun s' r => Changes r₀ r ∧
        ∃ p, act (r.scope w) r.root { state := s } = .ok () p ∧ s' = p.state)
      fun _ => Changes r₀ := by
  intro r hr
  have hset : ∀ (ts : List (TimeDomain × Timestamp)) (cs : List (Call κ)),
      Changes r₀ { r.withTimers w ts with calls := cs } := fun ts cs =>
    (hr.next (.timers r w ts)).noted r.store cs r.telemetry r.log
  unfold evaluating
  cases h : act (r.scope w) r.root { state := s } with
  | ok _ p => exact ⟨hset _ _, p, h, rfl⟩
  | error e p => exact hset _ _

section Steps

variable [StateStore σ]

theorem accept_traced {ws : List Window} {t : Timestamp} {s : WindowState} :
    Traced r₀ (accept ws t w s : RunnerM κ σ Unit) := by
  refine .bind (Q := fun _ => Changes r₀) (evaluating_traced.onReturn fun _ _ h => h.1) fun s => ?_
  -- Once the end is set as a timer, it stays while the state is saved.
  refine .bind (Q := fun _ r => Changes r₀ r ∧ Timer.endOf w ∈ r.timers) (.modify fun r h => ?_)
    fun _ => ?_
  · exact ⟨h.next (.timers r w [(.eventTime, w.maxTimestamp)]),
      TimerQueue.mem_insert.2 (.inl rfl)⟩
  · have hkept : Unnoted fun r => Changes r₀ r ∧ Timer.endOf w ∈ r.timers :=
      fun _ _ _ _ _ h => ⟨changes_unnoted _ _ _ _ _ h.1, h.2⟩
    exact .bind (hkept.usingStore.onFail fun _ _ h => h.1) fun _ => .modify fun r h =>
      (h.1.next (.activated r w (.inl h.2))).noted r.store r.calls _ _

theorem deliver_traced {ws : List Window} {t : Timestamp} :
    Traced r₀ (deliver ws t w : RunnerM κ σ Unit) := by
  refine .bind (Q := fun _ => Changes r₀) (.get fun _ h => h) fun a =>
    .ite (fun _ => changes_unnoted.drop) fun _ => .bind changes_unnoted.usingStore fun s => ?_
  exact .bind (Q := fun _ => Changes r₀) (.get fun _ h => h) fun b =>
    .ite (fun _ => changes_unnoted.drop) fun _ => accept_traced

theorem onFire_traced : Traced r₀ (onFire w : RunnerM κ σ Unit) :=
  changes_unnoted.onFire fun r ts h => h.next (.timers r w ts)

theorem fireIfReady_traced : Traced r₀ (fireIfReady w : RunnerM κ σ FiringOutcome) :=
  changes_unnoted.fireIfReady fun r ts h => h.next (.timers r w ts)

theorem fireEach_traced : ∀ (ws : List Window), Traced r₀
    (fireEach ws : RunnerM κ σ (List (Window × Except RunnerError FiringOutcome)))
  | [] => .pure fun _ h => h
  | _ :: ws => .bind (Q := fun _ => Changes r₀) (attempt_ensures fireIfReady_traced) fun _ =>
      .map (fireEach_traced ws)

omit [StateStore σ] in
theorem advance_traced {t : Timestamp} :
    Traced r₀ (modifyGet (advance t) : RunnerM κ σ (List Window)) :=
  fun r hr => hr.next (.advanced r t)

theorem merge_traced {ws : List Window} {d : Window} :
    Traced r₀ (Runner.merge ws d : RunnerM κ σ Unit) := by
  refine .bind (changes_unnoted.loadSources ws) fun ms => .bind evaluating_traced fun s => ?_
  refine .bind (Q := fun a r => a = r ∧ Changes r₀ r ∧
    ∃ p, r.root.onMerge (r.scope d) ms { state := .empty } = .ok () p ∧ s = p.state)
    (.get fun r h => ⟨rfl, h⟩) fun a => ?_
  -- If the destination is closed, then by a merge that the tree can make.
  refine .bind (Q := fun b r => Changes r₀ r ∧
    (b.closedIn (closeMerged a ms d s) = true → r.MergesClosed d)) (.get fun r h => ?_) fun b => ?_
  · obtain ⟨rfl, hr, p, hp, rfl⟩ := h
    exact ⟨hr, fun hc => ⟨ms, p, hp, hc⟩⟩
  generalize closeMerged a ms d s = merged
  have hkept : Unnoted fun r => Changes r₀ r ∧ (b.closedIn merged = true → r.MergesClosed d) :=
    fun _ _ _ _ _ h => ⟨changes_unnoted _ _ _ _ _ h.1, h.2⟩
  refine .bind (hkept.usingStore.onFail fun _ _ h => h.1) fun _ => .modify fun r h => ?_
  have hretired := h.1.trans (changes_foldl_retire (ws.filter (· ≠ d)) r)
  have hclosed := fun hc => mergesClosed_foldl_retire (ws.filter (· ≠ d)) (h.2 hc)
  generalize (ws.filter (· ≠ d)).foldl retire r = r₁ at hretired hclosed
  rcases hc : b.closedIn merged
  · have hset : Changes r₀ _ := .tail hretired (.timers r₁ d [(.eventTime, d.maxTimestamp)])
    have hend : Timer.endOf d ∈ r₁.timers.insert (.endOf d) := TimerQueue.mem_insert.2 (.inl rfl)
    exact (hset.next (.activated _ d (.inl hend))).noted r₁.store r₁.calls _ _
  · have hactive : Changes r₀ _ := .tail hretired (.activated r₁ d (.inr (hclosed hc)))
    exact hactive.noted r₁.store r₁.calls _ _

theorem perform_traced (op : Operation) : Traced r₀ (perform op : RunnerM κ σ Answer) := by
  cases op with
  | element ws t => exact .map (.forM fun _ _ => deliver_traced)
  | merge ws d => exact .map merge_traced
  | advance t => exact .map advance_traced
  | tick t => exact .map (.bind advance_traced fun ws => fireEach_traced ws)
  | shouldFire w => exact .map changes_unnoted.shouldFire
  | fire w => exact .map onFire_traced
  | fireIfReady w => exact .map fireIfReady_traced
  | isClosed w => exact .map changes_unnoted.isClosed
  | windowState w => exact .map changes_unnoted.usingStore
  | collect =>
    exact .map (.bind (Q := fun _ => Changes r₀) (.get fun _ h => h)
      fun _ => changes_unnoted.collectEach (fun r w h => h.next (.retired r w)) _)

theorem step_changes (r : Runner κ σ) (op : Operation) : Changes r (r.step op).2 :=
  step_ensures (perform_traced op) .refl

theorem run_changes : ∀ (ops : List Operation) (r : Runner κ σ), Changes r (r.run ops)
  | [], _ => .refl
  | op :: ops, r => (step_changes r op).trans (run_changes ops (r.step op).2)

/-- What every change keeps holds after every run. -/
theorem run_lasting {J : Runner κ σ → Prop} (hJ : ∀ r r', Change r r' → J r → J r')
    (ops : List Operation) {r : Runner κ σ} (hr : J r) : J (r.run ops) := by
  have h := run_changes ops r
  generalize r.run ops = r' at h
  induction h with
  | refl => exact hr
  | tail _ hc ih => exact hJ _ _ hc ih

theorem run_root (ops : List Operation) (r : Runner κ σ) : (r.run ops).root = r.root :=
  run_lasting (J := fun r' => r'.root = r.root) (fun _ _ hc h => hc.root_eq.trans h) ops rfl

theorem run_settings (ops : List Operation) (r : Runner κ σ) :
    (r.run ops).supportsMerging = r.supportsMerging ∧
      (r.run ops).allowedLateness = r.allowedLateness :=
  run_lasting (J := fun r' => r'.supportsMerging = r.supportsMerging ∧
      r'.allowedLateness = r.allowedLateness)
    (fun _ _ hc h => ⟨hc.settings_eq.1.trans h.1, hc.settings_eq.2.trans h.2⟩) ops ⟨rfl, rfl⟩

end Steps

end PaneTriggers.Runner
