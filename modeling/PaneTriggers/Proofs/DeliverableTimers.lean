import Mathlib.Data.List.Induction
import PaneTriggers.Proofs.ExactTimes
import PaneTriggers.Proofs.StrandedTimers
import PaneTriggers.Proofs.WatermarkSteps

/-!
# Which timers can still be delivered

The watermark delivers what it passes, also timers that were set behind it, but only when it moves.
At the greatest event time it moves no more. So an event-time timer before that time can be
delivered exactly as long as the watermark is not there (`Runner.wakeable_iff`), and one that cannot
was set by an operation that set timers with the watermark there already
(`Runner.set_at_greatest`). What an operation sets timers for is said once, by `step_setsFor`.
-/

namespace PaneTriggers

theorem Timestamp.lt_greatest {t : Timestamp} (h : t ≠ .greatest) : t < .greatest := by
  have hne : t.millis ≠ Timestamp.greatest.millis := fun hm => h (Timestamp.ext hm)
  exact lt_iff.2 (Int.lt_iff_le_and_ne.2 ⟨t.le_greatest, hne⟩)

theorem Window.maxTimestamp_lt_greatest (w : Window) : w.maxTimestamp < .greatest :=
  maxTimestamp_lt_iff.2 ⟨w.stop.le_greatest, by decide⟩

namespace Runner

variable {κ σ : Type}

/-- Some watermark wakes the window. -/
def Wakeable (r : Runner κ σ) (w : Window) : Prop := ∃ t, w ∈ (r.advance t).1

/-- The second runner has the watermark of the first, and new timers for the windows `ws` only. -/
structure SetsFor (ws : List Window) (r r' : Runner κ σ) : Prop where
  watermark : r'.watermark = r.watermark
  timers : ∀ x ∈ r'.timers, x ∈ r.timers ∨ x.window ∈ ws

section Sets

variable {r r' r₀ : Runner κ σ} {ws : List Window} {w : Window} {x : Timer} {t : Timestamp}

theorem not_wakeable (hr : r.watermark = some .greatest) : ¬r.Wakeable w := by
  rintro ⟨t, ht⟩
  rw [advance_of_le hr t.le_greatest] at ht
  cases ht

/-- A watermark wakes the windows of the timers that it passes, also of those behind it. -/
theorem mem_advance (hx : x ∈ r.timers) (hdomain : x.domain = .eventTime) (hxt : x.timestamp < t)
    (ht : ∀ now, r.watermark = some now → now < t) : x.window ∈ (r.advance t).1 := by
  rw [advance_of_lt ht]
  exact mem_woken.2 ⟨x, hx, TimerQueue.expires_iff.2 ⟨hdomain, hxt⟩, rfl⟩

/-- Until the watermark is at the greatest event time, the timers before that time can be delivered.
-/
theorem wakeable_iff (hx : x ∈ r.timers) (hdomain : x.domain = .eventTime)
    (hxt : x.timestamp < .greatest) : r.Wakeable x.window ↔ r.watermark ≠ some .greatest := by
  refine ⟨fun hw hr => not_wakeable hr hw, fun hr => ⟨.greatest, mem_advance hx hdomain hxt ?_⟩⟩
  exact fun now hnow => Timestamp.lt_greatest fun h => hr (h ▸ hnow)

theorem wakeable_endOf (hx : .endOf w ∈ r.timers) :
    r.Wakeable w ↔ r.watermark ≠ some .greatest :=
  wakeable_iff hx rfl w.maxTimestamp_lt_greatest

theorem SetsFor.refl (ws : List Window) (r : Runner κ σ) : SetsFor ws r r :=
  ⟨rfl, fun _ hx => .inl hx⟩

theorem SetsFor.withTimers (h : SetsFor ws r₀ r) (hw : w ∈ ws)
    (ts : List (TimeDomain × Timestamp)) : SetsFor ws r₀ (r.withTimers w ts) := by
  refine ⟨h.watermark, fun x hx => ?_⟩
  rcases mem_withTimers hx with rfl | hx
  · exact .inr hw
  · exact h.timers x hx

theorem SetsFor.retire (h : SetsFor ws r₀ r) (w : Window) : SetsFor ws r₀ (r.retire w) :=
  ⟨h.watermark, fun x hx => h.timers x (TimerQueue.mem_deleteWindow.1 hx).1⟩

theorem SetsFor.activate (h : SetsFor ws r₀ r) (w : Window) :
    SetsFor ws r₀ { r with active := r.active.insert w } :=
  ⟨h.watermark, h.timers⟩

theorem setsFor_unnoted : Unnoted (SetsFor ws r₀ : Runner κ σ → Prop) :=
  fun _ _ _ _ _ h => ⟨h.watermark, h.timers⟩

end Sets

variable [CustomTrigger κ] [StateStore σ]

/-- The windows for which an operation may set timers. -/
def touched (r : Runner κ σ) : Operation → List Window
  | .element ws _ => ws
  | .merge _ d => [d]
  | op => r.targets op

/-- The runner with the watermark that an operation brings, and without the timers it passes. -/
def moved (r : Runner κ σ) : Operation → Runner κ σ
  | .advance t | .tick t => (r.advance t).2
  | _ => r

variable {r : Runner κ σ} {w : Window}

/-- Besides moving the watermark, an operation sets timers of the windows it is about. -/
theorem step_setsFor (r : Runner κ σ) (op : Operation) :
    SetsFor (r.touched op) (r.moved op) (r.step op).2 := by
  have kept : ∀ {ws : List Window} {op' : Operation},
      Preserves (SetsFor ws r) (perform op' : RunnerM κ σ Answer) →
      SetsFor ws r (r.step op').2 := fun h => step_ensures h (.refl _ r)
  have firing : ∀ {ws : List Window} {r₀ : Runner κ σ}, ∀ w ∈ ws,
      Preserves (SetsFor ws r₀) (perform (.fireIfReady w) : RunnerM κ σ Answer) := fun w hw =>
    .map (setsFor_unnoted.fireIfReady fun _ ts h => h.withTimers hw ts)
  cases op with
  | element ws t =>
    exact kept (.map (.forM fun w hw => setsFor_unnoted.deliver (fun _ ts h => h.withTimers hw ts)
      fun _ h => h.activate w))
  | merge ws d =>
    exact kept (.map (setsFor_unnoted.merge
      (fun _ ts h => h.withTimers List.mem_cons_self ts) (fun _ u h => h.retire u)
      fun _ h => h.activate d))
  | advance t => exact .refl _ _
  | tick t =>
    rw [step_tick]
    refine run_keeps (fun op hop => ?_) (.refl _ _)
    obtain ⟨w, hw, rfl⟩ := List.mem_map.1 hop
    exact firing w hw
  | shouldFire w => exact kept (.map setsFor_unnoted.shouldFire)
  | fire w =>
    exact kept (.map (setsFor_unnoted.onFire fun _ ts h => h.withTimers List.mem_cons_self ts))
  | fireIfReady w => exact kept (firing w List.mem_cons_self)
  | isClosed w => exact kept (.map setsFor_unnoted.isClosed)
  | windowState w => exact kept (.map setsFor_unnoted.usingStore)
  | collect =>
    exact kept (.map (.bind (Q := fun _ => SetsFor [] r) (.get fun _ h => h)
      fun _ => setsFor_unnoted.collectEach (fun _ u h => h.retire u) _))

omit [CustomTrigger κ] [StateStore σ] in
theorem mem_of_mem_moved {op : Operation} {x : Timer} (hx : x ∈ (r.moved op).timers) :
    x ∈ r.timers := by
  have advanced : ∀ {t : Timestamp}, x ∈ (r.advance t).2.timers → x ∈ r.timers := by
    intro t ht
    obtain ⟨-, h⟩ | ⟨-, h⟩ := r.advance_cases t <;> rw [h] at ht
    · exact ht
    · exact (TimerQueue.mem_drain.1 ht).1
  cases op with
  | advance t => exact advanced hx
  | tick t => exact advanced hx
  | _ => exact hx

omit [CustomTrigger κ] [StateStore σ] in
/-- The watermark that comes to the greatest event time takes all timers before it along. -/
theorem not_mem_moved {op : Operation} {x : Timer} (hr : r.watermark ≠ some .greatest)
    (hmoved : (r.moved op).watermark = some .greatest) (hdomain : x.domain = .eventTime)
    (hx : x.timestamp < .greatest) : x ∉ (r.moved op).timers := by
  have advanced : ∀ {t : Timestamp}, (r.advance t).2.watermark = some .greatest →
      x ∉ (r.advance t).2.timers := by
    intro t ht hmem
    obtain ⟨-, h⟩ | ⟨-, h⟩ := r.advance_cases t <;> rw [h] at ht hmem
    · exact hr ht
    · obtain rfl := Option.some.inj ht
      exact (TimerQueue.mem_drain.1 hmem).2 (TimerQueue.expires_iff.2 ⟨hdomain, hx⟩)
  cases op with
  | advance t => exact advanced hmoved
  | tick t => exact advanced hmoved
  | _ => exact absurd hmoved hr

theorem run_append (r : Runner κ σ) (ops ops' : List Operation) :
    r.run (ops ++ ops') = (r.run ops).run ops' :=
  List.foldl_append

/-- A timer that is pending before the greatest event time with the watermark there was set by an
operation for its window, with the watermark there already when that operation was done. -/
theorem set_at_greatest {x : Timer} (hdomain : x.domain = .eventTime)
    (hx : x.timestamp < .greatest) (hr : r.watermark ≠ some .greatest) (ops : List Operation)
    (hend : (r.run ops).watermark = some .greatest) (hmem : x ∈ (r.run ops).timers) :
    ∃ before op after, ops = before ++ op :: after ∧
      (r.run (before ++ [op])).watermark = some .greatest ∧
      x.window ∈ (r.run before).touched op := by
  induction ops using List.reverseRecOn with
  | nil => exact absurd hend hr
  | append_singleton ops op ih =>
    have hstep : r.run (ops ++ [op]) = ((r.run ops).step op).2 := run_append r ops [op]
    have hsets := step_setsFor (r.run ops) op
    rw [hstep] at hend hmem
    rcases hsets.timers x hmem with hmoved | htouched
    · have hwatermark := hsets.watermark.symm.trans hend
      by_cases hbefore : (r.run ops).watermark = some .greatest
      · obtain ⟨before, op', after, rfl, hset⟩ := ih hbefore (mem_of_mem_moved hmoved)
        exact ⟨before, op', after ++ [op], by simp, hset⟩
      · exact absurd hmoved (not_mem_moved hbefore hwatermark hdomain hx)
    · exact ⟨ops, op, [], rfl, hstep ▸ hend, htouched⟩

/-! ## Elements -/

section Elements

variable {assigned : List Window} {t : Timestamp}

theorem accept_pending {s : WindowState} :
    Ensures (fun _ => True) (accept assigned t w s : RunnerM κ σ Unit)
      (fun _ r => .endOf w ∈ r.timers) fun _ _ => True := by
  have hkept : Unnoted fun r : Runner κ σ => .endOf w ∈ r.timers := fun _ _ _ _ _ h => h
  have hevaluating : ∀ act, Preserves (fun _ => True) (evaluating w s act : RunnerM κ σ _) :=
    fun act => Unnoted.evaluating (fun _ _ _ _ _ h => h) fun _ _ h => h
  refine .bind (hevaluating _) fun s' => .bind (Q := fun _ r => .endOf w ∈ r.timers)
    (.modify fun r _ => TimerQueue.mem_insert.2 (.inl rfl)) fun _ => ?_
  exact .bind (hkept.usingStore.onFail fun _ _ _ => trivial) fun _ => .modify fun _ h => h

theorem delivered_keeps {J : Runner κ σ → Prop}
    (hJ : ∀ w, Preserves J (deliver assigned t w : RunnerM κ σ Unit)) (ws : List Window)
    (hr : J r) : J (delivered assigned t ws r) := by
  have hws : Preserves J (ws.forM (deliver assigned t) : RunnerM κ σ Unit) :=
    .forM fun w _ => hJ w
  unfold delivered
  cases h : ws.forM (deliver assigned t) r with
  | ok _ r' => exact hws.of_ok hr h
  | error e r' => exact hws.of_error hr h

/-- The end of a window that accepts an element is pending when the element is done. -/
theorem pending_of_accepted : ∀ (ws : List Window) (r r₁ : Runner κ σ),
    (r₁, w) ∈ visitsFrom assigned t r ws → r₁.fate w = .handed →
    fails (deliver assigned t w) r₁ = false → .endOf w ∈ (delivered assigned t ws r).timers
  | [], _, _, hx, _, _ => (List.not_mem_nil hx).elim
  | u :: ws, r, r₁, hx, hfate, hreturns => by
    have hset : Unnoted fun r : Runner κ σ => .endOf w ∈ r.timers := fun _ _ _ _ _ h => h
    have hkept : ∀ u, Preserves (fun r : Runner κ σ => .endOf w ∈ r.timers)
        (deliver assigned t u) := fun u =>
      hset.deliver (fun _ _ h => mem_insertAll.2 (.inr h)) fun _ h => h
    cases hd : deliver assigned t u r with
    | ok _ r₂ =>
      rw [visitsFrom_of_ok hd] at hx
      rw [delivered_of_ok hd]
      rcases List.mem_cons.1 hx with hx | hx
      · obtain ⟨rfl, rfl⟩ := Prod.mk.inj hx
        have haccept := deliver_of_fate assigned t w r₁
        rw [hfate] at haccept
        obtain ⟨s, r₃, hs⟩ := haccept
        exact delivered_keeps hkept ws (accept_pending.of_ok trivial (hs.symm.trans hd))
      · exact pending_of_accepted ws r₂ r₁ hx hfate hreturns
    | error e r₂ =>
      rw [visitsFrom_of_error hd] at hx
      obtain ⟨rfl, rfl⟩ := Prod.mk.inj (List.mem_singleton.1 hx)
      rw [fails_of_error hd] at hreturns
      cases hreturns

/-- What accepts an element is not late, and its end is pending then. -/
theorem gained_element {ws : List Window} (hw : w ∈ r.gained (.element ws t)) :
    ¬r.Late w ∧ .endOf w ∈ (r.step (.element ws t)).2.timers := by
  obtain ⟨⟨r₁, u⟩, hx, rfl⟩ := List.mem_map.1 hw
  obtain ⟨hx, haccepted⟩ := List.mem_filter.1 hx
  obtain ⟨hfate, hreturns⟩ : r₁.fate u = .handed ∧ fails (deliver ws t u) r₁ = false := by
    simpa using haccepted
  refine ⟨fun hlate => ?_, ?_⟩
  · rw [← late_of_visit ws r _ hx u, ← fate_late_iff, hfate] at hlate
    cases hlate
  · rw [step_element]
    exact pending_of_accepted ws r r₁ hx hfate hreturns

end Elements

/-- After every run, an event-time timer before the greatest event time can be delivered exactly if
the watermark is not there. One that cannot was set by an operation for its window that had the
watermark there already. The end of a window that accepts an element, be it behind the watermark,
can be delivered under the same condition. It is met if the guarantee of the window and the lateness
come before the greatest event time. -/
theorem deliverable_until_greatest (t : Trigger κ) (cfg : RunnerConfig) (store : σ)
    (ops : List Operation) :
    let first := start t cfg store
    let r := first.run ops
    (∀ x ∈ r.timers, x.domain = .eventTime → x.timestamp < .greatest →
      (r.Wakeable x.window ↔ r.watermark ≠ some .greatest) ∧
      (r.watermark = some .greatest → ∃ before op after, ops = before ++ op :: after ∧
        (first.run (before ++ [op])).watermark = some .greatest ∧
        x.window ∈ (first.run before).touched op)) ∧
    ∀ ws u, ∀ w ∈ r.gained (.element ws u),
      let r' := (r.step (.element ws u)).2
      .endOf w ∈ r'.timers ∧ (r'.Wakeable w ↔ r.watermark ≠ some .greatest) ∧
      ((r.guarantee w).millis + r.allowedLateness < Timestamp.greatest.millis → r'.Wakeable w) := by
  intro first r
  refine ⟨fun x hx hdomain hxt => ⟨wakeable_iff hx hdomain hxt, fun hend => ?_⟩, fun ws u w hw => ?_⟩
  · exact set_at_greatest hdomain hxt (r := first) nofun ops hend hx
  · obtain ⟨hlate, hpending⟩ := gained_element hw
    have hwatermark := (step_setsFor r (.element ws u)).watermark
    have hwakeable := wakeable_endOf hpending
    rw [hwatermark] at hwakeable
    exact ⟨hpending, hwakeable, fun hlt => hwakeable.2 fun hr => hlate ⟨.greatest, hr, hlt⟩⟩

/-- An element that comes behind the watermark leaves a timer that can be delivered. Where the
lateness takes it in although the watermark is at the greatest event time, its timer cannot. -/
theorem deliverable_until_greatest_behind :
    let w : Window := ⟨.clamp 0, .clamp 10⟩
    let t : Trigger ScriptedTrigger := .once .endOfWindow
    let behind := (start t { allowedLateness := 5 } MemoryStore.empty).run [.advance (.clamp 12)]
    let first := start t { allowedLateness := RunnerConfig.maxLateness } MemoryStore.empty
    let ops : List Operation := [.advance .greatest, .element [w] (.clamp 4)]
    w ∈ behind.gained (.element [w] (.clamp 3)) ∧
      (behind.step (.element [w] (.clamp 3))).2.Wakeable w ∧
      .endOf w ∈ (first.run ops).timers ∧ ¬(first.run ops).Wakeable w ∧
      ∃ before op after, ops = before ++ op :: after ∧
        (first.run (before ++ [op])).watermark = some .greatest ∧
        w ∈ (first.run before).touched op := by
  intro w t behind first ops
  have hgained : w ∈ behind.gained (.element [w] (.clamp 3)) := by decide +kernel
  have hpending : .endOf w ∈ (first.run ops).timers := by decide +kernel
  have hwatermark : (first.run ops).watermark = some .greatest := by decide +kernel
  obtain ⟨-, haccepted⟩ := deliverable_until_greatest t { allowedLateness := 5 } MemoryStore.empty
    [.advance (.clamp 12)]
  obtain ⟨-, -, hwakeable⟩ := haccepted [w] (.clamp 3) w hgained
  obtain ⟨htimers, -⟩ := deliverable_until_greatest t
    { allowedLateness := RunnerConfig.maxLateness } MemoryStore.empty ops
  obtain ⟨hiff, hset⟩ := htimers (.endOf w) hpending rfl w.maxTimestamp_lt_greatest
  exact ⟨hgained, hwakeable (by decide +kernel), hpending, fun h => hiff.1 h hwatermark,
    hset hwatermark⟩

/-- The end of the window is pending and the window is ready to fire, but no watermark wakes it. -/
theorem timer_never_delivered :
    let w : Window := ⟨.clamp 0, .clamp 10⟩
    let r := (start (.once .endOfWindow : Trigger ScriptedTrigger)
      { allowedLateness := RunnerConfig.maxLateness } MemoryStore.empty).run
      [.advance .greatest, .element [w] (.clamp 3)]
    .endOf w ∈ r.timers ∧ (Timer.endOf w).timestamp < .greatest ∧
      r.seen.readiness w = .ok true ∧ ∀ t, w ∉ (r.advance t).1 := by
  intro w r
  have hwatermark : r.watermark = some .greatest := by decide +kernel
  refine ⟨by decide +kernel, by decide +kernel, by decide +kernel, fun t ht => ?_⟩
  exact not_wakeable hwatermark ⟨t, ht⟩

end Runner

end PaneTriggers
