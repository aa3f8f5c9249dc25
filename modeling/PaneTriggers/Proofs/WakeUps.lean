import PaneTriggers.Proofs.Changes
import PaneTriggers.Proofs.ScriptedConduct
import PaneTriggers.Proofs.TickInvariant
import PaneTriggers.Store.Faulty

/-!
# No active window loses the wake-up at its end

Timers and active windows are updated apart, and an operation may fail in between. Still every
active window has its end pending as a timer or behind the watermark (`Awake`), over any store and
whatever fails: each change keeps it (`Change.awake`). The one window that becomes active without
the timer is a destination that its merge leaves closed, and a tree does that only after the end of
the destination (`MergesClosed.ended`).
-/

namespace PaneTriggers

variable {κ σ : Type} [CustomTrigger κ]

/-- What is done in the second state is done in the first. -/
def NoMoreDone (w w' : WindowState) : Prop := ∀ q, w'.finished q = true → w.finished q = true

/-- A trigger that takes a merge marks no node as done. -/
def MarksNothing (k : κ) : Prop :=
  ∀ (s : Site) ms d d', CustomTrigger.onMerge k s ms d = .ok () d' → NoMoreDone d.state d'.state

theorem NoMoreDone.refl (w : WindowState) : NoMoreDone w w := fun _ h => h

theorem OwnCounter.marksNothing {k : κ} (hk : OwnCounter k) : MarksNothing k := by
  intro s ms d d' h q hq
  rwa [(hk.onMerge s ms d d' h).sameFinished q] at hq

/-- A tree that takes a merge marks its root only after the end of the window. -/
theorem Trigger.onMerge_root {t : Trigger κ} (ht : t.Customs MarksNothing) (s : Scope)
    (ms : List MergeSource) :
    Ensures (fun p => p.state = .empty) ((Node.root t).onMerge s ms)
      (fun _ p => p.state.finished .root = true → s.ended = true) fun _ _ => True := by
  have hook : ∀ (k : κ) (i : Site), MarksNothing k →
      HookDoes NoMoreDone True (CustomTrigger.onMerge k i ms) :=
    fun k i hk => .of_ok (hk i ms) (.inl trivial)
  cases t with
  | once trigger =>
    refine (Leaf.onMerge_ensures (A := fun _ => NoMoreDone) (s := s) (l := ⟨.root, trigger⟩)
      (fun _ => .refl) (OnceTrigger.IfCustom.mono (fun k => hook k _) ht)).onReturn ?_
    intro _ p hp hroot
    cases trigger with
    | endOfWindow =>
      rw [show p.state = WindowState.empty.setFinished .root _ from hp,
        WindowState.finished_setFinished, if_pos rfl, Bool.and_eq_true] at hroot
      exact hroot.2
    | never => simpa using hp .root hroot
    | custom k => simpa using hp .root hroot
  | earlyAndLate c =>
    refine (EarlyAndLate.onMerge_ensures (A := fun _ => NoMoreDone) (s := s) (fun _ => .refl)
      fun l hl => (EarlyAndLate.Customs.leaves ht l hl).mono fun k => hook k _).onReturn ?_
    -- The composite itself marks its children only.
    intro _ p hp hroot
    generalize p.state = s' at hp hroot
    cases hp with
    | restarted =>
      unfold EarlyAndLate.restarted at hroot
      rcases hc : c.late with _ | l <;> rw [hc] at hroot <;> simp at hroot
    | alone => simp [WindowState.finished_setFinished] at hroot
    | lateEnd => simp [WindowState.finished_setFinished] at hroot
    | late _ _ _ hl => simpa [WindowState.finished_setFinished] using hl .root hroot

namespace Runner

variable {t : Trigger κ} {r r' : Runner κ σ} {d : Window}

/-- Every active window has its end pending as a timer or behind the watermark. -/
def Awake (r : Runner κ σ) : Prop :=
  ∀ w ∈ r.active, Timer.endOf w ∈ r.timers ∨ w.endedBy r.watermark = true

/-- A merge leaves its destination closed only after the end of the destination. -/
theorem MergesClosed.ended (ht : t.Customs MarksNothing) (hr : r.root = .root t)
    (h : r.MergesClosed d) : d.endedBy r.watermark = true := by
  obtain ⟨ms, p, hp, hc⟩ := h
  rw [hr] at hp
  unfold closedIn closeMerged at hc
  split_ifs at hc with hclose
  · simp only [Bool.and_eq_true] at hclose
    exact hclose.1.1
  · rw [hr] at hc
    exact (Trigger.onMerge_root ht (r.scope d) ms).of_ok rfl hp hc

theorem Change.awake (ht : t.Customs MarksNothing) (hr : r.root = .root t) (h : Change r r')
    (hawake : r.Awake) : r'.Awake := by
  cases h with
  | noted => exact hawake
  | timers u ts =>
    intro w hw
    exact (hawake w hw).imp_left fun hx => mem_insertAll.2 (.inr hx)
  | retired u =>
    intro w hw
    obtain ⟨hne, hw⟩ := mem_active_erase.1 hw
    exact (hawake w hw).imp_left fun hx => TimerQueue.mem_deleteWindow.2 ⟨hx, hne⟩
  | advanced now =>
    intro w hw
    rw [advance_active] at hw
    rcases hawake w hw with hx | he
    · obtain ⟨-, ha⟩ | ⟨-, ha⟩ := r.advance_cases now
      · rw [ha]
        exact .inl hx
      · -- The watermark takes the timer out of the queue by passing the end.
        rw [ha]
        rcases hpassed : TimerQueue.expires .eventTime now (.endOf w)
        · exact .inl (TimerQueue.mem_drain.2 ⟨hx, by simp [hpassed]⟩)
        · exact .inr hpassed
    · exact .inr (endedBy_advance he)
  | activated u hu =>
    intro w hw
    rcases mem_active_insert.1 hw with rfl | hw
    · exact hu.imp_right fun hm => hm.ended ht hr
    · exact hawake w hw

/-- Over any store, and over a tree whose custom triggers mark nothing at merges, every run leaves
every active window with a wake-up at its end: that end is pending as a timer, or the watermark has
passed it. Operations of the run may fail, in custom hooks and in calls of the store. -/
theorem active_windows_awake [StateStore σ] (ht : t.Customs MarksNothing) (cfg : RunnerConfig)
    (store : σ) (ops : List Operation) :
    let r := (start t cfg store).run ops
    ∀ w ∈ r.active, Timer.endOf w ∈ r.timers ∨
      ∃ now, r.watermark = some now ∧ w.maxTimestamp < now := by
  have hstart : (start t cfg store).root = .root t ∧ (start t cfg store).Awake :=
    ⟨rfl, fun w hw => absurd hw Std.ExtTreeSet.not_mem_empty⟩
  have hrun : ((start t cfg store).run ops).root = .root t ∧ ((start t cfg store).run ops).Awake :=
    run_lasting (J := fun r => r.root = .root t ∧ r.Awake)
      (fun r r' hc h => ⟨hc.root_eq.trans h.1, hc.awake ht h.1 h.2⟩) ops hstart
  exact fun w hw => (hrun.2 w hw).imp_right endedBy_iff.1

/-- An element fails in its hook, a window is merged from no sources, the merge of both windows
fails half done, and the watermark passes the end of the first window. -/
theorem active_windows_awake_despite_faults :
    let k : ScriptedTrigger :=
      { failures := [(.onElement, .unsupported)], failFrom := .clamp 1 }
    let c : EarlyAndLate ScriptedTrigger := ⟨.custom k, none⟩
    let a : Window := ⟨.clamp 0, .clamp 10⟩
    let b : Window := ⟨.clamp 10, .clamp 20⟩
    let ops : List Operation := [.element [a] (.clamp 3), .element [a] (.clamp 4),
      .element [b] (.clamp 11), .merge [] b, .merge [a, b] (a.span b), .advance (.clamp 12)]
    let store : FaultyStore := { faults := { save := [a.span b] } }
    let r := (start (.earlyAndLate c) {} store).run ops
    a ∈ r.active ∧ b ∈ r.active ∧ (Timer.endOf a ∈ r.timers ∨
      ∃ now, r.watermark = some now ∧ a.maxTimestamp < now) ∧
      (Timer.endOf b ∈ r.timers ∨ ∃ now, r.watermark = some now ∧ b.maxTimestamp < now) := by
  intro k c a b ops store
  have hc : (Trigger.earlyAndLate c).Customs MarksNothing :=
    ⟨(ScriptedTrigger.ownCounter rfl).marksNothing, nofun⟩
  have hawake := active_windows_awake hc {} store ops
  exact ⟨by decide +kernel, by decide +kernel, hawake a (by decide +kernel),
    hawake b (by decide +kernel)⟩

end Runner

end PaneTriggers
