import PaneTriggers.Proofs.Conduct
import PaneTriggers.Trigger.Scripted

/-!
# How scripted triggers behave

A scripted trigger that is not told to mark itself as done writes its own counter only, and any
writes its own node only. One without failures in its script never fails. Without timers in its
script it sets none, and its merges sum up counters.
-/

namespace PaneTriggers.ScriptedTrigger

variable {k : ScriptedTrigger} {s : Site} {w : WindowState}

/-- Where a hook of the script can fail. -/
def MayFail (k : ScriptedTrigger) (s : Site) : Prop := k.failures ≠ [] ∨ ¬s.Open

theorem failure_none (h : k.failures = []) (n : HookName) : k.failure? s n w = none := by
  unfold failure?
  rw [h]
  split_ifs <;> rfl

theorem shouldFire_eq (h : k.failures = []) :
    CustomTrigger.shouldFire k s w = .ok (k.isReady s w) := by
  simp only [CustomTrigger.shouldFire, failure_none h]

theorem failIfScripted_ensures (n : HookName) :
    Ensures (fun d => d.state = w) (k.failIfScripted s n) (fun _ d => d.state = w)
      fun _ _ => k.MayFail s := by
  refine .bind (Q := fun a d => a.state = w ∧ d.state = w) (.get fun d h => ⟨h, h⟩)
    fun a => .of_fact fun ha => ?_
  rw [ha]
  rcases hf : k.failure? s n w with _ | e
  · exact .pure fun d h => h
  · refine .throw fun _ _ => .inl fun hk => ?_
    rw [failure_none hk] at hf
    cases hf

theorem setTimer_ensures (d : TimeDomain) (t : Timestamp) :
    Ensures (fun d => d.state = w) (s.setTimer d t) (fun _ d => d.state = w)
      fun _ _ => k.MayFail s := by
  have refused : s.refusal? d ≠ none → k.MayFail s := fun h => .inr fun ho => h (ho d)
  unfold Site.setTimer
  rcases hr : s.refusal? d with _ | ⟨_ | reason⟩
  · exact .modify fun d h => h
  · exact .throw fun _ _ => refused (by simp [hr])
  · exact .throw fun _ _ => refused (by simp [hr])

theorem setTimers_ensures (n : HookName) (t : Timestamp) :
    Ensures (fun d => d.state = w) (k.setTimers s n t) (fun _ d => d.state = w)
      fun _ _ => k.MayFail s :=
  .forM fun _ _ => setTimer_ensures _ _

theorem setCounter_ensures (c : Counter) {E : TriggerError → Draft → Prop} :
    Ensures (fun d => d.state = w) (s.setCounter c)
      (fun _ d => d.state = w.setCounter s.position c) E :=
  .modify fun _ h => congrArg (WindowState.setCounter · s.position c) h

theorem onElement_ensures (hk : k.finishOnElement = false) (t : Timestamp) :
    Ensures (fun d => d.state = w) (k.onElement s t)
      (fun _ d => d.state = w.setCounter s.position (w.counter s.position).next)
      fun _ _ => k.MayFail s := by
  refine .bind (failIfScripted_ensures _) fun _ => ?_
  refine .bind (Q := fun a d => a = w.counter s.position ∧ d.state = w)
    (.bind (Q := fun a d => a.state = w ∧ d.state = w) (.get fun d h => ⟨h, h⟩)
      fun a => .pure fun d h => ⟨by rw [h.1], h.2⟩) fun a => .of_fact fun ha => ?_
  rw [ha]
  refine .bind (setCounter_ensures _) fun _ => .ite (fun h => ?_) fun _ => setTimers_ensures _ _
  rw [hk] at h
  cases h

theorem onMerge_ensures (ms : List MergeSource) :
    Ensures (fun d => d.state = w) (k.onMerge s ms) (fun _ d => CounterAt s.position w d.state)
      fun _ _ => k.MayFail s := by
  refine .bind (failIfScripted_ensures _) fun _ => .bind (setCounter_ensures _) fun _ => ?_
  exact (setTimers_ensures _ _).onReturn (fun _ d h => ⟨_, h⟩)

theorem onOnlyFiring_ensures :
    Ensures (fun d => d.state = w) (k.onOnlyFiring s) (fun _ d => CounterAt s.position w d.state)
      fun _ _ => k.MayFail s := by
  refine .bind (failIfScripted_ensures _) fun _ => ?_
  rcases k.counterOnFire with _ | c
  · refine (setTimers_ensures _ _).onReturn ?_
    intro _ d hx
    obtain rfl := hx
    exact .refl _ _
  · refine .bind (setCounter_ensures c) fun _ => ?_
    exact (setTimers_ensures _ _).onReturn (fun _ d h => ⟨_, h⟩)

theorem ownCounter (hk : k.finishOnElement = false) : OwnCounter k where
  onElement _ t _ _ _ h := ⟨_, (onElement_ensures hk t).of_ok rfl h⟩
  onMerge _ ms _ _ h := (onMerge_ensures ms).of_ok rfl h
  onOnlyFiring _ _ _ h := onOnlyFiring_ensures.of_ok rfl h

theorem not_mayFail (hk : k.failures = []) (hs : s.Open) : ¬k.MayFail s :=
  fun h => h.elim (absurd hk) fun h => h hs

/-- An element changes the node of the trigger, which may also be marked, and no other. -/
theorem onElement_nodeAt (t : Timestamp) :
    Ensures (fun d => d.state = w) (k.onElement s t) (fun _ d => NodeAt s.position w d.state)
      fun _ _ => k.MayFail s := by
  refine .bind (failIfScripted_ensures _) fun _ => ?_
  refine .bind (Q := fun _ d => d.state = w)
    (.bind (Q := fun _ d => d.state = w) (.get fun _ h => h) fun _ => .pure fun _ h => h)
    fun a => .bind (setCounter_ensures a.next) fun _ => ?_
  have timers : Ensures (fun d => NodeAt s.position w d.state) (k.setTimers s .onElement t)
      (fun _ d => NodeAt s.position w d.state) fun _ _ => k.MayFail s :=
    .of_each (f := Draft.state) fun _ hw => (setTimers_ensures _ _).onReturn fun _ d hd => by
      rw [hd]
      exact hw
  refine Ensures.mono (P := fun d => NodeAt s.position w d.state) (.ite (fun _ => ?_) fun _ =>
    timers) (fun d hd => ?_) (fun _ _ h => h) fun _ _ h => h
  · refine .bind (Q := fun _ d => NodeAt s.position w d.state) (.modify fun d hd q hq => ?_)
      fun _ => timers
    exact (WindowState.node_setFinished true).trans ((if_neg (Ne.symm hq)).trans (hd q hq))
  · rw [hd]
    exact CounterAt.nodeAt ⟨_, rfl⟩

theorem ownNode : OwnNode k where
  onElement _ t _ _ _ h := (onElement_nodeAt t).of_ok rfl h
  onOnlyFiring _ _ _ h := (onOnlyFiring_ensures.of_ok rfl h).nodeAt

theorem ignoresAssigned : IgnoresAssigned k := fun _ _ _ _ => rfl

theorem leavesOpen (hk : k.finishOnElement = false) : LeavesOpen k := by
  intro s t ws d d' h hopen
  rw [(onElement_ensures hk t).of_ok rfl h, WindowState.finished_setCounter, hopen]

/-- Without failures in its script a trigger never fails, also when it marks itself as done. -/
theorem neverFails (hk : k.failures = []) : NeverFails k where
  onElement _ t _ _ hs := by
    obtain ⟨_, d', hd, -⟩ := (onElement_nodeAt t).returns (fun _ _ => not_mayFail hk hs) rfl
    exact ⟨d', hd⟩
  onMerge _ ms _ hs := by
    obtain ⟨_, d', hd, -⟩ := (onMerge_ensures ms).returns (fun _ _ => not_mayFail hk hs) rfl
    exact ⟨d', hd⟩
  shouldFire s w _ := ⟨k.isReady s w, shouldFire_eq hk⟩
  onOnlyFiring _ _ hs := by
    obtain ⟨_, d', hd, -⟩ := onOnlyFiring_ensures.returns (fun _ _ => not_mayFail hk hs) rfl
    exact ⟨d', hd⟩

theorem sumsOnMerge (hf : k.failures = []) (ht : k.timers = []) : SumsOnMerge k := by
  intro s ms d
  have hfail : k.failIfScripted s .onMerge d = .ok () d := by
    have hget : (MonadState.get : Hook Draft) d = .ok d d := rfl
    unfold failIfScripted
    refine (bind_of_ok hget).trans ?_
    rw [failure_none hf]
    rfl
  have htimers : ∀ d, k.setTimers s .onMerge (Timestamp.clamp 0) d = .ok () d := fun d => by
    unfold setTimers
    rw [ht]
    rfl
  exact (bind_of_ok hfail).trans ((bind_of_ok rfl).trans (htimers _))

section Timerless

variable {ts : List (TimeDomain × Timestamp)} {E : TriggerError → Draft → Prop}

theorem failIfScripted_timers (n : HookName) :
    Ensures (fun d => d.timers = ts) (k.failIfScripted s n) (fun _ d => d.timers = ts)
      fun _ _ => True := by
  refine .bind (Q := fun _ d => d.timers = ts) (.get fun _ h => h) fun a => ?_
  cases k.failure? s n a.state with
  | some e => exact .throw fun _ _ => trivial
  | none => exact .pure fun _ h => h

theorem setTimers_timers (hk : k.timers = []) (n : HookName) (t : Timestamp) :
    Ensures (fun d => d.timers = ts) (k.setTimers s n t) (fun _ d => d.timers = ts) E := by
  unfold setTimers
  rw [hk]
  exact .pure fun _ h => h

theorem timerless (hk : k.timers = []) : Timerless k where
  onElement s t ws d d' h := by
    have hd : Ensures (fun d₁ => d₁.timers = d.timers) (k.onElement s t)
        (fun _ d₁ => d₁.timers = d.timers) fun _ _ => True := by
      refine .bind (failIfScripted_timers _) fun _ => ?_
      refine .bind (Q := fun _ d₁ => d₁.timers = d.timers)
        (.bind (Q := fun _ d₁ => d₁.timers = d.timers) (.get fun _ h => h)
          fun _ => .pure fun _ h => h) fun _ => ?_
      refine .bind (Q := fun _ d₁ => d₁.timers = d.timers) (.modify fun _ h => h) fun _ => ?_
      exact .ite (fun _ => .bind (Q := fun _ d₁ => d₁.timers = d.timers) (.modify fun _ h => h)
        fun _ => setTimers_timers hk _ _) fun _ => setTimers_timers hk _ _
    exact hd.of_ok rfl h
  onOnlyFiring s d d' h := by
    have hd : Ensures (fun d₁ => d₁.timers = d.timers) (k.onOnlyFiring s)
        (fun _ d₁ => d₁.timers = d.timers) fun _ _ => True := by
      refine .bind (failIfScripted_timers _) fun _ => ?_
      cases k.counterOnFire with
      | none => exact setTimers_timers hk _ _
      | some c =>
        exact .bind (Q := fun _ d₁ => d₁.timers = d.timers) (.modify fun _ h => h) fun _ =>
          setTimers_timers hk _ _
    exact hd.of_ok rfl h

end Timerless

theorem isReady_congr {m : Bool} {w' : WindowState} (h : SameView s.position w w') :
    k.isReady (s.withMerging m) w' = k.isReady s w := by
  unfold isReady
  cases k.readiness with
  | count =>
    show decide (_ ≤ (w'.counter s.position).toNat) = _
    rw [h.2]
  | always => rfl
  | never => rfl
  | endOfWindow => rfl

theorem secluded (hf : k.failures = []) (he : k.finishOnElement = false) : Secluded k where
  onElement s m t ws w w' d d' hview h h' := by
    have hd := (onElement_ensures he t).of_ok rfl h
    have hd' := (onElement_ensures he t).of_ok rfl h'
    rw [hd, hd']
    show (w'.setCounter s.position (w'.counter s.position).next).counter s.position = _
    rw [WindowState.counter_setCounter, WindowState.counter_setCounter, hview.2]
  shouldFire s m w w' hview := by
    rw [shouldFire_eq hf, shouldFire_eq hf, isReady_congr hview]

theorem discreet (hf : k.failures = []) (he : k.finishOnElement = false) (ht : k.timers = []) :
    Discreet k :=
  ⟨ownCounter he, neverFails hf, timerless ht, secluded hf he⟩

end PaneTriggers.ScriptedTrigger
