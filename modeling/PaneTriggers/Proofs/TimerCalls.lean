import Mathlib.Data.List.Induction
import PaneTriggers.Proofs.WatermarkSteps

/-!
# Runs of calls on a timer queue

However often a timer is set, only the last call that sets it counts: it is pending after a run of
calls if no call since then removes it (`TimerQueue.mem_after_iff`). A drain hands out timers in the
order of the queue and removes them, so a later drain hands one of them out again only after a call
that sets it again (`TimerQueue.kept_until_taken`).
-/

namespace PaneTriggers

/-- A call on a timer queue. -/
inductive TimerCall where
  | set (t : Timer)
  | drain (domain : TimeDomain) (now : Timestamp)
  | deleteWindow (w : Window)

namespace TimerCall

variable {t : Timer} {cs : List TimerCall} {c : TimerCall}

/-- The timer does not stay pending over the call. -/
def Removes (t : Timer) : TimerCall → Prop
  | set _ => False
  | drain d now => t.domain = d ∧ t.timestamp < now
  | deleteWindow w => t.window = w

/-- Some call sets the timer, and none since the last that does removes it. -/
def SetAndKept (t : Timer) (cs : List TimerCall) : Prop :=
  ∃ before since, cs = before ++ .set t :: since ∧ .set t ∉ since ∧ ∀ c ∈ since, ¬c.Removes t

theorem not_setAndKept_nil : ¬SetAndKept t [] := by
  rintro ⟨before, since, h, -⟩
  simp at h

theorem SetAndKept.mem (h : SetAndKept t cs) : .set t ∈ cs := by
  obtain ⟨before, since, rfl, -⟩ := h
  simp

theorem setAndKept_concat : SetAndKept t (cs ++ [c]) ↔
    c = .set t ∨ SetAndKept t cs ∧ ¬c.Removes t := by
  constructor
  · rintro ⟨before, since, hcs, hset, hkept⟩
    rcases List.eq_nil_or_concat since with rfl | ⟨since, c', rfl⟩
    · obtain ⟨-, hc⟩ := List.append_inj' hcs rfl
      exact .inl (List.singleton_inj.1 hc)
    · rw [List.concat_eq_append, ← List.cons_append, ← List.append_assoc] at hcs
      obtain ⟨rfl, hc⟩ := List.append_inj' hcs rfl
      obtain rfl := List.singleton_inj.1 hc
      simp only [List.concat_eq_append, List.mem_append, List.mem_singleton, not_or, or_imp,
        forall_and, forall_eq] at hset hkept
      exact .inr ⟨⟨before, since, rfl, hset.1, hkept.1⟩, hkept.2⟩
  · rintro (rfl | ⟨⟨before, since, rfl, hset, hkept⟩, hc⟩)
    · exact ⟨cs, [], rfl, by simp, by simp⟩
    · -- The last call may set the timer again, and then it is the last that does.
      by_cases hct : c = .set t
      · exact ⟨before ++ .set t :: since, [], by rw [hct], by simp, by simp⟩
      · refine ⟨before, since ++ [c], by simp, by simp [hset, Ne.symm hct], fun c' hc' => ?_⟩
        rcases List.mem_append.1 hc' with hc' | hc'
        · exact hkept c' hc'
        · exact List.mem_singleton.1 hc' ▸ hc

end TimerCall

namespace TimerQueue

variable {q : TimerQueue} {t : Timer} {cs : List TimerCall} {c : TimerCall} {d : TimeDomain}
  {now : Timestamp}

/-- The queue after a call. -/
def call (q : TimerQueue) : TimerCall → TimerQueue
  | .set t => q.insert t
  | .drain d now => (q.drain d now).2
  | .deleteWindow w => q.deleteWindow w

/-- The queue after a run of calls. -/
def after (q : TimerQueue) (cs : List TimerCall) : TimerQueue := cs.foldl call q

theorem after_concat : q.after (cs ++ [c]) = (q.after cs).call c := List.foldl_append

theorem mem_call : t ∈ q.call c ↔ c = .set t ∨ t ∈ q ∧ ¬c.Removes t := by
  cases c with
  | set u => simp [call, mem_insert, TimerCall.Removes]
  | drain d now => simp [call, mem_drain, expires_iff, TimerCall.Removes]
  | deleteWindow w => simp [call, mem_deleteWindow, TimerCall.Removes]

/-- Those timers are pending after a run of calls that it sets and keeps, and those of before that
no call removes. -/
theorem mem_after_iff : t ∈ q.after cs ↔
    TimerCall.SetAndKept t cs ∨ t ∈ q ∧ ∀ c ∈ cs, ¬c.Removes t := by
  induction cs using List.reverseRecOn with
  | nil => simp [after, TimerCall.not_setAndKept_nil]
  | append_singleton cs c ih =>
    have hlast : (∀ c' ∈ cs ++ [c], ¬c'.Removes t) ↔
        (∀ c' ∈ cs, ¬c'.Removes t) ∧ ¬c.Removes t := by
      simp [or_imp, forall_and]
    rw [after_concat, mem_call, ih, TimerCall.setAndKept_concat, hlast]
    tauto

theorem toList_ascending (q : TimerQueue) : q.toList.Pairwise Timer.Before :=
  q.pending.ordered_toList.imp Timer.compare_eq_lt_iff.1

theorem drain_ascending (q : TimerQueue) (d : TimeDomain) (now : Timestamp) :
    (q.drain d now).1.Pairwise Timer.Before :=
  (toList_ascending q).filter _

theorem mem_drained : t ∈ (q.drain d now).1 ↔ t ∈ q ∧ t.domain = d ∧ t.timestamp < now := by
  show t ∈ q.toList.filter (expires d now) ↔ _
  rw [List.mem_filter, mem_toList, expires_iff]

theorem not_mem_of_drained (h : t ∈ (q.drain d now).1) : t ∉ (q.drain d now).2 := fun hleft =>
  (mem_drain.1 hleft).2 (expires_iff.2 (mem_drained.1 h).2)

/-- After any run of calls from the empty queue a timer is pending if and only if it was set and,
since it was set last, no drain of its domain came past its time and no deletion of its window. A
drain then hands out the pending timers of its domain strictly before its time, in ascending order.
A later drain hands one of them out again only if it was set in between. -/
theorem kept_until_taken (cs : List TimerCall) :
    let q := empty.after cs
    (∀ t, t ∈ q ↔ TimerCall.SetAndKept t cs) ∧
    ∀ d now, let taken := (q.drain d now).1
      taken.Pairwise Timer.Before ∧
      (∀ t, t ∈ taken ↔ t ∈ q ∧ t.domain = d ∧ t.timestamp < now) ∧
      ∀ t ∈ taken, ∀ between d' now',
        t ∈ ((q.after (.drain d now :: between)).drain d' now').1 → .set t ∈ between := by
  intro q
  refine ⟨fun t => ?_, fun d now => ⟨drain_ascending q d now, fun t => mem_drained, ?_⟩⟩
  · rw [mem_after_iff, or_iff_left]
    exact fun h => not_mem_empty h.1
  · intro t ht between d' now' hagain
    have hpending : t ∈ (q.drain d now).2.after between := (mem_drained.1 hagain).1
    rcases mem_after_iff.1 hpending with hset | ⟨hleft, -⟩
    · exact hset.mem
    · exact absurd hleft (not_mem_of_drained ht)

/-- Set twice, the end of a window is handed out once, by the first drain past it, and again after
it was set again. -/
theorem kept_until_taken_end_of_window :
    let w : Window := ⟨.clamp 0, .clamp 10⟩
    let q := empty.after [.set (.endOf w), .set (.endOf w), .drain .eventTime w.maxTimestamp,
      .drain .processingTime w.stop, .deleteWindow ⟨.clamp 0, .clamp 11⟩]
    (q.drain .eventTime w.stop).1 = [.endOf w] ∧
      (∀ now, .endOf w ∉ ((q.after [.drain .eventTime w.stop]).drain .eventTime now).1) ∧
      .endOf w ∈ ((q.after [.drain .eventTime w.stop, .set (.endOf w), .set (.endOf w)]).drain
        .eventTime w.stop).1 := by
  intro w q
  have htaken : (q.drain .eventTime w.stop).1 = [.endOf w] := by decide +kernel
  obtain ⟨-, hdrain⟩ := kept_until_taken [.set (.endOf w), .set (.endOf w),
    .drain .eventTime w.maxTimestamp, .drain .processingTime w.stop,
    .deleteWindow ⟨.clamp 0, .clamp 11⟩]
  obtain ⟨-, -, hagain⟩ := hdrain .eventTime w.stop
  refine ⟨htaken, fun now h => ?_, by decide +kernel⟩
  exact List.not_mem_nil (hagain (.endOf w) (htaken ▸ List.mem_singleton_self _) [] _ _ h)

end TimerQueue

end PaneTriggers
