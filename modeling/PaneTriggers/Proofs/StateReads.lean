import Mathlib.Tactic.Common
import PaneTriggers.Trigger.Node

/-!
# What a window's state reads after a write

Finished bits and counters are written apart: setting one leaves every reading of the other as it
was. A state is determined by the two readings (`WindowState.ext_reads`). The children of the root
stand side by side, so that clearing one of them leaves the other alone.
-/

namespace PaneTriggers

namespace Position

/-- The position of the early child of a tree. -/
def early : Position := root.child 0

/-- The position of the late child of a tree. -/
def late : Position := root.child 1

@[simp] theorem early_ne_root : early ≠ root := by decide

@[simp] theorem late_ne_root : late ≠ root := by decide

@[simp] theorem early_ne_late : early ≠ late := by decide

@[simp] theorem root_ne_early : root ≠ early := by decide

@[simp] theorem root_ne_late : root ≠ late := by decide

@[simp] theorem late_ne_early : late ≠ early := by decide

@[simp] theorem isBelow_self (p : Position) : p.isBelow p = false := by simp [isBelow]

@[simp] theorem root_isBelow (p : Position) : root.isBelow p = false := by simp [isBelow, root]

@[simp] theorem early_isBelow_late : early.isBelow late = false := by decide

@[simp] theorem late_isBelow_early : late.isBelow early = false := by decide

end Position

namespace WindowState

variable {s t : WindowState} {p q : Position} {b : Bool} {c : Counter}

@[simp] theorem finished_empty : empty.finished p = false := by simp [finished]

@[simp] theorem counter_empty : empty.counter p = 0 := by simp [counter]

theorem finished_setFinished :
    (s.setFinished p b).finished q = if p = q then b else s.finished q := by
  unfold finished
  rw [node_setFinished]
  split <;> rfl

@[simp] theorem counter_setFinished : (s.setFinished p b).counter q = s.counter q := by
  unfold counter
  rw [node_setFinished]
  split_ifs with h
  · rw [h]
  · rfl

@[simp] theorem finished_setCounter : (s.setCounter p c).finished q = s.finished q := by
  unfold finished
  rw [node_setCounter]
  split_ifs with h
  · rw [h]
  · rfl

theorem counter_setCounter : (s.setCounter p c).counter q = if p = q then c else s.counter q := by
  unfold counter
  rw [node_setCounter]
  split <;> rfl

theorem finished_clearSubtree :
    (s.clearSubtree p).finished q = if q.isBelow p then false else s.finished q := by
  unfold finished
  rw [node_clearSubtree]
  split_ifs with h h'
  · subst h
    simp at h'
  · rw [h]
  · rfl
  · rfl

theorem counter_clearSubtree :
    (s.clearSubtree p).counter q = if p = q ∨ q.isBelow p then 0 else s.counter q := by
  unfold counter
  rw [node_clearSubtree]
  split_ifs <;> simp_all

theorem ext_reads (hf : ∀ p, s.finished p = t.finished p) (hc : ∀ p, s.counter p = t.counter p) :
    s = t :=
  ext_node fun p => NodeState.ext (hf p) (hc p)

/-- Nothing is done in the empty state, so unmarking a node changes nothing. -/
@[simp] theorem setFinished_empty : empty.setFinished p false = empty := by
  refine ext_reads (fun q => ?_) fun q => by simp
  rw [finished_setFinished]
  split_ifs <;> simp

@[simp] theorem clearSubtree_empty : empty.clearSubtree p = empty := by
  refine ext_reads (fun q => ?_) fun q => ?_
  · simp [finished_clearSubtree]
  · simp [counter_clearSubtree]

theorem setFinished_setFinished {b' : Bool} :
    (s.setFinished p b).setFinished p b' = s.setFinished p b' := by
  refine ext_reads (fun q => ?_) fun q => by simp
  simp only [finished_setFinished]
  split_ifs <;> rfl

/-- A mark on the node does not survive clearing it and unmarking it. -/
theorem rearm_setFinished :
    ((s.setFinished p b).clearSubtree p).setFinished p false =
      (s.clearSubtree p).setFinished p false := by
  refine ext_reads (fun q => ?_) fun q => ?_
  · simp only [finished_setFinished, finished_clearSubtree]
    split_ifs <;> rfl
  · simp only [counter_setFinished, counter_clearSubtree]

theorem setFinished_self : s.setFinished p (s.finished p) = s := by
  refine ext_reads (fun q => ?_) fun q => counter_setFinished
  rw [finished_setFinished]
  split_ifs with h
  · rw [h]
  · rfl

theorem setCounter_self : s.setCounter p (s.counter p) = s := by
  refine ext_reads (fun q => finished_setCounter) fun q => ?_
  rw [counter_setCounter]
  split_ifs with h
  · rw [h]
  · rfl

end WindowState

end PaneTriggers
