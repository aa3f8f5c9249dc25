import Std.Data.ExtTreeSet
import PaneTriggers.Timer.Basic

/-!
# The timer queue

The pending timers are a set: setting a timer twice is setting it once. Draining a domain at a
time removes exactly its timers strictly before that time.
-/

namespace PaneTriggers

/-- The pending timers. -/
@[ext] structure TimerQueue where
  pending : Std.ExtTreeSet Timer

namespace TimerQueue

instance : DecidableEq TimerQueue := fun a b =>
  decidable_of_iff (a.pending = b.pending) ⟨TimerQueue.ext, congrArg pending⟩

/-- The queue without timers. -/
def empty : TimerQueue := ⟨∅⟩

instance : Membership Timer TimerQueue := ⟨fun q t => t ∈ q.pending⟩

instance (q : TimerQueue) (t : Timer) : Decidable (t ∈ q) :=
  inferInstanceAs (Decidable (t ∈ q.pending))

/-- The pending timers in order. -/
def toList (q : TimerQueue) : List Timer := q.pending.toList

/-- How many timers are pending. -/
def size (q : TimerQueue) : Nat := q.pending.size

/-- Sets a timer. -/
def insert (q : TimerQueue) (t : Timer) : TimerQueue := ⟨q.pending.insert t⟩

/-- Sets timers in order. -/
def insertAll (q : TimerQueue) (ts : List Timer) : TimerQueue := ts.foldl insert q

/-- Whether draining `domain` at `now` removes the timer. -/
def expires (domain : TimeDomain) (now : Timestamp) (t : Timer) : Bool :=
  decide (t.domain = domain) && decide (t.timestamp < now)

/-- The timers of `domain` strictly before `now`, in order, and the queue without them. -/
def drain (q : TimerQueue) (domain : TimeDomain) (now : Timestamp) : List Timer × TimerQueue :=
  (q.toList.filter (expires domain now), ⟨q.pending.filter fun t => !expires domain now t⟩)

/-- Drops every timer of a window. -/
def deleteWindow (q : TimerQueue) (w : Window) : TimerQueue :=
  ⟨q.pending.filter fun t => decide (t.window ≠ w)⟩

variable {q : TimerQueue} {t u : Timer} {w : Window} {d : TimeDomain} {now : Timestamp}

theorem mem_pending : t ∈ q.pending ↔ t ∈ q := Iff.rfl

@[simp] theorem not_mem_empty : t ∉ empty := Std.ExtTreeSet.not_mem_empty

theorem mem_insert : t ∈ q.insert u ↔ u = t ∨ t ∈ q := by
  show t ∈ q.pending.insert u ↔ _
  rw [Std.ExtTreeSet.mem_insert, Std.LawfulEqOrd.compare_eq_iff_eq, mem_pending]

theorem mem_toList : t ∈ q.toList ↔ t ∈ q := Std.ExtTreeSet.mem_toList

theorem mem_drain : t ∈ (q.drain d now).2 ↔ t ∈ q ∧ ¬expires d now t := by
  show t ∈ q.pending.filter _ ↔ _
  simp [Std.ExtTreeSet.mem_filter, mem_pending]

theorem mem_deleteWindow : t ∈ q.deleteWindow w ↔ t ∈ q ∧ t.window ≠ w := by
  show t ∈ q.pending.filter _ ↔ _
  simp [Std.ExtTreeSet.mem_filter, mem_pending]

end TimerQueue

end PaneTriggers
