import PaneTriggers.Time.Timestamp

/-!
# Windows

A window is the half-open interval of event times from `start` up to `stop`. Nothing requires
`start ≤ stop`: whoever assigns windows owns that, and triggers read only the end, through
`maxTimestamp`. Windows are ordered by start, then by stop.
-/

namespace PaneTriggers

/-- The event times from `start` up to, but not including, `stop`. -/
@[ext] structure Window where
  start : Timestamp
  stop : Timestamp
deriving DecidableEq

namespace Window

/-- The last event time that belongs to the window. -/
def maxTimestamp (w : Window) : Timestamp := w.stop.shift (-1)

theorem maxTimestamp_millis {w : Window} (h : .least < w.stop) :
    w.maxTimestamp.millis = w.stop.millis - 1 := by
  have hleast : Timestamp.least.millis = -9223372036854775808 := rfl
  have hstop := w.stop.le_greatest
  rw [Timestamp.lt_iff] at h
  unfold maxTimestamp Timestamp.shift
  rw [Timestamp.clamp_millis]
  split
  · omega
  · split <;> omega

/-- The last event time of a window has passed when its end has come, except at the least event
time, which nothing comes before. -/
theorem maxTimestamp_lt_iff {w : Window} {now : Timestamp} :
    w.maxTimestamp < now ↔ w.stop ≤ now ∧ .least < now := by
  have hleast : Timestamp.least.millis = -9223372036854775808 := rfl
  have hstop := w.stop.le_greatest
  unfold maxTimestamp Timestamp.shift
  rw [Timestamp.lt_iff, Timestamp.lt_iff, Timestamp.le_iff, Timestamp.clamp_millis]
  split
  · omega
  · split <;> omega

/-- Whether the watermark `now` is set and strictly past the window's last event time. -/
def endedBy (w : Window) : Option Timestamp → Bool
  | none => false
  | some now => decide (w.maxTimestamp < now)

/-- Whether `t` falls in the window. -/
def contains (w : Window) (t : Timestamp) : Bool := decide (w.start ≤ t) && decide (t < w.stop)

/-- Whether two windows overlap. -/
def intersects (a b : Window) : Bool := decide (a.start < b.stop) && decide (b.start < a.stop)

/-- The smallest window that covers both. -/
def span (a b : Window) : Window := ⟨a.start.earlier b.start, a.stop.later b.stop⟩

instance : Ord Window := ⟨compareLex (compareOn start) (compareOn stop)⟩

instance : Std.TransOrd Window :=
  inferInstanceAs (Std.TransCmp (compareLex (compareOn start) (compareOn stop)))

instance : Std.LawfulEqOrd Window where
  eq_of_compare h :=
    have h := compareLex_eq_eq.1 h
    Window.ext (Std.LawfulEqOrd.eq_of_compare h.1) (Std.LawfulEqOrd.eq_of_compare h.2)

/-- One window starts earlier than the other, or starts with it and stops earlier. -/
def Before (a b : Window) : Prop := a.start < b.start ∨ a.start = b.start ∧ a.stop < b.stop

theorem compare_eq_lt_iff {a b : Window} : compare a b = .lt ↔ a.Before b := by
  show (compare a.start b.start).then (compare a.stop b.stop) = .lt ↔ _
  rw [Ordering.then_eq_lt, Timestamp.compare_eq_lt_iff, Timestamp.compare_eq_lt_iff,
    Std.LawfulEqCmp.compare_eq_iff_eq]
  rfl

/-- The text of a window, such as `[0, 100)`. -/
def text (w : Window) : String :=
  "[" ++ toString w.start.millis ++ ", " ++ toString w.stop.millis ++ ")"

end Window

end PaneTriggers
