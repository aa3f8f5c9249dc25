import PaneTriggers.Time.Domain
import PaneTriggers.Time.Window

/-!
# Timers

A timer asks for a window to be looked at again once a clock has passed an event time. Timers are
ordered by domain, then event time, then window.
-/

namespace PaneTriggers

/-- A wish to be woken for `window` when the clock of `domain` passes `timestamp`. -/
@[ext] structure Timer where
  domain : TimeDomain
  timestamp : Timestamp
  window : Window
deriving DecidableEq

namespace Timer

instance : Ord Timer :=
  ⟨compareLex (compareOn domain) (compareLex (compareOn timestamp) (compareOn window))⟩

instance : Std.TransOrd Timer :=
  inferInstanceAs (Std.TransCmp
    (compareLex (compareOn domain) (compareLex (compareOn timestamp) (compareOn window))))

instance : Std.LawfulEqOrd Timer where
  eq_of_compare h :=
    have ⟨hd, h⟩ := compareLex_eq_eq.1 h
    have ⟨ht, hw⟩ := compareLex_eq_eq.1 h
    Timer.ext (Std.LawfulEqOrd.eq_of_compare hd) (Std.LawfulEqOrd.eq_of_compare ht)
      (Std.LawfulEqOrd.eq_of_compare hw)

/-- One timer comes before the other: by domain, then by event time, then by window. -/
def Before (a b : Timer) : Prop :=
  a.domain.rank < b.domain.rank ∨ a.domain = b.domain ∧
    (a.timestamp < b.timestamp ∨ a.timestamp = b.timestamp ∧ a.window.Before b.window)

theorem compare_eq_lt_iff {a b : Timer} : compare a b = .lt ↔ a.Before b := by
  show (compare a.domain b.domain).then
    ((compare a.timestamp b.timestamp).then (compare a.window b.window)) = .lt ↔ _
  rw [Ordering.then_eq_lt, Ordering.then_eq_lt, TimeDomain.compare_eq_lt_iff,
    Timestamp.compare_eq_lt_iff, Window.compare_eq_lt_iff, Std.LawfulEqCmp.compare_eq_iff_eq,
    Std.LawfulEqCmp.compare_eq_iff_eq]
  rfl

/-- The event-time timer at the end of a window. -/
def endOf (w : Window) : Timer := ⟨.eventTime, w.maxTimestamp, w⟩

end Timer

/-- Why a timer was not set. -/
inductive TimerError where
  | unsupportedDomain (domain : String)
  | rejected (window : Window) (reason : String)
deriving DecidableEq

/-- The text of a refusal. -/
def TimerError.message : TimerError → String
  | unsupportedDomain d => "timer domain " ++ d ++ " is not supported by this runtime"
  | rejected w reason => "timer registration rejected for window " ++ w.text ++ ": " ++ reason

end PaneTriggers
