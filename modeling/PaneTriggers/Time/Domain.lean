/-!
# Clock domains

A timer is set against one of three clocks. They are ordered as listed.
-/

namespace PaneTriggers

/-- The clock that a timer waits for. -/
inductive TimeDomain where
  | eventTime
  | processingTime
  | synchronizedProcessingTime
deriving DecidableEq

namespace TimeDomain

/-- The domain's place in the order. -/
def rank : TimeDomain → Nat
  | eventTime => 0
  | processingTime => 1
  | synchronizedProcessingTime => 2

theorem rank_inj {a b : TimeDomain} (h : a.rank = b.rank) : a = b := by
  cases a <;> cases b <;> first | rfl | contradiction

instance : Ord TimeDomain := ⟨compareOn rank⟩

instance : Std.TransOrd TimeDomain :=
  inferInstanceAs (Std.TransCmp (compareOn (β := Nat) rank))

instance : Std.LawfulEqOrd TimeDomain where
  eq_of_compare h := rank_inj (Std.LawfulEqOrd.eq_of_compare (α := Nat) h)

theorem compare_eq_lt_iff {a b : TimeDomain} : compare a b = .lt ↔ a.rank < b.rank :=
  Nat.compare_eq_lt

/-- The name under which timers and refusals show the domain. -/
def name : TimeDomain → String
  | eventTime => "EVENT_TIME"
  | processingTime => "PROCESSING_TIME"
  | synchronizedProcessingTime => "SYNCHRONIZED_PROCESSING_TIME"

end TimeDomain

end PaneTriggers
