/-!
# Event times

An event time is a whole number of milliseconds in the signed 64-bit range. Moving one by a number
of milliseconds stops at the ends of the range: `clamp_millis` says where it lands.
-/

namespace PaneTriggers

/-- An event time in milliseconds. -/
@[ext] structure Timestamp where
  millis : Int
  least_le : -9223372036854775808 ≤ millis
  le_greatest : millis ≤ 9223372036854775807
deriving DecidableEq

namespace Timestamp

/-- The smallest event time. -/
def least : Timestamp := ⟨-9223372036854775808, by decide, by decide⟩

/-- The greatest event time, which a trigger that never fires gives as its guarantee. -/
def greatest : Timestamp := ⟨9223372036854775807, by decide, by decide⟩

/-- The event time nearest to `n`. -/
def clamp (n : Int) : Timestamp :=
  if hl : n < -9223372036854775808 then least
  else if hg : 9223372036854775807 < n then greatest
  else ⟨n, by omega, by omega⟩

/-- The event time at `n`, when `n` is in range. -/
def ofMillis? (n : Int) : Option Timestamp :=
  if h : -9223372036854775808 ≤ n ∧ n ≤ 9223372036854775807 then some ⟨n, h.1, h.2⟩ else none

/-- The event time `delta` milliseconds later, or the end of the range it would pass. -/
def shift (t : Timestamp) (delta : Int) : Timestamp := clamp (t.millis + delta)

theorem clamp_millis (n : Int) : (clamp n).millis =
    if n < -9223372036854775808 then -9223372036854775808
    else if 9223372036854775807 < n then 9223372036854775807 else n := by
  unfold clamp
  split
  · rfl
  · split <;> rfl

instance : LT Timestamp := ⟨fun a b => a.millis < b.millis⟩

instance : LE Timestamp := ⟨fun a b => a.millis ≤ b.millis⟩

theorem lt_iff {a b : Timestamp} : a < b ↔ a.millis < b.millis := Iff.rfl

theorem le_iff {a b : Timestamp} : a ≤ b ↔ a.millis ≤ b.millis := Iff.rfl

instance (a b : Timestamp) : Decidable (a < b) := inferInstanceAs (Decidable (a.millis < b.millis))

instance (a b : Timestamp) : Decidable (a ≤ b) := inferInstanceAs (Decidable (a.millis ≤ b.millis))

/-- Whether a later time has passed does not depend on where the range ends. -/
theorem shift_lt_iff {t now : Timestamp} {delta : Nat} :
    t.shift delta < now ↔ t.millis + delta < now.millis := by
  have hleast := t.least_le
  have hgreatest := now.le_greatest
  unfold shift
  rw [lt_iff, clamp_millis]
  split
  · omega
  · split <;> omega

/-- The earlier of two event times. -/
def earlier (a b : Timestamp) : Timestamp := if a ≤ b then a else b

/-- The later of two event times. -/
def later (a b : Timestamp) : Timestamp := if a ≤ b then b else a

instance : Ord Timestamp := ⟨compareOn millis⟩

instance : Std.TransOrd Timestamp :=
  inferInstanceAs (Std.TransCmp (compareOn (β := Int) millis))

instance : Std.LawfulEqOrd Timestamp where
  eq_of_compare h := Timestamp.ext (Std.LawfulEqOrd.eq_of_compare (α := Int) h)

theorem compare_eq_lt_iff {a b : Timestamp} : compare a b = .lt ↔ a < b := Int.compare_eq_lt

/-- The text of an event time, such as `42ms`. -/
def text (t : Timestamp) : String := toString t.millis ++ "ms"

end Timestamp

end PaneTriggers
