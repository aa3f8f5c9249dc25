/-!
# Counters

A counter is a natural number that fits 64 bits. Adding to one stops at the greatest counter.
-/

namespace PaneTriggers

/-- A count that stops at the greatest number of 64 bits. -/
@[ext] structure Counter where
  toNat : Nat
  le_greatest : toNat ≤ 18446744073709551615
deriving DecidableEq

namespace Counter

instance : OfNat Counter 0 := ⟨⟨0, by decide⟩⟩

/-- The counter nearest to `n`. -/
def clamp (n : Nat) : Counter :=
  if h : n ≤ 18446744073709551615 then ⟨n, h⟩ else ⟨18446744073709551615, by decide⟩

/-- The counter at `n`, when `n` is in range. -/
def ofNat? (n : Nat) : Option Counter :=
  if h : n ≤ 18446744073709551615 then some ⟨n, h⟩ else none

/-- The sum of two counters, or the greatest counter. -/
def add (a b : Counter) : Counter := clamp (a.toNat + b.toNat)

/-- The counter one higher, if there is one. -/
def next (a : Counter) : Counter := clamp (a.toNat + 1)

/-- The sum of all the counters, or the greatest counter. -/
def sum (cs : List Counter) : Counter := cs.foldl add 0

@[simp] theorem toNat_zero : (0 : Counter).toNat = 0 := rfl

theorem toNat_clamp (n : Nat) : (clamp n).toNat =
    if n ≤ 18446744073709551615 then n else 18446744073709551615 := by
  unfold clamp
  split <;> rfl

end Counter

end PaneTriggers
