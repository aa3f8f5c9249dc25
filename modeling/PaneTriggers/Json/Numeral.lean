import PaneTriggers.Json.Value

/-!
# JSON numbers

A numeral is an optional minus sign, digits without a leading zero, an optional fraction and an
optional exponent. Without fraction and exponent it is a whole number if a 64-bit word holds it.
Any other numeral stands for the double that it is near to and is refused if that double is
infinite: the leading digits that fit a 64-bit word are rounded to 53 bits, and so is the power of
ten.
-/

namespace PaneTriggers.Json

/-- The parts of a written number. The digits are values from 0 to 9. -/
structure Numeral where
  negative : Bool
  whole : List Nat
  fraction : List Nat
  exponent : Option Int

namespace Numeral

/-- The values of the digits that `cs` starts with, and what follows them. -/
def digits (cs : List Char) : List Nat × List Char :=
  ((cs.takeWhile Char.isDigit).map fun c => c.toNat - '0'.toNat, cs.dropWhile Char.isDigit)

/-- The number that decimal digits stand for. -/
def value (ds : List Nat) : Nat := ds.foldl (fun n d => n * 10 + d) 0

/-- The digits before the point: one digit, or several that do not start with zero. -/
def whole? (cs : List Char) : Option (List Nat × List Char) :=
  match digits cs with
  | ([], _) => none
  | (0 :: _ :: _, _) => none
  | read => some read

/-- The digits after the point, if there is a point. -/
def fraction? : List Char → Option (List Nat × List Char)
  | '.' :: cs =>
    match digits cs with
    | ([], _) => none
    | read => some read
  | cs => some ([], cs)

/-- The digits of an exponent after its sign, up to the end of the numeral. -/
def power? (cs : List Char) : Option Nat :=
  match digits cs with
  | ([], _) => none
  | (ds, []) => some (value ds)
  | _ => none

/-- The exponent, if there is one, up to the end of the numeral. -/
def exponent? : List Char → Option (Option Int)
  | [] => some none
  | c :: cs =>
    if c = 'e' ∨ c = 'E' then
      match cs with
      | '+' :: ds => (power? ds).map fun n => some n
      | '-' :: ds => (power? ds).map fun n => some (-n)
      | ds => (power? ds).map fun n => some n
    else none

/-- Reads a numeral that takes up all of `cs`. -/
def ofChars? (cs : List Char) : Option Numeral := do
  let (negative, cs) := match cs with
    | '-' :: rest => (true, rest)
    | _ => (false, cs)
  let (whole, cs) ← whole? cs
  let (fraction, cs) ← fraction? cs
  let exponent ← exponent? cs
  return ⟨negative, whole, fraction, exponent⟩

/-- The whole number, if the numeral is one and a 64-bit word holds it. Minus zero is none. -/
def int? (n : Numeral) : Option Int :=
  if n.fraction.isEmpty && n.exponent.isNone then
    let m := value n.whole
    if n.negative then
      if 0 < m ∧ m ≤ 9223372036854775808 then some (-m) else none
    else if m ≤ 18446744073709551615 then some m else none
  else none

/-- Appends digits to `m` as long as a 64-bit word holds the result, and returns the others. -/
def absorb (m : Nat) : List Nat → Nat × List Nat
  | [] => (m, [])
  | d :: ds =>
    if m * 10 + d ≤ 18446744073709551615 then absorb (m * 10 + d) ds else (m, d :: ds)

/-- The multiple of a power of two nearest to `m` that has at most 53 significant bits; of two,
the one with an even significand. -/
def round53 (m : Nat) : Nat :=
  let unit := Nat.pow 2 (Nat.log2 m + 1 - 53)
  let q := m / unit
  let r := m % unit
  if unit < 2 * r ∨ (2 * r = unit ∧ q % 2 = 1) then (q + 1) * unit else q * unit

/-- Whether the double nearest to the numeral is infinite. -/
def overflows (n : Numeral) : Bool :=
  let (m, left) := absorb 0 n.whole
  let (m, unread) := absorb m n.fraction
  let scale : Int := left.length - (n.fraction.length - unread.length) + n.exponent.getD 0
  m != 0 && decide (0 ≤ scale) &&
    (decide (308 < scale) ||
      decide (Nat.pow 2 1024 - Nat.pow 2 970 ≤ round53 m * round53 (Nat.pow 10 scale.toNat)))

end Numeral

/-- The number written as `cs`. -/
def number? (cs : List Char) : Option Json := do
  let n ← Numeral.ofChars? cs
  match n.int? with
  | some m => some (int m)
  | none => if n.overflows then none else some (real (String.ofList cs))

end PaneTriggers.Json
