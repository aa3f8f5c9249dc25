/-!
# JSON values

A JSON value as it is read from a text. Numbers are split by what the readers of documents accept:
a number written without fraction and exponent is an `int`, any other is a `real` and is never
taken for a whole number. An object keeps its fields as written; where a key is repeated, the last
field with that key counts.
-/

namespace PaneTriggers

/-- A JSON value. -/
inductive Json where
  | null
  | bool (b : Bool)
  | int (n : Int)
  /-- A number with a fraction or an exponent, or a whole number out of range, as written. -/
  | real (literal : String)
  | str (s : String)
  | arr (items : List Json)
  | obj (fields : List (String × Json))

namespace Json

/-- The value that counts for `key` in a list of fields: the last one. -/
def lookup (key : String) : List (String × Json) → Option Json
  | [] => none
  | (k, v) :: rest => (lookup key rest).or (if k = key then some v else none)

/-- The value of the field `key` of an object. -/
def get? (v : Json) (key : String) : Option Json :=
  match v with
  | obj fields => lookup key fields
  | _ => none

/-- The truth value. -/
def bool? : Json → Option Bool
  | bool b => some b
  | _ => none

/-- The whole number. -/
def int? : Json → Option Int
  | int n => some n
  | _ => none

/-- The whole number, if it is natural and at most `greatest`. -/
def natUpTo? (greatest : Nat) (v : Json) : Option Nat :=
  v.int?.bind fun n => if 0 ≤ n ∧ n ≤ greatest then some n.toNat else none

/-- The whole number, if it is natural and fits 64 bits. -/
def word? (v : Json) : Option Nat := v.natUpTo? 18446744073709551615

/-- The string. -/
def str? : Json → Option String
  | str s => some s
  | _ => none

/-- The items of an array. -/
def items? : Json → Option (List Json)
  | arr items => some items
  | _ => none

/-- The value of each of the named fields of an object, or the items of an array that has as many.
-/
def record? (keys : List String) : Json → Option (List Json)
  | obj fields => keys.mapM fun key => lookup key fields
  | arr items => if items.length = keys.length then some items else none
  | _ => none

end Json

end PaneTriggers
