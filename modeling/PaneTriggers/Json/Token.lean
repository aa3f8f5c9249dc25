import PaneTriggers.Json.Numeral

/-!
# JSON tokens

A text is cut into tokens by a scanner that reads one character at a time. Between tokens stand
spaces, tabs and line ends. A word, which is a literal or a number, goes on up to the next blank,
quote or punctuation mark. A string ends at the next quote that is not escaped; it holds no
character below the space, and its `\u` escapes are UTF-16 units, in which a high surrogate must
be followed by a low one.
-/

namespace PaneTriggers.Json

/-- A punctuation mark or a value that is neither array nor object. -/
inductive Token where
  | beginArray
  | endArray
  | beginObject
  | endObject
  | comma
  | colon
  | scalar (v : Json)

/-- What the scanner is inside of. Characters read so far are kept in reverse. -/
inductive Mode where
  | between
  | word (read : List Char)
  | string (read : List Char)
  /-- After a backslash. -/
  | escaped (read : List Char)
  /-- Among the digits of a UTF-16 unit, with the high surrogate before it, if any. -/
  | unit (read : List Char) (high : Option Nat) (count value : Nat)
  /-- After a high surrogate. -/
  | pair (read : List Char) (high : Nat)
  /-- After a high surrogate and a backslash. -/
  | pairEscaped (read : List Char) (high : Nat)

namespace Token

/-- The characters that may stand between tokens. -/
def isBlank (c : Char) : Bool := c == ' ' || c == '\t' || c == '\n' || c == '\r'

/-- The punctuation mark at a character. -/
def mark? (c : Char) : Option Token :=
  if c = '[' then some beginArray
  else if c = ']' then some endArray
  else if c = '\x7b' then some beginObject
  else if c = '\x7d' then some endObject
  else if c = ',' then some comma
  else if c = ':' then some colon
  else none

/-- The value that a word stands for. -/
def ofWord? (cs : List Char) : Option Token :=
  if cs = ['n', 'u', 'l', 'l'] then some (scalar .null)
  else if cs = ['t', 'r', 'u', 'e'] then some (scalar (.bool true))
  else if cs = ['f', 'a', 'l', 's', 'e'] then some (scalar (.bool false))
  else (number? cs).map scalar

/-- The character that a letter after a backslash stands for. -/
def unescape? (c : Char) : Option Char :=
  if c = '"' ∨ c = '\\' ∨ c = '/' then some c
  else if c = 'b' then some '\x08'
  else if c = 'f' then some '\x0c'
  else if c = 'n' then some '\n'
  else if c = 'r' then some '\r'
  else if c = 't' then some '\t'
  else none

/-- The value of a hexadecimal digit. -/
def hex? (c : Char) : Option Nat :=
  if '0' ≤ c ∧ c ≤ '9' then some (c.toNat - '0'.toNat)
  else if 'a' ≤ c ∧ c ≤ 'f' then some (c.toNat - 'a'.toNat + 10)
  else if 'A' ≤ c ∧ c ≤ 'F' then some (c.toNat - 'A'.toNat + 10)
  else none

end Token

namespace Mode

open Token

/-- The mode after a complete UTF-16 unit. -/
def ofUnit? (read : List Char) (high : Option Nat) (u : Nat) : Option Mode :=
  let isHigh := 0xD800 ≤ u ∧ u < 0xDC00
  let isLow := 0xDC00 ≤ u ∧ u < 0xE000
  match high with
  | none =>
    if isHigh then some (pair read u)
    else if isLow then none
    else some (string (Char.ofNat u :: read))
  | some h =>
    if isLow then
      some (string (Char.ofNat (0x10000 + (h - 0xD800) * 0x400 + (u - 0xDC00)) :: read))
    else none

/-- What a character between tokens starts or is. -/
def start (c : Char) : List Token × Mode :=
  if isBlank c then ([], between)
  else if c = '"' then ([], string [])
  else match mark? c with
    | some t => ([t], between)
    | none => ([], word [c])

/-- Whether a character ends the word before it. -/
def endsWord (c : Char) : Bool := isBlank c || c == '"' || (mark? c).isSome

/-- Reads one character: the tokens that it completes and the mode that follows. -/
def step? (m : Mode) (c : Char) : Option (List Token × Mode) :=
  match m with
  | between => some (start c)
  | word read =>
    if endsWord c then do
      let t ← ofWord? read.reverse
      let (ts, next) := start c
      return (t :: ts, next)
    else some ([], word (c :: read))
  | string read =>
    if c = '"' then some ([scalar (.str (String.ofList read.reverse))], between)
    else if c = '\\' then some ([], escaped read)
    else if c.toNat < 32 then none
    else some ([], string (c :: read))
  | escaped read =>
    if c = 'u' then some ([], unit read none 0 0)
    else (unescape? c).map fun d => ([], string (d :: read))
  | unit read high count value => do
    let d ← hex? c
    if count < 3 then return ([], unit read high (count + 1) (value * 16 + d))
    else return ([], ← ofUnit? read high (value * 16 + d))
  | pair read high => if c = '\\' then some ([], pairEscaped read high) else none
  | pairEscaped read high => if c = 'u' then some ([], unit read (some high) 0 0) else none

/-- The tokens that are complete when the text ends. -/
def finish? : Mode → Option (List Token)
  | between => some []
  | word read => (ofWord? read.reverse).map fun t => [t]
  | _ => none

/-- The tokens of a text that is entered in the mode `m`. -/
def tokens? (m : Mode) : List Char → Option (List Token)
  | [] => m.finish?
  | c :: cs => do
    let (ts, next) ← m.step? c
    let rest ← next.tokens? cs
    return ts ++ rest

end Mode

end PaneTriggers.Json
