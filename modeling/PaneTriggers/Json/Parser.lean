import PaneTriggers.Json.Token

/-!
# Reading JSON

A text is read token by token against a stack of the arrays and objects that are still open.
Reading is strict: one value, no comma too many, no more than `maxDepth` arrays and objects inside
each other.
-/

namespace PaneTriggers.Json

/-- An array or object that is not closed yet, with what it holds so far in reverse. -/
inductive Open where
  | array (items : List Json)
  | object (fields : List (String × Json))
  /-- An object in which the value of `key` comes next. -/
  | field (fields : List (String × Json)) (key : String)

/-- What may come next. -/
inductive Focus where
  | value
  /-- A value or the end of the array just opened. -/
  | firstItem
  | key
  /-- A key or the end of the object just opened. -/
  | firstKey
  | colon (key : String)
  /-- The value is complete: a comma or the end of what surrounds it comes next. -/
  | complete (v : Json)

/-- How far a text has been read. -/
structure Reading where
  opened : List Open
  focus : Focus

namespace Reading

/-- How many arrays and objects may be open at once. -/
def maxDepth : Nat := 127

/-- Opens an array or object, unless too many are open. -/
def enter? (opened : List Open) (o : Open) (next : Focus) : Option Reading :=
  if opened.length < maxDepth then some ⟨o :: opened, next⟩ else none

/-- Starts a value at a token. -/
def start? (opened : List Open) : Token → Option Reading
  | .scalar v => some ⟨opened, .complete v⟩
  | .beginArray => enter? opened (.array []) .firstItem
  | .beginObject => enter? opened (.object []) .firstKey
  | _ => none

/-- Takes a token after a complete value. -/
def after? (opened : List Open) (v : Json) (t : Token) : Option Reading :=
  match opened, t with
  | .array items :: rest, .comma => some ⟨.array (v :: items) :: rest, .value⟩
  | .array items :: rest, .endArray => some ⟨rest, .complete (.arr (v :: items).reverse)⟩
  | .field fields key :: rest, .comma => some ⟨.object ((key, v) :: fields) :: rest, .key⟩
  | .field fields key :: rest, .endObject =>
    some ⟨rest, .complete (.obj ((key, v) :: fields).reverse)⟩
  | _, _ => none

/-- Takes one token. -/
def step? (r : Reading) (t : Token) : Option Reading :=
  match r.focus, r.opened, t with
  | .complete v, opened, t => after? opened v t
  | .firstItem, .array [] :: rest, .endArray => some ⟨rest, .complete (.arr [])⟩
  | .firstItem, opened, t => start? opened t
  | .value, opened, t => start? opened t
  | .firstKey, .object [] :: rest, .endObject => some ⟨rest, .complete (.obj [])⟩
  | .firstKey, opened, .scalar (.str key) => some ⟨opened, .colon key⟩
  | .key, opened, .scalar (.str key) => some ⟨opened, .colon key⟩
  | .colon key, .object fields :: rest, .colon => some ⟨.field fields key :: rest, .value⟩
  | _, _, _ => none

/-- The value, when everything is closed. -/
def result? : Reading → Option Json
  | ⟨[], .complete v⟩ => some v
  | _ => none

end Reading

/-- The value that a text stands for. -/
def parse? (s : String) : Option Json := do
  let ts ← Mode.between.tokens? s.toList
  let r ← ts.foldlM Reading.step? ⟨[], .value⟩
  r.result?

end PaneTriggers.Json
