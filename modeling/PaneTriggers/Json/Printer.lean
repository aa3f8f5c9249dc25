import PaneTriggers.Json.Value

/-!
# Printing JSON

The compact text of a value: no space, fields in their order, and inside strings only the quote,
the backslash and the characters below the space escaped, the latter by their short form where
there is one and otherwise as four lowercase hexadecimal digits.
-/

namespace PaneTriggers.Json

/-- A character as it is written inside a string. -/
def escape (c : Char) : List Char :=
  if c = '"' then ['\\', '"']
  else if c = '\\' then ['\\', '\\']
  else if c = '\x08' then ['\\', 'b']
  else if c = '\x0c' then ['\\', 'f']
  else if c = '\n' then ['\\', 'n']
  else if c = '\r' then ['\\', 'r']
  else if c = '\t' then ['\\', 't']
  else if c.toNat < 32 then
    ['\\', 'u', '0', '0', Nat.digitChar (c.toNat / 16), Nat.digitChar (c.toNat % 16)]
  else [c]

/-- A string with its quotes. -/
def quote (s : String) : List Char := '"' :: (s.toList.flatMap escape ++ ['"'])

/-- A whole number in decimal digits. -/
def digits : Int → List Char
  | .ofNat n => Nat.toDigits 10 n
  | .negSucc n => '-' :: Nat.toDigits 10 (n + 1)

mutual

/-- The compact text of a value. -/
def render : Json → List Char
  | null => ['n', 'u', 'l', 'l']
  | bool true => ['t', 'r', 'u', 'e']
  | bool false => ['f', 'a', 'l', 's', 'e']
  | int n => digits n
  | real literal => literal.toList
  | str s => quote s
  | arr items => '[' :: (renderItems items ++ [']'])
  | obj fields => '\x7b' :: (renderFields fields ++ ['\x7d'])

/-- The items of an array, with commas between them. -/
def renderItems : List Json → List Char
  | [] => []
  | [v] => render v
  | v :: rest => render v ++ ',' :: renderItems rest

/-- The fields of an object, with commas between them. -/
def renderFields : List (String × Json) → List Char
  | [] => []
  | [(k, v)] => quote k ++ ':' :: render v
  | (k, v) :: rest => quote k ++ ':' :: (render v ++ ',' :: renderFields rest)

end

/-- The compact text of a value. -/
def text (v : Json) : String := String.ofList v.render

end PaneTriggers.Json
