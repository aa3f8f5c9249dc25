import PaneTriggers.Log.Rotating
import PaneTriggers.Trigger.Config

/-!
# Configuring a runner

A runner's document is an object with four optional fields and no others. A field of the wrong
type is reported before a negative lateness.
-/

namespace PaneTriggers

/-- The settings of a runner. -/
structure RunnerConfig where
  /-- Windows can merge. -/
  supportsMerging : Bool := false
  /-- How many milliseconds past the guarantee of a window its elements are still taken. -/
  allowedLateness : Nat := 0
  logLevel : LogLevel := .info
  logRotation : RotationPolicy := {}
deriving DecidableEq

namespace RunnerConfig

/-- The greatest lateness that a document can ask for. -/
def maxLateness : Nat := 9223372036854775807

/-- The settings with windows that can or cannot merge. -/
def withMerging (c : RunnerConfig) (b : Bool) : RunnerConfig := { c with supportsMerging := b }

/-- The settings with another lateness, or the greatest. -/
def withAllowedLateness (c : RunnerConfig) (n : Nat) : RunnerConfig :=
  { c with allowedLateness := if n ≤ maxLateness then n else maxLateness }

/-- The settings with another log level. -/
def withLogLevel (c : RunnerConfig) (l : LogLevel) : RunnerConfig := { c with logLevel := l }

/-- Reads a log level: its name, or an object with its name as only key and null as value. -/
def levelOfJson? : Json → Option LogLevel
  | .str s => LogLevel.ofConfigName? s
  | .obj fields =>
    match (fields.map Prod.fst).eraseDups with
    | [key] =>
      match Json.lookup key fields with
      | some .null => LogLevel.ofConfigName? key
      | _ => none
    | _ => none
  | _ => none

/-- Reads a rotation policy. -/
def rotationOfJson? (v : Json) : Option RotationPolicy :=
  match v.record? ["max_bytes", "max_files"] with
  | some [bytes, files] => do
    return ⟨← bytes.word?, ← files.word?⟩
  | _ => none

/-- Reads a lateness, which may still be negative. -/
def latenessOfJson? (v : Json) : Option Int :=
  v.int?.bind fun n =>
    if -9223372036854775808 ≤ n ∧ n ≤ 9223372036854775807 then some n else none

/-- Reads the field with a key, or takes the default where there is none. -/
def field? {α : Type} (fields : List (String × Json)) (key : String) (default : α)
    (read? : Json → Option α) : Option α :=
  match Json.lookup key fields with
  | none => some default
  | some v => read? v

/-- The keys of the document. -/
def keys : List String := ["supports_merging", "allowed_lateness_ms", "log_level", "log_rotation"]

/-- Reads the four fields. The lateness may still be negative and is given apart. -/
def ofFields? (fields : List (String × Json)) : Option (RunnerConfig × Int) :=
  if fields.all fun f => f.1 ∈ keys then do
    let d : RunnerConfig := {}
    let merging ← field? fields "supports_merging" d.supportsMerging Json.bool?
    let lateness ← field? fields "allowed_lateness_ms" (d.allowedLateness : Int) latenessOfJson?
    let level ← field? fields "log_level" d.logLevel levelOfJson?
    let rotation ← field? fields "log_rotation" d.logRotation rotationOfJson?
    return (⟨merging, lateness.toNat, level, rotation⟩, lateness)
  else none

/-- Reads the settings of a runner. -/
def ofJson : Json → Except ConfigError RunnerConfig
  | .obj fields =>
    match ofFields? fields with
    | none => .error .malformed
    | some (c, lateness) => if lateness < 0 then .error .negativeLateness else .ok c
  | _ => .error .notAnObject

end RunnerConfig

end PaneTriggers
