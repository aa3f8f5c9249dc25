import PaneTriggers.Json.Value
import PaneTriggers.Trigger.Basic

/-!
# Configuring trigger trees

A trigger document names a kind of trigger and its parts. It is an object with the field `kind`,
or the array of the kind and the parts in order; what is left out or null is absent. Below the
top, a kind may be given by its number.

`TriggerConfig.compile` resolves the custom names of a document. Only triggers that fire at most
once per arming can be early or late; of two faults the one in the early trigger is reported.
-/

namespace PaneTriggers

/-- What is wrong with a configuration. -/
inductive ConfigError where
  /-- The document has the wrong shape. -/
  | malformed
  /-- The runner's document is not an object. -/
  | notAnObject
  | negativeLateness
  | unknownCustomTrigger (name : String)
  | notSingleFiring (role : String)
deriving DecidableEq

/-- The text of a configuration error. -/
def ConfigError.message : ConfigError → String
  | malformed => "invalid configuration: unexpected shape"
  | notAnObject => "invalid configuration: runner config must be a JSON object"
  | negativeLateness => "invalid configuration: allowed_lateness_ms must not be negative"
  | unknownCustomTrigger name => "unknown custom trigger '" ++ name ++ "'"
  | notSingleFiring role =>
    role ++ " trigger must fire at most once per arming, got 'after_watermark'"

/-- A trigger document. -/
inductive TriggerConfig where
  | endOfWindow
  | never
  | custom (name : String)
  | afterWatermark (early late : Option TriggerConfig)

/-- The kinds of trigger documents, in the order of their numbers. -/
inductive TriggerKind where
  | endOfWindow
  | never
  | custom
  | afterWatermark

namespace TriggerKind

/-- The kind with a name. -/
def ofName? (s : String) : Option TriggerKind :=
  if s = "end_of_window" then some endOfWindow
  else if s = "never" then some never
  else if s = "custom" then some custom
  else if s = "after_watermark" then some afterWatermark
  else none

/-- Reads a kind. Numbers are taken only below the top of a document. -/
def ofJson? (top : Bool) : Json → Option TriggerKind
  | .str s => ofName? s
  | .int n =>
    if top then none
    else if n = 0 then some endOfWindow
    else if n = 1 then some never
    else if n = 2 then some custom
    else if n = 3 then some afterWatermark
    else none
  | _ => none

end TriggerKind

namespace TriggerConfig

/-- What was read from a part that may be null. -/
def unlessNull (v : Json) (read : Option TriggerConfig) : Option (Option TriggerConfig) :=
  match v with
  | .null => some none
  | _ => read.map some

mutual

/-- Reads a trigger document. -/
def ofJson? (top : Bool) : Json → Option TriggerConfig
  | .obj fields => do
    match ← TriggerKind.ofJson? top (← Json.lookup "kind" fields) with
    | .endOfWindow => return endOfWindow
    | .never => return never
    | .custom => return custom (← (← Json.lookup "name" fields).str?)
    | .afterWatermark => return afterWatermark (← part? "early" fields) (← part? "late" fields)
  | .arr [kind] => do
    match ← TriggerKind.ofJson? top kind with
    | .endOfWindow => return endOfWindow
    | .never => return never
    | .custom => none
    | .afterWatermark => return afterWatermark none none
  | .arr [kind, first] => do
    match ← TriggerKind.ofJson? top kind with
    | .custom => return custom (← first.str?)
    | .afterWatermark => return afterWatermark (← unlessNull first (ofJson? false first)) none
    | _ => none
  | .arr [kind, first, second] => do
    match ← TriggerKind.ofJson? top kind with
    | .afterWatermark =>
      return afterWatermark (← unlessNull first (ofJson? false first))
        (← unlessNull second (ofJson? false second))
    | _ => none
  | _ => none

/-- Reads the part of a document in the last field with a key. -/
def part? (key : String) : List (String × Json) → Option (Option TriggerConfig)
  | [] => some none
  | (k, v) :: rest =>
    if (Json.lookup key rest).isSome then part? key rest
    else if k = key then unlessNull v (ofJson? false v)
    else some none

end

variable {κ : Type}

/-- Compiles a document that has to fire at most once per arming. -/
def compileOnce (registry : String → Option κ) (role : String) :
    TriggerConfig → Except ConfigError (OnceTrigger κ)
  | endOfWindow => .ok .endOfWindow
  | never => .ok .never
  | custom name =>
    match registry name with
    | some k => .ok (.custom k)
    | none => .error (.unknownCustomTrigger name)
  | afterWatermark _ _ => .error (.notSingleFiring role)

/-- Compiles a part that may be absent. -/
def compilePart (registry : String → Option κ) (role : String) :
    Option TriggerConfig → Except ConfigError (Option (OnceTrigger κ))
  | none => .ok none
  | some c => (c.compileOnce registry role).map some

/-- The tree with the given early and late triggers, if any. Late firings alone come with an early
trigger that never fires. -/
def combine : Option (OnceTrigger κ) → Option (OnceTrigger κ) → Trigger κ
  | none, none => .once .endOfWindow
  | none, some late => .earlyAndLate ⟨.never, some late⟩
  | some early, late => .earlyAndLate ⟨early, late⟩

/-- The tree that a document describes. -/
def compile (registry : String → Option κ) : TriggerConfig → Except ConfigError (Trigger κ)
  | afterWatermark early late => do
    let early ← compilePart registry "early" early
    let late ← compilePart registry "late" late
    return combine early late
  | c => (c.compileOnce registry "root").map .once

end TriggerConfig

end PaneTriggers
