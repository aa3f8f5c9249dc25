import PaneTriggers.Trigger.Custom

/-!
# Scripted counting triggers

A custom trigger that counts elements and is ready once it has counted enough. What its hooks do
beyond that, and when they fail, is written down in its script, so that a tree can be tried out
under every kind of custom behaviour.
-/

namespace PaneTriggers

/-- When a scripted trigger is ready. -/
inductive Readiness where
  /-- Once the counter has reached the threshold. -/
  | count
  | always
  | never
  /-- At the end of the window. -/
  | endOfWindow
deriving DecidableEq

/-- The hooks of a custom trigger. -/
inductive HookName where
  | onElement
  | onMerge
  | shouldFire
  | onOnlyFiring
deriving DecidableEq

/-- How a scripted hook fails. -/
inductive ScriptedFailure where
  | unsupported
  | refusedTimer
  | missingSubTrigger
  | noUnfinishedSubTrigger
  | external (reason : String)
deriving DecidableEq

/-- What the time of a scripted timer is counted from. -/
inductive TimerBase where
  | zero
  /-- The element's event time; zero in the hooks that take no element. -/
  | element
  /-- The last event time of the window. -/
  | endOfWindow
deriving DecidableEq

/-- A timer that a scripted hook asks for. -/
structure ScriptedTimer where
  hook : HookName
  domain : TimeDomain
  base : TimerBase
  offset : Int
deriving DecidableEq

/-- A counting trigger and the script of its hooks. -/
structure ScriptedTrigger where
  threshold : Counter := Counter.clamp 1
  label : Option String := none
  readiness : Readiness := .count
  /-- Whether its calls are shown in traces. -/
  traced : Bool := false
  failures : List (HookName × ScriptedFailure) := []
  /-- The count from which on the failures happen. -/
  failFrom : Counter := 0
  timers : List ScriptedTimer := []
  /-- How far the guarantee is from the last event time of the window. -/
  guaranteeOffset : Option Int := none
  /-- What a firing sets the counter to. -/
  counterOnFire : Option Counter := none
  finishOnElement : Bool := false
deriving DecidableEq

namespace ScriptedTrigger

/-- The label, or the text that names the threshold. -/
def description (k : ScriptedTrigger) : String :=
  k.label.getD ("AfterCount(" ++ toString k.threshold.toNat ++ ")")

/-- The error that a failure shows at a site. -/
def error (k : ScriptedTrigger) (s : Site) : ScriptedFailure → TriggerError
  | .unsupported => .unsupported "probe"
  | .refusedTimer => .timer (.unsupportedDomain "PROBE")
  | .missingSubTrigger => .noSuchSubTrigger s.position 0
  | .noUnfinishedSubTrigger => .allSubTriggersFinished s.position
  | .external reason => .external k.description reason

/-- The error of a hook that is called in the state `w`, if the script has it fail. -/
def failure? (k : ScriptedTrigger) (s : Site) (h : HookName) (w : WindowState) :
    Option TriggerError :=
  if k.failFrom.toNat ≤ (w.counter s.position).toNat then (k.failures.lookup h).map (k.error s)
  else none

/-- Fails where the script says so. -/
def failIfScripted (k : ScriptedTrigger) (s : Site) (h : HookName) : Hook Unit := do
  match k.failure? s h (← get).state with
  | some e => throw e
  | none => pure ()

/-- Asks for the timers of a hook, up to the first that is refused. -/
def setTimers (k : ScriptedTrigger) (s : Site) (h : HookName) (element : Timestamp) : Hook Unit :=
  (k.timers.filter fun t => decide (t.hook = h)).forM fun t =>
    let base := match t.base with
      | .zero => Timestamp.clamp 0
      | .element => element
      | .endOfWindow => s.window.maxTimestamp
    s.setTimer t.domain (base.shift t.offset)

/-- Counts the element. -/
def onElement (k : ScriptedTrigger) (s : Site) (t : Timestamp) : Hook Unit := do
  k.failIfScripted s .onElement
  s.setCounter (← s.counter).next
  if k.finishOnElement then s.setFinished true
  k.setTimers s .onElement t

/-- Takes over the counts of the sources. -/
def onMerge (k : ScriptedTrigger) (s : Site) (sources : List MergeSource) : Hook Unit := do
  k.failIfScripted s .onMerge
  s.setCounter (Counter.sum (sources.map fun m => m.state.counter s.position))
  k.setTimers s .onMerge (Timestamp.clamp 0)

/-- Whether the trigger is ready. -/
def isReady (k : ScriptedTrigger) (s : Site) (w : WindowState) : Bool :=
  match k.readiness with
  | .count => decide (k.threshold.toNat ≤ (w.counter s.position).toNat)
  | .always => true
  | .never => false
  | .endOfWindow => s.ended

/-- Fires. -/
def onOnlyFiring (k : ScriptedTrigger) (s : Site) : Hook Unit := do
  k.failIfScripted s .onOnlyFiring
  match k.counterOnFire with
  | some c => s.setCounter c
  | none => pure ()
  k.setTimers s .onOnlyFiring (Timestamp.clamp 0)

instance : CustomTrigger ScriptedTrigger where
  describe := description
  onElement k s t _ := k.onElement s t
  onMerge := onMerge
  shouldFire k s w :=
    match k.failure? s .shouldFire w with
    | some e => .error e
    | none => .ok (k.isReady s w)
  onOnlyFiring := onOnlyFiring
  guarantee k w :=
    match k.guaranteeOffset with
    | some offset => w.maxTimestamp.shift offset
    | none => .greatest
  continuation k := { k with threshold := Counter.clamp 1 }

end ScriptedTrigger

end PaneTriggers
