import PaneTriggers.State.Position
import PaneTriggers.Timer.Basic

/-!
# Failures of triggers
-/

namespace PaneTriggers

/-- Why an operation on a trigger tree failed. -/
inductive TriggerError where
  | allSubTriggersFinished (position : Position)
  | noSuchSubTrigger (position : Position) (index : Nat)
  | unsupported (operation : String)
  | timer (e : TimerError)
  | external (trigger reason : String)
deriving DecidableEq

/-- The text of a failure. -/
def TriggerError.message : TriggerError → String
  | allSubTriggersFinished p => "every sub-trigger of node " ++ p.text ++ " is finished"
  | noSuchSubTrigger p i => "node " ++ p.text ++ " has no sub-trigger at index " ++ toString i
  | unsupported operation => "unsupported trigger operation: " ++ operation
  | timer e => e.message
  | external trigger reason => "trigger " ++ trigger ++ " failed: " ++ reason

end PaneTriggers
