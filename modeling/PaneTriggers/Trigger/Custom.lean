import PaneTriggers.State.WindowState
import PaneTriggers.Trigger.Error

/-!
# Custom triggers

A custom trigger is a leaf that is supplied from outside. Its hooks run at a site, which is one
node of a tree in one window. They may read and write the state of the window and may ask for
timers of that window; what a hook did before it fails stays done. Deciding whether to fire only
reads.
-/

namespace PaneTriggers

/-- Why the timers of a domain are refused. -/
inductive Refusal where
  | unsupported
  | rejected (reason : String)
deriving DecidableEq

/-- The surroundings in which a tree is evaluated for one window. -/
structure Scope where
  window : Window
  /-- The watermark, once there is one. -/
  now : Option Timestamp
  /-- Whether windows of this kind can merge. -/
  merging : Bool
  /-- The domains whose timers are refused. -/
  refusal? : TimeDomain → Option Refusal := fun _ => none

/-- Whether the watermark is strictly past the last event time of the window. -/
def Scope.ended (s : Scope) : Bool := s.window.endedBy s.now

/-- The surroundings of one node. -/
structure Site extends Scope where
  position : Position

/-- A window that is being merged away, with its state. -/
structure MergeSource where
  window : Window
  state : WindowState
deriving DecidableEq

/-- What hooks change: the state of the window, and the timers asked for, in order. -/
structure Draft where
  state : WindowState
  timers : List (TimeDomain × Timestamp) := []
deriving DecidableEq

/-- A hook, or a step of one. -/
abbrev Hook := EStateM TriggerError Draft

namespace Site

variable (s : Site)

/-- Whether the node is done. -/
def finished : Hook Bool := return (← get).state.finished s.position

/-- The counter of the node. -/
def counter : Hook Counter := return (← get).state.counter s.position

/-- Marks the node as done or not done. -/
def setFinished (b : Bool) : Hook Unit :=
  modify fun d => { d with state := d.state.setFinished s.position b }

/-- Sets the counter of the node. -/
def setCounter (c : Counter) : Hook Unit :=
  modify fun d => { d with state := d.state.setCounter s.position c }

/-- Asks for a timer of the window. -/
def setTimer (domain : TimeDomain) (t : Timestamp) : Hook Unit :=
  match s.refusal? domain with
  | none => modify fun d => { d with timers := d.timers ++ [(domain, t)] }
  | some .unsupported => throw (.timer (.unsupportedDomain domain.name))
  | some (.rejected reason) => throw (.timer (.rejected s.window reason))

end Site

/-- The behaviour of custom triggers. -/
class CustomTrigger (κ : Type) where
  /-- The identity of a trigger. Triggers with one description are equal. -/
  describe : κ → String
  /-- Takes an element with its event time and all the windows it was assigned to. -/
  onElement : κ → Site → Timestamp → List Window → Hook Unit
  /-- Takes the merge of the sources into the window of the site, whose state is new. -/
  onMerge : κ → Site → List MergeSource → Hook Unit
  /-- Decides whether to fire. -/
  shouldFire : κ → Site → WindowState → Except TriggerError Bool
  /-- Fires, before the node is marked as done. -/
  onOnlyFiring : κ → Site → Hook Unit := fun _ _ => pure ()
  /-- The earliest watermark after which the trigger fires even without further elements. -/
  guarantee : κ → Window → Timestamp
  /-- The trigger for a later stage. -/
  continuation : κ → κ

/-- What a hook is called for, with its arguments. -/
inductive Occasion where
  | element (timestamp : Timestamp) (assigned : List Window)
  | merge (sources : List MergeSource)
  | query
  | onlyFiring

/-- A call of a hook: whose, where, on what occasion, and the state that it found. -/
structure Call (κ : Type) where
  trigger : κ
  site : Site
  occasion : Occasion
  state : WindowState

end PaneTriggers
