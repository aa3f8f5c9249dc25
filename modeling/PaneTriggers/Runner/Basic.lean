import PaneTriggers.Runner.Config
import PaneTriggers.Store.Basic
import PaneTriggers.Timer.Queue
import PaneTriggers.Trigger.Evaluation

/-!
# The runner

A runner applies the events of one key to a trigger tree. It owns the watermark, the timers, the
store and the set of active windows. An operation loads the state of a window, evaluates the tree
on it and saves it. A failure ends the operation; what was done before it stays, except that a
state which was not saved is lost.
-/

namespace PaneTriggers

/-- Why an operation of a runner failed. -/
inductive RunnerError where
  | trigger (e : TriggerError)
  | store (e : StoreError)
deriving DecidableEq

/-- The text of a failure. -/
def RunnerError.message : RunnerError → String
  | trigger e => e.message
  | store e => e.message

/-- Why an element was not handed to the tree. -/
inductive DropReason where
  | windowClosed
  | pastAllowedLateness
deriving DecidableEq

/-- The name of a reason. -/
def DropReason.name : DropReason → String
  | windowClosed => "WINDOW_CLOSED"
  | pastAllowedLateness => "PAST_ALLOWED_LATENESS"

/-- What a runner has counted. -/
structure Telemetry where
  elements : Nat := 0
  merges : Nat := 0
  firings : Nat := 0
  closed : Nat := 0
  collected : Nat := 0
  droppedClosed : Nat := 0
  droppedLate : Nat := 0
deriving DecidableEq

namespace Telemetry

/-- How many elements were dropped for a reason. -/
def dropped (t : Telemetry) : DropReason → Nat
  | .windowClosed => t.droppedClosed
  | .pastAllowedLateness => t.droppedLate

/-- Counts a dropped element. -/
def countDrop (t : Telemetry) : DropReason → Telemetry
  | .windowClosed => { t with droppedClosed := t.droppedClosed + 1 }
  | .pastAllowedLateness => { t with droppedLate := t.droppedLate + 1 }

end Telemetry

/-- A trigger tree with all that varies for one key. -/
structure Runner (κ σ : Type) where
  root : Node κ
  store : σ
  timers : TimerQueue := .empty
  watermark : Option Timestamp := none
  supportsMerging : Bool
  allowedLateness : Nat
  /-- The windows that hold live state. -/
  active : Std.ExtTreeSet Window := ∅
  log : RotatingLog
  telemetry : Telemetry := {}
  /-- Every call of a custom hook so far. -/
  calls : List (Call κ) := []

/-- An operation of a runner. -/
abbrev RunnerM (κ σ : Type) := EStateM RunnerError (Runner κ σ)

namespace Runner

variable {κ σ : Type}

/-- A runner at the start, over a store that may hold states already. -/
def start (t : Trigger κ) (c : RunnerConfig) (store : σ) : Runner κ σ where
  root := .root t
  store := store
  supportsMerging := c.supportsMerging
  allowedLateness := c.allowedLateness
  log := { policy := c.logRotation, level := c.logLevel }

/-- The surroundings in which the tree is evaluated for a window. -/
def scope (r : Runner κ σ) (w : Window) : Scope where
  window := w
  now := r.watermark
  merging := r.supportsMerging

/-- Whether the root is done in a state. A window whose root is done is closed and never fires. -/
def closedIn (r : Runner κ σ) (s : WindowState) : Bool := s.finished r.root.position

/-- The source that runners give in log records. -/
def logSource : String := "watermark_triggers::runner"

/-- Writes a log record about a window. -/
def logged (r : Runner κ σ) (level : LogLevel) (w : Window) (message : String) : Runner κ σ :=
  { r with log := r.log.log ⟨r.watermark, level, logSource, w, message⟩ }

/-- Sets timers of a window. -/
def withTimers (r : Runner κ σ) (w : Window) (ts : List (TimeDomain × Timestamp)) : Runner κ σ :=
  { r with timers := r.timers.insertAll (ts.map fun t => ⟨t.1, t.2, w⟩) }

section Steps

/-- Uses the store. -/
def usingStore {α : Type} (act : EStateM StoreError σ α) : RunnerM κ σ α := fun r =>
  match act r.store with
  | .ok a s => .ok a { r with store := s }
  | .error e s => .error (.store e) { r with store := s }

/-- Evaluates the tree for a window on a state and returns the new state. The timers asked for are
set and the calls recorded even if the evaluation fails. -/
def evaluating (w : Window) (s : WindowState) (act : Scope → Node κ → Eval κ Unit) :
    RunnerM κ σ WindowState := fun r =>
  match act (r.scope w) r.root { state := s } with
  | .ok () p => .ok p.state { r.withTimers w p.timers with calls := r.calls ++ p.calls }
  | .error e p => .error (.trigger e) { r.withTimers w p.timers with calls := r.calls ++ p.calls }

variable [StateStore σ]

/-- The state of a window in the store. -/
def windowState (w : Window) : RunnerM κ σ WindowState := usingStore (StateStore.load w)

/-- Whether a window is closed. -/
def isClosed (w : Window) : RunnerM κ σ Bool := do
  let s ← windowState w
  return (← get).closedIn s

end Steps

variable [CustomTrigger κ]

/-- The earliest watermark after which a window fires even without further elements. -/
def guarantee (r : Runner κ σ) (w : Window) : Timestamp := r.root.trigger.guarantee w

/-- Whether the watermark is past the guarantee of a window and the allowed lateness. -/
def expired (r : Runner κ σ) (w : Window) : Bool :=
  match r.watermark with
  | none => false
  | some now => decide ((r.guarantee w).shift r.allowedLateness < now)

end Runner

end PaneTriggers
