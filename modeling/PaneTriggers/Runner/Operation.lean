import PaneTriggers.Runner.Collection
import PaneTriggers.Runner.Elements

/-!
# Runs of operations

The operations of a runner as data, so that a run is a list of them. A run goes on after an
operation that failed.
-/

namespace PaneTriggers

/-- An operation of a runner. -/
inductive Operation where
  | element (windows : List Window) (timestamp : Timestamp)
  | merge (sources : List Window) (destination : Window)
  | advance (watermark : Timestamp)
  | tick (watermark : Timestamp)
  | shouldFire (w : Window)
  | fire (w : Window)
  | fireIfReady (w : Window)
  | isClosed (w : Window)
  | windowState (w : Window)
  | collect
deriving DecidableEq

/-- What an operation answers. -/
inductive Answer where
  | done
  | windows (ws : List Window)
  | flag (b : Bool)
  | outcome (o : FiringOutcome)
  | outcomes (os : List (Window × Except RunnerError FiringOutcome))
  | state (s : WindowState)

namespace Runner

variable {κ σ : Type} [CustomTrigger κ] [StateStore σ]

/-- Carries out an operation. -/
def perform : Operation → RunnerM κ σ Answer
  | .element ws t => do processElement ws t; return .done
  | .merge sources destination => do merge sources destination; return .done
  | .advance t => return .windows (← modifyGet (advance t))
  | .tick t => return .outcomes (← tick t)
  | .shouldFire w => return .flag (← shouldFire w)
  | .fire w => do onFire w; return .done
  | .fireIfReady w => return .outcome (← fireIfReady w)
  | .isClosed w => return .flag (← isClosed w)
  | .windowState w => return .state (← windowState w)
  | .collect => return .windows (← garbageCollect)

/-- Carries out an operation and returns its answer or error with the runner after it. -/
def step (r : Runner κ σ) (op : Operation) : Except RunnerError Answer × Runner κ σ :=
  match perform op r with
  | .ok a r => (.ok a, r)
  | .error e r => (.error e, r)

/-- The runner after a list of operations. -/
def run (r : Runner κ σ) (ops : List Operation) : Runner κ σ :=
  ops.foldl (fun r op => (r.step op).2) r

/-- The answers and errors of a list of operations. -/
def answers (r : Runner κ σ) : List Operation → List (Except RunnerError Answer)
  | [] => []
  | op :: ops => (r.step op).1 :: (r.step op).2.answers ops

end Runner

end PaneTriggers
