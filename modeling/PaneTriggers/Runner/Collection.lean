import PaneTriggers.Runner.Firing
import PaneTriggers.Runner.Merge

/-!
# Collecting old windows

An active window that is past its guarantee and the allowed lateness is collected: its state and
timers are dropped. One that is still ready to fire is kept until it has been fired.
-/

namespace PaneTriggers.Runner

variable {κ σ : Type} [CustomTrigger κ] [StateStore σ]

/-- Drops the state and the timers of a window. -/
def collect (w : Window) : RunnerM κ σ Unit := do
  usingStore (StateStore.discard w)
  modify fun r => { r.retire w with
    telemetry := { r.telemetry with collected := r.telemetry.collected + 1 } }.logged .debug w
      "trigger state collected"

/-- Collects those of the windows that are not ready to fire, in order. -/
def collectEach : List Window → RunnerM κ σ (List Window)
  | [] => return []
  | w :: ws => do
    if ← shouldFire w then collectEach ws
    else
      collect w
      return w :: (← collectEach ws)

/-- Collects the expired windows, except those that are ready to fire, and returns them in order.
-/
def garbageCollect : RunnerM κ σ (List Window) := do
  let r ← get
  collectEach (r.active.toList.filter r.expired)

end PaneTriggers.Runner
