import PaneTriggers.Runner.Basic

/-!
# Merging windows

A merge replaces its sources by a destination. The state of the destination starts empty, is
worked out from the states of the sources, and is committed together with the removal of the
sources.
-/

namespace PaneTriggers.Runner

variable {κ σ : Type} [CustomTrigger κ] [StateStore σ]

/-- Loads the states of windows that are to be merged. -/
def loadSources : List Window → RunnerM κ σ (List MergeSource)
  | [] => return []
  | w :: ws => do
    let s ← windowState w
    return ⟨w, s⟩ :: (← loadSources ws)

/-- The state of the destination, closed if every source was closed and the destination has ended.
A closed source whose window grew gets a new end-of-window firing. -/
def closeMerged (r : Runner κ σ) (sources : List MergeSource) (destination : Window)
    (s : WindowState) : WindowState :=
  if destination.endedBy r.watermark && !sources.isEmpty
      && finishedInAll sources r.root.position then
    s.setFinished r.root.position true
  else s

/-- Drops the timers of a window and no longer counts it as active. -/
def retire (r : Runner κ σ) (w : Window) : Runner κ σ :=
  { r with timers := r.timers.deleteWindow w, active := r.active.erase w }

/-- Replaces the sources by the destination. An open destination gets the timer of its end, since
the timers of the sources are gone. -/
def merge (sources : List Window) (destination : Window) : RunnerM κ σ Unit := do
  let merging ← loadSources sources
  let s ← evaluating destination .empty fun scope root => root.onMerge scope merging
  let s := closeMerged (← get) merging destination s
  let closed := (← get).closedIn s
  usingStore (StateStore.commitMerge sources destination s)
  modify fun r =>
    let r := (sources.filter (· ≠ destination)).foldl retire r
    let timers := if closed then r.timers else r.timers.insert (.endOf destination)
    { r with
      timers := timers
      active := r.active.insert destination
      telemetry := { r.telemetry with merges := r.telemetry.merges + 1 } }.logged .debug destination
        ("merged " ++ toString sources.length ++ " windows")

end PaneTriggers.Runner
