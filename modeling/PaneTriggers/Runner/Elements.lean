import PaneTriggers.Runner.Basic

/-!
# Elements

An element comes with the windows it was assigned to. For each of them in turn it is dropped, if
the window is past its lateness or closed, or else handed to the tree.
-/

namespace PaneTriggers.Runner

variable {κ σ : Type} [CustomTrigger κ] [StateStore σ]

/-- Counts and logs a dropped element. -/
def drop (w : Window) (reason : DropReason) : RunnerM κ σ Unit :=
  modify fun r => { r with telemetry := r.telemetry.countDrop reason }.logged .debug w
    ("element dropped: " ++ reason.name)

/-- Hands an element to the tree for a window. Besides the timers that the tree asks for, the
window's own end is set as a timer: every live window fires by its end. -/
def accept (assigned : List Window) (t : Timestamp) (w : Window) (s : WindowState) :
    RunnerM κ σ Unit := do
  let s ← evaluating w s fun scope root => root.onElement scope t assigned
  modify fun r => { r with timers := r.timers.insert (.endOf w) }
  usingStore (StateStore.save w s)
  modify fun r => { r with
    active := r.active.insert w
    telemetry := { r.telemetry with elements := r.telemetry.elements + 1 } }.logged .trace w
      ("element at " ++ t.text)

/-- Takes an element for one of its windows. -/
def deliver (assigned : List Window) (t : Timestamp) (w : Window) : RunnerM κ σ Unit := do
  if (← get).expired w then drop w .pastAllowedLateness
  else
    let s ← windowState w
    if (← get).closedIn s then drop w .windowClosed
    else accept assigned t w s

/-- Takes an element for all its windows, in order. -/
def processElement (windows : List Window) (t : Timestamp) : RunnerM κ σ Unit :=
  windows.forM (deliver windows t)

end PaneTriggers.Runner
