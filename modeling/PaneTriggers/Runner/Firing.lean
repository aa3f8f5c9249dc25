import PaneTriggers.Runner.Basic

/-!
# Watermark and firings

The watermark only goes forward. Passing event-time timers, it wakes their windows; each can then
be fired if its tree is ready.
-/

namespace PaneTriggers

/-- What came of trying to fire a window. -/
inductive FiringOutcome where
  | notReady
  | fired (closed : Bool)
deriving DecidableEq

namespace Runner

variable {κ σ : Type}

/-- Moves the watermark forward and returns the windows whose event-time timers it passed, in the
order of the timers. A watermark that is not later than the current one changes nothing. -/
def advance (t : Timestamp) (r : Runner κ σ) : List Window × Runner κ σ :=
  if r.watermark.any fun now => decide (t ≤ now) then ([], r)
  else
    let (expired, timers) := r.timers.drain .eventTime t
    ((expired.map Timer.window).eraseDups, { r with watermark := some t, timers := timers })

variable [CustomTrigger κ] [StateStore σ]

/-- Whether the tree is ready to fire a window. -/
def shouldFire (w : Window) : RunnerM κ σ Bool := do
  let s ← windowState w
  let r ← get
  if r.closedIn s then return false
  else
    set { r with calls := r.calls ++ r.root.queries (r.scope w) s }
    match r.root.ready (r.scope w) s with
    | .ok b => return b
    | .error e => throw (.trigger e)

/-- Fires a window, ready or not. -/
def onFire (w : Window) : RunnerM κ σ Unit := do
  let s ← windowState w
  let s ← evaluating w s fun scope root => root.onFire scope
  let closed := (← get).closedIn s
  usingStore (StateStore.save w s)
  modify fun r =>
    { r with telemetry := { r.telemetry with firings := r.telemetry.firings + 1 } }.logged .info w
      "pane fired"
  if closed then
    modify fun r =>
      { r with telemetry := { r.telemetry with closed := r.telemetry.closed + 1 } }.logged .info w
        "window closed"

/-- Fires a window if its tree is ready. -/
def fireIfReady (w : Window) : RunnerM κ σ FiringOutcome := do
  if ← shouldFire w then
    onFire w
    return .fired (← isClosed w)
  else return .notReady

/-- Runs an operation and returns its result or its error. -/
def attempt {α : Type} (act : RunnerM κ σ α) : RunnerM κ σ (Except RunnerError α) := fun r =>
  match act r with
  | .ok a r => .ok (.ok a) r
  | .error e r => .ok (.error e) r

/-- Tries to fire windows in order. A failure does not keep the windows after it from being tried.
-/
def fireEach : List Window → RunnerM κ σ (List (Window × Except RunnerError FiringOutcome))
  | [] => return []
  | w :: ws => do
    let outcome ← attempt (fireIfReady w)
    return (w, outcome) :: (← fireEach ws)

/-- Moves the watermark forward and tries to fire the windows that this wakes. -/
def tick (t : Timestamp) : RunnerM κ σ (List (Window × Except RunnerError FiringOutcome)) := do
  let woken ← modifyGet (advance t)
  fireEach woken

end Runner

end PaneTriggers
