import PaneTriggers.Runner.Operation

/-!
# The counting machine

What a runner over a composite of counting triggers does, told without trees, nodes or stored
states. Each window is in a phase and has a count, which starts at zero, grows with each element
that is taken, and goes back to zero with each firing. A board has the phases of all windows, with
the watermark, the active windows and the telemetry that they share.
-/

namespace PaneTriggers

/-- From which counts on the early and the late trigger are ready. -/
structure Thresholds where
  early : Counter
  late : Option Counter

/-- The phase of a window and what it has counted in it. -/
inductive CountPhase where
  | early (k : Nat)
  | late (k : Nat)
  | closed
deriving DecidableEq

namespace CountPhase

/-- The phase after an element. -/
def element : CountPhase → CountPhase
  | early k => early (k + 1)
  | late k => late (k + 1)
  | closed => closed

/-- Whether the window is ready to fire, its end being passed or not. -/
def ready (m : Thresholds) (ended : Bool) : CountPhase → Bool
  | early k => decide (m.early.toNat ≤ k) || ended
  | late k => m.late.any fun l => decide (l.toNat ≤ k)
  | closed => false

/-- The phase after a firing. -/
def fire (m : Thresholds) (ended : Bool) : CountPhase → CountPhase
  | early _ => if ended then (if m.late.isSome then late 0 else closed) else early 0
  | late _ => late 0
  | closed => closed

end CountPhase

/-- The phases of all windows, and what they share. -/
structure Board where
  watermark : Option Timestamp := none
  phase : Window → CountPhase := fun _ => .early 0
  active : Std.ExtTreeSet Window := ∅
  telemetry : Telemetry := {}

namespace Board

/-- The board with another phase for one window. -/
def put (b : Board) (w : Window) (ph : CountPhase) : Board :=
  { b with phase := fun v => if v = w then ph else b.phase v }

theorem put_phase_same (b : Board) (w : Window) (ph : CountPhase) : (b.put w ph).phase w = ph :=
  if_pos rfl

theorem put_phase_other (b : Board) {v w : Window} (ph : CountPhase) (h : v ≠ w) :
    (b.put w ph).phase v = b.phase v :=
  if_neg h

/-- Whether the window is closed. -/
def isClosed (b : Board) (w : Window) : Bool := decide (b.phase w = .closed)

/-- Whether the watermark is past the end of a window and the allowed lateness. -/
def expired (lateness : Nat) (b : Board) (w : Window) : Bool :=
  match b.watermark with
  | none => false
  | some now => decide (w.maxTimestamp.shift lateness < now)

/-- Whether a window is ready to fire. -/
def ready (m : Thresholds) (b : Board) (w : Window) : Bool :=
  (b.phase w).ready m (w.endedBy b.watermark)

/-- Takes an element for one of its windows, or drops it. -/
def deliver (lateness : Nat) (b : Board) (w : Window) : Board :=
  if b.expired lateness w then
    { b with telemetry := b.telemetry.countDrop .pastAllowedLateness }
  else if b.isClosed w then { b with telemetry := b.telemetry.countDrop .windowClosed }
  else
    { b.put w (b.phase w).element with
      active := b.active.insert w
      telemetry := { b.telemetry with elements := b.telemetry.elements + 1 } }

/-- Fires a window. -/
def fire (m : Thresholds) (b : Board) (w : Window) : Board :=
  let b := b.put w ((b.phase w).fire m (w.endedBy b.watermark))
  { b with telemetry := { b.telemetry with
      firings := b.telemetry.firings + 1
      closed := if b.isClosed w then b.telemetry.closed + 1 else b.telemetry.closed } }

/-- Fires a window if it is ready. -/
def tryFire (m : Thresholds) (b : Board) (w : Window) : FiringOutcome × Board :=
  if b.ready m w then (.fired ((b.fire m w).isClosed w), b.fire m w) else (.notReady, b)

/-- Collects a window. -/
def collect (b : Board) (w : Window) : Board :=
  { b.put w (.early 0) with
    active := b.active.erase w
    telemetry := { b.telemetry with collected := b.telemetry.collected + 1 } }

/-- The windows that a collection takes. -/
def garbage (m : Thresholds) (lateness : Nat) (b : Board) : List Window :=
  b.active.toList.filter fun w => b.expired lateness w && !b.ready m w

/-- Moves the watermark forward. -/
def advance (t : Timestamp) (b : Board) : Board :=
  if b.watermark.any fun now => decide (t ≤ now) then b else { b with watermark := some t }

/-- Carries out an operation of a runner, with its answer. Which windows a watermark wakes is left
open, as it depends on the timers. -/
def step (m : Thresholds) (lateness : Nat) (b : Board) : Operation → Option Answer × Board
  | .element ws _ => (some .done, ws.foldl (deliver lateness) b)
  | .advance t => (none, b.advance t)
  | .shouldFire w => (some (.flag (b.ready m w)), b)
  | .fire w => (some .done, b.fire m w)
  | .fireIfReady w => (some (.outcome (b.tryFire m w).1), (b.tryFire m w).2)
  | .isClosed w => (some (.flag (b.isClosed w)), b)
  | .collect => (some (.windows (b.garbage m lateness)), (b.garbage m lateness).foldl collect b)
  | _ => (none, b)

/-- The board after a list of operations. -/
def run (m : Thresholds) (lateness : Nat) (b : Board) (ops : List Operation) : Board :=
  ops.foldl (fun b op => (b.step m lateness op).2) b

/-- The answers to a list of operations, as far as they are told. -/
def answers (m : Thresholds) (lateness : Nat) (b : Board) : List Operation → List (Option Answer)
  | [] => []
  | op :: ops => (b.step m lateness op).1 :: answers m lateness (b.step m lateness op).2 ops

end Board

/-- The operations that neither merge windows nor read states, one call of the runner each. -/
def Operation.Plain : Operation → Prop
  | .merge _ _ | .tick _ | .windowState _ => False
  | _ => True

end PaneTriggers
