import PaneTriggers.Trigger.Node

/-!
# Evaluating a tree

How the nodes of a tree take elements, merges, firings and questions. An evaluation carries the
state of one window, the timers asked for and the calls made of custom hooks; all three keep what
happened before a failure. `Node.ready` is the decision to fire as a function of the state, and
`Node.queries` are the calls that it makes.

A composite is in its early phase as long as its early child is not done. An early firing arms the
early child again. The first firing after the end of the window retires the early child for good;
from then on the late child is fired and armed again, or the composite is done if there is none.
-/

namespace PaneTriggers

/-- The state of the window, the timers asked for, and the calls made. -/
structure Progress (κ : Type) extends Draft where
  calls : List (Call κ) := []

/-- A step in the evaluation of a tree. -/
abbrev Eval (κ : Type) := EStateM TriggerError (Progress κ)

variable {κ : Type}

namespace Eval

/-- Runs a hook on the state. Its timers come after those asked for before. -/
def hook (h : Hook Unit) : Eval κ Unit := fun p =>
  match h { state := p.state } with
  | .ok () d => .ok () { p with state := d.state, timers := p.timers ++ d.timers }
  | .error e d => .error e { p with state := d.state, timers := p.timers ++ d.timers }

/-- Changes the state. -/
def change (f : WindowState → WindowState) : Eval κ Unit :=
  modify fun p => { p with state := f p.state }

/-- Records calls. -/
def record (calls : List (Call κ)) : Eval κ Unit :=
  modify fun p => { p with calls := p.calls ++ calls }

/-- Records the call of a hook and runs it. -/
def call (k : κ) (site : Site) (o : Occasion) (h : Hook Unit) : Eval κ Unit := do
  record [⟨k, site, o, (← get).state⟩]
  hook h

end Eval

open Eval

namespace Leaf

variable [CustomTrigger κ]

/-- The surroundings of the leaf. -/
def site (l : Leaf κ) (s : Scope) : Site := { s with position := l.position }

/-- Marks the leaf as done or not done. -/
def setFinished (l : Leaf κ) (b : Bool) : Eval κ Unit := change fun w => w.setFinished l.position b

/-- Resets the counter of the leaf. -/
def clear (l : Leaf κ) : Eval κ Unit := change fun w => w.clearSubtree l.position

/-- Takes an element. The end of the window asks for a timer at that time, even one that has
passed. -/
def onElement (l : Leaf κ) (s : Scope) (t : Timestamp) (assigned : List Window) : Eval κ Unit :=
  match l.trigger with
  | .endOfWindow => hook ((l.site s).setTimer .eventTime s.window.maxTimestamp)
  | .never => pure ()
  | .custom k =>
    call k (l.site s) (.element t assigned) (CustomTrigger.onElement k (l.site s) t assigned)

/-- Takes a merge. The end of the window is done only if it was done in every source and the
merged window has ended too: otherwise elements that were not fired yet still wait for it. -/
def onMerge (l : Leaf κ) (s : Scope) (sources : List MergeSource) : Eval κ Unit :=
  match l.trigger with
  | .endOfWindow => l.setFinished (finishedInAll sources l.position && s.ended)
  | .never => pure ()
  | .custom k =>
    call k (l.site s) (.merge sources) (CustomTrigger.onMerge k (l.site s) sources)

/-- Whether the leaf is ready to fire. -/
def ready (l : Leaf κ) (s : Scope) (w : WindowState) : Except TriggerError Bool :=
  match l.trigger with
  | .endOfWindow => .ok s.ended
  | .never => .ok false
  | .custom k => CustomTrigger.shouldFire k (l.site s) w

/-- The calls made to decide whether the leaf is ready. -/
def queries (l : Leaf κ) (s : Scope) (w : WindowState) : List (Call κ) :=
  match l.trigger with
  | .custom k => [⟨k, l.site s, .query, w⟩]
  | _ => []

/-- Decides whether the leaf is ready, in the middle of an evaluation. -/
def ask (l : Leaf κ) (s : Scope) : Eval κ Bool := do
  let w := (← get).state
  record (l.queries s w)
  match l.ready s w with
  | .ok b => return b
  | .error e => throw e

/-- Fires the leaf the only time that this arming allows. -/
def onFire (l : Leaf κ) (s : Scope) : Eval κ Unit := do
  match l.trigger with
  | .custom k => call k (l.site s) .onlyFiring (CustomTrigger.onOnlyFiring k (l.site s))
  | _ => pure ()
  l.setFinished true

end Leaf

namespace Node

variable [CustomTrigger κ]

/-- Marks the node as done or not done. -/
def setFinished (n : Node κ) (b : Bool) : Eval κ Unit := change fun w => w.setFinished n.position b

/-- Resets the counter of the node and everything below it. -/
def clear (n : Node κ) : Eval κ Unit := change fun w => w.clearSubtree n.position

/-- The child at an index, in the middle of an evaluation. -/
def child (n : Node κ) (index : Nat) : Eval κ (Leaf κ) := ofExcept (n.leaf? index)

/-- Takes an element. Phases only go forward unless windows merge, so a composite hands the
element to its first unfinished child; where windows can merge, a child that is done may come
back, and every child takes the element. -/
def onElement (n : Node κ) (s : Scope) (t : Timestamp) (assigned : List Window) : Eval κ Unit :=
  match n.trigger with
  | .once trigger => Leaf.onElement ⟨n.position, trigger⟩ s t assigned
  | .earlyAndLate _ =>
    if s.merging then n.leaves.forM fun l => l.onElement s t assigned
    else do
      match n.firstUnfinished? (← get).state with
      | .ok l => l.onElement s t assigned
      | .error e => throw e

/-- Takes a merge. If the early child was done in every source and the merged window has ended, a
composite stays in its late phase. Otherwise it goes back to its early phase, with the late child
at its start. -/
def onMerge (n : Node κ) (s : Scope) (sources : List MergeSource) : Eval κ Unit :=
  match n.trigger with
  | .once trigger => Leaf.onMerge ⟨n.position, trigger⟩ s sources
  | .earlyAndLate c => do
    let early ← n.child Trigger.earlyIndex
    if finishedInAll sources early.position && s.ended then
      early.setFinished true
      if c.late.isSome then
        let late ← n.child Trigger.lateIndex
        late.onMerge s sources
    else
      early.setFinished false
      if c.late.isSome then
        let late ← n.child Trigger.lateIndex
        late.setFinished false
        late.clear

/-- Whether the node is ready to fire. Until its early child is done, a composite is also ready at
the end of the window. -/
def ready (n : Node κ) (s : Scope) (w : WindowState) : Except TriggerError Bool :=
  match n.trigger with
  | .once trigger => Leaf.ready ⟨n.position, trigger⟩ s w
  | .earlyAndLate c => do
    if ← n.childFinished? w Trigger.earlyIndex then
      if c.late.isSome then
        let late ← n.leaf? Trigger.lateIndex
        late.ready s w
      else return false
    else
      let early ← n.leaf? Trigger.earlyIndex
      return (← early.ready s w) || s.ended

/-- The child that decides whether a composite fires: the early child until it is done, and the late
child from then on. -/
def deciding? (n : Node κ) (w : WindowState) : Except TriggerError (Leaf κ) := do
  if ← n.childFinished? w Trigger.earlyIndex then n.leaf? Trigger.lateIndex
  else n.leaf? Trigger.earlyIndex

/-- The calls made to decide whether the node is ready. A composite without a child to decide makes
none. -/
def queries (n : Node κ) (s : Scope) (w : WindowState) : List (Call κ) :=
  match n.trigger with
  | .once trigger => Leaf.queries ⟨n.position, trigger⟩ s w
  | .earlyAndLate _ =>
    match n.deciding? w with
    | .ok l => l.queries s w
    | .error _ => []

/-- A firing before the end of the window: the early child fires and is armed again. -/
def earlyFiring (n : Node κ) (s : Scope) : Eval κ Unit := do
  let early ← n.child Trigger.earlyIndex
  early.onFire s
  early.clear
  early.setFinished false

/-- The first firing after the end of the window: the early child fires if it is ready, and is
done for good. The late child, which may have counted along, starts afresh; without one the
composite is done. -/
def endFiring (n : Node κ) (c : EarlyAndLate κ) (s : Scope) : Eval κ Unit := do
  let early ← n.child Trigger.earlyIndex
  if ← early.ask s then early.onFire s
  early.setFinished true
  early.clear
  if c.late.isSome then
    let late ← n.child Trigger.lateIndex
    late.clear
  else n.setFinished true

/-- A firing after the end of the window has been fired: the late child fires and is armed again.
-/
def lateFiring (n : Node κ) (s : Scope) : Eval κ Unit := do
  let late ← n.child Trigger.lateIndex
  late.onFire s
  late.clear
  late.setFinished false

/-- Fires the node. After its last firing a composite without a late child is done. -/
def onFire (n : Node κ) (s : Scope) : Eval κ Unit :=
  match n.trigger with
  | .once trigger => Leaf.onFire ⟨n.position, trigger⟩ s
  | .earlyAndLate c => do
    if ← ofExcept (n.childFinished? (← get).state Trigger.earlyIndex) then
      if c.late.isSome then n.lateFiring s else n.setFinished true
    else if s.ended then n.endFiring c s
    else n.earlyFiring s

end Node

end PaneTriggers
