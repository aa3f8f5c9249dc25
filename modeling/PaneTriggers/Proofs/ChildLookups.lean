import PaneTriggers.Trigger.Evaluation

/-!
# Look-ups of children

The children of a tree are built from its trigger, so a look-up finds the children that the trigger
has and fails past them (`Node.leaf?_eq`). An evaluation of a composite looks for its early child,
and for its late child only if there is one. So it finds them (`Node.child_early`,
`Node.child_late`), and goes on as if it had them at hand: that is what an evaluation of a composite
is rewritten to here.
-/

namespace PaneTriggers

variable {κ : Type}

namespace EarlyAndLate

/-- The early child of a composite at `p`. -/
def earlyAt (c : EarlyAndLate κ) (p : Position) : Leaf κ := ⟨p.child 0, c.early⟩

/-- The late child of a composite at `p`. -/
def lateAt (c : EarlyAndLate κ) (p : Position) : Option (Leaf κ) :=
  c.late.map fun t => ⟨p.child 1, t⟩

end EarlyAndLate

namespace Node

variable {c : EarlyAndLate κ} {t : OnceTrigger κ} {p : Position} {w : WindowState} {s : Scope}

theorem leaf?_eq (n : Node κ) (index : Nat) : n.leaf? index =
    match n.trigger.children[index]? with
    | some t => .ok ⟨n.position.child index, t⟩
    | none => .error (.noSuchSubTrigger n.position index) := by
  unfold leaf? leaves
  rw [List.getElem?_mapIdx]
  cases n.trigger.children[index]? <;> rfl

theorem leaves_earlyAndLate :
    leaves ⟨p, .earlyAndLate c⟩ = c.earlyAt p :: (c.lateAt p).toList := by
  rcases h : c.late with _ | t <;>
    simp [leaves, Trigger.children, EarlyAndLate.earlyAt, EarlyAndLate.lateAt, h]

theorem leaf?_early : leaf? ⟨p, .earlyAndLate c⟩ Trigger.earlyIndex = .ok (c.earlyAt p) := by
  rw [leaf?_eq]
  rfl

theorem leaf?_late (h : c.late = some t) :
    leaf? ⟨p, .earlyAndLate c⟩ Trigger.lateIndex = .ok ⟨p.child 1, t⟩ := by
  rw [leaf?_eq]
  simp [Trigger.children, Trigger.lateIndex, h]

theorem leaf?_late_of_none (h : c.late = none) :
    leaf? ⟨p, .earlyAndLate c⟩ Trigger.lateIndex = .error (.noSuchSubTrigger p 1) := by
  rw [leaf?_eq]
  simp [Trigger.children, Trigger.lateIndex, h]

theorem childFinished?_early :
    childFinished? ⟨p, .earlyAndLate c⟩ w Trigger.earlyIndex =
      .ok (w.finished (c.earlyAt p).position) := by
  unfold childFinished?
  rw [leaf?_early]
  rfl

theorem child_early :
    child ⟨p, .earlyAndLate c⟩ Trigger.earlyIndex = pure (c.earlyAt p) := by
  unfold child
  rw [leaf?_early]
  rfl

theorem child_late (h : c.late = some t) :
    child ⟨p, .earlyAndLate c⟩ Trigger.lateIndex = pure ⟨p.child 1, t⟩ := by
  unfold child
  rw [leaf?_late h]
  rfl

/-- To ask for a late child and then look it up is to match on it. -/
theorem bind_late {f : Leaf κ → Eval κ Unit} {x : Eval κ Unit} :
    (if c.late.isSome then child ⟨p, .earlyAndLate c⟩ Trigger.lateIndex >>= f else x) =
      match c.lateAt p with
      | some late => f late
      | none => x := by
  unfold EarlyAndLate.lateAt
  rcases h : c.late with _ | t
  · rfl
  · rw [child_late h, pure_bind]
    rfl

theorem queries_earlyAndLate : queries ⟨p, .earlyAndLate c⟩ s w =
    if w.finished (c.earlyAt p).position then
      match c.lateAt p with
      | some late => late.queries s w
      | none => []
    else (c.earlyAt p).queries s w := by
  simp only [queries, deciding?, childFinished?_early, leaf?_early]
  unfold EarlyAndLate.lateAt
  cases w.finished (c.earlyAt p).position
  · rfl
  · rcases h : c.late with _ | t
    · rw [leaf?_late_of_none h]
      rfl
    · rw [leaf?_late h]
      rfl

variable [CustomTrigger κ]

theorem onMerge_earlyAndLate {sources : List MergeSource} :
    onMerge ⟨p, .earlyAndLate c⟩ s sources =
      if finishedInAll sources (c.earlyAt p).position && s.ended then do
        (c.earlyAt p).setFinished true
        match c.lateAt p with
        | some late => late.onMerge s sources
        | none => pure ()
      else (do
        (c.earlyAt p).setFinished false
        match c.lateAt p with
        | some late =>
          late.setFinished false
          late.clear
        | none => pure ()) := by
  simp only [onMerge, child_early, pure_bind, bind_late]

theorem ready_earlyAndLate : ready ⟨p, .earlyAndLate c⟩ s w =
    if w.finished (c.earlyAt p).position then
      match c.lateAt p with
      | some late => late.ready s w
      | none => .ok false
    else ((c.earlyAt p).ready s w).map fun b => b || s.ended := by
  simp only [ready, childFinished?_early, leaf?_early]
  unfold EarlyAndLate.lateAt
  rcases h : c.late with _ | t
  · rfl
  · simp only [leaf?_late h]
    rfl

theorem earlyFiring_earlyAndLate : earlyFiring ⟨p, .earlyAndLate c⟩ s = (do
    (c.earlyAt p).onFire s
    (c.earlyAt p).clear
    (c.earlyAt p).setFinished false) := by
  simp only [earlyFiring, child_early, pure_bind]

theorem endFiring_earlyAndLate : endFiring ⟨p, .earlyAndLate c⟩ c s = (do
    if ← (c.earlyAt p).ask s then (c.earlyAt p).onFire s
    (c.earlyAt p).setFinished true
    (c.earlyAt p).clear
    match c.lateAt p with
    | some late => late.clear
    | none => Eval.change fun w => w.setFinished p true) := by
  simp only [endFiring, child_early, pure_bind, bind_late]
  rfl

theorem onFire_earlyAndLate : onFire ⟨p, .earlyAndLate c⟩ s = (do
    if (← get).state.finished (c.earlyAt p).position then
      match c.lateAt p with
      | some late =>
        late.onFire s
        late.clear
        late.setFinished false
      | none => Eval.change fun w => w.setFinished p true
    else if s.ended then endFiring ⟨p, .earlyAndLate c⟩ c s
    else
      (c.earlyAt p).onFire s
      (c.earlyAt p).clear
      (c.earlyAt p).setFinished false) := by
  simp only [onFire, childFinished?_early, earlyFiring_earlyAndLate, lateFiring, bind_late]
  rfl

end Node

end PaneTriggers
