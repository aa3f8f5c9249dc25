import PaneTriggers.Trigger.Custom

/-!
# Trigger trees

A trigger that fires at most once per arming is the end of the window, never, or custom. A tree is
one such trigger, or the end of the window with early firings before it and, optionally, late
firings after it. Trees are compared by shape, custom triggers by their descriptions.

`continuation` gives the tree for a later stage. It keeps the shape.
-/

namespace PaneTriggers

/-- A trigger that fires at most once per arming. -/
inductive OnceTrigger (κ : Type) where
  | endOfWindow
  | never
  | custom (k : κ)

/-- The end of the window with early firings and, if `late` is given, late firings. -/
@[ext] structure EarlyAndLate (κ : Type) where
  early : OnceTrigger κ
  late : Option (OnceTrigger κ)

/-- A trigger tree. -/
inductive Trigger (κ : Type) where
  | once (t : OnceTrigger κ)
  | earlyAndLate (c : EarlyAndLate κ)

/-- The text of the end-of-window trigger. -/
def endOfWindowText : String := "AfterWatermark.pastEndOfWindow()"

variable {κ : Type} [CustomTrigger κ]

namespace OnceTrigger

/-- Whether this is the trigger that never fires. -/
def isNever : OnceTrigger κ → Bool
  | never => true
  | _ => false

/-- The text of a trigger. -/
def text : OnceTrigger κ → String
  | endOfWindow => endOfWindowText
  | never => "Never.ever()"
  | custom k => CustomTrigger.describe k

instance : BEq (OnceTrigger κ) where
  beq
    | endOfWindow, endOfWindow => true
    | never, never => true
    | custom a, custom b => CustomTrigger.describe a == CustomTrigger.describe b
    | _, _ => false

/-- The earliest watermark after which the trigger fires even without further elements. -/
def guarantee (w : Window) : OnceTrigger κ → Timestamp
  | endOfWindow => w.maxTimestamp
  | never => .greatest
  | custom k => CustomTrigger.guarantee k w

/-- The trigger for a later stage. -/
def continuation : OnceTrigger κ → OnceTrigger κ
  | endOfWindow => endOfWindow
  | never => never
  | custom k => custom (CustomTrigger.continuation k)

end OnceTrigger

namespace EarlyAndLate

/-- The text of a composite. Children that never fire are left out. -/
def text (c : EarlyAndLate κ) : String :=
  endOfWindowText
    ++ (if c.early.isNever then "" else ".withEarlyFirings(" ++ c.early.text ++ ")")
    ++ match c.late with
      | none => ""
      | some late => if late.isNever then "" else ".withLateFirings(" ++ late.text ++ ")"

instance : BEq (EarlyAndLate κ) where
  beq a b := a.early == b.early && a.late == b.late

/-- The composite with another early trigger. -/
def withEarly (c : EarlyAndLate κ) (early : OnceTrigger κ) : EarlyAndLate κ :=
  { c with early := early }

/-- The composite with another late trigger. -/
def withLate (c : EarlyAndLate κ) (late : OnceTrigger κ) : EarlyAndLate κ :=
  { c with late := some late }

/-- The composite for a later stage. -/
def continuation (c : EarlyAndLate κ) : EarlyAndLate κ :=
  ⟨c.early.continuation, c.late.map OnceTrigger.continuation⟩

end EarlyAndLate

namespace Trigger

/-- The trigger of a tree without children. -/
def once? : Trigger κ → Option (OnceTrigger κ)
  | once t => some t
  | earlyAndLate _ => none

/-- The children, in order: the early and then the late trigger. -/
def children : Trigger κ → List (OnceTrigger κ)
  | once _ => []
  | earlyAndLate c => c.early :: c.late.toList

/-- The index of the early child of a composite. -/
def earlyIndex : Nat := 0

/-- The index of the late child of a composite, if it has one. -/
def lateIndex : Nat := 1

/-- The text of a tree. -/
def text : Trigger κ → String
  | once t => t.text
  | earlyAndLate c => c.text

instance : BEq (Trigger κ) where
  beq
    | once a, once b => a == b
    | earlyAndLate a, earlyAndLate b => a == b
    | _, _ => false

/-- The earliest watermark after which the tree fires even without further elements. -/
def guarantee (w : Window) : Trigger κ → Timestamp
  | once t => t.guarantee w
  | earlyAndLate _ => w.maxTimestamp

/-- The composite with early firings, for a tree that fires at the end of the window. -/
def withEarly? : Trigger κ → OnceTrigger κ → Option (EarlyAndLate κ)
  | once .endOfWindow, early => some ⟨early, none⟩
  | earlyAndLate c, early => some (c.withEarly early)
  | _, _ => none

/-- The composite with late firings, for a tree that fires at the end of the window. Where there
was no early trigger, it never fires early. -/
def withLate? : Trigger κ → OnceTrigger κ → Option (EarlyAndLate κ)
  | once .endOfWindow, late => some ⟨.never, some late⟩
  | earlyAndLate c, late => some (c.withLate late)
  | _, _ => none

/-- The tree for a later stage. -/
def continuation : Trigger κ → Trigger κ
  | once t => once t.continuation
  | earlyAndLate c => earlyAndLate c.continuation

/-- The tree for a later stage, from those of its children. Only trees without children are built
in this way. -/
def continuationOf : Trigger κ → List (Trigger κ) → Except TriggerError (Trigger κ)
  | once t, [] => .ok (once t.continuation)
  | once _, _ :: _ => .error (.unsupported "leaf triggers take no sub-trigger continuations")
  | earlyAndLate _, _ =>
    .error (.unsupported "early/late watermark triggers derive their own continuation")

end Trigger

end PaneTriggers
