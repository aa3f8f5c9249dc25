import PaneTriggers.Trigger.Basic

/-!
# Nodes of a tree

The nodes of a tree are its root and the children of the root. Each has a position, under which
its state is kept in every window. A child is looked up by its index, which fails past the children
of the trigger.
-/

namespace PaneTriggers

/-- A trigger without children, at its position. -/
structure Leaf (κ : Type) where
  position : Position
  trigger : OnceTrigger κ

/-- A tree at its position. -/
structure Node (κ : Type) where
  position : Position
  trigger : Trigger κ

variable {κ : Type}

namespace Node

/-- The node of a whole tree. -/
def root (t : Trigger κ) : Node κ := ⟨.root, t⟩

/-- A leaf as a node. -/
def ofLeaf (l : Leaf κ) : Node κ := ⟨l.position, .once l.trigger⟩

/-- The children of the trigger at their positions, in order. -/
def leaves (n : Node κ) : List (Leaf κ) :=
  n.trigger.children.mapIdx fun index t => ⟨n.position.child index, t⟩

/-- The child at an index. -/
def leaf? (n : Node κ) (index : Nat) : Except TriggerError (Leaf κ) :=
  match n.leaves[index]? with
  | some l => .ok l
  | none => .error (.noSuchSubTrigger n.position index)

/-- The child at an index, as a node. -/
def child? (n : Node κ) (index : Nat) : Except TriggerError (Node κ) := (n.leaf? index).map ofLeaf

/-- The node at the end of a path of child indices. -/
def descendant? (n : Node κ) (path : List Nat) : Except TriggerError (Node κ) :=
  path.foldlM child? n

/-- The first child that is not done. -/
def firstUnfinished? (n : Node κ) (s : WindowState) : Except TriggerError (Leaf κ) :=
  match n.leaves.find? fun l => !s.finished l.position with
  | some l => .ok l
  | none => .error (.allSubTriggersFinished n.position)

/-- Whether the child at an index is done. -/
def childFinished? (n : Node κ) (s : WindowState) (index : Nat) : Except TriggerError Bool :=
  (n.leaf? index).map fun l => s.finished l.position

/-- The node and its children. -/
def nodes (n : Node κ) : List (Node κ) := n :: n.leaves.map ofLeaf

instance [CustomTrigger κ] : BEq (Node κ) where
  beq a b := a.position == b.position && a.trigger == b.trigger

end Node

/-- Whether the node at `p` is done in every source. -/
def finishedInAll (sources : List MergeSource) (p : Position) : Bool :=
  sources.all fun s => s.state.finished p

end PaneTriggers
