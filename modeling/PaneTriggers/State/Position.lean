/-!
# Positions in a trigger tree

A position is the path of child indices from the root. Positions are ordered as lists: a path
comes before its extensions, and otherwise the first index that differs decides.
-/

namespace PaneTriggers

/-- The path of child indices from the root of a trigger tree to a node. -/
@[ext] structure Position where
  path : List UInt32
deriving DecidableEq

namespace Position

/-- The position of the whole tree. -/
def root : Position := ⟨[]⟩

/-- The position of the child at `index`, of which the low 32 bits count. -/
def child (p : Position) (index : Nat) : Position := ⟨p.path ++ [UInt32.ofNat index]⟩

/-- How many steps the position is from the root. -/
def depth (p : Position) : Nat := p.path.length

/-- Whether the position is the root. -/
def isRoot (p : Position) : Bool := p.path.isEmpty

/-- Whether `p` lies strictly below `q`. -/
def isBelow (p q : Position) : Bool :=
  decide (q.path.length < p.path.length) && q.path.isPrefixOf p.path

instance : Ord Position := ⟨compareOn path⟩

instance : Std.TransOrd Position :=
  inferInstanceAs (Std.TransCmp (compareOn (β := List UInt32) path))

instance : Std.LawfulEqOrd Position where
  eq_of_compare h := Position.ext (Std.LawfulEqOrd.eq_of_compare (α := List UInt32) h)

/-- The text of a position: `root`, or its indices joined by points. -/
def text (p : Position) : String :=
  if p.path.isEmpty then "root" else ".".intercalate (p.path.map fun i => toString i.toNat)

end Position

end PaneTriggers
