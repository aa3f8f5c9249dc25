import Std.Data.ExtTreeMap
import PaneTriggers.State.Counter
import PaneTriggers.State.Position

/-!
# The trigger state of one window

A tree of triggers is immutable: what changes is, for each window, a finished bit and a counter at
each position. Positions that are unfinished with counter zero are not stored, so a state is
determined by what it reads (`WindowState.ext_node`). `node_setFinished`, `node_setCounter` and
`node_clearSubtree` say what the three writes change.
-/

namespace PaneTriggers

/-- What is kept for one node in one window. -/
@[ext] structure NodeState where
  /-- The node is done for this window. -/
  finished : Bool := false
  /-- A cell for the use of custom triggers. -/
  counter : Counter := 0
deriving DecidableEq

/-- The state of every node for one window. Positions that are not stored read as the default. -/
@[ext] structure WindowState where
  nodes : Std.ExtTreeMap Position NodeState
  ne_default : ∀ p : Position, nodes[p]? ≠ some {}

namespace WindowState

instance : DecidableEq WindowState := fun a b =>
  decidable_of_iff (a.nodes = b.nodes) ⟨WindowState.ext, congrArg nodes⟩

/-- The state in which every node is at its default. -/
def empty : WindowState := ⟨∅, by simp⟩

/-- What is stored at `p`, or the default. -/
def node (s : WindowState) (p : Position) : NodeState := s.nodes[p]?.getD {}

/-- Whether the node at `p` is done. -/
def finished (s : WindowState) (p : Position) : Bool := (s.node p).finished

/-- The counter of the node at `p`. -/
def counter (s : WindowState) (p : Position) : Counter := (s.node p).counter

/-- Puts `n` at `p`; the default is not stored. -/
def put (s : WindowState) (p : Position) (n : NodeState) : WindowState :=
  if h : n = {} then
    ⟨s.nodes.erase p, fun q => by
      rw [Std.ExtTreeMap.getElem?_erase]
      split
      · simp
      · exact s.ne_default q⟩
  else
    ⟨s.nodes.insert p n, fun q => by
      rw [Std.ExtTreeMap.getElem?_insert]
      split
      · simpa using h
      · exact s.ne_default q⟩

/-- Marks the node at `p` as done or not done. -/
def setFinished (s : WindowState) (p : Position) (b : Bool) : WindowState :=
  s.put p { s.node p with finished := b }

/-- Sets the counter of the node at `p`. -/
def setCounter (s : WindowState) (p : Position) (c : Counter) : WindowState :=
  s.put p { s.node p with counter := c }

/-- Forgets every node strictly below `p`. -/
def dropBelow (s : WindowState) (p : Position) : WindowState :=
  ⟨s.nodes.filter fun q _ => !q.isBelow p, fun q h => by
    rw [Std.ExtTreeMap.getElem?_filter'] at h
    exact s.ne_default q (Option.filter_eq_some_iff.1 h).1⟩

/-- Resets the counter at `p` and everything below `p`. The finished bit at `p` stays. -/
def clearSubtree (s : WindowState) (p : Position) : WindowState := (s.dropBelow p).setCounter p 0

/-- Whether every node is at its default. -/
def isEmpty (s : WindowState) : Bool := s.nodes.isEmpty

/-- The nodes that are not at their default, by position. -/
def toList (s : WindowState) : List (Position × NodeState) := s.nodes.toList

/-- The state built by writing each listed node's finished bit and then its counter, in order. -/
def ofList (ns : List (Position × NodeState)) : WindowState :=
  ns.foldl (fun s n => (s.setFinished n.1 n.2.finished).setCounter n.1 n.2.counter) empty

variable {s t : WindowState} {p q : Position}

@[simp] theorem node_empty : empty.node p = {} := by simp [empty, node]

theorem ext_node (h : ∀ p, s.node p = t.node p) : s = t := by
  apply WindowState.ext
  apply Std.ExtTreeMap.ext_getElem?
  intro p
  have hp := h p
  have hs := s.ne_default p
  have ht := t.ne_default p
  unfold node at hp
  rcases h1 : s.nodes[p]? with _ | a <;> rcases h2 : t.nodes[p]? with _ | b <;>
    simp_all [eq_comm]

theorem node_put (n : NodeState) : (s.put p n).node q = if p = q then n else s.node q := by
  unfold put node
  split <;> split <;> simp_all [Std.ExtTreeMap.getElem?_erase, Std.ExtTreeMap.getElem?_insert]

theorem node_setFinished (b : Bool) :
    (s.setFinished p b).node q = if p = q then ⟨b, (s.node p).counter⟩ else s.node q :=
  node_put _

theorem node_setCounter (c : Counter) :
    (s.setCounter p c).node q = if p = q then ⟨(s.node p).finished, c⟩ else s.node q :=
  node_put _

theorem node_dropBelow : (s.dropBelow p).node q = if q.isBelow p then {} else s.node q := by
  unfold dropBelow node
  simp only [Std.ExtTreeMap.getElem?_filter']
  rcases s.nodes[q]? with _ | a <;> cases q.isBelow p <;> simp [Option.filter]

theorem node_clearSubtree : (s.clearSubtree p).node q =
    if p = q then ⟨(s.node p).finished, 0⟩ else if q.isBelow p then {} else s.node q := by
  have hp : p.isBelow p = false := by simp [Position.isBelow]
  simp only [clearSubtree, node_setCounter, node_dropBelow, hp, Bool.false_eq_true, if_false]

theorem isEmpty_iff : s.isEmpty = true ↔ s = empty := by
  simp only [isEmpty, Std.ExtTreeMap.isEmpty_iff]
  exact ⟨fun h => WindowState.ext h, fun h => h ▸ rfl⟩

end WindowState

end PaneTriggers
