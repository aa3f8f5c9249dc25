import PaneTriggers.Proofs.Snapshots
import PaneTriggers.Proofs.StateReads

/-!
# What runs of writes leave

A state is told by what was written to it: the done bit and the counter at a position have the value
of the last write that says something about them (`WindowState.finished_writes`,
`WindowState.counter_writes`). Its entries are the positions that do not read the default, in
ascending order, so two runs of writes leave the same state if and only if all positions read the
same afterwards (`WindowState.writes_canonical`).
-/

namespace PaneTriggers

/-- A write to the state of a window. -/
inductive StateWrite where
  | setFinished (p : Position) (b : Bool)
  | setCounter (p : Position) (c : Counter)
  | clearSubtree (p : Position)

namespace StateWrite

/-- What a write says about the done bit at `q`, if anything. -/
def finished? (q : Position) : StateWrite → Option Bool
  | setFinished p b => if p = q then some b else none
  | setCounter _ _ => none
  | clearSubtree p => if q.isBelow p then some false else none

/-- What a write says about the counter at `q`, if anything. -/
def counter? (q : Position) : StateWrite → Option Counter
  | setFinished _ _ => none
  | setCounter p c => if p = q then some c else none
  | clearSubtree p => if p = q ∨ q.isBelow p then some 0 else none

/-- The value that the last of the writes gives that gives any, or `a` where none does. -/
def last {α : Type} (value? : StateWrite → Option α) (ws : List StateWrite) (a : α) : α :=
  (ws.reverse.findSome? value?).getD a

theorem last_cons {α : Type} (value? : StateWrite → Option α) (w : StateWrite)
    (ws : List StateWrite) (a : α) :
    last value? (w :: ws) a = last value? ws ((value? w).getD a) := by
  unfold last
  rw [List.reverse_cons, List.findSome?_append]
  rcases ws.reverse.findSome? value? with _ | b
  · rcases hw : value? w with _ | b <;> simp [hw]
  · rfl

end StateWrite

namespace Position

variable {p q : Position}

theorem isBelow_iff : q.isBelow p = true ↔ ∃ i rest, q.path = p.path ++ i :: rest := by
  simp only [isBelow, Bool.and_eq_true, decide_eq_true_eq, List.isPrefixOf_iff_prefix]
  refine ⟨?_, ?_⟩
  · rintro ⟨hlength, rest, hrest⟩
    rcases rest with _ | ⟨i, rest⟩
    · simp [← hrest] at hlength
    · exact ⟨i, rest, hrest.symm⟩
  · rintro ⟨i, rest, hq⟩
    exact ⟨by simp [hq], i :: rest, hq.symm⟩

/-- Positions are in the order of their paths. -/
theorem compare_path_eq_lt_iff :
    ∀ is js : List UInt32, compare is js = .lt ↔ is < js
  | [], [] => by simp
  | [], _ :: _ => by simp
  | _ :: _, [] => by simp
  | i :: is, j :: js => by
    rw [List.compare_cons_cons, List.cons_lt_cons_iff, Ordering.then_eq_lt, Std.compare_eq_lt,
      Std.LawfulEqCmp.compare_eq_iff_eq, compare_path_eq_lt_iff is js]

/-- The path of a position starts only the paths there and below. -/
theorem path_starts_iff : p.path <+: q.path ↔ p = q ∨ q.isBelow p = true := by
  rw [isBelow_iff]
  refine ⟨?_, ?_⟩
  · rintro ⟨rest, hrest⟩
    rcases rest with _ | ⟨i, rest⟩
    · exact .inl (Position.ext ((List.append_nil _).symm.trans hrest))
    · exact .inr ⟨i, rest, hrest.symm⟩
  · rintro (rfl | ⟨i, rest, hq⟩)
    · exact List.prefix_rfl
    · exact ⟨i :: rest, hq.symm⟩

end Position

namespace WindowState

variable {s t : WindowState} {p q : Position}

/-- The state after a write. -/
def write (s : WindowState) : StateWrite → WindowState
  | .setFinished p b => s.setFinished p b
  | .setCounter p c => s.setCounter p c
  | .clearSubtree p => s.clearSubtree p

/-- The state after a run of writes. -/
def writes (s : WindowState) (ws : List StateWrite) : WindowState := ws.foldl write s

theorem finished_write (s : WindowState) (w : StateWrite) (q : Position) :
    (s.write w).finished q = (w.finished? q).getD (s.finished q) := by
  rcases w with ⟨p, b⟩ | ⟨p, c⟩ | p
  · simp only [write, StateWrite.finished?, finished_setFinished]
    split_ifs <;> rfl
  · exact finished_setCounter
  · simp only [write, StateWrite.finished?, finished_clearSubtree]
    split_ifs <;> rfl

theorem counter_write (s : WindowState) (w : StateWrite) (q : Position) :
    (s.write w).counter q = (w.counter? q).getD (s.counter q) := by
  rcases w with ⟨p, b⟩ | ⟨p, c⟩ | p
  · exact counter_setFinished
  · simp only [write, StateWrite.counter?, counter_setCounter]
    split_ifs <;> rfl
  · simp only [write, StateWrite.counter?, counter_clearSubtree]
    split_ifs <;> rfl

theorem finished_writes (q : Position) : ∀ (ws : List StateWrite) (s : WindowState),
    (s.writes ws).finished q = StateWrite.last (StateWrite.finished? q) ws (s.finished q)
  | [], _ => rfl
  | w :: ws, s => by
    rw [StateWrite.last_cons, ← finished_write]
    exact finished_writes q ws (s.write w)

theorem counter_writes (q : Position) : ∀ (ws : List StateWrite) (s : WindowState),
    (s.writes ws).counter q = StateWrite.last (StateWrite.counter? q) ws (s.counter q)
  | [], _ => rfl
  | w :: ws, s => by
    rw [StateWrite.last_cons, ← counter_write]
    exact counter_writes q ws (s.write w)

theorem mem_toList_iff {n : NodeState} : (p, n) ∈ s.toList ↔ s.node p = n ∧ n ≠ {} := by
  unfold toList
  rw [Std.ExtTreeMap.mem_toList_iff_getElem?_eq_some, getElem?_eq]
  split_ifs with hp
  · simp [hp, eq_comm]
  · rw [Option.some.injEq]
    exact ⟨fun h => ⟨h, h ▸ hp⟩, And.left⟩

theorem toList_ascending (s : WindowState) :
    s.toList.Pairwise fun a b => a.1.path < b.1.path :=
  (ascending_toList s.nodes).imp fun h => (Position.compare_path_eq_lt_iff _ _).1 h

theorem toList_inj : s.toList = t.toList ↔ s = t :=
  ⟨fun h => by rw [← ofList_toList s, h, ofList_toList], congrArg toList⟩

theorem eq_iff_reads : s = t ↔ ∀ p, s.finished p = t.finished p ∧ s.counter p = t.counter p :=
  ⟨fun h _ => h ▸ ⟨rfl, rfl⟩, fun h => ext_reads (fun p => (h p).1) fun p => (h p).2⟩

theorem isEmpty_iff_reads : s.isEmpty = true ↔ ∀ p, s.finished p = false ∧ s.counter p = 0 := by
  rw [isEmpty_iff, eq_iff_reads]
  simp only [finished_empty, counter_empty]

/-- Clearing leaves a position alone whose path does not start with that of the cleared one. -/
theorem node_clearSubtree_of_apart (h : ¬p.path <+: q.path) :
    (s.clearSubtree p).node q = s.node q := by
  rw [Position.path_starts_iff, not_or] at h
  rw [node_clearSubtree, if_neg h.1, if_neg h.2]

theorem node_clearSubtree_of_below (h : q.isBelow p = true) : (s.clearSubtree p).node q = {} := by
  rw [node_clearSubtree, if_neg, if_pos h]
  rintro rfl
  simp at h

/-- After any run of writes the entries ascend by path and are the positions that do not read the
default, and a position reads what the last writes about it say. So states are equal if and only if
they list the same entries, and if and only if they read the same everywhere, and a state is empty
if it reads the default everywhere. Setting the done bit or the counter changes nothing else.
Clearing a position resets its counter and all that lies below it, and nothing else. -/
theorem writes_canonical (ws : List StateWrite) :
    let s := empty.writes ws
    (s.toList.Pairwise fun a b => a.1.path < b.1.path) ∧
    (∀ p n, (p, n) ∈ s.toList ↔ s.node p = n ∧ n ≠ {}) ∧
    (∀ p, s.finished p = StateWrite.last (StateWrite.finished? p) ws false ∧
      s.counter p = StateWrite.last (StateWrite.counter? p) ws 0) ∧
    (∀ ws', let t := empty.writes ws'
      (s.toList = t.toList ↔ s = t) ∧
        (s = t ↔ ∀ p, s.finished p = t.finished p ∧ s.counter p = t.counter p)) ∧
    (s.isEmpty = true ↔ ∀ p, s.finished p = false ∧ s.counter p = 0) ∧
    (∀ p b, (s.setFinished p b).finished p = b ∧
      (∀ q, q ≠ p → (s.setFinished p b).finished q = s.finished q) ∧
      ∀ q, (s.setFinished p b).counter q = s.counter q) ∧
    (∀ p c, (s.setCounter p c).counter p = c ∧
      (∀ q, q ≠ p → (s.setCounter p c).counter q = s.counter q) ∧
      ∀ q, (s.setCounter p c).finished q = s.finished q) ∧
    ∀ p, (s.clearSubtree p).finished p = s.finished p ∧ (s.clearSubtree p).counter p = 0 ∧
      (∀ i rest, (s.clearSubtree p).node ⟨p.path ++ i :: rest⟩ = {}) ∧
      ∀ q, ¬p.path <+: q.path → (s.clearSubtree p).node q = s.node q := by
  intro s
  refine ⟨toList_ascending s, fun p n => mem_toList_iff, fun p => ⟨?_, ?_⟩,
    fun ws' => ⟨toList_inj, eq_iff_reads⟩, isEmpty_iff_reads, fun p b => ⟨?_, fun q hq => ?_, ?_⟩,
    fun p c => ⟨?_, fun q hq => ?_, ?_⟩, fun p => ⟨?_, ?_, fun i rest => ?_, fun q hq => ?_⟩⟩
  · exact (finished_writes p ws empty).trans (congrArg _ finished_empty)
  · exact (counter_writes p ws empty).trans (congrArg _ counter_empty)
  · rw [finished_setFinished, if_pos rfl]
  · rw [finished_setFinished, if_neg (Ne.symm hq)]
  · exact fun q => counter_setFinished
  · rw [counter_setCounter, if_pos rfl]
  · rw [counter_setCounter, if_neg (Ne.symm hq)]
  · exact fun q => finished_setCounter
  · rw [finished_clearSubtree, Position.isBelow_self, if_neg Bool.false_ne_true]
  · rw [counter_clearSubtree, if_pos (.inl rfl)]
  · exact node_clearSubtree_of_below (Position.isBelow_iff.2 ⟨i, rest, rfl⟩)
  · exact node_clearSubtree_of_apart hq

end WindowState

end PaneTriggers
