import PaneTriggers.Store.Basic

/-!
# A store in memory

A finite map from windows to states. The empty state is not stored, so a store is determined by
what it loads (`MemoryStore.ext_load`).
-/

namespace PaneTriggers

/-- The window states that are not empty. -/
@[ext] structure MemoryStore where
  states : Std.ExtTreeMap Window WindowState
  ne_empty : ∀ w : Window, states[w]? ≠ some .empty

namespace MemoryStore

instance : DecidableEq MemoryStore := fun a b =>
  decidable_of_iff (a.states = b.states) ⟨MemoryStore.ext, congrArg states⟩

/-- The store without any state. -/
def empty : MemoryStore := ⟨∅, by simp⟩

/-- The state of a window. -/
def state (m : MemoryStore) (w : Window) : WindowState := m.states[w]?.getD .empty

/-- Drops the state of a window. -/
def erase (m : MemoryStore) (w : Window) : MemoryStore :=
  ⟨m.states.erase w, fun v => by
    rw [Std.ExtTreeMap.getElem?_erase]
    split
    · simp
    · exact m.ne_empty v⟩

/-- Replaces the state of a window; the empty state is not stored. -/
def put (m : MemoryStore) (w : Window) (s : WindowState) : MemoryStore :=
  if h : s = .empty then m.erase w
  else
    ⟨m.states.insert w s, fun v => by
      rw [Std.ExtTreeMap.getElem?_insert]
      split
      · simpa using h
      · exact m.ne_empty v⟩

/-- The windows with their states, in window order. -/
def toList (m : MemoryStore) : List (Window × WindowState) := m.states.toList

/-- How many windows have a state. -/
def size (m : MemoryStore) : Nat := m.states.size

instance : StateStore MemoryStore where
  load w := do return (← get).state w
  save w s := modify fun m => m.put w s
  discard w := modify fun m => m.erase w

variable {m n : MemoryStore} {v w : Window} {s : WindowState}

@[simp] theorem state_empty : empty.state w = .empty := by simp [empty, state]

theorem ext_load (h : ∀ w, m.state w = n.state w) : m = n := by
  apply MemoryStore.ext
  apply Std.ExtTreeMap.ext_getElem?
  intro w
  have hw := h w
  have hm := m.ne_empty w
  have hn := n.ne_empty w
  unfold state at hw
  rcases h1 : m.states[w]? with _ | a <;> rcases h2 : n.states[w]? with _ | b <;>
    simp_all [eq_comm]

theorem state_erase : (m.erase w).state v = if w = v then .empty else m.state v := by
  unfold erase state
  split <;> simp_all [Std.ExtTreeMap.getElem?_erase]

theorem state_put : (m.put w s).state v = if w = v then s else m.state v := by
  unfold put
  split
  · next h => rw [state_erase, h]
  · unfold state
    split <;> simp_all [Std.ExtTreeMap.getElem?_insert]

end MemoryStore

end PaneTriggers
