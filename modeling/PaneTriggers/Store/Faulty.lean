import PaneTriggers.Store.Memory

/-!
# A store with faults

A store in memory whose calls fail for the windows on three lists. A call that fails changes
nothing. Merges are committed step by step, so a fault may leave one half done.
-/

namespace PaneTriggers

/-- The windows for which each kind of call fails. -/
structure Faults where
  load : List Window := []
  save : List Window := []
  discard : List Window := []

/-- A store in memory, and the faults it shows at the moment. -/
structure FaultyStore where
  memory : MemoryStore := .empty
  faults : Faults := {}

namespace FaultyStore

instance : StateStore FaultyStore where
  load w := do
    let store ← get
    if w ∈ store.faults.load then throw (.unavailable w "load fault")
    return store.memory.state w
  save w s := do
    let store ← get
    if w ∈ store.faults.save then throw (.backend "store fault")
    set { store with memory := store.memory.put w s }
  discard w := do
    let store ← get
    if w ∈ store.faults.discard then throw (.backend "discard fault")
    set { store with memory := store.memory.erase w }

end FaultyStore

end PaneTriggers
