import PaneTriggers.Json.Parser
import PaneTriggers.Json.Printer
import PaneTriggers.Store.Memory

/-!
# Snapshots

A snapshot lists windows with the nodes of their states. One that is taken from a store lists both
in ascending order; one that is read may list them in any order and repeat them. Restoring writes
each window's nodes in order onto the empty state, and of several entries for a window keeps the
last whose state is not empty.

As JSON, a snapshot and each window in it may also be written as the array of its fields. A
checkpoint is the text of a store's snapshot.
-/

namespace PaneTriggers

/-- Windows with the nodes of their states. -/
structure Snapshot where
  windows : List (Window × List (Position × NodeState))
deriving DecidableEq

namespace MemoryStore

/-- The states of a store, in window and position order. -/
def snapshot (m : MemoryStore) : Snapshot := ⟨m.toList.map fun e => (e.1, e.2.toList)⟩

/-- Puts the state listed for a window in its place, unless it is empty. -/
def restoreEntry (m : MemoryStore) (e : Window × List (Position × NodeState)) : MemoryStore :=
  let s := WindowState.ofList e.2
  if s.isEmpty then m else m.put e.1 s

/-- The store that a snapshot describes. -/
def restore (s : Snapshot) : MemoryStore := s.windows.foldl restoreEntry empty

end MemoryStore

namespace Timestamp

/-- Reads the milliseconds of an event time. -/
def ofJson? (v : Json) : Option Timestamp := v.int?.bind ofMillis?

end Timestamp

namespace Window

/-- A window as the object of its two ends. -/
def toJson (w : Window) : Json :=
  .obj [("start", .int w.start.millis), ("end", .int w.stop.millis)]

/-- Reads the two ends of a window. -/
def ofJson? (v : Json) : Option Window :=
  match v.record? ["start", "end"] with
  | some [start, stop] => do return ⟨← Timestamp.ofJson? start, ← Timestamp.ofJson? stop⟩
  | _ => none

end Window

namespace Position

/-- A position as the array of its indices. -/
def toJson (p : Position) : Json := .arr (p.path.map fun i => .int i.toNat)

/-- Reads the indices of a position, each of which has to fit 32 bits. -/
def ofJson? (v : Json) : Option Position := do
  let indices ← (← v.items?).mapM (Json.natUpTo? 4294967295)
  return ⟨indices.map UInt32.ofNat⟩

end Position

namespace Snapshot

/-- A node as the object of its position, finished bit and counter. -/
def nodeToJson (n : Position × NodeState) : Json :=
  .obj [("position", n.1.toJson), ("finished", .bool n.2.finished),
    ("counter", .int n.2.counter.toNat)]

/-- Reads a node. -/
def nodeOfJson? (v : Json) : Option (Position × NodeState) := do
  let p ← (← v.get? "position") |> Position.ofJson?
  let b ← (← v.get? "finished").bool?
  let c ← (← v.get? "counter").word? >>= Counter.ofNat?
  return (p, ⟨b, c⟩)

/-- A window with its nodes. -/
def entryToJson (e : Window × List (Position × NodeState)) : Json :=
  .obj [("window", e.1.toJson), ("nodes", .arr (e.2.map nodeToJson))]

/-- Reads a window with its nodes. -/
def entryOfJson? (v : Json) : Option (Window × List (Position × NodeState)) :=
  match v.record? ["window", "nodes"] with
  | some [w, ns] => do return (← Window.ofJson? w, ← (← ns.items?).mapM nodeOfJson?)
  | _ => none

/-- A snapshot as a JSON document. -/
def toJson (s : Snapshot) : Json := .obj [("windows", .arr (s.windows.map entryToJson))]

/-- Reads a snapshot. -/
def ofJson? (v : Json) : Option Snapshot :=
  match v.record? ["windows"] with
  | some [ws] => do return ⟨← (← ws.items?).mapM entryOfJson?⟩
  | _ => none

end Snapshot

namespace MemoryStore

/-- The text of a store's snapshot. -/
def checkpoint (m : MemoryStore) : String := m.snapshot.toJson.text

/-- The store that the text of a snapshot describes. -/
def ofCheckpoint? (s : String) : Option MemoryStore := do
  return restore (← Snapshot.ofJson? (← Json.parse? s))

end MemoryStore

end PaneTriggers
