import PaneTriggers.Time.Window
import PaneTriggers.State.WindowState

/-!
# Stores of window states

A store keeps the trigger state of each window. Each of its calls may fail, and what a failing
call leaves behind is up to the store.
-/

namespace PaneTriggers

/-- Why a store call failed. -/
inductive StoreError where
  | unavailable (window : Window) (reason : String)
  | backend (reason : String)
deriving DecidableEq

/-- The text of a store failure. -/
def StoreError.message : StoreError → String
  | unavailable w reason => "trigger state for window " ++ w.text ++ " is unavailable: " ++ reason
  | backend reason => "trigger state backend failure: " ++ reason

/-- A backend that keeps window states. -/
class StateStore (σ : Type) where
  /-- The state of a window. A window that was never saved has the empty state. -/
  load : Window → EStateM StoreError σ WindowState
  /-- Replaces the state of a window. -/
  save : Window → WindowState → EStateM StoreError σ Unit
  /-- Drops the state of a window. -/
  discard : Window → EStateM StoreError σ Unit
  /-- Replaces the sources of a merge by its destination. By default the sources other than the
  destination are discarded in order, and the destination is saved last. -/
  commitMerge : List Window → Window → WindowState → EStateM StoreError σ Unit :=
    fun sources destination state => do
      (sources.filter (· ≠ destination)).forM discard
      save destination state

end PaneTriggers
