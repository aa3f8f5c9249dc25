import PaneTriggers.Runner.Operation
import PaneTriggers.Store.Faulty
import PaneTriggers.Store.Snapshot
import PaneTriggers.Trigger.Scripted
import PaneTriggers.Proofs.Conduct
import PaneTriggers.Proofs.TreeEffects
import PaneTriggers.Proofs.LawfulStore
import PaneTriggers.Proofs.RunnerSteps
import PaneTriggers.Proofs.Invariants
import PaneTriggers.Proofs.Phases
import PaneTriggers.Proofs.ScriptedConduct
import PaneTriggers.Proofs.EndOfWindow
import PaneTriggers.Proofs.TickInvariant
import PaneTriggers.Proofs.OnTimePane
import PaneTriggers.Proofs.CountingMachine
import PaneTriggers.Proofs.CountingRefinement
import PaneTriggers.Proofs.TreeTimers
import PaneTriggers.Proofs.TwinWindows
import PaneTriggers.Proofs.ActiveChild
import PaneTriggers.Proofs.StepFrames
import PaneTriggers.Proofs.Changes
import PaneTriggers.Proofs.PaneCalls
import PaneTriggers.Proofs.WakeUps
import PaneTriggers.Proofs.MergedState
import PaneTriggers.Proofs.MergeOrder
import PaneTriggers.Proofs.PendingCounts
import PaneTriggers.Proofs.OwedPane
import PaneTriggers.Proofs.Courses
import PaneTriggers.Proofs.PendingPanes
import PaneTriggers.Proofs.MergeOutcome
import PaneTriggers.Proofs.Collections
import PaneTriggers.Proofs.LastPanes
import PaneTriggers.Proofs.ErrorFree
import PaneTriggers.Proofs.ClosedWindows
import PaneTriggers.Proofs.BarredWindows
import PaneTriggers.Proofs.FailedSteps
import PaneTriggers.Proofs.FailedFirings
import PaneTriggers.Proofs.StrandedTimers
import PaneTriggers.Proofs.OrphanedStates
import PaneTriggers.Proofs.JsonRoundTrip
import PaneTriggers.Proofs.Snapshots
import PaneTriggers.Proofs.Checkpoints
import PaneTriggers.Proofs.Lockstep
import PaneTriggers.Proofs.Resumption
import PaneTriggers.Proofs.Receptive
import PaneTriggers.Proofs.Slices
import PaneTriggers.Proofs.WindowsApart
import PaneTriggers.Proofs.WatermarkSteps
import PaneTriggers.Proofs.ExactTimes
import PaneTriggers.Proofs.DeliverableTimers
import PaneTriggers.Proofs.LogSegments
import PaneTriggers.Proofs.CompiledTrees
import PaneTriggers.Proofs.RunnerDocuments
import PaneTriggers.Proofs.Continuations
import PaneTriggers.Proofs.StateWrites
import PaneTriggers.Proofs.TimerCalls
