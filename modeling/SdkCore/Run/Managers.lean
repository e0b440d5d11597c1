import SdkCore.Run.Types

/-!
# The managers of a run

`Managers.ops` makes the model of the workflow manager, over any machines, and any manager of local activities into what
a run asks for.
-/

namespace SdkCore

/-- What a run asks of its local activities. -/
structure LocalActivities (τ : Type) where
  sinkReqs : List LocalActRequest → τ → List LocalResolution × τ
  hasUndeliveredCancels : τ → Bool

def LocalActivities.absent : LocalActivities Unit where
  sinkReqs _ t := ([], t)
  hasUndeliveredCancels _ := false

structure Managers (σ τ : Type) where
  wfm : WorkflowManager σ
  las : τ

namespace Managers

variable {σ τ : Type}

def onWfm {α : Type} (x : WorkflowManager.WOp σ α) (m : Managers σ τ) :
    Except WFMachinesError α × Managers σ τ :=
  ((x.exec m.wfm).1, { m with wfm := (x.exec m.wfm).2 })

def onMachines (f : WorkflowMachines σ → WorkflowMachines σ) (m : Managers σ τ) : Managers σ τ :=
  { m with wfm := { m.wfm with machines := f m.wfm.machines } }

/-- What a run asks of both. -/
def ops (B : Behaviour σ) (L : LocalActivities τ) (start : RunId → Nat → σ × τ) : ManagerOps (Managers σ τ) where
  new runId n := { wfm := { machines := { inner := (start runId n).1 } }, las := (start runId n).2 }
  newWorkFromServer update messages legacyQuery :=
    onWfm (WorkflowManager.newWorkFromServer B update messages legacyQuery)
  getNextActivation := onWfm (WorkflowManager.getNextActivation B)
  getWfActivation m := (m.wfm.machines.getWfActivation.1, onMachines (fun w => w.getWfActivation.2) m)
  applyCompletion commands page amBroken := onWfm (WorkflowManager.applyCompletion B commands page amBroken)
  notifyOfLocalResult res := onWfm (WorkflowManager.notifyOfLocalResult B res)
  drainQueuedLocalActivities m :=
    ((m.wfm.machines.drainQueuedLocalActivities B).1, onMachines (fun w => (w.drainQueuedLocalActivities B).2) m)
  sinkReqs reqs m := ((L.sinkReqs reqs m.las).1, { m with las := (L.sinkReqs reqs m.las).2 })
  hasUndeliveredCancels m := L.hasUndeliveredCancels m.las
  wftCompletionReported m := { m with wfm := m.wfm.wftCompletionReported }
  resetLastStartedId id := onMachines (fun w => w.resetLastStartedId B id)
  readyToApplyNextWft m := m.wfm.readyToApplyNextWft
  hasPendingJobs m := m.wfm.machines.hasPendingJobs
  hasPendingLaResolutions m := m.wfm.machines.hasPendingLaResolutions
  outstandingLocalActivityCount m := m.wfm.machines.outstandingLocalActivityCount B
  hasTaskTimeout m := B.hasTaskTimeout m.wfm.machines.inner
  replaying m := m.wfm.machines.replaying
  haveSeenTerminalEvent m := m.wfm.machines.haveSeenTerminalEvent
  workflowIsFinished m := m.wfm.machines.workflowIsFinished
  lastWftStartedId m := m.wfm.machines.currentStartedEventId
  lastProcessedEvent m := m.wfm.machines.lastProcessedEvent
  hasCommands m := B.hasCommands m.wfm.machines.inner
  hasMessages m := B.hasMessages m.wfm.machines.inner
  useMoveTerminalCommands m := B.useMoveTerminalCommands m.wfm.machines.inner

end Managers

/-- Signals, and no local activities. -/
abbrev signalOps : ManagerOps (Managers Unit Unit) := Managers.ops .signals .absent fun _ _ => ((), ())

namespace PermittedWFT

def ofStart (runId : RunId) (taskToken : TaskToken) (queryRequests : List QueryId) : PermittedWFT where
  work :=
    { taskToken, attempt := 1, runId, legacyQuery := false, queryRequests
      update :=
        { events := [⟨1, .workflowExecutionStarted, some .other⟩, ⟨2, .workflowTaskScheduled, some .other⟩,
            ⟨3, .workflowTaskStarted, some (.workflowTaskStarted 2)⟩]
          previousWftStartedId := 0, wftStartedId := 3, hasLastWft := true, wftCount := 1 } }
  paginator := { runId, previousWftStartedId := 0, wftStartedEventId := 3, nextPageToken := .done }

/-- A later task without earlier history, or a query. -/
def ofSticky (runId : RunId) (taskToken : TaskToken) (legacyQuery : Bool) : PermittedWFT where
  work :=
    { taskToken, attempt := 1, runId, legacyQuery, queryRequests := []
      update :=
        { events := [], previousWftStartedId := 3, wftStartedId := if legacyQuery then 0 else 6, hasLastWft := true
          wftCount := 1 } }
  paginator := { runId, previousWftStartedId := 3, wftStartedEventId := 6, nextPageToken := .done }

end PermittedWFT

end SdkCore
