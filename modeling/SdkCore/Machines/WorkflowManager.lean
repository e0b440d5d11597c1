import SdkCore.Machines.WorkflowMachines

/-!
# The workflow manager

`WorkflowManager` decides when the machines get new tasks, pages of history, commands of lang, and results of local
activities, which wait while lang is busy and between tasks.
-/

namespace SdkCore

/-- The machines, and whether lang is busy. -/
structure WorkflowManager (σ : Type) where
  machines : WorkflowMachines σ
  awaitingActivationCompletion : Bool := false
  awaitingNextWft : Bool := false
  deferredLocalResolutions : List LocalResolution := []

namespace WorkflowManager

open WorkflowMachines

variable {σ : Type} (B : Behaviour σ)

abbrev WOp (σ : Type) := Op (WorkflowManager σ) WFMachinesError

def onMachines {α : Type} (x : MOp σ α) : WOp σ α := Op.zoom machines (fun w m => { w with machines := m }) x

def localResolutions : List LocalResolution → MOp σ Unit
  | [] => pure ()
  | res :: rest => do
    localResolution B res
    localResolutions rest

/-- Results that waited. -/
def applyDeferredLocalResolutions : WOp σ Unit := do
  let w ← get
  if w.awaitingActivationCompletion || w.awaitingNextWft then pure ()
  else
    modify fun w => { w with deferredLocalResolutions := [] }
    onMachines (localResolutions B w.deferredLocalResolutions)

def getWfActivation : WOp σ WorkflowActivation := do
  let w ← get
  modify fun w => { w with machines := w.machines.getWfActivation.2 }
  return w.machines.getWfActivation.1

/-- Without jobs the next sequence is applied first. -/
def getNextActivation : WOp σ WorkflowActivation := do
  let activation ← getWfActivation
  let activation ← if activation.jobs.isEmpty then (do
      let _ ← onMachines (applyNextWftFromHistory B)
      getWfActivation)
    else pure activation
  modify fun w => { w with awaitingActivationCompletion := !activation.jobs.isEmpty }
  return activation

def newWorkFromServer (update : HistoryUpdate) (messages : List Nat) (preparingLegacyQuery : Bool) :
    WOp σ WorkflowActivation := do
  onMachines (WorkflowMachines.newWorkFromServer B update messages preparingLegacyQuery)
  modify fun w => { w with awaitingNextWft := false }
  applyDeferredLocalResolutions B
  getNextActivation B

def feedHistoryFromNewPage (update : HistoryUpdate) : WOp σ Unit := onMachines (newHistoryFromServer B update)

/-- A result that comes while lang is busy, or between tasks, waits. -/
def notifyOfLocalResult (resolved : LocalResolution) : WOp σ Unit := do
  let w ← get
  if w.awaitingActivationCompletion || w.awaitingNextWft then
    modify fun w => { w with deferredLocalResolutions := w.deferredLocalResolutions ++ [resolved] }
  else onMachines (localResolution B resolved)

def readyToApplyNextWft (w : WorkflowManager σ) : Bool := w.machines.readyToApplyNextWft

/-- Sequences are applied while there are events, replay goes on and there are no jobs. -/
def applyTasks : Nat → MOp σ Unit
  | 0 => pure ()
  | fuel + 1 => do
    let consumedEvents ← applyNextWftFromHistory B
    let m ← get
    if consumedEvents = 0 || !m.replaying || m.hasPendingJobs then pure ()
    else applyTasks fuel

/-- Every round but the last takes an event. -/
def applyNextTaskIfReady : WOp σ Unit := do
  let m := (← get).machines
  if m.hasPendingJobs then pure ()
  else onMachines (applyTasks B (m.lastHistoryFromServer.events.length + 1))

def pushCommandsAndIterate (commands : List WFCommand) : WOp σ Unit := do
  onMachines (iterateMachines B commands)
  modify fun w => { w with awaitingActivationCompletion := false }
  applyDeferredLocalResolutions B

/-- Commands, then the page, if any, and then the next sequences, unless the run is broken. -/
def applyCompletion (commands : List WFCommand) (updateFromNewPage : Option HistoryUpdate) (amBroken : Bool) :
    WOp σ Unit := do
  pushCommandsAndIterate B commands
  match updateFromNewPage with
  | some update => feedHistoryFromNewPage B update
  | none => pure ()
  if amBroken then pure () else applyNextTaskIfReady B

def wftCompletionReported (w : WorkflowManager σ) : WorkflowManager σ := { w with awaitingNextWft := true }

/-- Whatever a managed run asks of its workflow manager. -/
inductive Asks (w : WorkflowManager σ) : WorkflowManager σ → Prop
  | work (u : HistoryUpdate) (messages : List Nat) (legacy : Bool) :
      Asks w (Op.exec (newWorkFromServer B u messages legacy) w).2
  | activation : Asks w (Op.exec (getNextActivation B) w).2
  | queries : Asks w (Op.exec getWfActivation w).2
  | localResult (res : LocalResolution) : Asks w (Op.exec (notifyOfLocalResult B res) w).2
  | completion (commands : List WFCommand) (page : Option HistoryUpdate) (amBroken : Bool) :
      Asks w (Op.exec (applyCompletion B commands page amBroken) w).2
  | drain : Asks w { w with machines := (w.machines.drainQueuedLocalActivities B).2 }
  | reported : Asks w w.wftCompletionReported
  | reset (id : Int) : Asks w { w with machines := w.machines.resetLastStartedId B id }

end WorkflowManager

end SdkCore
