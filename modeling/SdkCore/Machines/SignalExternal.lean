import SdkCore.Machines.Failure

/-!
# The machine of a signal to another workflow

`SignalExternalMachine` follows a signal until lang is told whether it arrived. It can only be cancelled before it was
sent.
-/

namespace SdkCore

inductive SignalExternalWorkflowExecutionFailedCause
  | unspecified
  | externalWorkflowExecutionNotFound
  | namespaceNotFound
  | signalCountLimitExceeded
  deriving DecidableEq

inductive SignalExternalMachineEvents
  | schedule
  | commandSignalExternalWorkflowExecution
  | cancel
  | signalExternalWorkflowExecutionInitiated
  | externalWorkflowExecutionSignaled
  | signalExternalWorkflowExecutionFailed (cause : SignalExternalWorkflowExecutionFailedCause)
  deriving DecidableEq

inductive SignalExternalCommand
  | signaled
  | failed (cause : SignalExternalWorkflowExecutionFailedCause)
  | cancelled
  deriving DecidableEq

inductive SignalExternalMachineState
  | created
  | signalExternalCommandCreated
  | signalExternalCommandRecorded
  | signaled
  | failed
  | cancelled
  deriving DecidableEq

structure ResolveSignalExternalWorkflow where
  seq : Nat
  failure : Option Failure
  cause : SignalExternalWorkflowExecutionFailedCause

structure SignalExternalMachine where
  state : SignalExternalMachineState
  seq : Nat
  deriving DecidableEq

inductive SignalTarget
  | childWorkflowId (workflowId : String)
  | workflowExecution (ns workflowId runId : String)
  deriving DecidableEq

structure SignalExternalWorkflowExecution where
  seq : Nat
  target : Option SignalTarget
  signalName : String
  args : List Payload
  deriving DecidableEq

structure SignalExternalWorkflowExecutionCommandAttributes where
  ns : String
  workflowId : String
  runId : String
  signalName : String
  input : List Payload
  childWorkflowOnly : Bool
  deriving DecidableEq

namespace SignalExternalMachine

def sigCancelMsg : String := "Signal was cancelled before being sent"

/-- The transitions of `fsm!`. -/
def onEvent : SignalExternalMachineState → SignalExternalMachineEvents →
    Except TransitionError (List SignalExternalCommand × SignalExternalMachineState)
  | .created, .schedule => .ok ([], .signalExternalCommandCreated)
  | .signalExternalCommandCreated, .commandSignalExternalWorkflowExecution => .ok ([], .signalExternalCommandCreated)
  | .signalExternalCommandCreated, .cancel => .ok ([.cancelled], .cancelled)
  | .signalExternalCommandCreated, .signalExternalWorkflowExecutionInitiated =>
    .ok ([], .signalExternalCommandRecorded)
  | .signalExternalCommandRecorded, .cancel => .ok ([], .signalExternalCommandRecorded)
  | .signalExternalCommandRecorded, .externalWorkflowExecutionSignaled => .ok ([.signaled], .signaled)
  | .signalExternalCommandRecorded, .signalExternalWorkflowExecutionFailed cause => .ok ([.failed cause], .failed)
  | .cancelled, .cancel => .ok ([], .cancelled)
  | .signaled, .cancel => .ok ([], .signaled)
  | _, _ => .error .invalidTransition

def failedReason : SignalExternalWorkflowExecutionFailedCause → String
  | .unspecified => "unknown"
  | .externalWorkflowExecutionNotFound | .namespaceNotFound => "it was not found"
  | .signalCountLimitExceeded => "The per-workflow signal limit was exceeded"

def causeName : SignalExternalWorkflowExecutionFailedCause → String
  | .unspecified => "Unspecified"
  | .externalWorkflowExecutionNotFound => "ExternalWorkflowExecutionNotFound"
  | .namespaceNotFound => "NamespaceNotFound"
  | .signalCountLimitExceeded => "SignalCountLimitExceeded"

def resolve (seq : Nat) : SignalExternalCommand → ResolveSignalExternalWorkflow
  | .signaled => { seq, failure := none, cause := .unspecified }
  | .failed cause =>
    { seq, cause
      failure := some (.mk ("Unable to signal external workflow because " ++ failedReason cause)
        (some (.applicationFailureInfo (causeName cause))) none) }
  | .cancelled =>
    { seq, failure := some (.mk sigCancelMsg (some (.canceledFailureInfo none)) none), cause := .unspecified }

def handle (m : SignalExternalMachine) (event : SignalExternalMachineEvents) :
    Except TransitionError (List ResolveSignalExternalWorkflow × SignalExternalMachine) := do
  let (commands, state) ← onEvent m.state event
  return (commands.map (resolve m.seq), { m with state })

def cancel (m : SignalExternalMachine) :
    Except TransitionError (List ResolveSignalExternalWorkflow × SignalExternalMachine) := handle m .cancel

/-- A signal needs a target. -/
def newExternalSignal (attrs : SignalExternalWorkflowExecution) (thisNamespace : String) :
    Except TransitionError (SignalExternalWorkflowExecutionCommandAttributes × SignalExternalMachine) :=
  let machine : SignalExternalMachine := ⟨.signalExternalCommandCreated, attrs.seq⟩
  let command ns workflowId runId childWorkflowOnly : SignalExternalWorkflowExecutionCommandAttributes :=
    { ns, workflowId, runId, signalName := attrs.signalName, input := attrs.args, childWorkflowOnly }
  match attrs.target with
  | none => .error (.fatal "Signal external workflow command had empty target field")
  | some (.childWorkflowId workflowId) => .ok (command thisNamespace workflowId "" true, machine)
  | some (.workflowExecution ns workflowId runId) => .ok (command ns workflowId runId false, machine)

end SignalExternalMachine

end SdkCore
