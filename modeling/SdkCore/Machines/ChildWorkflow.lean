import SdkCore.Machines.Failure

/-!
# The machine of a child workflow

`ChildWorkflowMachine` follows a child workflow, by events of the history and cancellations by lang (`handle`).
-/

namespace SdkCore

/-! ## States, events and commands -/

inductive ChildWorkflowCancellationType
  | abandon
  | tryCancel
  | waitCancellationCompleted
  | waitCancellationRequested
  deriving DecidableEq

inductive StartChildWorkflowExecutionFailedCause
  | unspecified
  | workflowAlreadyExists
  | namespaceNotFound
  | invalidVersioningOverride
  deriving DecidableEq

structure ChildWorkflowInitiatedData where
  eventId : Int
  wfType : String
  wfId : String
  lastTaskInHistory : Bool
  deriving DecidableEq

structure ChildWorkflowExecutionStartedEvent where
  runId : String
  startedEventId : Int
  deriving DecidableEq

inductive ChildWorkflowMachineEvents
  | schedule
  | commandStartChildWorkflowExecution
  | startChildWorkflowExecutionInitiated (data : ChildWorkflowInitiatedData)
  | cancel (reason : String)
  | childWorkflowExecutionStarted (event : ChildWorkflowExecutionStartedEvent)
  | startChildWorkflowExecutionFailed (cause : StartChildWorkflowExecutionFailedCause)
  | commandRequestCancelExternalWorkflowExecution
  | childWorkflowExecutionCompleted (result : Option (List Payload))
  | childWorkflowExecutionFailed (failure : Option Failure) (retryState : RetryState)
  | childWorkflowExecutionTimedOut (retryState : RetryState)
  | childWorkflowExecutionCancelled
  | childWorkflowExecutionTerminated

inductive ChildWorkflowCommand
  | start (runId : String)
  | complete (result : Option (List Payload))
  | fail (failure : Failure)
  | cancel
  | startFail (cause : StartChildWorkflowExecutionFailedCause)
  | startCancel (failure : Failure)
  | issueCancelAfterStarted (reason : String)

inductive ChildWorkflowMachineState
  | created
  | startCommandCreated
  | startEventRecorded
  | started
  | cancelled (seenCancelledEvent : Bool)
  | completed
  | failed
  | startFailed
  | timedOut
  | terminated
  deriving DecidableEq

structure ChildWorkflowSharedState where
  initiatedEventId : Int := 0
  startedEventId : Int := 0
  langSequenceNumber : Nat
  ns : String
  workflowId : String
  runId : String := ""
  workflowType : String
  cancelledBeforeSent : Bool := false
  cancelType : ChildWorkflowCancellationType
  /-- Whether the flag for checks of id and type may be used, in the last task of the history or before it. -/
  idAndTypeDeterminismChecks : Bool → Bool

inductive ChildWorkflowStartStatus
  | succeeded (runId : String)
  | failed (workflowId workflowType : String) (cause : StartChildWorkflowExecutionFailedCause)
  | cancelled (failure : Failure)

inductive ChildWorkflowStatus
  | completed (result : Option Payload)
  | failed (failure : Failure)
  | cancelled (failure : Failure)

inductive ChildWorkflowJob
  | resolveChildWorkflowExecutionStart (seq : Nat) (status : ChildWorkflowStartStatus)
  | resolveChildWorkflowExecution (seq : Nat) (status : ChildWorkflowStatus)

namespace ChildWorkflowJob

def isStart : ChildWorkflowJob → Bool
  | resolveChildWorkflowExecutionStart _ _ => true
  | _ => false

def isResult : ChildWorkflowJob → Bool
  | resolveChildWorkflowExecution _ _ => true
  | _ => false

def isStartSuccess : ChildWorkflowJob → Bool
  | resolveChildWorkflowExecutionStart _ (.succeeded _) => true
  | _ => false

end ChildWorkflowJob

inductive ChildWorkflowResponse
  | pushWFJob (job : ChildWorkflowJob)
  | newCoreOriginatedCommand (ns workflowId runId reason : String)

def ChildWorkflowResponse.job? : ChildWorkflowResponse → Option ChildWorkflowJob
  | pushWFJob job => some job
  | newCoreOriginatedCommand .. => none

structure ChildWorkflowMachine where
  state : ChildWorkflowMachineState
  sharedState : ChildWorkflowSharedState

structure StartChildWorkflowExecution where
  seq : Nat
  ns : String
  workflowId : String
  workflowType : String
  cancellationType : ChildWorkflowCancellationType
  deriving DecidableEq

namespace ChildWorkflowMachine

/-! ## Transitions -/

section

variable (ss : ChildWorkflowSharedState)

/-- Lang gets the result with the cancellation. -/
def resolvesImmediatelyOnCancel (t : ChildWorkflowCancellationType) : Bool :=
  t = .abandon || t = .tryCancel

def failureInfoFromState (retryState : RetryState) : Option FailureInfo :=
  some (.childWorkflowExecutionFailureInfo ss.ns ss.workflowType ss.workflowId ss.runId ss.initiatedEventId
    ss.startedEventId retryState)

abbrev Transition := Except TransitionError (List ChildWorkflowCommand × ChildWorkflowMachineState ×
    ChildWorkflowSharedState)

def goTo (commands : List ChildWorkflowCommand) (state : ChildWorkflowMachineState) : Transition :=
  .ok (commands, state, ss)

def onStartChildWorkflowExecutionInitiated (data : ChildWorkflowInitiatedData) : Transition :=
  if ss.idAndTypeDeterminismChecks data.lastTaskInHistory && data.wfId ≠ ss.workflowId then
    .error (.nondeterminism ("Child workflow id of scheduled event '" ++ data.wfId ++
      "' does not match child workflow id of command '" ++ ss.workflowId ++ "'"))
  else if ss.idAndTypeDeterminismChecks data.lastTaskInHistory && data.wfType ≠ ss.workflowType then
    .error (.nondeterminism ("Child workflow type of scheduled event '" ++ data.wfType ++
      "' does not match child workflow type of command '" ++ ss.workflowType ++ "'"))
  else .ok ([], .startEventRecorded, { ss with initiatedEventId := data.eventId })

def onCancelledBeforeSent (reason : String) : Transition :=
  let failure := .mk ("Child Workflow Execution cancelled before scheduled: " ++ reason)
    (failureInfoFromState ss .nonRetryableFailure) (some (.mk "" (some .canceledFailureInfo) none))
  .ok ([.startCancel failure], .cancelled false, { ss with cancelledBeforeSent := true })

/-- The child is about to start, or runs. -/
def onCancelled (waiting : ChildWorkflowMachineState) (reason : String) : Transition :=
  goTo ss [.issueCancelAfterStarted reason]
    (if resolvesImmediatelyOnCancel ss.cancelType then .cancelled false else waiting)

def onChildWorkflowExecutionStarted (event : ChildWorkflowExecutionStartedEvent) : Transition :=
  .ok ([.start event.runId], .started, { ss with startedEventId := event.startedEventId, runId := event.runId })

def onChildWorkflowExecutionFailed (failure : Option Failure) (retryState : RetryState) : Transition :=
  goTo ss [.fail (.mk "Child Workflow execution failed" (failureInfoFromState ss retryState) failure)] .failed

def onChildWorkflowExecutionTimedOut (retryState : RetryState) : Transition :=
  goTo ss [.fail (.mk "Child Workflow execution timed out" (failureInfoFromState ss retryState)
    (some (.mk "Timed out" (some (.timeoutFailureInfo .startToClose)) none)))] .timedOut

def onChildWorkflowExecutionTerminated : Transition :=
  goTo ss [.fail (.mk "Child Workflow execution terminated" (failureInfoFromState ss .nonRetryableFailure)
    (some (.mk "Terminated" (some .terminatedFailureInfo) none)))] .terminated

/-- Lang had the result already, or not. -/
def onCancelledEventWhenCancelled (seenCancelledEvent : Bool) : Transition :=
  if seenCancelledEvent then
    .error (.fatal ("Child workflow has already seen a ChildWorkflowExecutionCanceledEvent, and now another is " ++
      "being applied! This is a bug, please report."))
  else goTo ss [] (.cancelled true)

/-- The child ended otherwise after it was cancelled. -/
def onLateEnd (seenCancelledEvent : Bool) : Transition :=
  if !resolvesImmediatelyOnCancel ss.cancelType then
    .error (.nondeterminism ("Child workflows which don't resolve immediately on cancellation cannot complete after " ++
      "being cancelled."))
  else goTo ss [] (.cancelled seenCancelledEvent)

/-- The transitions of `fsm!`. -/
def onEvent : ChildWorkflowMachineState → ChildWorkflowMachineEvents → Transition
  | .created, .schedule => goTo ss [] .startCommandCreated
  | .startCommandCreated, .commandStartChildWorkflowExecution => goTo ss [] .startCommandCreated
  | .startCommandCreated, .startChildWorkflowExecutionInitiated data => onStartChildWorkflowExecutionInitiated ss data
  | .startCommandCreated, .cancel reason => onCancelledBeforeSent ss reason
  | .startEventRecorded, .childWorkflowExecutionStarted event => onChildWorkflowExecutionStarted ss event
  | .startEventRecorded, .startChildWorkflowExecutionFailed cause => goTo ss [.startFail cause] .startFailed
  | .startEventRecorded, .cancel reason => onCancelled ss .startEventRecorded reason
  | .startEventRecorded, .commandRequestCancelExternalWorkflowExecution => goTo ss [] .startEventRecorded
  | .started, .childWorkflowExecutionCompleted result => goTo ss [.complete result] .completed
  | .started, .childWorkflowExecutionFailed failure retryState => onChildWorkflowExecutionFailed ss failure retryState
  | .started, .childWorkflowExecutionTimedOut retryState => onChildWorkflowExecutionTimedOut ss retryState
  | .started, .childWorkflowExecutionCancelled => goTo ss [.cancel] (.cancelled true)
  | .started, .childWorkflowExecutionTerminated => onChildWorkflowExecutionTerminated ss
  | .started, .cancel reason => onCancelled ss .started reason
  | .started, .commandRequestCancelExternalWorkflowExecution => goTo ss [] .started
  | .cancelled seen, .cancel _ => goTo ss [] (.cancelled seen)
  | .cancelled seen, .childWorkflowExecutionStarted _ => goTo ss [] (.cancelled seen)
  | .cancelled seen, .startChildWorkflowExecutionFailed _ => goTo ss [] (.cancelled seen)
  | .cancelled seen, .commandRequestCancelExternalWorkflowExecution => goTo ss [] (.cancelled seen)
  | .cancelled seen, .childWorkflowExecutionCancelled => onCancelledEventWhenCancelled ss seen
  | .cancelled seen, .childWorkflowExecutionCompleted _ => onLateEnd ss seen
  | .cancelled seen, .childWorkflowExecutionFailed _ _ => onLateEnd ss seen
  | .cancelled seen, .childWorkflowExecutionTimedOut _ => onLateEnd ss seen
  | .cancelled seen, .childWorkflowExecutionTerminated => onLateEnd ss seen
  | .failed, .cancel _ => goTo ss [] .failed
  | .startFailed, .cancel _ => goTo ss [] .startFailed
  | .timedOut, .cancel _ => goTo ss [] .timedOut
  | .completed, .cancel _ => goTo ss [] .completed
  | _, _ => .error .invalidTransition

def convertPayloads : Option (List Payload) → Except TransitionError (Option Payload)
  | none => .ok none
  | some [p] => .ok (some p)
  | some [] => .error (.fatal "Not exactly one payload in child workflow result (NoPayload)")
  | some _ => .error (.fatal "Not exactly one payload in child workflow result (MoreThanOnePayload)")

def resolveCancelledMsg : ChildWorkflowJob :=
  .resolveChildWorkflowExecution ss.langSequenceNumber (.cancelled (.mk "Child Workflow execution cancelled"
    (failureInfoFromState ss .nonRetryableFailure) (some (.mk "" (some .canceledFailureInfo) none))))

def adaptResponse : ChildWorkflowCommand → Except TransitionError (List ChildWorkflowResponse)
  | .start runId => .ok [.pushWFJob (.resolveChildWorkflowExecutionStart ss.langSequenceNumber (.succeeded runId))]
  | .startFail cause =>
    .ok [.pushWFJob (.resolveChildWorkflowExecutionStart ss.langSequenceNumber
      (.failed ss.workflowId ss.workflowType cause))]
  | .startCancel failure =>
    .ok [.pushWFJob (.resolveChildWorkflowExecutionStart ss.langSequenceNumber (.cancelled failure))]
  | .complete result => do
    return [.pushWFJob (.resolveChildWorkflowExecution ss.langSequenceNumber (.completed (← convertPayloads result)))]
  | .fail failure => .ok [.pushWFJob (.resolveChildWorkflowExecution ss.langSequenceNumber (.failed failure))]
  | .cancel => .ok [.pushWFJob (resolveCancelledMsg ss)]
  | .issueCancelAfterStarted reason =>
    .ok ((if ss.cancelType ≠ .abandon then
        [.newCoreOriginatedCommand ss.ns ss.workflowId ss.runId reason] else []) ++
      if resolvesImmediatelyOnCancel ss.cancelType then [.pushWFJob (resolveCancelledMsg ss)] else [])

def adaptResponses : List ChildWorkflowCommand → Except TransitionError (List ChildWorkflowResponse)
  | [] => .ok []
  | c :: cs => do return (← adaptResponse ss c) ++ (← adaptResponses cs)

end

def handle (m : ChildWorkflowMachine) (event : ChildWorkflowMachineEvents) :
    Except TransitionError (List ChildWorkflowResponse × ChildWorkflowMachine) := do
  let (commands, state, ss) ← onEvent m.sharedState m.state event
  return (← adaptResponses ss commands, { state, sharedState := ss })

/-- After the event `schedule`, which does not fail. -/
def newScheduled (attribs : StartChildWorkflowExecution) (checks : Bool → Bool) : ChildWorkflowMachine where
  state := .startCommandCreated
  sharedState :=
    { langSequenceNumber := attribs.seq, ns := attribs.ns, workflowId := attribs.workflowId
      workflowType := attribs.workflowType, cancelType := attribs.cancellationType
      idAndTypeDeterminismChecks := checks }

end ChildWorkflowMachine

end SdkCore
