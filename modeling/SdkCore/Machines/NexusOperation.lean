import SdkCore.Machines.Failure

/-!
# The machine of a Nexus operation

`NexusOperationMachine` follows a Nexus operation, by events of the history and cancellations by lang (`handle`).
-/

namespace SdkCore

/-! ## States, events and commands -/

inductive NexusOperationCancellationType
  | waitCancellationCompleted
  | abandon
  | tryCancel
  | waitCancellationRequested
  deriving DecidableEq

structure NexusOpScheduledData where
  eventId : Int
  service : String
  operation : String
  lastTaskInHistory : Bool
  deriving DecidableEq

inductive NexusOperationMachineEvents
  | commandScheduleNexusOperation
  | nexusOperationScheduled (data : NexusOpScheduledData)
  | cancel
  | commandRequestCancelNexusOperation
  | nexusOperationCancelRequested
  | nexusOperationStarted (operationToken : String)
  | nexusOperationCompleted (result : Option Payload)
  | nexusOperationFailed (failure : Option Failure)
  | nexusOperationCanceled (failure : Option Failure)
  | nexusOperationTimedOut (failure : Option Failure)
  | nexusOperationCancelRequestCompleted
  | nexusOperationCancelRequestFailed (failure : Option Failure)

inductive NexusOperationCommand
  | start (operationToken : String)
  | startSync
  | failBeforeStart (failure : Failure)
  | complete (result : Option Payload)
  | fail (failure : Failure)
  | cancel (failure : Failure)
  | timedOut (failure : Failure)
  | issueCancel

inductive NexusOperationMachineState
  | scheduleCommandCreated
  | scheduledEventRecorded
  | started
  | completed
  | failed
  | timedOut
  | cancelled
  deriving DecidableEq

structure NexusOperationSharedState where
  langSeqNum : Nat
  scheduledEventId : Int := 0
  endpoint : String
  service : String
  operation : String
  /-- Whether the flag for checks of service and operation may be used, in the last task of the history or before it. -/
  nexusOperationDeterminismChecks : Bool → Bool
  cancelledBeforeSent : Bool := false
  cancelSent : Bool := false
  cancelType : NexusOperationCancellationType
  operationToken : Option String := none

inductive NexusOperationStartStatus
  | operationToken (token : String)
  | startedSync
  | failed (failure : Failure)

inductive NexusOperationStatus
  | completed (result : Payload)
  | failed (failure : Failure)
  | cancelled (failure : Failure)
  | timedOut (failure : Failure)

inductive NexusOperationJob
  | resolveNexusOperationStart (seq : Nat) (status : NexusOperationStartStatus)
  | resolveNexusOperation (seq : Nat) (status : NexusOperationStatus)

namespace NexusOperationJob

def isStart : NexusOperationJob → Bool
  | resolveNexusOperationStart _ _ => true
  | _ => false

def isResult : NexusOperationJob → Bool
  | resolveNexusOperation _ _ => true
  | _ => false

end NexusOperationJob

inductive NexusOperationResponse
  | pushWFJob (job : NexusOperationJob)
  | requestCancelNexusOperation (scheduledEventId : Int)

def NexusOperationResponse.job? : NexusOperationResponse → Option NexusOperationJob
  | pushWFJob job => some job
  | requestCancelNexusOperation _ => none

structure NexusOperationMachine where
  state : NexusOperationMachineState
  sharedState : NexusOperationSharedState

structure ScheduleNexusOperation where
  seq : Nat
  endpoint : String
  service : String
  operation : String
  cancellationType : NexusOperationCancellationType
  deriving DecidableEq

namespace NexusOperationMachine

/-! ## Transitions -/

section

variable (ss : NexusOperationSharedState)

def failure (message : String) (cause : Failure) : Failure :=
  .mk message (some (.nexusOperationExecutionFailureInfo ss.scheduledEventId ss.endpoint ss.service ss.operation
    (ss.operationToken.getD ""))) (some cause)

def cancelledFailure (message : String) : Failure := failure ss message (.mk "" (some .canceledFailureInfo) none)

def orElse (failure : Option Failure) (message : String) : Failure := failure.getD (.mk message none none)

abbrev Transition :=
  Except TransitionError (List NexusOperationCommand × NexusOperationMachineState × NexusOperationSharedState)

def goTo (commands : List NexusOperationCommand) (state : NexusOperationMachineState) : Transition :=
  .ok (commands, state, ss)

/-- Lang gets the result with the cancellation. -/
def resolvesOnCancel (t : NexusOperationCancellationType) : Bool := t = .abandon || t = .tryCancel

def onScheduled (data : NexusOpScheduledData) : Transition :=
  if ss.nexusOperationDeterminismChecks data.lastTaskInHistory && data.service ≠ ss.service then
    .error (.nondeterminism ("Nexus operation service of scheduled event '" ++ data.service ++
      "' does not match service of command '" ++ ss.service ++ "'"))
  else if ss.nexusOperationDeterminismChecks data.lastTaskInHistory && data.operation ≠ ss.operation then
    .error (.nondeterminism ("Nexus operation of scheduled event '" ++ data.operation ++
      "' does not match operation of command '" ++ ss.operation ++ "'"))
  else .ok ([], .scheduledEventRecorded, { ss with scheduledEventId := data.eventId })

def onCancelledBeforeSent : Transition :=
  .ok ([.failBeforeStart (cancelledFailure { ss with cancelledBeforeSent := true }
    "Nexus Operation cancelled before scheduled")], .cancelled, { ss with cancelledBeforeSent := true })

/-- Requested once. Before the start, the operation stays where it is. -/
def onIssueCancelScheduled : Transition :=
  if !ss.cancelSent then .ok ([.issueCancel], .scheduledEventRecorded, { ss with cancelSent := true })
  else goTo ss [] .scheduledEventRecorded

def onIssueCancelStarted : Transition :=
  if !ss.cancelSent then
    .ok ([.issueCancel], if resolvesOnCancel ss.cancelType then .cancelled else .started,
      { ss with cancelSent := true })
  else goTo ss [] .started

def onStarted (operationToken : String) : Transition :=
  .ok ([.start operationToken], .started, { ss with operationToken := some operationToken })

def failedMessage : String := "Nexus operation failed but failure field was not populated"

def canceledMessage : String := "Nexus operation was cancelled but failure field was not populated"

def timedOutMessage : String := "Nexus operation timed out but failure field was not populated"

def onCancelRequestCompleted : Transition :=
  if ss.cancelType = .waitCancellationRequested then
    goTo ss [.cancel (cancelledFailure ss "Nexus operation cancellation request completed")] .cancelled
  else goTo ss [] .started

/-- The machine goes on waiting for the end. -/
def onCancelRequestFailed (fa : Option Failure) : Transition :=
  if ss.cancelType = .waitCancellationRequested then
    goTo ss [.fail (failure ss "Nexus operation cancellation request failed"
      (orElse fa "Nexus operation cancellation request failed"))] .started
  else goTo ss [] .started

/-- Abandoned ones are rejected, the opposite of what the message says. -/
def onLateEnd : Transition :=
  if ss.cancelType = .abandon then
    .error (.nondeterminism ("Nexus operation which don't have the ABANDON cancellation type cannot complete after " ++
      "being cancelled."))
  else goTo ss [] .cancelled

/-- The transitions of `fsm!`. -/
def onEvent : NexusOperationMachineState → NexusOperationMachineEvents → Transition
  | .scheduleCommandCreated, .commandScheduleNexusOperation => goTo ss [] .scheduleCommandCreated
  | .scheduleCommandCreated, .nexusOperationScheduled data => onScheduled ss data
  | .scheduleCommandCreated, .cancel => onCancelledBeforeSent ss
  | .scheduledEventRecorded, .cancel => onIssueCancelScheduled ss
  | .scheduledEventRecorded, .commandRequestCancelNexusOperation => goTo ss [] .scheduledEventRecorded
  | .scheduledEventRecorded, .nexusOperationCancelRequested => goTo ss [] .scheduledEventRecorded
  | .scheduledEventRecorded, .nexusOperationCompleted result => goTo ss [.startSync, .complete result] .completed
  | .scheduledEventRecorded, .nexusOperationFailed fa => goTo ss [.failBeforeStart (orElse fa failedMessage)] .failed
  | .scheduledEventRecorded, .nexusOperationCanceled fa =>
    goTo ss [.failBeforeStart (orElse fa canceledMessage)] .cancelled
  | .scheduledEventRecorded, .nexusOperationTimedOut fa =>
    goTo ss [.failBeforeStart (orElse fa timedOutMessage)] .timedOut
  | .scheduledEventRecorded, .nexusOperationStarted operationToken => onStarted ss operationToken
  | .started, .cancel => onIssueCancelStarted ss
  | .started, .commandRequestCancelNexusOperation => goTo ss [] .started
  | .started, .nexusOperationCancelRequested => goTo ss [] .started
  | .started, .nexusOperationCompleted result => goTo ss [.complete result] .completed
  | .started, .nexusOperationFailed fa => goTo ss [.fail (orElse fa failedMessage)] .failed
  | .started, .nexusOperationCanceled fa => goTo ss [.cancel (orElse fa canceledMessage)] .cancelled
  | .started, .nexusOperationCancelRequestCompleted => onCancelRequestCompleted ss
  | .started, .nexusOperationCancelRequestFailed fa => onCancelRequestFailed ss fa
  | .started, .nexusOperationTimedOut fa => goTo ss [.timedOut (orElse fa timedOutMessage)] .timedOut
  | .cancelled, .cancel => goTo ss [] .cancelled
  | .cancelled, .commandRequestCancelNexusOperation => goTo ss [] .cancelled
  | .cancelled, .nexusOperationCancelRequested => goTo ss [] .cancelled
  | .cancelled, .nexusOperationCompleted _ => onLateEnd ss
  | .cancelled, .nexusOperationFailed _ => onLateEnd ss
  | .cancelled, .nexusOperationTimedOut _ => onLateEnd ss
  | .cancelled, .nexusOperationCancelRequestCompleted => goTo ss [] .cancelled
  | .cancelled, .nexusOperationCancelRequestFailed _ => goTo ss [] .cancelled
  | .cancelled, .nexusOperationCanceled _ => goTo ss [] .cancelled
  | .completed, .cancel => goTo ss [] .completed
  | .failed, .cancel => goTo ss [] .failed
  | .timedOut, .cancel => goTo ss [] .timedOut
  | .completed, .nexusOperationCancelRequestCompleted => goTo ss [] .completed
  | .failed, .nexusOperationCancelRequestCompleted => goTo ss [] .failed
  | .timedOut, .nexusOperationCancelRequestCompleted => goTo ss [] .timedOut
  | .completed, .nexusOperationCancelRequestFailed _ => goTo ss [] .completed
  | .failed, .nexusOperationCancelRequestFailed _ => goTo ss [] .failed
  | .timedOut, .nexusOperationCancelRequestFailed _ => goTo ss [] .timedOut
  | _, _ => .error .invalidTransition

def resolveStart (status : NexusOperationStartStatus) : NexusOperationResponse :=
  .pushWFJob (.resolveNexusOperationStart ss.langSeqNum status)

def resolve (status : NexusOperationStatus) : NexusOperationResponse :=
  .pushWFJob (.resolveNexusOperation ss.langSeqNum status)

def adaptResponse : NexusOperationCommand → List NexusOperationResponse
  | .startSync => [resolveStart ss .startedSync]
  | .start token => [resolveStart ss (.operationToken token)]
  | .failBeforeStart failure => [resolveStart ss (.failed failure)]
  | .complete result => [resolve ss (.completed (result.getD default))]
  | .fail failure => [resolve ss (.failed failure)]
  | .cancel failure => [resolve ss (.cancelled failure)]
  | .timedOut failure => [resolve ss (.timedOut failure)]
  | .issueCancel =>
    (if ss.cancelType ≠ .abandon then [.requestCancelNexusOperation ss.scheduledEventId] else []) ++
      if resolvesOnCancel ss.cancelType then
        [resolve ss (.cancelled (cancelledFailure ss "Nexus operation cancelled after starting"))] else []

end

def handle (m : NexusOperationMachine) (event : NexusOperationMachineEvents) :
    Except TransitionError (List NexusOperationResponse × NexusOperationMachine) := do
  let (commands, state, ss) ← onEvent m.sharedState m.state event
  return (commands.flatMap (adaptResponse ss), { state, sharedState := ss })

def newScheduled (attribs : ScheduleNexusOperation) (checks : Bool → Bool) : NexusOperationMachine where
  state := .scheduleCommandCreated
  sharedState :=
    { langSeqNum := attribs.seq, endpoint := attribs.endpoint, service := attribs.service
      operation := attribs.operation, cancelType := attribs.cancellationType
      nexusOperationDeterminismChecks := checks }

end NexusOperationMachine

end SdkCore
