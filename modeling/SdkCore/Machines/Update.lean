import SdkCore.Machines.Failure

/-!
# The machine of an update

Lang accepts or rejects an update and then completes it or lets it fail (`handleResponse`). The server is told with
protocol messages; acceptance and outcome also need a command, which points to the message.
-/

namespace SdkCore

/-- Sent back with the answer. -/
structure UpdateRequest where
  updateId : String
  name : String
  input : List Payload
  deriving DecidableEq

structure DoUpdate where
  id : String
  protocolInstanceId : String
  name : String
  input : List Payload
  runValidator : Bool
  deriving DecidableEq

inductive UpdateOutcome
  | success (payload : Payload)
  | failure (failure : Failure)

inductive UpdateMsg
  | accept (acceptedRequestMessageId : String) (acceptedRequestSequencingEventId : Int)
    (acceptedRequest : UpdateRequest)
  | reject (rejectedRequestMessageId : String) (rejectedRequestSequencingEventId : Int)
    (rejectedRequest : UpdateRequest)
    (failure : Failure)
  | response (updateId : String) (outcome : UpdateOutcome)

structure ProtocolMessage where
  id : String
  protocolInstanceId : String
  body : UpdateMsg

inductive UpdateLangResponse
  | accepted
  | rejected (failure : Failure)
  | completed (payload : Payload)

inductive UpdateMachineEvents
  | accept
  | reject (failure : Failure)
  | complete (payload : Payload)
  | commandProtocolMessage
  | workflowExecutionUpdateAccepted
  | workflowExecutionUpdateCompleted

def UpdateLangResponse.event : UpdateLangResponse → UpdateMachineEvents
  | .accepted => .accept
  | .rejected failure => .reject failure
  | .completed payload => .complete payload

inductive UpdateMachineCommand
  | accept (request : UpdateRequest)
  | reject (request : UpdateRequest) (failure : Failure)
  | complete (payload : Payload)
  | fail (failure : Failure)

inductive UpdateMachineState
  | requestInitiated (originalRequest : UpdateRequest)
  | accepted
  | rejected
  | acceptCommandCreated
  | acceptCommandRecorded
  | completed
  | completedCommandCreated
  | completedCommandRecorded
  | completedImmediately
  | completedImmediatelyAcceptCreated
  | completedImmediatelyCompleteCreated
  deriving DecidableEq

def UpdateMachineState.display : UpdateMachineState → String
  | .requestInitiated _ => "RequestInitiated"
  | .accepted => "Accepted"
  | .rejected => "Rejected"
  | .acceptCommandCreated => "AcceptCommandCreated"
  | .acceptCommandRecorded => "AcceptCommandRecorded"
  | .completed => "Completed"
  | .completedCommandCreated => "CompletedCommandCreated"
  | .completedCommandRecorded => "CompletedCommandRecorded"
  | .completedImmediately => "CompletedImmediately"
  | .completedImmediatelyAcceptCreated => "CompletedImmediatelyAcceptCreated"
  | .completedImmediatelyCompleteCreated => "CompletedImmediatelyCompleteCreated"

structure UpdateSharedState where
  messageId : String
  instanceId : String
  eventSeqId : Int
  updateId : String
  deriving DecidableEq

inductive UpdateMachineResponse
  | issueNewMessage (message : ProtocolMessage)
  | issueNewCommand (messageId : String)

structure UpdateMachine where
  state : UpdateMachineState
  sharedState : UpdateSharedState
  deriving DecidableEq

namespace UpdateMachine

/-- The machine of a request, and the job. Validators do not run in a replay. -/
def init (messageId instanceId : String) (eventSeqId : Int) (request : UpdateRequest) (replaying : Bool) :
    UpdateMachine × DoUpdate :=
  (⟨.requestInitiated request, { messageId, instanceId, eventSeqId, updateId := request.updateId }⟩,
    { id := request.updateId, protocolInstanceId := instanceId, name := request.name, input := request.input
      runValidator := !replaying })

def onEvent : UpdateMachineState → UpdateMachineEvents →
    Except TransitionError (List UpdateMachineCommand × UpdateMachineState)
  | .requestInitiated request, .accept => .ok ([.accept request], .accepted)
  | .requestInitiated request, .reject failure => .ok ([.reject request failure], .rejected)
  | .accepted, .complete payload => .ok ([.complete payload], .completedImmediately)
  | .accepted, .reject failure => .ok ([.fail failure], .completedImmediately)
  | .accepted, .commandProtocolMessage => .ok ([], .acceptCommandCreated)
  | .acceptCommandCreated, .workflowExecutionUpdateAccepted => .ok ([], .acceptCommandRecorded)
  | .acceptCommandCreated, .complete payload => .ok ([.complete payload], .completedImmediatelyAcceptCreated)
  | .acceptCommandCreated, .reject failure => .ok ([.fail failure], .completedImmediatelyAcceptCreated)
  | .acceptCommandRecorded, .complete payload => .ok ([.complete payload], .completed)
  | .acceptCommandRecorded, .reject failure => .ok ([.fail failure], .completed)
  | .completed, .commandProtocolMessage => .ok ([], .completedCommandCreated)
  | .completedCommandCreated, .workflowExecutionUpdateCompleted => .ok ([], .completedCommandRecorded)
  | .completedImmediately, .commandProtocolMessage => .ok ([], .completedImmediatelyAcceptCreated)
  | .completedImmediatelyAcceptCreated, .commandProtocolMessage => .ok ([], .completedImmediatelyCompleteCreated)
  | .completedImmediatelyCompleteCreated, .workflowExecutionUpdateAccepted => .ok ([], .completedCommandCreated)
  | _, _ => .error .invalidTransition

section

variable (ss : UpdateSharedState)

def buildMsg (outgoingId : String) (msg : UpdateMsg) : UpdateMachineResponse :=
  .issueNewMessage { id := outgoingId, protocolInstanceId := ss.instanceId, body := msg }

/-- A message, and the command for it. -/
def buildCommandMsg (outgoingId : String) (msg : UpdateMsg) : List UpdateMachineResponse :=
  [buildMsg ss outgoingId msg, .issueNewCommand outgoingId]

def acceptId : String := ss.messageId ++ "/accept"

def rejectId : String := ss.messageId ++ "/reject"

def completeId : String := ss.messageId ++ "/complete"

def adaptResponse : UpdateMachineCommand → List UpdateMachineResponse
  | .accept request => buildCommandMsg ss (acceptId ss) (.accept ss.messageId ss.eventSeqId request)
  | .reject request failure => [buildMsg ss (rejectId ss) (.reject ss.messageId ss.eventSeqId request failure)]
  | .complete payload => buildCommandMsg ss (completeId ss) (.response ss.updateId (.success payload))
  | .fail failure => buildCommandMsg ss (completeId ss) (.response ss.updateId (.failure failure))

end

def handle (m : UpdateMachine) (event : UpdateMachineEvents) :
    Except TransitionError (List UpdateMachineResponse × UpdateMachine) := do
  let (commands, state) ← onEvent m.state event
  return (commands.flatMap (adaptResponse m.sharedState), { m with state })

/-- A response without a result is an error of lang. -/
def handleResponse (m : UpdateMachine) : Option UpdateLangResponse →
    Except TransitionError (List UpdateMachineResponse × UpdateMachine)
  | none => .error (.fatal ("Update response for update " ++ m.sharedState.updateId ++
      " had an empty result, this is a lang layer bug."))
  | some response =>
    (handle m response.event).mapError fun
      | .invalidTransition => .nondeterminism ("Invalid transition while handling update response (id " ++
          m.sharedState.updateId ++ ") in state " ++ m.state.display)
      | e => e

end UpdateMachine

end SdkCore
