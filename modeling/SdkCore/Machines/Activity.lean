import SdkCore.Machines.Failure

/-!
# The machine of an activity

`ActivityMachine` follows an activity that the server runs, by commands about to be sent, events of the history
(`handle`) and cancellations by lang (`cancel`).
-/

namespace SdkCore

inductive ActivityCancellationType
  | tryCancel
  | waitCancellationCompleted
  | abandon
  deriving DecidableEq

/-- How an activity ended. `backoff` is for local activities that are scheduled again. -/
inductive ActivityStatus
  | completed (result : Option Payload)
  | failed (failure : Option Failure)
  | cancelled (failure : Option Failure)
  | backoff (attempt : Nat) (backoffDuration : Nat) (originalScheduleTime : Option Nat)

structure ResolveActivity where
  seq : Nat
  status : ActivityStatus
  isLocal : Bool

def activityFailInfo (actType actId : String) (identity : Option String) (retryState : RetryState)
    (startedEventId scheduledEventId : Int) : FailureInfo :=
  .activityFailureInfo (identity.getD "") actType actId retryState startedEventId scheduledEventId

/-! ## States, events and commands -/

structure ScheduleActivity where
  seq : Nat
  activityId : String
  activityType : String
  cancellationType : ActivityCancellationType
  deriving DecidableEq

structure ActTaskScheduledData where
  eventId : Int
  actType : String
  actId : String
  lastTaskInHistory : Bool
  deriving DecidableEq

structure ActivityTaskFailedEventAttributes where
  failure : Option Failure
  scheduledEventId : Int
  startedEventId : Int
  identity : String
  retryState : RetryState

structure ActivityTaskTimedOutEventAttributes where
  failure : Option Failure
  scheduledEventId : Int
  startedEventId : Int
  retryState : RetryState

structure ActivityTaskCanceledEventAttributes where
  details : Option (List Payload) := none
  scheduledEventId : Int := 0
  startedEventId : Int := 0
  identity : String := ""
  deriving DecidableEq

inductive ActivityMachineEvents
  | schedule
  | commandScheduleActivityTask
  | activityTaskScheduled (data : ActTaskScheduledData)
  | cancel
  | abandon
  | activityTaskStarted (startedEventId : Int)
  | activityTaskTimedOut (attrs : ActivityTaskTimedOutEventAttributes)
  | activityTaskCompleted (result : Option (List Payload))
  | activityTaskFailed (attrs : ActivityTaskFailedEventAttributes)
  | commandRequestCancelActivityTask
  | activityTaskCancelRequested
  | activityTaskCanceled (attrs : ActivityTaskCanceledEventAttributes)

inductive ActivityMachineCommand
  | complete (result : Option (List Payload))
  | fail (failure : Failure)
  | cancel (canceledEvent : Option ActivityTaskCanceledEventAttributes)
  | requestCancellation (scheduledEventId : Int)

inductive ActivityMachineState
  | created
  | scheduleCommandCreated
  | scheduledEventRecorded
  | started
  | scheduledActivityCancelCommandCreated
  | scheduledActivityCancelEventRecorded
  | startedActivityCancelCommandCreated
  | startedActivityCancelEventRecorded
  | completed
  | failed
  | timedOut
  | canceled
  deriving DecidableEq

structure ActivitySharedState where
  scheduledEventId : Int := 0
  startedEventId : Int := 0
  attrs : ScheduleActivity
  cancelledBeforeSent : Bool := false
  /-- Whether the flag for checks of id and type may be used, in the last task of the history or before it. -/
  idAndTypeDeterminismChecks : Bool → Bool

def ActivitySharedState.cancellationType (dat : ActivitySharedState) : ActivityCancellationType :=
  dat.attrs.cancellationType

inductive ActivityResponse
  | pushWFJob (job : ResolveActivity)
  | requestCancelActivityTask (scheduledEventId : Int)

def ActivityResponse.job? : ActivityResponse → Option ResolveActivity
  | pushWFJob job => some job
  | requestCancelActivityTask _ => none

structure ActivityMachine where
  state : ActivityMachineState
  sharedState : ActivitySharedState

namespace ActivityMachine

/-! ## Transitions -/

section

variable (dat : ActivitySharedState)

def newFailure (attrs : ActivityTaskFailedEventAttributes) : Failure :=
  .mk "Activity task failed" (some (activityFailInfo dat.attrs.activityType dat.attrs.activityId (some attrs.identity)
    attrs.retryState attrs.startedEventId attrs.scheduledEventId)) attrs.failure

def newTimeoutFailure (attrs : ActivityTaskTimedOutEventAttributes) : Failure :=
  .mk "Activity task timed out" (some (activityFailInfo dat.attrs.activityType dat.attrs.activityId none
    attrs.retryState attrs.startedEventId attrs.scheduledEventId)) attrs.failure

def newCancelFailure (attrs : ActivityTaskCanceledEventAttributes) : Failure :=
  .mk "Activity cancelled" (some (activityFailInfo dat.attrs.activityType dat.attrs.activityId (some attrs.identity)
    .cancelRequested attrs.startedEventId attrs.scheduledEventId))
    (some (.mk "" (some (.canceledFailureInfo attrs.details)) none))

/-- Commands, the next state and the shared state. -/
abbrev Transition := Except TransitionError (List ActivityMachineCommand × ActivityMachineState × ActivitySharedState)

def goTo (commands : List ActivityMachineCommand) (state : ActivityMachineState) : Transition :=
  .ok (commands, state, dat)

/-- The event has to be for this activity. -/
def onActivityTaskScheduled (data : ActTaskScheduledData) : Transition :=
  if dat.idAndTypeDeterminismChecks data.lastTaskInHistory && data.actId ≠ dat.attrs.activityId then
    .error (.nondeterminism ("Activity id of scheduled event '" ++ data.actId ++
      "' does not match activity id of activity command '" ++ dat.attrs.activityId ++ "'"))
  else if dat.idAndTypeDeterminismChecks data.lastTaskInHistory && data.actType ≠ dat.attrs.activityType then
    .error (.nondeterminism ("Activity type of scheduled event '" ++ data.actType ++
      "' does not match activity type of activity command '" ++ dat.attrs.activityType ++ "'"))
  else .ok ([], .scheduledEventRecorded, { dat with scheduledEventId := data.eventId })

/-- Abandoned activities get another event. -/
def onCanceledBeforeSent : Transition :=
  .ok (if dat.cancellationType = .abandon then [] else [.cancel none], .canceled,
    { dat with cancelledBeforeSent := true })

def onAbandonedBeforeSent : Transition := .ok ([.cancel none], .canceled, { dat with cancelledBeforeSent := true })

def notifyLangActivityTimedOut (attrs : ActivityTaskTimedOutEventAttributes) : Transition :=
  goTo dat [.fail (newTimeoutFailure dat attrs)] .timedOut

/-- The activity ended after a cancellation. With `tryCancel` lang knows already; abandoned ones do not get here. -/
def notifyIfNotAlreadyCancelled (commands : List ActivityMachineCommand) (state : ActivityMachineState) : Transition :=
  match dat.cancellationType with
  | .tryCancel => goTo dat [] state
  | .waitCancellationCompleted => goTo dat commands state
  | .abandon => .error (.fatal "Cancellations with type Abandon should go into terminal state immediately.")

/-- Abandoned activities may start or complete anyway. -/
def onLateEvent (message : String) : Transition :=
  if dat.cancellationType = .abandon then goTo dat [] .canceled else .error (.nondeterminism message)

/-- The transitions of `fsm!`. -/
def onEvent : ActivityMachineState → ActivityMachineEvents → Transition
  | .created, .schedule => goTo dat [] .scheduleCommandCreated
  | .scheduleCommandCreated, .commandScheduleActivityTask => goTo dat [] .scheduleCommandCreated
  | .scheduleCommandCreated, .activityTaskScheduled data => onActivityTaskScheduled dat data
  | .scheduleCommandCreated, .cancel => onCanceledBeforeSent dat
  | .scheduleCommandCreated, .abandon => onAbandonedBeforeSent dat
  | .scheduledEventRecorded, .activityTaskStarted id => .ok ([], .started, { dat with startedEventId := id })
  | .scheduledEventRecorded, .activityTaskTimedOut attrs => notifyLangActivityTimedOut dat attrs
  | .scheduledEventRecorded, .cancel =>
    goTo dat [.requestCancellation dat.scheduledEventId] .scheduledActivityCancelCommandCreated
  | .scheduledEventRecorded, .abandon => goTo dat [.cancel none] .canceled
  | .started, .activityTaskCompleted result => goTo dat [.complete result] .completed
  | .started, .activityTaskFailed attrs => goTo dat [.fail (newFailure dat attrs)] .failed
  | .started, .activityTaskTimedOut attrs => notifyLangActivityTimedOut dat attrs
  | .started, .cancel => goTo dat [.requestCancellation dat.scheduledEventId] .startedActivityCancelCommandCreated
  | .started, .abandon => goTo dat [.cancel none] .canceled
  | .scheduledActivityCancelCommandCreated, .commandRequestCancelActivityTask =>
    goTo dat [] .scheduledActivityCancelCommandCreated
  | .scheduledActivityCancelCommandCreated, .activityTaskCancelRequested =>
    goTo dat [] .scheduledActivityCancelEventRecorded
  | .scheduledActivityCancelEventRecorded, .activityTaskCanceled attrs =>
    notifyIfNotAlreadyCancelled dat [.cancel (some attrs)] .canceled
  | .scheduledActivityCancelEventRecorded, .activityTaskStarted _ => goTo dat [] .startedActivityCancelEventRecorded
  | .scheduledActivityCancelEventRecorded, .activityTaskTimedOut attrs =>
    notifyIfNotAlreadyCancelled dat [.fail (newTimeoutFailure dat attrs)] .timedOut
  | .startedActivityCancelCommandCreated, .commandRequestCancelActivityTask =>
    goTo dat [] .startedActivityCancelCommandCreated
  | .startedActivityCancelCommandCreated, .activityTaskCancelRequested =>
    goTo dat [] .startedActivityCancelEventRecorded
  | .startedActivityCancelEventRecorded, .activityTaskFailed attrs =>
    notifyIfNotAlreadyCancelled dat [.fail (newFailure dat attrs)] .failed
  | .startedActivityCancelEventRecorded, .activityTaskCompleted result =>
    notifyIfNotAlreadyCancelled dat [.complete result] .completed
  | .startedActivityCancelEventRecorded, .activityTaskTimedOut attrs =>
    notifyIfNotAlreadyCancelled dat [.fail (newTimeoutFailure dat attrs)] .timedOut
  | .startedActivityCancelEventRecorded, .activityTaskCanceled attrs =>
    notifyIfNotAlreadyCancelled dat [.cancel (some attrs)] .canceled
  | .canceled, .activityTaskStarted seqNum =>
    onLateEvent dat ("Non-Abandon cancel mode activities cannot be started after being cancelled. Seq: " ++
      toString seqNum)
  | .canceled, .activityTaskCompleted _ =>
    onLateEvent dat "Non-Abandon cancel mode activities cannot be completed after being cancelled"
  | _, _ => .error .invalidTransition

/-- A result is one payload. -/
def convertPayloads : Option (List Payload) → Except TransitionError (Option Payload)
  | none => .ok none
  | some [p] => .ok (some p)
  | some [] => .error (.fatal "Not exactly one payload in activity result (NoPayload)")
  | some _ => .error (.fatal "Not exactly one payload in activity result (MoreThanOnePayload)")

def resolve (status : ActivityStatus) : ActivityResponse :=
  .pushWFJob { seq := dat.attrs.seq, status, isLocal := false }

def createCancelationResolve (attrs : Option ActivityTaskCanceledEventAttributes) : ActivityResponse :=
  resolve dat (.cancelled (some (newCancelFailure dat (attrs.getD {}))))

def machineResponsesFromCancelRequest (scheduledEventId : Int) : List ActivityResponse :=
  .requestCancelActivityTask scheduledEventId ::
    if dat.cancellationType ≠ .waitCancellationCompleted then [createCancelationResolve dat none] else []

def adaptResponse : ActivityMachineCommand → Except TransitionError (List ActivityResponse)
  | .complete result => do return [resolve dat (.completed (← convertPayloads result))]
  | .fail failure => .ok [resolve dat (.failed (some failure))]
  | .requestCancellation id => .ok (machineResponsesFromCancelRequest dat id)
  | .cancel attrs => .ok [createCancelationResolve dat attrs]

def adaptResponses : List ActivityMachineCommand → Except TransitionError (List ActivityResponse)
  | [] => .ok []
  | c :: cs => do return (← adaptResponse dat c) ++ (← adaptResponses cs)

end

def handle (m : ActivityMachine) (event : ActivityMachineEvents) :
    Except TransitionError (List ActivityResponse × ActivityMachine) := do
  let (commands, state, dat) ← onEvent m.sharedState m.state event
  return (← adaptResponses dat commands, { state, sharedState := dat })

/-- Later cancellations are ignored. -/
def isResolved : ActivityMachineState → Bool
  | .completed | .canceled | .failed | .timedOut => true
  | _ => false

/-- Lang cancels. No result comes from a cancellation. -/
def cancel (m : ActivityMachine) : Except TransitionError (List ActivityResponse × ActivityMachine) :=
  if isResolved m.state then .ok ([], m)
  else handle m (if m.sharedState.cancellationType = .abandon then .abandon else .cancel)

/-- After the event `schedule`, which does not fail. -/
def newScheduled (attrs : ScheduleActivity) (checks : Bool → Bool) : ActivityMachine where
  state := .scheduleCommandCreated
  sharedState := { attrs, idAndTypeDeterminismChecks := checks }

end ActivityMachine

end SdkCore
