import SdkCore.Machines.Activity

/-!
# The machine of a local activity

When the workflow executes, the machine asks for the activity to be run, hands its result to lang and has it recorded in
a marker. In a replay it waits for that marker, which is found by looking ahead and comes again as an event.
-/

namespace SdkCore

namespace LocalActivityMachine

/-! ## Results and markers -/

inductive ExecutionResult
  | completed (result : Option Payload)
  | failed (failure : Option Failure)
  | timedOut (failure : Option Failure)
  | cancelled (failure : Option Failure)

def ExecutionResult.emptyCancel : ExecutionResult :=
  .cancelled (some (.mk "Activity cancelled" (some (.canceledFailureInfo none)) none))

/-- What the machine reads of its command. -/
structure Attrs where
  seq : Nat
  activityId : String
  activityType : String
  attempt : Nat
  originalScheduleTime : Option Nat
  arguments : List Payload
  cancellationType : ActivityCancellationType
  includeArgumentsInMarker : Bool
  deriving DecidableEq

structure ResolveDat where
  result : ExecutionResult
  completeTime : Option Nat
  attempt : Nat
  backoff : Option Nat
  originalScheduleTime : Option Nat
  activationIndex : Option Nat

structure MarkerData where
  seq : Nat
  attempt : Nat
  activityId : String
  activityType : String
  completeTime : Option Nat
  backoff : Option Nat
  originalScheduleTime : Option Nat
  activationIndex : Option Nat
  deriving DecidableEq

/-- The details of a marker, and the failure. -/
structure RecordMarker where
  data : MarkerData
  result : Option Payload
  input : Option (List Payload)
  failure : Option Failure

structure CompleteData where
  markerDat : MarkerData
  result : Except Failure Payload

/-- A marker with neither result nor failure has the default payload as its result. -/
def intoLocalActivityMarkerDetails (marker : RecordMarker) : CompleteData where
  markerDat := marker.data
  result :=
    match marker.result, marker.failure with
    | some r, none => .ok r
    | _, some f => .error f
    | none, none => .ok default

def isCanceledFailureInfo : Option FailureInfo → Bool
  | some (.canceledFailureInfo _) => true
  | _ => false

def isTimeoutFailureInfo : Option FailureInfo → Bool
  | some (.timeoutFailureInfo _) => true
  | _ => false

/-- Seen from the failure or from its cause. -/
def isCancellation : Failure → Bool
  | .mk _ info none => isCanceledFailureInfo info
  | .mk _ info (some (.mk _ causeInfo _)) => isCanceledFailureInfo info || isCanceledFailureInfo causeInfo

def ResolveDat.ofMarker (d : CompleteData) : ResolveDat where
  result :=
    match d.result with
    | .ok r => .completed (some r)
    | .error f => if isCancellation f then .cancelled (some f) else .failed (some f)
  completeTime := d.markerDat.completeTime
  attempt := d.markerDat.attempt
  backoff := d.markerDat.backoff
  originalScheduleTime := d.markerDat.originalScheduleTime
  activationIndex := d.markerDat.activationIndex

inductive ResultType
  | completed
  | cancelled
  | failed
  deriving DecidableEq

def ResultType.of : ExecutionResult → ResultType
  | .completed _ => .completed
  | .failed _ | .timedOut _ => .failed
  | .cancelled _ => .cancelled

inductive State
  | executing
  | replaying
  | requestSent
  | markerCommandCreated (resultType : ResultType)
  | resultNotified (resultType : ResultType)
  | markerCommandRecorded
  | waitingResolveFromMarkerLookAhead
  | resolvedFromMarkerLookAheadWaitingMarkerEvent
  deriving DecidableEq

def State.display : State → String
  | .executing => "Executing"
  | .replaying => "Replaying"
  | .requestSent => "RequestSent"
  | .markerCommandCreated _ => "MarkerCommandCreated"
  | .resultNotified _ => "ResultNotified"
  | .markerCommandRecorded => "MarkerCommandRecorded"
  | .waitingResolveFromMarkerLookAhead => "WaitingResolveFromMarkerLookAhead"
  | .resolvedFromMarkerLookAheadWaitingMarkerEvent => "ResolvedFromMarkerLookAheadWaitingMarkerEvent"

inductive Events
  | schedule
  | handleResult (dat : ResolveDat)
  | cancel
  | noWaitCancel (cancelType : ActivityCancellationType)
  | commandRecordMarker
  | markerRecorded (dat : CompleteData)
  | handleKnownResult (dat : ResolveDat)
  | startedNonReplayWft

inductive Command
  | requestActivityExecution (attrs : Attrs)
  | resolved (dat : ResolveDat)
  | requestCancel

inductive Response
  | queueLocalActivity (attrs : Attrs)
  | pushWFJob (job : ResolveActivity)
  | updateWFTime (time : Option Nat)
  | abandonLocalActivity (seq : Nat)
  | issueNewCommand (marker : RecordMarker)
  | requestCancelLocalActivity (seq : Nat)

def Response.job? : Response → Option ResolveActivity
  | pushWFJob job => some job
  | _ => none

def Response.marker? : Response → Option RecordMarker
  | issueNewCommand marker => some marker
  | _ => none

structure SharedState where
  attrs : Attrs
  replayingWhenInvoked : Bool
  wfTimeWhenStarted : Option Nat
  /-- Whether the flag for checks of id and type may be used, by whether it may be set. -/
  idAndTypeDeterminismChecks : Bool → Bool

end LocalActivityMachine

structure LocalActivityMachine where
  state : LocalActivityMachine.State
  sharedState : LocalActivityMachine.SharedState

namespace LocalActivityMachine

/-! ## Transitions -/

section

variable (ss : SharedState)

/-- There is no time of completion. -/
def produceNoWaitCancelResolveDat : ResolveDat where
  result := .emptyCancel
  completeTime := none
  attempt := ss.attrs.attempt
  backoff := none
  originalScheduleTime := ss.attrs.originalScheduleTime
  activationIndex := none

/-- The marker has to be for this activity. -/
def verifyMarkerDataMatches (dat : CompleteData) : Except TransitionError Unit :=
  let checks := ss.idAndTypeDeterminismChecks (!ss.replayingWhenInvoked)
  if ss.attrs.seq ≠ dat.markerDat.seq then
    .error (.nondeterminism ("Local activity marker data has sequence number " ++ toString dat.markerDat.seq ++
      " but matched against LA command with sequence number " ++ toString ss.attrs.seq))
  else if checks && dat.markerDat.activityId ≠ ss.attrs.activityId then
    .error (.nondeterminism ("Activity id of recorded marker '" ++ dat.markerDat.activityId ++
      "' does not match activity id of local activity command '" ++ ss.attrs.activityId ++ "'"))
  else if checks && dat.markerDat.activityType ≠ ss.attrs.activityType then
    .error (.nondeterminism ("Activity type of recorded marker '" ++ dat.markerDat.activityType ++
      "' does not match activity type of local activity command '" ++ ss.attrs.activityType ++ "'"))
  else .ok ()

abbrev Transition := Except TransitionError (List Command × State × SharedState)

def goTo (commands : List Command) (state : State) : Transition := .ok (commands, state, ss)

def verified (dat : CompleteData) : Transition := do
  verifyMarkerDataMatches ss dat
  goTo ss [] .markerCommandRecorded

/-- The marker has to agree with the result. -/
def onMarkerRecorded (resultType : ResultType) (dat : CompleteData) : Transition :=
  if resultType = .completed && !dat.result.isOk then
    .error (.nondeterminism ("Local activity (seq " ++ toString ss.attrs.seq ++
      ") completed successfully locally, but history said it failed!"))
  else if resultType = .failed && dat.result.isOk then
    .error (.nondeterminism ("Local activity (seq " ++ toString ss.attrs.seq ++
      ") failed locally, but history said it completed!"))
  else verified ss dat

/-- The activity is only told with `tryCancel`. -/
def onNoWaitCancel (cancelType : ActivityCancellationType) : Transition :=
  goTo ss ((if cancelType = .tryCancel then [.requestCancel] else []) ++ [.resolved (produceNoWaitCancelResolveDat ss)])
    (.markerCommandCreated .cancelled)

/-- The transitions of `fsm!`. -/
def onEvent : State → Events → Transition
  | .executing, .schedule => goTo ss [.requestActivityExecution ss.attrs] .requestSent
  | .replaying, .schedule => goTo ss [] .waitingResolveFromMarkerLookAhead
  | .requestSent, .handleResult dat => goTo ss [.resolved dat] (.markerCommandCreated (.of dat.result))
  | .requestSent, .cancel => goTo ss [.requestCancel] .requestSent
  | .requestSent, .noWaitCancel cancelType => onNoWaitCancel ss cancelType
  | .markerCommandCreated resultType, .commandRecordMarker => goTo ss [] (.resultNotified resultType)
  | .resultNotified resultType, .markerRecorded dat => onMarkerRecorded ss resultType dat
  | .waitingResolveFromMarkerLookAhead, .handleKnownResult dat =>
    goTo ss [.resolved dat] .resolvedFromMarkerLookAheadWaitingMarkerEvent
  | .waitingResolveFromMarkerLookAhead, .cancel => goTo ss [.requestCancel] .waitingResolveFromMarkerLookAhead
  | .resolvedFromMarkerLookAheadWaitingMarkerEvent, .cancel =>
    goTo ss [.requestCancel] .resolvedFromMarkerLookAheadWaitingMarkerEvent
  | .waitingResolveFromMarkerLookAhead, .noWaitCancel _ => goTo ss [.requestCancel] .waitingResolveFromMarkerLookAhead
  | .resolvedFromMarkerLookAheadWaitingMarkerEvent, .noWaitCancel _ =>
    goTo ss [.requestCancel] .resolvedFromMarkerLookAheadWaitingMarkerEvent
  | .resolvedFromMarkerLookAheadWaitingMarkerEvent, .markerRecorded dat => verified ss dat
  | .waitingResolveFromMarkerLookAhead, .startedNonReplayWft =>
    -- from here on the activity is executed, and its marker has to be recorded
    .ok ([.requestActivityExecution ss.attrs], .requestSent, { ss with replayingWhenInvoked := false })
  | .markerCommandRecorded, .cancel => goTo ss [.requestCancel] .markerCommandRecorded
  | .markerCommandRecorded, .noWaitCancel cancelType =>
    goTo ss (if cancelType = .tryCancel then [.requestCancel] else []) .markerCommandRecorded
  | .markerCommandCreated resultType, .handleResult _ => goTo ss [] (.markerCommandCreated resultType)
  | .resultNotified resultType, .handleResult _ => goTo ss [] (.resultNotified resultType)
  | .markerCommandRecorded, .handleResult _ => goTo ss [] .markerCommandRecorded
  | _, _ => .error .invalidTransition

/-- Cancellations and timeouts are wrapped with a failure of the activity. -/
def wrapFail (message : String) (isWrapped : Option FailureInfo → Bool) : Option Failure → Option Failure
  | some (.mk m info cause) =>
    if isWrapped info then
      some (.mk message (some (activityFailInfo ss.attrs.activityType ss.attrs.activityId none .cancelRequested 0 0))
        (some (.mk m info cause)))
    else some (.mk m info cause)
  | none => none

def resolution (dat : ResolveDat) : ActivityStatus :=
  match dat.backoff with
  | some b => .backoff (dat.attempt + 1) b dat.originalScheduleTime
  | none =>
    match dat.result with
    | .completed r => .completed r
    | .failed f => .failed f
    | .timedOut f => .failed (wrapFail ss "Local Activity timed out" isTimeoutFailureInfo f)
    | .cancelled f => .cancelled (wrapFail ss "Local Activity cancelled" isCanceledFailureInfo f)

def ExecutionResult.okResult : ExecutionResult → Option Payload
  | .completed r => r
  | _ => none

def ExecutionResult.failure : ExecutionResult → Option Failure
  | .completed _ => none
  | .failed f | .timedOut f | .cancelled f => f

def ExecutionResult.willNotRunAgain : ExecutionResult → Bool
  | .timedOut _ | .cancelled _ => true
  | _ => false

def recordMarker (dat : ResolveDat) : RecordMarker where
  data :=
    { seq := ss.attrs.seq, attempt := dat.attempt, activityId := ss.attrs.activityId
      activityType := ss.attrs.activityType, completeTime := dat.completeTime, backoff := dat.backoff
      originalScheduleTime := dat.originalScheduleTime, activationIndex := dat.activationIndex }
  result := dat.result.okResult
  input := if ss.attrs.includeArgumentsInMarker then some ss.attrs.arguments else none
  failure := dat.result.failure

def adaptResponse : Command → List Response
  | .requestActivityExecution attrs => [.queueLocalActivity attrs]
  | .resolved dat =>
    [.pushWFJob { seq := ss.attrs.seq, status := resolution ss dat, isLocal := true },
      .updateWFTime dat.completeTime] ++
      (if dat.result.willNotRunAgain && ss.attrs.cancellationType = .abandon then
        [.abandonLocalActivity ss.attrs.seq] else []) ++
      -- markers are only recorded by activities that were executed here
      if !ss.replayingWhenInvoked then [.issueNewCommand (recordMarker ss dat)] else []
  | .requestCancel => [.requestCancelLocalActivity ss.attrs.seq]

end

/-! ## What the machine is told -/

variable (m : LocalActivityMachine)

def handle (event : Events) : Except TransitionError (List Response × LocalActivityMachine) := do
  let (commands, state, ss) ← onEvent m.sharedState m.state event
  return (commands.flatMap (adaptResponse ss), { state, sharedState := ss })

/-- An activity that was just scheduled. -/
def newLocalActivity (attrs : Attrs) (replayingWhenInvoked : Bool) (wfTime : Option Nat) (checks : Bool → Bool)
    (now : Nat) : LocalActivityMachine × List Response :=
  let attrs := { attrs with originalScheduleTime := attrs.originalScheduleTime <|> some now }
  let ss : SharedState :=
    { attrs, replayingWhenInvoked, wfTimeWhenStarted := wfTime, idAndTypeDeterminismChecks := checks }
  if replayingWhenInvoked then (⟨.waitingResolveFromMarkerLookAhead, ss⟩, [])
  else (⟨.requestSent, ss⟩, [.queueLocalActivity attrs])

def willAcceptResolveMarker : Bool := m.state = .waitingResolveFromMarkerLookAhead

/-- Matters to an activity that waits for its marker. -/
def encounteredNonReplayWft : Except TransitionError (List Response × LocalActivityMachine) :=
  if m.state = .waitingResolveFromMarkerLookAhead then handle m .startedNonReplayWft else .ok ([], m)

/-- An error of this side. -/
def resolveError (fromMarker : Bool) : TransitionError → TransitionError
  | .invalidTransition => .fatal ("Invalid transition resolving local activity (seq " ++
    toString m.sharedState.attrs.seq ++
      ", from marker: " ++ toString fromMarker ++ ") in " ++ m.state.display)
  | e => e

def tryResolve (result : ExecutionResult) (runtime attempt : Nat) (backoff : Option Nat)
    (originalScheduleTime : Option Nat) (activationIndex : Nat) :
    Except TransitionError (List Response × LocalActivityMachine) :=
  (handle m (.handleResult
    { result, completeTime := m.sharedState.wfTimeWhenStarted.map (· + runtime), attempt, backoff, originalScheduleTime
      activationIndex := some activationIndex })).mapError (resolveError m false)

def tryResolveWithDat (dat : ResolveDat) : Except TransitionError (List Response × LocalActivityMachine) :=
  (handle m (.handleKnownResult dat)).mapError (resolveError m true)

def withActivationIndex (activationIndex : Nat) : Command → Command
  | .resolved dat => .resolved { dat with activationIndex := some activationIndex }
  | command => command

def cancelEvent : ActivityCancellationType → Events
  | .waitCancellationCompleted => .cancel
  | cancelType => .noWaitCancel cancelType

def cancel (activationIndex : Nat) : Except TransitionError (List Response × LocalActivityMachine) := do
  let (commands, state, ss) ← onEvent m.sharedState m.state (cancelEvent m.sharedState.attrs.cancellationType)
  return (commands.flatMap (adaptResponse ss <| withActivationIndex activationIndex ·), { state, sharedState := ss })

end LocalActivityMachine

end SdkCore
