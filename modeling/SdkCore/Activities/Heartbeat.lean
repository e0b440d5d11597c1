import Mathlib.Data.List.AList
import SdkCore.History.CacheMiss
import SdkCore.Machines.Failure

/-!
# Heartbeats of activities

The first details are reported at once, the latest of the later ones when the throttle interval is over, and the last
ones of an evicted activity may be flushed. `notified`, `completed`, `recorded` and `evictions` record what happened.
-/

namespace SdkCore

abbrev Details := List Payload

structure ValidActivityHeartbeat where
  taskToken : TaskToken
  details : Details
  throttleInterval : Nat
  timeoutResetter : Option Nat
  deriving DecidableEq

/-- What the stream asks its executor for. -/
inductive HeartbeatExecutorAction
  | sleep (tt : TaskToken) (duration : Nat) (cancellationToken : Nat)
  | report (taskToken : TaskToken) (details : Details)
  deriving DecidableEq

structure ActivityHeartbeatState where
  /-- If there are none when the throttle interval is over, the token is not tracked any more. -/
  lastRecordedDetails : Option Details
  isRecordInFlight : Bool
  lastSendRequested : Nat
  throttleInterval : Nat
  throttledCancellationToken : Option Nat
  timeoutResetter : Option Nat
  deriving DecidableEq

/-- How long the token is still throttled. -/
def ActivityHeartbeatState.getThrottleSleepDuration (st : ActivityHeartbeatState) (now : Nat) : Nat :=
  let timeSinceLastSent := now - st.lastSendRequested
  if timeSinceLastSent > 0 && st.throttleInterval > timeSinceLastSent
    then st.throttleInterval - timeSinceLastSent else 0

structure HeartbeatStreamState where
  ttToState : AList fun _ : TaskToken => ActivityHeartbeatState := ∅
  /-- The evictions that wait for a report, with whom to notify. -/
  ttNeedsFlush : AList fun _ : TaskToken => Nat := ∅
  childTokens : Nat := 0
  cancelled : List Nat := []
  notified : List Nat := []
  resets : List Nat := []

namespace HeartbeatStreamState

variable (now : Nat) (s : HeartbeatStreamState)

def record (hb : ValidActivityHeartbeat) : Option HeartbeatExecutorAction × HeartbeatStreamState :=
  match s.ttToState.lookup hb.taskToken with
  | none =>
    let state : ActivityHeartbeatState :=
      { throttleInterval := hb.throttleInterval, lastSendRequested := now, lastRecordedDetails := none
        isRecordInFlight := true, throttledCancellationToken := none, timeoutResetter := hb.timeoutResetter }
    (some (.report hb.taskToken hb.details), { s with ttToState := s.ttToState.insert hb.taskToken state })
  | some state =>
    let state := { state with lastRecordedDetails := some hb.details, timeoutResetter := hb.timeoutResetter }
    (none, { s with ttToState := s.ttToState.insert hb.taskToken state })

def handleReportCompleted (tt : TaskToken) : Option HeartbeatExecutorAction × HeartbeatStreamState :=
  let s := { s with
    notified := s.notified ++ (s.ttNeedsFlush.lookup tt).toList, ttNeedsFlush := s.ttNeedsFlush.erase tt }
  match s.ttToState.lookup tt with
  | none => (none, s)
  | some st =>
    let st := { st with isRecordInFlight := false, throttledCancellationToken := some s.childTokens }
    (some (.sleep tt (st.getThrottleSleepDuration now) s.childTokens),
      { s with
        ttToState := s.ttToState.insert tt st
        childTokens := s.childTokens + 1
        resets := s.resets ++ st.timeoutResetter.toList })

/-- The throttle interval is over. The latest details are reported, or the token is forgotten. -/
def handleThrottleCompleted (tt : TaskToken) : Option HeartbeatExecutorAction × HeartbeatStreamState :=
  match s.ttToState.lookup tt with
  | none => (none, s)
  | some state =>
    match state.lastRecordedDetails with
    | some details =>
      let state := { state with
        lastRecordedDetails := none, throttledCancellationToken := none, lastSendRequested := now
        isRecordInFlight := true }
      (some (.report tt details), { s with ttToState := s.ttToState.insert tt state })
    | none => (none, { s with ttToState := s.ttToState.erase tt })

def evict (tt : TaskToken) (onComplete : Nat) (shouldFlush : Bool) :
    Option HeartbeatExecutorAction × HeartbeatStreamState :=
  match s.ttToState.lookup tt with
  | none => (none, { s with notified := s.notified ++ [onComplete] })
  | some state =>
    let s := { s with
      ttToState := s.ttToState.erase tt, cancelled := s.cancelled ++ state.throttledCancellationToken.toList }
    match state.lastRecordedDetails, shouldFlush with
    | some lastDeets, true =>
      (some (.report tt lastDeets), { s with ttNeedsFlush := s.ttNeedsFlush.insert tt onComplete })
    | _, _ =>
      if state.isRecordInFlight then (none, { s with ttNeedsFlush := s.ttNeedsFlush.insert tt onComplete })
      else (none, { s with notified := s.notified ++ [onComplete] })

end HeartbeatStreamState

/-- The stream with what is under way. -/
structure Heartbeats where
  stream : HeartbeatStreamState := {}
  /-- The reports that the server has not answered. -/
  reports : List (TaskToken × Details) := []
  sleeps : List TaskToken := []
  completed : List (TaskToken × Details) := []
  recorded : List (TaskToken × Details) := []
  /-- The evictions, and whether the last details are flushed. Whom to notify is known by its place. -/
  evictions : List (TaskToken × Bool) := []

inductive HeartbeatAction
  | sendHeartbeat (hb : ValidActivityHeartbeat)
  | evict (token : TaskToken) (shouldFlush : Bool)
  | completeReport (token : TaskToken) (details : Details)
  | completeThrottle (token : TaskToken)
  deriving DecidableEq

def HeartbeatAction.token : HeartbeatAction → TaskToken
  | .sendHeartbeat hb => hb.taskToken
  | .evict token _ => token
  | .completeReport token _ => token
  | .completeThrottle token => token

namespace Heartbeats

/-- The executor begins what it is asked for. -/
def begin (x : Option HeartbeatExecutorAction × HeartbeatStreamState) (s : Heartbeats) : Heartbeats :=
  match x.1 with
  | none => { s with stream := x.2 }
  | some (.sleep tt _ _) => { s with stream := x.2, sleeps := s.sleeps ++ [tt] }
  | some (.report tt details) => { s with stream := x.2, reports := s.reports ++ [(tt, details)] }

def process (now : Nat) (s : Heartbeats) : HeartbeatAction → Heartbeats
  | .sendHeartbeat hb =>
    { s with recorded := s.recorded ++ [(hb.taskToken, hb.details)] }.begin (s.stream.record now hb)
  | .evict token shouldFlush =>
    { s with evictions := s.evictions ++ [(token, shouldFlush)] }.begin
      (s.stream.evict token s.evictions.length shouldFlush)
  | .completeReport token details =>
    { s with reports := s.reports.erase (token, details), completed := s.completed ++ [(token, details)] }.begin
      (s.stream.handleReportCompleted now token)
  | .completeThrottle token =>
    { s with sleeps := s.sleeps.erase token }.begin (s.stream.handleThrottleCompleted now token)

def Step (s : Heartbeats) (action : HeartbeatAction) (s' : Heartbeats) : Prop := ∃ now, process now s action = s'

def isEvicted (s : Heartbeats) (tt : TaskToken) : Bool := s.evictions.any (·.1 = tt)

/-- What is completed is under way. A token is evicted once, and has no heartbeats afterwards. -/
def isDue (s : Heartbeats) : HeartbeatAction → Bool
  | .sendHeartbeat hb => !s.isEvicted hb.taskToken
  | .evict token _ => !s.isEvicted token
  | .completeReport token details => (token, details) ∈ s.reports
  | .completeThrottle token => token ∈ s.sleeps

/-- An eviction has to flush details while an earlier report is under way. -/
def overtakes (s : Heartbeats) : HeartbeatAction → Bool
  | .evict token true =>
    (s.stream.ttToState.lookup token).any fun st => st.isRecordInFlight && st.lastRecordedDetails.isSome
  | _ => false

end Heartbeats

end SdkCore
