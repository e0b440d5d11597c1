import SdkCore.History.CacheMiss
import SdkCore.Machines.Failure

/-!
# Local activities

What is scheduled, how an attempt ends, and when it is retried. Times are natural numbers on one clock. The contents of
activities are left out.
-/

namespace SdkCore

structure ExecutingLAId where
  runId : RunId
  seqNum : Nat
  deriving DecidableEq

/-- At least one of the two timeouts is set. -/
inductive LACloseTimeouts
  | scheduleOnly (sched : Nat)
  | startOnly (start : Nat)
  | both (sched start : Nat)
  deriving DecidableEq

/-- The timeouts from schedule to close and from start to close. -/
def LACloseTimeouts.intoSchedAndStart : LACloseTimeouts → Option Nat × Option Nat
  | .scheduleOnly sched => (some sched, none)
  | .startOnly start => (none, some start)
  | .both sched start => (some sched, some start)

structure ApplicationFailureInfo where
  /-- Error types are compared in lower case. -/
  type : String
  nonRetryable : Bool
  nextRetryDelay : Option Int
  deriving DecidableEq

structure ValidatedRetryPolicy where
  initialInterval : Nat
  /-- The initial interval times the power of the backoff coefficient for an attempt, where that is a duration. -/
  scaledInterval : Nat → Option Nat
  maximumInterval : Nat
  maximumAttempts : Nat
  nonRetryableErrorTypes : List String

/-- How long to wait before the attempt after `attemptNumber`, if there is one. -/
def ValidatedRetryPolicy.shouldRetry (policy : ValidatedRetryPolicy) (attemptNumber : Nat)
    (applicationFailure : Option ApplicationFailureInfo) : Option Nat :=
  if policy.maximumAttempts > 0 && attemptNumber ≥ policy.maximumAttempts then none
  else if (applicationFailure.map (·.nonRetryable)).getD false then none
  else if policy.nonRetryableErrorTypes.any (applicationFailure.elim "" (·.type) = ·) then none
  else
    match applicationFailure.bind (·.nextRetryDelay) with
    | some (.ofNat delay) => some delay
    | _ =>
      if attemptNumber = 1 then some policy.initialInterval
      else
        let scaled := if attemptNumber < Nat.pow 2 31 then policy.scaledInterval attemptNumber else none
        some ((scaled.map (min · policy.maximumInterval)).getD policy.maximumInterval)

structure ValidScheduleLA where
  seq : Nat
  attempt : Nat
  originalScheduleTime : Option Nat
  scheduleToStartTimeout : Option Nat
  closeTimeouts : LACloseTimeouts
  retryPolicy : ValidatedRetryPolicy
  localRetryThreshold : Nat

/-- A local activity that a run hands over. -/
structure NewLocalAct where
  scheduleCmd : ValidScheduleLA
  runId : RunId
  scheduleTime : Nat

def NewLocalAct.id (la : NewLocalAct) : ExecutingLAId := ⟨la.runId, la.scheduleCmd.seq⟩

inductive LocalActivityExecutionResult
  | completed
  | failed (applicationFailure : Option ApplicationFailureInfo)
  | timedOut (timeoutType : TimeoutType)
  | cancelled
  deriving DecidableEq

namespace LocalActivityExecutionResult

def emptyCancel : LocalActivityExecutionResult := .cancelled

def timeout (timeoutType : TimeoutType) : LocalActivityExecutionResult := .timedOut timeoutType

def isTimeout : LocalActivityExecutionResult → Bool
  | .timedOut _ => true
  | _ => false

end LocalActivityExecutionResult

structure LocalActivityResolution where
  seq : Nat
  result : LocalActivityExecutionResult
  runtime : Nat
  attempt : Nat
  backoff : Option Nat
  originalScheduleTime : Option Nat
  deriving DecidableEq

inductive LocalActivityNotification
  | heartbeatTimeout (runId : RunId)
  | cancelProcessed (runId : RunId)
  deriving DecidableEq

inductive ActivityCancelReason
  | cancelled
  | timedOut
  deriving DecidableEq

inductive ActivityTask
  | start (taskToken : TaskToken) (la : NewLocalAct) (attempt : Nat) (startedTime : Nat)
  | cancel (taskToken : TaskToken) (reason : ActivityCancelReason)

inductive LACompleteAction
  /-- The resolution is reported to the workflow. A task may have to be sent to lang too. -/
  | report (runId : RunId) (resolution : LocalActivityResolution) (task : Option ActivityTask)
  | willBeRetried (task : Option ActivityTask)
  | untracked

inductive NextPendingLAAction
  | dispatch (task : ActivityTask)
  | autocomplete (action : LACompleteAction)

end SdkCore
