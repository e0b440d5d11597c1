import Mathlib.Data.List.Basic

/-!
# Failures

What lang is told when something failed, and how an input is rejected.
-/

namespace SdkCore

abbrev Payload := Nat

inductive RetryState
  | unspecified
  | inProgress
  | nonRetryableFailure
  | timeout
  | maximumAttemptsReached
  | retryPolicyNotSet
  | internalServerError
  | cancelRequested
  deriving DecidableEq

inductive TimeoutType
  | unspecified
  | startToClose
  | scheduleToStart
  | scheduleToClose
  | heartbeat
  deriving DecidableEq

inductive FailureInfo
  | applicationFailureInfo (type : String)
  | canceledFailureInfo (details : Option (List Payload) := none)
  | terminatedFailureInfo
  | timeoutFailureInfo (timeoutType : TimeoutType)
  | activityFailureInfo (identity activityType activityId : String) (retryState : RetryState)
    (startedEventId scheduledEventId : Int)
  | childWorkflowExecutionFailureInfo (ns workflowType workflowId runId : String)
    (initiatedEventId startedEventId : Int)
    (retryState : RetryState)
  | nexusOperationExecutionFailureInfo (scheduledEventId : Int) (endpoint service operation operationToken : String)
  deriving DecidableEq

inductive Failure
  | mk (message : String) (failureInfo : Option FailureInfo) (cause : Option Failure)

inductive TransitionError
  | invalidTransition
  | nondeterminism (message : String)
  | fatal (message : String)
  deriving DecidableEq

end SdkCore
