import Mathlib.Tactic.Common

/-!
# Retries of calls to the server

Whether a call that failed is made again, and when. The delays come from two sequences of backoffs. Those for
`ResourceExhausted`, and the one after an error that a poll tolerates, are not checked against `max_elapsed_time`
(`retries_within_budget`).
-/

namespace SdkCore.Retry

/-- Durations, and instants since some origin, in nanoseconds. -/
abbrev Duration := Nat

inductive Code
  | ok | cancelled | unknown | invalidArgument | deadlineExceeded | notFound | alreadyExists | permissionDenied
  | resourceExhausted | failedPrecondition | aborted | outOfRange | unimplemented | internal | unavailable | dataLoss
  | unauthenticated
  deriving DecidableEq

def retryableErrorCodes : List Code :=
  [.dataLoss, .internal, .unknown, .resourceExhausted, .aborted, .outOfRange, .unavailable]

def longPollFatalGrace : Duration := 60000000000

structure Status where
  code : Code
  message : String := ""
  /-- The sources of the error are one of the transport and one of hyper. -/
  isTransportCancelled : Bool := false
  metadata : List String := []
  deriving DecidableEq

namespace Status

def startsWith (e : Status) (text : String) : Bool := text.toList.isPrefixOf e.message.toList

/-- The server refused a message for its size. -/
def isTooLarge (e : Status) : Bool :=
  e.code = .resourceExhausted && (e.startsWith "grpc: received message larger than max" ||
    e.startsWith "grpc: message after decompression larger than max" ||
    e.startsWith "grpc: received message after decompression larger than max")

def insert (e : Status) (key : String) : Status := { e with metadata := key :: e.metadata }

end Status

/-- The parts of the options that do not only shape the delays. -/
structure RetryOptions where
  maxInterval : Duration := 5000000000
  maxElapsedTime : Option Duration := some 10000000000
  maxRetries : Nat := 10

def throttleRetryPolicy : RetryOptions := ⟨10000000000, none, 0⟩

inductive CallType
  | normal
  | userLongPoll
  | taskLongPoll
  deriving DecidableEq

structure CallInfo where
  callType : CallType
  retryCfg : RetryOptions
  retryShortCircuit : Option (Status → Bool) := none

/-- The delays with their jitter, and how many were used. -/
structure JitteredBackoff where
  delays : Nat → Duration
  used : Nat := 0
  maxElapsedTime : Option Duration
  startedAt : Duration

namespace JitteredBackoff

def next (b : JitteredBackoff) : Duration := b.delays b.used

/-- The next delay, if it is within the time. -/
def nextBackoff (b : JitteredBackoff) (now : Duration) : Option Duration × JitteredBackoff :=
  (if b.maxElapsedTime.any (· < now - b.startedAt + b.next) then none else some b.next, { b with used := b.used + 1 })

end JitteredBackoff

structure TonicErrorHandler where
  backoff : JitteredBackoff
  throttleBackoff : JitteredBackoff
  maxInterval : Duration
  retryStartedAt : Duration
  maxRetries : Nat
  callType : CallType
  retryShortCircuit : Option (Status → Bool)

inductive RetryPolicy
  | forwardError (e : Status)
  | waitRetry (d : Duration)
  deriving DecidableEq

namespace TonicErrorHandler

def new (info : CallInfo) (throttleCfg : RetryOptions) (delays throttleDelays : Nat → Duration) (now : Duration) :
    TonicErrorHandler where
  backoff := { delays, maxElapsedTime := info.retryCfg.maxElapsedTime, startedAt := now }
  throttleBackoff := { delays := throttleDelays, maxElapsedTime := throttleCfg.maxElapsedTime, startedAt := now }
  maxInterval := info.retryCfg.maxInterval
  retryStartedAt := now
  maxRetries := info.retryCfg.maxRetries
  callType := info.callType
  retryShortCircuit := info.retryShortCircuit

def ofCall (info : CallInfo) : (delays throttleDelays : Nat → Duration) → (now : Duration) → TonicErrorHandler :=
  new info throttleRetryPolicy

variable (h : TonicErrorHandler) (currentAttempt : Nat) (e : Status) (now : Duration)

/-- The errors after which a call is not made again at all. -/
def forwarded : Option Status :=
  -- 0 max retries means unlimited retries
  if 0 < h.maxRetries ∧ h.maxRetries ≤ currentAttempt then some e
  else if h.retryShortCircuit.any (· e) then some (e.insert "short-circuit")
  else if e.isTooLarge then some (e.insert "message-too-large")
  else none

def isRetryable : Bool :=
  decide (e.code ∈ retryableErrorCodes) ||
    (decide (h.callType = .taskLongPoll) && decide (e.code ∈ [.cancelled, .deadlineExceeded])) ||
    (decide (e.code = .cancelled) && e.isTransportCancelled)

/-- A fatal error that a task poll permits for a while. -/
def isTolerated : Bool := decide (h.callType = .taskLongPoll) && decide (now - h.retryStartedAt ≤ longPollFatalGrace)

def handle : RetryPolicy × TonicErrorHandler :=
  match h.forwarded currentAttempt e with
  | some e => (.forwardError e, h)
  | none =>
    if h.isRetryable e then
      match h.backoff.nextBackoff now with
      | (none, backoff) => (.forwardError e, { h with backoff })
      | (some delay, backoff) =>
        if e.code = .resourceExhausted then
          let (throttle, throttleBackoff) := h.throttleBackoff.nextBackoff now
          (.waitRetry (max delay (throttle.getD 0)), { h with backoff, throttleBackoff })
        else (.waitRetry delay, { h with backoff })
    else if h.isTolerated now then (.waitRetry h.maxInterval, h)
    else (.forwardError e, h)

/-- The time ends before a delay that is not checked: that of the throttle, or that of a tolerated error. -/
def overruns (m : Duration) : Bool :=
  (h.forwarded currentAttempt e).isNone &&
    if h.isRetryable e then
      decide (e.code = .resourceExhausted) && decide (now - h.backoff.startedAt + h.backoff.next ≤ m) &&
        decide (m < now - h.backoff.startedAt + h.throttleBackoff.next)
    else h.isTolerated now && decide (m < now - h.backoff.startedAt + h.maxInterval)

/-- An error of a call, with the attempt that failed and when it is handled. -/
structure Failed where
  attempt : Nat
  error : Status
  now : Duration

/-- What the handler says to one error after the other. -/
def answers (h : TonicErrorHandler) : List Failed → List (Duration × RetryPolicy)
  | [] => []
  | f :: fs => (f.now, (h.handle f.attempt f.error f.now).1) :: answers (h.handle f.attempt f.error f.now).2 fs

/-- One of the answers overruns the time. -/
def everOverruns (m : Duration) (h : TonicErrorHandler) : List Failed → Bool
  | [] => false
  | f :: fs => h.overruns f.attempt f.error f.now m || everOverruns m (h.handle f.attempt f.error f.now).2 fs

/-- The handler of a call that began at `start` and may be retried for `m`. -/
structure Budgeted (start m : Duration) (h : TonicErrorHandler) : Prop where
  startedAt : h.backoff.startedAt = start
  maxElapsedTime : h.backoff.maxElapsedTime = some m
  throttle : h.throttleBackoff.maxElapsedTime = none

section
variable {h} {start m : Duration}

/-- Answers do not change the budget. -/
theorem Budgeted.handle (hb : Budgeted start m h) : Budgeted start m (h.handle currentAttempt e now).2 := by
  obtain ⟨hs, hm, ht⟩ := hb
  unfold TonicErrorHandler.handle
  split
  · exact ⟨hs, hm, ht⟩
  split
  · split
    · next hn =>
      obtain ⟨-, rfl⟩ := Prod.mk.inj hn
      exact ⟨hs, hm, ht⟩
    · next hn =>
      obtain ⟨-, rfl⟩ := Prod.mk.inj hn
      split <;> exact ⟨hs, hm, ht⟩
  · split <;> exact ⟨hs, hm, ht⟩

/-- One answer keeps to the time iff it does not overrun it. -/
theorem handle_within_iff (hb : Budgeted start m h) :
    (∀ d, (h.handle currentAttempt e now).1 = .waitRetry d → now - start + d ≤ m) ↔
      h.overruns currentAttempt e now m = false := by
  obtain ⟨rfl, hm, ht⟩ := hb
  unfold TonicErrorHandler.handle overruns JitteredBackoff.nextBackoff
  cases h.forwarded currentAttempt e with
  | some e => simp
  | none =>
    cases h.isRetryable e with
    | true =>
      by_cases hfit : now - h.backoff.startedAt + h.backoff.next ≤ m
      · by_cases hc : e.code = .resourceExhausted
        · simp [hm, ht, hc, hfit, Nat.not_lt.mpr hfit]
          rw [← Nat.add_max_add_left, Nat.max_le, and_iff_right hfit]
        · simp [hm, hc, hfit, Nat.not_lt.mpr hfit]
      · simp [hm, hfit, Nat.not_le.mp hfit]
    | false => cases h.isTolerated now <;> simp

theorem answers_within_iff {fs : List Failed} (hb : Budgeted start m h) :
    (∀ x ∈ h.answers fs, ∀ d, x.2 = .waitRetry d → x.1 - start + d ≤ m) ↔ everOverruns m h fs = false := by
  induction fs generalizing h with
  | nil => simp [answers, everOverruns]
  | cons f fs ih =>
    rw [answers, everOverruns, List.forall_mem_cons, Bool.or_eq_false_iff, handle_within_iff _ _ _ hb,
      ih (hb.handle f.attempt f.error f.now)]

end

/-- **Retries keep to the time for them exactly as long as no unchecked delay overruns it.** -/
theorem retries_within_budget (info : CallInfo) (delays throttleDelays : Nat → Duration) (start m : Duration)
    (hm : info.retryCfg.maxElapsedTime = some m) (fs : List Failed) :
    (∀ x ∈ (ofCall info delays throttleDelays start).answers fs, ∀ d, x.2 = .waitRetry d → x.1 - start + d ≤ m) ↔
      everOverruns m (ofCall info delays throttleDelays start) fs = false :=
  answers_within_iff ⟨rfl, hm, rfl⟩

def someCall : CallInfo := { callType := .normal, retryCfg := {} }

theorem retries_within_budget_unavailable :
    let h := ofCall someCall (fun _ => 100000000) (fun _ => 1000000000) 0
    let fs := [⟨1, { code := .unavailable }, 1000000000⟩]
    (∀ x ∈ h.answers fs, ∀ d, x.2 = .waitRetry d → x.1 - 0 + d ≤ 10000000000) ∧
      h.answers fs = [(1000000000, .waitRetry 100000000)] :=
  ⟨(retries_within_budget someCall _ _ 0 _ rfl _).mpr rfl, rfl⟩

/-- Half a second before the end, a call that is throttled is made again after a second. -/
theorem throttled_beyond_max_elapsed_time :
    (ofCall someCall (fun _ => 100000000) (fun _ => 1000000000) 0).answers
      [⟨1, { code := .resourceExhausted }, 9500000000⟩] = [(9500000000, .waitRetry 1000000000)] ∧
    ¬ 9500000000 - 0 + 1000000000 ≤ 10000000000 := by
  decide

end TonicErrorHandler
end SdkCore.Retry
