import SdkCore.Nexus.TaskStream

/-!
# Answers to Nexus tasks

A task leaves the map first. Then its status is checked against the request, failures are rewritten for old servers, and
the client is called (`task_not_forgotten_iff`). `toJson` stands for the serializer, `Client` for the server.
-/

namespace SdkCore.NexusCompletion

open Maps

inductive RequestKind
  | start
  | cancel
  deriving DecidableEq, Inhabited

inductive FailureInfo
  | applicationFailureInfo
  | canceledFailureInfo
  | nexusHandlerFailureInfo (type : String) (retryBehavior : Int)
  | other
  deriving DecidableEq

structure Failure where
  message : String
  stackTrace : String
  failureInfo : Option FailureInfo
  rest : Nat
  deriving DecidableEq

structure NexusFailure where
  message : String
  stackTrace : String
  metadata : List (String × String)
  details : List UInt8
  deriving DecidableEq

structure HandlerError where
  errorType : String
  failure : Option NexusFailure
  retryBehavior : Int
  deriving DecidableEq

structure UnsuccessfulOperationError where
  operationState : String
  failure : Option NexusFailure
  deriving DecidableEq

inductive StartOperationVariant
  | syncSuccess (payload : List UInt8)
  | asyncSuccess (operationToken : String)
  | operationError (e : UnsuccessfulOperationError)
  | failure (f : Failure)
  deriving DecidableEq

inductive ResponseVariant
  | startOperation (variant : Option StartOperationVariant)
  | cancelOperation
  deriving DecidableEq

inductive Status
  | completed (variant : Option ResponseVariant)
  | ackCancel
  | error (e : HandlerError)
  | failure (f : Failure)
  deriving DecidableEq

/-- A failure, for old servers and for new ones. -/
inductive NexusTaskFailure
  | legacy (e : HandlerError)
  | temporal (f : Failure)
  deriving DecidableEq

structure NexusInFlightTask where
  requestKind : RequestKind
  /-- `temporal_failure_responses` of the capabilities, if the request has any. -/
  capabilities : Option Bool
  deriving DecidableEq

def NexusInFlightTask.useTemporalFailures (info : NexusInFlightTask) : Bool := info.capabilities.getD false

inductive Call
  | completeNexusTask (tt : TaskToken) (variant : ResponseVariant)
  | failNexusTask (tt : TaskToken) (failure : NexusTaskFailure)
  deriving DecidableEq

inductive Reply
  | ok
  | payloadLimitViolation (violation : String)
  | netErr
  deriving DecidableEq

abbrev Client := Call → Reply

/-- The calls of a completion, and what it returned. -/
structure Sent where
  calls : List Call
  result : Except String Bool

def rejected (reason : String) : Sent := ⟨[], .error reason⟩

/-! ## Completing -/

section

variable (toJson : Failure → Except String (List UInt8)) (client : Client)

/-- `TryFrom` of Nexus failures: the message moves out, the rest becomes JSON. -/
def nexusFailure (f : Failure) : Except String NexusFailure :=
  match toJson { f with message := "" } with
  | .ok details => .ok ⟨f.message, f.stackTrace, [("type", "temporal.api.failure.v1.Failure")], details⟩
  | .error err => .error ("error converting temporal failure to nexus failure: " ++ err)

def payloadsTooLargeNexusFailure (violation : String) : NexusTaskFailure :=
  .legacy ⟨"PayloadsTooLarge", some ⟨violation, "", [], []⟩, 1⟩

/-- The state in which a failure leaves its operation. -/
def operationState (f : Failure) : Except String String :=
  match f.failureInfo with
  | some .applicationFailureInfo => pure "failed"
  | some .canceledFailureInfo => pure "canceled"
  | _ => throw "Nexus StartOperationResponse with a failure must contain ApplicationFailureInfo or CanceledFailureInfo"

/-- The response to a start as it is sent. -/
def startOperationResponse (info : NexusInFlightTask) :
    Option StartOperationVariant → Except String (Option StartOperationVariant)
  | some (.failure f) => do
    let operationState ← operationState f
    if info.useTemporalFailures then pure (some (.failure f))
    else
      let failure ← nexusFailure toJson f
      pure (some (.operationError ⟨operationState, some failure⟩))
  | so => pure so

/-- The response as it is sent, if it fits the request. -/
def checkedResponse (info : NexusInFlightTask) : Option ResponseVariant → Except String ResponseVariant
  | some (.startOperation so) => do
    let so ← startOperationResponse toJson info so
    if info.requestKind = .start then pure (.startOperation so)
    else throw "Nexus response was StartOperation but request was not"
  | some .cancelOperation =>
    if info.requestKind = .cancel then pure .cancelOperation
    else throw "Nexus response was CancelOperation but request was not"
  | none => throw "Nexus completion must contain a status variant "

/-- The failure as it is sent, if it is one of a handler. -/
def taskFailure (info : NexusInFlightTask) (f : Failure) : Except String NexusTaskFailure :=
  match f.failureInfo with
  | some (.nexusHandlerFailureInfo type retryBehavior) =>
    if info.useTemporalFailures then pure (.temporal f)
    else do
      let failure ← nexusFailure toJson f
      pure (.legacy ⟨type, some failure, retryBehavior⟩)
  | _ => throw "Nexus completions with a failure must contain a NexusHandlerFailureInfo"

/-- Send a response, or that it was too large. -/
def sendResponse (tt : TaskToken) (variant : ResponseVariant) : Sent :=
  match client (.completeNexusTask tt variant) with
  | .payloadLimitViolation violation =>
    ⟨[.completeNexusTask tt variant, .failNexusTask tt (payloadsTooLargeNexusFailure violation)], .ok true⟩
  | _ => ⟨[.completeNexusTask tt variant], .ok true⟩

def sendTaskCompletion (tt : TaskToken) (status : Status) (info : NexusInFlightTask) : Sent :=
  match status with
  | .completed c =>
    match checkedResponse toJson info c with
    | .ok variant => sendResponse client tt variant
    | .error reason => rejected reason
  | .ackCancel => ⟨[], .ok false⟩
  | .error e => ⟨[.failNexusTask tt (.legacy e)], .ok true⟩
  | .failure f =>
    match taskFailure toJson info f with
    | .ok failure => ⟨[.failNexusTask tt failure], .ok true⟩
    | .error reason => rejected reason

/-- The outstanding tasks afterwards, and what was done. A task that is not tracked is ignored. -/
def completeTask (outstandingTaskMap : Map TaskToken NexusInFlightTask) (tt : TaskToken) (status : Status) :
    Map TaskToken NexusInFlightTask × Sent :=
  match outstandingTaskMap.lookup tt with
  | some info => (outstandingTaskMap.erase tt, sendTaskCompletion toJson client tt status info)
  | none => (outstandingTaskMap, ⟨[], .ok false⟩)

end

/-! ## Which statuses are sent -/

section

variable (toJson : Failure → Except String (List UInt8)) (client : Client)

/-- An old server can be told the failure, or it need not. -/
def Failure.sendable (info : NexusInFlightTask) (f : Failure) : Bool :=
  info.useTemporalFailures || (toJson { f with message := "" }).isOk

def startWellFormed (info : NexusInFlightTask) : Option StartOperationVariant → Bool
  | some (.failure f) =>
    f.sendable toJson info &&
      (f.failureInfo == some .applicationFailureInfo || f.failureInfo == some .canceledFailureInfo)
  | _ => true

def Failure.isHandlerFailure (f : Failure) : Bool :=
  match f.failureInfo with
  | some (.nexusHandlerFailureInfo _ _) => true
  | _ => false

/-- The status is complete and answers the request. -/
def Status.wellFormed (info : NexusInFlightTask) : Status → Bool
  | .completed (some (.startOperation so)) => info.requestKind == .start && startWellFormed toJson info so
  | .completed (some .cancelOperation) => info.requestKind == .cancel
  | .completed none => false
  | .ackCancel | .error _ => true
  | .failure f => f.sendable toJson info && f.isHandlerFailure

/-- One call, or a failure after a response that was too large. -/
def Answers (tt : TaskToken) (calls : List Call) : Prop :=
  (∃ variant, calls = [.completeNexusTask tt variant] ∧
    ∀ violation, client (.completeNexusTask tt variant) ≠ .payloadLimitViolation violation) ∨
  (∃ failure, calls = [.failNexusTask tt failure]) ∨
  ∃ variant failure violation, calls = [.completeNexusTask tt variant, .failNexusTask tt failure] ∧
    client (.completeNexusTask tt variant) = .payloadLimitViolation violation

/-- The task is still there, or needs no answer, or has one. -/
def Kept (tt : TaskToken) (status : Status) (r : Map TaskToken NexusInFlightTask × Sent) : Prop :=
  (r.1.lookup tt).isSome ∨ status = .ackCancel ∨ Answers client tt r.2.calls

variable {toJson client}
variable {info : NexusInFlightTask} {tt : TaskToken}

theorem isOk_bind {α β : Type} {x : Except String α} {f : α → Except String β} {b : Bool} (h : ∀ a, (f a).isOk = b) :
    (x >>= f).isOk = (x.isOk && b) := by
  cases x with
  | error e => rfl
  | ok a => exact h a

theorem nexusFailure_isOk (f : Failure) :
    (nexusFailure toJson f).isOk = (toJson { f with message := "" }).isOk := by
  simp only [nexusFailure]
  cases toJson { f with message := "" } <;> rfl

theorem isOk_sendable {α : Type} (f : Failure) (a : α) (g : NexusFailure → α) :
    (if info.useTemporalFailures = true then (pure a : Except String α)
      else nexusFailure toJson f >>= fun nf => pure (g nf)).isOk = f.sendable toJson info := by
  rw [Failure.sendable]
  cases info.useTemporalFailures with
  | true => rfl
  | false =>
    rw [if_neg Bool.false_ne_true, isOk_bind (b := true) fun _ => rfl, nexusFailure_isOk]
    simp

theorem startOperationResponse_isOk (so : Option StartOperationVariant) :
    (startOperationResponse toJson info so).isOk = startWellFormed toJson info so := by
  rcases so with _ | _ | _ | _ | f
  · rfl
  · rfl
  · rfl
  · rfl
  · rw [startOperationResponse, isOk_bind fun _ => isOk_sendable f _ _, startWellFormed, Bool.and_comm]
    rw [operationState]
    rcases f.failureInfo with _ | _ | _ | _ | _ <;> rfl

/-- Responses are sent iff they are well formed. -/
theorem checkedResponse_isOk (c : Option ResponseVariant) :
    (checkedResponse toJson info c).isOk = (Status.completed c).wellFormed toJson info := by
  rcases c with _ | so | _
  · rfl
  · rw [checkedResponse, Status.wellFormed, isOk_bind, startOperationResponse_isOk,
      Bool.and_comm]
    intro so
    cases info.requestKind <;> rfl
  · rw [checkedResponse, Status.wellFormed]
    cases info.requestKind <;> rfl

theorem taskFailure_isOk (f : Failure) :
    (taskFailure toJson info f).isOk = (Status.failure f).wellFormed toJson info := by
  rw [taskFailure, Status.wellFormed, Failure.isHandlerFailure]
  split
  · rw [isOk_sendable, Bool.and_true]
  · rw [Bool.and_false]
    rfl

theorem sendResponse_answers (variant : ResponseVariant) :
    Answers client tt (sendResponse client tt variant).calls := by
  rw [sendResponse]
  split
  · next violation h => exact .inr (.inr ⟨variant, _, violation, rfl, h⟩)
  · next h => exact .inl ⟨variant, rfl, h⟩

theorem sendResponse_isOk (variant : ResponseVariant) : (sendResponse client tt variant).result.isOk = true := by
  rw [sendResponse]
  split <;> rfl

variable {status : Status} {m : Map TaskToken NexusInFlightTask}

/-- Other statuses are rejected. -/
theorem sendTaskCompletion_malformed (client : Client) (tt : TaskToken) (h : status.wellFormed toJson info = false) :
    ∃ reason, sendTaskCompletion toJson client tt status info = rejected reason := by
  cases status with
  | ackCancel | error => cases h
  | completed c =>
    rw [← checkedResponse_isOk] at h
    rw [sendTaskCompletion]
    cases hc : checkedResponse toJson info c with
    | ok variant => rw [hc] at h; cases h
    | error reason => exact ⟨reason, rfl⟩
  | failure f =>
    rw [← taskFailure_isOk] at h
    rw [sendTaskCompletion]
    cases hc : taskFailure toJson info f with
    | ok failure => rw [hc] at h; cases h
    | error reason => exact ⟨reason, rfl⟩

theorem sendTaskCompletion_wellFormed (client : Client) (tt : TaskToken) (h : status.wellFormed toJson info = true) :
    (sendTaskCompletion toJson client tt status info).result.isOk = true ∧
      (status = .ackCancel ∨ Answers client tt (sendTaskCompletion toJson client tt status info).calls) := by
  cases status with
  | ackCancel => exact ⟨rfl, .inl rfl⟩
  | error e => exact ⟨rfl, .inr (.inr (.inl ⟨_, rfl⟩))⟩
  | completed c =>
    rw [← checkedResponse_isOk] at h
    rw [sendTaskCompletion]
    cases hc : checkedResponse toJson info c with
    | ok variant => exact ⟨sendResponse_isOk variant, .inr (sendResponse_answers variant)⟩
    | error reason => rw [hc] at h; cases h
  | failure f =>
    rw [← taskFailure_isOk] at h
    rw [sendTaskCompletion]
    cases hc : taskFailure toJson info f with
    | ok failure => exact ⟨rfl, .inr (.inr (.inl ⟨_, rfl⟩))⟩
    | error reason => rw [hc] at h; cases h

theorem completeTask_eq (h : m.lookup tt = some info) (status : Status) :
    completeTask toJson client m tt status = (m.erase tt, sendTaskCompletion toJson client tt status info) := by
  rw [completeTask, h]

theorem lookup_completeTask (m : Map TaskToken NexusInFlightTask) (status : Status) (t : TaskToken) :
    (completeTask toJson client m tt status).1.lookup t = if t = tt then none else m.lookup t := by
  rw [completeTask]
  cases hm : m.lookup tt with
  | none =>
    by_cases ht : t = tt
    · subst ht
      simp [hm]
    · simp [ht]
  | some info => exact lookup_erase_ite m tt t

/-- The stream has the same tasks. -/
def Tracks (m : Map TaskToken NexusInFlightTask) (s : NexusManager.Tasks) : Prop :=
  ∀ tt, (m.lookup tt).isSome = (s.outstandingTaskMap.lookup tt).isSome

theorem completeTask_tracks {s : NexusManager.Tasks} (h : Tracks m s) (status : Status) :
    Tracks (completeTask toJson client m tt status).1 (NexusManager.completeTask s tt) := by
  intro t
  have ht := h t
  rw [lookup_completeTask, NexusManager.completeTask]
  cases hs : s.outstandingTaskMap.lookup tt with
  | none =>
    by_cases he : t = tt
    · subst he
      simp [hs]
    · simpa [he] using ht
  | some info =>
    rw [lookup_erase_ite]
    split
    · rfl
    · exact ht

theorem not_kept_rejected {reason : String} (hs : status ≠ .ackCancel) :
    ¬ Kept client tt status (m.erase tt, rejected reason) := by
  rintro (h | h | ⟨_, h, -⟩ | ⟨_, h⟩ | ⟨_, _, _, h, -⟩)
  · simp at h
  · exact hs h
  all_goals cases h

/-- **A task is left with lang or answered exactly if the status is well formed**; otherwise it is gone. -/
theorem task_not_forgotten_iff (info : NexusInFlightTask) (m : Map TaskToken NexusInFlightTask) (status : Status)
    (h : m.lookup tt = some info) :
    (Kept client tt status (completeTask toJson client m tt status) ↔ status.wellFormed toJson info = true) ∧
    ((∀ reason, (completeTask toJson client m tt status).2.result = .error reason →
        ((completeTask toJson client m tt status).1.lookup tt).isSome) ↔ status.wellFormed toJson info = true) := by
  rw [completeTask_eq h]
  cases hw : status.wellFormed toJson info with
  | true =>
    obtain ⟨hok, ha⟩ := sendTaskCompletion_wellFormed client tt hw
    refine ⟨iff_of_true (.inr ha) rfl, iff_of_true ?_ rfl⟩
    intro reason he
    rw [he] at hok
    cases hok
  | false =>
    obtain ⟨reason, hr⟩ := sendTaskCompletion_malformed client tt hw
    rw [hr]
    refine ⟨iff_of_false (not_kept_rejected ?_) Bool.false_ne_true, iff_of_false ?_ Bool.false_ne_true⟩
    · rintro rfl
      cases hw
    · intro hrej
      simpa using hrej reason rfl

end

def startTask : Map TaskToken NexusInFlightTask := (∅ : Map TaskToken NexusInFlightTask).insert 7 ⟨.start, none⟩

def success : Status := .completed (some (.startOperation (some (.syncSuccess []))))

theorem success_answered :
    Kept (fun _ => .ok) 7 success (completeTask (fun _ => .ok []) (fun _ => .ok) startTask 7 success) :=
  (task_not_forgotten_iff ⟨.start, none⟩ startTask success (by decide)).1.mpr (by decide)

/-- A response without a variant is rejected, and the task is gone. -/
theorem empty_response_forgotten :
    ¬ Kept (fun _ => .ok) 7 (.completed none)
      (completeTask (fun _ => .ok []) (fun _ => .ok) startTask 7 (.completed none)) ∧
      (completeTask (fun _ => .ok []) (fun _ => .ok) startTask 7 (.completed none)).2.calls = [] ∧
      (completeTask (fun _ => .ok []) (fun _ => .ok) startTask 7 (.completed none)).1.lookup 7 = none :=
  ⟨not_kept_rejected (m := startTask) (by decide), by decide, by decide⟩

end SdkCore.NexusCompletion
