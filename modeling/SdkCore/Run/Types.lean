import SdkCore.Machines.WorkflowManager
import Mathlib.Data.List.Perm.Basic

/-!
# What a run keeps track of

The types around `ManagedRun`, and `ManagerOps`, what a run asks of its managers.
-/

namespace SdkCore

structure OutstandingTask where
  taskToken : TaskToken
  attempt : Nat
  pendingQueries : List QueryId
  deriving DecidableEq

namespace OutstandingTask

def hasPendingLegacyQuery (t : OutstandingTask) : Bool := t.pendingQueries.any (· = .legacy)

/-- A query in the old form becomes a pending one. -/
def ofWork (work : PreparedWFT) : OutstandingTask where
  taskToken := work.taskToken
  attempt := work.attempt
  pendingQueries := work.queryRequests ++ if work.legacyQuery then [.legacy] else []

end OutstandingTask

/-- What lang has of a run. -/
inductive OutstandingActivation
  | normal
  | eviction
  | legacyQuery
  | autocomplete
  deriving DecidableEq

/-- What goes out of a run. -/
inductive ActivationOrAuto
  | langActivation (act : WorkflowActivation)
  | readyForQueries (act : WorkflowActivation)
  | autocomplete
  | autoFail (machinesErr : WFMachinesError)
  deriving DecidableEq

def ActivationOrAuto.outstanding : ActivationOrAuto → OutstandingActivation
  | langActivation act | readyForQueries act =>
    if act.isOnlyEviction then .eviction else if act.isLegacyQuery then .legacyQuery else .normal
  | autocomplete | autoFail _ => .autocomplete

/-- Queries become jobs. One in the old form goes out alone. -/
def putQueriesInAct (act : WorkflowActivation) (wft : OutstandingTask) : WorkflowActivation × OutstandingTask :=
  if wft.pendingQueries.isEmpty || (wft.hasPendingLegacyQuery && !act.jobs.isEmpty) then (act, wft)
  else
    ({ act with jobs := act.jobs ++ wft.pendingQueries.map .queryWorkflow }, { wft with pendingQueries := [] })

/-- The task of a failed fetch, which no run holds. -/
structure UnstoredWftFailInfo where
  taskToken : TaskToken
  attempt : Nat
  deriving DecidableEq

structure RequestEvictMsg where
  reason : EvictionReason
  autoReplyFail : Option UnstoredWftFailInfo := none
  deriving DecidableEq

inductive WFTReportStatus
  | reported (resetLastStartedTo : Option Int)
  | notReported
  | dropWft
  deriving DecidableEq

def WFTReportStatus.isReported : WFTReportStatus → Bool
  | reported _ => true
  | _ => false

/-! ## Buffered tasks -/

/-- At most one task that advances history, and queries for the current task and for that one. -/
structure BufferedTasks where
  wft : Option PermittedWFT
  queryOnlyTasks : List PermittedWFT
  queryOnlyTasksForBuffered : List PermittedWFT
  forBuffered : wft = none → queryOnlyTasksForBuffered = []
  advances : ∀ t ∈ wft, t.work.isQueryOnly = false
  queries : ∀ q ∈ queryOnlyTasksForBuffered, q.work.isQueryOnly

namespace BufferedTasks

def empty : BufferedTasks := ⟨none, [], [], fun _ => rfl, by simp, by simp⟩

variable (b : BufferedTasks)

/-- The order in which they would be buffered again. -/
def intoBufferOrder : List PermittedWFT :=
  b.queryOnlyTasks ++ b.wft.toList ++ b.queryOnlyTasksForBuffered

/-- A task that advances history supersedes the one that waits and its queries. -/
def buffer (task : PermittedWFT) : BufferedTasks :=
  if hq : task.work.isQueryOnly then
    match h : b.wft with
    | none => { b with queryOnlyTasks := b.queryOnlyTasks ++ [task] }
    | some _ =>
      { b with
        queryOnlyTasksForBuffered := b.queryOnlyTasksForBuffered ++ [task]
        forBuffered := by simp [h]
        queries := by simpa [or_imp, forall_and, hq] using b.queries }
  else
    { b with
      wft := some task, queryOnlyTasksForBuffered := []
      forBuffered := by simp
      advances := by simpa using hq
      queries := by simp }

/-- The tasks that disappear with it. -/
def superseded (task : PermittedWFT) : List PermittedWFT :=
  if task.work.isQueryOnly then [] else b.wft.toList ++ b.queryOnlyTasksForBuffered

def hasTasks : Bool := b.wft.isSome || !b.queryOnlyTasks.isEmpty

/-- Queries for the current task, then those for the one that waits, then this one. -/
def getNextWft : Option (PermittedWFT × BufferedTasks) :=
  match b.queryOnlyTasks with
  | q :: rest => some (q, { b with queryOnlyTasks := rest })
  | [] =>
    match h : b.wft with
    | none => none
    | some t =>
      match hf : b.queryOnlyTasksForBuffered with
      | q :: rest =>
        some (q,
          { b with
            queryOnlyTasksForBuffered := rest
            forBuffered := by simp [h]
            queries := fun q' hq' => b.queries q' (by simp [hf, hq']) })
      | [] => some (t, empty)

/-- Buffering loses what is superseded only. -/
theorem buffer_perm (task : PermittedWFT) :
    ((b.buffer task).intoBufferOrder ++ b.superseded task).Perm (b.intoBufferOrder ++ [task]) := by
  unfold buffer superseded intoBufferOrder
  split
  · split
    · next h => simp [h, b.forBuffered h]
    · simp
  · simp only [Option.toList_some, List.append_nil, List.append_assoc]
    refine List.Perm.append_left _ ?_
    rw [← List.append_assoc b.wft.toList]
    exact List.perm_append_comm

/-- Only a task that advances history is superseded, by another one, with its queries. -/
def Supersedes (p : PermittedWFT) (qs : List PermittedWFT) : Prop :=
  qs = [] ∨ p.work.isQueryOnly = false ∧ ∃ t queries, qs = t :: queries ∧ t.work.isQueryOnly = false ∧
    ∀ q ∈ queries, q.work.isQueryOnly

theorem supersedes (task : PermittedWFT) : Supersedes task (b.superseded task) := by
  unfold superseded
  split
  · exact .inl rfl
  · next hq =>
    cases hw : b.wft with
    | none => exact .inl (by simp [b.forBuffered hw])
    | some t => exact .inr ⟨by simpa using hq, t, _, rfl, b.advances t hw, b.queries⟩

theorem getNextWft_perm {b b' : BufferedTasks} {p : PermittedWFT} (h : b.getNextWft = some (p, b')) :
    b.intoBufferOrder.Perm (p :: b'.intoBufferOrder) := by
  unfold getNextWft at h
  unfold intoBufferOrder
  split at h
  · next hq => cases h; simp [hq]
  · next hq =>
    split at h
    · cases h
    · next t ht =>
      split at h
      · next hf =>
        cases h
        simp only [hq, hf, List.nil_append]
        exact List.perm_middle
      · next hf => cases h; simp [hq, ht, hf, empty]

theorem getNextWft_eq_none {b : BufferedTasks} (h : b.getNextWft = none) : b.intoBufferOrder = [] := by
  unfold getNextWft at h
  split at h
  · cases h
  · next hq =>
    split at h
    · next hw => simp [intoBufferOrder, hq, hw, b.forBuffered hw]
    · split at h <;> cases h

end BufferedTasks

inductive WorkflowTaskFailedCause
  | unspecified
  | workflowWorkerUnhandledFailure
  | nonDeterministicError
  | other (n : Nat)
  deriving DecidableEq

inductive WftFailureKind
  | task
  | legacyQuery
  | retryableLegacyQuery
  deriving DecidableEq

inductive ActivationAction
  | wftComplete (forceNewWft : Bool) (queryResponses : List QueryId) (attempt : Nat)
  | respondLegacyQuery
  deriving DecidableEq

/-- How a completion is answered. -/
inductive ActivationCompleteOutcome
  | reportWFTSuccess (taskToken : TaskToken) (action : ActivationAction)
  | reportWFTFail (taskToken : TaskToken) (attempt : Nat) (cause : WorkflowTaskFailedCause) (kind : WftFailureKind)
  | doNothing
  deriving DecidableEq

def ActivationCompleteOutcome.answers : ActivationCompleteOutcome → Option TaskToken
  | reportWFTSuccess taskToken _ => some taskToken
  | reportWFTFail taskToken _ _ _ => some taskToken
  | doNothing => none

structure ActivationCompleteResult where
  outcome : ActivationCompleteOutcome
  replaying : Bool
  deriving DecidableEq

/-- A response channel. A message is lost if nobody waits. -/
structure RespChan where
  id : Nat
  receiverAlive : Bool := true
  deriving DecidableEq

structure FulfillableActivationComplete where
  result : ActivationCompleteResult
  respChan : Option RespChan
  deriving DecidableEq

structure RunActivationCompletion where
  taskToken : TaskToken
  commands : List WFCommand
  activationWasEviction : Bool
  hasPendingQuery : Bool
  queryResponses : List QueryId
  isForcedFailure : Bool
  respChan : Option RespChan
  deriving DecidableEq

/-- What a run asks of its managers, with the state `μ`. -/
structure ManagerOps (μ : Type) where
  new : RunId → Nat → μ
  newWorkFromServer : HistoryUpdate → List Nat → Bool → μ → Except WFMachinesError WorkflowActivation × μ
  getNextActivation : μ → Except WFMachinesError WorkflowActivation × μ
  getWfActivation : μ → WorkflowActivation × μ
  /-- The commands of a completion are applied, then a page of history that was fetched for it, and then, unless the run
  is broken, what comes next in history. -/
  applyCompletion : List WFCommand → Option HistoryUpdate → Bool → μ → Except WFMachinesError Unit × μ
  notifyOfLocalResult : LocalResolution → μ → Except WFMachinesError Unit × μ
  drainQueuedLocalActivities : μ → List LocalActRequest × μ
  /-- Requests for local activities, some of which are resolved at once. -/
  sinkReqs : List LocalActRequest → μ → List LocalResolution × μ
  hasUndeliveredCancels : μ → Bool
  wftCompletionReported : μ → μ
  resetLastStartedId : Int → μ → μ
  readyToApplyNextWft : μ → Bool
  hasPendingJobs : μ → Bool
  hasPendingLaResolutions : μ → Bool
  outstandingLocalActivityCount : μ → Nat
  hasTaskTimeout : μ → Bool
  replaying : μ → Bool
  haveSeenTerminalEvent : μ → Bool
  workflowIsFinished : μ → Bool
  lastWftStartedId : μ → Int
  lastProcessedEvent : μ → Int
  hasCommands : μ → Bool
  hasMessages : μ → Bool
  useMoveTerminalCommands : μ → Bool

structure WorkerConfig where
  /-- Whether nondeterminism fails the workflow, for the workflow type of a run. -/
  shouldFailWorkflow : RunId → Bool := fun _ => false
  maxCachedWorkflows : Nat := 0

end SdkCore
