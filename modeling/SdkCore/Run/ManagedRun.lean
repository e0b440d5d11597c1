import SdkCore.Run.Types

/-!
# A managed run

`ManagedRun` is the life of a run in the cache. Whatever happens ends in `update_to_acts`, which decides what goes out
next: an activation, the eviction, a task from the buffer or, after an error, the failure of the completion. The
functions for completions call each other with fuel; `outOfFuel` is a call that has not returned within it. `replies`,
`answer`, `applied`, `superseded` and `panicked` record what happened.
-/

namespace SdkCore

/-- A run, with its task, activation and managers. -/
structure ManagedRun (μ : Type) where
  runId : RunId
  mgr : μ
  /-- Set while local activities run. It says whether a heartbeat is due. -/
  waitingOnLa : Option Bool := none
  amBroken : Bool := false
  wft : Option OutstandingTask := none
  activation : Option OutstandingActivation := none
  taskBuffer : BufferedTasks := .empty
  tryingToEvict : Option RequestEvictMsg := none
  paginator : Option HistoryPaginator := none
  completionWaitingOnPageFetch : Option RunActivationCompletion := none
  /-- The results that were sent, with the channels they were sent on. -/
  replies : List (Nat × ActivationCompleteResult) := []
  /-- The outcome that was sent last, until its post-activation message arrives. -/
  answer : Option ActivationCompleteOutcome := none
  applied : List PermittedWFT := []
  /-- The tasks that were buffered, each with the tasks that it superseded. -/
  superseded : List (PermittedWFT × List PermittedWFT) := []
  /-- An activation was inserted while there was one. -/
  panicked : Bool := false

inductive Limit
  | outOfFuel
  deriving DecidableEq

inductive EvictionRequestResult
  | evictionRequested (act : Option ActivationOrAuto)
  | notFound
  | evictionAlreadyRequested

def EvictionRequestResult.intoRunUpdateResp : EvictionRequestResult → Option ActivationOrAuto
  | evictionRequested act => act
  | notFound | evictionAlreadyRequested => none

namespace ManagedRun

variable {μ : Type} (M : ManagerOps μ) (cfg : WorkerConfig)

abbrev ROp (μ : Type) := Op (ManagedRun μ) Limit

abbrev FOp (μ : Type) := Op (ManagedRun μ) WFMachinesError

def onMgr {α : Type} (f : μ → Except WFMachinesError α × μ) : FOp μ α :=
  Op.zoom mgr (fun r m => { r with mgr := m }) (Op.ofFn f)

def askMgr {α : Type} (f : μ → α × μ) : FOp μ α := onMgr fun m => (.ok (f m).1, (f m).2)

section

variable (r : ManagedRun μ)

def morePendingWork : Bool := r.wft.isSome && M.hasPendingJobs r.mgr

def hasPendingQueries : Bool := r.wft.any (!·.pendingQueries.isEmpty)

def activationIsEviction : Bool := r.activation = some .eviction

/-- A query in the old form is pending or was sent. -/
def pendingWorkIsLegacyQuery : Bool := r.activation = some .legacyQuery || r.wft.any (·.hasPendingLegacyQuery)

def hasAnyPendingWork (ignoreEvicts ignoreBuffered : Bool) : Bool :=
  r.wft.isSome || (!ignoreBuffered && r.taskBuffer.hasTasks) || r.morePendingWork M ||
    (if ignoreEvicts then r.activation.any (· ≠ .eviction) else r.activation.isSome) ||
    (!ignoreEvicts && r.tryingToEvict.isSome)

def hasBufferedWft : Bool := r.taskBuffer.hasTasks

end

def notifyOfLocalResults : List LocalResolution → FOp μ Unit
  | [] => pure ()
  | res :: rest => do
    onMgr (M.notifyOfLocalResult res)
    notifyOfLocalResults rest

/-- What local activities resolve at once is applied. -/
def sinkLaRequests (newLocalActs : List LocalActRequest) : FOp μ Unit := do
  notifyOfLocalResults M (← askMgr (M.sinkReqs newLocalActs))

def sinkHeartbeatTimeoutStart : FOp μ Unit := do
  let _ ← askMgr (M.sinkReqs [.startHeartbeatTimeout])

/-! ## What goes out next -/

/-- The next activation of the machines. -/
def _checkMoreActivations : FOp μ (Option ActivationOrAuto) := do
  let r ← get
  if r.activation.isSome || r.wft.isNone then return none
  else if M.hasPendingJobs r.mgr && !r.amBroken then
    return some (.langActivation (← onMgr M.getNextActivation))
  else if r.waitingOnLa.isSome && M.outstandingLocalActivityCount r.mgr = 0 then
    modify fun r => { r with waitingOnLa := none }
    return some .autocomplete
  else if !r.amBroken && r.hasPendingQueries then
    return some (.readyForQueries (← askMgr M.getWfActivation))
  else if r.waitingOnLa = some true then return some .autocomplete
  else return none

/-- The eviction, if asked for and nothing else is left. It is withheld while cancellations wait. -/
def evictionActivation : FOp μ (Option ActivationOrAuto) := do
  let r ← get
  match r.tryingToEvict with
  | none => return none
  | some evict =>
    if r.activation.isNone && (r.amBroken || !r.morePendingWork M) then
      modify fun r => { r with waitingOnLa := none }
      sinkLaRequests M [.cancelAllInRun]
      let r ← get
      if M.hasUndeliveredCancels r.mgr then return none
      else
        return some (.langActivation
          { historyLength := M.lastProcessedEvent r.mgr, jobs := [.removeFromCache evict.reason] })
    else return none

variable (maybeAct : Option ActivationOrAuto)

/-- Look again if there is more work. -/
def checkedAct : FOp μ (Option ActivationOrAuto) := do
  if (← get).morePendingWork M && maybeAct.isNone then _checkMoreActivations M else return maybeAct

/-- Queries go out with an activation that is ready. -/
def dispatchQueries (act : WorkflowActivation) : FOp μ (Option ActivationOrAuto) := do
  match (← get).wft with
  | none => return none
  | some wft =>
    modify fun r => { r with wft := some (putQueriesInAct act wft).2 }
    return some (.langActivation (putQueriesInAct act wft).1)

/-- Queries or the eviction come last. -/
def finalAct : Option ActivationOrAuto → FOp μ (Option ActivationOrAuto)
  | none => evictionActivation M
  | some (.readyForQueries act) => dispatchQueries act
  | some act => return some act

def outgoingAct : FOp μ (Option ActivationOrAuto) := do
  finalAct M (← checkedAct M maybeAct)

/-- Only one activation may be outstanding. -/
def insertOutstandingActivation (act : ActivationOrAuto) (r : ManagedRun μ) : ManagedRun μ :=
  { r with activation := some act.outstanding, panicked := r.panicked || r.activation.isSome }

variable (r : ManagedRun μ)

def send (chan : Option RespChan) (result : ActivationCompleteResult) : ManagedRun μ :=
  match chan with
  | none => r
  | some c => { r with replies := r.replies ++ [(c.id, result)], answer := some result.outcome }

def fulfill : Option FulfillableActivationComplete → ManagedRun μ
  | none => r
  | some f => r.send f.respChan f.result

/-- What is taken over from a task at once. -/
def startTask (pwft : PermittedWFT) : ManagedRun μ :=
  { r with
    paginator := some pwft.paginator
    wft := some (.ofWork pwft.work)
    waitingOnLa := r.waitingOnLa.map fun _ => false }

/-- The update goes to the machines. A dummy one stands for a history they have. -/
def applyUpdate (work : PreparedWFT) : FOp μ WorkflowActivation := do
  if work.update.isReal then onMgr (M.newWorkFromServer work.update work.messages work.legacyQuery)
  else
    let act ← onMgr M.getNextActivation
    if act.jobs.isEmpty then throw (.fatal .noJobs) else return act

def _incomingWft (pwft : PermittedWFT) : FOp μ (Option ActivationOrAuto) := do
  modify fun r => { r with applied := r.applied ++ [pwft] }
  if !pwft.work.queryRequests.isEmpty && pwft.work.legacyQuery then throw (.fatal .bothQueries)
  else
    modify fun r => r.startTask pwft
    let r ← get
    if pwft.work.legacyQuery && pwft.work.update.wftStartedId = 0 &&
        pwft.work.update.previousWftStartedId < M.lastWftStartedId r.mgr then
      return some (.autoFail (.fatal .queryExpired))
    else
      let act ← applyUpdate M pwft.work
      if !act.jobs.isEmpty then return some (.langActivation act)
      else
        let r ← get
        if M.outstandingLocalActivityCount r.mgr > 0 && r.waitingOnLa.isSome then
          sinkHeartbeatTimeoutStart M
          return none
        else return some .autocomplete

/-! ## Updates without a completion -/

/-- The run is broken. -/
def autoFail (e : WFMachinesError) : ROp μ (Option ActivationOrAuto) := do
  modify fun r => { r with amBroken := true }
  return some (.autoFail e)

/-- The run may take a task from its buffer. -/
def isIdle : Option ActivationOrAuto → Bool
  | none | some .autocomplete => !r.hasAnyPendingWork M false true
  | some _ => false

def sendOut : Option ActivationOrAuto → ROp μ (Option ActivationOrAuto)
  | none => return none
  | some act => do
    modify (insertOutstandingActivation act)
    return some act

/-- Take a task from the buffer, and go on with `go`. -/
def takeBuffered (go : Option ActivationOrAuto → ROp μ (Option ActivationOrAuto)) :
    ROp μ (Option ActivationOrAuto) := do
  match (← get).taskBuffer.getNextWft with
  | none => return none
  | some (bufft, rest) =>
    modify fun r => { r with taskBuffer := rest }
    match ← Op.attempt (_incomingWft M bufft) with
    | .ok act => go act
    | .error e => autoFail e

def updateRound (go : Option ActivationOrAuto → ROp μ (Option ActivationOrAuto))
    (maybeAct : Option ActivationOrAuto) (maybeFulfill : Option FulfillableActivationComplete) :
    ROp μ (Option ActivationOrAuto) := do
  match ← Op.attempt (outgoingAct M maybeAct) with
  -- the result for the caller of the completion is lost here
  | .error e => autoFail e
  | .ok act =>
    modify fun r => r.fulfill maybeFulfill
    if (← get).isIdle M act then takeBuffered M go else sendOut act

/-- `update_to_acts` on a success. The fuel bounds the tasks taken from the buffer. -/
def updateOk : Nat → Option ActivationOrAuto → Option FulfillableActivationComplete →
    ROp μ (Option ActivationOrAuto)
  | 0 => updateRound M fun _ => throw .outOfFuel
  | fuel + 1 => updateRound M fun act => updateOk fuel act none

/-- Every round takes a task from the buffer. -/
def update (maybeFulfill : Option FulfillableActivationComplete) : ROp μ (Option ActivationOrAuto) := do
  updateOk M (← get).taskBuffer.intoBufferOrder.length maybeAct maybeFulfill

/-- Send out what was found, or fail. -/
def settle (x : FOp μ (Option ActivationOrAuto)) : ROp μ (Option ActivationOrAuto) := do
  match ← Op.attempt x with
  | .ok act => update M act none
  | .error e => autoFail e

def checkMoreActivations : ROp μ (Option ActivationOrAuto) := settle M (_checkMoreActivations M)

def incomingWft (pwft : PermittedWFT) : ROp μ (Option ActivationOrAuto) := settle M (_incomingWft M pwft)

/-- A result is dropped when only the eviction is left. -/
def _localResolution (res : LocalResolution) : FOp μ (Option ActivationOrAuto) := do
  let r ← get
  if r.activationIsEviction || (r.tryingToEvict.isSome && r.activation.isNone && !r.morePendingWork M) then
    _checkMoreActivations M
  else
    onMgr (M.notifyOfLocalResult res)
    if (← get).activation.isNone then _checkMoreActivations M else return none

def localResolution (res : LocalResolution) : ROp μ (Option ActivationOrAuto) := settle M (_localResolution M res)

def _heartbeatTimeout : FOp μ (Option ActivationOrAuto) := do
  let r ← get
  if r.waitingOnLa.isSome then
    modify fun r => { r with waitingOnLa := some true }
    if r.activation.isNone then return some .autocomplete else return none
  else return none

def heartbeatTimeout : ROp μ (Option ActivationOrAuto) := settle M _heartbeatTimeout

/-- A task waits if there is work outstanding. -/
def bufferWftIfOutstandingWork (work : PermittedWFT) : ROp μ (Option PermittedWFT) := do
  let r ← get
  if r.activation.isSome || r.tryingToEvict.isSome || r.wft.isSome || r.morePendingWork M then
    modify fun r =>
      { r with
        taskBuffer := r.taskBuffer.buffer work
        superseded := r.superseded ++ [(work, r.taskBuffer.superseded work)] }
    return none
  else return some work

/-- Pending queries make no sense after a failure, except for one in the old form. -/
def dropQueries (reason : EvictionReason) : ManagedRun μ :=
  if reason = .cacheFull || reason = .workflowExecutionEnding || r.pendingWorkIsLegacyQuery then r
  else { r with wft := r.wft.map fun t => { t with pendingQueries := [] } }

/-- `requestEviction`, without a completion that it fails. -/
def markForEviction (info : RequestEvictMsg) : ROp μ EvictionRequestResult := do
  let r ← get
  if !r.activationIsEviction && r.tryingToEvict.isNone then
    modify fun r => { r.dropQueries info.reason with tryingToEvict := some info }
    return .evictionRequested (← checkMoreActivations M)
  else
    modify fun r => { r with tryingToEvict := some info }
    return .evictionAlreadyRequested

/-! ## Completions -/

/-- A run whose caller has gone is evicted. -/
def replyToComplete (outcome : ActivationCompleteOutcome) (chan : Option RespChan) : ROp μ Unit := do
  modify fun r => r.send chan ⟨outcome, M.replaying r.mgr⟩
  if chan.any (!·.receiverAlive) then
    let _ ← markForEviction M { reason := .fatal }
  else pure ()

/-- A run reports its task when it is caught up and has nothing more to do, or has answers to queries. -/
def completeOutcome (data : RunActivationCompletion) (dueToHeartbeatTimeout : Bool) : ActivationCompleteOutcome :=
  let evictionHasOutput :=
    data.activationWasEviction && r.wft.isSome && !r.amBroken && (M.hasCommands r.mgr || M.hasMessages r.mgr)
  let hasQueryResponses := !data.queryResponses.isEmpty
  let isQueryPlayback := data.hasPendingQuery && !hasQueryResponses
  let forceNewWft := dueToHeartbeatTimeout || (evictionHasOutput && M.outstandingLocalActivityCount r.mgr > 0) ||
    (hasQueryResponses && M.hasPendingLaResolutions r.mgr)
  let shouldRespond := !(M.hasPendingJobs r.mgr || (M.replaying r.mgr && !data.isForcedFailure) || isQueryPlayback ||
    (data.activationWasEviction && !evictionHasOutput) || M.haveSeenTerminalEvent r.mgr)
  if shouldRespond || hasQueryResponses then
    .reportWFTSuccess data.taskToken
      (.wftComplete forceNewWft data.queryResponses ((r.wft.map (·.attempt)).getD 1))
  else .doNothing

/-- The answer to a completion. -/
def prepareCompleteResp (data : RunActivationCompletion) (dueToHeartbeatTimeout : Bool) :
    FOp μ FulfillableActivationComplete := do
  let r ← get
  let outcome := completeOutcome M r data dueToHeartbeatTimeout
  if outcome.answers.isSome then modify fun r => { r with mgr := M.wftCompletionReported r.mgr } else pure ()
  return ⟨⟨outcome, M.replaying r.mgr⟩, data.respChan⟩

/-- Apply the commands, and say whether local activities run. -/
def applyCommands (commands : List WFCommand) (updateFromNewPage : Option HistoryUpdate) : FOp μ Bool := do
  let r ← get
  onMgr (M.applyCompletion commands updateFromNewPage r.amBroken)
  sinkLaRequests M (← askMgr M.drainQueuedLocalActivities)
  let r ← get
  if M.outstandingLocalActivityCount r.mgr = 0 then return false
  else if M.hasTaskTimeout r.mgr then return true
  else throw (.fatal .missingTaskTimeout)

/-- Wait for local activities, or answer. -/
def afterCommands (completion : RunActivationCompletion) (heartbeatAutocomplete laHeartbeat lasRun : Bool) :
    FOp μ FulfillableActivationComplete := do
  if !lasRun then
    modify fun r => { r with waitingOnLa := none }
    prepareCompleteResp M completion heartbeatAutocomplete
  else
    sinkHeartbeatTimeoutStart M
    if laHeartbeat || !completion.queryResponses.isEmpty then
      modify fun r => { r with waitingOnLa := some laHeartbeat }
      prepareCompleteResp M completion true
    else
      modify fun r => { r with waitingOnLa := some false }
      let r ← get
      return ⟨⟨.doNothing, M.replaying r.mgr⟩, completion.respChan⟩

def _processCompletion (completion : RunActivationCompletion) (updateFromNewPage : Option HistoryUpdate) :
    FOp μ FulfillableActivationComplete := do
  let r ← get
  let heartbeatAutocomplete := r.activation = some .autocomplete && r.waitingOnLa.isSome
  let laHeartbeat := heartbeatAutocomplete || r.waitingOnLa = some true
  if completion.activationWasEviction then prepareCompleteResp M completion false
  else
    let lasRun ← applyCommands M completion.commands updateFromNewPage
    afterCommands M completion heartbeatAutocomplete laHeartbeat lasRun

abbrev Failing (μ : Type) := WFMachinesError → Option RespChan → ROp μ (Option ActivationOrAuto)

def settleCompletion (fail : Failing μ) (completion : RunActivationCompletion)
    (updateFromNewPage : Option HistoryUpdate) : ROp μ (Option ActivationOrAuto) := do
  match ← Op.attempt (_processCompletion M completion updateFromNewPage) with
  | .ok f => update M none (some f)
  | .error e => fail e completion.respChan

/-- An eviction may answer the task whose fetch failed. -/
def completeWithoutTask (respChan : Option RespChan) : ROp μ (Except HistoryPaginator (Option ActivationOrAuto)) := do
  match (← get).tryingToEvict with
  | some ⟨reason, some info⟩ =>
    modify fun r => { r with tryingToEvict := some ⟨reason, none⟩ }
    replyToComplete M (.reportWFTFail info.taskToken info.attempt .workflowWorkerUnhandledFailure .task) respChan
  | _ => replyToComplete M .doNothing respChan
  return .ok none

def activationCompletion (wft : OutstandingTask) (commands : List WFCommand) (respChan : Option RespChan)
    (isForcedFailure : Bool) : RunActivationCompletion :=
  let (commands, queryResponses) :=
    if M.replaying r.mgr && !M.useMoveTerminalCommands r.mgr then preprocessCommandSequenceOldBehavior commands
    else preprocessCommandSequence commands
  { taskToken := wft.taskToken, commands, activationWasEviction := r.activationIsEviction,
    hasPendingQuery := !wft.pendingQueries.isEmpty, queryResponses, isForcedFailure, respChan }

/-- A completion waits for the history of the next task. -/
def processOrFetch (fail : Failing μ) (completion : RunActivationCompletion) :
    ROp μ (Except HistoryPaginator (Option ActivationOrAuto)) := do
  let r ← get
  if M.readyToApplyNextWft r.mgr then return .ok (← settleCompletion M fail completion none)
  else
    match r.paginator with
    | some paginator =>
      modify fun r => { r with paginator := none, completionWaitingOnPageFetch := some completion }
      return .error paginator
    | none => return .ok (← fail (.fatal .paginatorAbsent) completion.respChan)

/-- An activation is completed. The error asks for a page. -/
def successfulCompletionWith (fail : Failing μ) (commands : List WFCommand) (respChan : Option RespChan)
    (isForcedFailure : Bool) : ROp μ (Except HistoryPaginator (Option ActivationOrAuto)) := do
  let r ← get
  let commands := if r.activationIsEviction then [] else commands
  match r.wft with
  | none => completeWithoutTask M respChan
  | some wft =>
    if commands = [.queryResponse .legacy] then
      replyToComplete M (.reportWFTSuccess wft.taskToken .respondLegacyQuery) respChan
      return .ok none
    else processOrFetch M fail (activationCompletion M r wft commands respChan isForcedFailure)

/-- A failure of a query in the old form is left to a later attempt. -/
def isNoReportQueryFail (reason : EvictionReason) (isAutoFail : Bool) : Bool :=
  r.pendingWorkIsLegacyQuery && isAutoFail && (reason = .unspecified || reason = .paginationOrHistoryFetch)

def failureKind (noReport : Bool) : WftFailureKind :=
  if !r.pendingWorkIsLegacyQuery then .task else if noReport then .retryableLegacyQuery else .legacyQuery

/-- A failed task fails the workflow. -/
def failsWorkflow (attempt : Nat) (cause : WorkflowTaskFailedCause) : Bool :=
  !r.pendingWorkIsLegacyQuery && attempt ≤ 1 && cause = .nonDeterministicError && cfg.shouldFailWorkflow r.runId

/-- Drop the workflow, except for a query left to a later attempt. -/
def evictFailed (reason : EvictionReason) (noReport : Bool) : ROp μ (Option ActivationOrAuto) := do
  if noReport then return none else return (← markForEviction M { reason }).intoRunUpdateResp

/-- By cause, reason for the eviction, whether it was found here, and channel. -/
abbrev FailedCompletion (μ : Type) :=
  WorkflowTaskFailedCause → EvictionReason → Bool → Option RespChan → ROp μ (Option ActivationOrAuto)

def updateErr (failed : FailedCompletion μ) (e : WFMachinesError) :
    Option RespChan → ROp μ (Option ActivationOrAuto)
  | none => autoFail e
  | some chan => do
    modify fun r => { r with amBroken := true }
    failed (if e.isNondeterminism then .nonDeterministicError else .workflowWorkerUnhandledFailure) e.evictReason true
      (some chan)

def failTask (fail : Failing μ) (wft : OutstandingTask) (cause : WorkflowTaskFailedCause) (reason : EvictionReason)
    (isAutoFail : Bool) (respChan : Option RespChan) : ROp μ (Option ActivationOrAuto) := do
  let noReport := (← get).isNoReportQueryFail reason isAutoFail
  let act ← evictFailed M reason noReport
  let r ← get
  if r.failsWorkflow cfg wft.attempt cause then
    -- a request for a page of history is dropped here
    match ← successfulCompletionWith M fail [.failWorkflow] respChan true with
    | .ok act => return act
    | .error _ => return none
  else
    replyToComplete M (.reportWFTFail wft.taskToken wft.attempt cause (r.failureKind noReport)) respChan
    return act

def failedCompletion : Nat → FailedCompletion μ
  | 0, _, _, _, _ => throw .outOfFuel
  | fuel + 1, cause, reason, isAutoFail, respChan => do
    match (← get).wft with
    | none =>
      replyToComplete M .doNothing respChan
      return none
    | some wft => failTask M cfg (updateErr (failedCompletion fuel)) wft cause reason isAutoFail respChan

def successfulCompletion (fuel : Nat) (commands : List WFCommand) (respChan : Option RespChan) :
    ROp μ (Except HistoryPaginator (Option ActivationOrAuto)) :=
  successfulCompletionWith M (updateErr (failedCompletion M cfg fuel)) commands respChan false

def fetchedPageCompletion (fuel : Nat) (update : HistoryUpdate) (paginator : HistoryPaginator) :
    ROp μ (Option ActivationOrAuto) := do
  let waiting := (← get).completionWaitingOnPageFetch
  modify fun r => { r with paginator := some paginator, completionWaitingOnPageFetch := none }
  match waiting with
  | some d => settleCompletion M (updateErr (failedCompletion M cfg fuel)) d (some update)
  | none => autoFail (.fatal .notCompleting)

/-- An eviction for want of history fails the completion that waits for it. -/
def requestEviction (fuel : Nat) (info : RequestEvictMsg) : ROp μ EvictionRequestResult := do
  match (← get).completionWaitingOnPageFetch with
  | some c =>
    if info.reason = .paginationOrHistoryFetch then
      modify fun r => { r with completionWaitingOnPageFetch := none }
      return .evictionRequested
        (← failedCompletion M cfg fuel .workflowWorkerUnhandledFailure info.reason true c.respChan)
    else markForEviction M info
  | none => markForEviction M info

def markWftComplete (status : WFTReportStatus) : ROp μ (Option OutstandingTask) := do
  let r ← get
  modify fun r => { r with wft := none }
  match status with
  | .reported resetLastStartedTo =>
    modify fun r =>
      let m := match resetLastStartedTo with
        | some id => M.resetLastStartedId id r.mgr
        | none => r.mgr
      { r with mgr := (M.sinkReqs [.indicateWorkflowTaskCompleted] m).2 }
  | _ => pure ()
  return r.wft

/-- A task that was reported or has seen the last event is done, without pending queries. -/
def completeWft (status : WFTReportStatus) : ROp μ (Option OutstandingTask) := do
  let r ← get
  if (!M.haveSeenTerminalEvent r.mgr && status = .notReported) || r.hasPendingQueries then return none
  else markWftComplete M status

/-- The activation is done. After an eviction, waiting tasks are handed out. -/
def finishActivation (pred : OutstandingActivation → Bool) : ROp μ (Bool × BufferedTasks) := do
  let r ← get
  modify fun r => { r with answer := none }
  if r.activation.any pred then
    if r.activationIsEviction then
      modify fun r =>
        { r with activation := none, taskBuffer := .empty, mgr := (M.sinkReqs [.invalidateRun] r.mgr).2 }
      return (true, r.taskBuffer)
    else
      modify fun r => { r with activation := none }
      return (false, .empty)
  else return (false, .empty)

/-- A run whose end was reported is evicted. -/
def afterPostActivation (status : WFTReportStatus) : ROp μ (Option ActivationOrAuto) := do
  match ← checkMoreActivations M with
  | some act => return some act
  | none =>
    if M.workflowIsFinished (← get).mgr && status.isReported then
      return (← markForEviction M { reason := .workflowExecutionEnding }).intoRunUpdateResp
    else return none

def blank (runId : RunId) (n : Nat) : ManagedRun μ := { runId, mgr := M.new runId n }

end ManagedRun

end SdkCore
