import SdkCore.Run.Inputs

/-!
# The workflow stream

A task for a run that is not in the cache waits for a slot if the cache is full, and asks for its history if it has only
a part. A run leaves the cache when its eviction is completed, and a task that waits gets the slot. The cache is a list
with the least recently used run first. `removed`, `emitted`, `entered` and `received` record what happened.
-/

namespace SdkCore

open ManagedRun

inductive HistoryFetchReq
  | full (originalWft : PermittedWFT)
  | nextPage (paginator : HistoryPaginator)
  deriving DecidableEq

structure WFStream (μ : Type) where
  runs : List (ManagedRun μ) := []
  bufferedPollsNeedCacheSlot : List (List PermittedWFT) := []
  fetches : List (Nat × HistoryFetchReq) := []
  nextFetch : Nat := 0
  created : Nat := 0
  removed : List (ManagedRun μ) := []
  /-- The tasks for which the whole history was requested. -/
  emitted : List PermittedWFT := []
  entered : List PermittedWFT := []
  received : List Nat := []

inductive ValidatedCompletion
  | success (commands : List WFCommand)
  | fail (forceCause : WorkflowTaskFailedCause) (isAutocomplete : Bool)
  deriving DecidableEq

/-- The result of a fetch names its request; other tasks and failures come from polls. -/
inductive WFStreamInput
  | newWft (pwft : PermittedWFT) (fetch : Option Nat)
  | completion (runId : RunId) (completion : ValidatedCompletion) (responseTx : Option RespChan)
  | fetchedPageCompletion (paginator : HistoryPaginator) (update : HistoryUpdate) (fetch : Option Nat)
  | postActivation (runId : RunId) (status : WFTReportStatus) (wftFromComplete : Option PermittedWFT)
    (isAutocomplete : Bool)
  | localResolution (runId : RunId) (res : LocalResolution)
  | heartbeatTimeout (runId : RunId)
  | localActivityCancelProcessed (runId : RunId)
  | requestEviction (runId : RunId) (info : RequestEvictMsg)
  | failedFetch (runId : RunId) (autoReplyFail : Option UnstoredWftFailInfo) (fetch : Option Nat)
  /-- Nothing but a reason to look at the state again. -/
  | bumpStream

inductive WorkflowStreamAction
  | activation (act : ActivationOrAuto)
  | failUnstoredWft (runId : RunId) (info : UnstoredWftFailInfo)
  deriving DecidableEq

namespace WFStream

variable {μ : Type} (M : ManagerOps μ) (cfg : WorkerConfig)

abbrev SOp (μ : Type) := Op (WFStream μ) Limit

def findRun (s : WFStream μ) (runId : RunId) : Option (ManagedRun μ) := s.runs.find? (·.runId = runId)

def hasRun (s : WFStream μ) (runId : RunId) : Bool := (s.findRun runId).isSome

/-- A run that is used goes to the end. -/
def putRun (s : WFStream μ) (r : ManagedRun μ) : WFStream μ :=
  { s with runs := s.runs.filter (·.runId ≠ r.runId) ++ [r] }

def capacity : Nat := if cfg.maxCachedWorkflows > 0 then cfg.maxCachedWorkflows else 1

def isFull (s : WFStream μ) : Bool := s.runs.length = capacity cfg

/-- Do something with a run, if it is there. -/
def onRun {α : Type} (runId : RunId) (x : ManagedRun.ROp μ α) : SOp μ (Option α) := do
  match (← get).findRun runId with
  | none => return none
  | some r =>
    modify fun s => s.putRun (x.exec r).2
    match (x.exec r).1 with
    | .ok a => return some a
    | .error e => throw e

def actOnRun (runId : RunId) (x : ManagedRun.ROp μ (Option ActivationOrAuto)) : SOp μ (Option ActivationOrAuto) := do
  return (← onRun runId x).join

def newRun (pwft : PermittedWFT) : SOp μ (Option ActivationOrAuto) := do
  let s ← get
  let made := (incomingWft M pwft).exec (.blank M pwft.work.runId s.created)
  modify fun s => { s.putRun made.2 with created := s.created + 1 }
  match made.1 with
  | .ok act => return act
  | .error e => throw e

def removeRun (runId : RunId) (s : WFStream μ) : WFStream μ :=
  { s with
    runs := s.runs.filter (·.runId ≠ runId)
    removed := s.removed ++ s.runs.filter (·.runId = runId) }

def requestFetch (req : HistoryFetchReq) (s : WFStream μ) : WFStream μ :=
  { s with fetches := s.fetches ++ [(s.nextFetch, req)], nextFetch := s.nextFetch + 1 }

/-- Tasks for a run wait together. -/
def bufferPoll (work : PermittedWFT) : List (List PermittedWFT) → List (List PermittedWFT)
  | [] => [[work]]
  | group :: groups =>
    if group.head?.any (·.work.runId = work.work.runId) then (group ++ [work]) :: groups
    else group :: bufferPoll work groups

def bufferRespOnFullCache (work : PermittedWFT) (s : WFStream μ) : WFStream μ :=
  { s with bufferedPollsNeedCacheSlot := bufferPoll work s.bufferedPollsNeedCacheSlot }

def instantiateOrUpdate (pwft : PermittedWFT) : SOp μ (Option ActivationOrAuto) := do
  let s ← get
  if s.hasRun pwft.work.runId then actOnRun pwft.work.runId (offerWft M pwft)
  else if s.isFull cfg then
    modify (bufferRespOnFullCache pwft)
    return none
  else if pwft.work.isIncremental then
    modify fun s => { s.requestFetch (.full pwft) with emitted := s.emitted ++ [pwft] }
    return none
  else newRun M pwft

/-- The first activation counts. -/
def instantiateAll : List PermittedWFT → SOp μ (Option ActivationOrAuto)
  | [] => return none
  | p :: ps => do
    let act ← instantiateOrUpdate M cfg p
    let later ← instantiateAll ps
    return act.orElse fun _ => later

def requestEviction (fuel : Nat) (runId : RunId) (info : RequestEvictMsg) : SOp μ (Option ActivationOrAuto) := do
  return (← onRun runId (ManagedRun.requestEviction M cfg fuel info)).bind (·.intoRunUpdateResp)

def requestEvictionOfLruRun (fuel : Nat) : SOp μ (Option ActivationOrAuto) := do
  match (← get).runs with
  | [] => return none
  | r :: _ => requestEviction M cfg fuel r.runId { reason := .cacheFull }

/-- The least recently used runs without tasks of their own. -/
def evictThese : Nat → List (ManagedRun μ) → List RunId
  | 0, _ => []
  | _, [] => []
  | n + 1, r :: rs => if !r.hasBufferedWft then r.runId :: evictThese n rs else evictThese (n + 1) rs

def requestEvictions (fuel : Nat) : List RunId → SOp μ (List ActivationOrAuto)
  | [] => return []
  | k :: ks => do
    let act ← requestEviction M cfg fuel k { reason := .cacheFull }
    let acts ← requestEvictions fuel ks
    return act.toList ++ acts

/-- As many evictions as runs that wait for a slot. -/
def reconcileBuffered (fuel : Nat) : SOp μ (List ActivationOrAuto) := do
  let s ← get
  requestEvictions M cfg fuel
    (evictThese (s.bufferedPollsNeedCacheSlot.length - s.runs.countP (·.tryingToEvict.isSome)) s.runs)

/-- What a completion asks its run to do, and the page it needs. -/
def complete (fuel : Nat) (responseTx : Option RespChan) :
    ValidatedCompletion → ManagedRun.ROp μ (Except HistoryPaginator (Option ActivationOrAuto))
  | .success commands => successfulCompletion M cfg fuel commands responseTx
  | .fail forceCause isAutocomplete => do
    let act ← failedCompletion M cfg fuel
      (if forceCause = .unspecified then .workflowWorkerUnhandledFailure else forceCause)
      (if isAutocomplete then .unspecified else .langFail) isAutocomplete responseTx
    return .ok act

/-- A cache without room keeps a run only while it has something to do. -/
def evictAfterCompletion (fuel : Nat) (runId : RunId) (acts : List ActivationOrAuto) :
    SOp μ (List ActivationOrAuto) := do
  let s ← get
  if cfg.maxCachedWorkflows = 0 && (s.findRun runId).any fun r => r.waitingOnLa.isNone && !r.morePendingWork M then
    return acts ++ (← requestEvictionOfLruRun M cfg fuel).toList
  else return acts

def processCompletion (fuel : Nat) (runId : RunId) (completion : ValidatedCompletion) (responseTx : Option RespChan) :
    SOp μ (List ActivationOrAuto) := do
  match ← onRun runId (complete M cfg fuel responseTx completion) with
  | none => return []
  | some (.ok act) => evictAfterCompletion M cfg fuel runId act.toList
  | some (.error paginator) =>
    modify (requestFetch (.nextPage paginator))
    evictAfterCompletion M cfg fuel runId []

def processFetchedPage (fuel : Nat) (paginator : HistoryPaginator) (update : HistoryUpdate) :
    SOp μ (List ActivationOrAuto) := do
  match ← onRun paginator.runId (fetchedPageCompletion M cfg fuel update paginator) with
  | none => return []
  | some act => evictAfterCompletion M cfg fuel paginator.runId act.toList

/-! ## After an activation -/

/-- Tasks that start now, and the rest of the buffer. The task that came with the completion is taken only if no other
waits. -/
def takeReady (shouldEvict : Bool) (buffered : BufferedTasks) (wftFromComplete : Option PermittedWFT) :
    SOp μ (List PermittedWFT × BufferedTasks) := do
  match buffered.getNextWft with
  | some (p, rest) => return ([p], rest)
  | none =>
    match wftFromComplete with
    | some p => return ([p], buffered)
    | none =>
      match (← get).bufferedPollsNeedCacheSlot with
      | group :: groups =>
        if shouldEvict then
          modify fun s => { s with bufferedPollsNeedCacheSlot := groups }
          return (group, buffered)
        else return ([], buffered)
      | [] => return ([], buffered)

def startOrder (group : List PermittedWFT) : List PermittedWFT := group.getLast?.toList ++ group.dropLast

/-- The slot of a run that is done goes to tasks that wait. -/
def afterFinish (runId : RunId) (shouldEvict : Bool) (buffered : BufferedTasks)
    (wftFromComplete : Option PermittedWFT) : SOp μ (Option ActivationOrAuto) := do
  modify fun s => if shouldEvict then s.removeRun runId else s
  let ready ← takeReady shouldEvict buffered wftFromComplete
  instantiateAll M cfg (startOrder ready.1 ++ ready.2.intoBufferOrder)

/-- If no task gives an activation, the run itself may. -/
def goOn (runId : RunId) (status : WFTReportStatus) (shouldEvict : Bool) (buffered : BufferedTasks)
    (wftFromComplete : Option PermittedWFT) : SOp μ (Option ActivationOrAuto) := do
  match ← afterFinish M cfg runId shouldEvict buffered wftFromComplete with
  | some act => return some act
  | none => actOnRun runId (afterPostActivation M status)

def finish (runId : RunId) (status : WFTReportStatus) (wftFromComplete : Option PermittedWFT) (isAutocomplete : Bool) :
    SOp μ (Option ActivationOrAuto) := do
  match ← onRun runId (finishActivation M (endsActivation isAutocomplete)) with
  | none => return none
  | some finished => goOn M cfg runId status finished.1 finished.2 wftFromComplete

def processPostActivation (runId : RunId) (status : WFTReportStatus) (wftFromComplete : Option PermittedWFT)
    (isAutocomplete : Bool) : SOp μ (Option ActivationOrAuto) := do
  let maybeT ← onRun runId (completeWft M status)
  -- the task that came with the completion takes over the permit of the one that is done
  let wftFromComplete := maybeT.join.bind fun _ => wftFromComplete
  modify fun s => { s with entered := s.entered ++ wftFromComplete.toList }
  finish M cfg runId status wftFromComplete isAutocomplete

/-! ## The stream -/

def returned (fetch : Option Nat) (s : WFStream μ) : WFStream μ :=
  { s with fetches := s.fetches.filter fun f => some f.1 ≠ fetch }

def touch (runId : RunId) : SOp μ Unit := do
  let _ ← onRun runId (pure ())

/-- A task for a run that is not in the cache fails right away. -/
def processFailedFetch (fuel : Nat) (runId : RunId) (autoReplyFail : Option UnstoredWftFailInfo) :
    SOp μ (List WorkflowStreamAction) := do
  let s ← get
  match s.hasRun runId, autoReplyFail with
  | false, some info => return [.failUnstoredWft runId info]
  | _, _ =>
    let act ← requestEviction M cfg fuel runId { reason := .paginationOrHistoryFetch, autoReplyFail }
    return act.toList.map .activation

def handle (fuel : Nat) : WFStreamInput → SOp μ (List WorkflowStreamAction)
  | .newWft pwft fetch => do
    modify fun s => { s.returned fetch with entered := s.entered ++ [pwft] }
    return (← instantiateOrUpdate M cfg pwft).toList.map .activation
  | .completion runId completion responseTx => do
    touch runId
    modify fun s => { s with received := s.received ++ (responseTx.map (·.id)).toList }
    return (← processCompletion M cfg fuel runId completion responseTx).map .activation
  | .fetchedPageCompletion paginator update fetch => do
    modify (returned fetch)
    touch paginator.runId
    return (← processFetchedPage M cfg fuel paginator update).map .activation
  | .postActivation runId status wftFromComplete isAutocomplete => do
    touch runId
    return (← processPostActivation M cfg runId status wftFromComplete isAutocomplete).toList.map .activation
  | .localResolution runId res => do
    touch runId
    return (← actOnRun runId (localResolution M res)).toList.map .activation
  | .heartbeatTimeout runId => do
    touch runId
    return (← actOnRun runId (heartbeatTimeout M)).toList.map .activation
  | .localActivityCancelProcessed runId => do
    touch runId
    return (← actOnRun runId (checkMoreActivations M)).toList.map .activation
  | .requestEviction runId info => do
    touch runId
    return (← requestEviction M cfg fuel runId info).toList.map .activation
  | .failedFetch runId autoReplyFail fetch => do
    modify (returned fetch)
    processFailedFetch M cfg fuel runId autoReplyFail
  | .bumpStream => return []

/-- An input, and then the evictions that are needed. -/
def process (fuel : Nat) (input : WFStreamInput) : SOp μ (List WorkflowStreamAction) := do
  let actions ← handle M cfg fuel input
  let acts ← reconcileBuffered M cfg fuel
  return actions ++ acts.map .activation

def Step (s : WFStream μ) (input : WFStreamInput) (s' : WFStream μ) : Prop :=
  ∃ fuel actions, (process M cfg fuel input).exec s = (.ok actions, s')

def step? (fuel : Nat) (s : WFStream μ) (input : WFStreamInput) : Option (WFStream μ) :=
  match (process M cfg fuel input).exec s with
  | (.ok _, s') => some s'
  | (.error _, _) => none

variable {M cfg} in
theorem step_of_step? {fuel : Nat} {s s' : WFStream μ} {input : WFStreamInput}
    (h : step? M cfg fuel s input = some s') : Step M cfg s input s' := by
  unfold step? at h
  split at h
  · next actions _ heq =>
    cases h
    exact ⟨fuel, actions, heq⟩
  · cases h

end WFStream

end SdkCore
