import SdkCore.LocalActivities.Types
import SdkCore.Lib.Maps

/-!
# The manager of local activities

Runs ask for local activities to be started and cancelled (`enqueue`). The manager hands tasks to lang (`nextPending`)
and takes their results (`complete`). Requests to start are in one channel, cancels and timeouts in another;
`nextPending` takes any element. Time passes by `elapse`, and a task whose time has come is woken by `fire`. A
notification is the permit that `notify_one` stores. The token of a request, the origin of an entry and the log record
what happened.
-/

namespace SdkCore

open Maps

/-- The first attempt of a local activity, or a later one. -/
inductive NewOrRetry
  | new (la : NewLocalAct)
  | retry (inFlight : NewLocalAct) (attempt : Nat)

structure Request where
  what : NewOrRetry
  /-- The token of the entry that was made with the request. -/
  token : TaskToken

def NewOrRetry.la : NewOrRetry → NewLocalAct
  | .new la => la
  | .retry inFlight _ => inFlight

def NewOrRetry.attempt : NewOrRetry → Nat
  | .new la => max la.scheduleCmd.attempt 1
  | .retry _ attempt => attempt

def Request.id (q : Request) : ExecutingLAId := q.what.la.id

/-- A message that ends an attempt. -/
inductive CancelOrTimeout
  | cancel (taskToken : TaskToken)
  | timeout (runId : RunId) (resolution : LocalActivityResolution)
  deriving DecidableEq

inductive CancelDelivery
  | notRequested
  | queued
  | delivered
  deriving DecidableEq

structure LocalInFlightActInfo where
  laInfo : NewLocalAct
  dispatchTime : Nat
  attempt : Nat
  cancel : CancelDelivery

def LocalInFlightActInfo.hasUndeliveredCancel (info : LocalInFlightActInfo) (runId : RunId) : Bool :=
  info.laInfo.runId = runId && info.cancel = .queued

/-- The timeouts of a local activity. They are aborted when this is dropped. -/
structure TimeoutBag where
  schedToCloseHandle : Nat
  startToCloseDurAndDat : Option (Nat × RunId × LocalActivityResolution)
  startToCloseHandle : Option Nat
  deriving DecidableEq

def TimeoutBag.handles (bag : TimeoutBag) : List Nat := bag.schedToCloseHandle :: bag.startToCloseHandle.toList

structure LocalActivityInfo where
  taskToken : TaskToken
  queuedForDispatch : Bool
  backingOffTask : Option Nat
  timeoutBag : Option TimeoutBag
  firstWftHasEnded : Bool
  attemptsInWft : Nat
  /-- The token that was made for the request to start the local activity. -/
  origin : TaskToken
  deriving DecidableEq

/-- What a sleeping task does when its time has come. -/
inductive Wake
  | retry (request : Request)
  | scheduleToClose (runId : RunId) (resolution : LocalActivityResolution)
  | startToClose (runId : RunId) (resolution : LocalActivityResolution) (startedT : Nat)
  | heartbeatTimeout (runId : RunId)

structure SpawnedTask where
  handle : Nat
  due : Nat
  wake : Wake

/-- An attempt that was handed to lang, for a request with this token. -/
structure Started where
  taskToken : TaskToken
  request : TaskToken
  id : ExecutingLAId
  origin : TaskToken
  deriving DecidableEq

inductive LAEvent
  | started (start : Started)
  | resolved (origin : TaskToken)
  | cancelled (origin : TaskToken)
  deriving DecidableEq

structure LocalActivityManager where
  laInfo : Map ExecutingLAId LocalActivityInfo := ∅
  outstandingActivityTasks : Map TaskToken LocalInFlightActInfo := ∅
  nextTtNum : Nat := 0
  actReqs : List Request := []
  cancelsReqs : List CancelOrTimeout := []
  workflowNotifications : List LocalActivityNotification := []
  completeNotify : Bool := false
  workflowsHaveShutDown : Bool := false
  shutdownComplete : Bool := false
  /-- The channels were dropped by a shutdown that waited for everything. -/
  rcvsDropped : Bool := false
  now : Nat := 0
  tasks : List SpawnedTask := []
  nextHandle : Nat := 0
  log : List LAEvent := []

namespace LocalActivityManager

def record (events : List LAEvent) (s : LocalActivityManager) : LocalActivityManager :=
  { s with log := s.log ++ events }

/-! ## Tasks that sleep -/

def spawn (due : Nat) (wake : Wake) (s : LocalActivityManager) : LocalActivityManager :=
  { s with tasks := s.tasks ++ [⟨s.nextHandle, due, wake⟩], nextHandle := s.nextHandle + 1 }

/-- Tasks with these handles do not wake up. -/
def abort (handles : List Nat) (s : LocalActivityManager) : LocalActivityManager :=
  { s with tasks := s.tasks.filter (·.handle ∉ handles) }

def dropBag (bag : Option TimeoutBag) (s : LocalActivityManager) : LocalActivityManager :=
  s.abort (bag.elim [] TimeoutBag.handles)

/-- The timeouts of a new local activity, unless it is too late already. -/
def newTimeoutBag (newLa : NewLocalAct) (s : LocalActivityManager) :
    Except LocalActivityResolution (TimeoutBag × LocalActivityManager) :=
  let (scheduleToClose, startToClose) := newLa.scheduleCmd.closeTimeouts.intoSchedAndStart
  let schedTime := newLa.scheduleCmd.originalScheduleTime.getD newLa.scheduleTime
  let resolution : LocalActivityResolution :=
    { seq := newLa.scheduleCmd.seq, result := .timeout .scheduleToClose, runtime := 0
      attempt := newLa.scheduleCmd.attempt, backoff := none
      originalScheduleTime := newLa.scheduleCmd.originalScheduleTime }
  let bag : TimeoutBag :=
    { schedToCloseHandle := s.nextHandle
      startToCloseDurAndDat := startToClose.map fun d => (d, newLa.runId, resolution)
      startToCloseHandle := none }
  -- The time since the scheduling counts.
  match scheduleToClose.map fun s2c => s2c - (s.now - schedTime) with
  | some 0 => .error resolution
  | some s2c => .ok (bag, s.spawn (s.now + s2c) (.scheduleToClose newLa.runId resolution))
  | none => .ok (bag, { s with nextHandle := s.nextHandle + 1 })

/-- The attempt is handed to lang. An earlier handle is not aborted. -/
def markStarted (bag : Option TimeoutBag) (s : LocalActivityManager) : Option TimeoutBag × LocalActivityManager :=
  match bag with
  | none => (none, s)
  | some bag =>
    match bag.startToCloseDurAndDat with
    | none => (some bag, s)
    | some (startToClose, runId, resolution) =>
      (some { bag with startToCloseHandle := some s.nextHandle },
        s.spawn (s.now + startToClose) (.startToClose runId resolution s.now))

def wake (w : Wake) (s : LocalActivityManager) : LocalActivityManager :=
  match w with
  | .retry request => { s with actReqs := s.actReqs ++ [request] }
  | .scheduleToClose runId resolution =>
    { s with cancelsReqs := s.cancelsReqs ++ [.timeout runId resolution] }
  | .startToClose runId resolution startedT =>
    let resolution := { resolution with result := .timeout .startToClose, runtime := s.now - startedT }
    { s with cancelsReqs := s.cancelsReqs ++ [.timeout runId resolution] }
  | .heartbeatTimeout runId =>
    { s with workflowNotifications := s.workflowNotifications ++ [.heartbeatTimeout runId] }

variable (s : LocalActivityManager)

/-- What a shutdown waits for. -/
def nothingPending : Bool :=
  s.outstandingActivityTasks.entries.isEmpty && (values s.laInfo).all (!·.queuedForDispatch)

def setShutdownCompleteIfReady : LocalActivityManager :=
  if s.nothingPending && s.workflowsHaveShutDown then { s with shutdownComplete := true } else s

def notifyOne : LocalActivityManager := { s with completeNotify := true }

def workflowsHaveShutdown : LocalActivityManager :=
  { s with workflowsHaveShutDown := true }.setShutdownCompleteIfReady

def shutdownInitiated : LocalActivityManager := s.setShutdownCompleteIfReady

/-! ## Requests of runs -/

inductive LocalActRequest
  | new (act : NewLocalAct)
  | cancel (id : ExecutingLAId)
  | cancelAllInRun (runId : RunId)
  | invalidateRun (runId : RunId)
  | startHeartbeatTimeout (runId : RunId) (deadline : Nat)
  | indicateWorkflowTaskCompleted (runId : RunId)

def genNextToken : TaskToken × LocalActivityManager :=
  (s.nextTtNum + 1, { s with nextTtNum := s.nextTtNum + 1 })

/-- A local activity that is known already is ignored. -/
def enqueueNew (act : NewLocalAct) (s : LocalActivityManager) :
    List LocalActivityResolution × LocalActivityManager :=
  let (tt, s) := s.genNextToken
  match s.laInfo.lookup act.id with
  | some _ => ([], s)
  | none =>
    let lai : LocalActivityInfo :=
      { taskToken := tt, queuedForDispatch := false, backingOffTask := none, timeoutBag := none
        firstWftHasEnded := false, attemptsInWft := 0, origin := tt }
    match newTimeoutBag act s with
    | .ok (tb, s) =>
      let lai := { lai with timeoutBag := some tb, queuedForDispatch := true }
      ([], { s with laInfo := s.laInfo.insert act.id lai, actReqs := s.actReqs ++ [⟨.new act, tt⟩] })
    | .error res => ([res], { s with laInfo := s.laInfo.insert act.id lai }.record [.resolved tt])

/-- Whether the entry must be removed, and a resolution if lang holds no attempt. -/
def cancelOneLa (seq : Nat) (lai : LocalActivityInfo) (s : LocalActivityManager) :
    Bool × Option LocalActivityResolution × LocalActivityManager :=
  let cancelledNow : LocalActivityResolution :=
    { seq, result := .emptyCancel, runtime := 0, attempt := 0, backoff := none, originalScheduleTime := none }
  match lai.backingOffTask with
  | some t => (true, some cancelledNow, s.abort [t])
  | none =>
    match s.outstandingActivityTasks.lookup lai.taskToken with
    | some inFlight =>
      -- One cancel for an attempt is enough.
      if inFlight.cancel = .notRequested then
        (false, none, { s with
          cancelsReqs := s.cancelsReqs ++ [.cancel lai.taskToken]
          outstandingActivityTasks := s.outstandingActivityTasks.insert lai.taskToken
            { inFlight with cancel := .queued } })
      else (false, none, s)
    | none => if lai.queuedForDispatch then (true, some cancelledNow, s) else (true, none, s)

/-- The cancel of an entry, if there is one. -/
def cancelLa (id : ExecutingLAId) (s : LocalActivityManager) :
    Bool × Option LocalActivityResolution × LocalActivityManager :=
  match s.laInfo.lookup id with
  | none => (false, none, s)
  | some lai =>
    let (remove, res, s) := cancelOneLa id.seqNum lai s
    let s := s.record [.cancelled lai.origin]
    if remove then (true, res, { s with laInfo := s.laInfo.erase id }.dropBag lai.timeoutBag) else (false, res, s)

/-- The entry goes if it must be removed. -/
def enqueueCancel (id : ExecutingLAId) (s : LocalActivityManager) :
    List LocalActivityResolution × LocalActivityManager :=
  let origin := (s.laInfo.lookup id).map (·.origin)
  let (removed, res, s) := cancelLa id s
  let s := s.record (if res.isSome then (origin.map .resolved).toList else [])
  (res.toList, if removed then s.setShutdownCompleteIfReady.notifyOne else s)

/-- The resolutions of local activities that lang does not hold are dropped. -/
def cancelAllInRun (runId : RunId) (s : LocalActivityManager) : LocalActivityManager :=
  let s' := (s.laInfo.keys.filter (·.runId = runId)).foldl (fun s id => (cancelLa id s).2.2) s
  if s'.laInfo.keys.length ≠ s.laInfo.keys.length then s'.setShutdownCompleteIfReady.notifyOne else s'

/-- Entries, attempts and timers of a run are dropped. -/
def invalidateRun (runId : RunId) (s : LocalActivityManager) : LocalActivityManager :=
  let invalidated := s.laInfo.entries.filter (·.1.runId = runId)
  let s := { s with
    outstandingActivityTasks := retain (fun _ info => info.laInfo.runId ≠ runId) s.outstandingActivityTasks
    laInfo := retain (fun id _ => id.runId ≠ runId) s.laInfo }
  let s := s.abort (invalidated.flatMap fun e => e.2.backingOffTask.toList ++ e.2.timeoutBag.elim [] TimeoutBag.handles)
  s.setShutdownCompleteIfReady.notifyOne

/-- The first task of the run in which the local activities were scheduled is over. -/
def indicateWorkflowTaskCompleted (runId : RunId) (s : LocalActivityManager) : LocalActivityManager :=
  { s with laInfo := s.laInfo |> mapValues fun id lai =>
      if id.runId = runId then { lai with firstWftHasEnded := true, attemptsInWft := 0 } else lai }

def enqueueOne (req : LocalActRequest) (s : LocalActivityManager) :
    List LocalActivityResolution × LocalActivityManager :=
  match req with
  | .new act => s.enqueueNew act
  | .cancel id => s.enqueueCancel id
  | .cancelAllInRun runId => ([], s.cancelAllInRun runId)
  | .invalidateRun runId => ([], s.invalidateRun runId)
  | .startHeartbeatTimeout runId deadline => ([], s.spawn deadline (.heartbeatTimeout runId))
  | .indicateWorkflowTaskCompleted runId => ([], s.indicateWorkflowTaskCompleted runId)

/-- The requests one after another, with the resolutions that there are at once. -/
def enqueue (reqs : List LocalActRequest) (s : LocalActivityManager) :
    List LocalActivityResolution × LocalActivityManager :=
  if s.workflowsHaveShutDown then ([], s)
  else reqs.foldl (fun x req => (x.1 ++ (x.2.enqueueOne req).1, (x.2.enqueueOne req).2)) ([], s)

/-- Whether an eviction must wait. -/
def hasUndeliveredCancels (runId : RunId) (s : LocalActivityManager) : Bool :=
  (values s.outstandingActivityTasks).any (·.hasUndeliveredCancel runId)

/-! ## Results of attempts -/

/-- A result is a failure that may be retried, or is reported. -/
inductive Outcome
  | failurePath (backoff : Option Nat)
  | justReport
  deriving DecidableEq

/-- Only timeouts from start to close are retried, and nothing once it is cancelled. -/
def outcome (info : LocalInFlightActInfo) (status : LocalActivityExecutionResult) : Outcome :=
  let calcBackoff (fail : Option ApplicationFailureInfo) :=
    info.laInfo.scheduleCmd.retryPolicy.shouldRetry (max info.attempt 1) fail
  let cancelRequested := info.cancel ≠ .notRequested
  match status with
  | .failed fail => if cancelRequested then .justReport else .failurePath (calcBackoff fail)
  | .timedOut timeoutType =>
    if timeoutType = .startToClose && !cancelRequested then .failurePath (calcBackoff none) else .justReport
  | .completed => .justReport
  | .cancelled => .justReport

/-- The entry of an attempt that is retried. Its token is new, and its timeouts go on. -/
def retryInfo (oldLai : Option LocalActivityInfo) (tt : TaskToken) (jh : Nat) : LocalActivityInfo where
  taskToken := tt
  queuedForDispatch := false
  backingOffTask := some jh
  firstWftHasEnded := (oldLai.map (·.firstWftHasEnded)).getD false
  attemptsInWft := (oldLai.map (·.attemptsInWft + 1)).getD 1
  timeoutBag := oldLai.bind (·.timeoutBag)
  origin := (oldLai.map (·.origin)).getD tt

/-- The result of an attempt. One that lang does not hold is not tracked. -/
def complete (taskToken : TaskToken) (status : LocalActivityExecutionResult) (s : LocalActivityManager) :
    LACompleteAction × LocalActivityManager :=
  match s.outstandingActivityTasks.lookup taskToken with
  | none => (.untracked, s)
  | some info =>
    let s := { s with outstandingActivityTasks := s.outstandingActivityTasks.erase taskToken }
    let s := if s.workflowsHaveShutDown then s.setShutdownCompleteIfReady else s
    let execId := info.laInfo.id
    let maybeOldLai : Option LocalActivityInfo := s.laInfo.lookup execId
    let s := { s with laInfo := s.laInfo.erase execId }.abort (maybeOldLai.bind (·.backingOffTask)).toList
    let resolution : LocalActivityResolution :=
      { seq := info.laInfo.scheduleCmd.seq, result := status, runtime := s.now - info.dispatchTime
        attempt := info.attempt, backoff := none
        originalScheduleTime := info.laInfo.scheduleCmd.originalScheduleTime }
    let task := if status.isTimeout then some (.cancel taskToken .timedOut) else none
    let resolved := (s.record (maybeOldLai.map (.resolved ·.origin)).toList).dropBag (maybeOldLai.bind (·.timeoutBag))
    match outcome info status with
    | .failurePath (some backoffDur) =>
      if backoffDur > info.laInfo.scheduleCmd.localRetryThreshold then
        -- Lang is told to wait with a timer.
        (.report info.laInfo.runId { resolution with backoff := some backoffDur } task, resolved)
      else
        let (tt, s) := s.genNextToken
        let jh := s.nextHandle
        let s := s.spawn (s.now + backoffDur) (.retry ⟨.retry info.laInfo (info.attempt + 1), tt⟩)
        (.willBeRetried task, { s with laInfo := s.laInfo.insert execId (retryInfo maybeOldLai tt jh) })
    | .failurePath none => (.report info.laInfo.runId resolution task, resolved)
    | .justReport => (.report info.laInfo.runId resolution task, resolved.notifyOne)

/-! ## Tasks for lang -/

/-- What a cancel or a timeout is for may not be tracked any more. -/
def takeCancel (msg : CancelOrTimeout) (s : LocalActivityManager) :
    Option NextPendingLAAction × LocalActivityManager :=
  match msg with
  | .cancel taskToken =>
    match s.outstandingActivityTasks.lookup taskToken with
    | none => (none, s)
    | some info =>
      (some (.dispatch (.cancel taskToken .cancelled)), { s with
        outstandingActivityTasks := s.outstandingActivityTasks.insert taskToken { info with cancel := .delivered }
        workflowNotifications := s.workflowNotifications ++ [.cancelProcessed info.laInfo.runId] })
  | .timeout runId resolution =>
    match s.laInfo.lookup ⟨runId, resolution.seq⟩ with
    | none => (none, s)
    | some lai =>
      let (action, s) := s.complete lai.taskToken resolution.result
      (some (.autocomplete action), s)

/-- A request is dropped if there is no entry for its id. -/
def takeRequest (request : Request) (s : LocalActivityManager) :
    Option NextPendingLAAction × LocalActivityManager :=
  let newLa := request.what.la
  let attempt := request.what.attempt
  let sa := newLa.scheduleCmd
  match s.laInfo.lookup newLa.id with
  | none => (none, s)
  | some lai =>
    let lai := { lai with queuedForDispatch := false, backingOffTask := none }
    let s := { s with laInfo := s.laInfo.insert newLa.id lai }
    let satFor := s.now - newLa.scheduleTime
    if sa.scheduleToStartTimeout.any (satFor > ·) then
      let resolution : LocalActivityResolution :=
        { seq := sa.seq, result := .timeout .scheduleToStart, runtime := satFor, attempt, backoff := none
          originalScheduleTime := sa.originalScheduleTime }
      (some (.autocomplete (.report newLa.runId resolution none)),
        (s.record [.resolved lai.origin]).setShutdownCompleteIfReady.notifyOne)
    else
      let (bag, s) := s.markStarted lai.timeoutBag
      let info : LocalInFlightActInfo := { laInfo := newLa, dispatchTime := s.now, attempt, cancel := .notRequested }
      (some (.dispatch (.start lai.taskToken newLa attempt s.now)), { s with
        laInfo := s.laInfo.insert newLa.id { lai with timeoutBag := bag }
        outstandingActivityTasks := s.outstandingActivityTasks.insert lai.taskToken info
        log := s.log ++ [.started ⟨lai.taskToken, request.token, newLa.id, lai.origin⟩] })

inductive Receive
  | cancel (i : Nat)
  | request (i : Nat)
  deriving DecidableEq

/-- A round of the loop, with nothing if what came is dropped, or after the shutdown. -/
def nextPending (receive : Receive) (s : LocalActivityManager) :
    Option NextPendingLAAction × LocalActivityManager :=
  if s.shutdownComplete || s.rcvsDropped then (none, s)
  else
    match receive with
    | .cancel i =>
      match s.cancelsReqs[i]? with
      | none => (none, s)
      | some msg => { s with cancelsReqs := s.cancelsReqs.eraseIdx i }.takeCancel msg
    | .request i =>
      match s.actReqs[i]? with
      | none => (none, s)
      | some request => { s with actReqs := s.actReqs.eraseIdx i }.takeRequest request

inductive Input
  | enqueue (req : LocalActRequest)
  | nextPending (receive : Receive)
  | complete (taskToken : TaskToken) (status : LocalActivityExecutionResult)
  | workflowsHaveShutdown
  | shutdownInitiated
  | elapse (duration : Nat)
  | fire (i : Nat)

def fire (i : Nat) (s : LocalActivityManager) : LocalActivityManager :=
  match s.tasks[i]? with
  | none => s
  | some task => if task.due ≤ s.now then { s with tasks := s.tasks.eraseIdx i }.wake task.wake else s

def process : Input → LocalActivityManager
  | .enqueue req => (s.enqueue [req]).2
  | .nextPending receive => (s.nextPending receive).2
  | .complete taskToken status => (s.complete taskToken status).2
  | .workflowsHaveShutdown => s.workflowsHaveShutdown
  | .shutdownInitiated => s.shutdownInitiated
  | .elapse duration => { s with now := s.now + duration }
  | .fire i => s.fire i

def Step (i : Input) (s' : LocalActivityManager) : Prop := s.process i = s'

end LocalActivityManager

end SdkCore
