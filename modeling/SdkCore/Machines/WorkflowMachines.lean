import SdkCore.Lib.Op
import SdkCore.Machines.Activation

/-!
# The machines of a workflow

`WorkflowMachines` applies sequences from history and commands of lang to the state machines of a workflow, and collects
their jobs. These machines are behind `Behaviour`: an inner state, and how they react.
-/

namespace SdkCore

inductive WftState
  | created
  | scheduled
  | started (startedEventId : Int)
  | completed
  | failed
  | timedOut
  deriving DecidableEq

/-- Made for the task that the sequence at hand ends with. -/
structure WorkflowTaskMachine where
  wfTaskStartedEventId : Int
  state : WftState := .created
  deriving DecidableEq

/-- The task that is now current, and whether the workflow was reset. -/
structure WftResponse where
  triggerWftTaskStarted : Option Int := none
  workflowReset : Bool := false
  deriving DecidableEq

def HistoryEvent.failedCause (e : HistoryEvent) : WftFailedCause :=
  match e.attributes with
  | some (.workflowTaskFailed _ cause) => cause
  | _ => .other

def WorkflowTaskMachine.handleEvent (wt : WorkflowTaskMachine) (e : HistoryEvent) :
    Except MachineError (WorkflowTaskMachine × WftResponse) :=
  match wt.state, e.eventType with
  | .created, .workflowTaskScheduled => .ok ({ wt with state := .scheduled }, {})
  | .scheduled, .workflowTaskStarted =>
    -- a task that was skipped comes before the one that the machine was made for
    .ok ({ wt with state := .started e.eventId },
      { triggerWftTaskStarted := if e.eventId < wt.wfTaskStartedEventId then none else some wt.wfTaskStartedEventId })
  | .scheduled, .workflowTaskFailed =>
    if e.failedCause = .workflowPauseRequestedBeforeTaskStarted then .ok ({ wt with state := .failed }, {})
    else .error .fatal
  | .scheduled, .workflowTaskTimedOut => .ok ({ wt with state := .timedOut }, {})
  | .started startedEventId, .workflowTaskCompleted =>
    .ok ({ wt with state := .completed }, { triggerWftTaskStarted := some startedEventId })
  | .started _, .workflowTaskFailed =>
    .ok ({ wt with state := .failed }, { workflowReset := e.failedCause = .resetWorkflow })
  | .started _, .workflowTaskTimedOut => .ok ({ wt with state := .timedOut }, {})
  | _, _ => .error .fatal

def HistoryEvent.scheduledEventId (e : HistoryEvent) : Option Int :=
  match e.attributes with
  | some (.workflowTaskStarted sid) => some sid
  | some (.workflowTaskCompleted sid) => some sid
  | some (.workflowTaskFailed sid _) => some sid
  | some (.workflowTaskTimedOut sid) => some sid
  | _ => none

def HistoryEvent.isWftEvent (e : HistoryEvent) : Bool :=
  match e.eventType with
  | .workflowTaskScheduled
  | .workflowTaskStarted
  | .workflowTaskCompleted
  | .workflowTaskFailed
  | .workflowTaskTimedOut => true
  | _ => false

/-! ## The behaviour of the other machines -/

structure LocalResolution where
  seq : Nat
  deriving DecidableEq

/-- A request to the manager of local activities. -/
inductive LocalActRequest
  | new (seq : Nat)
  | cancel (seq : Nat)
  | cancelAllInRun
  | invalidateRun
  | indicateWorkflowTaskCompleted
  | startHeartbeatTimeout
  deriving DecidableEq

/-- The next state, jobs, commands, the peeked resolutions that are used up, and an error. -/
structure Reaction (σ : Type) where
  inner : σ
  jobs : List Job := []
  commands : List Nat := []
  taken : List Nat := []
  error : Option MachineError := none

/-- What is done after looking ahead. -/
inductive DelayedAction
  | localActivityMarker (seq : Nat) (activationIndex : Option Nat)
  | protocolMessage (n : Nat)
  deriving DecidableEq

/-- The state machines, with an inner state `σ`. -/
structure Behaviour (σ : Type) where
  receiveMessages : σ → List Nat → σ
  /-- What completed tasks recorded is taken over before the events of a sequence are applied. -/
  wftApplied : σ → List HistoryEvent → σ
  /-- The protocol messages that are due before an event, with the replay flag. -/
  processMessages : σ → HistoryEvent → Bool → Reaction σ
  /-- An event which is not about a workflow task, with the replay flag, whether it belongs to the last task of the
  history, and the event after it. -/
  handleEvent : σ → HistoryEvent → Bool → Bool → Option HistoryEvent → Reaction σ
  /-- The events of the next sequence are looked at, and the actions they ask for are found. -/
  peekEvents : σ → List HistoryEvent → Reaction σ × List DelayedAction
  handleProtocolMessage : σ → Nat → Reaction σ
  /-- Whether there is no machine for a local activity, or one that waits for its marker. -/
  willAcceptResolveMarker : σ → Nat → Bool
  hasLocalActivity : σ → Nat → Bool
  tryResolveWithDat : σ → Nat → Reaction σ
  localResolution : σ → LocalResolution → Reaction σ
  encounteredNonReplayWft : σ → Reaction σ
  handleDrivenResult : σ → WFCommand → Reaction σ
  addTerminalCommand : σ → WFCommand → σ
  /-- A command is about to be sent. No machine answers to that. -/
  handleCommand : σ → Nat → σ × Option MachineError
  resetLastStartedId : σ → Int → σ
  takeAllReqs : σ → List LocalActRequest × σ
  outstandingLaCount : σ → Nat
  hasCommands : σ → Bool
  hasMessages : σ → Bool
  hasTaskTimeout : σ → Bool
  useMoveTerminalCommands : σ → Bool

/-- A job when the workflow starts or is signalled, and nothing else. -/
def Behaviour.signals : Behaviour Unit where
  receiveMessages s _ := s
  wftApplied s _ := s
  processMessages s _ _ := { inner := s }
  handleEvent s e _ _ _ :=
    { inner := s
      jobs := if e.eventType = .workflowExecutionStarted ∨ e.eventType = .workflowExecutionSignaled then [.other]
        else [] }
  peekEvents s _ := ({ inner := s }, [])
  handleProtocolMessage s _ := { inner := s }
  willAcceptResolveMarker _ _ := false
  hasLocalActivity _ _ := false
  tryResolveWithDat s _ := { inner := s }
  localResolution s _ := { inner := s }
  encounteredNonReplayWft s := { inner := s }
  handleDrivenResult s _ := { inner := s }
  addTerminalCommand s _ := s
  handleCommand s _ := (s, none)
  resetLastStartedId s _ := s
  takeAllReqs s := ([], s)
  outstandingLaCount _ := 0
  hasCommands _ := false
  hasMessages _ := false
  hasTaskTimeout _ := true
  useMoveTerminalCommands _ := true

/-- A result found by looking ahead, and its activation. -/
structure Preresolution where
  seq : Nat
  activationIndex : Option Nat
  deriving DecidableEq

/-- A command that waits. Machines of terminal ones never object. -/
inductive CommandAndMachine
  | terminal
  | machine (n : Nat)
  deriving DecidableEq

/-- The machines of a workflow, with what is known of its history. -/
structure WorkflowMachines (σ : Type) where
  lastHistoryFromServer : HistoryUpdate := .dummy
  currentStartedEventId : Int := 0
  nextStartedEventId : Int := 0
  lastProcessedEvent : Int := 0
  replaying : Bool := false
  preparingLegacyQuery : Bool := false
  updateOnlyTask : Bool := false
  haveSeenTerminalEvent : Bool := false
  /-- The machines of workflow tasks, by the id of the scheduled event, the newest first. -/
  workflowTasks : List (Int × WorkflowTaskMachine) := []
  jobs : List Job := []
  currentWfTaskCommands : List CommandAndMachine := []
  preresolutions : List Preresolution := []
  activationIndex : Nat := 0
  amTerminating : Bool := false
  inner : σ

namespace WorkflowMachines

variable {σ : Type} (B : Behaviour σ)

abbrev MOp (σ : Type) := Op (WorkflowMachines σ) WFMachinesError

variable (m : WorkflowMachines σ)

def hasPendingJobs : Bool := !m.jobs.isEmpty

def workflowIsFinished : Bool := m.amTerminating

def hasPendingLaResolutions : Bool := m.jobs.any (·.isLocalActivityResolution)

def outstandingLocalActivityCount : Nat :=
  if m.amTerminating then 0 else B.outstandingLaCount m.inner

/-- The next sequence is at hand. -/
def readyToApplyNextWft : Bool :=
  m.lastHistoryFromServer.canTakeNextWftSequence m.currentStartedEventId

def absorb (r : Reaction σ) : WorkflowMachines σ :=
  { m with
    inner := r.inner
    jobs := m.jobs ++ r.jobs
    currentWfTaskCommands := m.currentWfTaskCommands ++ r.commands.map .machine
    preresolutions := m.preresolutions.filter (fun p => p.seq ∉ r.taken) }

def react (f : σ → Reaction σ) : MOp σ Unit := do
  let m ← get
  modify fun m => m.absorb (f m.inner)
  match (f m.inner).error with
  | some e => throw (.ofMachine e)
  | none => pure ()

def isHeld (p : Preresolution) : Bool := p.activationIndex.any (· > m.activationIndex)

/-- Apply resolutions until the next is not scheduled yet or, unless `includeHeld`, held. -/
def applyPeeked (includeHeld : Bool) : Nat → MOp σ Unit
  | 0 => pure ()
  | fuel + 1 => do
    let m ← get
    match m.preresolutions with
    | [] => pure ()
    | p :: rest =>
      if (!includeHeld && m.isHeld p) || !B.hasLocalActivity m.inner p.seq then pure ()
      else
        modify fun m => { m with preresolutions := rest }
        react fun s => B.tryResolveWithDat s p.seq
        applyPeeked includeHeld fuel

def applyLocalActivityPeekedResolutions (includeHeld : Bool) : MOp σ Unit := do
  applyPeeked B includeHeld (← get).preresolutions.length

/-- Without jobs there is no later activation. -/
def releaseHeldLocalActivityResolutionsIfIdle : MOp σ Unit := do
  if (← get).hasPendingJobs then pure () else applyLocalActivityPeekedResolutions B true

def performDelayedAction : DelayedAction → MOp σ Unit
  | .localActivityMarker seq activationIndex => do
    if B.willAcceptResolveMarker (← get).inner seq then
      modify fun m => { m with preresolutions := m.preresolutions ++ [⟨seq, activationIndex⟩] }
      applyLocalActivityPeekedResolutions B false
    else pure ()
  | .protocolMessage n => react fun s => B.handleProtocolMessage s n

def performDelayedActions : List DelayedAction → MOp σ Unit
  | [] => pure ()
  | action :: actions => do
    performDelayedAction B action
    performDelayedActions actions

/-! ## Applying history -/

def taskStarted (sid : Int) (wt : WorkflowTaskMachine) (r : WftResponse) : WorkflowMachines σ :=
  { m with
    workflowTasks := (sid, wt) :: m.workflowTasks.filter (·.1 ≠ sid)
    currentStartedEventId := r.triggerWftTaskStarted.getD m.currentStartedEventId
    jobs := if r.workflowReset then m.jobs ++ [.other] else m.jobs }

/-- The machine of a task is made when it is scheduled. -/
def handleWftEvent (e : HistoryEvent) : MOp σ Unit := do
  let m ← get
  -- an event without attributes makes the history invalid
  if e.attributes.isNone then throw (.fatal .machine)
  else if e.eventType = .workflowTaskScheduled then
    match (WorkflowTaskMachine.mk m.nextStartedEventId .created).handleEvent e with
    | .ok (wt, r) => modify fun m => m.taskStarted e.eventId wt r
    | .error err => throw (.ofMachine err)
  else
    match e.scheduledEventId with
    | none => throw (.fatal .machine)
    | some sid =>
      match m.workflowTasks.find? (·.1 = sid) with
      | none => throw (.nondeterminism .machine)
      | some (_, wt) =>
        match wt.handleEvent e with
        | .ok (wt, r) => modify fun m => m.taskStarted sid wt r
        | .error err => throw (.ofMachine err)

/-- One event. `lastTask`: the current task is the last in history. -/
def handleEvent (e : HistoryEvent) (lastTask : Bool) (next : Option HistoryEvent) : MOp σ Unit := do
  modify fun m => { m with haveSeenTerminalEvent := m.haveSeenTerminalEvent || e.isFinalWfExecutionEvent }
  if e.isWftEvent then handleWftEvent e
  else
    let m ← get
    react fun s => B.handleEvent s e m.replaying lastTask next

/-- The first event of the last task that this side did not produce. -/
def endsReplay (hasFinalEvent : Bool) (e : HistoryEvent) : Bool :=
  !m.preparingLegacyQuery && hasFinalEvent && e.eventId > m.lastHistoryFromServer.previousWftStartedId &&
    e.eventType ≠ .workflowTaskCompleted && !e.isCommandEvent

def applyEvent (hasFinalEvent : Bool) (e : HistoryEvent) (next : Option HistoryEvent) : MOp σ Unit := do
  let m ← get
  if e.eventId ≠ m.lastProcessedEvent + 1 then
    throw (.fatal (.outOfOrder m.lastProcessedEvent e.eventId))
  else
    modify fun m => { m with replaying := m.replaying && !m.endsReplay hasFinalEvent e }
    let m ← get
    react fun s => B.processMessages s e m.replaying
    handleEvent B e hasFinalEvent next
    modify fun m => { m with lastProcessedEvent := e.eventId }

def applyEvents (hasFinalEvent : Bool) : List HistoryEvent → MOp σ Unit
  | [] => pure ()
  | e :: events => do
    applyEvent B hasFinalEvent e events.head?
    applyEvents hasFinalEvent events

/-- Show the machines the next sequence. -/
def lookAhead (lastHandledWftStartedId : Int) : MOp σ Unit := do
  let m ← get
  let peeked := m.lastHistoryFromServer.peekNextWftSequence lastHandledWftStartedId
  react fun s => (B.peekEvents s peeked).1
  performDelayedActions B (B.peekEvents m.inner peeked).2
  releaseHeldLocalActivityResolutionsIfIdle B
  modify fun m =>
    { m with updateOnlyTask := if !m.replaying && m.hasPendingJobs then !Job.hasNonUpdateJobs m.jobs
                               else m.updateOnlyTask }
  let m ← get
  if !m.replaying && !m.updateOnlyTask then react B.encounteredNonReplayWft else pure ()

def applyTaken (events : List HistoryEvent) (hasFinalEvent : Bool) (lastHandledWftStartedId : Int) : MOp σ Nat := do
  modify fun m =>
    { m with
      activationIndex := if events.isEmpty then m.activationIndex else 0
      inner := B.wftApplied m.inner events
      replaying := if events.isEmpty then m.preparingLegacyQuery else m.replaying
      nextStartedEventId := match events.getLast? with
        | some e => if e.isWftStarted then e.eventId else m.nextStartedEventId
        | none => m.nextStartedEventId }
  applyEvents B hasFinalEvent events
  lookAhead B lastHandledWftStartedId
  return events.length

/-- Without events that were processed already. -/
def applyWft (lastProcessedEvent lastHandledWftStartedId : Int) : NextWFT → MOp σ Nat
  | .replayOver => applyTaken B [] true lastHandledWftStartedId
  | .wft events hasFinalEvent =>
    applyTaken B (events.filter (fun e => e.eventId > lastProcessedEvent)) hasFinalEvent lastHandledWftStartedId
  | .needFetch => throw (.fatal .needFetch)
  | .panicked => throw (.fatal .historyPanicked)

def applyNextWftFromHistory : MOp σ Nat := do
  let m ← get
  if m.haveSeenTerminalEvent then
    modify fun m => { m with replaying := m.preparingLegacyQuery }
    return 0
  else
    let taken := m.lastHistoryFromServer.takeNextWftSequence m.currentStartedEventId
    modify fun m => { m with lastHistoryFromServer := taken.2 }
    applyWft B m.lastProcessedEvent m.currentStartedEventId taken.1

def newHistoryFromServer (update : HistoryUpdate) : MOp σ Unit := do
  modify fun m =>
    { m with lastHistoryFromServer := update
             replaying := m.preparingLegacyQuery || update.previousWftStartedId > 0 }
  let _ ← applyNextWftFromHistory B

def newWorkFromServer (update : HistoryUpdate) (messages : List Nat) (preparingLegacyQuery : Bool) : MOp σ Unit := do
  modify fun m =>
    { m with inner := B.receiveMessages m.inner messages, preparingLegacyQuery, updateOnlyTask := false }
  newHistoryFromServer B update

/-! ## Activations and completions -/

def getWfActivation : WorkflowActivation × WorkflowMachines σ :=
  let allQuery := m.jobs.all (·.isQuery)
  ({ isReplaying := m.replaying || allQuery, historyLength := m.lastProcessedEvent, jobs := m.jobs },
    { m with
      jobs := []
      updateOnlyTask := m.updateOnlyTask && !Job.hasNonUpdateJobs m.jobs
      activationIndex := if allQuery then m.activationIndex else m.activationIndex + 1 })

/-- A task with updates only must accept one first. -/
def checkUpdateOnly (results : List WFCommand) : MOp σ Unit := do
  if (← get).updateOnlyTask then
    if results.any (· = .updateResponse .accepted) then modify fun m => { m with updateOnlyTask := false }
    else if results.any (· ≠ .updateResponse .rejected) then throw (.nondeterminism .updateOnlyCommands)
    else pure ()
  else pure ()

/-- A terminal command ends all work on local activities. -/
def handleDrivenResults : List WFCommand → MOp σ Unit
  | [] => pure ()
  | c :: commands => do
    if c.isTerminal then
      modify fun m =>
        { m with
          inner := B.addTerminalCommand m.inner c
          currentWfTaskCommands := m.currentWfTaskCommands ++ [.terminal]
          amTerminating := true }
    else react fun s => B.handleDrivenResult s c
    handleDrivenResults commands

def prepareCommandList : List CommandAndMachine → MOp σ Unit
  | [] => modify fun m => { m with currentWfTaskCommands := [] }
  | .terminal :: commands => prepareCommandList commands
  | .machine n :: commands => do
    let m ← get
    modify fun m => { m with inner := (B.handleCommand m.inner n).1, currentWfTaskCommands := commands }
    match (B.handleCommand m.inner n).2 with
    | some e => throw (.ofMachine e)
    | none => prepareCommandList commands

def prepareCommands : MOp σ Unit := do prepareCommandList B (← get).currentWfTaskCommands

def iterateMachines (results : List WFCommand) : MOp σ Unit := do
  checkUpdateOnly results
  handleDrivenResults B results
  applyLocalActivityPeekedResolutions B false
  releaseHeldLocalActivityResolutionsIfIdle B
  prepareCommands B

def localResolution (res : LocalResolution) : MOp σ Unit := react fun s => B.localResolution s res

def drainQueuedLocalActivities : List LocalActRequest × WorkflowMachines σ :=
  if m.amTerminating then ([.cancelAllInRun], m)
  else ((B.takeAllReqs m.inner).1, { m with inner := (B.takeAllReqs m.inner).2 })

/-- The task at hand is taken back. -/
def resetLastStartedId (id : Int) : WorkflowMachines σ :=
  let lastProcessedEvent := m.lastProcessedEvent - 2
  { m with
    currentStartedEventId := id
    lastProcessedEvent
    workflowTasks := m.workflowTasks.filter (·.1 ≤ lastProcessedEvent)
    inner := B.resetLastStartedId m.inner id }

end WorkflowMachines

end SdkCore
