import SdkCore.Lib.Maps
import SdkCore.Lib.Op
import SdkCore.Machines.LocalActivity

/-!
# Local activities of a workflow

The part of `WorkflowMachines` about local activities. A resolution found by looking ahead waits until lang has
scheduled its activity and the activation it was recorded for has come. Markers are numbered and applications noted.
-/

namespace SdkCore

open LocalActivityMachine

/-- A resolution found by looking ahead, with the number of its marker. -/
structure LocalActivityData.Preresolution where
  seq : Nat
  activationIndex : Option Nat
  resolution : ResolveDat
  index : Nat

structure LocalActivityData where
  newRequests : List Attrs := []
  cancelRequests : List Nat := []
  executing : List Nat := []
  preresolutions : List LocalActivityData.Preresolution := []
  activationIndex : Nat := 0
  amTerminating : Bool := false

inductive LocalActivityData.LocalActRequest
  | new (attrs : Attrs)
  | cancel (seq : Nat)
  | cancelAllInRun

namespace LocalActivityData

variable (d : LocalActivityData)

def enqueue (act : Attrs) : LocalActivityData := { d with newRequests := d.newRequests ++ [act] }

def enqueueCancel (seq : Nat) : LocalActivityData :=
  { d with cancelRequests := d.cancelRequests ++ [seq] }

def doneExecuting (seq : Nat) : LocalActivityData :=
  { d with newRequests := d.newRequests.filter (·.seq ≠ seq), executing := d.executing.filter (· ≠ seq) }

def takeAllReqs : List LocalActRequest × LocalActivityData :=
  if d.amTerminating then ([.cancelAllInRun], d)
  else
    (d.cancelRequests.map .cancel ++ d.newRequests.map .new,
      { d with cancelRequests := [], newRequests := [], executing := d.executing ++ d.newRequests.map (·.seq) })

def insertPeekedMarker (dat : CompleteData) (index : Nat) : LocalActivityData :=
  { d with
    preresolutions := d.preresolutions ++
      [{ seq := dat.markerDat.seq, activationIndex := dat.markerDat.activationIndex
         resolution := .ofMarker dat, index }] }

/-- The first resolution for an activity. -/
def takePreresolution (seq : Nat) : Option (Preresolution × LocalActivityData) :=
  (d.preresolutions.find? (·.seq = seq)).map fun item =>
    (item, { d with preresolutions := d.preresolutions.eraseP (·.seq = seq) })

/-- It was recorded for a later activation. -/
def isHeld (item : Preresolution) : Bool :=
  item.activationIndex.any (d.activationIndex < ·)

/-- The activity of the next resolution. -/
def peekPreresolutionSeq (includeHeld : Bool) : Option Nat :=
  match d.preresolutions with
  | [] => none
  | item :: _ => if !includeHeld && d.isHeld item then none else some item.seq

def hasHeldPreresolution (seq : Nat) : Bool :=
  d.preresolutions.any fun item => item.seq = seq && d.isHeld item

def wftApplied : LocalActivityData := { d with activationIndex := 0 }

def activationDispatched : LocalActivityData := { d with activationIndex := d.activationIndex + 1 }

def removeFromQueue (seq : Nat) : Option (Attrs × LocalActivityData) :=
  (d.newRequests.find? (·.seq = seq)).map fun req =>
    (req, { d with newRequests := d.newRequests.eraseP (·.seq = seq) })

def indicateTerminating : LocalActivityData := { d with amTerminating := true }

end LocalActivityData

inductive PendingJob
  | resolveActivity (job : ResolveActivity)
  | queryWorkflow
  | other

/-- By peeking, with held ones only for the release, or by a cancellation. -/
inductive AppliedBy
  | peeked
  | idleRelease
  | cancel
  deriving DecidableEq

/-- Whether there were jobs at that moment, and when the application began. -/
structure AppliedMarker where
  index : Nat
  appliedBy : AppliedBy
  held : Bool
  pendingJobs : Bool
  pendingBefore : Bool
  deriving DecidableEq

structure LocalActs where
  data : LocalActivityData := {}
  machines : Maps.Map Nat LocalActivityMachine := ∅
  jobs : List PendingJob := []
  currentWfTaskCommands : List RecordMarker := []
  currentWfTime : Option Nat := none
  replaying : Bool
  inserted : Nat := 0
  applied : List AppliedMarker := []

namespace LocalActs

abbrev LaOp := Op LocalActs TransitionError

def hasPendingJobs (s : LocalActs) : Bool := !s.jobs.isEmpty

def setCurrentTime (s : LocalActs) (time : Nat) : LocalActs :=
  if s.currentWfTime.all (· < time) then { s with currentWfTime := some time } else s

def processResponse (s : LocalActs) : Response → LocalActs
  | .queueLocalActivity act => { s with data := s.data.enqueue act }
  | .pushWFJob job => { s with jobs := s.jobs ++ [.resolveActivity job] }
  | .updateWFTime (some time) => s.setCurrentTime time
  | .updateWFTime none => s
  | .abandonLocalActivity seq => { s with data := s.data.doneExecuting seq }
  | .issueNewCommand marker => { s with currentWfTaskCommands := s.currentWfTaskCommands ++ [marker] }
  | .requestCancelLocalActivity _ => s

def onMachine (seq : Nat)
    (f : LocalActivityMachine → Except TransitionError (List Response × LocalActivityMachine)) :
      LaOp (List Response) := do
  let s ← get
  match s.machines.lookup seq with
  | none => throw (.nondeterminism "Missing associated machine for the command")
  | some m =>
    match f m with
    | .error e => throw e
    | .ok (responses, m') =>
      modify fun s => { s with machines := s.machines.insert seq m' }
      return responses

/-- This resolves no other machine. -/
def resolveMachine (seq : Nat)
    (f : LocalActivityMachine → Except TransitionError (List Response × LocalActivityMachine)) : LaOp Unit := do
  let responses ← onMachine seq f
  modify fun s => responses.foldl processResponse s

def applyPreresolution (item : LocalActivityData.Preresolution) (data : LocalActivityData) (appliedBy : AppliedBy)
    (pendingBefore : Bool) : LaOp Unit := do
  modify fun s =>
    { s with
      data
      applied := s.applied ++
        [{ index := item.index, appliedBy, held := data.isHeld item, pendingJobs := s.hasPendingJobs, pendingBefore }] }
  resolveMachine item.seq (tryResolveWithDat · item.resolution)

/-- A held resolution is applied instead. -/
def requestCancelLocalActivity (seq : Nat) : LaOp Unit := do
  let s ← get
  if s.data.hasHeldPreresolution seq then pure ()
  else
    match s.data.takePreresolution seq with
    | some (item, data) => applyPreresolution item data .cancel s.hasPendingJobs
    | none =>
      match s.data.removeFromQueue seq with
      | some (removedAct, data) => do
        modify fun s => { s with data }
        resolveMachine seq
          (tryResolve · .emptyCancel 0 removedAct.attempt none removedAct.originalScheduleTime s.data.activationIndex)
      | none => modify fun s => { s with data := s.data.enqueueCancel seq }

def processMachineResponses : List Response → LaOp Unit
  | [] => pure ()
  | .requestCancelLocalActivity seq :: responses => do
    requestCancelLocalActivity seq
    processMachineResponses responses
  | response :: responses => do
    modify fun s => s.processResponse response
    processMachineResponses responses

/-- The loop of `apply_local_activity_peeked_resolutions`. Every round takes a resolution. -/
def applyRounds (includeHeld pendingBefore : Bool) : Nat → LaOp Unit
  | 0 => pure ()
  | rounds + 1 => do
    let s ← get
    match s.data.peekPreresolutionSeq includeHeld with
    | none => pure ()
    | some seq =>
      match s.machines.lookup seq, s.data.takePreresolution seq with
      | some _, some (item, data) => do
        applyPreresolution item data (if includeHeld then .idleRelease else .peeked) pendingBefore
        applyRounds includeHeld pendingBefore rounds
      | _, _ => pure ()

def applyLocalActivityPeekedResolutions (includeHeld : Bool) : LaOp Unit := do
  let s ← get
  applyRounds includeHeld s.hasPendingJobs s.data.preresolutions.length

/-- Without jobs there is no later activation. -/
def releaseHeldLocalActivityResolutionsIfIdle : LaOp Unit := do
  let s ← get
  if s.hasPendingJobs then pure () else applyLocalActivityPeekedResolutions true

/-- A marker that is found waits, or resolves its activity. -/
def lookAheadMarker (dat : CompleteData) : LaOp Unit := do
  let s ← get
  let shouldQueue := ((s.machines.lookup dat.markerDat.seq).map willAcceptResolveMarker).getD true
  if shouldQueue then do
    modify fun s => { s with data := s.data.insertPeekedMarker dat s.inserted, inserted := s.inserted + 1 }
    applyLocalActivityPeekedResolutions false
  else pure ()

/-! ## Calls -/

/-- About local activities, or what another command does to the jobs. -/
inductive LangCommand
  | addLocalActivity (attrs : Attrs) (checks : Bool → Bool) (now : Nat)
  | requestCancelLocalActivity (seq : Nat)
  | sendJob (job : PendingJob)

def handleLangCommand : LangCommand → LaOp Unit
  | .addLocalActivity attrs checks now => do
    let s ← get
    let (la, responses) := newLocalActivity attrs s.replaying s.currentWfTime checks now
    modify fun s => { s with machines := s.machines.insert attrs.seq la }
    processMachineResponses responses
  | .requestCancelLocalActivity seq => do
    let s ← get
    let responses ← onMachine seq (LocalActivityMachine.cancel · s.data.activationIndex)
    processMachineResponses responses
  | .sendJob job => modify fun s => { s with jobs := s.jobs ++ [job] }

def handleDrivenResults : List LangCommand → LaOp Unit
  | [] => pure ()
  | command :: commands => do
    handleLangCommand command
    handleDrivenResults commands

/-- What local activities see of it. -/
def iterateMachines (commands : List LangCommand) : LaOp Unit := do
  handleDrivenResults commands
  applyLocalActivityPeekedResolutions false
  releaseHeldLocalActivityResolutionsIfIdle

def localResolution (seq : Nat) (result : ExecutionResult) (runtime attempt : Nat) (backoff : Option Nat)
    (originalScheduleTime : Option Nat) : LaOp Unit := do
  let s ← get
  resolveMachine seq (tryResolve · result runtime attempt backoff originalScheduleTime s.data.activationIndex)
  modify fun s => { s with data := s.data.doneExecuting seq }

/-- Activations with queries only are not counted. -/
def getWfActivation : LaOp (List PendingJob) := do
  let s ← get
  let allQuery := s.jobs.all fun | .queryWorkflow => true | _ => false
  modify fun s => { s with jobs := [], data := if allQuery then s.data else s.data.activationDispatched }
  return s.jobs

inductive Input
  | wftApplied (replaying : Bool)
  | sendJob (job : PendingJob)
  | lookAheadMarker (dat : CompleteData)
  | releaseHeldIfIdle
  | getWfActivation
  | iterateMachines (commands : List LangCommand)
  | localResolution (seq : Nat) (result : ExecutionResult) (runtime attempt : Nat) (backoff : Option Nat)
    (originalScheduleTime : Option Nat)
  /-- Replay is over, a marker command is prepared, or its event comes. -/
  | encounteredNonReplayWft (seq : Nat)
  | commandRecordMarker (seq : Nat)
  | markerRecorded (dat : CompleteData)
  | drainQueuedLocalActivities
  | indicateTerminating

def handleInput : Input → LaOp Unit
  | .wftApplied replaying => modify fun s => { s with data := s.data.wftApplied, replaying }
  | .sendJob job => modify fun s => { s with jobs := s.jobs ++ [job] }
  | .lookAheadMarker dat => lookAheadMarker dat
  | .releaseHeldIfIdle => releaseHeldLocalActivityResolutionsIfIdle
  | .getWfActivation => do
    let _ ← getWfActivation
  | .iterateMachines commands => iterateMachines commands
  | .localResolution seq result runtime attempt backoff originalScheduleTime =>
    localResolution seq result runtime attempt backoff originalScheduleTime
  | .encounteredNonReplayWft seq => do
    let responses ← onMachine seq LocalActivityMachine.encounteredNonReplayWft
    processMachineResponses responses
  | .commandRecordMarker seq => do
    let responses ← onMachine seq (LocalActivityMachine.handle · .commandRecordMarker)
    processMachineResponses responses
  | .markerRecorded dat => do
    let responses ← onMachine dat.markerDat.seq (LocalActivityMachine.handle · (.markerRecorded dat))
    processMachineResponses responses
  | .drainQueuedLocalActivities => modify fun s => { s with data := s.data.takeAllReqs.2 }
  | .indicateTerminating => modify fun s => { s with data := s.data.indicateTerminating }

/-- A call that fails leaves what it did before. -/
def run (s : LocalActs) (inputs : List Input) : LocalActs :=
  inputs.foldl (fun s i => (Op.exec (handleInput i) s).2) s

end LocalActs

end SdkCore
