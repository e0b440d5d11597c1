import SdkCore.Lib.Reach
import SdkCore.Lib.Logs

/-!
# The driver of a workflow

`WorkflowFuture` takes activations from a channel, hands them to the workflow instance, polls its routines while there
is progress, and sends a completion. It stops at every call of the instance, whose answer is the next input. What
happened is recorded, the last first.
-/

namespace SdkCore.NativeWorkflow

/-! ## Activations, completions and the instance's answers -/

abbrev Payload := Nat

structure Failure where
  message : String
  deriving DecidableEq

/-- The jobs, with whether a result is there. -/
inductive ActivationVariant
  | initializeWorkflow
  | fireTimer
  | updateRandomSeed
  | queryWorkflow (queryId : String)
  | cancelWorkflow
  | signalWorkflow
  | resolveActivity (result : Bool)
  | notifyHasPatch
  | resolveChildWorkflowExecutionStart (status : Bool)
  | resolveChildWorkflowExecution (result : Bool)
  | resolveSignalExternalWorkflow
  | resolveRequestCancelExternalWorkflow
  | doUpdate (protocolInstanceId : String)
  | resolveNexusOperationStart (status : Bool)
  | resolveNexusOperation (result : Bool)
  | removeFromCache
  deriving DecidableEq

structure WorkflowActivation where
  runId : String
  jobs : List (Option ActivationVariant)
  deriving DecidableEq

def WorkflowActivation.isOnlyEviction (a : WorkflowActivation) : Bool := a.jobs = [some .removeFromCache]

inductive UpdateResponse
  | accepted
  | rejected (failure : Failure)
  | completed (result : Payload)
  deriving DecidableEq

inductive QueryResult
  | succeeded (response : Payload)
  | failed (failure : Failure)
  deriving DecidableEq

/-- Answers of the driver, and what workflow code pushes. -/
inductive WorkflowCommand
  | updateResponse (protocolInstanceId : String) (response : UpdateResponse)
  | respondToQuery (queryId : String) (result : QueryResult)
  | completeWorkflowExecution (result : Payload)
  | failWorkflowExecution (failure : Failure)
  | cancelWorkflowExecution (details : Option Payload)
  | continueAsNewWorkflowExecution (attributes : Payload)
  | other (n : Nat)
  deriving DecidableEq

inductive Status
  | successful (commands : List WorkflowCommand)
  | failed (failure : Failure) (forceCause : Nat)
  deriving DecidableEq

/-- The answer to an activation. -/
structure WorkflowActivationCompletion where
  runId : String
  status : Status
  deriving DecidableEq

def WorkflowActivationCompletion.fail (runId : String) (failure : Failure) (cause : Option Nat) :
    WorkflowActivationCompletion :=
  ⟨runId, .failed failure (cause.getD 0)⟩

def nonDeterministicError : Nat := 24

def workflowTaskFailedCauseFromWit (cause : Option Nat) : Option Nat := cause.filter (· ≤ 40)

abbrev RoutineId := Nat

def mainRoutineId : RoutineId := 0

/-- The main routine, or a handler. -/
inductive RoutineKind
  | main
  | signal (name : String)
  | update (name updateId protocolInstanceId : String)
  deriving DecidableEq

def RoutineKind.debug : RoutineKind → String
  | .main => "Main"
  | .signal name => "Signal(" ++ name.quote ++ ")"
  | .update name updateId protocolInstanceId =>
    "Update(UpdateRoutineKind \x7b name: " ++ name.quote ++ ", update_id: " ++ updateId.quote ++
      ", protocol_instance_id: " ++ protocolInstanceId.quote ++ " \x7d)"

/-- What the instance says of a job. -/
inductive ActivationJobResult
  | none
  | startedRoutine (routineId : RoutineId) (kind : RoutineKind)
  | queryResponse (result : QueryResult)
  | updateRejected (failure : Failure)
  deriving DecidableEq

structure TaskFailure where
  failure : Failure
  forceCause : Option Nat
  deriving DecidableEq

inductive TerminalOutcome
  | completed (result : Payload)
  | failed (failure : Failure)
  | cancelled (details : Option Payload)
  | continueAsNew (attributes : Payload)
  deriving DecidableEq

inductive MainRoutineCompletion
  | blocked
  | taskFailed (failure : TaskFailure)
  | terminal (outcome : TerminalOutcome)
  deriving DecidableEq

inductive UpdateRoutineCompletion
  | completed (protocolInstanceId : String) (result : Payload)
  | rejected (protocolInstanceId : String) (failure : Failure)
  deriving DecidableEq

/-- A signal handler may end with a failure. -/
inductive RoutineCompletion
  | main (completion : MainRoutineCompletion)
  | signal (error : Option Failure)
  | update (completion : UpdateRoutineCompletion)
  deriving DecidableEq

inductive RoutinePendingState
  | handler
  | interceptor
  | interceptorWithActivation
  deriving DecidableEq

/-- What a poll of a routine gives. -/
structure RoutinePollResult where
  completion : Option RoutineCompletion
  madeProgress : Bool
  pendingState : Option RoutinePendingState
  deriving DecidableEq

/-- An answer of the instance, which may panic. -/
inductive GuestResult (α : Type)
  | ok (a : α)
  | err (failure : Failure)
  | panicked (message : String)
  deriving DecidableEq

/-- Panics are caught. -/
def GuestResult.toExcept {α : Type} : GuestResult α → Except String α
  | .ok a => .ok a
  | .err failure => .error failure.message
  | .panicked message => .error ("Workflow function panicked: " ++ message)

/-! ## The jobs of an activation and their results -/

/-- What the driver knows of a job. -/
inductive ActivationJobContext
  | passive
  | signal
  | update (protocolInstanceId : String)
  | query (queryId : String)
  deriving DecidableEq

/-- The second is a panic that nobody catches. -/
inductive Untranslated
  | error (message : String)
  | unreachable
  deriving DecidableEq

/-- The result has to be there. Routines are polled. -/
def translateResolution (result : Bool) (message : String) : Except Untranslated (ActivationJobContext × Bool) :=
  if result then .ok (.passive, true) else .error (.error message)

/-- The context, and whether routines are polled. -/
def translateJob : Option ActivationVariant → Except Untranslated (ActivationJobContext × Bool)
  | none => .error (.error "Empty activation job variant")
  | some .initializeWorkflow | some .fireTimer | some .updateRandomSeed | some .cancelWorkflow | some .notifyHasPatch
  | some .resolveSignalExternalWorkflow | some .resolveRequestCancelExternalWorkflow => .ok (.passive, true)
  | some (.resolveActivity result) => translateResolution result "Activity must have result"
  | some (.resolveChildWorkflowExecutionStart status) => translateResolution status "Workflow start must have status"
  | some (.resolveChildWorkflowExecution result) =>
    translateResolution result "Child Workflow execution must have a result"
  | some (.resolveNexusOperationStart status) => translateResolution status "Nexus operation start must have status"
  | some (.resolveNexusOperation result) => translateResolution result "Nexus operation must have result"
  | some (.queryWorkflow queryId) => .ok (.query queryId, false)
  | some .signalWorkflow => .ok (.signal, true)
  | some (.doUpdate protocolInstanceId) => .ok (.update protocolInstanceId, false)
  | some .removeFromCache => .error .unreachable

def translateActivation : List (Option ActivationVariant) → Except Untranslated (List ActivationJobContext × Bool)
  | [] => .ok ([], false)
  | job :: jobs => do
    let (context, polled) ← translateJob job
    let (contexts, shouldPoll) ← translateActivation jobs
    pure (context :: contexts, polled || shouldPoll)

/-- Routines, answers, and that an update was accepted. -/
structure Processed where
  activeRoutines : List RoutineId
  commands : List WorkflowCommand
  updateAccepted : Bool
  deriving DecidableEq

namespace Processed

def push (p : Processed) (c : WorkflowCommand) : Processed := { p with commands := p.commands ++ [c] }

def start (p : Processed) (routineId : RoutineId) : Processed :=
  { p with activeRoutines := p.activeRoutines ++ [routineId] }

end Processed

/-- One result, if it fits its job. -/
def processResult (p : Processed) : ActivationJobContext → ActivationJobResult → Except String Processed
  | .passive, .none | .signal, .none => .ok p
  | .signal, .startedRoutine routineId (.signal _) => .ok (p.start routineId)
  | .signal, .startedRoutine _ other => .error ("Signal job started unexpected routine kind " ++ other.debug)
  | .update protocolInstanceId, .startedRoutine routineId (.update _ _ startedId) =>
    if startedId = protocolInstanceId then
      .ok { (p.push (.updateResponse protocolInstanceId .accepted)).start routineId with updateAccepted := true }
    else .error s!"Update routine protocol instance id {startedId} did not match {protocolInstanceId}"
  | .update _, .startedRoutine _ other => .error ("Update job started unexpected routine kind " ++ other.debug)
  | .update protocolInstanceId, .updateRejected failure =>
    .ok (p.push (.updateResponse protocolInstanceId (.rejected failure)))
  | .query queryId, .queryResponse result => .ok (p.push (.respondToQuery queryId result))
  | _, _ => .error "Unexpected activation result"

/-- Up to the first result that is not expected. -/
def processResults : List (ActivationJobContext × ActivationJobResult) → Processed → Processed × Option String
  | [], p => (p, none)
  | (context, result) :: rest, p =>
    match processResult p context result with
    | .ok p => processResults rest p
    | .error message => (p, some message)

def processActivationResults (contexts : List ActivationJobContext) (results : List ActivationJobResult)
    (p : Processed) : Processed × Option String :=
  if contexts.length ≠ results.length then
    (p, some s!"Activation result count {results.length} did not match job count {contexts.length}")
  else processResults (contexts.zip results) p

/-! ## The future -/

structure InFlightActivation where
  runId : String
  commands : List WorkflowCommand
  deriving DecidableEq

/-- The routines to be polled, those not finished, and what polls said. The main routine comes last. -/
structure Pass where
  todo : List RoutineId
  stillActive : List RoutineId
  passMadeProgress : Bool
  interceptorPending : Bool
  deriving DecidableEq

namespace Pass

def start (activeRoutines : List RoutineId) : Pass := ⟨activeRoutines, [], false, false⟩

def note (pass : Pass) (r : RoutinePollResult) : Pass :=
  { pass with
    passMadeProgress := pass.passMadeProgress || r.madeProgress
    interceptorPending := pass.interceptorPending || r.pendingState = some .interceptor }

inductive Next
  | again
  | complete
  | awaitWake
  deriving DecidableEq

def next (pass : Pass) : Next :=
  if pass.passMadeProgress then .again else if pass.interceptorPending then .awaitWake else .complete

end Pass

inductive RoutineDriveOutcome
  | complete
  | awaitWake
  | failed
  deriving DecidableEq

inductive Termination
  | evicted
  | channelLost
  deriving DecidableEq

/-- Not polled, at the head of the loop, in a call of the instance, or at an end. -/
inductive Phase
  | pending
  | activations
  | activating (activation : WorkflowActivation) (contexts : List ActivationJobContext) (shouldPoll : Bool)
  | driving (inFlight : InFlightActivation) (pass : Pass)
  | ended (termination : Termination)
  | panicked
  deriving DecidableEq

/-- Activations taken, calls with their answers and what was pushed, and completions. -/
inductive Entry
  | taken (a : WorkflowActivation)
  | activated (a : WorkflowActivation) (r : GuestResult (List ActivationJobResult)) (pushed : List WorkflowCommand)
  | polled (r : GuestResult RoutinePollResult) (pushed : List WorkflowCommand)
  | sent (c : WorkflowActivationCompletion)
  deriving DecidableEq

structure WorkflowFuture where
  activationCmds : List WorkflowCommand
  /-- Whether there was a wake that was not from the SDK, if this is tracked. -/
  wakeTracking : Option Bool
  activeRoutines : List RoutineId
  inFlightActivation : Option InFlightActivation
  incomingActivations : List WorkflowActivation
  closed : Bool
  delivered : List WorkflowActivation
  phase : Phase
  log : List Entry
  deriving DecidableEq

namespace WorkflowFuture

def new (detectNondeterministic : Bool) : WorkflowFuture where
  activationCmds := []
  wakeTracking := if detectNondeterministic then some false else none
  activeRoutines := []
  inFlightActivation := none
  incomingActivations := []
  closed := false
  delivered := []
  phase := .pending
  log := []

variable (s : WorkflowFuture)

def send (c : WorkflowActivationCompletion) : WorkflowFuture := { s with log := .sent c :: s.log }

def failWft (runId message : String) (cause : Option Nat) : WorkflowFuture :=
  s.send (.fail runId ⟨message⟩ cause)

def failNondeterministicFuture (runId message : String) : WorkflowFuture :=
  s.failWft runId ("[TMPRL1100] Nondeterministic future detected: " ++ message) (some nonDeterministicError)

/-- A wake that is not from the SDK fails the task. -/
def failOnNonSdkWake (runId : String) : WorkflowFuture × Bool :=
  if s.wakeTracking = some true then
    ({ s with wakeTracking := some false }.failNondeterministicFuture runId
      ("a waker was invoked by a non-SDK source. This usually means workflow code is using nondeterministic " ++
        "operations like tokio async functions or channels, other async libraries, or std::thread. Use SDK-provided " ++
        "alternatives (ctx.timer(), ctx.state_mut() + ctx.wait_condition(), etc.) instead."), true)
  else (s, false)

/-- The commands of the host come last. -/
def sendCompletion (runId : String) (commands : List WorkflowCommand) : WorkflowFuture :=
  { s with activationCmds := [] }.send ⟨runId, .successful (commands ++ s.activationCmds)⟩

def continueLoop : WorkflowFuture := { s with phase := .activations }

/-! ### Driving routines -/

variable (inFlight : InFlightActivation)

def beginPass : WorkflowFuture :=
  { s with activeRoutines := [], phase := .driving inFlight (.start s.activeRoutines) }

/-- What follows after driving. -/
def driven : RoutineDriveOutcome → WorkflowFuture
  | .complete => (s.sendCompletion inFlight.runId inFlight.commands).continueLoop
  | .awaitWake => { s with inFlightActivation := some inFlight, phase := .pending }
  | .failed => s.continueLoop

def failDriving (message : String) : WorkflowFuture :=
  (s.failWft inFlight.runId message none).driven inFlight .failed

def updateCommand : UpdateRoutineCompletion → WorkflowCommand
  | .completed protocolInstanceId result => .updateResponse protocolInstanceId (.completed result)
  | .rejected protocolInstanceId failure => .updateResponse protocolInstanceId (.rejected failure)

def terminalCommand : TerminalOutcome → WorkflowCommand
  | .completed result => .completeWorkflowExecution result
  | .failed failure => .failWorkflowExecution failure
  | .cancelled details => .cancelWorkflowExecution details
  | .continueAsNew attributes => .continueAsNewWorkflowExecution attributes

def routineCompleted (pass : Pass) (id : RoutineId) :
    Option RoutineCompletion → WorkflowFuture
  | none => { s with phase := .driving inFlight { pass with stillActive := pass.stillActive ++ [id] } }
  | some (.signal none) => { s with phase := .driving inFlight pass }
  | some (.signal (some failure)) => s.failDriving inFlight failure.message
  | some (.update completion) =>
    { s with phase := .driving { inFlight with commands := inFlight.commands ++ [updateCommand completion] } pass }
  | some (.main _) => s.failDriving inFlight "non-main routine returned a main completion"

def routinePolled (pass : Pass) (id : RoutineId) (rest : List RoutineId)
    (r : GuestResult RoutinePollResult) : WorkflowFuture :=
  match r.toExcept with
  | .error message => s.failDriving inFlight message
  | .ok result =>
    match s.failOnNonSdkWake inFlight.runId with
    | (s, true) => s.driven inFlight .failed
    | (s, false) => s.routineCompleted inFlight { pass.note result with todo := rest } id result.completion

def endPass (pass : Pass) : WorkflowFuture :=
  match pass.next with
  | .again => s.beginPass inFlight
  | .complete => s.driven inFlight .complete
  | .awaitWake =>
    if s.wakeTracking.isSome then
      (s.failNondeterministicFuture inFlight.runId
        ("a workflow interceptor returned Poll::Pending without polling its handler or an SDK operation that will " ++
          "produce another workflow activation.")).driven inFlight .failed
    else s.driven inFlight .awaitWake

def mainCompleted (pass : Pass) : Option RoutineCompletion → WorkflowFuture
  | none => s.failDriving inFlight "main routine returned no completion"
  | some (.main .blocked) => s.endPass inFlight pass
  | some (.main (.taskFailed failure)) =>
    (s.send (.fail inFlight.runId failure.failure (workflowTaskFailedCauseFromWit failure.forceCause))).driven inFlight
      .failed
  | some (.main (.terminal outcome)) =>
    s.driven { inFlight with commands := inFlight.commands ++ [terminalCommand outcome] } .complete
  | some (.signal _) | some (.update _) => s.failDriving inFlight "main routine returned unexpected completion"

/-- The handlers that are still active were put back. -/
def mainPolled (pass : Pass) (r : GuestResult RoutinePollResult) : WorkflowFuture :=
  let s := { s with activeRoutines := pass.stillActive }
  match r.toExcept with
  | .error message => s.failDriving inFlight message
  | .ok result =>
    match s.failOnNonSdkWake inFlight.runId with
    | (s, true) => s.driven inFlight .failed
    | (s, false) => s.mainCompleted inFlight (pass.note result) result.completion

def polled (pass : Pass) (r : GuestResult RoutinePollResult) : WorkflowFuture :=
  match pass.todo with
  | id :: rest => s.routinePolled inFlight pass id rest r
  | [] => s.mainPolled inFlight pass r

/-- Routines are polled if a job asks for it or an update was accepted. -/
def activationProcessed (runId : String) (contexts : List ActivationJobContext) (shouldPoll : Bool)
    (results : List ActivationJobResult) : WorkflowFuture :=
  match processActivationResults contexts results ⟨s.activeRoutines, [], false⟩ with
  | (p, some message) => ({ s with activeRoutines := p.activeRoutines }.failWft runId message none).continueLoop
  | (p, none) =>
    let s := { s with activeRoutines := p.activeRoutines }
    if shouldPoll || p.updateAccepted then s.beginPass ⟨runId, p.commands⟩
    else (s.sendCompletion runId p.commands).continueLoop

def activated (a : WorkflowActivation) (contexts : List ActivationJobContext) (shouldPoll : Bool)
    (r : GuestResult (List ActivationJobResult)) : WorkflowFuture :=
  match r.toExcept with
  | .error message => (s.failWft a.runId message none).continueLoop
  | .ok results =>
    match s.failOnNonSdkWake a.runId with
    | (s, true) => s.continueLoop
    | (s, false) => s.activationProcessed a.runId contexts shouldPoll results

def receive (a : WorkflowActivation) : WorkflowFuture :=
  if a.isOnlyEviction then { s.send ⟨a.runId, .successful []⟩ with phase := .ended .evicted }
  else
    match s.failOnNonSdkWake a.runId with
    | (s, true) => s.continueLoop
    | (s, false) =>
      match translateActivation a.jobs with
      | .error (.error message) => (s.failWft a.runId message none).continueLoop
      | .error .unreachable => { s with phase := .panicked }
      | .ok (contexts, shouldPoll) => { s with phase := .activating a contexts shouldPoll }

/-- The activation in flight goes on, or the next is taken. -/
def nextActivation : WorkflowFuture :=
  match s.inFlightActivation with
  | some inFlight =>
    let s := { s with inFlightActivation := none }
    match s.failOnNonSdkWake inFlight.runId with
    | (s, true) => s.continueLoop
    | (s, false) => s.beginPass inFlight
  | none =>
    match s.incomingActivations with
    | a :: rest => { s with incomingActivations := rest, log := .taken a :: s.log }.receive a
    | [] => { s with phase := if s.closed then .ended .channelLost else .pending }

def record (e : Entry) (pushed : List WorkflowCommand) : WorkflowFuture :=
  { s with activationCmds := s.activationCmds ++ pushed, log := e :: s.log }

end WorkflowFuture

inductive Input
  | deliver (a : WorkflowActivation)
  | close
  | wake
  | poll
  | next
  | activated (r : GuestResult (List ActivationJobResult)) (pushed : List WorkflowCommand)
  | polled (r : GuestResult RoutinePollResult) (pushed : List WorkflowCommand)
  deriving DecidableEq

namespace WorkflowFuture

def step (s : WorkflowFuture) : Input → Option WorkflowFuture
  | .deliver a =>
    if s.closed then none
    else some { s with incomingActivations := s.incomingActivations ++ [a], delivered := s.delivered ++ [a] }
  | .close => some { s with closed := true }
  | .wake => some { s with wakeTracking := s.wakeTracking.map fun _ => true }
  | .poll =>
    match s.phase with
    | .pending => some s.continueLoop
    | _ => none
  | .next =>
    match s.phase with
    | .activations => some s.nextActivation
    | _ => none
  | .activated r pushed =>
    match s.phase with
    | .activating a contexts shouldPoll =>
      some ((s.record (.activated a r pushed) pushed).activated a contexts shouldPoll r)
    | _ => none
  | .polled r pushed =>
    match s.phase with
    | .driving inFlight pass => some ((s.record (.polled r pushed) pushed).polled inFlight pass r)
    | _ => none

def Reachable (ok : WorkflowFuture → Input → Prop) : WorkflowFuture → Prop :=
  Reach (fun s i s' => step s i = some s') ok fun s => ∃ detect, s = new detect

end WorkflowFuture

end SdkCore.NativeWorkflow
