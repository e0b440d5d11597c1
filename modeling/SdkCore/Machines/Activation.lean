import SdkCore.History.CacheMiss

/-!
# Activations, commands and errors

Jobs in activations and commands in completions. What only the machines look at is `other`.
-/

namespace SdkCore

inductive EvictionReason
  | unspecified
  | cacheFull
  | cacheMiss
  | nondeterminism
  | langFail
  | langRequested
  | taskNotFound
  | unhandledCommand
  | fatal
  | paginationOrHistoryFetch
  | workflowExecutionEnding
  deriving DecidableEq

inductive Job
  | doUpdate (runValidator : Bool)
  | resolveLocalActivity
  | queryWorkflow (id : QueryId)
  | removeFromCache (reason : EvictionReason)
  | other
  deriving DecidableEq

namespace Job

def isQuery : Job → Bool
  | queryWorkflow _ => true
  | _ => false

def isLocalActivityResolution : Job → Bool
  | resolveLocalActivity => true
  | _ => false

/-- There is a job other than the request to run an update. -/
def hasNonUpdateJobs (jobs : List Job) : Bool := jobs.any (· ≠ .doUpdate true)

end Job

structure WorkflowActivation where
  isReplaying : Bool := false
  historyLength : Int
  jobs : List Job
  deriving DecidableEq

namespace WorkflowActivation

def isOnlyEviction (act : WorkflowActivation) : Bool :=
  match act.jobs with
  | [.removeFromCache _] => true
  | _ => false

def isLegacyQuery (act : WorkflowActivation) : Bool := act.jobs = [.queryWorkflow .legacy]

end WorkflowActivation

inductive UpdateResponse
  | accepted
  | rejected
  | completed
  deriving DecidableEq

inductive WFCommand
  | queryResponse (id : QueryId)
  | updateResponse (response : UpdateResponse)
  | completeWorkflow
  | failWorkflow
  | cancelWorkflow
  | continueAsNew
  | other (n : Nat)
  deriving DecidableEq

namespace WFCommand

/-- The command ends the workflow. -/
def isTerminal : WFCommand → Bool
  | completeWorkflow | failWorkflow | cancelWorkflow | continueAsNew => true
  | _ => false

def answers : WFCommand → Option QueryId
  | queryResponse id => some id
  | _ => none

end WFCommand

/-- Commands and answers to queries. The first terminal command goes to the end, later ones are dropped. -/
def preprocessCommandSequence (commands : List WFCommand) : List WFCommand × List QueryId :=
  let others := commands.filter (·.answers.isNone)
  (others.filter (!·.isTerminal) ++ (others.find? (·.isTerminal)).toList, commands.filterMap (·.answers))

/-- After a terminal command only answers to queries are taken. -/
def preprocessOld : Bool → List WFCommand → List WFCommand × List QueryId
  | _, [] => ([], [])
  | seenTerminal, c :: commands =>
    match c.answers with
    | some id =>
      let (kept, answered) := preprocessOld seenTerminal commands
      (kept, id :: answered)
    | none =>
      if seenTerminal then preprocessOld seenTerminal commands
      else
        let (kept, answered) := preprocessOld c.isTerminal commands
        (c :: kept, answered)

def preprocessCommandSequenceOldBehavior (commands : List WFCommand) : List WFCommand × List QueryId :=
  preprocessOld false commands

inductive MachineError
  | nondeterminism
  | fatal
  deriving DecidableEq

/-- Found by a machine, or by the code around it. -/
inductive NondeterminismCause
  | updateOnlyCommands
  | machine
  deriving DecidableEq

/-- An error of this side. -/
inductive FatalCause
  | needFetch
  | outOfOrder (lastProcessed eventId : Int)
  | historyPanicked
  | queryExpired
  | bothQueries
  | noJobs
  | paginatorAbsent
  | notCompleting
  | missingTaskTimeout
  | machine
  deriving DecidableEq

inductive WFMachinesError
  | nondeterminism (cause : NondeterminismCause)
  | fatal (cause : FatalCause)
  deriving DecidableEq

namespace WFMachinesError

def ofMachine : MachineError → WFMachinesError
  | .nondeterminism => nondeterminism .machine
  | .fatal => fatal .machine

def evictReason : WFMachinesError → EvictionReason
  | nondeterminism _ => .nondeterminism
  | fatal _ => .fatal

def isNondeterminism : WFMachinesError → Bool
  | nondeterminism _ => true
  | fatal _ => false

theorem ofMachine_ne_needFetch : ∀ e : MachineError, ofMachine e ≠ fatal .needFetch
  | .nondeterminism => nofun
  | .fatal => nofun

end WFMachinesError

end SdkCore
