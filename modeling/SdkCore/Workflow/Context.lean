import SdkCore.Lib.Wakeups
import Mathlib.Data.Finset.Basic

/-!
# The context of Rust workflow code

An operation gets a sequence number, registers the unblockers of its future (`issue`) and a callback with a token. A
resolution takes the unblocker (`unblock`). Only a timer is resolved by its own cancellation. To cancel a token puts its
callbacks in front of `callbacks`, and nothing else happens until that list is empty. The future of a local activity
(`LATimerBackoffFut`) goes from attempt to backoff timer to attempt.
-/

namespace SdkCore.WorkflowContext

/-! ## Commands, resolutions and what is cancelled -/

/-- Who is woken. -/
inductive Waker
  | noop
  | task (n : Nat)
  deriving DecidableEq

inductive TimerResult
  | cancelled
  | fired
  deriving DecidableEq

structure DoBackoff where
  attempt : Nat
  backoffDuration : Nat
  originalScheduleTime : Option Nat
  deriving DecidableEq

inductive ActivityResolution
  | completed
  | failed
  | cancelled
  | backoff (b : DoBackoff)
  deriving DecidableEq

/-- A command that waits for a resolution. -/
inductive PendingCommandId
  | timer (seq : Nat)
  | activity (seq : Nat)
  | childWorkflowStart (seq : Nat)
  | childWorkflowComplete (seq : Nat)
  | signalExternal (seq : Nat)
  | cancelExternal (seq : Nat)
  | nexusOpStart (seq : Nat)
  | nexusOpComplete (seq : Nat)
  deriving DecidableEq

abbrev PendingCommandId.Result : PendingCommandId → Type
  | .timer _ => TimerResult
  | .activity _ => ActivityResolution
  | _ => Unit

def PendingCommandId.seq : PendingCommandId → Nat
  | .timer seq | .activity seq | .childWorkflowStart seq | .childWorkflowComplete seq | .signalExternal seq
  | .cancelExternal seq | .nexusOpStart seq | .nexusOpComplete seq => seq

structure UnblockEvent where
  id : PendingCommandId
  result : id.Result

/-- An operation that can be cancelled. -/
inductive CancellableSeqNum
  | timer (seq : Nat)
  | activity (seq : Nat)
  | localActivity (seq : Nat)
  | childWorkflow (seq : Nat)
  | signalExternalWorkflow (seq : Nat)
  | nexusOp (seq : Nat)
  deriving DecidableEq

/-- The future whose owner may cancel the operation: for an attempt, that of the local activity. -/
def CancellableSeqNum.future : CancellableSeqNum → Option PendingCommandId
  | .timer seq => some (.timer seq)
  | .activity seq => some (.activity seq)
  | .childWorkflow seq => some (.childWorkflowComplete seq)
  | .signalExternalWorkflow seq => some (.signalExternal seq)
  | .nexusOp seq => some (.nexusOpComplete seq)
  | .localActivity _ => none

/-- Counters of sequence numbers. Local activities share the one of activities. -/
inductive SeqKind
  | timer
  | activity
  | childWorkflow
  | cancelExternalWf
  | signalExternalWf
  | nexusOp
  deriving DecidableEq

/-- Commands for the host. The number of a local activity stands for its contents. -/
inductive WorkflowCommand
  | startTimer (seq duration : Nat)
  | cancelTimer (seq : Nat)
  | scheduleActivity (seq : Nat)
  | requestCancelActivity (seq : Nat)
  | scheduleLocalActivity (seq la : Nat) (attempt originalScheduleTime : Option Nat)
  | requestCancelLocalActivity (seq : Nat)
  | startChildWorkflowExecution (seq : Nat)
  | cancelChildWorkflowExecution (seq : Nat)
  | signalExternalWorkflowExecution (seq : Nat)
  | cancelSignalWorkflow (seq : Nat)
  | requestCancelExternalWorkflowExecution (seq : Nat)
  | scheduleNexusOperation (seq : Nat)
  | requestCancelNexusOperation (seq : Nat)
  deriving DecidableEq

def PendingCommandId.kind : PendingCommandId → SeqKind
  | .timer _ => .timer
  | .activity _ => .activity
  | .childWorkflowStart _ | .childWorkflowComplete _ => .childWorkflow
  | .signalExternal _ => .signalExternalWf
  | .cancelExternal _ => .cancelExternalWf
  | .nexusOpStart _ | .nexusOpComplete _ => .nexusOp

/-- The futures of an operation. -/
def SeqKind.ids (seq : Nat) : SeqKind → List PendingCommandId
  | .timer => [.timer seq]
  | .activity => [.activity seq]
  | .childWorkflow => [.childWorkflowComplete seq, .childWorkflowStart seq]
  | .cancelExternalWf => [.cancelExternal seq]
  | .signalExternalWf => [.signalExternal seq]
  | .nexusOp => [.nexusOpComplete seq, .nexusOpStart seq]

/-- The futures that a command is for. -/
def WorkflowCommand.issues : WorkflowCommand → List PendingCommandId
  | .startTimer seq _ => SeqKind.timer.ids seq
  | .scheduleActivity seq | .scheduleLocalActivity seq _ _ _ => SeqKind.activity.ids seq
  | .startChildWorkflowExecution seq => SeqKind.childWorkflow.ids seq
  | .signalExternalWorkflowExecution seq => SeqKind.signalExternalWf.ids seq
  | .requestCancelExternalWorkflowExecution seq => SeqKind.cancelExternalWf.ids seq
  | .scheduleNexusOperation seq => SeqKind.nexusOp.ids seq
  | _ => []

/-! ## The state -/

/-- An operation, a child token or a local activity is cancelled. -/
inductive Callback
  | op (id : CancellableSeqNum)
  | child (token : Nat)
  | localActivity (la : Nat)
  deriving DecidableEq

/-- The callback of the future of a command. Starts of children and Nexus operations have none. -/
def PendingCommandId.callback : PendingCommandId → Option Callback
  | .timer seq => some (.op (.timer seq))
  | .activity seq => some (.op (.activity seq))
  | .childWorkflowComplete seq => some (.op (.childWorkflow seq))
  | .signalExternal seq => some (.op (.signalExternalWorkflow seq))
  | .nexusOpComplete seq => some (.op (.nexusOp seq))
  | .childWorkflowStart _ | .cancelExternal _ | .nexusOpStart _ => none

structure WorkflowCancellationToken where
  cancelled : Bool
  callbacks : List Callback
  deriving DecidableEq

/-- The future of a local activity, with the numbers of its attempt and its timer. -/
structure LATimerBackoffFut where
  currentFut : Nat
  timerFut : Option Nat
  cancellationToken : Nat
  nextAttempt : Nat
  nextSchedTime : Option Nat
  didCancel : Bool
  terminated : Bool
  deriving DecidableEq

namespace LATimerBackoffFut

def new (seq token : Nat) : LATimerBackoffFut where
  currentFut := seq
  timerFut := none
  cancellationToken := token
  nextAttempt := 1
  nextSchedTime := none
  didCancel := false
  terminated := false

/-- What the future waits for. -/
def awaited (la : LATimerBackoffFut) : PendingCommandId :=
  match la.timerFut with
  | some seq => .timer seq
  | none => .activity la.currentFut

def owns (la : LATimerBackoffFut) (id : PendingCommandId) : Bool :=
  id = .activity la.currentFut || la.timerFut.map .timer = some id

end LATimerBackoffFut

/-- Commands pushed, and cancels of local activities with their attempt. -/
inductive Entry
  | command (c : WorkflowCommand)
  | cancel (la seq : Nat)
  deriving DecidableEq

/-- The context of a workflow. -/
structure Ctx where
  nextSeq : SeqKind → Nat
  pendingUnblocks : Finset PendingCommandId
  channels : (id : PendingCommandId) → Oneshot id.Result Waker
  progressMade : Bool
  stateMutated : Bool
  commands : List WorkflowCommand
  cancelledOperations : Finset CancellableSeqNum
  currentWaker : Option Waker
  tokens : Nat → WorkflowCancellationToken
  nextToken : Nat
  las : Nat → Option LATimerBackoffFut
  nextLa : Nat
  /-- The callbacks of cancelled tokens that are still to be run. -/
  callbacks : List Callback
  /-- The wakers that resolutions have woken, the last one first. -/
  woken : List Waker
  log : List Entry

/-- The root token has the number zero. -/
def init : Ctx where
  nextSeq _ := 1
  pendingUnblocks := ∅
  channels _ := .channel
  progressMade := false
  stateMutated := false
  commands := []
  cancelledOperations := ∅
  currentWaker := none
  tokens _ := ⟨false, []⟩
  nextToken := 1
  las _ := none
  nextLa := 0
  callbacks := []
  woken := []
  log := []

namespace Ctx

/-! ## Unblocking and cancelling -/

variable (s : Ctx)

def constructionWaker : Waker := s.currentWaker.getD .noop

def registerUnblocker (id : PendingCommandId) : Ctx :=
  { s with
    pendingUnblocks := insert id s.pendingUnblocks
    channels := Function.update s.channels id .channel }

def pushCommand (c : WorkflowCommand) : Ctx :=
  { s with commands := s.commands ++ [c], log := .command c :: s.log }

/-- The next number, the unblockers, and the command. -/
def issue (k : SeqKind) (c : Nat → WorkflowCommand) : Ctx :=
  let seq := s.nextSeq k
  let s := (k.ids seq).foldl registerUnblocker { s with nextSeq := Function.update s.nextSeq k (seq + 1) }
  s.pushCommand (c seq)

def send (event : UnblockEvent) : Ctx :=
  { s with
    pendingUnblocks := s.pendingUnblocks.erase event.id
    progressMade := true
    channels := Function.update s.channels event.id (.send event.result)
    woken := (s.channels event.id).waker.toList ++ s.woken }

def unblock (event : UnblockEvent) : Option Ctx :=
  if event.id ∈ s.pendingUnblocks then some (s.send event) else none

def maybeUnblock (event : UnblockEvent) : Ctx × Bool :=
  if event.id ∈ s.pendingUnblocks then (s.send event, true) else (s, false)

/-- An operation is cancelled, once. -/
def cancel (id : CancellableSeqNum) : Ctx :=
  if id ∈ s.cancelledOperations then s
  else
    let s := { s with cancelledOperations := insert id s.cancelledOperations }
    match id with
    | .timer seq =>
      match s.maybeUnblock ⟨.timer seq, .cancelled⟩ with
      | (s, true) => s.pushCommand (.cancelTimer seq)
      | (s, false) => s
    | .activity seq => s.pushCommand (.requestCancelActivity seq)
    | .localActivity seq => s.pushCommand (.requestCancelLocalActivity seq)
    | .childWorkflow seq => s.pushCommand (.cancelChildWorkflowExecution seq)
    | .signalExternalWorkflow seq => s.pushCommand (.cancelSignalWorkflow seq)
    | .nexusOp seq => s.pushCommand (.requestCancelNexusOperation seq)

def setLa (n : Nat) (la : LATimerBackoffFut) : Ctx :=
  { s with las := Function.update s.las n (some la) }

def cancelTimerFut : Option Nat → Ctx
  | none => s
  | some seq => s.cancel (.timer seq)

/-- Cancel the timer if there is one, and the attempt. -/
def cancelLa (n : Nat) : Ctx :=
  match s.las n with
  | none => s
  | some la =>
    let s := { s with log := .cancel n la.currentFut :: s.log }
    ((s.setLa n { la with didCancel := true }).cancelTimerFut la.timerFut).cancel (.localActivity la.currentFut)

/-- Its callbacks come before those still to be run. -/
def cancelToken (token : Nat) : Ctx :=
  if (s.tokens token).cancelled then s
  else
    { s with
      tokens := Function.update s.tokens token ⟨true, []⟩
      callbacks := (s.tokens token).callbacks ++ s.callbacks }

def runCallback : Callback → Ctx
  | .op id => s.cancel id
  | .child token => s.cancelToken token
  | .localActivity n => s.cancelLa n

/-- The callback is run at once if the token was cancelled. -/
def register (token : Nat) (callback : Callback) : Ctx :=
  if (s.tokens token).cancelled then s.runCallback callback
  else
    { s with
      tokens := Function.update s.tokens token
        { s.tokens token with callbacks := (s.tokens token).callbacks ++ [callback] } }

def unregister (token : Nat) (callback : Callback) : Ctx :=
  { s with
    tokens := Function.update s.tokens token
      { s.tokens token with callbacks := (s.tokens token).callbacks.erase callback } }

def pollCommand (id : PendingCommandId) (w : Waker) : Ctx :=
  { s with channels := Function.update s.channels id ((s.channels id).poll w) }

/-- An operation that listens to a token. Its future is polled once. -/
def start (k : SeqKind) (c : Nat → WorkflowCommand) (token : Nat) (id : Nat → CancellableSeqNum)
    (future : Nat → PendingCommandId) : Ctx :=
  let seq := s.nextSeq k
  ((s.issue k c).register token (.op (id seq))).pollCommand (future seq) s.constructionWaker

def timer (token duration : Nat) : Ctx :=
  s.start .timer (.startTimer · duration) token .timer .timer

def executeActivity (token : Nat) : Ctx :=
  s.start .activity .scheduleActivity token .activity .activity

def startChildWorkflow (token : Nat) : Ctx :=
  s.start .childWorkflow .startChildWorkflowExecution token .childWorkflow .childWorkflowStart

def signalWorkflow (token : Nat) : Ctx :=
  s.start .signalExternalWf .signalExternalWorkflowExecution token .signalExternalWorkflow .signalExternal

def startNexusOperation (token : Nat) : Ctx :=
  s.start .nexusOp .scheduleNexusOperation token .nexusOp .nexusOpStart

def cancelExternalWorkflow : Ctx :=
  let seq := s.nextSeq .cancelExternalWf
  (s.issue .cancelExternalWf .requestCancelExternalWorkflowExecution).pollCommand (.cancelExternal seq)
    s.constructionWaker

def localActivityNoTimerRetry (n : Nat) (attempt originalScheduleTime : Option Nat) : Ctx :=
  s.issue .activity (.scheduleLocalActivity · n attempt originalScheduleTime)

/-- The result is there, and the future does not listen any more. -/
def finishLa (n : Nat) (la : LATimerBackoffFut) : Ctx :=
  (s.setLa n { la with terminated := true }).unregister la.cancellationToken (.localActivity n)

/-- When the timer has fired, the next attempt is scheduled. -/
def pollTimerFut (n : Nat) (la : LATimerBackoffFut) (seq : Nat) (w : Waker) : Ctx × Option ActivityResolution :=
  match (s.channels (.timer seq)).value with
  | none => (s.pollCommand (.timer seq) w, none)
  | some .fired =>
    let s := s.unregister la.cancellationToken (.op (.timer seq))
    ((s.localActivityNoTimerRetry n (some la.nextAttempt) la.nextSchedTime).setLa n
      { la with timerFut := none, currentFut := s.nextSeq .activity }, none)
  | some .cancelled =>
    let s := s.unregister la.cancellationToken (.op (.timer seq))
    (s.finishLa n { la with timerFut := none }, some .cancelled)

/-- An attempt that backs off starts a timer. -/
def pollCurrentFut (n : Nat) (la : LATimerBackoffFut) (w : Waker) : Ctx × Option ActivityResolution :=
  match (s.channels (.activity la.currentFut)).value with
  | none => (s.pollCommand (.activity la.currentFut) w, none)
  | some (.backoff b) =>
    if la.didCancel then (s.finishLa n la, some .cancelled)
    else
      ((s.timer la.cancellationToken b.backoffDuration).setLa n
        { la with timerFut := some (s.nextSeq .timer), nextAttempt := b.attempt,
                  nextSchedTime := b.originalScheduleTime }, none)
  | some r => (s.finishLa n la, some r)

def pollLa (n : Nat) (la : LATimerBackoffFut) (w : Waker) : Ctx × Option ActivityResolution :=
  match la.timerFut with
  | some seq => s.pollTimerFut n la seq w
  | none => s.pollCurrentFut n la w

/-- The first attempt is scheduled, and the future listens and is polled. -/
def executeLocalActivity (token : Nat) : Ctx :=
  let n := s.nextLa
  let seq := s.nextSeq .activity
  let t := { s.localActivityNoTimerRetry n none none with nextLa := n + 1 }.setLa n (.new seq token)
  (t.register token (.localActivity n)).pollCommand (.activity seq) s.constructionWaker

end Ctx

/-! ## What workflow code does -/

/-- What workflow code does. Local activities are known by number. -/
inductive Action
  | timer (token duration : Nat)
  | executeActivity (token : Nat)
  | executeLocalActivity (token : Nat)
  | startChildWorkflow (token : Nat)
  | signalWorkflow (token : Nat)
  | startNexusOperation (token : Nat)
  | cancelExternalWorkflow
  | newToken
  | childToken (token : Nat)
  | cancelToken (token : Nat)
  | cancel (id : CancellableSeqNum)
  | cancelLa (n : Nat)
  | poll (id : PendingCommandId) (w : Waker)
  | pollLa (n : Nat) (w : Waker)
  | stateMut
  deriving DecidableEq

namespace Ctx

/-- A future that is ready does not listen any more. It has one token, so its callback can be taken out of all. -/
def pollOp (s : Ctx) (id : PendingCommandId) (w : Waker) : Ctx :=
  match (s.channels id).value, id.callback with
  | some _, some callback =>
    { s with tokens := fun t => { s.tokens t with callbacks := (s.tokens t).callbacks.erase callback } }
  | some _, none => s
  | none, _ => s.pollCommand id w

def childToken (s : Ctx) (token : Nat) : Ctx :=
  let child := s.nextToken
  { s with nextToken := child + 1 }.register token (.child child)

def startWith (s : Ctx) (token : Nat) (f : Ctx → Nat → Ctx) : Option Ctx :=
  if token < s.nextToken then some (f s token) else none

/-- The local activity has no result yet. -/
def withLa (s : Ctx) (n : Nat) (f : LATimerBackoffFut → Ctx) : Option Ctx :=
  match s.las n with
  | some la => if la.terminated then none else some (f la)
  | none => none

def ownedByLa (s : Ctx) (id : PendingCommandId) : Bool :=
  (List.range s.nextLa).any fun n => (s.las n).any (·.owns id)

/-- Workflow code has the futures of commands that are not inside of local activities. -/
def hasFuture (s : Ctx) (id : PendingCommandId) : Bool := 0 < id.seq && id.seq < s.nextSeq id.kind && !s.ownedByLa id

def act (s : Ctx) : Action → Option Ctx
  | .timer token duration => s.startWith token (·.timer · duration)
  | .executeActivity token => s.startWith token executeActivity
  | .executeLocalActivity token => s.startWith token executeLocalActivity
  | .startChildWorkflow token => s.startWith token startChildWorkflow
  | .signalWorkflow token => s.startWith token signalWorkflow
  | .startNexusOperation token => s.startWith token startNexusOperation
  | .cancelExternalWorkflow => some s.cancelExternalWorkflow
  | .newToken => some { s with nextToken := s.nextToken + 1 }
  | .childToken token => s.startWith token childToken
  | .cancelToken token => s.startWith token cancelToken
  | .cancel id => if id.future.any s.hasFuture then some (s.cancel id) else none
  | .cancelLa n => s.withLa n fun _ => s.cancelLa n
  | .poll id w => if s.hasFuture id then some (s.pollOp id w) else none
  | .pollLa n w => s.withLa n fun la => (s.pollLa n la w).1
  | .stateMut => some { s with stateMutated := true }

section Parts

variable {s : Ctx} {k : SeqKind} {c : Nat → WorkflowCommand} {id : PendingCommandId} {event : UnblockEvent}

theorem mem_ids {seq : Nat} : id ∈ k.ids seq ↔ id.kind = k ∧ id.seq = seq := by
  cases k <;> cases id <;> simp [SeqKind.ids, PendingCommandId.kind, PendingCommandId.seq, eq_comm]

theorem lt_of_mem_ids {seq : Nat} (h : id ∈ k.ids seq) (hlt : id.seq < s.nextSeq id.kind) : seq < s.nextSeq k := by
  obtain ⟨hk, hseq⟩ := mem_ids.mp h
  rwa [hk, hseq] at hlt

theorem issue_nextSeq (k' : SeqKind) :
    (s.issue k c).nextSeq k' = if k' = k then s.nextSeq k + 1 else s.nextSeq k' := by
  have h : (s.issue k c).nextSeq = Function.update s.nextSeq k (s.nextSeq k + 1) := by cases k <;> rfl
  rw [h, Function.update_apply]

theorem le_issue_nextSeq (k' : SeqKind) : s.nextSeq k' ≤ (s.issue k c).nextSeq k' := by
  rw [issue_nextSeq]
  split
  · next h => exact h ▸ Nat.le_succ _
  · exact Nat.le_refl _

theorem mem_issue_pendingUnblocks :
    id ∈ (s.issue k c).pendingUnblocks ↔ id ∈ s.pendingUnblocks ∨ id ∈ k.ids (s.nextSeq k) := by
  cases k <;> simp [issue, pushCommand, registerUnblocker, SeqKind.ids] <;> tauto

theorem issue_channels_of_mem (h : id ∈ k.ids (s.nextSeq k)) : (s.issue k c).channels id = .channel := by
  cases k <;> simp only [SeqKind.ids, List.mem_cons, List.not_mem_nil, or_false] at h <;>
    rcases h with rfl | rfl <;> simp [issue, pushCommand, registerUnblocker, SeqKind.ids]

theorem issue_channels_of_not_mem (h : id ∉ k.ids (s.nextSeq k)) : (s.issue k c).channels id = s.channels id := by
  cases k <;> simp only [SeqKind.ids, List.mem_cons, List.not_mem_nil, or_false, not_or] at h <;>
    simp [issue, pushCommand, registerUnblocker, SeqKind.ids, h]

@[simp]
theorem issue_commands : (s.issue k c).commands = s.commands ++ [c (s.nextSeq k)] := by cases k <;> rfl

@[simp]
theorem issue_log : (s.issue k c).log = .command (c (s.nextSeq k)) :: s.log := by cases k <;> rfl

@[simp]
theorem issue_las : (s.issue k c).las = s.las := by cases k <;> rfl

@[simp]
theorem issue_tokens : (s.issue k c).tokens = s.tokens := by cases k <;> rfl

end Parts

end Ctx

end SdkCore.WorkflowContext
