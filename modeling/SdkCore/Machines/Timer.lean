import SdkCore.Machines.Failure

/-!
# The machine of a timer

`TimerMachine` follows a timer until it fires or is cancelled. Lang is not told about cancellations, which only come
from itself.
-/

namespace SdkCore

inductive TimerMachineEvents
  | schedule
  | commandStartTimer
  | timerStarted (eventId : Int)
  | cancel
  | timerFired (timerId : String)
  | commandCancelTimer
  | timerCanceled
  deriving DecidableEq

inductive TimerMachineCommand
  | complete
  | issueCancelCmd (seq : Nat)
  deriving DecidableEq

inductive TimerMachineState
  | created
  | startCommandCreated
  | startCommandRecorded
  | fired
  | cancelTimerCommandCreated
  | cancelTimerCommandSent
  | canceled
  deriving DecidableEq

structure TimerSharedState where
  seq : Nat
  cancelledBeforeSent : Bool := false
  deriving DecidableEq

inductive TimerResponse
  | fireTimer (seq : Nat)
  | cancelTimer (seq : Nat)
  deriving DecidableEq

structure TimerMachine where
  state : TimerMachineState
  sharedState : TimerSharedState
  deriving DecidableEq

namespace TimerMachine

section

variable (dat : TimerSharedState)

/-- Commands, the next state and the shared state. -/
abbrev Transition := Except TransitionError (List TimerMachineCommand × TimerMachineState × TimerSharedState)

def goTo (commands : List TimerMachineCommand) (state : TimerMachineState) : Transition := .ok (commands, state, dat)

def onTimerFired (timerId : String) : Transition :=
  if toString dat.seq = timerId then goTo dat [.complete] .fired
  else .error (.nondeterminism ("Timer fired event did not have expected timer id " ++ toString dat.seq ++
    ", it was " ++ timerId ++ "!"))

/-- The transitions of `fsm!`. -/
def onEvent : TimerMachineState → TimerMachineEvents → Transition
  | .created, .schedule => goTo dat [] .startCommandCreated
  | .startCommandCreated, .commandStartTimer => goTo dat [] .startCommandCreated
  | .startCommandCreated, .timerStarted _ => goTo dat [] .startCommandRecorded
  | .startCommandCreated, .cancel => .ok ([], .canceled, { dat with cancelledBeforeSent := true })
  | .startCommandRecorded, .timerFired timerId => onTimerFired dat timerId
  | .startCommandRecorded, .cancel => goTo dat [.issueCancelCmd dat.seq] .cancelTimerCommandCreated
  | .cancelTimerCommandCreated, .cancel => goTo dat [] .cancelTimerCommandCreated
  | .cancelTimerCommandCreated, .commandCancelTimer => goTo dat [] .cancelTimerCommandSent
  | .cancelTimerCommandSent, .timerCanceled => goTo dat [] .canceled
  | .canceled, .cancel => goTo dat [] .canceled
  | .fired, .cancel => goTo dat [] .fired
  | _, _ => .error .invalidTransition

def adaptResponse : TimerMachineCommand → TimerResponse
  | .complete => .fireTimer dat.seq
  | .issueCancelCmd seq => .cancelTimer seq

end

def handle (m : TimerMachine) (event : TimerMachineEvents) :
    Except TransitionError (List TimerResponse × TimerMachine) := do
  let (commands, state, dat) ← onEvent m.sharedState m.state event
  return (commands.map (adaptResponse dat), { state, sharedState := dat })

/-- At most one command is made, which cancels the timer. -/
def cancel (m : TimerMachine) : Except TransitionError (List TimerResponse × TimerMachine) := handle m .cancel

/-- After the event `schedule`, which does not fail. -/
def newScheduled (seq : Nat) : TimerMachine := ⟨.startCommandCreated, { seq }⟩

end TimerMachine

end SdkCore
