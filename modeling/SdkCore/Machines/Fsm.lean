import SdkCore.Machines.Timer

/-!
# The machines that `fsm!` generates

A definition in the `fsm!` language is a list of transitions. The generated `on_event` takes the state out, runs the
handler of the first transition that matches and puts the next state back. Without one the old state comes back; an
error of a handler leaves none (`rejected_event_keeps_state_iff`).
-/

namespace SdkCore.Fsm

section Definition

variable (S E H : Type)

/-- `from --(event, [shared] handler) --> to;`. Merging collects destinations. -/
structure Transition where
  source : S
  event : E
  handler : Option H := none
  dests : List S
  mutatesShared : Bool := false
  deriving DecidableEq

variable {S E H} [DecidableEq S] [DecidableEq E] [DecidableEq H]

/-- The key of the merge. -/
def Transition.withoutDests (t : Transition S E H) : Transition S E H := { t with dests := [] }

/-- Merged into the line with its key, or added. -/
def mergeTransition (merged : List (Transition S E H)) (t : Transition S E H) : List (Transition S E H) :=
  if merged.any (·.withoutDests = t.withoutDests) then
    merged.map fun u => if u.withoutDests = t.withoutDests then { u with dests := u.dests ++ t.dests } else u
  else merged ++ [t]

def mergeTransitionDests (transitions : List (Transition S E H)) : List (Transition S E H) :=
  transitions.foldl mergeTransition []

/-- The arms of the match for a state. -/
def eventBranches (transitions : List (Transition S E H)) (source : S) : List (Transition S E H) :=
  mergeTransitionDests (transitions.filter (·.source = source))

variable (S E H) in
/-- What the macro accepts: no line twice, one destination each, and a handler where there are several. -/
structure StateMachineDefinition where
  transitions : List (Transition S E H)
  nodup : transitions.Nodup
  one_dest : ∀ t ∈ transitions, t.dests.length = 1
  one_default : ∀ t ∈ transitions, ∀ u ∈ eventBranches transitions t.source, u.handler = none → u.dests.length = 1

namespace StateMachineDefinition

variable (d : StateMachineDefinition S E H)

def isFinalState (state : S) : Bool := !d.transitions.any (·.source = state)

def branch? (state : S) (event : E) : Option (Transition S E H) :=
  (eventBranches d.transitions state).find? (·.event = event)

end StateMachineDefinition

end Definition

/-! ## The generated machine -/

/-- Commands and the next state, or an error. -/
inductive TransitionResult (S D C Err : Type)
  | ok (commands : List C) (newState : S × D)
  | err (e : Err)

inductive MachineError (Err : Type)
  | invalidTransition
  | underlying (e : Err)
  deriving DecidableEq

/-- The handlers, and the conversions between data of states. -/
structure Handlers (S H D P Sh C Err : Type) where
  call : H → S → D → Sh → P → TransitionResult S D C Err × Sh
  convert : S → S → D → D

/-- The state is taken out while a handler runs. -/
structure Machine (S D Sh : Type) where
  state : Option (S × D)
  sharedState : Sh
  deriving DecidableEq

section Generated

variable {S E H D P Sh C Err : Type} [DecidableEq S] [DecidableEq E] [DecidableEq H]
variable (d : StateMachineDefinition S E H) (code : Handlers S H D P Sh C Err)

/-- Only a success sets a state. -/
def transform (m : Machine S D Sh) : TransitionResult S D C Err → Except (MachineError Err) (List C) × Machine S D Sh
  | .ok commands newState => (.ok commands, { m with state := some newState })
  | .err e => (.error (.underlying e), m)

/-- A handler that is not `shared` does not get at the shared state. -/
def runBranch (t : Transition S E H) (data : D) (shared : Sh) (payload : P) : TransitionResult S D C Err × Sh :=
  match t.handler with
  | some handler =>
    let (res, shared') := code.call handler t.source data shared payload
    (res, if t.mutatesShared then shared' else shared)
  | none => (.ok [] (t.dests.headD t.source, code.convert t.source (t.dests.headD t.source) data), shared)

def onEvent (m : Machine S D Sh) (event : E) (payload : P) : Except (MachineError Err) (List C) × Machine S D Sh :=
  let takenState := m.state
  let m := { m with state := none }
  match takenState with
  | some (state, data) =>
    match d.branch? state event with
    | some t =>
      let (res, shared) := runBranch code t data m.sharedState payload
      transform { m with sharedState := shared } res
    -- Restore state in event the transition doesn't match
    | none => (.error .invalidTransition, { m with state := some (state, data) })
  | none => (.error .invalidTransition, m)

/-- `none` stands for the panic of `state()`. -/
def Machine.state? (m : Machine S D Sh) : Option (S × D) := m.state

/-- `none` stands for the panic here too. -/
def Machine.hasReachedFinalState (m : Machine S D Sh) : Option Bool := m.state.map fun s => d.isFinalState s.1

def run (m : Machine S D Sh) (events : List (E × P)) : Machine S D Sh :=
  events.foldl (fun m e => (onEvent d code m e.1 e.2).2) m

/-- No handler returns an error for the event. -/
def HandlerAccepts (state : S × D) (shared : Sh) (event : E) (payload : P) : Prop :=
  ∀ t handler e, d.branch? state.1 event = some t → t.handler = some handler →
    (code.call handler t.source state.2 shared payload).1 ≠ .err e

/-- Nor for any event of the run. -/
def RunAccepts : Machine S D Sh → List (E × P) → Prop
  | _, [] => True
  | m, e :: events =>
    (∀ state, m.state? = some state → HandlerAccepts d code state m.sharedState e.1 e.2) ∧
      RunAccepts (onEvent d code m e.1 e.2).2 events

/-! ## A rejected event -/

variable {d code} {state : S × D} {shared : Sh} {event : E} {payload : P} {err : MachineError Err} {m : Machine S D Sh}

omit [DecidableEq S] [DecidableEq E] [DecidableEq H] in
theorem runBranch_err_iff {t : Transition S E H} {data : D} {e : Err} :
    (runBranch code t data shared payload).1 = .err e ↔
      ∃ handler, t.handler = some handler ∧ (code.call handler t.source data shared payload).1 = .err e := by
  rw [runBranch]
  cases t.handler with
  | none | some => simp

/-- No transition matches and the state is kept, or a handler fails and it is lost. -/
theorem onEvent_error (h : onEvent d code ⟨some state, shared⟩ event payload = (.error err, m)) :
    (d.branch? state.1 event = none ∧ err = .invalidTransition ∧ m = ⟨some state, shared⟩) ∨
      ∃ t e, d.branch? state.1 event = some t ∧ (runBranch code t state.2 shared payload).1 = .err e ∧
        err = .underlying e ∧ m.state = none := by
  unfold onEvent at h
  cases hb : d.branch? state.1 event with
  | none =>
    simp only [hb] at h
    cases h
    exact .inl ⟨rfl, rfl, rfl⟩
  | some t =>
    simp only [hb] at h
    cases hr : (runBranch code t state.2 shared payload).1 with
    | ok commands newState => rw [hr] at h; cases h
    | err e =>
      rw [hr] at h
      cases h
      exact .inr ⟨t, e, rfl, hr, rfl, rfl⟩

theorem onEvent_of_err {t : Transition S E H} {e : Err} (hb : d.branch? state.1 event = some t)
    (hr : (runBranch code t state.2 shared payload).1 = .err e) :
    ∃ shared', onEvent d code ⟨some state, shared⟩ event payload = (.error (.underlying e), ⟨none, shared'⟩) := by
  refine ⟨(runBranch code t state.2 shared payload).2, ?_⟩
  simp only [onEvent, hb, hr, transform]

/-- **A rejected event leaves the state iff the error is not from a handler.** -/
theorem rejected_event_keeps_state_iff (d : StateMachineDefinition S E H) (code : Handlers S H D P Sh C Err)
    (state : S × D) (shared : Sh) (event : E) (payload : P) :
    (∀ err m, onEvent d code ⟨some state, shared⟩ event payload = (.error err, m) →
        m.state? = some state ∧ m.hasReachedFinalState d = some (d.isFinalState state.1)) ↔
      HandlerAccepts d code state shared event payload := by
  constructor
  · intro hkeeps t handler e hb hh he
    obtain ⟨shared', hrun⟩ := onEvent_of_err hb (runBranch_err_iff.mpr ⟨handler, hh, he⟩)
    cases (hkeeps _ _ hrun).1
  · intro haccepts err m hrun
    rcases onEvent_error hrun with ⟨-, -, rfl⟩ | ⟨t, e, hb, hr, -, -⟩
    · exact ⟨rfl, rfl⟩
    · obtain ⟨handler, hh, he⟩ := runBranch_err_iff.mp hr
      exact absurd he (haccepts t handler e hb hh)

/-- There is a state after an event iff no handler failed. -/
theorem onEvent_state_iff :
    (onEvent d code ⟨some state, shared⟩ event payload).2.state?.isSome ↔
      HandlerAccepts d code state shared event payload := by
  constructor
  · intro hsome t handler e hb hh he
    obtain ⟨shared', hrun⟩ := onEvent_of_err hb (runBranch_err_iff.mpr ⟨handler, hh, he⟩)
    rw [hrun] at hsome
    cases hsome
  · intro haccepts
    simp only [onEvent]
    cases hb : d.branch? state.1 event with
    | none => rfl
    | some t =>
      cases hr : (runBranch code t state.2 shared payload).1 with
      | ok commands newState => simp [hr, transform, Machine.state?]
      | err e =>
        obtain ⟨handler, hh, he⟩ := runBranch_err_iff.mp hr
        exact absurd he (haccepts t handler e hb hh)

/-- Without a state every event is rejected. -/
theorem run_of_stateless (d : StateMachineDefinition S E H) (code : Handlers S H D P Sh C Err) (shared : Sh)
    (events : List (E × P)) : run d code ⟨none, shared⟩ events = ⟨none, shared⟩ := by
  induction events with
  | nil => rfl
  | cons e events ih => exact ih

/-- **After a run there is a state iff no handler failed in it.** -/
theorem run_state_iff (d : StateMachineDefinition S E H) (code : Handlers S H D P Sh C Err) (state : S × D)
    (shared : Sh)
    (events : List (E × P)) :
    (run d code ⟨some state, shared⟩ events).state?.isSome ↔ RunAccepts d code ⟨some state, shared⟩ events := by
  induction events generalizing state shared with
  | nil => simp [run, RunAccepts, Machine.state?]
  | cons e events ih =>
    -- the events left run from the machine that the first one leaves
    have hrun : run d code ⟨some state, shared⟩ (e :: events) =
        run d code (onEvent d code ⟨some state, shared⟩ e.1 e.2).2 events := rfl
    rw [hrun, RunAccepts]
    generalize hm : (onEvent d code ⟨some state, shared⟩ e.1 e.2).2 = m
    have hiff : m.state?.isSome ↔ HandlerAccepts d code state shared e.1 e.2 := hm ▸ onEvent_state_iff
    obtain ⟨_ | state', shared'⟩ := m
    · rw [run_of_stateless]
      exact iff_of_false nofun fun h => nomatch hiff.mpr (h.1 state rfl)
    · rw [ih state' shared']
      exact ⟨fun h => ⟨fun _ hs => Option.some.inj hs ▸ hiff.mp rfl, h⟩, fun h => h.2⟩

end Generated

/-! ## The timer's definition -/

inductive TimerEvent
  | schedule
  | commandStartTimer
  | timerStarted
  | cancel
  | timerFired
  | commandCancelTimer
  | timerCanceled
  deriving DecidableEq

/-- Two states have an `on_cancel` each. -/
inductive TimerHandler
  | onSchedule
  | onTimerStarted
  | onCancel
  | onTimerFired
  | onCommandCancelTimer
  deriving DecidableEq

def timerTransitions : List (Transition TimerMachineState TimerEvent TimerHandler) := [
  ⟨.created, .schedule, some .onSchedule, [.startCommandCreated], false⟩,
  ⟨.startCommandCreated, .commandStartTimer, none, [.startCommandCreated], false⟩,
  ⟨.startCommandCreated, .timerStarted, some .onTimerStarted, [.startCommandRecorded], false⟩,
  ⟨.startCommandCreated, .cancel, some .onCancel, [.canceled], true⟩,
  ⟨.startCommandRecorded, .timerFired, some .onTimerFired, [.fired], true⟩,
  ⟨.startCommandRecorded, .cancel, some .onCancel, [.cancelTimerCommandCreated], true⟩,
  ⟨.cancelTimerCommandCreated, .cancel, none, [.cancelTimerCommandCreated], false⟩,
  ⟨.cancelTimerCommandCreated, .commandCancelTimer, some .onCommandCancelTimer, [.cancelTimerCommandSent], false⟩,
  ⟨.cancelTimerCommandSent, .timerCanceled, none, [.canceled], false⟩,
  ⟨.canceled, .cancel, none, [.canceled], false⟩,
  ⟨.fired, .cancel, none, [.fired], false⟩]

def timerDefinition : StateMachineDefinition TimerMachineState TimerEvent TimerHandler where
  transitions := timerTransitions
  nodup := by decide
  one_dest := by decide
  one_default := by decide

def timerEvent : TimerMachineEvents → TimerEvent
  | .schedule => .schedule
  | .commandStartTimer => .commandStartTimer
  | .timerStarted _ => .timerStarted
  | .cancel => .cancel
  | .timerFired _ => .timerFired
  | .commandCancelTimer => .commandCancelTimer
  | .timerCanceled => .timerCanceled

/-- A transition of the table as the result of a handler. -/
def ofTransition (dat : TimerSharedState) :
    TimerMachine.Transition → TransitionResult TimerMachineState Unit TimerMachineCommand TransitionError ×
      TimerSharedState
  | .ok (commands, state, dat') => (.ok commands (state, ()), dat')
  | .error e => (.err e, dat)

/-- The timer's handlers. The states of a timer carry no data. -/
def timerCode : Handlers TimerMachineState TimerHandler Unit TimerMachineEvents TimerSharedState TimerMachineCommand
    TransitionError where
  call handler state _ dat payload :=
    match handler, state, payload with
    | .onSchedule, _, _ => (.ok [] (.startCommandCreated, ()), dat)
    | .onTimerStarted, _, _ => (.ok [] (.startCommandRecorded, ()), dat)
    | .onCancel, .startCommandCreated, _ => (.ok [] (.canceled, ()), { dat with cancelledBeforeSent := true })
    | .onCancel, _, _ => (.ok [.issueCancelCmd dat.seq] (.cancelTimerCommandCreated, ()), dat)
    | .onTimerFired, _, .timerFired timerId => ofTransition dat (TimerMachine.onTimerFired dat timerId)
    | .onTimerFired, _, _ => (.err .invalidTransition, dat)
    | .onCommandCancelTimer, _, _ => (.ok [] (.cancelTimerCommandSent, ()), dat)
  convert _ _ data := data

def ofTimer (m : TimerMachine) : Machine TimerMachineState Unit TimerSharedState := ⟨some (m.state, ()), m.sharedState⟩

/-- The table: an invalid transition keeps the state, other errors lose it. -/
def timerOutcome (m : TimerMachine) : TimerMachine.Transition →
    Except (MachineError TransitionError) (List TimerMachineCommand) × Machine TimerMachineState Unit TimerSharedState
  | .ok (commands, state, dat) => (.ok commands, ofTimer ⟨state, dat⟩)
  | .error .invalidTransition => (.error .invalidTransition, ofTimer m)
  | .error e => (.error (.underlying e), ⟨none, m.sharedState⟩)

theorem onEvent_timerFired (dat : TimerSharedState) (timerId : String) :
    onEvent timerDefinition timerCode (ofTimer ⟨.startCommandRecorded, dat⟩) .timerFired (.timerFired timerId) =
      timerOutcome ⟨.startCommandRecorded, dat⟩ (TimerMachine.onTimerFired dat timerId) := by
  have hcall : onEvent timerDefinition timerCode (ofTimer ⟨.startCommandRecorded, dat⟩) .timerFired
      (.timerFired timerId) =
      transform ⟨none, (ofTransition dat (TimerMachine.onTimerFired dat timerId)).2⟩
        (ofTransition dat (TimerMachine.onTimerFired dat timerId)).1 := rfl
  rw [hcall]
  by_cases hid : toString dat.seq = timerId
  · rw [TimerMachine.onTimerFired, if_pos hid]
    rfl
  · rw [TimerMachine.onTimerFired, if_neg hid]
    rfl

/-- **The machine generated from the timer's definition goes through the timer's table.** -/
theorem onEvent_timer (m : TimerMachine) (event : TimerMachineEvents) :
    onEvent timerDefinition timerCode (ofTimer m) (timerEvent event) event =
      timerOutcome m (TimerMachine.onEvent m.sharedState m.state event) := by
  obtain ⟨state, dat⟩ := m
  cases event with
  | timerFired timerId =>
    cases state with
    | startCommandRecorded => exact onEvent_timerFired dat timerId
    | _ => rfl
  | _ => cases state <;> rfl

/-- Timer 1 hears that timer 2 fired. -/
theorem timer_fired_for_another_loses_state :
    ∃ message m, onEvent timerDefinition timerCode (ofTimer ⟨.startCommandRecorded, { seq := 1 }⟩) .timerFired
        (.timerFired "2") = (.error (.underlying (.nondeterminism message)), m) ∧
      m.state? = none ∧ m.hasReachedFinalState timerDefinition = none := by
  refine ⟨"Timer fired event did not have expected timer id 1, it was 2!", ⟨none, { seq := 1 }⟩, ?_, rfl, rfl⟩
  decide +kernel

end SdkCore.Fsm
