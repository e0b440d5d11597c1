import SdkCore.Machines.ActivityHistory
import SdkCore.Machines.ChildHistory
import SdkCore.Machines.LocalActivityHistory
import SdkCore.Machines.NexusHistory
import SdkCore.Machines.SignalExternal
import SdkCore.Machines.Timer

/-!
# Cancellations by lang

Lang may not know what has happened to the machine that it cancels. `cancel_accepted_iff` says when the first
cancellation is accepted, after any inputs that the machine has accepted.
-/

namespace SdkCore

open ChildWorkflowMachine LocalActivityMachine

/-! ## Activities -/

namespace ActivityMachine

def isCancel : ActivityMachineEvents → Bool
  | .cancel | .abandon => true
  | _ => false

/-- The states without a cancellation. -/
def isUncancelled : ActivityMachineState → Bool
  | .scheduleCommandCreated | .scheduledEventRecorded | .started | .completed | .failed | .timedOut => true
  | _ => false

variable {m t : ActivityMachine} {event : ActivityMachineEvents} {o : List ActivityResponse}

theorem handle_ok (h : handle m event = .ok (o, t)) :
    ∃ commands, onEvent m.sharedState m.state event = .ok (commands, t.state, t.sharedState) := by
  obtain ⟨⟨commands, st, dat⟩, hon, h⟩ := bind_eq_ok.mp h
  obtain ⟨responses, -, h⟩ := bind_eq_ok.mp h
  cases h
  exact ⟨commands, hon⟩

theorem onActivityTaskScheduled_ok {dat dat' : ActivitySharedState} {data : ActTaskScheduledData}
    {commands : List ActivityMachineCommand} {st : ActivityMachineState}
    (h : onActivityTaskScheduled dat data = .ok (commands, st, dat')) : st = .scheduledEventRecorded := by
  obtain ⟨-, h⟩ := ite_error_eq_ok.mp h
  obtain ⟨-, ⟨⟩⟩ := ite_error_eq_ok.mp h
  rfl

/-- Other events lead to no cancelled state. -/
theorem handle_uncancelled (hm : isUncancelled m.state = true) (he : isCancel event = false)
    (h : handle m event = .ok (o, t)) : isUncancelled t.state = true := by
  obtain ⟨commands, h⟩ := handle_ok h
  obtain ⟨st, dat⟩ := m
  obtain ⟨st', dat'⟩ := t
  cases st with
  | scheduleCommandCreated =>
    cases event with
    | activityTaskScheduled data =>
      rw [onActivityTaskScheduled_ok h]
      rfl
    | cancel | abandon => cases he
    | _ => cases h <;> rfl
  | scheduledEventRecorded | started | completed | failed | timedOut =>
    cases event with
    | cancel | abandon => cases he
    | _ => cases h <;> rfl
  | _ => cases hm

theorem cancel_uncancelled (h : isUncancelled m.state = true) : ∃ r, cancel m = .ok r := by
  obtain ⟨st, dat⟩ := m
  have hfollows {phase phase' : Phase} (hf : Follows dat.attrs phase ⟨st, dat⟩ [])
      (hn : phase.next dat.attrs .cancel = some phase') : ∃ r, cancel ⟨st, dat⟩ = .ok r := by
    obtain ⟨responses, m', hc, -⟩ := cancel_follows hf hn
    exact ⟨_, hc⟩
  cases st with
  | scheduleCommandCreated => exact hfollows ⟨rfl, .scheduled⟩ rfl
  | scheduledEventRecorded => exact hfollows ⟨rfl, .recorded⟩ rfl
  | started => exact hfollows ⟨rfl, .started⟩ rfl
  | completed | failed | timedOut => exact ⟨_, rfl⟩
  | _ => cases h

theorem cancel_accepted {attrs : ScheduleActivity} {checks : Bool → Bool} {history : List ActivityMachineEvents}
    {out : List ActivityResponse} (hc : ∀ event ∈ history, isCancel event = false)
    (h : feed handle (newScheduled attrs checks) history = .ok (out, m)) : ∃ r, cancel m = .ok r :=
  cancel_uncancelled (feed_induction (R := fun _ m => isUncancelled m.state = true)
    (fun _ _ _ _ _ hm he h => handle_uncancelled hm he h) history [] _ _ _ rfl hc h)

end ActivityMachine

namespace TimerMachine

def isUncancelled : TimerMachineState → Bool
  | .startCommandCreated | .startCommandRecorded | .fired => true
  | _ => false

variable {m t : TimerMachine} {event : TimerMachineEvents} {o : List TimerResponse}

theorem handle_ok (h : handle m event = .ok (o, t)) :
    ∃ commands, onEvent m.sharedState m.state event = .ok (commands, t.state, t.sharedState) := by
  obtain ⟨⟨commands, st, dat⟩, hon, h⟩ := bind_eq_ok.mp h
  cases h
  exact ⟨commands, hon⟩

theorem onTimerFired_ok {dat dat' : TimerSharedState} {timerId : String} {commands : List TimerMachineCommand}
    {st : TimerMachineState} (h : onTimerFired dat timerId = .ok (commands, st, dat')) : st = .fired := by
  unfold onTimerFired at h
  split at h
  · cases h
    rfl
  · cases h

theorem handle_uncancelled (hm : isUncancelled m.state = true) (he : event ≠ .cancel)
    (h : handle m event = .ok (o, t)) : isUncancelled t.state = true := by
  obtain ⟨commands, h⟩ := handle_ok h
  obtain ⟨st, dat⟩ := m
  obtain ⟨st', dat'⟩ := t
  cases st with
  | startCommandRecorded =>
    cases event with
    | timerFired timerId =>
      rw [onTimerFired_ok h]
      rfl
    | cancel => exact absurd rfl he
    | _ => cases h
  | startCommandCreated | fired =>
    cases event with
    | cancel => exact absurd rfl he
    | _ => cases h <;> rfl
  | _ => cases hm

theorem cancel_accepted {seq : Nat} {history : List TimerMachineEvents} {out : List TimerResponse}
    (hc : ∀ event ∈ history, event ≠ .cancel) (h : feed handle (newScheduled seq) history = .ok (out, m)) :
    ∃ r, cancel m = .ok r := by
  have hm := feed_induction
    (fun _ _ _ _ _ hm he h => handle_uncancelled hm he h) history [] _ _ _ rfl hc h
  obtain ⟨st, dat⟩ := m
  cases st with
  | startCommandCreated | startCommandRecorded | fired => exact ⟨_, rfl⟩
  | _ => cases hm

end TimerMachine

namespace NexusOperationMachine

theorem cancel_accepted (m : NexusOperationMachine) : ∃ r, handle m .cancel = .ok r := by
  obtain ⟨st, ss⟩ := m
  cases st with
  | scheduledEventRecorded =>
    unfold handle onEvent onIssueCancelScheduled
    cases ss.cancelSent <;> exact ⟨_, rfl⟩
  | started =>
    unfold handle onEvent onIssueCancelStarted
    cases ss.cancelSent <;> exact ⟨_, rfl⟩
  | _ => exact ⟨_, rfl⟩

end NexusOperationMachine

/-! ## Signals -/

namespace SignalExternalMachine

def isFailed : SignalExternalMachineEvents → Bool
  | .signalExternalWorkflowExecutionFailed _ => true
  | _ => false

/-- By whether the signal failed. -/
def Uncancelled (failed : Bool) (st : SignalExternalMachineState) : Prop :=
  if failed then st = .failed
  else st = .signalExternalCommandCreated ∨ st = .signalExternalCommandRecorded ∨ st = .signaled

theorem handle_uncancelled {failed : Bool} {m t : SignalExternalMachine} {event : SignalExternalMachineEvents}
    {o : List ResolveSignalExternalWorkflow} (hm : Uncancelled failed m.state) (he : event ≠ .cancel)
    (h : handle m event = .ok (o, t)) : Uncancelled (failed || isFailed event) t.state := by
  obtain ⟨⟨commands, st'⟩, hon, h⟩ := bind_eq_ok.mp h
  cases h
  obtain ⟨st, seq⟩ := m
  cases failed with
  | true =>
    obtain rfl : st = .failed := hm
    cases event with
    | cancel => exact absurd rfl he
    | _ => cases hon
  | false =>
    obtain rfl | rfl | rfl : st = .signalExternalCommandCreated ∨ st = .signalExternalCommandRecorded ∨
      st = .signaled := hm
    all_goals
      cases event with
      | cancel => exact absurd rfl he
      | _ => cases hon <;> simp [Uncancelled, isFailed]

theorem cancel_uncancelled {failed : Bool} {m : SignalExternalMachine} (hm : Uncancelled failed m.state) :
    (∃ r, cancel m = .ok r) ↔ failed = false := by
  obtain ⟨st, seq⟩ := m
  cases failed with
  | true =>
    obtain rfl : st = .failed := hm
    exact iff_of_false (fun ⟨_, h⟩ => nomatch h) nofun
  | false =>
    obtain rfl | rfl | rfl : st = .signalExternalCommandCreated ∨ st = .signalExternalCommandRecorded ∨
      st = .signaled :=
      hm
    all_goals exact iff_of_true ⟨_, rfl⟩ rfl

theorem cancel_accepted {attrs : SignalExternalWorkflowExecution} {ns : String}
    {command : SignalExternalWorkflowExecutionCommandAttributes} {history : List SignalExternalMachineEvents}
    {out : List ResolveSignalExternalWorkflow} {m₀ m : SignalExternalMachine}
    (hnew : newExternalSignal attrs ns = .ok (command, m₀)) (hc : ∀ event ∈ history, event ≠ .cancel)
    (h : feed handle m₀ history = .ok (out, m)) : (∃ r, cancel m = .ok r) ↔ history.any isFailed = false := by
  have hinit : Uncancelled false m₀.state := by
    unfold newExternalSignal at hnew
    split at hnew <;> cases hnew <;> exact .inl rfl
  refine cancel_uncancelled (feed_induction
    (R := fun before (m : SignalExternalMachine) => Uncancelled (before.any isFailed) m.state)
    (fun before _ event _ _ hm he h => ?_) history [] _ _ _ hinit hc h)
  rw [List.any_append, List.any_cons, List.any_nil, Bool.or_false]
  exact handle_uncancelled hm he h

end SignalExternalMachine

/-! ## Child workflows -/

namespace ChildWorkflowMachine

def isCancel : ChildWorkflowMachineEvents → Bool
  | .cancel _ => true
  | _ => false

/-- By the first event that ended the child. -/
def Uncancelled (first : Option ChildWorkflowMachineEvents) : ChildWorkflowMachineState → Prop
  | .startCommandCreated | .startEventRecorded | .started | .startFailed => first = none
  | .terminated => ∃ e, first = some e ∧ isTerminated e = true
  | .completed | .failed | .timedOut | .cancelled _ => ∃ e, first = some e ∧ isTerminated e = false
  | .created => False

variable {m : ChildWorkflowMachine} {event : ChildWorkflowMachineEvents}
  {t : ChildWorkflowMachine} {o : List ChildWorkflowResponse} {ss ss' : ChildWorkflowSharedState}
  {commands : List ChildWorkflowCommand} {st : ChildWorkflowMachineState} {first : Option ChildWorkflowMachineEvents}

theorem handle_ok (h : handle m event = .ok (o, t)) :
    ∃ commands, onEvent m.sharedState m.state event = .ok (commands, t.state, t.sharedState) := by
  obtain ⟨⟨commands, st, ss⟩, hon, h⟩ := bind_eq_ok.mp h
  obtain ⟨responses, -, h⟩ := bind_eq_ok.mp h
  cases h
  exact ⟨commands, hon⟩

theorem onStartChildWorkflowExecutionInitiated_ok {data : ChildWorkflowInitiatedData}
    (h : onStartChildWorkflowExecutionInitiated ss data = .ok (commands, st, ss')) : st = .startEventRecorded := by
  obtain ⟨-, h⟩ := ite_error_eq_ok.mp h
  obtain ⟨-, ⟨⟩⟩ := ite_error_eq_ok.mp h
  rfl

/-- A cancelled child stays cancelled. -/
theorem onEvent_cancelled {seen : Bool} (h : onEvent ss (.cancelled seen) event = .ok (commands, st, ss')) :
    ∃ seen', st = .cancelled seen' := by
  have hlate : onLateEnd ss seen = .ok (commands, st, ss') → ∃ seen', st = .cancelled seen' := fun h => by
    obtain ⟨-, ⟨⟩⟩ := ite_error_eq_ok.mp h
    exact ⟨_, rfl⟩
  cases event with
  | childWorkflowExecutionCompleted _ | childWorkflowExecutionFailed _ _ | childWorkflowExecutionTimedOut _
  | childWorkflowExecutionTerminated => exact hlate h
  | childWorkflowExecutionCancelled =>
    cases seen with
    | true => cases h
    | false =>
      cases h
      exact ⟨_, rfl⟩
  | cancel _ | childWorkflowExecutionStarted _ | startChildWorkflowExecutionFailed _
  | commandRequestCancelExternalWorkflowExecution =>
    cases h
    exact ⟨_, rfl⟩
  | _ => cases h

theorem handle_uncancelled (hm : Uncancelled first m.state) (he : isCancel event = false)
    (h : handle m event = .ok (o, t)) : Uncancelled (first.or (if isEnd event then some event else none)) t.state := by
  obtain ⟨commands, h⟩ := handle_ok h
  obtain ⟨st, ss⟩ := m
  obtain ⟨st', ss'⟩ := t
  cases st with
  | startCommandCreated =>
    obtain rfl : first = none := hm
    cases event with
    | startChildWorkflowExecutionInitiated data =>
      rw [onStartChildWorkflowExecutionInitiated_ok h]
      rfl
    | cancel _ => cases he
    | _ => cases h <;> rfl
  | startEventRecorded =>
    obtain rfl : first = none := hm
    cases event with
    | cancel _ => cases he
    | _ => cases h <;> rfl
  | started =>
    obtain rfl : first = none := hm
    cases event with
    | childWorkflowExecutionCompleted _ | childWorkflowExecutionFailed _ _ | childWorkflowExecutionTimedOut _
    | childWorkflowExecutionCancelled | childWorkflowExecutionTerminated =>
      cases h
      exact ⟨_, rfl, rfl⟩
    | commandRequestCancelExternalWorkflowExecution =>
      cases h
      rfl
    | cancel _ => cases he
    | _ => cases h
  | cancelled seen =>
    obtain ⟨e, rfl, hterm⟩ := hm
    obtain ⟨seen', rfl⟩ := onEvent_cancelled h
    exact ⟨e, rfl, hterm⟩
  | completed | failed | timedOut | startFailed | terminated =>
    cases event with
    | cancel _ => cases he
    | _ => cases h
  | created => cases hm

theorem cancel_uncancelled (reason : String) (hm : Uncancelled first m.state) :
    (∃ r, handle m (.cancel reason) = .ok r) ↔ first.any isTerminated = false := by
  obtain ⟨st, ss⟩ := m
  cases st with
  | terminated =>
    obtain ⟨e, rfl, hterm⟩ := hm
    refine iff_of_false (fun ⟨_, h⟩ => nomatch h) ?_
    rw [Option.any_some, hterm]
    nofun
  | completed | failed | timedOut | cancelled _ =>
    obtain ⟨e, rfl, hterm⟩ := hm
    exact iff_of_true ⟨_, rfl⟩ hterm
  | startCommandCreated | startEventRecorded | started | startFailed =>
    obtain rfl : first = none := hm
    exact iff_of_true ⟨_, rfl⟩ rfl
  | created => cases hm

theorem cancel_accepted {attribs : StartChildWorkflowExecution} {checks : Bool → Bool}
    {history : List ChildWorkflowMachineEvents} {out : List ChildWorkflowResponse} (reason : String)
    (hc : ∀ event ∈ history, isCancel event = false)
    (h : feed handle (newScheduled attribs checks) history = .ok (out, m)) :
    (∃ r, handle m (.cancel reason) = .ok r) ↔ (history.find? isEnd).any isTerminated = false := by
  have hinit : Uncancelled ([].find? isEnd) (newScheduled attribs checks).state := rfl
  refine cancel_uncancelled reason (feed_induction
    (R := fun before (m : ChildWorkflowMachine) => Uncancelled (before.find? isEnd) m.state)
    (fun before _ event _ _ hm he h => ?_) history [] _ _ _ hinit hc h)
  rw [List.find?_append, List.find?_singleton]
  exact handle_uncancelled hm he h

end ChildWorkflowMachine

/-! ## Local activities -/

namespace LocalActivityMachine

def Input.isResult : Input → Bool
  | .result _ => true
  | _ => false

def Input.isRecorded : Input → Bool
  | .recorded _ => true
  | _ => false

def Input.isCancel : Input → Bool
  | .cancel _ => true
  | _ => false

/-- By whether there was a result and whether its marker was recorded. -/
def Uncancelled (told recorded : Bool) : State → Prop
  | .requestSent | .waitingResolveFromMarkerLookAhead | .resolvedFromMarkerLookAheadWaitingMarkerEvent =>
    told = false ∧ recorded = false
  | .markerCommandCreated _ | .resultNotified _ => told = true ∧ recorded = false
  | .markerCommandRecorded => recorded = true
  | .executing | .replaying => False

variable {m t : LocalActivityMachine} {o : List Response} {ss ss' : SharedState} {d : CompleteData}
  {commands : List Command} {st : State} {told recorded : Bool}

theorem handle_ok {event : Events} (h : handle m event = .ok (o, t)) :
    ∃ commands, onEvent m.sharedState m.state event = .ok (commands, t.state, t.sharedState) := by
  obtain ⟨⟨commands, st, ss⟩, hon, h⟩ := bind_eq_ok.mp h
  cases h
  exact ⟨commands, hon⟩

theorem verified_ok (h : verified ss d = .ok (commands, st, ss')) : st = .markerCommandRecorded := by
  obtain ⟨_, -, h⟩ := bind_eq_ok.mp h
  cases h
  rfl

theorem onMarkerRecorded_ok {resultType : ResultType} (h : onMarkerRecorded ss resultType d = .ok (commands, st, ss')) :
    st = .markerCommandRecorded := by
  obtain ⟨-, h⟩ := ite_error_eq_ok.mp h
  obtain ⟨-, h⟩ := ite_error_eq_ok.mp h
  exact verified_ok h

theorem take_uncancelled {input : Input} (hm : Uncancelled told recorded m.state) (hi : input.isCancel = false)
    (h : take m input = .ok (o, t)) : Uncancelled (told || input.isResult) (recorded || input.isRecorded) t.state := by
  obtain ⟨st, ss⟩ := m
  obtain ⟨st', ss'⟩ := t
  cases input with
  | result outcome =>
    cases st with
    | requestSent | markerCommandCreated _ | resultNotified _ =>
      obtain ⟨rfl, rfl⟩ := hm
      cases h
      exact ⟨rfl, rfl⟩
    | markerCommandRecorded =>
      obtain rfl : recorded = true := hm
      cases h
      rfl
    | waitingResolveFromMarkerLookAhead | resolvedFromMarkerLookAheadWaitingMarkerEvent => cases h
    | executing | replaying => cases hm
  | marker d =>
    cases st with
    | waitingResolveFromMarkerLookAhead =>
      obtain ⟨rfl, rfl⟩ := hm
      cases h
      exact ⟨rfl, rfl⟩
    | executing | replaying => cases hm
    | _ => cases h
  | nonReplayWft =>
    show Uncancelled (told || false) (recorded || false) st'
    rw [Bool.or_false, Bool.or_false]
    by_cases hst : st = .waitingResolveFromMarkerLookAhead
    · subst hst
      cases h
      exact hm
    · simp only [take, encounteredNonReplayWft, if_neg hst] at h
      cases h
      exact hm
  | prepare =>
    cases st with
    | markerCommandCreated _ =>
      obtain ⟨rfl, rfl⟩ := hm
      cases h
      exact ⟨rfl, rfl⟩
    | executing | replaying => cases hm
    | _ => cases h
  | recorded d =>
    rw [Input.isRecorded, Bool.or_true]
    obtain ⟨commands, h⟩ := handle_ok h
    cases st with
    | resultNotified _ =>
      rw [onMarkerRecorded_ok h]
      rfl
    | resolvedFromMarkerLookAheadWaitingMarkerEvent =>
      rw [verified_ok h]
      rfl
    | executing | replaying => cases hm
    | _ => cases h
  | cancel i => cases hi

theorem cancel_uncancelled (hm : Uncancelled told recorded m.state) (i : Nat) :
    (∃ r, cancel m i = .ok r) ↔ (told = true → recorded = true) := by
  obtain ⟨st, ss⟩ := m
  cases st with
  | requestSent =>
    obtain ⟨rfl, rfl⟩ := hm
    refine iff_of_true ?_ nofun
    unfold cancel
    cases ss.attrs.cancellationType <;> exact ⟨_, rfl⟩
  | waitingResolveFromMarkerLookAhead | resolvedFromMarkerLookAheadWaitingMarkerEvent =>
    obtain ⟨rfl, rfl⟩ := hm
    exact iff_of_true ⟨_, cancel_waiting ss i (by simp)⟩ nofun
  | markerCommandRecorded =>
    obtain ⟨o, hc, -⟩ := cancel_recorded ss i
    exact iff_of_true ⟨_, hc⟩ fun _ => hm
  | markerCommandCreated resultType | resultNotified resultType =>
    obtain ⟨rfl, rfl⟩ := hm
    refine iff_of_false ?_ (fun h => nomatch h rfl)
    rw [cancel_rejected ss (show _ = State.markerCommandCreated resultType ∨ _ by simp) i]
    exact fun ⟨_, h⟩ => nomatch h
  | executing | replaying => cases hm

theorem cancel_accepted {attrs : Attrs} {replaying : Bool} {wfTime : Option Nat} {checks : Bool → Bool} {now : Nat}
    {history : List Input} {out : List Response} (i : Nat) (hc : ∀ input ∈ history, input.isCancel = false)
    (h : feed take (newLocalActivity attrs replaying wfTime checks now).1 history = .ok (out, m)) :
    (∃ r, cancel m i = .ok r) ↔ (history.any (·.isResult) = true → history.any (·.isRecorded) = true) := by
  have hinit : Uncancelled false false (newLocalActivity attrs replaying wfTime checks now).1.state := by
    cases replaying <;> exact ⟨rfl, rfl⟩
  refine cancel_uncancelled (feed_induction (R := fun before (m : LocalActivityMachine) =>
      Uncancelled (before.any (·.isResult)) (before.any (·.isRecorded)) m.state)
    (fun before _ input _ _ hm hi h => ?_) history [] _ _ _ hinit hc h) i
  rw [List.any_append, List.any_append, List.any_cons, List.any_cons, List.any_nil, List.any_nil, Bool.or_false,
    Bool.or_false]
  exact take_uncancelled hm hi h

end LocalActivityMachine

/-! ## All of them -/

/-- A machine cancelled for the first time, how it was made, and the inputs accepted since. -/
inductive CancelTarget
  | activity (attrs : ScheduleActivity) (checks : Bool → Bool) (history : List ActivityMachineEvents)
      (out : List ActivityResponse) (m : ActivityMachine)
      (hc : ∀ event ∈ history, ActivityMachine.isCancel event = false)
      (h : feed ActivityMachine.handle (.newScheduled attrs checks) history = .ok (out, m))
  | localActivity (attrs : LocalActivityMachine.Attrs) (replaying : Bool) (wfTime : Option Nat) (checks : Bool → Bool)
      (now : Nat) (history : List LocalActivityMachine.Input) (out : List LocalActivityMachine.Response)
      (m : LocalActivityMachine) (i : Nat) (hc : ∀ input ∈ history, input.isCancel = false)
      (h : feed LocalActivityMachine.take (newLocalActivity attrs replaying wfTime checks now).1
        history = .ok (out, m))
  | timer (seq : Nat) (history : List TimerMachineEvents) (out : List TimerResponse) (m : TimerMachine)
      (hc : ∀ event ∈ history, event ≠ .cancel)
      (h : feed TimerMachine.handle (.newScheduled seq) history = .ok (out, m))
  | childWorkflow (attribs : StartChildWorkflowExecution) (checks : Bool → Bool)
      (history : List ChildWorkflowMachineEvents) (out : List ChildWorkflowResponse) (m : ChildWorkflowMachine)
      (reason : String) (hc : ∀ event ∈ history, ChildWorkflowMachine.isCancel event = false)
      (h : feed ChildWorkflowMachine.handle (.newScheduled attribs checks) history = .ok (out, m))
  | nexusOperation (attribs : ScheduleNexusOperation) (checks : Bool → Bool)
      (history : List NexusOperationMachineEvents) (out : List NexusOperationResponse) (m : NexusOperationMachine)
      (h : feed NexusOperationMachine.handle (.newScheduled attribs checks) history = .ok (out, m))
  | signalExternal (attrs : SignalExternalWorkflowExecution) (ns : String)
      (command : SignalExternalWorkflowExecutionCommandAttributes) (m₀ : SignalExternalMachine)
      (history : List SignalExternalMachineEvents) (out : List ResolveSignalExternalWorkflow)
      (m : SignalExternalMachine)
      (hnew : SignalExternalMachine.newExternalSignal attrs ns = .ok (command, m₀))
      (hc : ∀ event ∈ history, event ≠ .cancel) (h : feed SignalExternalMachine.handle m₀ history = .ok (out, m))

/-- The cancellation is accepted. -/
def CancelTarget.Accepts : CancelTarget → Prop
  | activity _ _ _ _ m _ _ => ∃ r, m.cancel = .ok r
  | localActivity _ _ _ _ _ _ _ m i _ _ => ∃ r, m.cancel i = .ok r
  | timer _ _ _ m _ _ => ∃ r, m.cancel = .ok r
  | childWorkflow _ _ _ _ m reason _ _ => ∃ r, m.handle (.cancel reason) = .ok r
  | nexusOperation _ _ _ _ m _ => ∃ r, m.handle .cancel = .ok r
  | signalExternal _ _ _ _ _ _ m _ _ _ => ∃ r, m.cancel = .ok r

/-- A local activity has no unrecorded result, a child was not terminated, a signal has not failed. -/
def CancelTarget.Cancellable : CancelTarget → Prop
  | localActivity _ _ _ _ _ history _ _ _ _ _ => history.any (·.isResult) = true → history.any (·.isRecorded) = true
  | childWorkflow _ _ history _ _ _ _ _ =>
    (history.find? isEnd).any isTerminated = false
  | signalExternal _ _ _ _ history _ _ _ _ _ => history.any SignalExternalMachine.isFailed = false
  | activity .. | timer .. | nexusOperation .. => True

/-- **When the first cancellation by lang is accepted.** -/
theorem cancel_accepted_iff (target : CancelTarget) : target.Accepts ↔ target.Cancellable := by
  cases target with
  | activity _ _ _ _ _ hc h => exact iff_of_true (ActivityMachine.cancel_accepted hc h) trivial
  | localActivity _ _ _ _ _ _ _ _ i hc h => exact LocalActivityMachine.cancel_accepted i hc h
  | timer _ _ _ _ hc h => exact iff_of_true (TimerMachine.cancel_accepted hc h) trivial
  | childWorkflow _ _ _ _ _ reason hc h => exact ChildWorkflowMachine.cancel_accepted reason hc h
  | nexusOperation _ _ _ _ m _ => exact iff_of_true (NexusOperationMachine.cancel_accepted m) trivial
  | signalExternal _ _ _ _ _ _ _ hnew hc h => exact SignalExternalMachine.cancel_accepted hnew hc h

def aSignal : SignalExternalWorkflowExecution :=
  { seq := 1, target := some (.childWorkflowId "child"), signalName := "signal", args := [] }

/-- Lang does not know yet that the child was terminated, the signal failed, or the local activity has its result. -/
theorem cancel_rejected_unseen :
    (feed ChildWorkflowMachine.handle (.newScheduled (aChild .tryCancel) fun _ => true)
        [initiatedEvent, startedEvent,
          .childWorkflowExecutionTerminated]).toOption.map (fun r => (r.2.handle (.cancel "")).toOption.isNone) =
      some true ∧
    (feed SignalExternalMachine.handle ⟨.signalExternalCommandCreated, 1⟩
        [.signalExternalWorkflowExecutionInitiated,
          .signalExternalWorkflowExecutionFailed .namespaceNotFound]).toOption.map
      (fun r => r.2.cancel.toOption.isNone) = some true ∧
    (feed LocalActivityMachine.take
        (newLocalActivity (aLocalActivity .tryCancel) false none
          (fun _ => true) 0).1 [.result completedResult]).toOption.map
      (fun r => (r.2.cancel 1).toOption.isNone) = some true := by
  refine ⟨?_, ?_, ?_⟩ <;> decide +kernel

theorem cancel_accepted_running :
    (∃ r, (TimerMachine.mk .startCommandRecorded { seq := 1 }).cancel = .ok r) ∧
    (∃ r, (SignalExternalMachine.mk .signalExternalCommandRecorded 1).cancel = .ok r) :=
  ⟨(cancel_accepted_iff (.timer 1 [.commandStartTimer, .timerStarted 5] _ _ (by decide) rfl)).mpr trivial,
    (cancel_accepted_iff (.signalExternal aSignal "default" _ _ [.signalExternalWorkflowExecutionInitiated] _ _ rfl
      (by decide) rfl)).mpr rfl⟩

end SdkCore
