import SdkCore.Lib.Feed
import SdkCore.Machines.Activity

/-!
# What lang hears of an activity

An activity is scheduled, possibly started, and ends once. Lang may cancel once, anywhere. `activity_resolved_once_iff`
says for which histories lang gets one job and no input is rejected.
-/

namespace SdkCore.ActivityMachine

open ActivitySharedState

/-! ## Histories -/

inductive Input
  | cancel
  /-- A command is about to be sent, or an event was recorded. -/
  | event (event : ActivityMachineEvents)

def take (m : ActivityMachine) : Input → Except TransitionError (List ActivityResponse × ActivityMachine)
  | .cancel => cancel m
  | .event event => handle m event

/-- How far the history has come. -/
inductive Phase
  | scheduled
  | withdrawn
  | recorded (started : Bool)
  /-- Lang cancelled, and the command for that is not recorded yet. -/
  | cancelSent (started : Bool)
  | cancelRecorded (started : Bool)
  /-- Lang cancelled, and the server is not told. -/
  | abandoned (started : Bool)
  | ended (cancelled : Bool)
  deriving DecidableEq

def Phase.isOver : Phase → Bool
  | .withdrawn | .ended _ => true
  | _ => false

/-- Events that can end it, by whether it has started and was cancelled. -/
def isEnd (started cancelled : Bool) : ActivityMachineEvents → Bool
  | .activityTaskCompleted _ | .activityTaskFailed _ => started
  | .activityTaskTimedOut _ => true
  | .activityTaskCanceled _ => cancelled
  | _ => false

def isCompleted : ActivityMachineEvents → Bool
  | .activityTaskCompleted _ => true
  | _ => false

def isMalformed : ActivityMachineEvents → Bool
  | .activityTaskCompleted (some payloads) => payloads.length ≠ 1
  | _ => false

/-- What the server and lang can send next. -/
def Phase.next (attrs : ScheduleActivity) : Phase → Input → Option Phase
  | .scheduled, .event .commandScheduleActivityTask => some .scheduled
  | .scheduled, .event (.activityTaskScheduled data) =>
    if data.actId = attrs.activityId && data.actType = attrs.activityType then some (.recorded false) else none
  | .scheduled, .cancel => some .withdrawn
  | .recorded started, .cancel =>
    some (if attrs.cancellationType = .abandon then .abandoned started else .cancelSent started)
  | .recorded false, .event (.activityTaskStarted _) => some (.recorded true)
  | .recorded started, .event event => if isEnd started false event then some (.ended false) else none
  | .cancelSent started, .event .commandRequestCancelActivityTask => some (.cancelSent started)
  | .cancelSent started, .event .activityTaskCancelRequested => some (.cancelRecorded started)
  | .cancelRecorded false, .event (.activityTaskStarted _) => some (.cancelRecorded true)
  | .cancelRecorded started, .event event => if isEnd started true event then some (.ended true) else none
  | .abandoned false, .event (.activityTaskStarted _) => some (.abandoned true)
  | .abandoned started, .event event => if isEnd started true event then some (.ended true) else none
  | .ended false, .cancel => some (.ended true)
  | _, _ => none

/-- Inputs that the machine is not up to. -/
def Phase.wrong (attrs : ScheduleActivity) : Phase → Input → Bool
  | .recorded true, .event event => isMalformed event
  | .cancelRecorded true, .event event => attrs.cancellationType = .waitCancellationCompleted && isMalformed event
  | .abandoned started, .event event => isEnd started true event && !isCompleted event
  | _, _ => false

/-! ## The machine along a history -/

def jobs (responses : List ActivityResponse) : List ResolveActivity := responses.filterMap (·.job?)

@[simp] theorem jobs_append (a b : List ActivityResponse) : jobs (a ++ b) = jobs a ++ jobs b :=
  List.filterMap_append

/-- Lang was told when the cancellation was requested. -/
def toldOnRequest (t : ActivityCancellationType) : Nat := if t = .waitCancellationCompleted then 0 else 1

/-- The state of the machine and the number of jobs, in each phase. -/
inductive Tracks (t : ActivityCancellationType) : Phase → ActivityMachineState → Nat → Prop
  | scheduled : Tracks t .scheduled .scheduleCommandCreated 0
  | withdrawn : Tracks t .withdrawn .canceled 1
  | recorded : Tracks t (.recorded false) .scheduledEventRecorded 0
  | started : Tracks t (.recorded true) .started 0
  | cancelSent (ht : t ≠ .abandon) :
    Tracks t (.cancelSent false) .scheduledActivityCancelCommandCreated (toldOnRequest t)
  | cancelSentStarted (ht : t ≠ .abandon) :
    Tracks t (.cancelSent true) .startedActivityCancelCommandCreated (toldOnRequest t)
  | cancelRecorded (ht : t ≠ .abandon) :
    Tracks t (.cancelRecorded false) .scheduledActivityCancelEventRecorded (toldOnRequest t)
  | cancelRecordedStarted (ht : t ≠ .abandon) :
    Tracks t (.cancelRecorded true) .startedActivityCancelEventRecorded (toldOnRequest t)
  | abandoned (ht : t = .abandon) (started : Bool) : Tracks t (.abandoned started) .canceled 1
  | ended (cancelled : Bool) {st : ActivityMachineState} (h : isResolved st) : Tracks t (.ended cancelled) st 1

variable {phase phase' : Phase} {st : ActivityMachineState} {m : ActivityMachine} {event : ActivityMachineEvents}
  {commands : List ActivityMachineCommand} {out : List ActivityResponse}
  {t : ActivityCancellationType} {n : Nat} {dat : ActivitySharedState} {responses : List ActivityResponse}
  {result : Option (List Payload)}

theorem Tracks.le_one (h : Tracks t phase st n) : n ≤ 1 := by
  have ht : toldOnRequest t ≤ 1 := by
    unfold toldOnRequest
    split <;> omega
  cases h with
  | cancelSent | cancelSentStarted | cancelRecorded | cancelRecordedStarted => exact ht
  | _ => decide

theorem Tracks.eq_one (h : Tracks t phase st n) (ho : phase.isOver = true) : n = 1 := by
  cases h with
  | withdrawn | ended => rfl
  | _ => cases ho

/-- The machine is where the history is. -/
structure Follows (attrs : ScheduleActivity) (phase : Phase) (m : ActivityMachine) (out : List ActivityResponse) :
    Prop where
  attrs_eq : m.sharedState.attrs = attrs
  tracks : Tracks attrs.cancellationType phase m.state (jobs out).length

variable {attrs : ScheduleActivity}

theorem handle_of_onEvent (h : onEvent m.sharedState m.state event = .ok (commands, st, dat)) :
    handle m event = (adaptResponses dat commands).map fun responses => (responses, ⟨st, dat⟩) := by
  unfold handle
  rw [h]
  show (do let responses ← adaptResponses dat commands; pure (responses, _)) = _
  cases adaptResponses dat commands <;> rfl

/-- A transition keeps up with the history. -/
theorem follows_of_onEvent (h : onEvent m.sharedState m.state event = .ok (commands, st, dat))
    (hr : adaptResponses dat commands = .ok responses) (hd : dat.attrs = attrs)
    (ht : Tracks attrs.cancellationType phase st ((jobs out).length + (jobs responses).length)) :
    Advances handle (Follows attrs phase) m event out := by
  refine ⟨responses, ⟨st, dat⟩, ?_, hd, by rwa [jobs_append, List.length_append]⟩
  rw [handle_of_onEvent h, hr]
  rfl

theorem adaptResponses_complete (dat : ActivitySharedState) (h : isMalformed (.activityTaskCompleted result) = false) :
    ∃ responses, adaptResponses dat [.complete result] = .ok responses ∧ (jobs responses).length = 1 := by
  cases result with
  | none => exact ⟨_, rfl, rfl⟩
  | some payloads =>
    have hlen : payloads.length = 1 := by simpa [isMalformed] using h
    obtain ⟨payload, rfl⟩ := List.length_eq_one_iff.mp hlen
    exact ⟨_, rfl, rfl⟩

theorem adaptResponses_malformed (dat : ActivitySharedState) (h : isMalformed (.activityTaskCompleted result) = true) :
    ∃ e, adaptResponses dat [.complete result] = .error e := by
  cases result with
  | none => cases h
  | some payloads =>
    cases payloads with
    | nil => exact ⟨_, rfl⟩
    | cons payload payloads =>
      cases payloads with
      | nil => cases h
      | cons => exact ⟨_, rfl⟩

theorem adaptResponses_request (dat : ActivitySharedState) (id : Int) :
    ∃ responses, adaptResponses dat [.requestCancellation id] = .ok responses ∧
      (jobs responses).length = toldOnRequest dat.cancellationType := by
  refine ⟨_, rfl, ?_⟩
  by_cases h : dat.cancellationType = .waitCancellationCompleted
  · rw [machineResponsesFromCancelRequest, toldOnRequest, if_neg (not_not_intro h), if_pos h]
    rfl
  · rw [machineResponsesFromCancelRequest, toldOnRequest, if_pos h, if_neg h]
    rfl

theorem notifyIfNotAlreadyCancelled_follows
    (h : onEvent m.sharedState m.state event = notifyIfNotAlreadyCancelled m.sharedState commands st)
    (hm : m.sharedState.attrs = attrs) (ht : attrs.cancellationType ≠ .abandon) (hst : isResolved st)
    (hout : (jobs out).length = toldOnRequest attrs.cancellationType)
    (hr : attrs.cancellationType = .waitCancellationCompleted →
      ∃ responses, adaptResponses m.sharedState commands = .ok responses ∧ (jobs responses).length = 1) :
    Advances handle (Follows attrs (.ended true)) m event out := by
  have hd : m.sharedState.cancellationType = attrs.cancellationType := by rw [← hm]; rfl
  unfold notifyIfNotAlreadyCancelled at h
  rw [hd] at h
  cases hc : attrs.cancellationType with
  | tryCancel =>
    rw [hc] at h
    refine follows_of_onEvent h rfl hm ?_
    rw [hout, hc]
    exact .ended true hst
  | waitCancellationCompleted =>
    rw [hc] at h
    obtain ⟨responses, hr, hlen⟩ := hr hc
    refine follows_of_onEvent h hr hm ?_
    rw [hout, hlen, hc]
    exact .ended true hst
  | abandon => exact absurd hc ht

theorem cancel_eq_abandon (h : isResolved m.state = false) (hc : m.sharedState.attrs.cancellationType = .abandon) :
    cancel m = handle m .abandon := by
  rw [cancel, h, cancellationType, if_pos hc]
  rfl

theorem cancel_eq_cancel (h : isResolved m.state = false) (hc : m.sharedState.attrs.cancellationType ≠ .abandon) :
    cancel m = handle m .cancel := by
  rw [cancel, h, cancellationType, if_neg hc]
  rfl

theorem cancel_follows (h : Follows attrs phase m out) (hn : phase.next attrs .cancel = some phase') :
    Advances take (Follows attrs phase') m .cancel out := by
  obtain ⟨hm, htr⟩ := h
  obtain ⟨st, dat⟩ := m
  subst hm
  generalize hj : (jobs out).length = n at htr
  rw [Advances, take]
  cases htr with
  | scheduled =>
    cases hn
    by_cases hc : dat.attrs.cancellationType = .abandon
    · rw [cancel_eq_abandon rfl hc]
      exact follows_of_onEvent rfl rfl rfl (hj ▸ .withdrawn)
    · rw [cancel_eq_cancel rfl hc]
      have hon : onEvent dat .scheduleCommandCreated .cancel =
          .ok ([.cancel none], .canceled, { dat with cancelledBeforeSent := true }) := by
        simp [onEvent, onCanceledBeforeSent, cancellationType, hc]
      exact follows_of_onEvent hon rfl rfl (hj ▸ .withdrawn)
  | recorded | started =>
    cases hn
    by_cases hc : dat.attrs.cancellationType = .abandon
    · rw [cancel_eq_abandon rfl hc, if_pos hc]
      exact follows_of_onEvent rfl rfl rfl (hj ▸ .abandoned hc _)
    · rw [cancel_eq_cancel rfl hc, if_neg hc]
      obtain ⟨responses, hr, hlen⟩ := adaptResponses_request dat dat.scheduledEventId
      refine follows_of_onEvent rfl hr rfl ?_
      rw [hj, hlen, Nat.zero_add]
      constructor
      exact hc
  | ended cancelled hst =>
    cases cancelled with
    | false =>
      cases hn
      refine ⟨[], ⟨st, dat⟩, by rw [cancel, if_pos hst], rfl, ?_⟩
      rw [List.append_nil, hj]
      exact .ended true hst
    | true => cases hn
  | abandoned _ started => cases started <;> cases hn
  | _ => cases hn

/-- An event that does not go wrong is handled. -/
theorem handle_follows (h : Follows attrs phase m out) (hn : phase.next attrs (.event event) = some phase')
    (hw : phase.wrong attrs (.event event) = false) : Advances take (Follows attrs phase') m (.event event) out := by
  obtain ⟨hm, htr⟩ := h
  obtain ⟨st, dat⟩ := m
  subst hm
  simp only at htr
  generalize hj : (jobs out).length = n at htr
  cases htr with
  | scheduled =>
    cases event with
    | commandScheduleActivityTask =>
      cases hn
      exact follows_of_onEvent rfl rfl rfl (hj ▸ .scheduled)
    | activityTaskScheduled data =>
      simp only [Phase.next, Bool.and_eq_true, decide_eq_true_eq, Option.ite_none_right_eq_some] at hn
      obtain ⟨hd, ⟨⟩⟩ := hn
      have hon : onEvent dat .scheduleCommandCreated (.activityTaskScheduled data) =
          .ok ([], .scheduledEventRecorded, { dat with scheduledEventId := data.eventId }) := by
        simp [onEvent, onActivityTaskScheduled, hd.1, hd.2]
      exact follows_of_onEvent hon rfl rfl (hj ▸ .recorded)
    | _ => cases hn
  | recorded =>
    cases event with
    | activityTaskStarted id =>
      cases hn
      exact follows_of_onEvent rfl rfl rfl (hj ▸ .started)
    | activityTaskTimedOut timeout =>
      cases hn
      exact follows_of_onEvent rfl rfl rfl (hj ▸ .ended false rfl)
    | _ => cases hn
  | started =>
    cases event with
    | activityTaskCompleted result =>
      cases hn
      obtain ⟨responses, hr, hlen⟩ := adaptResponses_complete dat hw
      exact follows_of_onEvent rfl hr rfl (hj ▸ hlen ▸ .ended false rfl)
    | activityTaskFailed _ | activityTaskTimedOut _ =>
      cases hn
      exact follows_of_onEvent rfl rfl rfl (hj ▸ .ended false rfl)
    | _ => cases hn
  | cancelSent ht | cancelSentStarted ht =>
    cases event with
    | commandRequestCancelActivityTask | activityTaskCancelRequested =>
      cases hn
      refine follows_of_onEvent rfl rfl rfl ?_
      rw [hj]
      constructor
      exact ht
    | _ => cases hn
  | cancelRecorded ht =>
    cases event with
    | activityTaskStarted id =>
      cases hn
      exact follows_of_onEvent rfl rfl rfl (hj ▸ .cancelRecordedStarted ht)
    | activityTaskTimedOut _ | activityTaskCanceled _ =>
      cases hn
      exact notifyIfNotAlreadyCancelled_follows rfl rfl ht rfl hj fun _ => ⟨_, rfl, rfl⟩
    | _ => cases hn
  | cancelRecordedStarted ht =>
    cases event with
    | activityTaskCompleted result =>
      cases hn
      by_cases hc : dat.attrs.cancellationType = .waitCancellationCompleted
      · have hw : isMalformed (.activityTaskCompleted result) = false := by simpa [Phase.wrong, hc] using hw
        exact notifyIfNotAlreadyCancelled_follows rfl rfl ht rfl hj fun _ => adaptResponses_complete dat hw
      · exact notifyIfNotAlreadyCancelled_follows rfl rfl ht rfl hj fun h => absurd h hc
    | activityTaskFailed _ | activityTaskTimedOut _ | activityTaskCanceled _ =>
      cases hn
      exact notifyIfNotAlreadyCancelled_follows rfl rfl ht rfl hj fun _ => ⟨_, rfl, rfl⟩
    | _ => cases hn
  | abandoned ht started =>
    have hlate : ∀ message, onLateEvent dat message = .ok ([], .canceled, dat) := fun message => by
      simp [onLateEvent, goTo, cancellationType, ht]
    cases event with
    | activityTaskStarted id =>
      cases started with
      | false =>
        cases hn
        exact follows_of_onEvent (hlate _) rfl rfl (hj ▸ .abandoned ht true)
      | true => cases hn
    | activityTaskCompleted result =>
      cases started with
      | false => cases hn
      | true =>
        cases hn
        exact follows_of_onEvent (hlate _) rfl rfl (hj ▸ .ended true rfl)
    | activityTaskFailed _ =>
      cases started with
      | false => cases hn
      | true => cases hw
    | activityTaskTimedOut _ | activityTaskCanceled _ => cases hw
    | _ => cases started <;> cases hn
  | ended cancelled _ => cases cancelled <;> cases hn
  | withdrawn => cases hn

/-- An input that goes wrong is rejected, or lang hears twice. -/
theorem take_wrong {m' : ActivityMachine} {input : Input} (h : Follows attrs phase m out)
    (hn : phase.next attrs input = some phase') (hw : phase.wrong attrs input = true) :
    take m input ≠ .ok (responses, m') := by
  obtain ⟨hm, htr⟩ := h
  obtain ⟨st, dat⟩ := m
  subst hm
  generalize hj : (jobs out).length = n at htr
  cases htr with
  | started =>
    cases input with
    | cancel => cases hw
    | event event =>
      cases event with
      | activityTaskCompleted result =>
        obtain ⟨e, he⟩ := adaptResponses_malformed dat hw
        rw [take, handle_of_onEvent rfl, he]
        exact fun h => nomatch h
      | _ => cases hw
  | cancelRecordedStarted =>
    cases input with
    | cancel => cases hw
    | event event =>
      obtain ⟨hc, hw⟩ : dat.attrs.cancellationType = .waitCancellationCompleted ∧ isMalformed event = true := by
        simpa [Phase.wrong] using hw
      cases event with
      | activityTaskCompleted result =>
        have hon : onEvent dat .startedActivityCancelEventRecorded (.activityTaskCompleted result) =
            goTo dat [.complete result] .completed := by
          simp [onEvent, notifyIfNotAlreadyCancelled, cancellationType, hc]
        obtain ⟨e, he⟩ := adaptResponses_malformed dat hw
        rw [take, handle_of_onEvent hon, he]
        exact fun h => nomatch h
      | _ => cases hw
  | abandoned ht started =>
    cases input with
    | cancel => cases hw
    | event event =>
      cases event with
      | activityTaskFailed _ | activityTaskTimedOut _ | activityTaskCanceled _ => exact fun h => nomatch h
      | _ => cases started <;> cases hw
  | _ => cases input <;> cases hw

/-- **Lang is told exactly once about an activity, and no input is rejected, exactly if nothing goes wrong**: after it
was abandoned it does not fail, time out or get cancelled, and a result for lang is one payload. -/
theorem activity_resolved_once_iff (attrs : ScheduleActivity) (checks : Bool → Bool) (history : List Input)
    (phase : Phase) (h : history.foldlM (Phase.next attrs) .scheduled = some phase) :
    (∃ responses m, feed take (newScheduled attrs checks) history = .ok (responses, m) ∧
        (jobs responses).length ≤ 1 ∧ (phase.isOver = true → (jobs responses).length = 1)) ↔
      avoids (Phase.next attrs) (Phase.wrong attrs) .scheduled history = true := by
  have hinit : Follows attrs .scheduled (newScheduled attrs checks) [] := ⟨rfl, .scheduled⟩
  have hstep : ∀ k k' m out input, Follows attrs k m out → k.next attrs input = some k' →
      k.wrong attrs input = false → Advances take (Follows attrs k') m input out := by
    intro k k' m out input h hn hw
    cases input with
    | cancel => exact cancel_follows h hn
    | event event => exact handle_follows h hn hw
  constructor
  · rintro ⟨responses, m, hfeed, -⟩
    exact avoids_of_feed (fun _ _ _ => trivial) hstep
      (fun _ _ _ _ _ h hn hw _ _ hm => absurd hm (take_wrong h hn hw)) history .scheduled _ m [] responses hinit
      (follows_iff.mpr ⟨phase, h⟩) hfeed trivial
  · intro ha
    obtain ⟨responses, m, hfeed, hf⟩ := feed_of_avoids hstep history .scheduled phase _ [] hinit h ha
    exact ⟨responses, m, hfeed, hf.tracks.le_one, hf.tracks.eq_one⟩

def anActivity (cancellationType : ActivityCancellationType) : ScheduleActivity :=
  { seq := 1, activityId := "id", activityType := "type", cancellationType }

def scheduledEvent : Input :=
  .event (.activityTaskScheduled { eventId := 5, actType := "type", actId := "id", lastTaskInHistory := true })

def failedEvent : Input :=
  .event (.activityTaskFailed
    { failure := none, scheduledEventId := 5, startedEventId := 6, identity := "", retryState := .timeout })

theorem activity_abandoned_then_failed :
    [scheduledEvent, .event (.activityTaskStarted 6), .cancel, failedEvent].foldlM
        (Phase.next (anActivity .abandon)) .scheduled = some (.ended true) ∧
      ¬ ∃ responses m, feed take (newScheduled (anActivity .abandon) fun _ => true)
        [scheduledEvent, .event (.activityTaskStarted 6), .cancel, failedEvent] = .ok (responses, m) := by
  refine ⟨by decide +kernel, ?_⟩
  rintro ⟨responses, m, hfeed⟩
  have hrejected : (feed take (newScheduled (anActivity .abandon) fun _ => true)
      [scheduledEvent, .event (.activityTaskStarted 6), .cancel, failedEvent]).toOption.isNone = true := by
    decide +kernel
  rw [hfeed] at hrejected
  cases hrejected

theorem activity_resolved_once_waiting : ∃ responses m,
    feed take (newScheduled (anActivity .waitCancellationCompleted) fun _ => true)
      [scheduledEvent, .event (.activityTaskStarted 6), .cancel, .event .commandRequestCancelActivityTask,
        .event .activityTaskCancelRequested, failedEvent] = .ok (responses, m) ∧
      (jobs responses).length ≤ 1 ∧ ((Phase.ended true).isOver = true → (jobs responses).length = 1) :=
  (activity_resolved_once_iff (anActivity .waitCancellationCompleted) (fun _ => true) _ (.ended true)
    (by decide +kernel)).mpr (by decide +kernel)

end SdkCore.ActivityMachine
