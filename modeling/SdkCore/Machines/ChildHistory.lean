import SdkCore.Lib.Feed
import SdkCore.Machines.ChildWorkflow

/-!
# What lang hears of a child workflow

A child is initiated, then started or not, and ends at most once, with cancellations by lang anywhere.
`child_resolved_in_order_iff` says for which histories lang gets its jobs in order and no input is rejected.
-/

namespace SdkCore.ChildWorkflowMachine

/-! ## Histories -/

/-- How far the history has come. -/
inductive Phase
  | scheduled
  | withdrawn
  | initiated
  | started
  /-- Cancelled while it ran, with a type that gives lang the result at once. -/
  | abandoned
  | startFailed
  | ended (terminated : Bool)
  deriving DecidableEq

def isEnd : ChildWorkflowMachineEvents → Bool
  | .childWorkflowExecutionCompleted _ | .childWorkflowExecutionFailed _ _ | .childWorkflowExecutionTimedOut _ => true
  | .childWorkflowExecutionCancelled | .childWorkflowExecutionTerminated => true
  | _ => false

def isTerminated : ChildWorkflowMachineEvents → Bool
  | .childWorkflowExecutionTerminated => true
  | _ => false

/-- What may follow. Events for the request that cancels the child go to another machine. -/
def Phase.next (attribs : StartChildWorkflowExecution) : Phase → ChildWorkflowMachineEvents → Option Phase
  | .scheduled, .commandStartChildWorkflowExecution => some .scheduled
  | .scheduled, .startChildWorkflowExecutionInitiated data =>
    if data.wfId = attribs.workflowId && data.wfType = attribs.workflowType then some .initiated else none
  | .scheduled, .cancel _ => some .withdrawn
  | .initiated, .childWorkflowExecutionStarted _ => some .started
  | .initiated, .startChildWorkflowExecutionFailed _ => some .startFailed
  | .started, .cancel _ => some (if resolvesImmediatelyOnCancel attribs.cancellationType then .abandoned else .started)
  | .started, event => if isEnd event then some (.ended (isTerminated event)) else none
  | .abandoned, .cancel _ => some .abandoned
  | .abandoned, event => if isEnd event then some (.ended false) else none
  | phase, .cancel _ => some phase
  | _, _ => none

/-- Inputs that the machine is not up to. -/
def Phase.wrong (attribs : StartChildWorkflowExecution) : Phase → ChildWorkflowMachineEvents → Bool
  | .initiated, .cancel _ => resolvesImmediatelyOnCancel attribs.cancellationType
  | .started, .childWorkflowExecutionCompleted (some payloads) => payloads.length ≠ 1
  | .ended true, .cancel _ => true
  | _, _ => false

/-- Lang hears of the start once, and of the result once, after a successful start. -/
structure InOrder (jobs : List ChildWorkflowJob) : Prop where
  start_once : jobs.countP (·.isStart) ≤ 1
  result_once : jobs.countP (·.isResult) ≤ 1
  result_after_start : ∀ before job after, jobs = before ++ job :: after → job.isResult →
    ∃ first ∈ before, first.isStartSuccess

theorem InOrder.of_append {a b : List ChildWorkflowJob} (h : InOrder (a ++ b)) : InOrder a := by
  have hab : ∀ p, a.countP p ≤ (a ++ b).countP p := fun _ => (List.sublist_append_left a b).countP_le
  refine ⟨Nat.le_trans (hab _) h.start_once, Nat.le_trans (hab _) h.result_once, fun before job after ha hj => ?_⟩
  exact h.result_after_start before job (after ++ b) (by rw [ha, List.append_assoc, List.cons_append]) hj

theorem inOrder_nil : InOrder [] := ⟨by simp, by simp, fun before _ _ h => by simp at h⟩

theorem inOrder_start {job : ChildWorkflowJob} (h : job.isResult = false) : InOrder [job] := by
  refine ⟨List.countP_le_length, List.countP_le_length, fun before first after hb hr => ?_⟩
  obtain ⟨rfl, hb⟩ | ⟨_, rfl, hb⟩ := List.append_eq_cons_iff.mp hb.symm
  · cases hb
    rw [h] at hr
    cases hr
  · simp at hb

theorem inOrder_result {start result : ChildWorkflowJob} (hs : start.isStartSuccess) (hr : result.isResult) :
    InOrder [start, result] := by
  have h₁ : start.isResult = false := by
    cases start with
    | resolveChildWorkflowExecutionStart => rfl
    | resolveChildWorkflowExecution => cases hs
  have h₂ : result.isStart = false := by
    cases result with
    | resolveChildWorkflowExecutionStart => cases hr
    | resolveChildWorkflowExecution => rfl
  refine ⟨by simp [h₂, List.countP_cons]; split <;> simp, by simp [h₁, hr], ?_⟩
  intro before job after hb hj
  obtain ⟨rfl, hb⟩ | ⟨before', rfl, hb⟩ := List.append_eq_cons_iff.mp hb.symm
  · cases hb
    rw [h₁] at hj
    cases hj
  · exact ⟨start, List.mem_cons_self, hs⟩

/-! ## The machine along a history -/

def jobs (responses : List ChildWorkflowResponse) : List ChildWorkflowJob := responses.filterMap (·.job?)

@[simp] theorem jobs_append (a b : List ChildWorkflowResponse) : jobs (a ++ b) = jobs a ++ jobs b :=
  List.filterMap_append

/-- The state of the machine and what lang was told, in each phase. -/
inductive Tracks (t : ChildWorkflowCancellationType) : Phase → ChildWorkflowMachineState → List ChildWorkflowJob → Prop
  | scheduled : Tracks t .scheduled .startCommandCreated []
  | withdrawn {start} (h : start.isResult = false) : Tracks t .withdrawn (.cancelled false) [start]
  | initiated : Tracks t .initiated .startEventRecorded []
  | started {start} (h : start.isStartSuccess) (h' : start.isResult = false) : Tracks t .started .started [start]
  | abandoned {start result} (ht : resolvesImmediatelyOnCancel t) (h : start.isStartSuccess)
    (h' : result.isResult) : Tracks t .abandoned (.cancelled false) [start, result]
  | startFailed {start} (h : start.isResult = false) : Tracks t .startFailed .startFailed [start]
  | ended {st start result}
    (hst : st = .completed ∨ st = .failed ∨ st = .timedOut ∨ ∃ seen, st = .cancelled seen) (h : start.isStartSuccess)
    (h' : result.isResult) : Tracks t (.ended false) st [start, result]
  | terminated {start result} (h : start.isStartSuccess) (h' : result.isResult) :
    Tracks t (.ended true) .terminated [start, result]

variable {phase : Phase} {st : ChildWorkflowMachineState} {m : ChildWorkflowMachine}
  {event : ChildWorkflowMachineEvents} {out : List ChildWorkflowResponse}

theorem Tracks.inOrder {t : ChildWorkflowCancellationType} {out : List ChildWorkflowJob} (h : Tracks t phase st out) :
    InOrder out := by
  cases h with
  | scheduled | initiated => exact inOrder_nil
  | withdrawn h | started _ h | startFailed h => exact inOrder_start h
  | abandoned _ h h' | ended _ h h' | terminated h h' => exact inOrder_result h h'

/-- The machine is where the history is. -/
structure Follows (attribs : StartChildWorkflowExecution) (phase : Phase) (m : ChildWorkflowMachine)
    (out : List ChildWorkflowResponse) : Prop where
  cancelType : m.sharedState.cancelType = attribs.cancellationType
  workflowId : m.sharedState.workflowId = attribs.workflowId
  workflowType : m.sharedState.workflowType = attribs.workflowType
  tracks : Tracks attribs.cancellationType phase m.state (jobs out)

variable {attribs : StartChildWorkflowExecution}
  {commands : List ChildWorkflowCommand} {ss : ChildWorkflowSharedState} {phase' : Phase}
  {responses : List ChildWorkflowResponse}

theorem handle_of_onEvent (h : onEvent m.sharedState m.state event = .ok (commands, st, ss)) :
    handle m event = (adaptResponses ss commands).map fun responses => (responses, ⟨st, ss⟩) := by
  unfold handle
  rw [h]
  show (do let responses ← adaptResponses ss commands; pure (responses, _)) = _
  cases adaptResponses ss commands <;> rfl

theorem follows_of_onEvent (h : onEvent m.sharedState m.state event = .ok (commands, st, ss))
    (hr : adaptResponses ss commands = .ok responses)
    (hss : ss.cancelType = attribs.cancellationType ∧ ss.workflowId = attribs.workflowId ∧
      ss.workflowType = attribs.workflowType)
    (ht : Tracks attribs.cancellationType phase' st (jobs out ++ jobs responses)) :
    Advances handle (Follows attribs phase') m event out := by
  refine ⟨responses, ⟨st, ss⟩, ?_, hss.1, hss.2.1, hss.2.2, by rwa [jobs_append]⟩
  rw [handle_of_onEvent h, hr]
  rfl

theorem adaptResponses_cancel (ss : ChildWorkflowSharedState) (reason : String) :
    ∃ responses, adaptResponses ss [.issueCancelAfterStarted reason] = .ok responses ∧
      jobs responses = if resolvesImmediatelyOnCancel ss.cancelType then [resolveCancelledMsg ss] else [] := by
  refine ⟨_, rfl, ?_⟩
  split <;> split <;> rfl

/-- An input that does not go wrong is handled. -/
theorem handle_follows (h : Follows attribs phase m out) (hn : phase.next attribs event = some phase')
    (hw : phase.wrong attribs event = false) : Advances handle (Follows attribs phase') m event out := by
  obtain ⟨ht, hid, hty, htr⟩ := h
  obtain ⟨st, ss⟩ := m
  simp only at ht hid hty
  generalize hj : jobs out = js at htr
  have hss := And.intro ht (And.intro hid hty)
  cases htr with
  | scheduled =>
    cases event with
    | commandStartChildWorkflowExecution =>
      cases hn
      exact follows_of_onEvent rfl rfl hss (hj ▸ .scheduled)
    | startChildWorkflowExecutionInitiated data =>
      simp only [Phase.next, Bool.and_eq_true, decide_eq_true_eq, Option.ite_none_right_eq_some] at hn
      obtain ⟨hd, ⟨⟩⟩ := hn
      have hon : onEvent ss .startCommandCreated (.startChildWorkflowExecutionInitiated data) =
          .ok ([], .startEventRecorded, { ss with initiatedEventId := data.eventId }) := by
        simp [onEvent, onStartChildWorkflowExecutionInitiated, hd.1, hd.2, hid, hty]
      exact follows_of_onEvent hon rfl hss (hj ▸ .initiated)
    | cancel reason =>
      cases hn
      exact follows_of_onEvent rfl rfl hss (hj ▸ .withdrawn rfl)
    | _ => cases hn
  | initiated =>
    cases event with
    | childWorkflowExecutionStarted event =>
      cases hn
      exact follows_of_onEvent rfl rfl hss (hj ▸ .started rfl rfl)
    | startChildWorkflowExecutionFailed cause =>
      cases hn
      exact follows_of_onEvent rfl rfl hss (hj ▸ .startFailed rfl)
    | cancel reason =>
      cases hn
      have hw : resolvesImmediatelyOnCancel ss.cancelType = false := ht ▸ hw
      obtain ⟨responses, hr, hjobs⟩ := adaptResponses_cancel ss reason
      refine follows_of_onEvent rfl hr hss ?_
      rw [hjobs, hw, hj]
      exact .initiated
    | _ => cases hn
  | started h h' =>
    cases event with
    | cancel reason =>
      cases hn
      obtain ⟨responses, hr, hjobs⟩ := adaptResponses_cancel ss reason
      refine follows_of_onEvent rfl hr hss ?_
      rw [hjobs, hj, ht]
      cases him : resolvesImmediatelyOnCancel attribs.cancellationType with
      | true => exact .abandoned him h rfl
      | false => exact .started h h'
    | childWorkflowExecutionCompleted result =>
      cases hn
      cases result with
      | none => exact follows_of_onEvent rfl rfl hss (hj ▸ .ended (.inl rfl) h rfl)
      | some payloads =>
        have hw : payloads.length = 1 := by simpa [Phase.wrong] using hw
        obtain ⟨payload, rfl⟩ := List.length_eq_one_iff.mp hw
        exact follows_of_onEvent rfl rfl hss (hj ▸ .ended (.inl rfl) h rfl)
    | childWorkflowExecutionFailed | childWorkflowExecutionTimedOut | childWorkflowExecutionCancelled =>
      cases hn
      exact follows_of_onEvent rfl rfl hss (hj ▸ .ended (by simp) h rfl)
    | childWorkflowExecutionTerminated =>
      cases hn
      exact follows_of_onEvent rfl rfl hss (hj ▸ .terminated h rfl)
    | _ => cases hn
  | abandoned him h h' =>
    have hlate : onLateEnd ss false = .ok ([], .cancelled false, ss) := by simp [onLateEnd, goTo, ht, him]
    have hended := fun seen => Tracks.ended (t := attribs.cancellationType) (.inr (.inr (.inr ⟨seen, rfl⟩))) h h'
    cases event with
    | cancel reason =>
      cases hn
      exact follows_of_onEvent rfl rfl hss (hj ▸ .abandoned him h h')
    | childWorkflowExecutionCancelled =>
      cases hn
      exact follows_of_onEvent rfl rfl hss (hj ▸ hended true)
    | childWorkflowExecutionCompleted _ | childWorkflowExecutionFailed _ _ | childWorkflowExecutionTimedOut _
    | childWorkflowExecutionTerminated =>
      cases hn
      exact follows_of_onEvent hlate rfl hss (hj ▸ hended false)
    | _ => cases hn
  | withdrawn h | startFailed h =>
    cases event with
    | cancel reason =>
      cases hn
      refine follows_of_onEvent rfl rfl hss ?_
      rw [hj]
      constructor
      exact h
    | _ => cases hn
  | ended hst h h' =>
    cases event with
    | cancel reason =>
      cases hn
      have hon : onEvent ss st (.cancel reason) = .ok ([], st, ss) := by
        obtain rfl | rfl | rfl | ⟨_, rfl⟩ := hst <;> rfl
      exact follows_of_onEvent hon rfl hss (hj ▸ .ended hst h h')
    | _ => cases hn
  | terminated h h' =>
    cases event with
    | cancel reason => cases hw
    | _ => cases hn

/-- One that goes wrong is rejected, or the jobs are out of order. -/
theorem handle_wrong {m' : ChildWorkflowMachine} (h : Follows attribs phase m out)
    (hw : phase.wrong attribs event = true) (hm : handle m event = .ok (responses, m')) :
    ¬ InOrder (jobs (out ++ responses)) := by
  obtain ⟨ht, -, -, htr⟩ := h
  obtain ⟨st, ss⟩ := m
  generalize hj : jobs out = js at htr
  cases htr with
  | initiated =>
    cases event with
    | cancel reason =>
      have him : resolvesImmediatelyOnCancel ss.cancelType = true := ht ▸ hw
      obtain ⟨rs, hr, hjobs⟩ := adaptResponses_cancel ss reason
      rw [handle_of_onEvent rfl, hr] at hm
      cases hm
      intro ho
      rw [jobs_append, hj, hjobs, him] at ho
      obtain ⟨_, hmem, -⟩ := ho.result_after_start [] _ [] rfl rfl
      cases hmem
    | _ => cases hw
  | started h h' =>
    cases event with
    | childWorkflowExecutionCompleted result =>
      match result, hw with
      | some [], _ => cases hm
      | some (_ :: _ :: _), _ => cases hm
    | _ => cases hw
  | terminated h h' =>
    cases event with
    | cancel reason => cases hm
    | _ => cases hw
  | _ => cases event <;> cases hw

theorem avoids_of_inOrder {checks : Bool → Bool} {history : List ChildWorkflowMachineEvents}
    (h : follows (Phase.next attribs) .scheduled history = true)
    (hfeed : feed handle (newScheduled attribs checks) history = .ok (responses, m)) (ho : InOrder (jobs responses)) :
    avoids (Phase.next attribs) (Phase.wrong attribs) .scheduled history = true := by
  refine avoids_of_feed (P := fun out => InOrder (jobs out)) (fun a b hp => ?_)
    (fun _ _ _ _ _ h hn hw => handle_follows h hn hw) (fun _ _ _ _ _ h _ hw _ _ hm => handle_wrong h hw hm)
    history _ _ m [] responses ⟨rfl, rfl, rfl, .scheduled⟩ h hfeed ho
  rw [jobs_append] at hp
  exact hp.of_append

/-- **The jobs for a child come in the right order, and no input is rejected, exactly if nothing goes wrong**: with a
type that reports a cancelled child at once, it is not cancelled between initiation and start; it is not cancelled after
it was terminated, unless so cancelled before; and its result is one payload. -/
theorem child_resolved_in_order_iff (attribs : StartChildWorkflowExecution) (checks : Bool → Bool)
    (history : List ChildWorkflowMachineEvents) (h : follows (Phase.next attribs) .scheduled history = true) :
    (∃ responses m, feed handle (newScheduled attribs checks) history = .ok (responses, m) ∧ InOrder (jobs responses)) ↔
      avoids (Phase.next attribs) (Phase.wrong attribs) .scheduled history = true := by
  constructor
  · rintro ⟨responses, m, hfeed, ho⟩
    exact avoids_of_inOrder h hfeed ho
  · intro ha
    obtain ⟨phase, hp⟩ := follows_iff.mp h
    obtain ⟨responses, m, hfeed, hf⟩ := feed_of_avoids (fun _ _ _ _ _ h hn hw => handle_follows h hn hw) history _ phase
      _ [] (⟨rfl, rfl, rfl, .scheduled⟩ : Follows attribs .scheduled (newScheduled attribs checks) []) hp ha
    exact ⟨responses, m, hfeed, hf.tracks.inOrder⟩

def aChild (cancellationType : ChildWorkflowCancellationType) : StartChildWorkflowExecution :=
  { seq := 1, ns := "default", workflowId := "child", workflowType := "type", cancellationType }

def initiatedEvent : ChildWorkflowMachineEvents :=
  .startChildWorkflowExecutionInitiated { eventId := 5, wfType := "type", wfId := "child", lastTaskInHistory := true }

def startedEvent : ChildWorkflowMachineEvents := .childWorkflowExecutionStarted { runId := "run", startedEventId := 6 }

/-- Lang hears of the result of an abandoned child, and never of its start. A cancellation of a terminated child is
rejected. -/
theorem child_resolved_out_of_order :
    (follows (Phase.next (aChild .tryCancel)) .scheduled [initiatedEvent, .cancel "", startedEvent] = true ∧
      ¬ ∃ responses m, feed handle (newScheduled (aChild .tryCancel) fun _ => true)
        [initiatedEvent, .cancel "", startedEvent] = .ok (responses, m) ∧ InOrder (jobs responses)) ∧
    (follows (Phase.next (aChild .waitCancellationCompleted)) .scheduled
        [initiatedEvent, startedEvent, .childWorkflowExecutionTerminated, .cancel ""] = true ∧
      ¬ ∃ responses m, feed handle (newScheduled (aChild .waitCancellationCompleted) fun _ => true)
        [initiatedEvent, startedEvent, .childWorkflowExecutionTerminated, .cancel ""] = .ok (responses, m) ∧
        InOrder (jobs responses)) := by
  refine ⟨⟨by decide +kernel, ?_⟩, by decide +kernel, ?_⟩
  · rintro ⟨responses, m, hfeed, ho⟩
    exact absurd (avoids_of_inOrder (by decide +kernel) hfeed ho) (by decide +kernel)
  · rintro ⟨responses, m, hfeed, ho⟩
    exact absurd (avoids_of_inOrder (by decide +kernel) hfeed ho) (by decide +kernel)

theorem child_resolved_in_order_waiting : ∃ responses m,
    feed handle (newScheduled (aChild .waitCancellationCompleted) fun _ => true)
      [initiatedEvent, .cancel "", startedEvent, .childWorkflowExecutionCancelled, .cancel ""] = .ok (responses, m) ∧
      InOrder (jobs responses) :=
  (child_resolved_in_order_iff (aChild .waitCancellationCompleted) (fun _ => true) _ (by decide +kernel)).mpr
    (by decide +kernel)

end SdkCore.ChildWorkflowMachine
