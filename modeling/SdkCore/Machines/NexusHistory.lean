import SdkCore.Lib.Feed
import SdkCore.Machines.NexusOperation

/-!
# What lang hears of a Nexus operation

An operation is scheduled, possibly started, and ends at most once. Lang may cancel anywhere; a request for that is
answered at most once. `nexus_resolved_in_order_iff` says for which histories lang gets its jobs in order and no input
is rejected.
-/

namespace SdkCore.NexusOperationMachine

/-! ## Histories -/

/-- What lang was told of a started operation. -/
inductive Told
  | start
  | cancelled
  | requestFailed
  deriving DecidableEq

/-- How far the operation has come. -/
inductive Stage
  | created
  | withdrawn
  /-- Possibly cancelled, with a type that gives lang the result at once. -/
  | scheduled (cancelled : Bool)
  | started (told : Told)
  | ended
  deriving DecidableEq

/-- How far the request to cancel has come. -/
inductive CancelRequest
  | none
  | sent
  | recorded
  | answered
  deriving DecidableEq

structure Phase where
  stage : Stage
  request : CancelRequest
  deriving DecidableEq

def isEnd : NexusOperationMachineEvents → Bool
  | .nexusOperationCompleted _ | .nexusOperationFailed _ | .nexusOperationCanceled _ | .nexusOperationTimedOut _ => true
  | _ => false

def isCanceled : NexusOperationMachineEvents → Bool
  | .nexusOperationCanceled _ => true
  | _ => false

/-- The first cancellation of a scheduled operation is requested, unless it is abandoned. -/
def CancelRequest.onCancel (t : NexusOperationCancellationType) : CancelRequest → CancelRequest
  | .none => if t = .abandon then .none else .sent
  | request => request

def Phase.onCancel (t : NexusOperationCancellationType) (phase : Phase) : Phase :=
  match phase.stage with
  | .created => ⟨.withdrawn, phase.request⟩
  | .scheduled cancelled => ⟨.scheduled (cancelled || resolvesOnCancel t), phase.request.onCancel t⟩
  | .started .start =>
    ⟨.started (if resolvesOnCancel t then .cancelled else .start), phase.request.onCancel t⟩
  | _ => phase

def Stage.onAnswer (t : NexusOperationCancellationType) (told : Told) : Stage → Stage
  | .started .start => .started (if t = .waitCancellationRequested then told else .start)
  | stage => stage

def Stage.isScheduled : Stage → Bool
  | .scheduled _ => true
  | _ => false

def Stage.isStarted : Stage → Bool
  | .started _ => true
  | _ => false

def Phase.onEnd (phase : Phase) : Option Phase :=
  if (phase.stage.isScheduled || phase.stage.isStarted) && phase.request ≠ .sent then
    some { phase with stage := .ended }
  else none

def Phase.next (attribs : ScheduleNexusOperation) (phase : Phase) : NexusOperationMachineEvents → Option Phase
  | .cancel => some (phase.onCancel attribs.cancellationType)
  | .commandScheduleNexusOperation => if phase.stage = .created then some phase else none
  | .nexusOperationScheduled data =>
    if phase.stage = .created && data.service = attribs.service && data.operation = attribs.operation then
      some { phase with stage := .scheduled false }
    else none
  | .commandRequestCancelNexusOperation => if phase.request = .sent then some phase else none
  | .nexusOperationCancelRequested =>
    if phase.request = .sent then some { phase with request := .recorded } else none
  | .nexusOperationCancelRequestCompleted =>
    if phase.request = .recorded then
      some ⟨phase.stage.onAnswer attribs.cancellationType .cancelled, .answered⟩
    else none
  | .nexusOperationCancelRequestFailed _ =>
    if phase.request = .recorded then
      some ⟨phase.stage.onAnswer attribs.cancellationType .requestFailed, .answered⟩
    else none
  | .nexusOperationStarted _ =>
    if phase.stage.isScheduled && phase.request ≠ .sent then some { phase with stage := .started .start } else none
  | .nexusOperationCompleted _ | .nexusOperationFailed _ | .nexusOperationCanceled _ | .nexusOperationTimedOut _ =>
    phase.onEnd

def isAnswer : NexusOperationMachineEvents → Bool
  | .nexusOperationCancelRequestCompleted | .nexusOperationCancelRequestFailed _ => true
  | _ => false

def isStarted : NexusOperationMachineEvents → Bool
  | .nexusOperationStarted _ => true
  | _ => false

/-- Inputs that the machine is not up to. -/
def Phase.wrong (attribs : ScheduleNexusOperation) (phase : Phase) (event : NexusOperationMachineEvents) : Bool :=
  match phase.stage with
  | .scheduled cancelled => isAnswer event || (cancelled && (isStarted event || isEnd event))
  | .started .cancelled => attribs.cancellationType = .abandon && isEnd event && !isCanceled event
  | .started .requestFailed => isEnd event
  | _ => false

/-- Lang hears of the start once, of the result once, and not of the start after the result. -/
structure InOrder (jobs : List NexusOperationJob) : Prop where
  start_once : jobs.countP (·.isStart) ≤ 1
  result_once : jobs.countP (·.isResult) ≤ 1
  start_before_result : ∀ before job after, jobs = before ++ job :: after → job.isStart →
    ∀ first ∈ before, first.isResult = false

theorem InOrder.of_append {a b : List NexusOperationJob} (h : InOrder (a ++ b)) : InOrder a := by
  have hab : ∀ p, a.countP p ≤ (a ++ b).countP p := fun _ => (List.sublist_append_left a b).countP_le
  refine ⟨Nat.le_trans (hab _) h.start_once, Nat.le_trans (hab _) h.result_once, fun before job after ha hj => ?_⟩
  exact h.start_before_result before job (after ++ b) (by rw [ha, List.append_assoc, List.cons_append]) hj

theorem inOrder_nil : InOrder [] := ⟨by simp, by simp, fun before _ _ h => by simp at h⟩

theorem inOrder_one (job : NexusOperationJob) : InOrder [job] := by
  refine ⟨List.countP_le_length, List.countP_le_length, fun before first after hb _ => ?_⟩
  obtain ⟨rfl, -⟩ | ⟨_, rfl, hb⟩ := List.append_eq_cons_iff.mp hb.symm
  · exact fun _ h => by cases h
  · simp at hb

theorem isResult_eq_not_isStart (job : NexusOperationJob) : job.isResult = !job.isStart := by cases job <;> rfl

variable {start : NexusOperationJob} {t : NexusOperationCancellationType} {st : NexusOperationMachineState}
  {m : NexusOperationMachine} {event : NexusOperationMachineEvents} {ss : NexusOperationSharedState}
  {phase' phase : Phase} {out : List NexusOperationResponse}
  {result : NexusOperationJob} {commands : List NexusOperationCommand}
  {history : List NexusOperationMachineEvents}

theorem inOrder_two (hs : start.isStart) (hr : result.isResult) : InOrder [start, result] := by
  have hs' : start.isResult = false := by rw [isResult_eq_not_isStart, hs]; rfl
  have hr' : result.isStart = false := by simpa [isResult_eq_not_isStart] using hr
  refine ⟨by simp [hs, hr'], by simp [hs', hr], fun before job after hb hj => ?_⟩
  obtain ⟨rfl, -⟩ | ⟨before', rfl, hb'⟩ := List.append_eq_cons_iff.mp hb.symm
  · exact fun _ h => by cases h
  · obtain ⟨rfl, -⟩ | ⟨_, rfl, hb⟩ := List.append_eq_cons_iff.mp hb'.symm
    · intro first hf
      rw [List.mem_singleton.mp hf]
      exact hs'
    · simp at hb

/-! ## The machine along a history -/

def jobs (responses : List NexusOperationResponse) : List NexusOperationJob := responses.filterMap (·.job?)

@[simp] theorem jobs_append (a b : List NexusOperationResponse) : jobs (a ++ b) = jobs a ++ jobs b :=
  List.filterMap_append

/-- The machine, whether the cancellation was issued and what lang was told, in each stage. -/
inductive Tracks (t : NexusOperationCancellationType) :
    Stage → NexusOperationMachineState → Bool → List NexusOperationJob → Prop
  | created : Tracks t .created .scheduleCommandCreated false []
  | withdrawn {sent : Bool} (job : NexusOperationJob) : Tracks t .withdrawn .cancelled sent [job]
  | scheduled {sent : Bool} (h : sent = true → resolvesOnCancel t = false) :
    Tracks t (.scheduled false) .scheduledEventRecorded sent []
  | cancelledEarly {result : NexusOperationJob} (h : result.isResult) :
    Tracks t (.scheduled true) .scheduledEventRecorded true [result]
  | started {sent : Bool} {start : NexusOperationJob} (h : start.isStart)
    (h' : sent = true → resolvesOnCancel t = false) : Tracks t (.started .start) .started sent [start]
  | cancelled {sent : Bool} {start result : NexusOperationJob} (h : start.isStart) (h' : result.isResult) :
    Tracks t (.started .cancelled) .cancelled sent [start, result]
  | requestFailed {start result : NexusOperationJob} (h : start.isStart) (h' : result.isResult) :
    Tracks t (.started .requestFailed) .started true [start, result]
  | ended {sent : Bool} {st : NexusOperationMachineState} {out : List NexusOperationJob}
    (hst : st = .completed ∨ st = .failed ∨ st = .timedOut ∨ st = .cancelled) (h : InOrder out) :
    Tracks t .ended st sent out

theorem Tracks.inOrder {stage : Stage} {sent : Bool} {out : List NexusOperationJob} (h : Tracks t stage st sent out) :
    InOrder out := by
  cases h with
  | created | scheduled => exact inOrder_nil
  | withdrawn | cancelledEarly | started => exact inOrder_one _
  | cancelled h h' | requestFailed h h' => exact inOrder_two h h'
  | ended _ h => exact h

/-- The machine is where the history is. -/
structure Follows (attribs : ScheduleNexusOperation) (phase : Phase) (m : NexusOperationMachine)
    (out : List NexusOperationResponse) : Prop where
  cancelType : m.sharedState.cancelType = attribs.cancellationType
  service : m.sharedState.service = attribs.service
  operation : m.sharedState.operation = attribs.operation
  sent : phase.request ≠ .none → m.sharedState.cancelSent = true
  tracks : Tracks attribs.cancellationType phase.stage m.state m.sharedState.cancelSent (jobs out)

variable {attribs : ScheduleNexusOperation}

theorem handle_of_onEvent (h : onEvent m.sharedState m.state event = .ok (commands, st, ss)) :
    handle m event = .ok (commands.flatMap (adaptResponse ss), ⟨st, ss⟩) := by
  unfold handle
  rw [h]
  rfl

/-- A transition keeps up with the history. -/
theorem follows_of_onEvent (h : onEvent m.sharedState m.state event = .ok (commands, st, ss))
    (hss : ss.cancelType = attribs.cancellationType ∧ ss.service = attribs.service ∧ ss.operation = attribs.operation)
    (hsent : phase'.request ≠ .none → ss.cancelSent = true)
    (ht : Tracks attribs.cancellationType phase'.stage st ss.cancelSent
      (jobs out ++ jobs (commands.flatMap (adaptResponse ss)))) :
    Advances handle (Follows attribs phase') m event out :=
  ⟨_, _, handle_of_onEvent h, hss.1, hss.2.1, hss.2.2, hsent, by rwa [jobs_append]⟩

theorem jobs_issueCancel (ss : NexusOperationSharedState) :
    ∃ result : NexusOperationJob, result.isResult ∧ jobs (List.flatMap (adaptResponse ss) [.issueCancel]) =
      if resolvesOnCancel ss.cancelType then [result] else [] := by
  refine ⟨.resolveNexusOperation ss.langSeqNum
    (.cancelled (cancelledFailure ss "Nexus operation cancelled after starting")), rfl, ?_⟩
  rw [List.flatMap_singleton, adaptResponse]
  split <;> split <;> rfl

theorem Follows.idle (h : Follows attribs phase m out)
    (hon : onEvent m.sharedState m.state event = .ok ([], m.state, m.sharedState)) (hs : phase'.stage = phase.stage)
    (hsent : phase'.request ≠ .none → m.sharedState.cancelSent = true) :
      Advances handle (Follows attribs phase') m event out := by
  refine follows_of_onEvent hon ⟨h.cancelType, h.service, h.operation⟩ hsent ?_
  rw [hs]
  simpa [jobs] using h.tracks

theorem onEvent_cancel_sent (h : ss.cancelSent = true) (hst : st = .scheduledEventRecorded ∨ st = .started) :
    onEvent ss st .cancel = .ok ([], st, ss) := by
  obtain rfl | rfl := hst
  · simp [onEvent, onIssueCancelScheduled, goTo, h]
  · simp [onEvent, onIssueCancelStarted, goTo, h]

theorem cancel_follows (h : Follows attribs phase m out) :
    Advances handle (Follows attribs (phase.onCancel attribs.cancellationType)) m .cancel out := by
  have hidle : onEvent m.sharedState m.state .cancel = .ok ([], m.state, m.sharedState) → _ → _ →
      Advances handle (Follows attribs (phase.onCancel attribs.cancellationType)) m .cancel out := h.idle
  obtain ⟨ht, hse, hop, hsent, htr⟩ := h
  obtain ⟨st, ss⟩ := m
  obtain ⟨stage, request⟩ := phase
  generalize hj : jobs out = js at htr
  generalize hcs : ss.cancelSent = sent at htr
  have hss := And.intro ht (And.intro hse hop)
  cases htr with
  | created => exact follows_of_onEvent rfl hss hsent (hj ▸ .withdrawn _)
  | withdrawn | cancelled => exact hidle rfl rfl hsent
  | scheduled hsw =>
    cases sent with
    | false =>
      obtain ⟨result, hr, hjobs⟩ := jobs_issueCancel { ss with cancelSent := true }
      have hon : onEvent ss .scheduledEventRecorded .cancel =
          .ok ([.issueCancel], .scheduledEventRecorded, { ss with cancelSent := true }) := by
        simp [onEvent, onIssueCancelScheduled, hcs]
      refine follows_of_onEvent hon hss (fun _ => rfl) ?_
      rw [hjobs, hj, ht]
      simp only [Phase.onCancel, Bool.false_or, List.nil_append]
      cases him : resolvesOnCancel attribs.cancellationType with
      | true => exact .cancelledEarly hr
      | false => exact .scheduled fun _ => him
    | true => exact hidle (onEvent_cancel_sent hcs (.inl rfl)) (by simp [Phase.onCancel, hsw rfl]) fun _ => hcs
  | cancelledEarly => exact hidle (onEvent_cancel_sent hcs (.inl rfl)) rfl fun _ => hcs
  | started hst hsw =>
    cases sent with
    | false =>
      obtain ⟨result, hr, hjobs⟩ := jobs_issueCancel { ss with cancelSent := true }
      have hon : onEvent ss .started .cancel =
          .ok ([.issueCancel], if resolvesOnCancel ss.cancelType then .cancelled else .started,
            { ss with cancelSent := true }) := by
        simp [onEvent, onIssueCancelStarted, hcs]
      refine follows_of_onEvent hon hss (fun _ => rfl) ?_
      rw [hjobs, hj, ht]
      simp only [Phase.onCancel]
      cases him : resolvesOnCancel attribs.cancellationType with
      | true => exact .cancelled hst hr
      | false => exact .started hst fun _ => him
    | true => exact hidle (onEvent_cancel_sent hcs (.inr rfl)) (by simp [Phase.onCancel, hsw rfl]) fun _ => hcs
  | requestFailed => exact hidle (onEvent_cancel_sent hcs (.inr rfl)) rfl fun _ => hcs
  | ended hst => exact hidle (by obtain rfl | rfl | rfl | rfl := hst <;> rfl) rfl hsent

/-- A request is recorded before the end, and one that failed has been answered. -/
structure Phase.Fits (phase : Phase) : Prop where
  ended : phase.stage = .ended → phase.request ≠ .sent
  failed : phase.stage = .started .requestFailed → phase.request = .answered

theorem request_follows (h : Follows attribs phase m out) (hfit : phase.Fits)
    (he : event = .commandRequestCancelNexusOperation ∨ event = .nexusOperationCancelRequested)
    (hr : phase.request = .sent) (hs : phase'.stage = phase.stage) :
      Advances handle (Follows attribs phase') m event out := by
  have hsent := h.sent (by simp [hr])
  refine h.idle ?_ hs fun _ => hsent
  obtain ⟨st, ss⟩ := m
  obtain ⟨stage, request⟩ := phase
  have htr := h.tracks
  generalize jobs out = js at htr
  rw [hsent] at htr
  cases htr with
  | ended => exact absurd hr (hfit.ended rfl)
  | _ => obtain rfl | rfl := he <;> rfl

theorem answer_follows {told : Told} (h : Follows attribs phase m out) (hfit : phase.Fits)
    (he : (event = .nexusOperationCancelRequestCompleted ∧ told = .cancelled) ∨
      ∃ fa, event = .nexusOperationCancelRequestFailed fa ∧ told = .requestFailed) (hr : phase.request = .recorded)
    (hw : ∀ cancelled, phase.stage ≠ .scheduled cancelled) :
    Advances handle (Follows attribs ⟨phase.stage.onAnswer attribs.cancellationType told, .answered⟩) m event out := by
  have hsent := h.sent (by simp [hr])
  have hidle : ∀ {phase' : Phase}, onEvent m.sharedState m.state event = .ok ([], m.state, m.sharedState) →
      phase'.stage = phase.stage → Advances handle (Follows attribs phase') m event out :=
    fun hon hs => h.idle hon hs fun _ => hsent
  obtain ⟨ht, hse, hop, -, htr⟩ := h
  obtain ⟨st, ss⟩ := m
  obtain ⟨stage, request⟩ := phase
  simp only at ht hop htr hsent hr hidle
  have hss := And.intro ht (And.intro hse hop)
  generalize hj : jobs out = js at htr
  rw [hsent] at htr
  cases htr with
  | withdrawn | cancelled => exact hidle (by obtain ⟨rfl, -⟩ | ⟨_, rfl, -⟩ := he <;> rfl) rfl
  | scheduled | cancelledEarly => exact absurd rfl (hw _)
  | started hst hsw =>
    by_cases hwait : attribs.cancellationType = .waitCancellationRequested
    · obtain ⟨rfl, rfl⟩ | ⟨fa, rfl, rfl⟩ := he
      · have hon : onEvent ss .started .nexusOperationCancelRequestCompleted =
            .ok ([.cancel (cancelledFailure ss "Nexus operation cancellation request completed")], .cancelled, ss) := by
          simp [onEvent, onCancelRequestCompleted, goTo, ht, hwait]
        refine follows_of_onEvent hon hss (fun _ => hsent) ?_
        rw [hj]
        simp only [Stage.onAnswer, hwait, if_true]
        exact .cancelled hst rfl
      · have hon : onEvent ss .started (.nexusOperationCancelRequestFailed fa) =
            .ok ([.fail (failure ss "Nexus operation cancellation request failed"
              (orElse fa "Nexus operation cancellation request failed"))], .started, ss) := by
          simp [onEvent, onCancelRequestFailed, goTo, ht, hwait]
        refine follows_of_onEvent hon hss (fun _ => hsent) ?_
        rw [hj, hsent]
        simp only [Stage.onAnswer, hwait, if_true]
        exact .requestFailed hst rfl
    · refine hidle ?_ (by simp [Stage.onAnswer, hwait])
      obtain ⟨rfl, -⟩ | ⟨fa, rfl, -⟩ := he
      · simp [onEvent, onCancelRequestCompleted, goTo, ht, hwait]
      · simp [onEvent, onCancelRequestFailed, goTo, ht, hwait]
  | requestFailed => cases hr.symm.trans (hfit.failed rfl)
  | ended hst =>
    refine hidle ?_ rfl
    obtain rfl | rfl | rfl | rfl := hst <;> obtain ⟨rfl, -⟩ | ⟨_, rfl, -⟩ := he <;> rfl

theorem scheduled_follows {data : NexusOpScheduledData} (h : Follows attribs phase m out) (hs : phase.stage = .created)
    (hds : data.service = attribs.service) (hdo : data.operation = attribs.operation) :
    Advances handle (Follows attribs { phase with stage := .scheduled false }) m
      (.nexusOperationScheduled data) out := by
  obtain ⟨ht, hse, hop, hsent, htr⟩ := h
  obtain ⟨st, ss⟩ := m
  simp only at hse hop hsent htr
  generalize hj : jobs out = js at htr
  generalize hcs : ss.cancelSent = sent at htr
  rw [hs] at htr
  cases htr with
  | created =>
    have hon : onEvent ss .scheduleCommandCreated (.nexusOperationScheduled data) =
        .ok ([], .scheduledEventRecorded, { ss with scheduledEventId := data.eventId }) := by
      simp [onEvent, onScheduled, hds, hdo, hse, hop]
    refine follows_of_onEvent hon ⟨ht, hse, hop⟩ hsent ?_
    rw [hj]
    exact .scheduled fun h => absurd (hcs.symm.trans h) (by simp)

theorem started_follows (token : String) (h : Follows attribs phase m out) (hs : phase.stage.isScheduled = true)
    (hw : phase.wrong attribs (.nexusOperationStarted token) = false) :
    Advances handle (Follows attribs { phase with stage := .started .start }) m (.nexusOperationStarted token) out := by
  obtain ⟨ht, hse, hop, hsent, htr⟩ := h
  obtain ⟨st, ss⟩ := m
  obtain ⟨stage, request⟩ := phase
  generalize hj : jobs out = js at htr
  generalize hcs : ss.cancelSent = sent at htr
  cases htr with
  | scheduled hsw =>
    refine follows_of_onEvent rfl ⟨ht, hse, hop⟩ hsent ?_
    rw [hj]
    exact .started rfl (hcs ▸ hsw)
  | cancelledEarly => simp [Phase.wrong, isStarted] at hw
  | _ => cases hs

theorem onEvent_of_isEnd (ss : NexusOperationSharedState) (he : isEnd event = true) :
    (∃ commands st start, onEvent ss .scheduledEventRecorded event = .ok (commands, st, ss) ∧
      (st = .completed ∨ st = .failed ∨ st = .timedOut ∨ st = .cancelled) ∧ start.isStart ∧
      (jobs (commands.flatMap (adaptResponse ss)) = [start] ∨
        ∃ result, result.isResult ∧ jobs (commands.flatMap (adaptResponse ss)) = [start, result])) ∧
    ∃ commands st result, onEvent ss .started event = .ok (commands, st, ss) ∧
      (st = .completed ∨ st = .failed ∨ st = .timedOut ∨ st = .cancelled) ∧ result.isResult ∧
      jobs (commands.flatMap (adaptResponse ss)) = [result] := by
  cases event with
  | nexusOperationCompleted result =>
    exact ⟨⟨_, _, _, rfl, .inl rfl, rfl, .inr ⟨_, rfl, rfl⟩⟩, _, _, _, rfl, .inl rfl, rfl, rfl⟩
  | nexusOperationFailed fa =>
    exact ⟨⟨_, _, _, rfl, .inr (.inl rfl), rfl, .inl rfl⟩, _, _, _, rfl, .inr (.inl rfl), rfl, rfl⟩
  | nexusOperationCanceled fa =>
    exact ⟨⟨_, _, _, rfl, .inr (.inr (.inr rfl)), rfl, .inl rfl⟩, _, _, _, rfl, .inr (.inr (.inr rfl)), rfl, rfl⟩
  | nexusOperationTimedOut fa =>
    exact ⟨⟨_, _, _, rfl, .inr (.inr (.inl rfl)), rfl, .inl rfl⟩, _, _, _, rfl, .inr (.inr (.inl rfl)), rfl, rfl⟩
  | _ => cases he

theorem onEvent_cancelled (he : isEnd event = true) :
    onEvent ss .cancelled event = if ss.cancelType = .abandon ∧ isCanceled event = false then onLateEnd ss
      else .ok ([], .cancelled, ss) := by
  cases event with
  | nexusOperationCanceled fa => simp [isCanceled, onEvent, goTo]
  | nexusOperationCompleted _ | nexusOperationFailed _ | nexusOperationTimedOut _ =>
    simp only [isCanceled, and_true]
    split
    · rfl
    · next h => simp [onEvent, onLateEnd, goTo, h]
  | _ => cases he

theorem end_follows (h : Follows attribs phase m out) (he : isEnd event = true)
    (hs : phase.stage.isScheduled = true ∨ phase.stage.isStarted = true) (hw : phase.wrong attribs event = false) :
    Advances handle (Follows attribs { phase with stage := .ended }) m event out := by
  obtain ⟨ht, hse, hop, hsent, htr⟩ := h
  obtain ⟨st, ss⟩ := m
  obtain ⟨stage, request⟩ := phase
  simp only at ht hop hsent htr hs
  obtain ⟨⟨cs, st₁, start, hon₁, hst₁, hstart, hjobs₁⟩, cs₂, st₂, result, hon₂, hst₂, hresult, hjobs₂⟩ :=
    onEvent_of_isEnd ss he
  generalize hj : jobs out = js at htr
  generalize ss.cancelSent = sent at htr
  cases htr with
  | scheduled hsw =>
    refine follows_of_onEvent hon₁ ⟨ht, hse, hop⟩ hsent (.ended hst₁ ?_)
    obtain hjobs | ⟨result, hr, hjobs⟩ := hjobs₁
    · rw [hj, hjobs]
      exact inOrder_one _
    · rw [hj, hjobs]
      exact inOrder_two hstart hr
  | cancelledEarly | requestFailed => simp [Phase.wrong, he] at hw
  | started hst hsw =>
    refine follows_of_onEvent hon₂ ⟨ht, hse, hop⟩ hsent (.ended hst₂ ?_)
    rw [hj, hjobs₂]
    exact inOrder_two hst hresult
  | cancelled hst hr =>
    have hon : onEvent ss .cancelled event = .ok ([], .cancelled, ss) := by
      rw [onEvent_cancelled he, if_neg]
      simpa [Phase.wrong, he, ht] using hw
    refine follows_of_onEvent hon ⟨ht, hse, hop⟩ hsent (.ended (.inr (.inr (.inr rfl))) ?_)
    rw [hj]
    exact inOrder_two hst hr
  | _ => simp [Stage.isScheduled, Stage.isStarted] at hs

theorem Phase.Fits.of_ne (h : phase.stage ≠ .ended) (h' : phase.stage ≠ .started .requestFailed) : phase.Fits :=
  ⟨fun hs => absurd hs h, fun hs => absurd hs h'⟩

theorem Phase.Fits.onCancel (h : phase.Fits) (t : NexusOperationCancellationType) : (phase.onCancel t).Fits := by
  obtain ⟨stage, request⟩ := phase
  cases stage with
  | created | scheduled => exact .of_ne nofun nofun
  | withdrawn | ended => exact h
  | started told =>
    cases told with
    | start =>
      refine .of_ne nofun fun h => ?_
      simp only [Phase.onCancel] at h
      split at h <;> cases h
    | cancelled | requestFailed => exact h

/-- An input that does not go wrong is handled. -/
theorem handle_follows (h : Follows attribs phase m out) (hfit : phase.Fits)
    (hn : phase.next attribs event = some phase') (hw : phase.wrong attribs event = false) :
    phase'.Fits ∧ Advances handle (Follows attribs phase') m event out := by
  have hanswer : ∀ {told : Told}, isAnswer event = true →
      ((event = .nexusOperationCancelRequestCompleted ∧ told = .cancelled) ∨
        ∃ fa, event = .nexusOperationCancelRequestFailed fa ∧ told = .requestFailed) →
      (if phase.request = .recorded then
        some (Phase.mk (phase.stage.onAnswer attribs.cancellationType told) .answered) else none) = some phase' →
      phase'.Fits ∧ Advances handle (Follows attribs phase') m event out := by
    intro told ha he hn
    obtain ⟨hr, ⟨⟩⟩ := Option.ite_none_right_eq_some.mp hn
    refine ⟨⟨fun _ => by simp, fun _ => rfl⟩, answer_follows h hfit he hr fun cancelled hs => ?_⟩
    simp [Phase.wrong, hs, ha] at hw
  have hend : isEnd event = true → phase.onEnd = some phase' → phase'.Fits ∧
    Advances handle (Follows attribs phase') m event out := by
    intro he hn
    simp only [Phase.onEnd, Bool.and_eq_true, Bool.or_eq_true, decide_eq_true_eq, Option.ite_none_right_eq_some] at hn
    obtain ⟨hs, ⟨⟩⟩ := hn
    exact ⟨⟨fun _ => hs.2, fun h => (by cases h)⟩, end_follows h he hs.1 hw⟩
  cases event with
  | cancel =>
    cases hn
    exact ⟨hfit.onCancel _, cancel_follows h⟩
  | commandScheduleNexusOperation =>
    obtain ⟨hs, ⟨⟩⟩ := Option.ite_none_right_eq_some.mp hn
    refine ⟨hfit, h.idle ?_ rfl h.sent⟩
    have htr := h.tracks
    rw [hs] at htr
    generalize jobs out = js at htr
    generalize m.sharedState.cancelSent = sent at htr
    generalize hst : m.state = st at htr
    cases htr
    rfl
  | nexusOperationScheduled data =>
    simp only [Phase.next, Bool.and_eq_true, decide_eq_true_eq, Option.ite_none_right_eq_some] at hn
    obtain ⟨hd, ⟨⟩⟩ := hn
    exact ⟨.of_ne (by simp) (by simp), scheduled_follows h hd.1.1 hd.1.2 hd.2⟩
  | commandRequestCancelNexusOperation =>
    obtain ⟨hr, ⟨⟩⟩ := Option.ite_none_right_eq_some.mp hn
    exact ⟨hfit, request_follows h hfit (.inl rfl) hr rfl⟩
  | nexusOperationCancelRequested =>
    obtain ⟨hr, ⟨⟩⟩ := Option.ite_none_right_eq_some.mp hn
    refine ⟨⟨fun _ => by simp, fun hs => ?_⟩, request_follows h hfit (.inr rfl) hr rfl⟩
    cases hr.symm.trans (hfit.failed hs)
  | nexusOperationStarted token =>
    simp only [Phase.next, Bool.and_eq_true, decide_eq_true_eq, Option.ite_none_right_eq_some] at hn
    obtain ⟨hs, ⟨⟩⟩ := hn
    exact ⟨.of_ne (by simp) (by simp), started_follows token h hs.1 hw⟩
  | nexusOperationCancelRequestCompleted => exact hanswer rfl (.inl ⟨rfl, rfl⟩) hn
  | nexusOperationCancelRequestFailed fa => exact hanswer rfl (.inr ⟨fa, rfl, rfl⟩) hn
  | nexusOperationCompleted _ | nexusOperationFailed _ | nexusOperationCanceled _ | nexusOperationTimedOut _ =>
    exact hend rfl hn

/-! ## What goes wrong -/

theorem not_inOrder_late_start {rest : List NexusOperationJob} (hr : result.isResult = true)
    (hs : start.isStart = true) : ¬ InOrder ([result] ++ start :: rest) := by
  intro h
  have := h.start_before_result [result] start rest rfl hs result List.mem_cons_self
  rw [hr] at this
  cases this

theorem not_inOrder_second_result {first second : NexusOperationJob} (h₁ : first.isResult = true)
    (h₂ : second.isResult = true) : ¬ InOrder ([start, first] ++ [second]) := by
  intro h
  have := h.result_once
  simp only [List.cons_append, List.nil_append, List.countP_cons, h₁, h₂, if_true] at this
  omega

/-- Others are rejected, or the jobs are out of order. -/
theorem handle_wrong {m' : NexusOperationMachine} {responses : List NexusOperationResponse}
    (h : Follows attribs phase m out) (hw : phase.wrong attribs event = true)
    (hm : handle m event = .ok (responses, m')) : ¬ InOrder (jobs (out ++ responses)) := by
  obtain ⟨ht, -, -, -, htr⟩ := h
  obtain ⟨st, ss⟩ := m
  obtain ⟨stage, request⟩ := phase
  simp only at ht
  generalize hj : jobs out = js at htr
  generalize ss.cancelSent = sent at htr
  have hanswer : isAnswer event = true → ¬ handle ⟨.scheduledEventRecorded, ss⟩ event = .ok (responses, m') := by
    intro ha hm
    cases event with
    | nexusOperationCancelRequestCompleted | nexusOperationCancelRequestFailed => cases hm
    | _ => cases ha
  rw [jobs_append, hj]
  cases htr with
  | scheduled =>
    have ha : isAnswer event = true := by simpa [Phase.wrong] using hw
    exact absurd hm (hanswer ha)
  | cancelledEarly hr =>
    simp only [Phase.wrong, Bool.true_and, Bool.or_eq_true] at hw
    obtain ha | hs | he := hw
    · exact absurd hm (hanswer ha)
    · cases event with
      | nexusOperationStarted token =>
        cases hm
        exact not_inOrder_late_start hr rfl
      | _ => cases hs
    · obtain ⟨⟨commands, st, start, hon, -, hstart, hjobs⟩, -⟩ := onEvent_of_isEnd ss he
      rw [handle_of_onEvent hon] at hm
      cases hm
      obtain hjobs | ⟨result, -, hjobs⟩ := hjobs
      · rw [hjobs]
        exact not_inOrder_late_start hr hstart
      · rw [hjobs]
        exact not_inOrder_late_start hr hstart
  | cancelled =>
    simp only [Phase.wrong, Bool.and_eq_true, decide_eq_true_eq, Bool.not_eq_true'] at hw
    obtain ⟨⟨hab, he⟩, hc⟩ := hw
    have hon : onEvent ss .cancelled event = onLateEnd ss := by rw [onEvent_cancelled he, if_pos ⟨ht.trans hab, hc⟩]
    unfold handle at hm
    simp only [hon, onLateEnd, ht, hab, if_true] at hm
    cases hm
  | requestFailed hst hr =>
    obtain ⟨-, commands, st, result, hon, -, hresult, hjobs⟩ := onEvent_of_isEnd ss (show isEnd event = true from hw)
    rw [handle_of_onEvent hon] at hm
    cases hm
    rw [hjobs]
    exact not_inOrder_second_result hr hresult
  | _ => cases hw

theorem follows_newScheduled (attribs : ScheduleNexusOperation) (checks : Bool → Bool) :
    Phase.Fits ⟨.created, .none⟩ ∧ Follows attribs ⟨.created, .none⟩ (newScheduled attribs checks) [] :=
  ⟨.of_ne nofun nofun, rfl, rfl, rfl, fun h => absurd rfl h, .created⟩

theorem handle_advances (h : phase.Fits ∧ Follows attribs phase m out) (hn : phase.next attribs event = some phase')
    (hw : phase.wrong attribs event = false) :
    Advances handle (fun m out => phase'.Fits ∧ Follows attribs phase' m out) m event out := by
  obtain ⟨hfit, responses, m', hm, hfol⟩ := handle_follows h.2 h.1 hn hw
  exact ⟨responses, m', hm, hfit, hfol⟩

theorem avoids_of_inOrder {checks : Bool → Bool} {responses : List NexusOperationResponse}
    (h : follows (Phase.next attribs) ⟨.created, .none⟩ history = true)
    (hfeed : feed handle (newScheduled attribs checks) history = .ok (responses, m)) (ho : InOrder (jobs responses)) :
    avoids (Phase.next attribs) (Phase.wrong attribs) ⟨.created, .none⟩ history = true := by
  refine avoids_of_feed (P := fun out => InOrder (jobs out)) (fun a b hp => ?_)
    (fun _ _ _ _ _ h hn hw => handle_advances h hn hw) (fun _ _ _ _ _ h _ hw _ _ hm => handle_wrong h.2 hw hm)
    history _ _ m [] responses (follows_newScheduled attribs checks) h hfeed ho
  rw [jobs_append] at hp
  exact hp.of_append

/-- **The jobs for an operation come in the right order, and no input is rejected, exactly if nothing goes wrong**:
cancelled before its start, with a type that reports at once, it neither starts nor ends; the request to cancel is not
answered before the start; abandoned after its start, it ends only by being cancelled; and if the request failed, with
the type that waits for it, it does not end. -/
theorem nexus_resolved_in_order_iff (attribs : ScheduleNexusOperation) (checks : Bool → Bool)
    (history : List NexusOperationMachineEvents) (h : follows (Phase.next attribs) ⟨.created, .none⟩ history = true) :
    (∃ responses m, feed handle (newScheduled attribs checks) history = .ok (responses, m) ∧ InOrder (jobs responses)) ↔
      avoids (Phase.next attribs) (Phase.wrong attribs) ⟨.created, .none⟩ history = true := by
  constructor
  · rintro ⟨responses, m, hfeed, ho⟩
    exact avoids_of_inOrder h hfeed ho
  · intro ha
    obtain ⟨phase, hp⟩ := follows_iff.mp h
    obtain ⟨responses, m, hfeed, hf⟩ := feed_of_avoids
      (fun _ _ _ _ _ h hn hw => handle_advances h hn hw) history _ phase
      _ [] (follows_newScheduled attribs checks) hp ha
    exact ⟨responses, m, hfeed, hf.2.tracks.inOrder⟩

def anOperation (cancellationType : NexusOperationCancellationType) : ScheduleNexusOperation :=
  { seq := 1, endpoint := "endpoint", service := "service", operation := "operation", cancellationType }

def scheduledEvent : NexusOperationMachineEvents :=
  .nexusOperationScheduled { eventId := 5, service := "service", operation := "operation", lastTaskInHistory := true }

/-- A possible history with the jobs out of order. -/
def Refutes (t : NexusOperationCancellationType) (history : List NexusOperationMachineEvents) : Prop :=
  follows (Phase.next (anOperation t)) ⟨.created, .none⟩ history = true ∧
    ¬ ∃ responses m, feed handle (newScheduled (anOperation t) fun _ => true) history = .ok (responses, m) ∧
      InOrder (jobs responses)

theorem refutes_of_wrong (h : follows (Phase.next (anOperation t)) ⟨.created, .none⟩ history = true)
    (hw : avoids (Phase.next (anOperation t)) (Phase.wrong (anOperation t)) ⟨.created, .none⟩ history = false) :
    Refutes t history := by
  refine ⟨h, ?_⟩
  rintro ⟨responses, m, hfeed, ho⟩
  cases hw.symm.trans (avoids_of_inOrder h hfeed ho)

/-- One that was cancelled before its start starts; a request is answered before the start; an abandoned one and one
whose request failed complete. -/
theorem nexus_resolved_out_of_order :
    Refutes .abandon [scheduledEvent, .cancel, .nexusOperationStarted "token"] ∧
    Refutes .waitCancellationCompleted [scheduledEvent, .cancel, .nexusOperationCancelRequested,
      .nexusOperationCancelRequestCompleted] ∧
    Refutes .abandon [scheduledEvent, .nexusOperationStarted "token", .cancel, .nexusOperationCompleted none] ∧
    Refutes .waitCancellationRequested [scheduledEvent, .nexusOperationStarted "token", .cancel,
      .nexusOperationCancelRequested, .nexusOperationCancelRequestFailed none, .nexusOperationCompleted none] :=
  ⟨refutes_of_wrong (by decide +kernel) (by decide +kernel), refutes_of_wrong (by decide +kernel) (by decide +kernel),
    refutes_of_wrong (by decide +kernel) (by decide +kernel), refutes_of_wrong (by decide +kernel) (by decide +kernel)⟩

/-- Cancelled while it runs, and completed although lang has its result. -/
theorem nexus_resolved_in_order_tried : ∃ responses m,
    feed handle (newScheduled (anOperation .tryCancel) fun _ => true) [scheduledEvent, .nexusOperationStarted "token",
      .cancel, .nexusOperationCancelRequested, .nexusOperationCompleted none, .nexusOperationCancelRequestCompleted] =
        .ok (responses, m) ∧ InOrder (jobs responses) :=
  (nexus_resolved_in_order_iff (anOperation .tryCancel) (fun _ => true) _ (by decide +kernel)).mpr (by decide +kernel)

end SdkCore.NexusOperationMachine
