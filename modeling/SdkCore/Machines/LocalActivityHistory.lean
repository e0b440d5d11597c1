import SdkCore.Lib.Feed
import SdkCore.Machines.LocalActivity

/-!
# Local activities, executed and replayed

`Session` is the machine of a local activity that is executed, with at most one cancellation by lang. In a replay the
result comes from the marker. `replayed_alike_iff` says when lang is told the same.
-/

namespace SdkCore.LocalActivityMachine

structure Outcome where
  result : ExecutionResult
  runtime : Nat
  attempt : Nat
  backoff : Option Nat
  originalScheduleTime : Option Nat
  activationIndex : Nat

inductive Input
  | result (outcome : Outcome)
  | marker (dat : CompleteData)
  | nonReplayWft
  | prepare
  | recorded (dat : CompleteData)
  | cancel (activationIndex : Nat)

def take (m : LocalActivityMachine) : Input → Except TransitionError (List Response × LocalActivityMachine)
  | .result o => tryResolve m o.result o.runtime o.attempt o.backoff o.originalScheduleTime o.activationIndex
  | .marker dat => tryResolveWithDat m (.ofMarker dat)
  | .nonReplayWft => encounteredNonReplayWft m
  | .prepare => handle m .commandRecordMarker
  | .recorded dat => handle m (.markerRecorded dat)
  | .cancel activationIndex => cancel m activationIndex

def jobs (responses : List Response) : List ResolveActivity := responses.filterMap (·.job?)

def markers (responses : List Response) : List RecordMarker := responses.filterMap (·.marker?)

@[simp] theorem jobs_append (a b : List Response) : jobs (a ++ b) = jobs a ++ jobs b := List.filterMap_append

@[simp] theorem markers_append (a b : List Response) : markers (a ++ b) = markers a ++ markers b :=
  List.filterMap_append

variable {m : LocalActivityMachine} {commands : List Command} {st : State} {d : CompleteData} {o : List Response}
  {resultType : ResultType}

theorem handle_of_onEvent {event : Events} {ss : SharedState}
    (h : onEvent m.sharedState m.state event = .ok (commands, st, ss)) :
    handle m event = .ok (commands.flatMap (adaptResponse ss), ⟨st, ss⟩) := by
  unfold handle
  rw [h]
  rfl

/-! ## What a marker keeps of a result -/

/-- Lang is told something else after the marker. -/
def ResolveDat.isLossy (dat : ResolveDat) : Bool :=
  dat.backoff.isNone &&
    match dat.result with
    | .completed r => r.isNone
    | .failed (some f) => isCancellation f
    | .timedOut (some (.mk message info cause)) => isTimeoutFailureInfo info || isCancellation (.mk message info cause)
    | .cancelled (some f) => !isCancellation f
    | .failed none | .timedOut none | .cancelled none => true

/-- A missing failure makes the marker look like a success. -/
def ExecutionResult.isMute : ExecutionResult → Bool
  | .failed none | .timedOut none => true
  | _ => false

/-- The result as it is read from its marker. -/
def ResolveDat.reread (ss : SharedState) (dat : ResolveDat) : ResolveDat :=
  .ofMarker (intoLocalActivityMarkerDetails (recordMarker ss dat))

theorem resolution_reread (ss : SharedState) (dat : ResolveDat) :
    resolution ss (dat.reread ss) = resolution ss dat ↔ dat.isLossy = false := by
  obtain ⟨result, completeTime, attempt, backoff, originalScheduleTime, activationIndex⟩ := dat
  cases backoff with
  | some b => exact iff_of_true rfl rfl
  | none =>
    cases result with
    | completed r =>
      cases r with
      | none => exact iff_of_false nofun nofun
      | some r => exact iff_of_true rfl rfl
    | failed f | cancelled f =>
      cases f with
      | none => exact iff_of_false nofun nofun
      | some f =>
        simp only [ResolveDat.reread, ResolveDat.ofMarker, intoLocalActivityMarkerDetails, recordMarker, resolution,
          ExecutionResult.okResult, ExecutionResult.failure, ResolveDat.isLossy, Option.isNone_none, Bool.true_and]
        cases isCancellation f <;> simp
    | timedOut f =>
      cases f with
      | none => exact iff_of_false nofun nofun
      | some f =>
        obtain ⟨message, info, cause⟩ := f
        simp only [ResolveDat.reread, ResolveDat.ofMarker, intoLocalActivityMarkerDetails, recordMarker, resolution,
          ExecutionResult.okResult, ExecutionResult.failure, ResolveDat.isLossy, Option.isNone_none, Bool.true_and,
          wrapFail]
        cases hc : isCancellation (.mk message info cause) with
        | true => simp
        | false =>
          cases ht : isTimeoutFailureInfo info with
          | false => simp
          | true =>
            -- the failure that lang was told has another kind of info
            simp only [if_true, Bool.false_eq_true, if_false, Bool.or_false, iff_false, reduceCtorEq]
            rintro h
            injection h with h
            injection h with h
            injection h with _ h
            rw [h] at ht
            cases ht

/-! ## An activity that is executed -/

/-- The machine, and the marker that it wants recorded. -/
structure Session where
  machine : LocalActivityMachine
  marker : Option RecordMarker

inductive LiveInput
  | result (outcome : Outcome)
  | prepare
  | recorded
  | cancel (activationIndex : Nat)

def Session.start (attrs : Attrs) (wfTime : Option Nat) (checks : Bool → Bool) (now : Nat) : Session :=
  ⟨(newLocalActivity attrs false wfTime checks now).1, none⟩

/-- What the machine is given. Nothing is recorded before there is a marker. -/
def Session.input (s : Session) : LiveInput → Option Input
  | .result outcome => some (.result outcome)
  | .prepare => some .prepare
  | .recorded => s.marker.map fun marker => .recorded (intoLocalActivityMarkerDetails marker)
  | .cancel activationIndex => some (.cancel activationIndex)

def Session.take (s : Session) (live : LiveInput) : Except TransitionError (List Response × Session) :=
  match s.input live with
  | none => .ok ([], s)
  | some input => (s.machine.take input).map fun (out, m) => (out, ⟨m, (markers out).head? <|> s.marker⟩)

inductive Stage
  | executing
  /-- Lang has the result, which the marker may not show to be a failure. -/
  | resolved (mute : Bool)
  | prepared (mute : Bool)
  | recorded
  deriving DecidableEq

structure Phase where
  stage : Stage
  cancelled : Bool
  deriving DecidableEq

def isNoWait (t : ActivityCancellationType) : Bool := t ≠ .waitCancellationCompleted

/-- What may follow. A result may come late after a cancellation without waiting. -/
def Phase.next (attrs : Attrs) (phase : Phase) : LiveInput → Option Phase
  | .result outcome =>
    if phase.stage = .executing then some { phase with stage := .resolved outcome.result.isMute }
    else if phase.cancelled && isNoWait attrs.cancellationType then some phase
    else none
  | .prepare =>
    match phase.stage with
    | .resolved mute => some { phase with stage := .prepared mute }
    | _ => none
  | .recorded =>
    match phase.stage with
    | .prepared _ => some { phase with stage := .recorded }
    | _ => none
  | .cancel _ =>
    if phase.cancelled then none
    else if phase.stage = .executing && isNoWait attrs.cancellationType then some ⟨.resolved false, true⟩
    else some { phase with cancelled := true }

def Outcome.dat (ss : SharedState) (o : Outcome) : ResolveDat where
  result := o.result
  completeTime := ss.wfTimeWhenStarted.map (· + o.runtime)
  attempt := o.attempt
  backoff := o.backoff
  originalScheduleTime := o.originalScheduleTime
  activationIndex := some o.activationIndex

/-- This does not depend on times. -/
def Outcome.isLossy (o : Outcome) : Bool :=
  ResolveDat.isLossy ⟨o.result, none, o.attempt, o.backoff, o.originalScheduleTime, none⟩

def Phase.wrong (phase : Phase) : LiveInput → Bool
  | .result outcome => phase.stage = .executing && outcome.isLossy
  | .cancel _ =>
    match phase.stage with
    | .resolved _ | .prepared _ => true
    | _ => false
  | .recorded => phase.stage = .prepared true
  | .prepare => false

def jobOf (ss : SharedState) (dat : ResolveDat) : ResolveActivity :=
  { seq := ss.attrs.seq, status := resolution ss dat, isLocal := true }

theorem jobs_adaptResponse_resolved (ss : SharedState) (dat : ResolveDat) :
    jobs (adaptResponse ss (.resolved dat)) = [jobOf ss dat] := by
  rw [adaptResponse, jobs_append]
  split <;> split <;> rfl

theorem markers_adaptResponse_resolved {ss : SharedState} (h : ss.replayingWhenInvoked = false) (dat : ResolveDat) :
    markers (adaptResponse ss (.resolved dat)) = [recordMarker ss dat] := by
  rw [adaptResponse, h, markers_append]
  split <;> rfl

/-- One job, and one marker that says the same. -/
structure Told (ss : SharedState) (mute : Bool) (resultType : ResultType) (marker : Option RecordMarker)
    (out : List Response) : Prop where
  dat : ∃ dat : ResolveDat, jobs out = [jobOf ss dat] ∧ markers out = [recordMarker ss dat] ∧
    marker = some (recordMarker ss dat) ∧ dat.isLossy = false ∧ dat.result.isMute = mute ∧ .of dat.result = resultType

/-- The machine and what has come out, in each stage. -/
inductive Tracks (ss : SharedState) : Stage → Session → List Response → Prop
  | executing {out} (hj : jobs out = []) (hm : markers out = []) : Tracks ss .executing ⟨⟨.requestSent, ss⟩, none⟩ out
  | resolved {mute resultType marker out} (h : Told ss mute resultType marker out) :
    Tracks ss (.resolved mute) ⟨⟨.markerCommandCreated resultType, ss⟩, marker⟩ out
  | prepared {mute resultType marker out} (h : Told ss mute resultType marker out) :
    Tracks ss (.prepared mute) ⟨⟨.resultNotified resultType, ss⟩, marker⟩ out
  | recorded {mute resultType marker out} (h : Told ss mute resultType marker out) :
    Tracks ss .recorded ⟨⟨.markerCommandRecorded, ss⟩, marker⟩ out

variable {ss : SharedState}

structure MarkerData.Names (data : MarkerData) (attrs : Attrs) : Prop where
  seq : data.seq = attrs.seq
  activityId : data.activityId = attrs.activityId
  activityType : data.activityType = attrs.activityType

theorem verified_of_names (h : d.markerDat.Names ss.attrs) : verified ss d = .ok ([], .markerCommandRecorded, ss) := by
  unfold verified verifyMarkerDataMatches
  rw [if_neg (not_not_intro h.seq.symm), if_neg (by simp [h.activityId]), if_neg (by simp [h.activityType])]
  rfl

theorem onMarkerRecorded_recordMarker {dat : ResolveDat} (h : dat.result.isMute = false) :
    onMarkerRecorded ss (.of dat.result) (intoLocalActivityMarkerDetails (recordMarker ss dat)) =
      .ok ([], .markerCommandRecorded, ss) := by
  have hv : verified ss (intoLocalActivityMarkerDetails (recordMarker ss dat)) = .ok ([], .markerCommandRecorded, ss) :=
    verified_of_names ⟨rfl, rfl, rfl⟩
  obtain ⟨result, completeTime, attempt, backoff, originalScheduleTime, activationIndex⟩ := dat
  cases result with
  | completed r => cases r <;> exact hv
  | failed f | timedOut f =>
    cases f with
    | none => cases h
    | some f => exact hv
  | cancelled f => exact hv

/-- The marker of a missing failure is rejected. -/
theorem onMarkerRecorded_mute (ss : SharedState) {dat : ResolveDat} (h : dat.result.isMute = true) :
    ∃ message, onMarkerRecorded ss (.of dat.result) (intoLocalActivityMarkerDetails (recordMarker ss dat)) =
      .error (.nondeterminism message) := by
  obtain ⟨result, completeTime, attempt, backoff, originalScheduleTime, activationIndex⟩ := dat
  cases result with
  | completed | cancelled => cases h
  | failed f | timedOut f =>
    cases f with
    | none => exact ⟨_, rfl⟩
    | some f => cases h

theorem cancel_of_onEvent {ss : SharedState} (i : Nat)
    (h : onEvent m.sharedState m.state (cancelEvent m.sharedState.attrs.cancellationType) = .ok (commands, st, ss)) :
    cancel m i = .ok (commands.flatMap (adaptResponse ss <| withActivationIndex i ·), ⟨st, ss⟩) := by
  unfold cancel
  rw [h]
  rfl

theorem Session.take_of_input {s : Session} {live : LiveInput} {input : Input} {out : List Response}
    (hi : s.input live = some input) (h : s.machine.take input = .ok (out, m)) :
    s.take live = .ok (out, ⟨m, (markers out).head? <|> s.marker⟩) := by
  unfold Session.take
  rw [hi]
  simp only [h]
  rfl

theorem Tracks.resolve {out : List Response} {dat : ResolveDat} (hj : jobs out = []) (hm : markers out = [])
    (hoj : jobs o = [jobOf ss dat]) (hom : markers o = [recordMarker ss dat]) (hl : dat.isLossy = false) :
    Tracks ss (.resolved dat.result.isMute)
      ⟨⟨.markerCommandCreated (.of dat.result), ss⟩, some (recordMarker ss dat)⟩ (out ++ o) := by
  refine .resolved ⟨dat, ?_, ?_, rfl, hl, rfl, rfl⟩
  · rw [jobs_append, hj, hoj, List.nil_append]
  · rw [markers_append, hm, hom, List.nil_append]

theorem Session.take_of_error {s : Session} {live : LiveInput} {input : Input} {e : TransitionError}
    (hi : s.input live = some input) (h : s.machine.take input = .error e) : s.take live = .error e := by
  unfold Session.take
  rw [hi]
  simp only [h]
  rfl

theorem Session.take_result (hr : ss.replayingWhenInvoked = false) (o : Outcome) :
    Session.take ⟨⟨.requestSent, ss⟩, none⟩ (.result o) = .ok (adaptResponse ss (.resolved (o.dat ss)),
      ⟨⟨.markerCommandCreated (.of o.result), ss⟩, some (recordMarker ss (o.dat ss))⟩) := by
  have htake : LocalActivityMachine.take ⟨.requestSent, ss⟩ (.result o) =
      .ok (adaptResponse ss (.resolved (o.dat ss)) ++ [], ⟨.markerCommandCreated (.of o.result), ss⟩) := rfl
  rw [List.append_nil] at htake
  rw [Session.take_of_input rfl htake, markers_adaptResponse_resolved hr]
  rfl

theorem cancel_rejected (ss : SharedState)
    (hst : st = .markerCommandCreated resultType ∨ st = .resultNotified resultType) (i : Nat) :
    cancel ⟨st, ss⟩ i = .error .invalidTransition := by
  unfold cancel
  obtain rfl | rfl := hst <;> cases ss.attrs.cancellationType <;> rfl

theorem Session.take_quiet {s : Session} {live : LiveInput} {input : Input} {out : List Response} {stage : Stage}
    (hi : s.input live = some input) (h : s.machine.take input = .ok (o, ⟨st, ss⟩)) (hm : markers o = [])
    (ht : Tracks ss stage ⟨⟨st, ss⟩, s.marker⟩ (out ++ o)) : Advances Session.take (Tracks ss stage) s live out := by
  refine ⟨o, ⟨⟨st, ss⟩, s.marker⟩, ?_, ht⟩
  rw [Session.take_of_input hi h, hm]
  rfl

theorem Told.append {mute : Bool} {marker : Option RecordMarker} {out : List Response}
    (h : Told ss mute resultType marker out) (hj : jobs o = []) (hm : markers o = []) :
    Told ss mute resultType marker (out ++ o) := by
  obtain ⟨dat, h₁, h₂, h₃⟩ := h
  exact ⟨dat, by rw [jobs_append, h₁, hj, List.append_nil], by rw [markers_append, h₂, hm, List.append_nil], h₃⟩

theorem cancel_noWait (hr : ss.replayingWhenInvoked = false) (hc : isNoWait ss.attrs.cancellationType = true)
    (i : Nat) :
    ∃ o dat, cancel ⟨.requestSent, ss⟩ i = .ok (o, ⟨.markerCommandCreated (.of dat.result), ss⟩) ∧
      jobs o = [jobOf ss dat] ∧ markers o = [recordMarker ss dat] ∧ dat.isLossy = false ∧
      dat.result.isMute = false := by
  let dat : ResolveDat := { produceNoWaitCancelResolveDat ss with activationIndex := some i }
  cases ht : ss.attrs.cancellationType with
  | waitCancellationCompleted =>
    rw [ht] at hc
    cases hc
  | tryCancel =>
    refine ⟨_, dat, cancel_of_onEvent i (by rw [ht]; rfl), ?_, ?_, rfl, rfl⟩
    · show jobs ([.requestCancelLocalActivity ss.attrs.seq] ++ (adaptResponse ss (.resolved dat) ++ [])) = _
      rw [List.append_nil, jobs_append, jobs_adaptResponse_resolved]
      rfl
    · show markers ([.requestCancelLocalActivity ss.attrs.seq] ++ (adaptResponse ss (.resolved dat) ++ [])) = _
      rw [List.append_nil, markers_append, markers_adaptResponse_resolved hr]
      rfl
  | abandon =>
    refine ⟨_, dat, cancel_of_onEvent i (by rw [ht]; rfl), ?_, ?_, rfl, rfl⟩
    · show jobs (adaptResponse ss (.resolved dat) ++ []) = _
      rw [List.append_nil, jobs_adaptResponse_resolved]
    · show markers (adaptResponse ss (.resolved dat) ++ []) = _
      rw [List.append_nil, markers_adaptResponse_resolved hr]

theorem cancel_recorded (ss : SharedState) (i : Nat) :
    ∃ o, cancel ⟨.markerCommandRecorded, ss⟩ i = .ok (o, ⟨.markerCommandRecorded, ss⟩) ∧ jobs o = [] ∧
      markers o = [] := by
  cases ht : ss.attrs.cancellationType with
  | _ =>
    exact ⟨_, cancel_of_onEvent i (by rw [ht]; rfl), rfl, rfl⟩

variable {attrs : Attrs} {phase phase' : Phase} {s : Session} {out : List Response} {live : LiveInput}

/-- An input that does not go wrong is handled. -/
theorem Session.take_tracks (hc : ss.attrs.cancellationType = attrs.cancellationType)
    (hr : ss.replayingWhenInvoked = false) (h : Tracks ss phase.stage s out) (hn : phase.next attrs live = some phase')
    (hw : phase.wrong live = false) : Advances Session.take (Tracks ss phase'.stage) s live out := by
  obtain ⟨stage, cancelled⟩ := phase
  cases live with
  | result o =>
    cases h with
    | executing hj hm =>
      cases hn
      have hl : (o.dat ss).isLossy = false := hw
      exact ⟨_, _, Session.take_result hr o, Tracks.resolve hj hm (jobs_adaptResponse_resolved ss _)
        (markers_adaptResponse_resolved hr _) hl⟩
    | resolved h | prepared h | recorded h =>
      simp only [Phase.next, reduceCtorEq, if_false, Option.ite_none_right_eq_some] at hn
      obtain ⟨-, ⟨⟩⟩ := hn
      refine Session.take_quiet rfl rfl rfl ?_
      constructor
      exact h.append rfl rfl
  | prepare =>
    cases h with
    | resolved h =>
      cases hn
      exact Session.take_quiet rfl rfl rfl (.prepared (h.append rfl rfl))
    | _ => cases hn
  | recorded =>
    cases h with
    | prepared h =>
      cases hn
      obtain ⟨dat, h₁, h₂, rfl, h₄, rfl, rfl⟩ := h
      have hmute : dat.result.isMute = false := by simpa [Phase.wrong] using hw
      have hon : onEvent ss (.resultNotified (.of dat.result))
          (.markerRecorded (intoLocalActivityMarkerDetails (recordMarker ss dat))) =
            .ok ([], .markerCommandRecorded, ss) :=
        onMarkerRecorded_recordMarker hmute
      have hhandle := handle_of_onEvent (m := ⟨.resultNotified (.of dat.result), ss⟩) hon
      have htold : Told ss dat.result.isMute (.of dat.result) (some (recordMarker ss dat)) (out ++ []) :=
        Told.append ⟨dat, h₁, h₂, rfl, h₄, rfl, rfl⟩ rfl rfl
      exact Session.take_quiet rfl hhandle rfl (.recorded htold)
    | _ => cases hn
  | cancel i =>
    cases cancelled with
    | true => cases hn
    | false =>
      cases h with
      | executing hj hm =>
        cases hnw : isNoWait attrs.cancellationType with
        | true =>
          simp only [Phase.next, hnw] at hn
          cases hn
          obtain ⟨o, dat, hcancel, hoj, hom, hl, hmute⟩ := cancel_noWait hr (hc ▸ hnw) i
          refine ⟨_, _, Session.take_of_input rfl hcancel, ?_⟩
          have ht := Tracks.resolve hj hm hoj hom hl
          rw [hmute] at ht
          rwa [hom]
        | false =>
          simp only [Phase.next, hnw] at hn
          cases hn
          have hwait : ss.attrs.cancellationType = .waitCancellationCompleted := by
            rw [hc]
            simpa [isNoWait] using hnw
          have hcancel : cancel ⟨.requestSent, ss⟩ i =
              .ok ([.requestCancelLocalActivity ss.attrs.seq], ⟨.requestSent, ss⟩) := by
            unfold cancel
            rw [hwait]
            rfl
          refine Session.take_quiet rfl hcancel rfl (.executing ?_ ?_)
          · rw [jobs_append, hj]
            rfl
          · rw [markers_append, hm]
            rfl
      | resolved | prepared => cases hw
      | recorded h =>
        cases hn
        obtain ⟨o, hcancel, hj, hm⟩ := cancel_recorded ss i
        exact Session.take_quiet rfl hcancel hm (.recorded (h.append hj hm))

/-- Job and marker say the same. -/
def Faithful (ss : SharedState) (out : List Response) : Prop :=
  ∀ job ∈ jobs out, ∀ marker ∈ markers out, marker.data.Names ss.attrs →
    job = jobOf ss (.ofMarker (intoLocalActivityMarkerDetails marker))

theorem Faithful.of_append {a b : List Response} (h : Faithful ss (a ++ b)) : Faithful ss a := by
  intro job hj marker hm
  refine h job ?_ marker ?_
  · rw [jobs_append]
    exact List.mem_append_left _ hj
  · rw [markers_append]
    exact List.mem_append_left _ hm

/-- Others are rejected, or job and marker differ. -/
theorem Session.take_wrong {t : Session} (hr : ss.replayingWhenInvoked = false) (h : Tracks ss phase.stage s out)
    (hw : phase.wrong live = true) (ht : s.take live = .ok (o, t)) : ¬ Faithful ss (out ++ o) := by
  obtain ⟨stage, cancelled⟩ := phase
  cases h with
  | executing hj hm =>
    cases live with
    | result outcome =>
      have hl : (outcome.dat ss).isLossy = true := hw
      rw [Session.take_result hr] at ht
      cases ht
      intro hf
      have heq := hf (jobOf ss (outcome.dat ss))
        (by rw [jobs_append, jobs_adaptResponse_resolved]; exact List.mem_append_right _ (List.mem_singleton_self _))
        (recordMarker ss (outcome.dat ss))
        (by rw [markers_append, markers_adaptResponse_resolved hr]
            exact List.mem_append_right _ (List.mem_singleton_self _)) ⟨rfl, rfl, rfl⟩
      injection heq with _ heq
      rw [(resolution_reread ss (outcome.dat ss)).mp heq.symm] at hl
      cases hl
    | _ => cases hw
  | resolved h =>
    cases live with
    | cancel i =>
      cases ht.symm.trans (Session.take_of_error rfl (cancel_rejected ss (.inl rfl) i))
    | _ => cases hw
  | prepared h =>
    cases live with
    | cancel i =>
      cases ht.symm.trans (Session.take_of_error rfl (cancel_rejected ss (.inr rfl) i))
    | recorded =>
      obtain ⟨dat, -, -, rfl, -, rfl, rfl⟩ := h
      have hmute : dat.result.isMute = true := by simpa [Phase.wrong] using hw
      obtain ⟨message, hon⟩ := onMarkerRecorded_mute ss hmute
      have hhandle : handle ⟨.resultNotified (.of dat.result), ss⟩
          (.markerRecorded (intoLocalActivityMarkerDetails (recordMarker ss dat))) =
            .error (.nondeterminism message) := by
        show (do let r ← onMarkerRecorded ss _ _; pure _) = _
        rw [hon]
        rfl
      cases ht.symm.trans (Session.take_of_error rfl hhandle)
    | _ => cases hw
  | recorded h => cases live <;> cases hw

/-! ## The replay -/

def isCancel : LiveInput → Bool
  | .cancel _ => true
  | _ => false

def isRecorded : LiveInput → Bool
  | .recorded => true
  | _ => false

/-- The inputs of a replay. The marker is found by looking ahead, and a cancellation may come before its event. -/
def replays (script : List LiveInput) (d : CompleteData) (i : Nat) : List (List Input) :=
  if !script.any isCancel then [[.marker d, .recorded d]]
  else if (script.takeWhile (!isRecorded ·)).any isCancel then
    [[.cancel i, .marker d, .recorded d], [.marker d, .cancel i, .recorded d]]
  else [[.marker d, .recorded d, .cancel i]]

theorem replays_ne_nil (script : List LiveInput) (d : CompleteData) (i : Nat) : replays script d i ≠ [] := by
  unfold replays
  split
  · nofun
  · split <;> nofun

theorem cancel_waiting (ss : SharedState) (i : Nat)
    (hst : st = .waitingResolveFromMarkerLookAhead ∨ st = .resolvedFromMarkerLookAheadWaitingMarkerEvent) :
    cancel ⟨st, ss⟩ i = .ok ([.requestCancelLocalActivity ss.attrs.seq], ⟨st, ss⟩) := by
  unfold cancel
  obtain rfl | rfl := hst <;> cases ss.attrs.cancellationType <;> rfl

theorem take_marker (ss : SharedState) (d : CompleteData) :
    take ⟨.waitingResolveFromMarkerLookAhead, ss⟩ (.marker d) =
      .ok (adaptResponse ss (.resolved (.ofMarker d)), ⟨.resolvedFromMarkerLookAheadWaitingMarkerEvent, ss⟩) := by
  have h : take ⟨.waitingResolveFromMarkerLookAhead, ss⟩ (.marker d) =
      .ok (adaptResponse ss (.resolved (.ofMarker d)) ++ [],
        ⟨.resolvedFromMarkerLookAheadWaitingMarkerEvent, ss⟩) := rfl
  rwa [List.append_nil] at h

theorem take_recorded (hv : verified ss d = .ok ([], .markerCommandRecorded, ss)) :
    take ⟨.resolvedFromMarkerLookAheadWaitingMarkerEvent, ss⟩ (.recorded d) =
      .ok ([], ⟨.markerCommandRecorded, ss⟩) := by
  have hon : onEvent ss .resolvedFromMarkerLookAheadWaitingMarkerEvent (.markerRecorded d) =
      .ok ([], .markerCommandRecorded, ss) := hv
  exact handle_of_onEvent (m := ⟨.resolvedFromMarkerLookAheadWaitingMarkerEvent, ss⟩) hon

/-- What lang is told in a replay. -/
theorem replays_told (ss : SharedState) (hd : d.markerDat.Names ss.attrs) {script : List LiveInput} {i : Nat}
    {replay : List Input} (h : replay ∈ replays script d i) :
    ∃ out m, feed take ⟨.waitingResolveFromMarkerLookAhead, ss⟩ replay = .ok (out, m) ∧
      jobs out = [jobOf ss (.ofMarker d)] := by
  have hjob := jobs_adaptResponse_resolved ss (.ofMarker d)
  have hv := verified_of_names hd
  unfold replays at h
  split at h
  · rw [List.mem_singleton] at h
    subst h
    refine ⟨_, _, feed_cons (take_marker ss d) (feed_cons (take_recorded hv) rfl), ?_⟩
    rw [jobs_append, hjob]
    rfl
  · split at h
    · rw [List.mem_cons, List.mem_singleton] at h
      obtain rfl | rfl := h
      · refine ⟨_, _, feed_cons (cancel_waiting ss i (.inl rfl)) (feed_cons (take_marker ss d)
          (feed_cons (take_recorded hv) rfl)), ?_⟩
        rw [jobs_append, jobs_append, hjob]
        rfl
      · refine ⟨_, _, feed_cons (take_marker ss d) (feed_cons (cancel_waiting ss i (.inr rfl))
          (feed_cons (take_recorded hv) rfl)), ?_⟩
        rw [jobs_append, hjob]
        rfl
    · rw [List.mem_singleton] at h
      subst h
      obtain ⟨o, hcancel, hj, -⟩ := cancel_recorded ss i
      refine ⟨_, _, feed_cons (take_marker ss d) (feed_cons (take_recorded hv) (feed_cons hcancel rfl)), ?_⟩
      rw [jobs_append, jobs_append, jobs_append, hjob, hj]
      rfl

/-- **Lang is told the same in the replay exactly if nothing goes wrong**: the marker keeps the result
(`Outcome.isLossy`), a failure is not missing, and lang does not cancel between result and marker event. -/
theorem replayed_alike_iff (attrs : Attrs) (wfTime wfTime' : Option Nat) (checks checks' : Bool → Bool)
    (now now' i : Nat)
    (script : List LiveInput) (cancelled : Bool)
    (h : script.foldlM (Phase.next attrs) ⟨.executing, false⟩ = some ⟨.recorded, cancelled⟩) :
    (∃ out s job marker, feed Session.take (.start attrs wfTime checks now) script = .ok (out, s) ∧
        jobs out = [job] ∧ markers out = [marker] ∧
        ∀ replay ∈ replays script (intoLocalActivityMarkerDetails marker) i,
          ∃ out' m, feed take (newLocalActivity attrs true wfTime' checks' now').1 replay = .ok (out', m) ∧
            jobs out' = [job]) ↔
      avoids (Phase.next attrs) Phase.wrong ⟨.executing, false⟩ script = true := by
  let live : SharedState := (newLocalActivity attrs false wfTime checks now).1.sharedState
  let replayed : SharedState := (newLocalActivity attrs true wfTime' checks' now').1.sharedState
  have hsame : ∀ dat, jobOf replayed dat = jobOf live dat := fun _ => rfl
  have hstep : ∀ (k k' : Phase) (s : Session) (out : List Response) (input : LiveInput), Tracks live k.stage s out →
      k.next attrs input = some k' → k.wrong input = false → Advances Session.take (Tracks live k'.stage) s input out :=
    fun _ _ _ _ _ h hn hw => Session.take_tracks rfl rfl h hn hw
  have hinit : Tracks live .executing (.start attrs wfTime checks now) [] := .executing rfl rfl
  constructor
  · rintro ⟨out, s, job, marker, hfeed, hjobs, hmarkers, hreplay⟩
    refine avoids_of_feed (fun _ _ h => h.of_append) hstep
      (fun _ _ _ _ _ h _ hw _ _ ht => Session.take_wrong rfl h hw ht) script ⟨.executing, false⟩ _ s [] out hinit
      (follows_iff.mpr ⟨_, h⟩) hfeed ?_
    intro job' hjob' marker' hmarker' hnames
    rw [List.nil_append, hjobs, List.mem_singleton] at hjob'
    rw [List.nil_append, hmarkers, List.mem_singleton] at hmarker'
    subst hjob' hmarker'
    obtain ⟨replay, hmem⟩ := List.exists_mem_of_ne_nil _ (replays_ne_nil script _ i)
    obtain ⟨out', m, hfeed', hjobs'⟩ := hreplay replay hmem
    obtain ⟨out'', m', hfeed'', hjobs''⟩ :=
      replays_told replayed ⟨hnames.seq, hnames.activityId, hnames.activityType⟩ hmem
    cases hfeed'.symm.trans hfeed''
    rw [hjobs'] at hjobs''
    exact (List.singleton_inj.mp hjobs'').trans (hsame _)
  · intro ha
    obtain ⟨out, s, hfeed, ht⟩ := feed_of_avoids hstep script _ _ _ [] hinit h ha
    cases ht with
    | recorded ht =>
      obtain ⟨dat, hj, hm, -, hl, -, -⟩ := ht
      refine ⟨out, _, jobOf live dat, recordMarker live dat, hfeed, hj, hm, fun replay hmem => ?_⟩
      obtain ⟨out', m, hfeed', hjobs⟩ := replays_told replayed ⟨rfl, rfl, rfl⟩ hmem
      refine ⟨out', m, hfeed', ?_⟩
      have hjob : jobOf live (dat.reread live) = jobOf live dat := by
        rw [jobOf, (resolution_reread live dat).mpr hl]
        rfl
      rw [hjobs, ← hjob]
      rfl

def aLocalActivity (cancellationType : ActivityCancellationType) : Attrs :=
  { seq := 1, activityId := "id", activityType := "type", attempt := 1, originalScheduleTime := none, arguments := []
    cancellationType, includeArgumentsInMarker := false }

def timedOutResult : Outcome where
  result := .timedOut (some (.mk "Activity timed out" (some (.timeoutFailureInfo .startToClose)) none))
  runtime := 5
  attempt := 1
  backoff := none
  originalScheduleTime := none
  activationIndex := 1

def completedResult : Outcome := { timedOutResult with result := .completed (some 7) }

/-- Lang is told of a wrapped timeout at first, and of the bare timeout in the replay. -/
theorem timeout_replayed_unlike :
    [LiveInput.result timedOutResult, .prepare, .recorded].foldlM (Phase.next (aLocalActivity .tryCancel))
        ⟨.executing, false⟩ = some ⟨.recorded, false⟩ ∧
      ∃ out s job marker,
        feed Session.take (.start (aLocalActivity .tryCancel) none (fun _ => true) 0)
          [.result timedOutResult, .prepare, .recorded] = .ok (out, s) ∧
        jobs out = [job] ∧ markers out = [marker] ∧
        ∃ out' m job', feed take (newLocalActivity (aLocalActivity .tryCancel) true none (fun _ => true) 0).1
            [.marker (intoLocalActivityMarkerDetails marker), .recorded (intoLocalActivityMarkerDetails marker)] =
              .ok (out', m) ∧
          jobs out' = [job'] ∧ job.status ≠ job'.status := by
  refine ⟨by decide +kernel, _, _, _, _, rfl, rfl, rfl, _, _, _, rfl, rfl, fun h => ?_⟩
  injection h with h
  injection h with h
  injection h with h
  exact absurd h (by decide)

theorem replayed_alike_completed : ∃ out s job marker,
    feed Session.take (.start (aLocalActivity .tryCancel) none (fun _ => true) 0)
      [.result completedResult, .prepare, .recorded, .cancel 2] = .ok (out, s) ∧
      jobs out = [job] ∧ markers out = [marker] ∧
      ∀ replay ∈ replays [.result completedResult, .prepare, .recorded, .cancel 2]
          (intoLocalActivityMarkerDetails marker) 2,
        ∃ out' m, feed take (newLocalActivity (aLocalActivity .tryCancel) true none (fun _ => true) 0).1 replay =
          .ok (out', m) ∧ jobs out' = [job] :=
  (replayed_alike_iff (aLocalActivity .tryCancel) none none (fun _ => true) (fun _ => true) 0 0 2 _ true
    (by decide +kernel)).mpr (by decide +kernel)

end SdkCore.LocalActivityMachine
