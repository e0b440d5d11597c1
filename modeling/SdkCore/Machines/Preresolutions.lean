import SdkCore.Lib.Feed
import SdkCore.Lib.Tickets
import SdkCore.Machines.LocalActs

/-!
# Resolutions of local activities in their recorded activations

Resolutions found by looking ahead are a queue of numbered markers (`LocalActs.tickets`), and calls only move it
(`markers_applied_in_order`). The release goes on after its first resolution.
-/

namespace SdkCore

open LocalActivityMachine Op LocalActivityData

/-- A held marker is applied by the release only, which began without jobs. -/
def AppliedMarker.Lawful (a : AppliedMarker) : Prop :=
  a.held = true → a.appliedBy = .idleRelease ∧ a.pendingBefore = false

namespace LocalActs

def tickets (s : LocalActs) : Tickets where
  waiting := s.data.preresolutions.map (·.index)
  next := s.inserted
  taken := s.applied.map fun a => (a.index, decide (a.appliedBy = .cancel))

/-- Moves of the queue, with lawful applications. -/
structure Evolves (s s' : LocalActs) : Prop where
  moves : Relation.ReflTransGen Tickets.Move s.tickets s'.tickets
  applied : ∃ new, s'.applied = s.applied ++ new ∧ ∀ a ∈ new, a.Lawful

section

variable {s s' : LocalActs}

instance : Std.Refl Evolves := ⟨fun s => ⟨.refl, [], by simp, nofun⟩⟩

instance : IsTrans LocalActs Evolves where
  trans s₁ s₂ s₃ h h' := by
    obtain ⟨new, hnew, hlawful⟩ := h.applied
    obtain ⟨new', hnew', hlawful'⟩ := h'.applied
    refine ⟨h.moves.trans h'.moves, new ++ new', by rw [hnew', hnew, List.append_assoc], fun a ha => ?_⟩
    rcases List.mem_append.mp ha with ha | ha
    · exact hlawful a ha
    · exact hlawful' a ha

theorem Evolves.of_eq (hq : s'.data.preresolutions = s.data.preresolutions) (hi : s'.inserted = s.inserted)
    (ha : s'.applied = s.applied) : Evolves s s' := by
  have ht : s'.tickets = s.tickets := by rw [tickets, tickets, hq, hi, ha]
  exact ⟨ht ▸ .refl, [], by rw [ha, List.append_nil], nofun⟩

abbrev Turns {α : Type} (x : LaOp α) : Prop := Moves Evolves (fun _ => True) x

theorem turns_modify {f : LocalActs → LocalActs} (h : ∀ s, Evolves s (f s)) : Turns (modify f) := Moves.modify h

variable {α : Type} {pendingBefore : Bool} {d : LocalActivityData} {seq : Nat}

theorem turns_get {f : LocalActs → LaOp α} (h : ∀ s, Evolves s (exec (f s) s).2) : Turns (get >>= f) :=
  Moves.get fun s => ⟨h s, fun _ _ => trivial⟩

theorem turns_pure (a : α) : Turns (pure a) := Moves.pure a

theorem processResponse_same (response : Response) :
    (s.processResponse response).data.preresolutions = s.data.preresolutions ∧
      (s.processResponse response).inserted = s.inserted ∧ (s.processResponse response).applied = s.applied := by
  cases response with
  | updateWFTime time =>
    cases time with
    | none => exact ⟨rfl, rfl, rfl⟩
    | some time =>
      rw [processResponse, setCurrentTime]
      split <;> exact ⟨rfl, rfl, rfl⟩
  | _ => exact ⟨rfl, rfl, rfl⟩

theorem processResponse_evolves (response : Response) : Evolves s (s.processResponse response) :=
  have h := processResponse_same (s := s) response
  .of_eq h.1 h.2.1 h.2.2

theorem foldl_processResponse_evolves (responses : List Response) : Evolves s (responses.foldl processResponse s) := by
  induction responses generalizing s with
  | nil => exact refl s
  | cons response responses ih => exact IsTrans.trans _ _ _ (processResponse_evolves response) ih

section

variable (seq : Nat) (f : LocalActivityMachine → Except TransitionError (List Response × LocalActivityMachine))

theorem onMachine_turns : Turns (onMachine seq f) := by
  refine turns_get fun s => ?_
  split
  · exact refl s
  · split
    · exact refl s
    · next responses m' hf => exact .of_eq rfl rfl rfl

theorem resolveMachine_turns : Turns (resolveMachine seq f) :=
  (onMachine_turns seq f).bind fun responses => turns_modify fun _ => foldl_processResponse_evolves responses

end

/-! ## Applications -/

variable {item : LocalActivityData.Preresolution} {data : LocalActivityData} {includeHeld : Bool}

theorem applyPreresolution_evolves {appliedBy : AppliedBy} (hmove : Tickets.Move s.tickets
      ⟨data.preresolutions.map (·.index), s.inserted, s.tickets.taken ++ [(item.index, decide (appliedBy = .cancel))]⟩)
    (hlawful : data.isHeld item = true → appliedBy = .idleRelease ∧ pendingBefore = false) :
    Evolves s (exec (applyPreresolution item data appliedBy pendingBefore) s).2 := by
  refine IsTrans.trans _ _ _ ⟨.single ?_, ?_⟩ (resolveMachine_turns _ _ _).1
  · simpa [tickets] using hmove
  · refine ⟨_, rfl, fun a ha => ?_⟩
    cases List.mem_singleton.mp ha
    exact hlawful

/-- Peeking takes the front. -/
theorem takePreresolution_front (hpeek : d.peekPreresolutionSeq includeHeld = some seq)
    (htake : d.takePreresolution seq = some (item, data)) :
    d.preresolutions = item :: data.preresolutions ∧ data.activationIndex = d.activationIndex ∧
      (d.isHeld item = true → includeHeld = true) := by
  unfold peekPreresolutionSeq at hpeek
  unfold takePreresolution at htake
  cases hq : d.preresolutions with
  | nil =>
    rw [hq] at hpeek
    cases hpeek
  | cons item' rest =>
    simp only [hq] at hpeek htake
    split at hpeek
    · cases hpeek
    · next hheld =>
      cases hpeek
      simp only [List.find?_cons, decide_true, Option.map_some, List.eraseP_cons, cond_true] at htake
      cases htake
      refine ⟨rfl, rfl, fun h => ?_⟩
      simpa [h] using hheld

/-- A cancellation takes one out of turn. -/
theorem takePreresolution_cut (htake : d.takePreresolution seq = some (item, data)) :
    ∃ before after, d.preresolutions = before ++ item :: after ∧ data.preresolutions = before ++ after ∧
      data.activationIndex = d.activationIndex ∧ item.seq = seq := by
  obtain ⟨item', hfind, h⟩ := Option.map_eq_some_iff.mp htake
  cases h
  obtain ⟨hseq, before, after, hq, hbefore⟩ := List.find?_eq_some_iff_append.mp hfind
  refine ⟨before, after, hq, ?_, rfl, by simpa using hseq⟩
  rw [hq, List.eraseP_append_right _ (fun a ha => by simpa using hbefore a ha), List.eraseP_cons, hseq]
  rfl

theorem requestCancelLocalActivity_turns (seq : Nat) : Turns (requestCancelLocalActivity seq) := by
  refine turns_get fun s => ?_
  split
  · exact refl s
  · next hheld =>
    split
    · next item data htake =>
      obtain ⟨before, after, hq, hdata, hindex, hseq⟩ := takePreresolution_cut htake
      refine applyPreresolution_evolves ?_ fun h => ?_
      · have ht : s.tickets = ⟨before.map (·.index) ++ item.index :: after.map (·.index), s.inserted,
          s.tickets.taken⟩ := by
          simp [tickets, hq]
        rw [ht, hdata, List.map_append]
        exact .outOfTurn
      · -- a held resolution is left alone
        have hitem : s.data.isHeld item = true := by
          rwa [isHeld, ← hindex]
        refine absurd ?_ hheld
        rw [hasHeldPreresolution, List.any_eq_true]
        exact ⟨item, by simp [hq], by simp [hseq, hitem]⟩
    · split
      · next removedAct data hremoved =>
        obtain ⟨req, -, h⟩ := Option.map_eq_some_iff.mp hremoved
        cases h
        refine IsTrans.trans _ _ _ ?_ (resolveMachine_turns _ _ _).1
        exact .of_eq rfl rfl rfl
      · exact .of_eq rfl rfl rfl

theorem processMachineResponses_turns (responses : List Response) : Turns (processMachineResponses responses) := by
  induction responses with
  | nil => exact turns_pure ()
  | cons response responses ih =>
    cases response with
    | requestCancelLocalActivity seq => exact (requestCancelLocalActivity_turns seq).bind fun _ => ih
    | _ => exact (turns_modify fun s => s.processResponse_evolves _).bind fun _ => ih

/-- Served in turn. Held ones are included only if there were no jobs at the start. -/
theorem applyRounds_turns (h : includeHeld = true → pendingBefore = false) (rounds : Nat) :
    Turns (applyRounds includeHeld pendingBefore rounds) := by
  induction rounds with
  | zero => exact turns_pure ()
  | succ rounds ih =>
    refine turns_get fun s => ?_
    split
    · exact refl s
    · next seq hpeek =>
      split
      · next m item data hm htake =>
        obtain ⟨hq, hindex, hheld⟩ := takePreresolution_front hpeek htake
        rw [exec_bind]
        have hstep : Evolves s (exec (applyPreresolution item data
            (if includeHeld then .idleRelease else .peeked) pendingBefore) s).2 := by
          refine applyPreresolution_evolves ?_ fun hitem => ?_
          · have ht : s.tickets = ⟨item.index :: data.preresolutions.map (·.index), s.inserted, s.tickets.taken⟩ := by
              simp [tickets, hq]
            rw [ht]
            cases includeHeld with
            | true | false => exact .serve
          · have hinclude := hheld (by rwa [isHeld, ← hindex])
            rw [hinclude]
            exact ⟨rfl, h hinclude⟩
        generalize exec (applyPreresolution item data _ pendingBefore) s = r at hstep
        obtain ⟨e | _, s'⟩ := r
        · exact hstep
        · exact IsTrans.trans _ _ _ hstep (ih s').1
      · exact refl s

/-! ## Calls -/

theorem applyPeeked_evolves (h : includeHeld = true → s.hasPendingJobs = false) :
    Evolves s (exec (applyLocalActivityPeekedResolutions includeHeld) s).2 := by
  exact (applyRounds_turns h _ s).1

theorem applyPeeked_turns : Turns (applyLocalActivityPeekedResolutions false) :=
  fun _ => ⟨applyPeeked_evolves nofun, fun _ _ => trivial⟩

theorem releaseHeld_turns : Turns releaseHeldLocalActivityResolutionsIfIdle := by
  refine turns_get fun s => ?_
  split
  · exact refl s
  · next hjobs => exact applyPeeked_evolves fun _ => by simpa using hjobs

theorem lookAheadMarker_turns (dat : CompleteData) : Turns (lookAheadMarker dat) := by
  refine turns_get fun s => ?_
  dsimp only
  split
  · refine IsTrans.trans _ _ _ ?_ (applyPeeked_turns _).1
    refine ⟨.single ?_, [], (List.append_nil _).symm, nofun⟩
    simp only [tickets, insertPeekedMarker, List.map_append]
    exact .issue
  · exact refl s

theorem handleLangCommand_turns (command : LangCommand) : Turns (handleLangCommand command) := by
  cases command with
  | addLocalActivity attrs checks now =>
    refine turns_get fun s => ?_
    refine ((turns_modify fun s => ?_).bind fun _ => processMachineResponses_turns _) s |>.1
    exact .of_eq rfl rfl rfl
  | requestCancelLocalActivity seq =>
    refine turns_get fun s => ?_
    exact ((onMachine_turns _ _).bind fun responses => processMachineResponses_turns responses) s |>.1
  | sendJob job => exact turns_modify fun _ => .of_eq rfl rfl rfl

theorem handleDrivenResults_turns (commands : List LangCommand) : Turns (handleDrivenResults commands) := by
  induction commands with
  | nil => exact turns_pure ()
  | cons command commands ih => exact (handleLangCommand_turns command).bind fun _ => ih

theorem getWfActivation_turns : Turns getWfActivation := by
  refine turns_get fun s => .of_eq ?_ rfl rfl
  show (if _ then s.data else s.data.activationDispatched).preresolutions = s.data.preresolutions
  split <;> rfl

/-- Every call moves the queue. -/
theorem handleInput_turns (i : Input) : Turns (handleInput i) := by
  cases i with
  | wftApplied | sendJob | indicateTerminating => exact turns_modify fun _ => .of_eq rfl rfl rfl
  | lookAheadMarker dat => exact lookAheadMarker_turns dat
  | releaseHeldIfIdle => exact releaseHeld_turns
  | getWfActivation => exact getWfActivation_turns.bind fun _ => turns_pure ()
  | iterateMachines commands =>
    exact (handleDrivenResults_turns commands).bind fun _ => applyPeeked_turns.bind fun _ => releaseHeld_turns
  | localResolution seq result runtime attempt backoff originalScheduleTime =>
    refine turns_get fun s => ?_
    refine ((resolveMachine_turns _ _).bind fun _ => turns_modify fun s => ?_) s |>.1
    exact .of_eq rfl rfl rfl
  | encounteredNonReplayWft seq =>
    exact (onMachine_turns _ _).bind fun responses => processMachineResponses_turns responses
  | commandRecordMarker | markerRecorded =>
    exact (onMachine_turns _ _).bind fun responses => processMachineResponses_turns responses
  | drainQueuedLocalActivities =>
    refine turns_modify fun s => .of_eq ?_ rfl rfl
    unfold takeAllReqs
    split <;> rfl

theorem run_evolves (inputs : List Input) : Evolves s (s.run inputs) := by
  induction inputs generalizing s with
  | nil => exact refl s
  | cons i inputs ih => exact IsTrans.trans _ _ _ (handleInput_turns i s).1 ih

end

/-! ## Runs -/

def fresh (s : LocalActs) : LocalActs :=
  { s with data := { s.data with preresolutions := [] }, inserted := 0, applied := [] }

/-- **No marker is applied twice; a held one is applied only by the release, which begins without pending jobs; and one
not applied by a cancel comes after all before it.** -/
theorem markers_applied_in_order (s : LocalActs) (inputs : List Input) :
    (((s.fresh.run inputs).applied.map (·.index)).Nodup) ∧
      (∀ a ∈ (s.fresh.run inputs).applied, a.held = true → a.appliedBy = .idleRelease ∧ a.pendingBefore = false) ∧
      ∀ before a after, (s.fresh.run inputs).applied = before ++ a :: after → a.appliedBy ≠ .cancel →
        ∀ i < a.index, i ∈ before.map (·.index) := by
  have h := run_evolves (s := s.fresh) inputs
  have hfair : (s.fresh.run inputs).tickets.Fair := Tickets.Fair.init.of_moves h.moves
  have hindex : (s.fresh.run inputs).tickets.taken.map Prod.fst = (s.fresh.run inputs).applied.map (·.index) := by
    simp [tickets]
  refine ⟨hindex ▸ hfair.nodup, ?_, fun before a after hcut hcancel i hi => ?_⟩
  · obtain ⟨new, hnew, hlawful⟩ := h.applied
    rw [hnew]
    exact hlawful
  · have htaken : (s.fresh.run inputs).tickets.taken =
        before.map (fun a => (a.index, decide (a.appliedBy = .cancel))) ++
          (a.index, false) :: after.map fun a => (a.index, decide (a.appliedBy = .cancel)) := by
      simp [tickets, hcut, hcancel]
    simpa using hfair.inTurn _ _ _ htaken i hi

/-- The marker of activity `seq`, for the activation at `activationIndex`. -/
def markerFor (seq activationIndex : Nat) : CompleteData where
  markerDat :=
    { seq, attempt := 1, activityId := "", activityType := "", completeTime := none, backoff := none
      originalScheduleTime := none, activationIndex := some activationIndex }
  result := .ok 0

def scheduleFor (seq : Nat) : LangCommand :=
  .addLocalActivity
    { seq, activityId := "", activityType := "", attempt := 1, originalScheduleTime := none, arguments := []
      cancellationType := .tryCancel, includeArgumentsInMarker := false } (fun _ => false) 0

/-- Two markers were recorded for index 2, and there is only one activation. The release applies the second while the
job of the first is pending. -/
theorem held_marker_applied_with_jobs :
    ∃ a ∈ (run (fresh { replaying := true })
        [.wftApplied true, .sendJob .other, .lookAheadMarker (markerFor 1 2), .lookAheadMarker (markerFor 2 2),
          .releaseHeldIfIdle, .getWfActivation, .iterateMachines [scheduleFor 1, scheduleFor 2]]).applied,
      a.held = true ∧ a.pendingJobs = true := by
  decide +kernel

end LocalActs

end SdkCore
