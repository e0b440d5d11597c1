import SdkCore.LocalActivities.Timeouts

/-!
# Waiting for local activities at shutdown

A shutdown waits until nothing is pending, and looks again when it is notified. A failure does not notify, even if it is
the last thing pending (`shutdown_notified`).
-/

namespace SdkCore

open Maps

namespace LocalActivityManager

variable {s : LocalActivityManager}

/-- Lang holds nothing, and no entry waits for its start. -/
theorem nothingPending_iff :
    s.nothingPending = true ↔ (∀ tt, s.outstandingActivityTasks.lookup tt = none) ∧
      ∀ id lai, s.laInfo.lookup id = some lai → lai.queuedForDispatch = false := by
  rw [nothingPending, Bool.and_eq_true, Maps.isEmpty_iff, all_values_iff]
  simp

@[simp]
theorem nothingPending_setShutdownCompleteIfReady (s : LocalActivityManager) :
    s.setShutdownCompleteIfReady.nothingPending = s.nothingPending := by
  obtain ⟨b, hb⟩ := s.setShutdownCompleteIfReady_eq
  rw [hb]
  rfl

/-! ## What an operation tells -/

/-- A notification is stored, or nothing became idle by the operation. -/
def Told (s s' : LocalActivityManager) : Prop :=
  s'.completeNotify = true ∨
    (s'.nothingPending = true → s.nothingPending = true) ∧ (s.completeNotify = true → s'.completeNotify = true)

theorem Told.rfl : Told s s := .inr ⟨id, id⟩

theorem Told.trans {s₁ s₂ s₃ : LocalActivityManager} (h : Told s₁ s₂) (h' : Told s₂ s₃) : Told s₁ s₃ := by
  rcases h' with h' | ⟨hi', hn'⟩
  · exact .inl h'
  · rcases h with h | ⟨hi, hn⟩
    · exact .inl (hn' h)
    · exact .inr ⟨hi ∘ hi', hn' ∘ hn⟩

theorem notifyOne_told (s s' : LocalActivityManager) : Told s s'.notifyOne := .inl rfl

variable {t : LocalActivityManager} {tt : TaskToken} {info : LocalInFlightActInfo}
  {status : LocalActivityExecutionResult}

theorem Told.of_eq (hl : t.laInfo = s.laInfo) (ho : t.outstandingActivityTasks = s.outstandingActivityTasks)
    (hn : t.completeNotify = s.completeNotify) : Told s t := by
  refine .inr ⟨fun h => ?_, fun h => hn.trans h⟩
  rwa [nothingPending, hl, ho] at h

/-- Lang still holds an attempt. -/
theorem Told.of_held (h : t.outstandingActivityTasks.lookup tt = some info) (hn : t.completeNotify = s.completeNotify) :
    Told s t := by
  refine .inr ⟨fun hc => ?_, fun h => hn.trans h⟩
  rw [(nothingPending_iff.mp hc).1 tt] at h
  cases h

theorem setShutdownCompleteIfReady_told (s : LocalActivityManager) : Told s s.setShutdownCompleteIfReady := by
  obtain ⟨b, hb⟩ := s.setShutdownCompleteIfReady_eq
  rw [hb]
  exact .of_eq rfl rfl rfl

theorem enqueueNew_told (act : NewLocalAct) (s : LocalActivityManager) : Told s (s.enqueueNew act).2 := by
  unfold enqueueNew
  simp only [genNextToken]
  split
  · exact .of_eq rfl rfl rfl
  · next h =>
    split
    · next tb s' hb =>
      obtain ⟨timers, -, rfl⟩ := newTimeoutBag_bagged hb
      refine .inr ⟨fun hc => ?_, id⟩
      have := (nothingPending_iff.mp hc).2 act.id _ (AList.lookup_insert _)
      cases this
    · refine .inr ⟨fun hc => nothingPending_iff.mpr ⟨(nothingPending_iff.mp hc).1, fun id lai hl => ?_⟩, id⟩
      have hne : act.id ≠ id := ne_of_lookup h hl
      exact (nothingPending_iff.mp hc).2 id lai (by simpa [record, lookup_insert_ite, hne.symm] using hl)

theorem cancelLa_told (id : ExecutingLAId) (s : LocalActivityManager) :
    (cancelLa id s).1 = false ∧ (cancelLa id s).2.2.laInfo = s.laInfo ∧ Told s (cancelLa id s).2.2 ∨
      (cancelLa id s).1 = true ∧ (cancelLa id s).2.2.laInfo = s.laInfo.erase id ∧ id ∈ s.laInfo := by
  have h := cancelLa_cancelled id s
  generalize cancelLa id s = x at h ⊢
  cases h with
  | missing => exact .inl ⟨rfl, rfl, .rfl⟩
  | queued => exact .inl ⟨rfl, rfl, .of_held (AList.lookup_insert _) rfl⟩
  | again => exact .inl ⟨rfl, rfl, .of_eq rfl rfl rfl⟩
  | removed lai h ho hr hn hs =>
    exact .inr ⟨rfl, congrArg Ledger.laInfo hs, AList.lookup_isSome.mp (by simp [h])⟩

theorem enqueueCancel_told (id : ExecutingLAId) (s : LocalActivityManager) : Told s (s.enqueueCancel id).2 := by
  have h := cancelLa_told id s
  unfold enqueueCancel
  generalize cancelLa id s = x at h
  obtain ⟨removed, res, s'⟩ := x
  rcases h with ⟨rfl, -, h⟩ | ⟨rfl, -⟩
  · exact h.trans (.of_eq (by rfl) (by rfl) (by rfl))
  · exact notifyOne_told _ _

theorem cancelAllInRun_told (run : RunId) (s : LocalActivityManager) : Told s (s.cancelAllInRun run) := by
  -- Entries only go away, and as long as none does nothing ends.
  have hfold : ∀ (ids : List ExecutingLAId) (s : LocalActivityManager),
      (ids.foldl (fun s id => (cancelLa id s).2.2) s).laInfo.keys.length < s.laInfo.keys.length ∨
      ((ids.foldl (fun s id => (cancelLa id s).2.2) s).laInfo.keys.length = s.laInfo.keys.length ∧
        Told s (ids.foldl (fun s id => (cancelLa id s).2.2) s)) := by
    intro ids
    induction ids with
    | nil => exact fun s => .inr ⟨rfl, .rfl⟩
    | cons id ids ih =>
      intro s
      rcases cancelLa_told id s with ⟨-, hl, ht⟩ | ⟨-, hl, hmem⟩
      · rcases ih (cancelLa id s).2.2 with h | ⟨h, h'⟩
        · rw [hl] at h
          exact .inl h
        · rw [hl] at h
          exact .inr ⟨h, ht.trans h'⟩
      · have hlt : (cancelLa id s).2.2.laInfo.keys.length < s.laInfo.keys.length := by
          rw [hl, AList.keys_erase, List.length_erase_of_mem (AList.mem_keys.mp hmem)]
          have := List.length_pos_of_mem (AList.mem_keys.mp hmem)
          omega
        rcases ih (cancelLa id s).2.2 with h | ⟨h, -⟩
        · exact .inl (Nat.lt_trans h hlt)
        · exact .inl (h ▸ hlt)
  unfold cancelAllInRun
  rcases hfold (s.laInfo.keys.filter (·.runId = run)) s with h | ⟨h, ht⟩
  · rw [if_pos (Nat.ne_of_lt h)]
    exact notifyOne_told _ _
  · rw [if_neg (fun hne => hne h)]
    exact ht

/-! ## The last result -/

def isFailure : LocalActivityExecutionResult → Bool
  | .failed _ => true
  | .timedOut timeoutType => timeoutType = .startToClose
  | _ => false

/-- A failure of an attempt that was not cancelled, when nothing else is pending. -/
def isLastFailure (s : LocalActivityManager) (tt : TaskToken) (status : LocalActivityExecutionResult) : Bool :=
  isFailure status && (s.outstandingActivityTasks.lookup tt).any fun info =>
    info.cancel = .notRequested && (s.outstandingActivityTasks.erase tt).entries.isEmpty &&
      (values (s.laInfo.erase info.laInfo.id)).all (!·.queuedForDispatch)

theorem isFailure_of_failurePath {backoff : Option Nat} (h : outcome info status = .failurePath backoff) :
    isFailure status = true := by
  unfold outcome at h
  cases status <;> simp [isFailure] at h ⊢
  grind

/-- A result notifies, unless it is the last failure. -/
theorem complete_told (hc : s.isLastFailure tt status = false) : Told s (s.complete tt status).2 := by
  cases hi : s.outstandingActivityTasks.lookup tt with
  | none =>
    simp only [complete, hi]
    exact .rfl
  | some info =>
    obtain ⟨b, hb⟩ := dropOutstanding_eq s tt
    simp only [complete, hi, hb]
    cases ho : outcome info status with
    | justReport => exact notifyOne_told _ _
    | failurePath backoff =>
      -- The attempt is the last thing pending, against the assumption.
      have hlast : ∀ s' : LocalActivityManager,
          s'.outstandingActivityTasks = s.outstandingActivityTasks.erase tt →
          (∀ id lai, (s.laInfo.erase info.laInfo.id).lookup id = some lai → s'.laInfo.lookup id = some lai) →
          s'.completeNotify = s.completeNotify → Told s s' := by
        intro s' hout hla hn
        refine .inr ⟨fun hp => ?_, fun h => hn.trans h⟩
        obtain ⟨hp₁, hp₂⟩ := nothingPending_iff.mp hp
        rw [hout] at hp₁
        have : s.isLastFailure tt status = true := by
          simp only [isLastFailure, isFailure_of_failurePath ho, hi, Option.any_some, cancel_of_failurePath ho,
            Maps.isEmpty_iff.mpr hp₁, decide_true, Bool.true_and]
          exact all_values_iff.mpr fun id lai hl => by simp [hp₂ id lai (hla id lai hl)]
        simp [hc] at this
      cases backoff with
      | none => exact hlast _ (by rfl) (fun id lai h => h) (by rfl)
      | some backoff =>
        by_cases hlong : backoff > info.laInfo.scheduleCmd.localRetryThreshold
        · simp only [hlong, if_true]
          exact hlast _ (by rfl) (fun id lai h => h) (by rfl)
        · simp only [hlong, if_false]
          refine hlast _ (by rfl) (fun id lai h => ?_) (by rfl)
          have hne : id ≠ info.laInfo.id := by
            rintro rfl
            simp at h
          simpa [spawn, abort, genNextToken, lookup_insert_ite, hne] using h

/-- The input ends the last thing that is pending by a failure. -/
def endsUnnoticed (s : LocalActivityManager) : Input → Bool
  | .complete tt status => s.isLastFailure tt status
  | .nextPending (.cancel j) =>
    match s.cancelsReqs[j]? with
    | some (.timeout run res) =>
      (s.laInfo.lookup ⟨run, res.seq⟩).any fun lai => s.isLastFailure lai.taskToken res.result
    | _ => false
  | _ => false

theorem takeCancel_told {msg : CancelOrTimeout}
    (hc : ∀ run res lai, msg = .timeout run res → s.laInfo.lookup ⟨run, res.seq⟩ = some lai →
      s.isLastFailure lai.taskToken res.result = false) : Told s (s.takeCancel msg).2 := by
  cases msg with
  | cancel tt =>
    cases hi : s.outstandingActivityTasks.lookup tt with
    | none =>
      simp only [takeCancel, hi]
      exact .rfl
    | some info =>
      simp only [takeCancel, hi]
      exact .of_held (AList.lookup_insert _) (by rfl)
  | timeout run res =>
    cases hl : s.laInfo.lookup ⟨run, res.seq⟩ with
    | none =>
      simp only [takeCancel, hl]
      exact .rfl
    | some lai =>
      simp only [takeCancel, hl]
      exact complete_told (hc run res lai rfl hl)

theorem takeRequest_told (q : Request) (s : LocalActivityManager) : Told s (s.takeRequest q).2 := by
  cases hl : s.laInfo.lookup q.what.la.id with
  | none =>
    simp only [takeRequest, hl]
    exact .rfl
  | some lai =>
    simp only [takeRequest, hl]
    split
    · exact notifyOne_told _ _
    · obtain ⟨timers, -, hs⟩ := markStarted_armed lai.timeoutBag { s with
        laInfo := s.laInfo.insert q.what.la.id { lai with queuedForDispatch := false, backingOffTask := none } }
      rw [hs]
      exact .of_held (AList.lookup_insert _) (by rfl)

theorem wake_told (w : Wake) (s : LocalActivityManager) : Told s (s.wake w) := by
  cases w <;> exact .of_eq rfl rfl rfl

/-- **What ends the last pending thing notifies, unless it is a failure.** -/
theorem process_told {i : Input} (hc : s.endsUnnoticed i = false) : Told s (s.process i) := by
  cases i with
  | enqueue req =>
    simp only [process, enqueue, List.foldl_cons, List.foldl_nil]
    split
    · exact .rfl
    · cases req with
      | new act => exact enqueueNew_told act s
      | cancel id => exact enqueueCancel_told id s
      | cancelAllInRun run => exact cancelAllInRun_told run s
      | invalidateRun run => exact notifyOne_told _ _
      | startHeartbeatTimeout run deadline => exact .of_eq (by rfl) (by rfl) (by rfl)
      | indicateWorkflowTaskCompleted run =>
        refine .inr ⟨fun hp => ?_, id⟩
        obtain ⟨hp₁, hp₂⟩ := nothingPending_iff.mp hp
        refine nothingPending_iff.mpr ⟨hp₁, fun id lai hl => ?_⟩
        have := hp₂ id _ (by simp [enqueueOne, indicateWorkflowTaskCompleted, lookup_mapValues, hl]; rfl)
        grind
  | nextPending receive =>
    simp only [process, nextPending]
    split
    · exact .rfl
    · cases receive with
      | cancel j =>
        cases hm : s.cancelsReqs[j]? with
        | none =>
          simp only [hm]
          exact .rfl
        | some msg =>
          simp only [hm]
          refine Told.trans (.of_eq rfl rfl rfl)
            (takeCancel_told ?_)
          rintro run res lai rfl hl
          have hc : s.isLastFailure lai.taskToken res.result = false := by simpa [endsUnnoticed, hm, hl] using hc
          exact hc
      | request j =>
        cases hq : s.actReqs[j]? with
        | none =>
          simp only [hq]
          exact .rfl
        | some q =>
          simp only [hq]
          exact Told.trans (.of_eq rfl rfl rfl) (takeRequest_told q _)
  | complete tt status => exact complete_told hc
  | workflowsHaveShutdown =>
    exact Told.trans (.of_eq rfl rfl rfl)
      (setShutdownCompleteIfReady_told _)
  | shutdownInitiated => exact setShutdownCompleteIfReady_told s
  | elapse duration => exact .of_eq rfl rfl rfl
  | fire j =>
    simp only [process, LocalActivityManager.fire]
    split
    · exact .rfl
    · split
      · exact Told.trans (.of_eq rfl rfl rfl) (wake_told _ _)
      · exact .rfl

end LocalActivityManager

/-! ## The caller that waits -/

inductive Waiter
  | away
  | checking
  | parked
  | finished
  deriving DecidableEq

structure Shutdown where
  lam : LocalActivityManager := {}
  waiter : Waiter := .away

namespace Shutdown

open LocalActivityManager

inductive Input
  | manager (i : LocalActivityManager.Input)
  | wait
  | check
  | wake

/-- The caller checks whether nothing is pending, and waits for a notification otherwise. -/
def process (s : Shutdown) : Input → Option Shutdown
  | .manager i => some { s with lam := s.lam.process i }
  | .wait => if s.waiter = .away then some { s with waiter := .checking } else none
  | .check =>
    if s.waiter ≠ .checking then none
    else if s.lam.nothingPending then
      some { lam := { s.lam.setShutdownCompleteIfReady with rcvsDropped := true }, waiter := .finished }
    else some { lam := s.lam.setShutdownCompleteIfReady, waiter := .parked }
  | .wake =>
    if s.waiter = .parked ∧ s.lam.completeNotify = true then
      some { lam := { s.lam with completeNotify := false }, waiter := .checking }
    else none

def Step (s : Shutdown) (i : Input) (s' : Shutdown) : Prop := s.process i = some s'

def endsUnnoticed (s : Shutdown) : Input → Bool
  | .manager i => s.lam.endsUnnoticed i
  | _ => false

/-- The caller is parked only while something is pending or a notification is stored. -/
def Awake (s : Shutdown) : Prop :=
  s.waiter = .parked → s.lam.nothingPending = true → s.lam.completeNotify = true

theorem Step.awake {s s' : Shutdown} {i : Input} (h : Step s i s') (hs : Awake s) (hc : s.endsUnnoticed i = false) :
    Awake s' := by
  cases i with
  | manager i =>
    cases h
    intro hw hp
    rcases process_told (i := i) hc with hn | ⟨hi, hn⟩
    · exact hn
    · exact hn (hs hw (hi hp))
  | wait | wake =>
    simp only [Step, process] at h
    split at h
    · cases h
      intro hw
      cases hw
    · cases h
  | check =>
    simp only [Step, process] at h
    split at h
    · cases h
    · split at h
      · cases h
        intro hw
        cases hw
      · next hp =>
        cases h
        intro _ hp'
        rw [nothingPending_setShutdownCompleteIfReady] at hp'
        exact absurd hp' hp

/-- **No wake-up is lost unless a failure ends the last thing that is pending.** -/
theorem shutdown_notified {s : Shutdown} (h : Reach Step (fun s i => s.endsUnnoticed i = false) (· = {}) s) :
    (∀ i, s.lam.endsUnnoticed i = false →
      s.lam.nothingPending = false → ({ s.lam with completeNotify := false }.process i).nothingPending = true →
        ({ s.lam with completeNotify := false }.process i).completeNotify = true) ∧
      (s.waiter = .parked → s.lam.nothingPending = true → s.lam.completeNotify = true) := by
  constructor
  · intro i hc hp hp'
    have hc' : { s.lam with completeNotify := false }.endsUnnoticed i = false := hc
    rcases process_told hc' with hn | ⟨hi, -⟩
    · exact hn
    · have : s.lam.nothingPending = true := hi hp'
      simp [hp] at this
  · refine Reach.invariant ?_ (fun s i s' hs hi hstep => hstep.awake hs hi) h
    rintro s rfl hw
    cases hw

/-- The only local activity fails without a retry, and the shutdown is not told. -/
theorem shutdown_not_notified :
    ∃ s, Reach Step (fun _ _ => True) (· = {}) s ∧ s.waiter = .parked ∧ s.lam.nothingPending = true ∧
      s.lam.completeNotify = false := by
  refine Reach.exists_of_trace
    [.manager (.enqueue (.new (sampleAct 1 1 (.scheduleOnly 100)))), .manager (.nextPending (.request 0)),
      .wait, .check, .manager (.complete 1 (.failed (some ⟨"", true, none⟩)))] ?_ (fun _ _ _ h => h) (.start rfl)
  decide +kernel

theorem shutdown_notified_completed :
    ∃ s, Reach Step (fun s i => s.endsUnnoticed i = false) (· = {}) s ∧ s.waiter = .parked ∧
      s.lam.nothingPending = true ∧ s.lam.completeNotify = true := by
  obtain ⟨s, hreach, hw, hp⟩ : ∃ s, Reach Step (fun s i => s.endsUnnoticed i = false) (· = {}) s ∧
      s.waiter = .parked ∧ s.lam.nothingPending = true := by
    refine Reach.exists_of_trace
      [.manager (.enqueue (.new (sampleAct 1 1 (.scheduleOnly 100)))), .manager (.nextPending (.request 0)),
        .wait, .check, .manager (.complete 1 .completed)] ?_ (fun _ _ _ h => h) (.start rfl)
    decide +kernel
  exact ⟨s, hreach, hw, hp, (shutdown_notified hreach).2 hw hp⟩

end Shutdown

end SdkCore
