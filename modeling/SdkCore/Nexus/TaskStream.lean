import SdkCore.History.CacheMiss
import SdkCore.Lib.Logs
import SdkCore.Lib.Maps
import SdkCore.Lib.Reach
import SdkCore.Lib.Wakeups

/-!
# The stream of Nexus tasks

Tasks are kept in a map until they are completed. Timers and the end of the grace period cancel them. After the poller
has ended, a waiter ends the stream when it finds the map empty. A completion leaves the map before its answer is sent
(`shutdown_when_completed`), and a cancel stays in the queue when its task is completed (`cancel_names_live_task`).
-/

namespace SdkCore.NexusManager

open Maps

inductive NexusTaskCancelReason
  | timedOut
  | workerShutdown
  deriving DecidableEq

structure CancelNexusTask where
  taskToken : TaskToken
  reason : NexusTaskCancelReason
  deriving DecidableEq

structure NexusInFlightTask where
  /-- There is a task that waits for the request timeout. -/
  timeoutTask : Bool
  deriving DecidableEq

/-- What `next_nexus_task` returns, and what lang completes. -/
inductive Event
  | task (tt : TaskToken)
  | cancelTask (cancel : CancelNexusTask)
  | error
  | shutDown
  | completed (tt : TaskToken)
  deriving DecidableEq

inductive Waiter
  | awaitingSource
  /-- At the check of the map, with the future that was made before. -/
  | checking (notified : Nat)
  | parked (notified : Nat)
  | finished
  deriving DecidableEq

inductive Grace
  | off
  | waiting
  | running
  | elapsed
  | stopped
  deriving DecidableEq

structure Tasks where
  outstandingTaskMap : Map TaskToken NexusInFlightTask
  timers : List TaskToken
  cancels : List CancelNexusTask
  sourceDone : Bool
  taskCompletedNotify : Notify
  grace : Grace
  waiter : Waiter
  /-- The completions that have taken their task and are not over. -/
  sending : List TaskToken
  ended : Bool
  log : List Event

def new (gracefulShutdown : Option Nat) : Tasks where
  outstandingTaskMap := ∅
  timers := []
  cancels := []
  sourceDone := false
  taskCompletedNotify := ⟨0⟩
  grace := if gracefulShutdown.isSome then .waiting else .off
  waiter := .awaitingSource
  sending := []
  ended := false
  log := []

/-! ## Steps -/

inductive Input
  /-- The poller gives a task, with or without a request timeout. -/
  | poll (tt : TaskToken) (timeout : Bool)
  | pollFailed
  | sourceComplete
  | timerFires (tt : TaskToken)
  /-- The timeout of a task that is being completed is aborted. -/
  | timerAborted (tt : TaskToken)
  | takeCancel
  | graceElapsed
  | complete (tt : TaskToken)
  /-- The answer was sent, or the future of the completion is dropped. -/
  | reported (tt : TaskToken)
  | waiter
  | shutDown
  deriving DecidableEq

def handOut (s : Tasks) (tt : TaskToken) (timeout : Bool) : Tasks :=
  { s with
    outstandingTaskMap := s.outstandingTaskMap.insert tt ⟨timeout⟩
    timers := if timeout then s.timers ++ [tt] else s.timers
    log := .task tt :: s.log }

def timeOut (s : Tasks) (tt : TaskToken) : Tasks :=
  { s with timers := s.timers.erase tt, cancels := s.cancels ++ [⟨tt, .timedOut⟩] }

/-- At the end of the grace period everything is cancelled. -/
def graceKiller (s : Tasks) : Tasks :=
  { s with cancels := s.cancels ++ s.outstandingTaskMap.keys.map (⟨·, .workerShutdown⟩), grace := .elapsed }

/-- The task leaves the map before the answer is sent. -/
def completeTask (s : Tasks) (tt : TaskToken) : Tasks :=
  match s.outstandingTaskMap.lookup tt with
  | none => s
  | some _ =>
    { s with
      outstandingTaskMap := s.outstandingTaskMap.erase tt
      sending := s.sending ++ [tt]
      log := .completed tt :: s.log }

/-- The answer is sent, and the waiter is told. -/
def taskCompleted (s : Tasks) (tt : TaskToken) : Tasks :=
  { s with sending := s.sending.erase tt, taskCompletedNotify := s.taskCompletedNotify.notifyWaiters }

def waiterStep (s : Tasks) : Option Tasks :=
  match s.waiter with
  | .awaitingSource =>
    if s.sourceDone then
      some { s with
        waiter := .checking s.taskCompletedNotify.notified
        grace := if s.grace = .waiting then .running else s.grace }
    else none
  | .checking notified =>
    if s.outstandingTaskMap.entries.isEmpty then some { s with waiter := .finished, grace := .stopped }
    else some { s with waiter := .parked notified }
  | .parked notified =>
    if s.taskCompletedNotify.isReady notified then
      some { s with waiter := .checking s.taskCompletedNotify.notified }
    else none
  | .finished => none

def step (s : Tasks) : Input → Option Tasks
  | .poll tt timeout => if s.sourceDone || s.ended then none else some (handOut s tt timeout)
  | .pollFailed => if s.sourceDone || s.ended then none else some { s with log := .error :: s.log }
  | .sourceComplete => some { s with sourceDone := true }
  | .timerFires tt => if tt ∈ s.timers then some (timeOut s tt) else none
  | .timerAborted tt =>
    if (s.outstandingTaskMap.lookup tt).isSome then none else some { s with timers := s.timers.erase tt }
  | .takeCancel =>
    match s.cancels with
    | [] => none
    | c :: rest => if s.ended then none else some { s with cancels := rest, log := .cancelTask c :: s.log }
  | .graceElapsed => if s.grace = .running then some (graceKiller s) else none
  | .complete tt => some (completeTask s tt)
  | .reported tt => if tt ∈ s.sending then some (taskCompleted s tt) else none
  | .waiter => waiterStep s
  | .shutDown => if s.waiter = .finished then some { s with ended := true, log := .shutDown :: s.log } else none

abbrev Reachable (ok : Tasks → Input → Prop) : Tasks → Prop :=
  Reach (fun s i s' => step s i = some s') ok fun s => ∃ gracefulShutdown, s = new gracefulShutdown

/-- The task was completed each time that lang got it. -/
def Completed (log : List Event) (tt : TaskToken) : Prop :=
  Paired (· = .task tt) (· = .completed tt) log

variable {s s' : Tasks} {ok : Tasks → Input → Prop}

/-! ## What a step does -/

variable {tt : TaskToken} {i : Input}

/-- What a step does, case by case. -/
inductive Effect (s : Tasks) : Input → Tasks → Prop
  | poll {tt : TaskToken} {timeout : Bool} (hd : s.sourceDone = false) :
    Effect s (.poll tt timeout) (handOut s tt timeout)
  | pollFailed : Effect s .pollFailed { s with log := .error :: s.log }
  | sourceComplete : Effect s .sourceComplete { s with sourceDone := true }
  | timerFires {tt : TaskToken} : Effect s (.timerFires tt) (timeOut s tt)
  | timerAborted {tt : TaskToken} : Effect s (.timerAborted tt) { s with timers := s.timers.erase tt }
  | takeCancel {c : CancelNexusTask} {rest : List CancelNexusTask} (hc : s.cancels = c :: rest) :
    Effect s .takeCancel { s with cancels := rest, log := .cancelTask c :: s.log }
  | graceElapsed : Effect s .graceElapsed (graceKiller s)
  | complete {tt : TaskToken} : Effect s (.complete tt) (completeTask s tt)
  | reported {tt : TaskToken} (hm : tt ∈ s.sending) : Effect s (.reported tt) (taskCompleted s tt)
  | waiter {s' : Tasks} (h : waiterStep s = some s') : Effect s .waiter s'
  | shutDown (hw : s.waiter = .finished) : Effect s .shutDown { s with ended := true, log := .shutDown :: s.log }

theorem step_effect (h : step s i = some s') : Effect s i s' := by
  cases i with
  | poll tt timeout =>
    obtain ⟨hc, ⟨⟩⟩ := Option.ite_none_left_eq_some.mp h
    simp only [Bool.or_eq_true, not_or, Bool.not_eq_true] at hc
    exact .poll hc.1
  | pollFailed | timerAborted =>
    obtain ⟨-, ⟨⟩⟩ := Option.ite_none_left_eq_some.mp h
    constructor
  | sourceComplete | complete =>
    cases h
    constructor
  | timerFires | graceElapsed =>
    obtain ⟨-, ⟨⟩⟩ := Option.ite_none_right_eq_some.mp h
    constructor
  | takeCancel =>
    simp only [step] at h
    split at h
    · cases h
    · next c rest hc =>
      obtain ⟨-, ⟨⟩⟩ := Option.ite_none_left_eq_some.mp h
      exact .takeCancel hc
  | reported | shutDown =>
    obtain ⟨hm, ⟨⟩⟩ := Option.ite_none_right_eq_some.mp h
    constructor
    exact hm
  | waiter => exact .waiter h

theorem waiterStep_cases (h : waiterStep s = some s') :
    (s.waiter = .awaitingSource ∧ s.sourceDone = true ∧ ∃ g,
      s' = { s with waiter := .checking s.taskCompletedNotify.notified, grace := g }) ∨
    (∃ n, s.waiter = .checking n ∧ (∀ tt, s.outstandingTaskMap.lookup tt = none) ∧
      s' = { s with waiter := .finished, grace := .stopped }) ∨
    (∃ n, s.waiter = .checking n ∧ (∃ tt, (s.outstandingTaskMap.lookup tt).isSome) ∧
      s' = { s with waiter := .parked n }) ∨
    ∃ n, s.waiter = .parked n ∧ s.taskCompletedNotify.isReady n = true ∧
      s' = { s with waiter := .checking s.taskCompletedNotify.notified } := by
  unfold waiterStep at h
  cases hw : s.waiter with
  | awaitingSource =>
    simp only [hw] at h
    obtain ⟨hd, ⟨⟩⟩ := Option.ite_none_right_eq_some.mp h
    exact .inl ⟨rfl, hd, _, rfl⟩
  | checking n =>
    simp only [hw] at h
    split at h
    · next he => exact .inr (.inl ⟨n, rfl, Maps.isEmpty_iff.mp he, (Option.some.inj h).symm⟩)
    · next he =>
      exact .inr (.inr (.inl ⟨n, rfl, Maps.exists_of_not_isEmpty he, (Option.some.inj h).symm⟩))
  | parked n =>
    simp only [hw] at h
    obtain ⟨hr, ⟨⟩⟩ := Option.ite_none_right_eq_some.mp h
    exact .inr (.inr (.inr ⟨n, rfl, hr, rfl⟩))
  | finished =>
    simp only [hw] at h
    cases h

/-! ## The end of the stream -/

/-- The stream ends after its source, with an empty map. -/
structure Inv (s : Tasks) : Prop where
  source : s.waiter ≠ .awaitingSource → s.sourceDone = true
  finished : s.waiter = .finished → ∀ tt, s.outstandingTaskMap.lookup tt = none
  shut : Event.shutDown ∈ s.log → s.waiter = .finished
  completed : ∀ tt, s.outstandingTaskMap.lookup tt = none → Completed s.log tt
  last : Each (fun before e => (∃ tt, e = .task tt) → Event.shutDown ∉ before) s.log

theorem inv_new (gracefulShutdown : Option Nat) : Inv (new gracefulShutdown) where
  source h := absurd rfl h
  finished h := by cases h
  shut h := by cases h
  completed _ _ := Paired.nil
  last := trivial

theorem inv_handOut (h : Inv s) (hd : s.sourceDone = false) (tt : TaskToken) (timeout : Bool) :
    Inv (handOut s tt timeout) := by
  have hw : s.waiter = .awaitingSource := by
    by_contra hne
    rw [h.source hne] at hd
    cases hd
  have hshut : Event.shutDown ∉ s.log := fun hm => by cases hw.symm.trans (h.shut hm)
  refine ⟨h.source, by simp [handOut, hw], by simp [handOut, hshut], ?_, fun _ => hshut, h.last⟩
  intro t ht
  simp only [handOut, lookup_insert_ite] at ht
  split at ht
  · cases ht
  · next hne => exact .cons (fun he => hne (Event.task.inj he).symm) (h.completed t ht)

theorem Inv.of_same_tasks (h : Inv s) (hd : s'.sourceDone = s.sourceDone)
    (ho : s'.outstandingTaskMap = s.outstandingTaskMap) (hw : s'.waiter = s.waiter)
    (new : List Event) (hl : s'.log = new ++ s.log) (hshut : Event.shutDown ∈ new → s.waiter = .finished)
    (hnew : ∀ e ∈ new, ∀ tt, e ≠ .task tt) : Inv s' := by
  refine ⟨by rw [hw, hd]; exact h.source, by rw [hw, ho]; exact h.finished, ?_, ?_, ?_⟩
  · rw [hw, hl, List.mem_append]
    exact fun hm => hm.elim hshut h.shut
  · rw [ho, hl]
    exact fun tt ht => (h.completed tt ht).append fun e he => hnew e he tt
  · rw [hl]
    exact h.last.append fun e he _ ⟨tt, ht⟩ => absurd ht (hnew e he tt)

theorem inv_completeTask (h : Inv s) (tt : TaskToken) : Inv (completeTask s tt) := by
  unfold completeTask
  split
  · exact h
  · refine ⟨h.source, ?_, by simpa using h.shut, ?_, ⟨by simp, h.last⟩⟩
    · exact fun hw => lookup_erase_none (h.finished hw) tt
    · intro t ht
      simp only [lookup_erase_ite] at ht
      split at ht
      · next he =>
        subst he
        exact .close (by simp) rfl
      · exact .cons (by simp) (h.completed t ht)

theorem inv_waiterStep (h : Inv s) (hs : waiterStep s = some s') : Inv s' := by
  have hshut : s.waiter ≠ .finished → ∀ w, Event.shutDown ∈ s.log → w = Waiter.finished :=
    fun hf _ hm => absurd (h.shut hm) hf
  rcases waiterStep_cases hs with ⟨hw, hd, g, rfl⟩ | ⟨n, hw, he, rfl⟩ | ⟨n, hw, -, rfl⟩ | ⟨n, hw, -, rfl⟩
  · exact ⟨fun _ => hd, by simp, hshut (by simp [hw]) _, h.completed, h.last⟩
  · exact ⟨fun _ => h.source (by simp [hw]), fun _ => he, fun _ => rfl, h.completed, h.last⟩
  · exact ⟨fun _ => h.source (by simp [hw]), by simp, hshut (by simp [hw]) _, h.completed, h.last⟩
  · exact ⟨fun _ => h.source (by simp [hw]), by simp, hshut (by simp [hw]) _, h.completed, h.last⟩

theorem inv_step (h : Inv s) (hs : step s i = some s') : Inv s' := by
  cases step_effect hs with
  | poll hd => exact inv_handOut h hd _ _
  | pollFailed => exact h.of_same_tasks rfl rfl rfl [.error] rfl (by simp) (by simp)
  | sourceComplete => exact { h with source := fun _ => rfl }
  | timerFires | timerAborted | graceElapsed | reported =>
    exact h.of_same_tasks rfl rfl rfl [] rfl (by simp) (by simp)
  | @takeCancel c _ _ => exact h.of_same_tasks rfl rfl rfl [.cancelTask c] rfl (by simp) (by simp)
  | complete => exact inv_completeTask h _
  | waiter hs => exact inv_waiterStep h hs
  | shutDown hw => exact h.of_same_tasks rfl rfl rfl [.shutDown] rfl (fun _ => hw) (by simp)

theorem reachable_inv (h : Reachable ok s) : Inv s :=
  h.invariant (fun _ ⟨g, hg⟩ => hg ▸ inv_new g) fun _ _ _ hi _ hs => inv_step hi hs

/-! ## Answers that are being sent -/

/-- The waiter was told of no completion since it waits. -/
def isAtRest (s : Tasks) : Bool :=
  match s.waiter with
  | .parked n => !s.taskCompletedNotify.isReady n
  | _ => false

def isLast (s : Tasks) (tt : TaskToken) : Bool :=
  (s.outstandingTaskMap.lookup tt).isSome && (s.outstandingTaskMap.erase tt).entries.isEmpty

/-- The poller does not end with an empty map while an answer is sent. Afterwards the last task is completed while
nothing is sent and the waiter rests. -/
def OneAtATime (s : Tasks) : Input → Prop
  | .sourceComplete => s.outstandingTaskMap.entries.isEmpty = true → s.sending = []
  | .complete tt => s.sourceDone = true → isLast s tt = true → s.sending = [] ∧ isAtRest s = true
  | _ => True

instance (s : Tasks) (i : Input) : Decidable (OneAtATime s i) := by
  cases i <;> dsimp only [OneAtATime] <;> infer_instance

/-- After the poller, with an empty map, the waiter waits for the one answer that is sent. -/
def Awaited (s : Tasks) : Prop :=
  s.sourceDone = true → (∀ tt, s.outstandingTaskMap.lookup tt = none) →
    s.sending = [] ∨ (∃ tt, s.sending = [tt]) ∧ isAtRest s = true

theorem awaited_completeTask (h : Awaited s) (hok : OneAtATime s (.complete tt)) : Awaited (completeTask s tt) := by
  unfold completeTask
  cases hl : s.outstandingTaskMap.lookup tt with
  | none => exact h
  | some task =>
    intro hd he
    have hlast : isLast s tt = true := by
      rw [isLast, hl, Option.isSome_some]
      exact Maps.isEmpty_iff.mpr he
    obtain ⟨hsend, hrest⟩ := hok hd hlast
    exact .inr ⟨⟨tt, by simp [hsend]⟩, hrest⟩

theorem awaited_waiterStep (h : Awaited s) (hs : waiterStep s = some s') : Awaited s' := by
  have hstays : s.sourceDone = true → (∀ tt, s.outstandingTaskMap.lookup tt = none) → isAtRest s = false →
      s.sending = [] := by
    intro hd he hr
    rcases h hd he with hn | ⟨-, hrest⟩
    · exact hn
    · cases hr.symm.trans hrest
  intro hd he
  rcases waiterStep_cases hs with ⟨hw, -, g, rfl⟩ | ⟨n, hw, -, rfl⟩ | ⟨n, hw, ⟨tt, ht⟩, rfl⟩ | ⟨n, hw, hr, rfl⟩
  · exact .inl (hstays hd he (by simp [isAtRest, hw]))
  · exact .inl (hstays hd he (by simp [isAtRest, hw]))
  · rw [he tt] at ht
    cases ht
  · exact .inl (hstays hd he (by simp [isAtRest, hw, hr]))

theorem awaited_step (h : Awaited s) (hok : OneAtATime s i) (hs : step s i = some s') : Awaited s' := by
  cases step_effect hs with
  | poll hd =>
    intro hd'
    cases hd.symm.trans hd'
  | pollFailed | timerFires | timerAborted | takeCancel | graceElapsed | shutDown => exact h
  | sourceComplete => exact fun _ he => .inl (hok (Maps.isEmpty_iff.mpr he))
  | complete => exact awaited_completeTask h hok
  | reported hm =>
    intro hd he
    rcases h hd he with hn | ⟨⟨t, ht⟩, -⟩
    · simp [hn] at hm
    · -- the only answer that was being sent is over
      rw [ht, List.mem_singleton] at hm
      exact .inl (by simp [taskCompleted, ht, hm])
  | waiter hs => exact awaited_waiterStep h hs

/-- **The stream ends when everything is completed and sent**, if the last task is completed while the waiter rests and
nothing is sent. -/
theorem shutdown_when_completed (h : Reachable OneAtATime s) :
    (Event.shutDown ∈ s.log → s.sourceDone = true ∧ (∀ tt, Completed s.log tt) ∧ s.sending = []) ∧
      ∀ after tt before, s.log = after ++ .task tt :: before → Event.shutDown ∉ before := by
  have hi := reachable_inv h
  have ha : Awaited s := by
    refine h.invariant ?_ fun _ _ _ ha hok hs => awaited_step ha hok hs
    rintro _ ⟨g, rfl⟩ hd
    cases hd
  constructor
  · intro hm
    have hw := hi.shut hm
    have hd := hi.source (by simp [hw])
    refine ⟨hd, fun tt => hi.completed tt (hi.finished hw tt), ?_⟩
    rcases ha hd (hi.finished hw) with hn | ⟨-, hrest⟩
    · exact hn
    · simp [isAtRest, hw] at hrest
  · intro after tt before hl
    exact each_iff.mp hi.last after _ before hl ⟨tt, rfl⟩

/-- The poller ends while the last answer is sent, and so does the stream. -/
theorem shutdown_while_sending :
    ∃ s, Reachable (fun _ _ => True) s ∧ Event.shutDown ∈ s.log ∧ s.sending = [1] :=
  Reach.exists_of_trace [.poll 1 false, .complete 1, .sourceComplete, .waiter, .waiter, .shutDown]
    (by decide) (fun _ _ _ h => h) (.start ⟨none, rfl⟩)

theorem shutdown_when_completed_one :
    ∃ s, Reachable OneAtATime s ∧ Event.shutDown ∈ s.log ∧ (∀ tt, Completed s.log tt) ∧ s.sending = [] := by
  obtain ⟨s, hr, hm⟩ : ∃ s, Reachable OneAtATime s ∧ Event.shutDown ∈ s.log :=
    Reach.exists_of_trace [.poll 1 false, .sourceComplete, .waiter, .waiter, .complete 1, .reported 1, .waiter, .waiter,
      .shutDown] (by decide) (fun _ _ _ h => h) (.start ⟨none, rfl⟩)
  exact ⟨s, hr, hm, ((shutdown_when_completed hr).1 hm).2⟩

/-! ## Cancels -/

def isQueued (s : Tasks) (tt : TaskToken) : Bool := s.cancels.any (·.taskToken = tt)

def Event.isCancelOf (tt : TaskToken) : Event → Bool
  | .cancelTask c => c.taskToken = tt
  | _ => false

/-- A cancel of the task is queued or was taken. -/
def isCancelled (s : Tasks) (tt : TaskToken) : Bool := isQueued s tt || s.log.any (Event.isCancelOf tt)

def DistinctTokens (s : Tasks) : Input → Prop
  | .poll tt _ => Event.task tt ∉ s.log
  | _ => True

instance (s : Tasks) (i : Input) : Decidable (DistinctTokens s i) := by
  cases i <;> dsimp only [DistinctTokens] <;> infer_instance

/-- Timers fire for outstanding tasks that are not cancelled, the grace period ends when none is, and a task is not
completed while its cancel is queued. -/
def CancelsApart (s : Tasks) : Input → Prop
  | .timerFires tt => (s.outstandingTaskMap.lookup tt).isSome = true ∧ isCancelled s tt = false
  | .graceElapsed => ∀ tt ∈ s.outstandingTaskMap.keys, isCancelled s tt = false
  | .complete tt => isQueued s tt = false
  | _ => True

instance (s : Tasks) (i : Input) : Decidable (CancelsApart s i) := by
  cases i <;> dsimp only [CancelsApart] <;> infer_instance

/-- The cancel names a task that lang has and that was not cancelled before. -/
def NamesLive (before : List Event) (c : CancelNexusTask) : Prop :=
  Event.task c.taskToken ∈ before ∧ Event.completed c.taskToken ∉ before ∧
    ∀ c', Event.cancelTask c' ∈ before → c'.taskToken ≠ c.taskToken

theorem isQueued_eq_false : isQueued s tt = false ↔ ∀ c ∈ s.cancels, c.taskToken ≠ tt := by
  simp [isQueued]

theorem isCancelled_eq_false : isCancelled s tt = false ↔
    (∀ c ∈ s.cancels, c.taskToken ≠ tt) ∧ ∀ c, Event.cancelTask c ∈ s.log → c.taskToken ≠ tt := by
  rw [isCancelled, Bool.or_eq_false_iff, isQueued_eq_false, List.any_eq_false]
  refine and_congr_right fun _ => ?_
  constructor
  · intro h c hc
    simpa [Event.isCancelOf] using h _ hc
  · intro h e he
    cases e with
    | cancelTask c => simpa [Event.isCancelOf] using h c he
    | _ => simp [Event.isCancelOf]

/-- Every queued cancel will be right when it is taken. -/
structure Live (s : Tasks) : Prop where
  known : ∀ tt, Event.completed tt ∈ s.log → Event.task tt ∈ s.log
  tracked : ∀ tt, (s.outstandingTaskMap.lookup tt).isSome → Event.task tt ∈ s.log ∧ Event.completed tt ∉ s.log
  queued : ∀ c ∈ s.cancels, (s.outstandingTaskMap.lookup c.taskToken).isSome ∧
    ∀ c', Event.cancelTask c' ∈ s.log → c'.taskToken ≠ c.taskToken
  nodup : (s.cancels.map (·.taskToken)).Nodup
  each : Each (fun before e => ∀ c, e = .cancelTask c → NamesLive before c) s.log

theorem live_handOut (h : Live s) (hf : Event.task tt ∉ s.log) (timeout : Bool) : Live (handOut s tt timeout) := by
  refine ⟨?_, ?_, ?_, h.nodup, by simp, h.each⟩
  · intro t ht
    simp only [handOut, List.mem_cons, reduceCtorEq, false_or] at ht ⊢
    exact .inr (h.known t ht)
  · intro t ht
    simp only [handOut, lookup_insert_ite, List.mem_cons, reduceCtorEq, false_or, Event.task.injEq] at ht ⊢
    split at ht
    · next he => exact ⟨.inl he, fun hc => hf (he ▸ h.known t hc)⟩
    · exact ⟨.inr (h.tracked t ht).1, (h.tracked t ht).2⟩
  · intro c hc
    obtain ⟨h1, h2⟩ := h.queued c hc
    simp only [handOut, lookup_insert_ite, List.mem_cons, reduceCtorEq, false_or]
    refine ⟨?_, h2⟩
    split
    · rfl
    · exact h1

theorem Live.enqueue (h : Live s) {cs : List CancelNexusTask} (hn : (cs.map (·.taskToken)).Nodup)
    (hc : ∀ c ∈ cs, (s.outstandingTaskMap.lookup c.taskToken).isSome ∧ isCancelled s c.taskToken = false)
    {timers : List TaskToken} {grace : Grace} :
    Live { s with cancels := s.cancels ++ cs, timers := timers, grace := grace } := by
  refine ⟨h.known, h.tracked, ?_, ?_, h.each⟩
  · intro c hm
    rcases List.mem_append.mp hm with hm | hm
    · exact h.queued c hm
    · exact ⟨(hc c hm).1, (isCancelled_eq_false.mp (hc c hm).2).2⟩
  · rw [List.map_append, List.nodup_append]
    refine ⟨h.nodup, hn, ?_⟩
    rintro _ hx _ hy rfl
    obtain ⟨c, hcm, rfl⟩ := List.mem_map.mp hx
    obtain ⟨c', hcm', he⟩ := List.mem_map.mp hy
    exact (isCancelled_eq_false.mp (hc c' hcm').2).1 c hcm he.symm

theorem live_takeCancel (h : Live s) {c : CancelNexusTask} {rest : List CancelNexusTask} (hc : s.cancels = c :: rest) :
    Live { s with cancels := rest, log := .cancelTask c :: s.log } := by
  have hn := h.nodup
  rw [hc, List.map_cons, List.nodup_cons] at hn
  have hq := h.queued c (by simp [hc])
  have ht := h.tracked _ hq.1
  refine ⟨?_, ?_, ?_, hn.2, ?_, h.each⟩
  · intro tt hm
    simp only [List.mem_cons, reduceCtorEq, false_or] at hm ⊢
    exact h.known tt hm
  · intro tt hl
    simp only [List.mem_cons, reduceCtorEq, false_or]
    exact h.tracked tt hl
  · intro d hd
    obtain ⟨h1, h2⟩ := h.queued d (by simp [hc, hd])
    refine ⟨h1, ?_⟩
    intro c' hm
    simp only [List.mem_cons, Event.cancelTask.injEq] at hm
    rcases hm with rfl | hm
    · exact fun he => hn.1 (he ▸ List.mem_map_of_mem hd)
    · exact h2 c' hm
  · intro d hd
    cases hd
    exact ⟨ht.1, ht.2, hq.2⟩

theorem live_completeTask (h : Live s) (hq : isQueued s tt = false) : Live (completeTask s tt) := by
  unfold completeTask
  cases hl : s.outstandingTaskMap.lookup tt with
  | none => exact h
  | some task =>
    refine ⟨?_, ?_, ?_, h.nodup, by simp, h.each⟩
    · intro t ht
      simp only [List.mem_cons, reduceCtorEq, false_or, Event.completed.injEq] at ht ⊢
      rcases ht with rfl | ht
      · exact (h.tracked t (by simp [hl])).1
      · exact h.known t ht
    · intro t ht
      simp only [lookup_erase_ite] at ht
      split at ht
      · cases ht
      · next hne =>
        simp only [List.mem_cons, reduceCtorEq, false_or, Event.completed.injEq, hne]
        exact h.tracked t ht
    · intro c hc
      obtain ⟨h1, h2⟩ := h.queued c hc
      simp only [lookup_erase_ite, isQueued_eq_false.mp hq c hc, if_false, List.mem_cons, reduceCtorEq, false_or]
      exact ⟨h1, h2⟩

theorem Live.record (h : Live s) {e : Event} (he : e = .error ∨ e = .shutDown) {ended : Bool} :
    Live { s with ended := ended, log := e :: s.log } := by
  rcases he with rfl | rfl <;>
    exact ⟨by simpa using h.known, by simpa using h.tracked, by simpa using h.queued, h.nodup, by simp, h.each⟩

theorem live_step (h : Live s) (hd : DistinctTokens s i) (hok : CancelsApart s i) (hs : step s i = some s') :
    Live s' := by
  cases step_effect hs with
  | poll => exact live_handOut h hd _
  | pollFailed => exact h.record (.inl rfl)
  | sourceComplete | timerAborted | reported => exact { h with }
  | timerFires =>
    refine h.enqueue (by simp) ?_
    intro c hc
    rw [List.mem_singleton.mp hc]
    exact hok
  | takeCancel hc => exact live_takeCancel h hc
  | graceElapsed =>
    refine h.enqueue ?_ ?_
    · have hk : s.outstandingTaskMap.keys.Nodup := s.outstandingTaskMap.nodupKeys
      simpa [Function.comp_def] using hk
    · intro c hc
      obtain ⟨tt, ht, rfl⟩ := List.mem_map.mp hc
      exact ⟨AList.lookup_isSome.mpr ht, hok tt ht⟩
  | complete => exact live_completeTask h hok
  | waiter hs =>
    rcases waiterStep_cases hs with ⟨-, -, g, rfl⟩ | ⟨n, -, -, rfl⟩ | ⟨n, -, -, rfl⟩ | ⟨n, -, -, rfl⟩ <;>
      exact { h with }
  | shutDown => exact h.record (.inr rfl)

/-- **A cancel names a task that lang has**, and the only one for it, in every run with distinct tokens where a task is
cancelled once and not completed while its cancel is queued. -/
theorem cancel_names_live_task (h : Reachable (fun s i => DistinctTokens s i ∧ CancelsApart s i) s)
    (after before : List Event) (c : CancelNexusTask) (hl : s.log = after ++ .cancelTask c :: before) :
    NamesLive before c := by
  have hi : Live s :=
    h.invariant (fun _ ⟨g, hg⟩ => hg ▸ ⟨by simp [new], by simp [new], by simp [new], by simp [new],
      trivial⟩) fun _ _ _ hi hok hs => live_step hi hok.1 hok.2 hs
  exact each_iff.mp hi.each after _ before hl c rfl

/-- The timer fires, lang completes the task, and is told to cancel it at the next poll. -/
theorem cancel_after_completed :
    ∃ s, Reachable DistinctTokens s ∧
      ∃ c before, s.log = .cancelTask c :: before ∧ Event.completed c.taskToken ∈ before := by
  obtain ⟨s, hr, hl⟩ : ∃ s, Reachable DistinctTokens s ∧
      s.log = [.cancelTask ⟨1, .timedOut⟩, .completed 1, .task 1] :=
    Reach.exists_of_trace [.poll 1 true, .timerFires 1, .complete 1, .takeCancel] (by decide) (fun _ _ _ h => h)
      (.start ⟨none, rfl⟩)
  exact ⟨s, hr, _, _, hl, by simp⟩

/-- One task is cancelled by its timer, and one by the grace period. -/
theorem cancel_names_live_task_two :
    ∃ s, Reachable (fun s i => DistinctTokens s i ∧ CancelsApart s i) s ∧
      ∃ after before, s.log = after ++ .cancelTask ⟨2, .workerShutdown⟩ :: before ∧
        NamesLive before ⟨2, .workerShutdown⟩ := by
  obtain ⟨s, hr, hl⟩ : ∃ s, Reachable (fun s i => DistinctTokens s i ∧ CancelsApart s i) s ∧
      s.log = [.cancelTask ⟨2, .workerShutdown⟩, .completed 1, .cancelTask ⟨1, .timedOut⟩, .task 2, .task 1] :=
    Reach.exists_of_trace
      [.poll 1 true, .poll 2 false, .timerFires 1, .takeCancel, .complete 1, .sourceComplete, .waiter, .graceElapsed,
        .takeCancel] (by decide) (fun _ _ _ h => h) (.start ⟨some 10, rfl⟩)
  exact ⟨s, hr, [], _, hl, cancel_names_live_task hr [] _ _ hl⟩

end SdkCore.NexusManager
