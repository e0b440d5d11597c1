import SdkCore.History.CacheMiss
import SdkCore.Lib.Logs
import SdkCore.Lib.Maps
import SdkCore.Lib.Reach
import SdkCore.Lib.Wakeups

/-!
# The end of the stream of activity tasks

A completion takes its task out of the map first and reports it later, so completions are counted. When the start
sources have ended, a waiter ends the stream once the map is empty and the counter is zero; it looks at one after the
other (`shutdown_when_drained`). `step` is one access to what is shared, and `log` records what happened.
-/

namespace SdkCore.WorkerActivityTasks

open Maps

inductive CancelReason
  | notFound
  | cancelled
  | timedOut
  | workerShutdown
  | paused
  | reset
  deriving DecidableEq

structure PendingActivityCancel where
  taskToken : TaskToken
  reason : CancelReason
  isNotFound : Bool
  deriving DecidableEq

structure RemoteInFlightActInfo where
  issuedCancelToLang : Option CancelReason
  knownNotFound : Bool
  deriving DecidableEq

/-- What `poll` returns, and what lang completes. -/
inductive Event
  | start (tt : TaskToken)
  | cancel (tt : TaskToken) (reason : CancelReason)
  | error
  | shutDown
  | completed (tt : TaskToken)
  deriving DecidableEq

inductive Completion
  | counted (tt : TaskToken)
  /-- The map was asked for the task. If there was one, the result is reported to the server. -/
  | removed (tt : TaskToken) (actInfo : Option RemoteInFlightActInfo)
  deriving DecidableEq

/-- The completion has a result to report. -/
def Completion.isFlushing : Completion → Bool
  | .counted _ => false
  | .removed _ actInfo => actInfo.isSome

/-- Where the task is that ends the stream. -/
inductive Waiter
  | awaitingStarts
  | checking
  | noOutstanding
  | changing
  | parked
  | finished
  deriving DecidableEq

/-- The grace period of a shutdown. -/
inductive Grace
  | running
  | elapsed
  | stopped
  deriving DecidableEq

/-- What the accesses share. -/
structure Tasks where
  outstandingActivityTasks : Map TaskToken RemoteInFlightActInfo
  startTasksStreamComplete : Bool
  cancels : List PendingActivityCancel
  shouldIssueImmediateCancel : Bool
  grace : Grace
  completionsInFlight : Watch Nat
  /-- The version of the counter that the waiter has seen. -/
  seen : Nat
  completions : List Completion
  waiter : Waiter
  ended : Bool
  log : List Event

/-- Without a grace period there is nothing to wait for. -/
def new (gracefulShutdown : Option Nat) : Tasks where
  outstandingActivityTasks := ∅
  startTasksStreamComplete := false
  cancels := []
  shouldIssueImmediateCancel := false
  grace := if gracefulShutdown.isSome then .running else .elapsed
  completionsInFlight := .channel 0
  seen := 0
  completions := []
  waiter := .awaitingStarts
  ended := false
  log := []

/-! ## Steps -/

inductive Input
  /-- The start sources give a task, from the server or an eager one. -/
  | start (tt : TaskToken)
  | startFailed
  | startsEnded
  /-- A heartbeat, a local timeout or somebody else asks for a cancel. -/
  | sendCancel (cancel : PendingActivityCancel)
  | takeCancel
  | graceElapsed
  | complete (tt : TaskToken)
  | remove (i : Nat)
  /-- The report is over, or the future of the completion is dropped. -/
  | reported (i : Nat)
  | waiter
  | shutDown
  deriving DecidableEq

/-- A task is handed to lang. Once the grace period is over it is cancelled right away. -/
def startTask (s : Tasks) (tt : TaskToken) : Tasks :=
  { s with
    outstandingActivityTasks := s.outstandingActivityTasks.insert tt ⟨none, false⟩
    cancels := if s.shouldIssueImmediateCancel then s.cancels ++ [⟨tt, .workerShutdown, false⟩] else s.cancels
    log := .start tt :: s.log }

/-- Cancels of tasks that were completed, and second ones, are ignored. -/
def issueCancel (s : Tasks) (nextPc : PendingActivityCancel) : Tasks :=
  match s.outstandingActivityTasks.lookup nextPc.taskToken with
  | none => s
  | some details =>
    if details.issuedCancelToLang.isSome then s
    else
      let knownNotFound := details.knownNotFound || nextPc.reason = .notFound || nextPc.isNotFound
      { s with
        outstandingActivityTasks :=
          s.outstandingActivityTasks.insert nextPc.taskToken ⟨some nextPc.reason, knownNotFound⟩
        log := .cancel nextPc.taskToken nextPc.reason :: s.log }

/-- The grace period is over: everything is cancelled, and what starts from now on. -/
def graceKiller (s : Tasks) : Tasks :=
  { s with
    shouldIssueImmediateCancel := true
    cancels := s.cancels ++ s.outstandingActivityTasks.keys.map fun tt => ⟨tt, .workerShutdown, false⟩
    grace := .elapsed }

def count (s : Tasks) (tt : TaskToken) : Tasks :=
  { s with
    completionsInFlight := s.completionsInFlight.sendModify (· + 1)
    completions := s.completions ++ [.counted tt] }

/-- A completion takes its task out of the map. -/
def removeTask (s : Tasks) (i : Nat) (tt : TaskToken) : Tasks :=
  { s with
    outstandingActivityTasks := s.outstandingActivityTasks.erase tt
    completions := s.completions.set i (.removed tt (s.outstandingActivityTasks.lookup tt))
    log := if (s.outstandingActivityTasks.lookup tt).isSome then .completed tt :: s.log else s.log }

def uncount (s : Tasks) (i : Nat) : Tasks :=
  { s with
    completionsInFlight := s.completionsInFlight.sendModify (· - 1)
    completions := s.completions.eraseIdx i }

/-- One access of the waiter, if it can go on. -/
def waiterStep (s : Tasks) : Option Tasks :=
  match s.waiter with
  | .awaitingStarts => if s.startTasksStreamComplete then some { s with waiter := .checking } else none
  | .checking =>
    some { s with waiter := if s.outstandingActivityTasks.entries.isEmpty then .noOutstanding else .changing }
  | .noOutstanding =>
    let s' := { s with seen := s.completionsInFlight.version }
    if s.completionsInFlight.value = 0 then some { s' with waiter := .finished, grace := .stopped }
    else some { s' with waiter := .changing }
  | .changing =>
    if s.completionsInFlight.hasChanged s.seen then
      some { s with seen := s.completionsInFlight.version, waiter := .checking }
    else some { s with waiter := .parked }
  | .parked =>
    if s.completionsInFlight.hasChanged s.seen then
      some { s with seen := s.completionsInFlight.version, waiter := .checking }
    else none
  | .finished => none

def step (s : Tasks) : Input → Option Tasks
  | .start tt => if s.startTasksStreamComplete || s.ended then none else some (startTask s tt)
  | .startFailed =>
    if s.startTasksStreamComplete || s.ended then none else some { s with log := .error :: s.log }
  | .startsEnded => some { s with startTasksStreamComplete := true }
  | .sendCancel cancel => some { s with cancels := s.cancels ++ [cancel] }
  | .takeCancel =>
    match s.cancels with
    | [] => none
    | nextPc :: rest => if s.ended then none else some (issueCancel { s with cancels := rest } nextPc)
  | .graceElapsed => if s.grace = .running then some (graceKiller s) else none
  | .complete tt => some (count s tt)
  | .remove i =>
    match s.completions[i]? with
    | some (.counted tt) => some (removeTask s i tt)
    | _ => none
  | .reported i =>
    match s.completions[i]? with
    | some (.removed _ _) => some (uncount s i)
    | _ => none
  | .waiter => waiterStep s
  | .shutDown => if s.waiter = .finished then some { s with ended := true, log := .shutDown :: s.log } else none

abbrev Reachable : Tasks → Prop :=
  Reach (fun s i s' => step s i = some s') (fun _ _ => True) fun s => ∃ gracefulShutdown, s = new gracefulShutdown

/-- Every time that the task was handed to lang, it was completed afterwards. -/
def Completed (log : List Event) (tt : TaskToken) : Prop :=
  Paired (· = .start tt) (· = .completed tt) log

/-! ## The invariant -/

/-- Lang holds nothing, and nothing is being flushed. -/
structure Drained (s : Tasks) : Prop where
  starts : s.startTasksStreamComplete = true
  outstanding : ∀ tt, s.outstandingActivityTasks.lookup tt = none
  flushing : ∀ c ∈ s.completions, c.isFlushing = false

/-- Something will still change the counter, or a change has not been seen. -/
def WillChange (s : Tasks) : Prop :=
  (∃ tt, (s.outstandingActivityTasks.lookup tt).isSome) ∨ s.completions ≠ [] ∨ s.seen < s.completionsInFlight.version

structure Inv (s : Tasks) : Prop where
  starts : s.waiter ≠ .awaitingStarts → s.startTasksStreamComplete = true
  counter : s.completionsInFlight.value = s.completions.length
  seen : s.seen ≤ s.completionsInFlight.version
  empty : s.waiter = .noOutstanding → ∀ tt, s.outstandingActivityTasks.lookup tt = none
  waits : s.waiter = .changing ∨ s.waiter = .parked → WillChange s
  finished : s.waiter = .finished → Drained s
  shut : Event.shutDown ∈ s.log → s.waiter = .finished
  completed : ∀ tt, s.outstandingActivityTasks.lookup tt = none → Completed s.log tt

variable {s s' : Tasks}

theorem inv_new (gracefulShutdown : Option Nat) : Inv (new gracefulShutdown) where
  starts h := absurd rfl h
  counter := rfl
  seen := Nat.le_refl _
  empty h := by cases h
  waits h := by rcases h with h | h <;> cases h
  finished h := by cases h
  shut h := by cases h
  completed _ _ := Paired.nil

theorem inv_startTask (h : Inv s) (hc : s.startTasksStreamComplete = false) (tt : TaskToken) :
    Inv (startTask s tt) := by
  have hw : s.waiter = .awaitingStarts := by
    by_contra hne
    rw [h.starts hne] at hc
    cases hc
  refine ⟨h.starts, h.counter, h.seen, ?_, ?_, ?_, ?_, ?_⟩
  · simp [startTask, hw]
  · simp [startTask, hw]
  · simp [startTask, hw]
  · intro hm
    rcases List.mem_cons.mp hm with hm | hm
    · cases hm
    · exact h.shut hm
  · intro t ht
    simp only [startTask, lookup_insert_ite] at ht
    split at ht
    · cases ht
    · next hne => exact .cons (fun he => hne (Event.start.inj he).symm) (h.completed t ht)

/-- Accesses that leave map, counter and waiter alone keep the invariant. -/
theorem Inv.of_same_tasks (h : Inv s) (hs : s'.startTasksStreamComplete = s.startTasksStreamComplete)
    (ho : ∀ tt, s'.outstandingActivityTasks.lookup tt = none ↔ s.outstandingActivityTasks.lookup tt = none)
    (hc : s'.completionsInFlight = s.completionsInFlight) (hn : s'.seen = s.seen)
    (hcs : s'.completions = s.completions) (hw : s'.waiter = s.waiter)
    (new : List Event) (hl : s'.log = new ++ s.log) (hnew : ∀ e ∈ new, e ≠ .shutDown ∧ ∀ tt, e ≠ .start tt) :
    Inv s' := by
  have hsome : ∀ tt, (s'.outstandingActivityTasks.lookup tt).isSome ↔
      (s.outstandingActivityTasks.lookup tt).isSome := by
    intro tt
    simp only [Option.isSome_iff_ne_none, ne_eq, ho]
  refine ⟨?_, ?_, ?_, ?_, ?_, ?_, ?_, ?_⟩
  · rw [hw, hs]
    exact h.starts
  · rw [hc, hcs]
    exact h.counter
  · rw [hn, hc]
    exact h.seen
  · rw [hw]
    exact fun he tt => (ho tt).mpr (h.empty he tt)
  · rw [hw]
    intro he
    unfold WillChange
    simp only [hsome, hcs, hn, hc]
    exact h.waits he
  · rw [hw]
    intro he
    obtain ⟨h1, h2, h3⟩ := h.finished he
    exact ⟨hs.trans h1, fun tt => (ho tt).mpr (h2 tt), by rwa [hcs]⟩
  · rw [hw, hl, List.mem_append]
    exact fun hm => h.shut (hm.resolve_left fun hm => (hnew _ hm).1 rfl)
  · rw [hl]
    exact fun tt ht => (h.completed tt ((ho tt).mp ht)).append fun e he => (hnew e he).2 tt

theorem inv_issueCancel (h : Inv s) (nextPc : PendingActivityCancel) : Inv (issueCancel s nextPc) := by
  unfold issueCancel
  split
  · exact h
  · next details hd =>
    split
    · exact h
    · refine h.of_same_tasks rfl ?_ rfl rfl rfl rfl [_] rfl (by simp)
      intro tt
      simp only [lookup_insert_ite]
      split
      · next he =>
        rw [he, hd]
        simp
      · rfl

/-- To count a completion keeps the invariant. -/
theorem inv_count (h : Inv s) (tt : TaskToken) : Inv (count s tt) where
  starts := h.starts
  counter := by simp [count, h.counter]
  seen := Nat.le_succ_of_le h.seen
  empty := h.empty
  waits _ := .inr (.inl (by simp [count]))
  finished hw := by
    obtain ⟨h1, h2, h3⟩ := h.finished hw
    refine ⟨h1, h2, ?_⟩
    intro c hc
    rcases List.mem_append.mp hc with hc | hc
    · exact h3 c hc
    · rw [List.mem_singleton.mp hc]
      rfl
  shut := h.shut
  completed := h.completed

/-- A completion that was counted may take its task. -/
theorem inv_removeTask (h : Inv s) {i : Nat} {tt : TaskToken} (hi : s.completions[i]? = some (.counted tt)) :
    Inv (removeTask s i tt) := by
  have hne : (removeTask s i tt).completions ≠ [] := by
    have hlt := (List.getElem?_eq_some_iff.mp hi).1
    intro he
    have hlen := congrArg List.length he
    simp only [removeTask, List.length_set, List.length_nil] at hlen
    omega
  have hempty : (∀ t, s.outstandingActivityTasks.lookup t = none) →
      ∀ t, (removeTask s i tt).outstandingActivityTasks.lookup t = none :=
    fun hn => lookup_erase_none hn tt
  refine ⟨h.starts, ?_, h.seen, fun hw => hempty (h.empty hw), fun _ => .inr (.inl hne), ?_, ?_, ?_⟩
  · simp [removeTask, h.counter]
  · intro hw
    obtain ⟨h1, h2, h3⟩ := h.finished hw
    refine ⟨h1, hempty h2, ?_⟩
    intro c hc
    rcases List.mem_or_eq_of_mem_set hc with hc | hc
    · exact h3 c hc
    · rw [hc]
      simp [Completion.isFlushing, h2 tt]
  · intro hm
    refine h.shut ?_
    simp only [removeTask] at hm
    split at hm
    · rcases List.mem_cons.mp hm with hm | hm
      · cases hm
      · exact hm
    · exact hm
  · intro t ht
    simp only [removeTask, lookup_erase_ite] at ht ⊢
    split at ht
    · next he =>
      subst he
      split
      · exact .close (by intro he; cases he) rfl
      · next hn => exact h.completed t (by simpa using hn)
    · split
      · exact .cons (by intro he; cases he) (h.completed t ht)
      · exact h.completed t ht

/-- To report a completion keeps the invariant. -/
theorem inv_uncount (h : Inv s) {i : Nat} (hi : i < s.completions.length) : Inv (uncount s i) where
  starts := h.starts
  counter := by
    simp only [uncount, Watch.sendModify_value, List.length_eraseIdx_of_lt hi, h.counter]
  seen := Nat.le_succ_of_le h.seen
  empty := h.empty
  waits _ := .inr (.inr (Nat.lt_succ_of_le h.seen))
  finished hw := by
    obtain ⟨h1, h2, h3⟩ := h.finished hw
    exact ⟨h1, h2, fun c hc => h3 c (List.mem_of_mem_eraseIdx hc)⟩
  shut := h.shut
  completed := h.completed

/-! ## The waiter -/

theorem Inv.goTo (h : Inv s) {w : Waiter} {n : Nat} {g : Grace} (hn : n ≤ s.completionsInFlight.version)
    (hs : s.startTasksStreamComplete = true) (hf : s.waiter ≠ .finished)
    (he : w = .noOutstanding → ∀ tt, s.outstandingActivityTasks.lookup tt = none)
    (hw : w = .changing ∨ w = .parked → WillChange { s with seen := n })
    (hd : w = .finished → Drained s) : Inv { s with seen := n, waiter := w, grace := g } where
  starts _ := hs
  counter := h.counter
  seen := hn
  empty := he
  waits := hw
  finished hw := ⟨hs, (hd hw).outstanding, (hd hw).flushing⟩
  shut hm := absurd (h.shut hm) hf
  completed := h.completed

theorem inv_check (h : Inv s) (hs : s.startTasksStreamComplete = true) (hf : s.waiter ≠ .finished) :
    Inv { s with seen := s.completionsInFlight.version, waiter := .checking } :=
  h.goTo (Nat.le_refl _) hs hf (by simp) (by simp) (by simp)

theorem inv_waiterStep (h : Inv s) (hs : waiterStep s = some s') : Inv s' := by
  unfold waiterStep at hs
  cases hw : s.waiter with
  | awaitingStarts =>
    simp only [hw] at hs
    obtain ⟨hc, ⟨⟩⟩ := Option.ite_none_right_eq_some.mp hs
    exact h.goTo h.seen hc (by simp [hw]) (by simp) (by simp) (by simp)
  | checking =>
    simp only [hw] at hs
    have hstarts := h.starts (by simp [hw])
    cases hs
    split
    · next he => exact h.goTo h.seen hstarts (by simp [hw]) (fun _ => Maps.isEmpty_iff.mp he) (by simp) (by simp)
    · next he =>
      exact h.goTo h.seen hstarts (by simp [hw]) (by simp) (fun _ => .inl (Maps.exists_of_not_isEmpty he)) (by simp)
  | noOutstanding =>
    simp only [hw] at hs
    have hstarts := h.starts (by simp [hw])
    split at hs
    · next hz =>
      cases hs
      have hnil : s.completions = [] := List.length_eq_zero_iff.mp (h.counter.symm.trans hz)
      exact h.goTo (Nat.le_refl _) hstarts (by simp [hw]) (by simp) (by simp)
        fun _ => ⟨hstarts, h.empty hw, by simp [hnil]⟩
    · next hz =>
      cases hs
      have hne : s.completions ≠ [] := fun he => hz (by rw [h.counter, he]; rfl)
      exact h.goTo (Nat.le_refl _) hstarts (by simp [hw]) (by simp) (fun _ => .inr (.inl hne)) (by simp)
  | changing =>
    simp only [hw] at hs
    have hstarts := h.starts (by simp [hw])
    split at hs
    · cases hs
      exact inv_check h hstarts (by simp [hw])
    · cases hs
      exact h.goTo h.seen hstarts (by simp [hw]) (by simp) (fun _ => h.waits (.inl hw)) (by simp)
  | parked =>
    simp only [hw] at hs
    obtain ⟨-, ⟨⟩⟩ := Option.ite_none_right_eq_some.mp hs
    exact inv_check h (h.starts (by simp [hw])) (by simp [hw])
  | finished =>
    simp only [hw] at hs
    cases hs

/-! ## Runs -/

theorem inv_step {i : Input} (h : Inv s) (hs : step s i = some s') : Inv s' := by
  cases i with
  | start tt =>
    obtain ⟨hc, ⟨⟩⟩ := Option.ite_none_left_eq_some.mp hs
    simp only [Bool.or_eq_true, not_or, Bool.not_eq_true] at hc
    exact inv_startTask h hc.1 tt
  | startFailed =>
    obtain ⟨-, ⟨⟩⟩ := Option.ite_none_left_eq_some.mp hs
    exact h.of_same_tasks rfl (fun _ => Iff.rfl) rfl rfl rfl rfl [.error] rfl (by simp)
  | startsEnded =>
    cases hs
    exact { h with starts := fun _ => rfl, finished := fun hw => { h.finished hw with starts := rfl } }
  | sendCancel cancel =>
    cases hs
    exact h.of_same_tasks rfl (fun _ => Iff.rfl) rfl rfl rfl rfl [] rfl (by simp)
  | takeCancel =>
    simp only [step] at hs
    split at hs
    · cases hs
    · obtain ⟨-, ⟨⟩⟩ := Option.ite_none_left_eq_some.mp hs
      refine inv_issueCancel ?_ _
      exact h.of_same_tasks rfl (fun _ => Iff.rfl) rfl rfl rfl rfl [] rfl (by simp)
  | graceElapsed =>
    obtain ⟨-, ⟨⟩⟩ := Option.ite_none_right_eq_some.mp hs
    exact h.of_same_tasks rfl (fun _ => Iff.rfl) rfl rfl rfl rfl [] rfl (by simp)
  | complete tt =>
    cases hs
    exact inv_count h tt
  | remove i =>
    simp only [step] at hs
    split at hs
    · next hi =>
      cases hs
      exact inv_removeTask h hi
    · cases hs
  | reported i =>
    simp only [step] at hs
    split at hs
    · next hi =>
      cases hs
      exact inv_uncount h (List.getElem?_eq_some_iff.mp hi).1
    · cases hs
  | waiter => exact inv_waiterStep h hs
  | shutDown =>
    obtain ⟨hw, ⟨⟩⟩ := Option.ite_none_right_eq_some.mp hs
    exact { h with
      finished := fun hf => { h.finished hf with }
      shut := fun _ => hw
      completed := fun tt ht => .cons (by simp) (h.completed tt ht) }

theorem reachable_inv (h : Reachable s) : Inv s :=
  h.invariant (fun _ ⟨g, hg⟩ => hg ▸ inv_new g) fun _ _ _ hi _ hs => inv_step hi hs

/-- **The stream ends only when everything is finished, and its waiter is woken.** After `ShutDown` all sources have
ended, every task given to lang is completed, and nothing is flushed. -/
theorem shutdown_when_drained (h : Reachable s) :
    (Event.shutDown ∈ s.log → s.startTasksStreamComplete = true ∧ (∀ tt, Completed s.log tt) ∧
        s.outstandingActivityTasks.entries.isEmpty = true ∧ ∀ c ∈ s.completions, c.isFlushing = false) ∧
      ¬ (s.waiter = .parked ∧ s.startTasksStreamComplete = true ∧
          s.outstandingActivityTasks.entries.isEmpty = true ∧ s.completionsInFlight.value = 0 ∧
          s.completionsInFlight.hasChanged s.seen = false) := by
  have hi := reachable_inv h
  constructor
  · intro hm
    obtain ⟨h1, h2, h3⟩ := hi.finished (hi.shut hm)
    exact ⟨h1, fun tt => hi.completed tt (h2 tt), Maps.isEmpty_iff.mpr h2, h3⟩
  · rintro ⟨hw, -, he, hz, hn⟩
    rw [Maps.isEmpty_iff] at he
    rcases hi.waits (.inr hw) with ⟨tt, ht⟩ | hc | hv
    · rw [he tt] at ht
      cases ht
    · exact hc (List.length_eq_zero_iff.mp (hi.counter.symm.trans hz))
    · rw [Watch.hasChanged_eq_false] at hn
      omega

theorem shutdown_when_drained_one :
    ∃ s, Reachable s ∧ Event.shutDown ∈ s.log ∧ (∀ tt, Completed s.log tt) ∧ s.completions = [] := by
  obtain ⟨s, hr, hm, hc⟩ : ∃ s, Reachable s ∧ Event.shutDown ∈ s.log ∧ s.completions = [] :=
    Reach.exists_of_trace [.start 1, .startsEnded, .complete 1, .remove 0, .waiter, .waiter, .waiter, .waiter,
      .reported 0, .waiter, .waiter, .waiter, .shutDown] (by decide) (fun _ _ _ h => h) (.start ⟨none, rfl⟩)
  exact ⟨s, hr, hm, ((shutdown_when_drained hr).1 hm).2.1, hc⟩

end SdkCore.WorkerActivityTasks
