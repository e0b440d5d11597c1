import SdkCore.LocalActivities.Starts

/-!
# How long a request has waited

How long a request may wait is compared with the time since its local activity was scheduled first, so a retry may be
timed out as soon as it comes (`schedule_to_start_after_waiting_iff`).
-/

namespace SdkCore

open Maps

namespace LocalActivityManager

variable {s t : Ledger} {l : Label}

/-- Requests on their way differ in their tokens. -/
structure Numbered (s : Ledger) : Prop where
  nodup : (s.requests.map Request.token).Nodup
  bounded : ∀ q ∈ s.requests, q.token ≤ s.nextTtNum

/-- Every move keeps them apart. -/
theorem Move.numbered (h : Move s l t) (hs : Numbered s) : Numbered t := by
  cases h.requests with
  | fewer hr hn => exact ⟨tokens_shrink hr hs.nodup, fun q hq => Nat.le_trans (hs.bounded q (hr.subset hq)) hn⟩
  | more q l hr hsub hq hn =>
    have hle : ∀ q' ∈ l, q'.token ≤ s.nextTtNum := fun q' hq' => hs.bounded q' (hsub.subset hq')
    obtain ⟨hnodup, hbounded⟩ := tokens_grow hr (hs.nodup.sublist (hsub.map _)) hle hq
    exact ⟨hnodup, hn ▸ hbounded⟩

/-! ## New requests -/

def isRetry : NewOrRetry → Prop
  | .new _ => False
  | .retry _ _ => True

/-- Tasks that sleep request retries only. -/
def Backoffs (tasks : List SpawnedTask) : Prop := ∀ task ∈ tasks, ∀ q ∈ task.wake.requests, isRetry q.what

theorem Backoffs.append {tasks timers : List SpawnedTask} (hs : Backoffs tasks)
    (h : ∀ task ∈ timers, task.wake.requests = []) : Backoffs (tasks ++ timers) := by
  intro task ht q hq
  rcases List.mem_append.mp ht with ht | ht
  · exact hs task ht q hq
  · rw [h task ht] at hq
    cases hq

theorem Move.backoffs (h : Move s l t) (hs : Backoffs s.tasks) : Backoffs t.tasks := by
  cases h with
  | idle | elapse | ignore | tooLate | cancelHeld | cancelAgain | indicate | dropMessage | deliver | dropRequest
  | late => exact hs
  | accept act bag timers h hb => exact hs.append hb.requests
  | remove | invalidate | finish => exact fun task ht => hs task (List.mem_of_mem_filter ht)
  | heartbeat deadline run => exact hs.append (by simp [Wake.requests])
  | start i q lai bag timers hi h harm => exact hs.append harm.requests
  | retry tt info lai backoff hi h hc =>
    intro task ht
    rcases List.mem_append.mp ht with ht | ht
    · exact hs task (List.mem_of_mem_filter ht)
    · cases List.mem_singleton.mp ht
      simp [Wake.requests, isRetry]
  | fire i task ht hd => exact fun task' ht' => hs task' (List.mem_of_mem_eraseIdx ht')

/-- Other requests that come to the queue are retries. -/
theorem Move.queued (h : Move s l t) (hs : Backoffs s.tasks) (hl : ∀ id, l ≠ .create id) :
    ∀ q ∈ t.actReqs, q ∈ s.actReqs ∨ isRetry q.what := by
  intro q hq
  cases h with
  | idle | elapse | ignore | cancelHeld | cancelAgain | indicate | dropMessage | deliver | remove | invalidate
  | finish | heartbeat | retry => exact .inl hq
  | accept act | tooLate act => exact absurd rfl (hl act.id)
  | dropRequest | late | start => exact .inl (List.mem_of_mem_eraseIdx hq)
  | fire i task ht hd =>
    rcases List.mem_append.mp hq with hq | hq
    · exact .inl hq
    · exact .inr (hs task (List.mem_of_getElem? ht) q hq)

theorem enqueueNew_queued (act : NewLocalAct) (s : LocalActivityManager) :
    (∀ q ∈ (s.enqueueNew act).2.actReqs, q ∈ s.actReqs ∨ q = ⟨.new act, s.nextTtNum + 1⟩) ∧
      (s.enqueueNew act).2.now = s.now := by
  unfold enqueueNew
  simp only [genNextToken]
  split
  · exact ⟨fun q hq => .inl hq, rfl⟩
  · split
    · next tb s' hb =>
      obtain ⟨timers, -, rfl⟩ := newTimeoutBag_bagged hb
      simp
    · exact ⟨fun q hq => .inl hq, rfl⟩

theorem Step.queued {s s' : LocalActivityManager} {i : Input} (h : Step s i s') (hs : Tracked s.ledger)
    (hn : Numbered s.ledger) (hb : Backoffs s.tasks) :
    (Tracked s'.ledger ∧ Numbered s'.ledger ∧ Backoffs s'.tasks) ∧
      ∀ q ∈ s'.actReqs, q ∈ s.actReqs ∨ isRetry q.what ∨
        ∃ act, i = .enqueue (.new act) ∧ q = ⟨.new act, s.nextTtNum + 1⟩ ∧ s'.now = s.now := by
  have hany : Reach Step (fun _ _ => True) (· = s) s' := .step (.start rfl) trivial h
  have hinv := Reach.ledger_invariant (R := fun _ _ => True) (I := fun t => Numbered t ∧ Backoffs t.tasks)
    ⟨hs, hn, hb⟩ (fun _ => trivial) (fun _ _ _ _ _ => trivial)
    (fun _ _ _ _ hi _ hm => ⟨hm.numbered hi.1, hm.backoffs hi.2⟩) hany
  refine ⟨hinv, ?_⟩
  by_cases hnew : ∃ act, i = .enqueue (.new act)
  · obtain ⟨act, rfl⟩ := hnew
    cases h
    intro q hq
    simp only [process, enqueue, List.foldl_cons, List.foldl_nil] at hq ⊢
    split at hq
    · exact .inl hq
    · next hopen =>
      obtain ⟨hqueued, hnow⟩ := enqueueNew_queued act s
      rcases hqueued q hq with hq | hq
      · exact .inl hq
      · exact .inr (.inr ⟨act, rfl, hq, by simpa [hopen, enqueueOne] using hnow⟩)
  · have hother : Reach Step (fun _ i => ¬ ∃ act, i = .enqueue (.new act)) (· = s) s' := .step (.start rfl) hnew h
    have hnot : ∀ s i (l : Label), (¬ ∃ act, i = .enqueue (.new act)) → l.from s i → ∀ id, l ≠ .create id := by
      rintro s i l hi hl id rfl
      obtain ⟨act, rfl, -⟩ := hl
      exact hi ⟨act, rfl⟩
    have hmoves := Reach.ledger_invariant
      (I := fun t => Backoffs t.tasks ∧ ∀ q ∈ t.actReqs, q ∈ s.actReqs ∨ isRetry q.what)
      ⟨hs, hb, fun q hq => .inl hq⟩ (fun _ _ hc => by cases hc) hnot
      (fun _ _ _ _ hi hl hm => ⟨hm.backoffs hi.1, fun q hq => (hm.queued hi.1 hl q hq).elim (hi.2 q) .inr⟩) hother
    exact fun q hq => (hmoves.2.2 q hq).imp_right .inl

/-- The manager, and when each request came to the queue. -/
structure Clocked where
  lam : LocalActivityManager := {}
  queuedAt : TaskToken → Nat := fun _ => 0

namespace Clocked

def isQueued (s : LocalActivityManager) (tt : TaskToken) : Bool := s.actReqs.any (·.token = tt)

def process (s : Clocked) (i : Input) : Clocked where
  lam := s.lam.process i
  queuedAt tt :=
    if isQueued (s.lam.process i) tt && !isQueued s.lam tt then (s.lam.process i).now else s.queuedAt tt

/-- A local activity carries the time when it is handed over. -/
def isStamped (s : Clocked) : Input → Bool
  | .enqueue (.new act) => act.scheduleTime = s.lam.now
  | _ => true

abbrev Reachable : Clocked → Prop :=
  Reach (fun s i s' => s.process i = s') (fun s i => s.isStamped i = true) (· = {})

/-- New requests came to the queue when they were scheduled. -/
structure Noted (s : Clocked) : Prop where
  tracked : Tracked s.lam.ledger
  numbered : Numbered s.lam.ledger
  backoffs : Backoffs s.lam.tasks
  scheduled : ∀ q ∈ s.lam.actReqs, ∀ la, q.what = .new la → s.queuedAt q.token = la.scheduleTime

theorem Noted.process {s : Clocked} (h : Noted s) {i : Input} (hi : s.isStamped i = true) : Noted (s.process i) := by
  obtain ⟨⟨ht, hn, hb⟩, hqueued⟩ := Step.queued rfl h.tracked h.numbered h.backoffs
  refine ⟨ht, hn, hb, fun q hq la hla => ?_⟩
  rcases hqueued q hq with hold | hretry | ⟨act, rfl, rfl, hnow⟩
  · have hin : isQueued s.lam q.token = true := List.any_eq_true.mpr ⟨q, hold, by simp⟩
    simpa [Clocked.process, hin] using h.scheduled q hold la hla
  · rw [hla] at hretry
    exact hretry.elim
  · cases hla
    have hin : isQueued (s.lam.process (.enqueue (.new la))) (s.lam.nextTtNum + 1) = true :=
      List.any_eq_true.mpr ⟨_, hq, by simp⟩
    have hfresh : isQueued s.lam (s.lam.nextTtNum + 1) = false := by
      refine List.any_eq_false.mpr fun q' hq' he => ?_
      have hle := h.numbered.bounded q' (List.mem_append_left _ hq')
      rw [of_decide_eq_true he] at hle
      exact Nat.not_succ_le_self _ hle
    have hstamp : la.scheduleTime = s.lam.now := by simpa [isStamped] using hi
    simp only [Clocked.process, hin, hfresh]
    exact hnow.trans hstamp.symm

theorem Reachable.noted {s : Clocked} (h : Reachable s) : Noted s := by
  refine h.invariant ?_ ?_
  · rintro _ rfl
    exact ⟨tracked_init, by constructor <;> simp [ledger, Ledger.requests], by simp [Backoffs], by simp⟩
  · rintro s i _ hs hi rfl
    exact hs.process hi

end Clocked

/-! ## The limit -/

/-- A local activity is resolved because it waited too long. -/
def isScheduleToStart : Option NextPendingLAAction → Bool
  | some (.autocomplete (.report _ resolution _)) => resolution.result = .timedOut .scheduleToStart
  | _ => false

theorem nextPending_scheduleToStart {s : LocalActivityManager} {j : Nat} {q : Request} {lai : LocalActivityInfo}
    (hopen : (s.shutdownComplete || s.rcvsDropped) = false) (hq : s.actReqs[j]? = some q)
    (hl : s.laInfo.lookup q.id = some lai) :
    isScheduleToStart (s.nextPending (.request j)).1 =
      q.what.la.scheduleCmd.scheduleToStartTimeout.any (s.now - q.what.la.scheduleTime > ·) := by
  have hl : s.laInfo.lookup q.what.la.id = some lai := hl
  simp only [nextPending, hopen, hq, takeRequest, hl]
  cases h : q.what.la.scheduleCmd.scheduleToStartTimeout.any (s.now - q.what.la.scheduleTime > ·) <;>
    simp [isScheduleToStart, LocalActivityExecutionResult.timeout]

open Clocked in
/-- **A request is timed out only for its time in the queue iff it came when its local activity was scheduled.** -/
theorem schedule_to_start_after_waiting_iff {s : Clocked} (h : Reachable s) {j : Nat} {q : Request}
    {lai : LocalActivityInfo} {limit : Nat} (hopen : (s.lam.shutdownComplete || s.lam.rcvsDropped) = false)
    (hq : s.lam.actReqs[j]? = some q) (hl : s.lam.laInfo.lookup q.id = some lai)
    (hlimit : q.what.la.scheduleCmd.scheduleToStartTimeout = some limit) :
    ((∀ time, s.queuedAt q.token ≤ time →
        isScheduleToStart ({ s.lam with now := time }.nextPending (.request j)).1 = true →
          time - s.queuedAt q.token > limit) ↔
      s.queuedAt q.token ≤ q.what.la.scheduleTime) ∧
      ∀ la, q.what = .new la → s.queuedAt q.token ≤ la.scheduleTime := by
  have hat : ∀ time, isScheduleToStart ({ s.lam with now := time }.nextPending (.request j)).1 = true ↔
      limit < time - q.what.la.scheduleTime := by
    intro time
    rw [nextPending_scheduleToStart (s := { s.lam with now := time }) hopen hq hl, hlimit]
    simp
  refine ⟨⟨fun hall => ?_, fun hle time _ ht => ?_⟩, fun la hla => ?_⟩
  · -- At the limit the time in the queue is not over it, so neither is the time since the scheduling.
    have hlate := hall (s.queuedAt q.token + limit) (Nat.le_add_right _ _)
    rw [hat] at hlate
    omega
  · have hlate := (hat time).mp ht
    omega
  · exact Nat.le_of_eq (h.noted.scheduled q (List.mem_of_getElem? hq) la hla)

def impatientAct : NewLocalAct :=
  let act := sampleAct 1 1 (.scheduleOnly 100)
  { act with scheduleCmd := { act.scheduleCmd with scheduleToStartTimeout := some 5 } }

/-- The answer to the first request, and how long the requests have waited. -/
def Clocked.waited (s : Clocked) : List Nat × Bool :=
  (s.lam.actReqs.map fun q => s.lam.now - s.queuedAt q.token, isScheduleToStart (s.lam.nextPending (.request 0)).1)

/-- The first attempt fails after ten units of time, and the retry is timed out at once. -/
theorem retry_timed_out_at_once : ∃ s, Clocked.Reachable s ∧ s.waited = ([0], true) :=
  Reach.exists_of_trace
    [.enqueue (.new impatientAct), .nextPending (.request 0), .elapse 10, .complete 1 (.failed none),
      .elapse 1, .fire 1]
    (by decide +kernel) (fun _ _ _ h => Option.some.inj h) (.start rfl)

/-- A new request that is timed out. -/
theorem new_request_waits :
    ∃ s q, Clocked.Reachable s ∧ s.lam.actReqs[0]? = some q ∧
      ∀ time, s.queuedAt q.token ≤ time →
        isScheduleToStart ({ s.lam with now := time }.nextPending (.request 0)).1 = true →
          time - s.queuedAt q.token > 5 := by
  let s : Clocked := Clocked.process {} (.enqueue (.new impatientAct))
  have hs : Clocked.Reachable s := .step (.start rfl) (by decide) rfl
  have hq : s.lam.actReqs[0]? = some ⟨.new impatientAct, 1⟩ := rfl
  have hl : s.lam.laInfo.lookup impatientAct.id = some (newInfo 1 (some ⟨0, none, none⟩)) := rfl
  have hlimit : impatientAct.scheduleCmd.scheduleToStartTimeout = some 5 := rfl
  obtain ⟨hiff, hnew⟩ := schedule_to_start_after_waiting_iff hs rfl hq hl hlimit
  exact ⟨s, _, hs, rfl, hiff.mpr (hnew impatientAct rfl)⟩

end LocalActivityManager

end SdkCore
