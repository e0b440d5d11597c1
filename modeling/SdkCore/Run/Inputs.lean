import SdkCore.Lib.Reach
import SdkCore.Run.Completing

/-!
# What the stream does to a run

`RunInput` are the calls of the stream. A run changes by small acts (`Act`), except that a task comes in
(`offerWft_spec`) and the last activation takes the buffer with it (`finishActivation_spec`). Acts keep its tasks
(`Acts.tasks`).
-/

namespace SdkCore.ManagedRun

open Relation Op

variable {μ : Type} (M : ManagerOps μ) (cfg : WorkerConfig)

/-! ## The calls -/

def offerWft (p : PermittedWFT) : ROp μ (Option ActivationOrAuto) := do
  match ← bufferWftIfOutstandingWork M p with
  | none => return none
  | some p => incomingWft M p

/-- A call of the stream. After an activation come the report, the task that came with it and the check for more work.
-/
inductive RunInput
  | newWft (p : PermittedWFT)
  | success (commands : List WFCommand) (chan : Option RespChan)
  | failure (cause : WorkflowTaskFailedCause) (reason : EvictionReason) (isAutoFail : Bool) (chan : Option RespChan)
  | fetchedPage (update : HistoryUpdate) (paginator : HistoryPaginator)
  | requestEviction (info : RequestEvictMsg)
  | postActivation (status : WFTReportStatus) (isAutocomplete : Bool)
  | localResolution (res : LocalResolution)
  | heartbeatTimeout
  | checkMoreActivations

/-- A report ends the outstanding activation. -/
def endsActivation (isAutocomplete : Bool) (act : OutstandingActivation) : Bool :=
  !isAutocomplete || act = .autocomplete

def ignore {α : Type} (x : ROp μ α) : ROp μ Unit := do
  let _ ← x

variable {r r' : ManagedRun μ}

theorem of_ignore {α : Type} {x : ROp μ α} (h : (ignore x).exec r = (.ok (), r')) : ∃ a, x.exec r = (.ok a, r') := by
  obtain ⟨a, s, hx, h⟩ := exec_bind_ok h
  cases h
  exact ⟨a, hx⟩

/-- Make a call. The fuel is for failing completions. -/
def handle (fuel : Nat) : RunInput → ROp μ Unit
  | .newWft p => ignore (offerWft M p)
  | .success commands chan => ignore (successfulCompletion M cfg fuel commands chan)
  | .failure cause reason isAutoFail chan => ignore (failedCompletion M cfg fuel cause reason isAutoFail chan)
  | .fetchedPage update paginator => ignore (fetchedPageCompletion M cfg fuel update paginator)
  | .requestEviction info => ignore (ManagedRun.requestEviction M cfg fuel info)
  | .postActivation status isAutocomplete => do
    let _ ← completeWft M status
    ignore (finishActivation M (endsActivation isAutocomplete))
  | .localResolution res => ignore (ManagedRun.localResolution M res)
  | .heartbeatTimeout => ignore (ManagedRun.heartbeatTimeout M)
  | .checkMoreActivations => ignore (ManagedRun.checkMoreActivations M)

def Step (r : ManagedRun μ) (i : RunInput) (r' : ManagedRun μ) : Prop :=
  ∃ fuel, (handle M cfg fuel i).exec r = (.ok (), r')

def step? (fuel : Nat) (r : ManagedRun μ) (i : RunInput) : Option (ManagedRun μ) :=
  match (handle M cfg fuel i).exec r with
  | (.ok (), r') => some r'
  | (.error _, _) => none

variable {M cfg} in
theorem step_of_step? {fuel : Nat} {i : RunInput} (h : step? M cfg fuel r i = some r') : Step M cfg r i r' := by
  unfold step? at h
  split at h
  · next heq =>
    cases h
    exact ⟨fuel, heq⟩
  · cases h

/-! ## The acts of a run -/

variable {M} {cfg}

theorem Tends.same (h : Tends r r') : Same r r' := by
  induction h with
  | refl => exact .refl _
  | tail _ ht ih =>
    refine ih.trans ?_
    cases ht with
    | change h => exact h.same
    | noteEviction => exact ⟨rfl, rfl, rfl, rfl, rfl, rfl⟩

def tasks (r : ManagedRun μ) : List PermittedWFT :=
  r.applied ++ r.taskBuffer.intoBufferOrder ++ r.superseded.flatMap (·.2)

@[simp] theorem send_tasks (r : ManagedRun μ) (chan : Option RespChan) (res : ActivationCompleteResult) :
    (r.send chan res).tasks = r.tasks := by
  cases chan <;> rfl

@[simp] theorem send_panicked (r : ManagedRun μ) (chan : Option RespChan) (res : ActivationCompleteResult) :
    (r.send chan res).panicked = r.panicked := by
  cases chan <;> rfl

@[simp] theorem send_superseded (r : ManagedRun μ) (chan : Option RespChan) (res : ActivationCompleteResult) :
    (r.send chan res).superseded = r.superseded := by
  cases chan <;> rfl

@[simp] theorem send_runId (r : ManagedRun μ) (chan : Option RespChan) (res : ActivationCompleteResult) :
    (r.send chan res).runId = r.runId := by
  cases chan <;> rfl

/-- Small changes move them. -/
theorem Change.tasks (h : Change r r') : r'.tasks.Perm r.tasks := by
  cases h with
  | settle h => cases h; exact .refl _
  | dispatch | evict => exact .refl _
  | take p rest q pg w hw ha he hn =>
    refine List.Perm.append_right _ ?_
    rw [List.append_assoc]
    exact (BufferedTasks.getNextWft_perm hn).symm.append_left _

/-- Acts lose no task. -/
theorem Act.tasks (h : Act r r') : r'.tasks.Perm r.tasks := by
  cases h with
  | tend h =>
    cases h with
    | change h => exact h.tasks
    | noteEviction => exact .refl _
  | send chan res => rw [send_tasks]
  | wait | endTask | endActivation => exact .refl _

theorem Act.panicked (h : Act r r') : r'.panicked = r.panicked := by
  cases h with
  | tend h => exact (Tends.same (.single h)).panicked
  | send => simp
  | wait | endTask | endActivation => rfl

theorem Act.runId (h : Act r r') : r'.runId = r.runId := by
  cases h with
  | tend h => exact (Tends.same (.single h)).runId
  | send => simp
  | wait | endTask | endActivation => rfl

theorem Act.superseded (h : Act r r') : r'.superseded = r.superseded := by
  cases h with
  | tend h => exact (Tends.same (.single h)).superseded
  | send => simp
  | wait | endTask | endActivation => rfl

theorem Acts.tasks (h : Acts r r') : r'.tasks.Perm r.tasks := by
  induction h with
  | refl => exact .refl _
  | tail _ ha ih => exact ha.tasks.trans ih

theorem Acts.panicked (h : Acts r r') : r'.panicked = r.panicked := by
  induction h with
  | refl => rfl
  | tail _ ha ih => exact ha.panicked.trans ih

theorem Acts.runId (h : Acts r r') : r'.runId = r.runId := by
  induction h with
  | refl => rfl
  | tail _ ha ih => exact ha.runId.trans ih

theorem Acts.superseded (h : Acts r r') : r'.superseded = r.superseded := by
  induction h with
  | refl => rfl
  | tail _ ha ih => exact ha.superseded.trans ih

/-! ## What the calls do -/

section

variable (r : ManagedRun μ)

theorem fetchedPageCompletion_acts (fuel : Nat) (page : HistoryUpdate) (pg : HistoryPaginator) :
    Acts r ((fetchedPageCompletion M cfg fuel page pg).exec r).2 := by
  have hr : Act r (r.resume (some pg)) := .wait r (some pg) none
  cases h : r.completionWaitingOnPageFetch with
  | none => exact (fetchedPageCompletion_idle h fuel page pg).acts.head hr
  | some c =>
    have h : Completes cfg _ _ _ _ _ := fetchedPageCompletion_waiting (M := M) h fuel page pg
    exact h.acts.head hr

theorem markForEviction_tends (info : RequestEvictMsg) : Tends r ((markForEviction M info).exec r).2 := by
  obtain ⟨s, hs, h⟩ := markForEviction_evolves info r
  exact (hs.evolves.tends.tail (.noteEviction s info)).trans h.tends

theorem requestEviction_acts (fuel : Nat) (info : RequestEvictMsg) :
    Acts r ((requestEviction M cfg fuel info).exec r).2 := by
  by_cases h : r.completionWaitingOnPageFetch = none ∨ info.reason ≠ .paginationOrHistoryFetch
  · rw [requestEviction_marks h]
    exact (markForEviction_tends r info).acts
  · obtain ⟨hw, hi⟩ := not_or.mp h
    obtain ⟨c, hc⟩ := Option.ne_none_iff_exists'.mp hw
    have hr : Act r (r.resume r.paginator) := .wait r r.paginator none
    exact (requestEviction_waiting hc (not_not.mp hi) fuel).acts.head hr

theorem afterPostActivation_evolves (status : WFTReportStatus) :
    Evolves r ((afterPostActivation M status).exec r).2 := by
  have h := checkMoreActivations_evolves (M := M) r
  unfold afterPostActivation
  rw [exec_bind]
  generalize (checkMoreActivations M).exec r = x at h
  obtain ⟨e | act, s⟩ := x
  · exact h
  · rw [andThen_ok]
    split
    · exact h
    rw [exec_get_bind]
    split
    · have h' := markForEviction_evolves' (M := M) .workflowExecutionEnding s
      rw [exec_bind]
      generalize exec (markForEviction M { reason := .workflowExecutionEnding }) s = y at h'
      obtain ⟨e | res, r'⟩ := y <;> exact h.trans h'
    · exact h

/-- The report is the end of the task, or changes nothing. -/
theorem completeWft_spec (status : WFTReportStatus) :
    ((completeWft M status).exec r).2 = r ∧
        ((M.haveSeenTerminalEvent r.mgr = false ∧ status = .notReported) ∨ r.hasPendingQueries) ∨
      ∃ m, ((completeWft M status).exec r).2 = { r with wft := none, mgr := m } := by
  unfold completeWft
  rw [exec_get_bind]
  split
  · next h =>
    refine .inl ⟨rfl, ?_⟩
    simpa using h
  · refine .inr ?_
    cases status with
    | reported reset => exact ⟨_, rfl⟩
    | notReported | dropWft => exact ⟨r.mgr, rfl⟩

theorem finishActivation_spec (pred : OutstandingActivation → Bool) :
    (∃ a, (a = none ∨ a = r.activation) ∧
      (finishActivation M pred).exec r = (.ok (false, .empty), { r with activation := a, answer := none })) ∨
    r.activation = some .eviction ∧ pred .eviction ∧
      ∃ m, (finishActivation M pred).exec r =
        (.ok (true, r.taskBuffer), { r with activation := none, answer := none, taskBuffer := .empty, mgr := m }) := by
  unfold finishActivation
  simp only [exec_bind, exec_get, andThen_ok, exec_modify]
  split
  · next hp =>
    split
    · next he =>
      have he : r.activation = some .eviction := by simpa [activationIsEviction] using he
      exact .inr ⟨he, by simpa [he] using hp, _, rfl⟩
    · exact .inl ⟨none, .inl rfl, rfl⟩
  · exact .inl ⟨r.activation, .inr rfl, rfl⟩

/-- A task waits, or the run evolves with it. -/
theorem offerWft_spec (p : PermittedWFT) :
    ((offerWft M p).exec r).2 =
        { r with
          taskBuffer := r.taskBuffer.buffer p
          superseded := r.superseded ++ [(p, r.taskBuffer.superseded p)] } ∨
      (r.wft = none ∧ r.activation = none ∧ r.tryingToEvict = none ∧
        ∃ q pg w, (q = none ∨ q = some (.ofWork p.work)) ∧ (pg = r.paginator ∨ pg = some p.paginator) ∧
          Evolves { r with applied := r.applied ++ [p], wft := q, paginator := pg, waitingOnLa := w }
            ((offerWft M p).exec r).2) := by
  unfold offerWft bufferWftIfOutstandingWork
  simp only [exec_bind, exec_get, andThen_ok]
  split
  · exact .inl rfl
  · next h =>
    simp only [Bool.or_eq_true, not_or, Bool.not_eq_true, Option.isSome_eq_false_iff, Option.isNone_iff_eq_none] at h
    obtain ⟨⟨⟨ha, he⟩, hw⟩, -⟩ := h
    refine .inr ⟨hw, ha, he, ?_⟩
    obtain ⟨q, pg, w, hq, hpg, h⟩ := incomingWft_evolves p ha
    exact ⟨q, pg, w, hq.imp_left fun h => h.trans hw, hpg, h⟩

theorem offerWft_tasks (p : PermittedWFT) : ((offerWft M p).exec r).2.tasks.Perm (p :: r.tasks) := by
  rcases offerWft_spec r p with h | ⟨-, -, -, q, pg, w, -, -, h⟩
  · rw [h]
    refine List.perm_iff_count.mpr fun a => ?_
    have h := (r.taskBuffer.buffer_perm p).count_eq a
    simp only [tasks, List.flatMap_append, List.flatMap_cons, List.flatMap_nil, List.count_append, List.count_cons,
      List.count_nil] at h ⊢
    omega
  · refine h.acts.tasks.trans ?_
    simp only [tasks, List.append_assoc, List.singleton_append]
    exact List.perm_middle

theorem offerWft_runId (p : PermittedWFT) : ((offerWft M p).exec r).2.runId = r.runId := by
  rcases offerWft_spec r p with h | ⟨-, -, -, q, pg, w, -, -, h⟩
  · rw [h]
  · exact h.same.runId

theorem newRun_tasks (p : PermittedWFT) (k : RunId) (n : Nat) :
    ((incomingWft M p).exec (blank M k n)).2.tasks.Perm [p] ∧ ((incomingWft M p).exec (blank M k n)).2.runId = k ∧
      ((incomingWft M p).exec (blank M k n)).2.superseded = [] := by
  obtain ⟨q, pg, w, -, -, h⟩ := incomingWft_evolves p (r := blank M k n) rfl
  exact ⟨h.acts.tasks, h.same.runId, h.same.superseded⟩

theorem offerWft_panicked (p : PermittedWFT) : ((offerWft M p).exec r).2.panicked = r.panicked := by
  rcases offerWft_spec r p with h | ⟨-, -, -, q, pg, w, -, -, h⟩
  · rw [h]
  · exact h.same.panicked

end

end SdkCore.ManagedRun
