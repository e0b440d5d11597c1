import SdkCore.Run.Completing

/-!
# Calls that return

An update takes a task from the buffer in every round, so it returns (`update_returns`). A completion and its failure
return, unless nondeterminism fails the workflow (`failedCompletion_returns_of_ne`).
-/

namespace SdkCore

open Op

namespace ManagedRun

variable {μ : Type} {M : ManagerOps μ} {cfg : WorkerConfig}

/-! ## Updates return -/

section

variable {r : ManagedRun μ}

theorem autoFail_returns (e : WFMachinesError) : Returns (autoFail e) r := ⟨_, _, rfl⟩

@[simp] theorem fulfill_taskBuffer (f : Option FulfillableActivationComplete) :
    (r.fulfill f).taskBuffer = r.taskBuffer := by
  unfold fulfill send
  split
  · rfl
  · split <;> rfl

/-- Each round has fewer buffered tasks to take. -/
theorem takeBuffered_returns {go : Option ActivationOrAuto → ROp μ (Option ActivationOrAuto)}
    (hgo : ∀ act r', r'.taskBuffer.intoBufferOrder.length < r.taskBuffer.intoBufferOrder.length → Returns (go act) r') :
    Returns (takeBuffered M go) r := by
  unfold takeBuffered
  rw [returns_get_bind]
  split
  · exact returns_pure _ _
  · next p rest hn =>
    rw [returns_modify_bind, returns_attempt_bind]
    obtain ⟨q, pg, w, -, -, hs⟩ := incomingWft_spec p { r with taskBuffer := rest }
    generalize exec (_incomingWft M p) { r with taskBuffer := rest } = x at hs
    obtain ⟨e | act, r'⟩ := x
    · exact autoFail_returns e
    · refine hgo act r' ?_
      have hlen := (BufferedTasks.getNextWft_perm hn).length_eq
      have hbuf : r'.taskBuffer = rest := by
        cases hs
        rfl
      rw [hbuf, hlen]
      exact Nat.lt_succ_self _

theorem updateRound_returns {go : Option ActivationOrAuto → ROp μ (Option ActivationOrAuto)}
    (hgo : ∀ act r', r'.taskBuffer.intoBufferOrder.length < r.taskBuffer.intoBufferOrder.length → Returns (go act) r')
    (act : Option ActivationOrAuto) (f : Option FulfillableActivationComplete) :
    Returns (updateRound M go act f) r := by
  unfold updateRound
  rw [returns_attempt_bind]
  have hs := outgoingAct_settles (M := M) act r
  generalize (outgoingAct M act).exec r = x at hs
  obtain ⟨e | act', r'⟩ := x
  · exact autoFail_returns e
  · have hbuf : r'.taskBuffer = r.taskBuffer := by
      cases hs
      rfl
    rw [returns_modify_bind, returns_get_bind]
    split
    · refine takeBuffered_returns fun act r'' h => hgo act r'' ?_
      rwa [fulfill_taskBuffer, hbuf] at h
    · cases act' <;> exact ⟨_, _, rfl⟩

/-- Every round takes a task, so the fuel is enough. -/
theorem updateOk_returns : ∀ (fuel : Nat) (act : Option ActivationOrAuto) (f : Option FulfillableActivationComplete)
    (r : ManagedRun μ), r.taskBuffer.intoBufferOrder.length ≤ fuel → Returns (updateOk M fuel act f) r
  | 0, act, f, r, h => by
    refine updateRound_returns (fun act' r' hlt => ?_) act f
    omega
  | fuel + 1, act, f, r, h => by
    refine updateRound_returns (fun act' r' hlt => ?_) act f
    exact updateOk_returns fuel act' none r' (by omega)

/-- Every update returns. -/
theorem update_returns (act : Option ActivationOrAuto) (f : Option FulfillableActivationComplete) :
    Returns (update M act f) r :=
  updateOk_returns _ act f r (Nat.le_refl _)

theorem settle_returns (x : FOp μ (Option ActivationOrAuto)) : Returns (settle M x) r := by
  unfold settle
  rw [returns_attempt_bind]
  split
  · exact update_returns _ _
  · exact autoFail_returns _

theorem markForEviction_returns (info : RequestEvictMsg) : Returns (markForEviction M info) r := by
  unfold markForEviction
  rw [returns_get_bind]
  split
  · rw [returns_modify_bind]
    exact (settle_returns _).bind fun _ _ _ => returns_pure _ _
  · exact ⟨_, _, rfl⟩

theorem evictFailed_returns (reason : EvictionReason) (noReport : Bool) :
    Returns (evictFailed M reason noReport) r := by
  unfold evictFailed
  split
  · exact returns_pure _ _
  · exact (markForEviction_returns _).bind fun _ _ _ => returns_pure _ _

theorem replyToComplete_returns (outcome : ActivationCompleteOutcome) (chan : Option RespChan) :
    Returns (replyToComplete M outcome chan) r := by
  unfold replyToComplete
  rw [returns_modify_bind]
  split
  · exact (markForEviction_returns _).bind fun _ _ _ => returns_pure _ _
  · exact returns_pure _ _

end

/-! ## Completions and failures -/

section

variable {r : ManagedRun μ} {fail : Failing μ}

/-- A completion returns if its failure does. -/
theorem settleCompletion_returns_iff (d : RunActivationCompletion) (page : Option HistoryUpdate) :
    Returns (settleCompletion M fail d page) r ↔
      ∀ e r', (_processCompletion M d page).exec r = (.error e, r') → Returns (fail e d.respChan) r' := by
  unfold settleCompletion
  rw [returns_attempt_bind]
  generalize (_processCompletion M d page).exec r = x
  obtain ⟨e | f, r'⟩ := x
  · constructor
    · intro h e' s hx
      cases hx
      exact h
    · intro h
      exact h e r' rfl
  · constructor
    · intro _ e' s hx
      cases hx
    · intro _
      exact update_returns none (some f)

theorem prepareCompleteResp_returns (d : RunActivationCompletion) (due : Bool) :
    Returns (prepareCompleteResp M d due) r := by
  unfold prepareCompleteResp
  simp only [returns_get_bind]
  split <;> exact ⟨_, _, rfl⟩

theorem afterCommands_returns (d : RunActivationCompletion) (ha hl las : Bool) :
    Returns (afterCommands M d ha hl las) r := by
  unfold afterCommands
  split
  · exact prepareCompleteResp_returns d ha
  · refine Returns.bind ⟨_, _, rfl⟩ fun _ r' _ => ?_
    split
    · exact prepareCompleteResp_returns d true
    · exact ⟨_, _, rfl⟩

variable {d : RunActivationCompletion} {e : WFMachinesError} {r' : ManagedRun μ}
  {page : Option HistoryUpdate} {wft : OutstandingTask} {chan : Option RespChan}

theorem processCompletion_error (h : (_processCompletion M d page).exec r = (.error e, r')) :
    d.activationWasEviction = false ∧ (applyCommands M d.commands page).exec r = (.error e, r') := by
  unfold _processCompletion at h
  rw [exec_get_bind] at h
  simp only at h
  split at h
  · obtain ⟨f, s, hf⟩ := prepareCompleteResp_returns (r := r) d false
    rw [hf] at h
    cases h
  · next hev =>
    refine ⟨by simpa using hev, ?_⟩
    rw [exec_bind] at h
    generalize (applyCommands M d.commands page).exec r = x at h
    obtain ⟨e' | las, s⟩ := x
    · cases h
      rfl
    · rw [andThen_ok] at h
      obtain ⟨f, s', hf⟩ := afterCommands_returns (r := s) d _ _ las
      rw [hf] at h
      cases h

theorem processCompletion_of_error (hev : d.activationWasEviction = false)
    (h : (applyCommands M d.commands page).exec r = (.error e, r')) :
    (_processCompletion M d page).exec r = (.error e, r') := by
  unfold _processCompletion
  rw [exec_get_bind]
  simp only [hev, Bool.false_eq_true, if_false]
  rw [exec_bind, h, andThen_error]

theorem activationCompletion_commands (wft : OutstandingTask) (commands : List WFCommand) (chan : Option RespChan)
    (forced : Bool) : (activationCompletion M r wft commands chan forced).commands =
      (preprocessCommandSequenceOldBehavior commands).1 ∨
    (activationCompletion M r wft commands chan forced).commands = (preprocessCommandSequence commands).1 := by
  show (if M.replaying r.mgr && !M.useMoveTerminalCommands r.mgr then
    preprocessCommandSequenceOldBehavior commands else preprocessCommandSequence commands).1 = _ ∨ _ = _
  split
  · exact .inl rfl
  · next h => exact .inr (by simp [activationCompletion, h])

theorem activationCompletion_failWorkflow (wft : OutstandingTask) (chan : Option RespChan) (forced : Bool) :
    (activationCompletion M r wft [.failWorkflow] chan forced).commands = [.failWorkflow] := by
  rcases activationCompletion_commands (r := r) wft [.failWorkflow] chan forced with h | h <;> exact h

theorem processOrFetch_returns (hfatal : Returns (fail (.fatal .paginatorAbsent) d.respChan) r)
    (hfail : M.readyToApplyNextWft r.mgr = true →
      ∀ e r', (_processCompletion M d none).exec r = (.error e, r') → Returns (fail e d.respChan) r') :
    Returns (processOrFetch M fail d) r := by
  unfold processOrFetch
  rw [returns_get_bind]
  split
  · next hready =>
    exact Returns.bind ((settleCompletion_returns_iff d none).mpr (hfail hready)) fun _ _ _ => returns_pure _ _
  · split
    · exact ⟨_, _, rfl⟩
    · exact hfatal.bind fun _ _ _ => returns_pure _ _

theorem forced_returns (hw : r.wft = some wft) (hfatal : Returns (fail (.fatal .paginatorAbsent) chan) r)
    (hfail : r.activationIsEviction = false → M.readyToApplyNextWft r.mgr = true →
      ∀ e r', (applyCommands M [.failWorkflow] none).exec r = (.error e, r') → Returns (fail e chan) r') :
    Returns (successfulCompletionWith M fail [.failWorkflow] chan true) r := by
  unfold successfulCompletionWith
  rw [returns_get_bind]
  simp only [hw]
  cases hev : r.activationIsEviction with
  | true =>
    rw [if_pos rfl, if_neg (by simp)]
    refine processOrFetch_returns hfatal fun _ e r' h => ?_
    have hne : r.activationIsEviction = false := (processCompletion_error h).1
    rw [hev] at hne
    cases hne
  | false =>
    simp only [Bool.false_eq_true, if_false]
    rw [if_neg (by simp)]
    refine processOrFetch_returns hfatal fun hready e r' h => hfail hev hready e r' ?_
    have h := (processCompletion_error h).2
    rwa [activationCompletion_failWorkflow] at h

theorem of_completion_returns (hw : r.wft = some wft) (hev : r.activationIsEviction = false)
    (hready : M.readyToApplyNextWft r.mgr = true) {commands : List WFCommand}
    (hne : commands ≠ [.queryResponse .legacy]) {forced : Bool}
    (he : (applyCommands M (activationCompletion M r wft commands chan forced).commands none).exec r = (.error e, r'))
    (h : Returns (successfulCompletionWith M fail commands chan forced) r) : Returns (fail e chan) r' := by
  unfold successfulCompletionWith at h
  rw [returns_get_bind] at h
  simp only [hw, hev, Bool.false_eq_true, if_false] at h
  rw [if_neg hne] at h
  unfold processOrFetch at h
  rw [returns_get_bind, if_pos hready] at h
  obtain ⟨a, s, h⟩ := h
  obtain ⟨a', s', h, -⟩ := exec_bind_ok h
  exact (settleCompletion_returns_iff (activationCompletion M r wft commands chan forced) none).mp ⟨a', s', h⟩ e r'
    (processCompletion_of_error hev he)

end

/-! ## Failures that are not forced -/

section

variable {r : ManagedRun μ} {cause : WorkflowTaskFailedCause}
  {wft : OutstandingTask} {reason : EvictionReason} {auto : Bool} {chan : Option RespChan}
  {act : Option ActivationOrAuto} {r' : ManagedRun μ}

theorem failTask_returns {fail : Failing μ}
    (he : (evictFailed M reason (r.isNoReportQueryFail reason auto)).exec r = (.ok act, r'))
    (h : r'.failsWorkflow cfg wft.attempt cause = true →
      Returns (successfulCompletionWith M fail [.failWorkflow] chan true) r') :
    Returns (failTask M cfg fail wft cause reason auto chan) r := by
  unfold failTask
  rw [returns_get_bind]
  refine (returns_bind he).mpr ?_
  rw [returns_get_bind]
  split
  · next hf =>
    refine (h hf).bind fun a s _ => ?_
    cases a with
    | ok | error => exact returns_pure _ _
  · exact (replyToComplete_returns _ _).bind fun _ _ _ => returns_pure _ _

theorem failedCompletion_returns (hw : r.wft = some wft)
    (he : (evictFailed M reason (r.isNoReportQueryFail reason auto)).exec r = (.ok act, r')) {fuel : Nat}
    (h : r'.failsWorkflow cfg wft.attempt cause = true →
      Returns (successfulCompletionWith M (updateErr (failedCompletion M cfg fuel)) [.failWorkflow] chan true) r') :
    Returns (failedCompletion M cfg (fuel + 1) cause reason auto chan) r := by
  unfold failedCompletion
  rw [returns_get_bind]
  simp only [hw]
  exact failTask_returns he h

theorem failedCompletion_without_task (hw : r.wft = none) (cause : WorkflowTaskFailedCause) (reason : EvictionReason)
    (auto : Bool) (chan : Option RespChan) (fuel : Nat) :
    Returns (failedCompletion M cfg (fuel + 1) cause reason auto chan) r := by
  unfold failedCompletion
  rw [returns_get_bind]
  simp only [hw]
  exact (replyToComplete_returns _ _).bind fun _ _ _ => returns_pure _ _

/-- Only nondeterminism can fail again. -/
theorem failedCompletion_returns_of_ne (hc : cause ≠ .nonDeterministicError) (reason : EvictionReason) (auto : Bool)
    (chan : Option RespChan) (fuel : Nat) : Returns (failedCompletion M cfg (fuel + 1) cause reason auto chan) r := by
  cases hw : r.wft with
  | none => exact failedCompletion_without_task hw cause reason auto chan fuel
  | some wft =>
    obtain ⟨act, r', he⟩ := evictFailed_returns (r := r) reason (r.isNoReportQueryFail reason auto)
    refine failedCompletion_returns hw he fun hf => ?_
    simp [failsWorkflow, hc] at hf

theorem updateErr_fatal_returns (cause : FatalCause) (fuel : Nat) : ∀ chan : Option RespChan,
    Returns (updateErr (failedCompletion M cfg (fuel + 1)) (.fatal cause) chan) r
  | none => autoFail_returns _
  | some chan => by
    unfold updateErr
    rw [returns_modify_bind]
    exact failedCompletion_returns_of_ne (by simp [WFMachinesError.isNondeterminism]) _ _ _ fuel

end

end ManagedRun

end SdkCore
