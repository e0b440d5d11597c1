import SdkCore.Run.Evolution

/-!
# What becomes of a completion

A completion is answered once, waits for a page of history, or is lost (`Completed`): only in a `Vulnerable` run,
without an outstanding activation or whose nondeterminism fails the workflow.
-/

namespace SdkCore.ManagedRun

open Relation Op ActivationCompleteOutcome

variable {μ : Type} {M : ManagerOps μ} {cfg : WorkerConfig}

/-! ## What stays the same -/

/-- What only an answer to a completion changes. -/
structure Same (r r' : ManagedRun μ) : Prop where
  runId : r'.runId = r.runId
  waiting : r'.completionWaitingOnPageFetch = r.completionWaitingOnPageFetch
  replies : r'.replies = r.replies
  answer : r'.answer = r.answer
  superseded : r'.superseded = r.superseded
  panicked : r'.panicked = r.panicked

theorem Same.refl (r : ManagedRun μ) : Same r r := ⟨rfl, rfl, rfl, rfl, rfl, rfl⟩

variable {r r' : ManagedRun μ} {chan : Option RespChan} {tok : Option TaskToken} {fail : Failing μ}
  {s : ManagedRun μ} {k : TaskToken} {α : Type} {asked : α → HistoryPaginator → Prop}

theorem Same.trans {t : ManagedRun μ} (h : Same r s) (h' : Same s t) : Same r t :=
  ⟨h'.runId.trans h.runId, h'.waiting.trans h.waiting, h'.replies.trans h.replies, h'.answer.trans h.answer,
    h'.superseded.trans h.superseded, h'.panicked.trans h.panicked⟩

theorem Change.same (h : Change r r') : Same r r' := by
  cases h with
  | settle h => cases h; exact ⟨rfl, rfl, rfl, rfl, rfl, rfl⟩
  | dispatch | evict | take => exact ⟨rfl, rfl, rfl, rfl, rfl, rfl⟩

theorem Evolves.same (h : Evolves r r') : Same r r' := by
  induction h with
  | refl => exact .refl _
  | tail _ hc ih => exact ih.trans hc.same

def token (r : ManagedRun μ) : Option TaskToken := r.wft.map (·.taskToken)

theorem Settles.token (h : Settles r r') : r'.token = r.token := by
  cases h with
  | mk m w b q h =>
    generalize hw : r.wft = t at h
    cases h with
    | same | queries => simp [ManagedRun.token, hw]

theorem Change.token (h : Change r r') (hk : r.token = some k) : r'.token = some k := by
  cases h with
  | settle h => rw [h.token, hk]
  | dispatch | evict => exact hk
  | take _ _ _ _ _ hw => simp [ManagedRun.token, hw] at hk

theorem Evolves.token (h : Evolves r r') (hk : r.token = some k) : r'.token = some k := by
  induction h with
  | refl => exact hk
  | tail _ hc ih => exact hc.token ih

theorem Evolves.activation (h : Evolves r r') (ha : r.activation.isSome) : r'.activation = r.activation := by
  induction h with
  | refl => rfl
  | tail _ hc ih =>
    cases hc with
    | settle hs => exact hs.activation.trans ih
    | evict => exact ih
    | dispatch _ hn | take _ _ _ _ _ _ hn => rw [← ih, hn] at ha; cases ha

theorem markForEviction_evolves' (reason : EvictionReason) (r : ManagedRun μ) :
    Evolves r ((markForEviction M { reason }).exec r).2 := by
  obtain ⟨s, hs, h⟩ := markForEviction_evolves { reason } r
  exact (hs.evolves.tail (.evict s reason)).trans h

section

variable {r : ManagedRun μ}

/-- With an activation outstanding, an update only answers. -/
theorem update_busy (h : r.activation.isSome) (f : Option FulfillableActivationComplete) :
    (update M none f).exec r = (.ok none, r.fulfill f) := by
  have hround : ∀ go, (updateRound M go none f).exec r = (.ok none, r.fulfill f) := by
    intro go
    unfold updateRound
    simp only [exec_bind, exec_attempt, outgoingAct_busy h, andThen_ok, exec_modify, exec_get]
    rw [if_neg]
    · rfl
    · intro hi
      have ha := (isIdle_iff.mp hi).2.2.1
      rw [fulfill_activation] at ha
      rw [ha] at h
      cases h
  show (updateOk M r.taskBuffer.intoBufferOrder.length none f).exec r = _
  cases r.taskBuffer.intoBufferOrder.length with
  | zero | succ => exact hround _

theorem exec_checkMoreActivations_busy (h : r.activation.isSome) :
    (checkMoreActivations M).exec r = (.ok none, r) := by
  unfold checkMoreActivations settle
  simp only [exec_bind, exec_attempt, checkMoreActivations_busy h, andThen_ok, update_busy h]
  rfl

theorem evictFailed_legacy (h : r.activation.isSome) (hl : r.pendingWorkIsLegacyQuery) (reason : EvictionReason)
    (noReport : Bool) : ((evictFailed M reason noReport).exec r).2.pendingWorkIsLegacyQuery := by
  unfold evictFailed
  split
  · exact hl
  · unfold markForEviction
    simp only [exec_bind, exec_get, andThen_ok]
    split
    · have hd : r.dropQueries reason = r := by simp [dropQueries, hl]
      have hb := exec_checkMoreActivations_busy (M := M) (r := { r with tryingToEvict := some { reason } }) h
      simp only [exec_modify, andThen_ok, hd, exec_bind, hb, exec_pure]
      exact hl
    · exact hl

end

/-- A failed completion evicts the run. -/
theorem evictFailed_evolves (reason : EvictionReason) (noReport : Bool) (r : ManagedRun μ) :
    Evolves r ((evictFailed M reason noReport).exec r).2 := by
  unfold evictFailed
  split
  · exact .refl
  · have h := markForEviction_evolves' (M := M) reason r
    rw [exec_bind]
    generalize exec (markForEviction M { reason }) r = x at h
    obtain ⟨e | _, r'⟩ := x <;> exact h

/-- A run evolves, and evictions are noted. -/
inductive Tend : ManagedRun μ → ManagedRun μ → Prop
  | change {r r' : ManagedRun μ} (h : Change r r') : Tend r r'
  | noteEviction (r : ManagedRun μ) (info : RequestEvictMsg) : Tend r { r with tryingToEvict := some info }

abbrev Tends : ManagedRun μ → ManagedRun μ → Prop := ReflTransGen Tend

theorem Evolves.tends (h : Evolves r r') : Tends r r' := h.lift id fun _ _ => .change

/-- What a call does, new tasks and the end of the run apart. -/
inductive Act : ManagedRun μ → ManagedRun μ → Prop
  | tend {r r' : ManagedRun μ} (h : Tend r r') : Act r r'
  | send (r : ManagedRun μ) (chan : Option RespChan) (res : ActivationCompleteResult) : Act r (r.send chan res)
  | wait (r : ManagedRun μ) (pg : Option HistoryPaginator) (c : Option RunActivationCompletion) :
    Act r { r with paginator := pg, completionWaitingOnPageFetch := c }
  | endTask (r : ManagedRun μ) (m : μ) : Act r { r with wft := none, mgr := m }
  | endActivation (r : ManagedRun μ) (a : Option OutstandingActivation) (h : a = none ∨ a = r.activation) :
    Act r { r with activation := a, answer := none }

abbrev Acts : ManagedRun μ → ManagedRun μ → Prop := ReflTransGen Act

theorem Tends.acts (h : Tends r r') : Acts r r' := h.lift id fun _ _ => .tend

theorem Evolves.acts (h : Evolves r r') : Acts r r' := h.tends.acts

/-! ## The ways a completion can end -/

/-- A run in which the answer to a completion can get lost. -/
def Vulnerable (cfg : WorkerConfig) (r : ManagedRun μ) : Prop :=
  r.activation = none ∨ ∃ t, r.wft = some t ∧ r.failsWorkflow cfg t.attempt .nonDeterministicError

def waitFor (r : ManagedRun μ) (c : RunActivationCompletion) : ManagedRun μ :=
  { r with paginator := none, completionWaitingOnPageFetch := some c }

/-- What became of a completion with the channel `chan`. It answers the task of the run or, if it waited, `tok`. It
waits only for a page that it `asked` for. -/
inductive Completed (cfg : WorkerConfig) (chan : Option RespChan) (tok : Option TaskToken)
    (asked : HistoryPaginator → Prop)
    (r r' : ManagedRun μ) : Prop
  | replied {s : ManagedRun μ} (res : ActivationCompleteResult) (h : Evolves r s)
    (hres : res.outcome.answers ∈ [none, tok, s.token]) (h' : Evolves (s.send chan res) r')
  /-- The eviction of a run without a task answers the task whose fetch failed. -/
  | unstored {s : ManagedRun μ} {reason : EvictionReason} {info : UnstoredWftFailInfo} (res : ActivationCompleteResult)
    (h : Evolves r s) (hw : s.wft = none) (he : s.tryingToEvict = some ⟨reason, some info⟩)
    (hres : res.outcome.answers = some info.taskToken)
    (h' : Evolves (({ s with tryingToEvict := some ⟨reason, none⟩ } : ManagedRun μ).send chan res) r')
  | waits {s : ManagedRun μ} {c : RunActivationCompletion} {pg : HistoryPaginator} (hasked : asked pg)
    (hpg : s.paginator = some pg) (h : Evolves r s) (hc : c.respChan = chan) (ht : s.token = some c.taskToken)
    (h' : r' = s.waitFor c)
  | lost {s : ManagedRun μ} (hv : Vulnerable cfg r) (h : Evolves r s)
    (h' : r' = s ∨ ∃ c, s.token = some c.taskToken ∧ r' = s.waitFor c)

section

variable {chan : Option RespChan} {tok : Option TaskToken} {asked : HistoryPaginator → Prop} {r s r' : ManagedRun μ}

/-- The inner state changes first. -/
theorem Completed.inner (h : Inner r s) (h' : Completed cfg chan tok asked s r') :
    Completed cfg chan tok asked r r' := by
  cases h' with
  | replied res he hres h' => exact .replied res (h.evolves.trans he) hres h'
  | unstored res he hw ht hres h' => exact .unstored res (h.evolves.trans he) hw ht hres h'
  | waits ha hpg he hc ht h' => exact .waits ha hpg (h.evolves.trans he) hc ht h'
  | lost hv he h' => exact .lost (by cases h; exact hv) (h.evolves.trans he) h'

/-- In a vulnerable run nothing is claimed. -/
theorem Completed.of_vulnerable (hv : Vulnerable cfg r) (h : Evolves r s)
    (h' : Completed cfg chan tok asked s r') : Completed cfg chan tok (fun _ => False) r r' := by
  cases h' with
  | replied res he hres h' => exact .replied res (h.trans he) hres h'
  | unstored res he hw ht hres h' => exact .unstored res (h.trans he) hw ht hres h'
  | waits _ _ he hc ht h' => exact .lost hv (h.trans he) (.inr ⟨_, ht, h'⟩)
  | lost _ he h' => exact .lost hv (h.trans he) h'

theorem Completed.imp {tok' : Option TaskToken} {asked' : HistoryPaginator → Prop}
    (h : Completed cfg chan none asked r r') (ha : ∀ pg, asked pg → asked' pg) :
      Completed cfg chan tok' asked' r r' := by
  cases h with
  | replied res he hres h' =>
    refine .replied res he ?_ h'
    simp only [List.mem_cons, List.not_mem_nil, or_false] at hres ⊢
    rcases hres with h | h | h
    · exact .inl h
    · exact .inl h
    · exact .inr (.inr h)
  | unstored res he hw ht hres h' => exact .unstored res he hw ht hres h'
  | waits has hpg he hc ht h' => exact .waits (ha _ has) hpg he hc ht h'
  | lost hv he h' => exact .lost hv he h'

theorem Completed.of_token {k : TaskToken} (hk : r.token = some k) (h : Completed cfg chan (some k) asked r r') :
    Completed cfg chan none asked r r' := by
  cases h with
  | replied res he hres h' =>
    refine .replied res he ?_ h'
    rw [he.token hk] at hres ⊢
    simpa using hres
  | unstored res he hw ht hres h' => exact .unstored res he hw ht hres h'
  | waits has hpg he hc ht h' => exact .waits has hpg he hc ht h'
  | lost hv he h' => exact .lost hv he h'

end

/-- In any case the run acts. -/
theorem Completed.acts {asked : HistoryPaginator → Prop} (h : Completed cfg chan tok asked r r') : Acts r r' := by
  cases h with
  | replied res he _ h' => exact (he.acts.tail (.send _ chan res)).trans h'.acts
  | unstored res he _ _ _ h' => exact ((he.acts.tail (.tend (.noteEviction _ _))).tail (.send _ chan res)).trans h'.acts
  | waits _ _ he _ _ h' => exact h' ▸ he.acts.tail (.wait _ none _)
  | lost _ he h' =>
    rcases h' with rfl | ⟨c, -, rfl⟩
    · exact he.acts
    · exact he.acts.tail (.wait _ none _)

/-- What an operation does to a completion, if it ends. -/
abbrev Completes (cfg : WorkerConfig) (chan : Option RespChan) (tok : Option TaskToken) {α : Type}
    (asked : α → HistoryPaginator → Prop) (r : ManagedRun μ) (x : Except Limit α × ManagedRun μ) : Prop :=
  Post (fun a r' => Completed cfg chan tok (asked a) r r') (fun _ r' => Acts r r') x

theorem Completes.acts {x : Except Limit α × ManagedRun μ} (h : Completes cfg chan tok asked r x) : Acts r x.2 := by
  obtain ⟨e | a, r'⟩ := x
  · exact h
  · exact Completed.acts h

theorem Updates.acts {f : Option FulfillableActivationComplete} (h : Updates f r r') : Acts r r' := by
  cases h with
  | @answered s hs h =>
    have hf : Acts s (s.fulfill f) := by
      cases f with
      | none => exact .refl
      | some f => exact .single (.send s f.respChan f.result)
    exact (hs.evolves.acts.trans hf).trans h.acts
  | lost _ h => exact h.acts

/-! ## The functions for completions -/

theorem replyToComplete_evolves (outcome : ActivationCompleteOutcome) (chan : Option RespChan) (r : ManagedRun μ) :
    Evolves (r.send chan ⟨outcome, M.replaying r.mgr⟩) ((replyToComplete M outcome chan).exec r).2 := by
  unfold replyToComplete
  rw [exec_modify_bind]
  split
  · have h := markForEviction_evolves' (M := M) .fatal (r.send chan ⟨outcome, M.replaying r.mgr⟩)
    rw [exec_bind]
    generalize exec (markForEviction M { reason := .fatal }) _ = x at h
    obtain ⟨e | _, r'⟩ := x <;> exact h
  · exact .refl

theorem replyToComplete_completes {outcome : ActivationCompleteOutcome} (a : α) (h : Evolves r s)
    (hres : outcome.answers ∈ [none, tok, s.token]) :
    Completes cfg chan tok asked r ((do replyToComplete M outcome chan; return a : ROp μ α).exec s) := by
  have h' := replyToComplete_evolves (M := M) outcome chan s
  rw [exec_bind]
  generalize exec (replyToComplete M outcome chan) s = x at h'
  obtain ⟨e | _, r'⟩ := x
  · exact (h.acts.tail (.send s chan _)).trans h'.acts
  · exact .replied _ h hres h'

/-- The answer is for the completion. -/
def Fits (completion : RunActivationCompletion) (f : FulfillableActivationComplete) : Prop :=
  f.respChan = completion.respChan ∧ f.result.outcome.answers ∈ [none, some completion.taskToken]

theorem prepareCompleteResp_fits (data : RunActivationCompletion) (due : Bool) (r : ManagedRun μ) :
    Post (fun f _ => Fits data f) (fun _ _ => True) ((prepareCompleteResp M data due).exec r) := by
  have h : (completeOutcome M r data due).answers ∈ [none, some data.taskToken] := by
    unfold completeOutcome
    simp only
    split <;> simp [answers]
  unfold prepareCompleteResp
  simp only [exec_bind, exec_get, andThen_ok]
  split <;> exact ⟨rfl, h⟩

theorem afterCommands_fits (completion : RunActivationCompletion) (ha hl las : Bool) (r : ManagedRun μ) :
    Post (fun f _ => Fits completion f) (fun _ _ => True) ((afterCommands M completion ha hl las).exec r) := by
  unfold afterCommands
  split
  · exact prepareCompleteResp_fits completion ha _
  · refine Post.bind (Q := fun _ _ => True) (((sinkHeartbeatTimeoutStart_moves movesRun_inner).post r).imp ?_ ?_)
      fun _ r' _ => ?_
    · exact fun _ _ _ => trivial
    · exact fun _ _ _ => trivial
    · split
      · exact prepareCompleteResp_fits completion true _
      · exact ⟨rfl, by simp [answers]⟩

theorem processCompletion_fits (completion : RunActivationCompletion) (page : Option HistoryUpdate)
    (r : ManagedRun μ) :
    Post (fun f _ => Fits completion f) (fun _ _ => True) ((_processCompletion M completion page).exec r) := by
  unfold _processCompletion
  simp only [exec_bind, exec_get, andThen_ok]
  split
  · exact prepareCompleteResp_fits completion false r
  · rw [exec_bind]
    generalize exec (applyCommands M completion.commands page) r = x
    obtain ⟨e | las, r'⟩ := x
    · trivial
    · exact afterCommands_fits completion _ _ las r'

/-- A failure answers the completion. -/
def FailsWell (cfg : WorkerConfig) (fail : Failing μ) : Prop :=
  ∀ e chan r, Completes cfg chan none (fun _ _ => False) r ((fail e chan).exec r)

/-- A completion whose commands are applied. -/
theorem settleCompletion_completes (hfail : FailsWell cfg fail) (completion : RunActivationCompletion)
    (page : Option HistoryUpdate) (r : ManagedRun μ) :
    Completes cfg completion.respChan (some completion.taskToken) (fun _ _ => False) r
      ((settleCompletion M fail completion page).exec r) := by
  have hi := (processCompletion_inner (M := M) completion page).exec r
  have hf := processCompletion_fits (M := M) completion page r
  unfold settleCompletion
  rw [exec_attempt_bind]
  generalize exec (_processCompletion M completion page) r = x at hi hf
  obtain ⟨e | f, s⟩ := x
  · exact (hfail e completion.respChan s).imp (fun _ _ h => (h.imp fun _ => id).inner hi) fun _ _ h =>
      hi.evolves.acts.trans h
  · obtain ⟨hchan, hans⟩ := hf
    have hu := update_spec (M := M) none (some f) s (fun h => by cases h)
    generalize exec (update M none (some f)) s = y at hu
    obtain ⟨e | act, r'⟩ := y
    · exact hi.evolves.acts.trans hu.acts
    · refine Completed.inner hi ?_
      cases hu with
      | @answered s' hs h =>
        refine .replied f.result hs.evolves ?_ (hchan ▸ h)
        simp only [List.mem_cons, List.not_mem_nil, or_false] at hans ⊢
        exact hans.imp_right .inl
      | lost ha h => exact .lost (.inl ha) h (.inl rfl)

theorem completeWithoutTask_completes (chan : Option RespChan) (hw : r.wft = none) :
    Completes cfg chan none (fun a p => a = .error p) r ((completeWithoutTask M chan).exec r) := by
  unfold completeWithoutTask
  rw [exec_get_bind]
  split
  · next reason info he =>
    rw [exec_modify_bind]
    have h := replyToComplete_evolves (M := M)
      (.reportWFTFail info.taskToken info.attempt .workflowWorkerUnhandledFailure .task) chan
      { r with tryingToEvict := some ⟨reason, none⟩ }
    rw [exec_bind]
    generalize exec (replyToComplete M _ chan) _ = x at h
    obtain ⟨e | _, r'⟩ := x
    · exact .head (.tend (.noteEviction r _)) (.head (.send _ chan _) h.acts)
    · exact .unstored _ .refl hw he rfl h
  · exact replyToComplete_completes _ .refl (by simp [answers])

/-- A completion may wait for a page. -/
theorem processOrFetch_completes (hfail : FailsWell cfg fail) {completion : RunActivationCompletion}
    (ht : r.token = some completion.taskToken) :
    Completes cfg completion.respChan none (fun a p => a = .error p) r
      ((processOrFetch M fail completion).exec r) := by
  unfold processOrFetch
  rw [exec_get_bind]
  split
  · refine Post.bind (settleCompletion_completes hfail completion none r) fun _ r' h => ?_
    exact (h.of_token ht).imp fun _ => False.elim
  · split
    · next pg hpg => exact .waits rfl hpg .refl rfl ht rfl
    · exact Post.bind (hfail _ completion.respChan r) fun _ r' h => h.imp fun _ => False.elim

theorem successfulCompletionWith_completes (hfail : FailsWell cfg fail) (commands : List WFCommand)
    (chan : Option RespChan) (forced : Bool) (r : ManagedRun μ) :
    Completes cfg chan none (fun a p => a = .error p) r
      ((successfulCompletionWith M fail commands chan forced).exec r) := by
  unfold successfulCompletionWith
  rw [exec_get_bind]
  generalize (if r.activationIsEviction then [] else commands) = cs
  simp only
  split
  · next hw => exact completeWithoutTask_completes chan hw
  · next wft hw =>
    have ht : r.token = some wft.taskToken := by simp [token, hw]
    split
    · exact replyToComplete_completes _ .refl (by simp [answers, ht])
    · exact processOrFetch_completes hfail ht

theorem failTask_completes (hfail : FailsWell cfg fail) {wft : OutstandingTask} (cause : WorkflowTaskFailedCause)
    (reason : EvictionReason) (auto : Bool) (chan : Option RespChan) (hw : r.wft = some wft) :
    Completes cfg chan none (fun _ _ => False) r
      ((failTask M cfg fail wft cause reason auto chan).exec r) := by
  unfold failTask
  simp only [exec_bind, exec_get, andThen_ok]
  have he := evictFailed_evolves (M := M) reason (r.isNoReportQueryFail reason auto) r
  have hl : r.activation.isSome → r.pendingWorkIsLegacyQuery → _ :=
    fun h hl => evictFailed_legacy (M := M) h hl reason (r.isNoReportQueryFail reason auto)
  generalize exec (evictFailed M reason (r.isNoReportQueryFail reason auto)) r = x at he hl
  obtain ⟨e | act, s⟩ := x
  · exact he.acts
  rw [andThen_ok, exec_get_bind]
  split
  · next hforced =>
    have hv : Vulnerable cfg r := by
      by_cases ha : r.activation = none
      · exact .inl ha
      · have hl := hl (Option.isSome_iff_ne_none.mpr ha)
        simp only [failsWorkflow, Bool.and_eq_true, Bool.not_eq_true', decide_eq_true_eq] at hforced
        obtain ⟨⟨⟨hleg, hatt⟩, -⟩, hcfg⟩ := hforced
        refine .inr ⟨wft, hw, ?_⟩
        rw [he.same.runId] at hcfg
        have hr : r.pendingWorkIsLegacyQuery = false := by
          by_contra hne
          rw [hl (by simpa using hne)] at hleg
          cases hleg
        simp [failsWorkflow, hr, hatt, hcfg]
    refine Post.bind ((successfulCompletionWith_completes hfail [.failWorkflow] chan true s).imp
      (fun _ _ h => h) fun _ _ h => he.acts.trans h) fun a r' h => ?_
    split <;> exact h.of_vulnerable hv he
  · refine replyToComplete_completes act he ?_
    have ht := he.token (k := wft.taskToken) (by simp [token, hw])
    simp [answers, ht]

theorem updateErr_failsWell {failed : FailedCompletion μ}
    (h : ∀ cause reason auto chan r,
      Completes cfg chan none (fun _ _ => False) r ((failed cause reason auto chan).exec r)) :
    FailsWell cfg (updateErr failed) := by
  intro e chan r
  cases chan with
  | none => exact .replied ⟨.doNothing, false⟩ (autoFail_evolves e r) (by simp [answers]) .refl
  | some c =>
    have hi : Inner r { r with amBroken := true } := .mk r.mgr r.waitingOnLa true
    exact (h _ _ true (some c) { r with amBroken := true }).imp (fun _ _ h => h.inner hi)
      fun _ _ h => hi.evolves.acts.trans h

/-- **A completion that fails is answered, unless the run is vulnerable.** -/
theorem failedCompletion_completes : ∀ (fuel : Nat) (cause : WorkflowTaskFailedCause) (reason : EvictionReason)
    (auto : Bool) (chan : Option RespChan) (r : ManagedRun μ),
      Completes cfg chan none (fun _ _ => False) r ((failedCompletion M cfg fuel cause reason auto chan).exec r)
  | 0, _, _, _, _, _ => Relation.ReflTransGen.refl
  | fuel + 1, cause, reason, auto, chan, r => by
    unfold failedCompletion
    rw [exec_get_bind]
    split
    · exact replyToComplete_completes _ .refl (by simp [answers])
    · next wft hw =>
      exact failTask_completes (updateErr_failsWell (failedCompletion_completes fuel)) cause reason auto chan hw

theorem failing_failsWell (fuel : Nat) : FailsWell cfg (updateErr (failedCompletion M cfg fuel)) :=
  updateErr_failsWell (failedCompletion_completes fuel)

/-- **A successful completion is answered or waits for a page that it asked for, unless the run is vulnerable.** -/
theorem successfulCompletion_completes (fuel : Nat) (commands : List WFCommand) (chan : Option RespChan)
    (r : ManagedRun μ) :
    Completes cfg chan none (fun a p => a = .error p) r ((successfulCompletion M cfg fuel commands chan).exec r) :=
  successfulCompletionWith_completes (failing_failsWell fuel) commands chan false r

section

variable {r : ManagedRun μ} {c : RunActivationCompletion}

def resume (r : ManagedRun μ) (pg : Option HistoryPaginator) : ManagedRun μ :=
  { r with paginator := pg, completionWaitingOnPageFetch := none }

/-- The completion that waits goes on. -/
theorem fetchedPageCompletion_waiting (h : r.completionWaitingOnPageFetch = some c) (fuel : Nat)
    (page : HistoryUpdate) (pg : HistoryPaginator) :
    Completes cfg c.respChan (some c.taskToken) (fun _ _ => False) (r.resume (some pg))
      ((fetchedPageCompletion M cfg fuel page pg).exec r) := by
  unfold fetchedPageCompletion
  simp only [exec_bind, exec_get, andThen_ok, exec_modify, h]
  exact settleCompletion_completes (failing_failsWell fuel) c (some page) (r.resume (some pg))

theorem fetchedPageCompletion_idle (h : r.completionWaitingOnPageFetch = none) (fuel : Nat) (page : HistoryUpdate)
    (pg : HistoryPaginator) : Evolves (r.resume (some pg)) ((fetchedPageCompletion M cfg fuel page pg).exec r).2 := by
  unfold fetchedPageCompletion
  simp only [exec_bind, exec_get, andThen_ok, exec_modify, h]
  exact autoFail_evolves _ (r.resume (some pg))

/-- An eviction fails the completion that waits. -/
theorem requestEviction_waiting (h : r.completionWaitingOnPageFetch = some c) {info : RequestEvictMsg}
    (hi : info.reason = .paginationOrHistoryFetch) (fuel : Nat) :
    Completes cfg c.respChan none (fun _ _ => False) (r.resume r.paginator)
      ((requestEviction M cfg fuel info).exec r) := by
  unfold requestEviction
  rw [exec_get_bind]
  simp only [h]
  rw [if_pos hi, exec_modify_bind]
  exact Post.bind (failedCompletion_completes fuel _ _ true c.respChan (r.resume r.paginator)) fun _ _ h => h

theorem requestEviction_marks {info : RequestEvictMsg}
    (h : r.completionWaitingOnPageFetch = none ∨ info.reason ≠ .paginationOrHistoryFetch) (fuel : Nat) :
    (requestEviction M cfg fuel info).exec r = (markForEviction M info).exec r := by
  unfold requestEviction
  rw [exec_get_bind]
  cases hw : r.completionWaitingOnPageFetch with
  | none => rfl
  | some c =>
    rcases h with h | h
    · rw [hw] at h
      cases h
    · simp only
      rw [if_neg h]

end

end SdkCore.ManagedRun
