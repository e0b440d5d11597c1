import SdkCore.Run.Evicting

/-!
# Calls and evictions

`call` makes a call of the stream to a run. A run that is `Guarded` stays so (`call_guarded`). A run that wants to be
evicted and gives nothing withholds the eviction for a cancellation (`checkMoreActivations_withholds`).
-/

namespace SdkCore

open Op

namespace ManagedRun

variable {μ : Type} {M : ManagerOps μ} {cfg : WorkerConfig} {I : μ → Prop}

section

variable (hM : M.Upholds I)
include hM

/-! ## Completions -/

/-- To ask for an eviction keeps the run guarded. -/
theorem markForEviction_guards (info : RequestEvictMsg) (r : ManagedRun μ) :
    Guards M I r ((markForEviction M info).exec r).2 := by
  unfold markForEviction
  rw [exec_get_bind]
  split
  · have hmark : Guards M I r { r.dropQueries info.reason with tryingToEvict := some info } := by
      unfold dropQueries
      split <;> exact .of_eq rfl rfl rfl
    rw [exec_modify_bind, snd_exec_bind_pure]
    exact hmark.trans (checkMoreActivations_guards hM _)
  · exact .of_eq rfl rfl rfl

theorem replyToComplete_guards (outcome : ActivationCompleteOutcome) (chan : Option RespChan) (r : ManagedRun μ) :
    Guards M I r ((replyToComplete M outcome chan).exec r).2 := by
  have hsend : Guards M I r (r.send chan ⟨outcome, M.replaying r.mgr⟩) := by
    cases chan with
    | none => exact .refl r
    | some c => exact .of_eq rfl rfl rfl
  unfold replyToComplete
  rw [exec_modify_bind]
  split
  · rw [snd_exec_bind_pure]
    exact hsend.trans (markForEviction_guards hM { reason := .fatal } _)
  · exact hsend

theorem replyAndReturn_guards {α : Type} (outcome : ActivationCompleteOutcome) (chan : Option RespChan) (a : α)
    (r : ManagedRun μ) : Guards M I r ((do replyToComplete M outcome chan; return a : ROp μ α).exec r).2 := by
  rw [snd_exec_bind_pure]
  exact replyToComplete_guards hM outcome chan r

variable {r : ManagedRun μ} {completion : RunActivationCompletion} {fail : Failing μ}

theorem prepareCompleteResp_undelivered (data : RunActivationCompletion) (due : Bool) (hr : Managed I r) :
    M.hasUndeliveredCancels ((prepareCompleteResp M data due).exec r).2.mgr = M.hasUndeliveredCancels r.mgr := by
  unfold prepareCompleteResp
  simp only [exec_bind, exec_get, andThen_ok]
  split
  · exact (hM.reported r.mgr hr).2
  · rfl

/-- The commands of a completion are applied. -/
theorem processCompletion_guards (page : Option HistoryUpdate)
    (hc : completion.activationWasEviction = r.activationIsEviction) :
    Guards M I r ((_processCompletion M completion page).exec r).2 := by
  intro hr
  have hs := (processCompletion_inner (M := M) completion page).exec r
  refine Guards.of_mgr (processCompletion_moves
    (movesRun_managed hM) completion page r).1 hs.settles.activation hs.evolves.same.waiting
    (fun he => ?_) hr
  have hc : completion.activationWasEviction = true := by simp [hc, activationIsEviction, he]
  simp only [_processCompletion, exec_bind, exec_get, andThen_ok, hc, if_true]
  exact prepareCompleteResp_undelivered hM completion false hr.mgr

/-- A failure keeps the run guarded. -/
def FailsGuarded (M : ManagerOps μ) (I : μ → Prop) (fail : Failing μ) : Prop :=
  ∀ e chan r, Guards M I r ((fail e chan).exec r).2

theorem settleCompletion_guards (hfail : FailsGuarded M I fail) (page : Option HistoryUpdate)
    (hc : completion.activationWasEviction = r.activationIsEviction) :
    Guards M I r ((settleCompletion M fail completion page).exec r).2 := by
  have h := processCompletion_guards hM page hc
  unfold settleCompletion
  rw [exec_attempt_bind]
  generalize exec (_processCompletion M completion page) r = x at h
  obtain ⟨e | f, s⟩ := x
  · exact h.trans (hfail e completion.respChan s)
  · exact h.trans (update_guards hM (some f) nofun nofun)

theorem completeWithoutTask_guards (chan : Option RespChan) (r : ManagedRun μ) :
    Guards M I r ((completeWithoutTask M chan).exec r).2 := by
  unfold completeWithoutTask
  rw [exec_get_bind]
  split
  · next reason info _ =>
    have hmark : Guards M I r { r with tryingToEvict := some ⟨reason, none⟩ } := .of_eq rfl rfl rfl
    exact hmark.trans (replyAndReturn_guards hM _ chan _ _)
  · exact replyAndReturn_guards hM _ chan _ r

theorem processOrFetch_guards (hfail : FailsGuarded M I fail)
    (hc : completion.activationWasEviction = r.activationIsEviction) :
    Guards M I r ((processOrFetch M fail completion).exec r).2 := by
  unfold processOrFetch
  rw [exec_get_bind]
  split
  · rw [snd_exec_bind_pure]
    exact settleCompletion_guards hM hfail none hc
  · split
    · intro hr
      exact ⟨⟨hr.mgr, hr.eviction⟩, fun hn => ⟨rfl, .inr (.inr ⟨hn, completion, rfl, hc⟩)⟩⟩
    · rw [snd_exec_bind_pure]
      exact hfail (.fatal .paginatorAbsent) completion.respChan r

theorem successfulCompletionWith_guards (hfail : FailsGuarded M I fail) (commands : List WFCommand)
    (chan : Option RespChan) (forced : Bool) (r : ManagedRun μ) :
    Guards M I r ((successfulCompletionWith M fail commands chan forced).exec r).2 := by
  unfold successfulCompletionWith
  rw [exec_get_bind]
  generalize (if r.activationIsEviction then [] else commands) = cs
  simp only
  split
  · exact completeWithoutTask_guards hM chan r
  · split
    · exact replyAndReturn_guards hM _ chan _ r
    · exact processOrFetch_guards hM hfail rfl

theorem evictFailed_guards (reason : EvictionReason) (noReport : Bool) (r : ManagedRun μ) :
    Guards M I r ((evictFailed M reason noReport).exec r).2 := by
  unfold evictFailed
  split
  · exact .refl r
  · rw [snd_exec_bind_pure]
    exact markForEviction_guards hM { reason } r

theorem failTask_guards (hfail : FailsGuarded M I fail) (wft : OutstandingTask) (cause : WorkflowTaskFailedCause)
    (reason : EvictionReason) (auto : Bool) (chan : Option RespChan) (r : ManagedRun μ) :
    Guards M I r ((failTask M cfg fail wft cause reason auto chan).exec r).2 := by
  unfold failTask
  simp only [exec_bind, exec_get, andThen_ok]
  have he := evictFailed_guards hM reason (r.isNoReportQueryFail reason auto) r
  generalize exec (evictFailed M reason (r.isNoReportQueryFail reason auto)) r = x at he
  obtain ⟨e | act, s⟩ := x
  · exact he
  rw [andThen_ok, exec_get_bind]
  split
  · have h := he.trans (successfulCompletionWith_guards hM hfail [.failWorkflow] chan true s)
    rw [exec_bind]
    generalize exec (successfulCompletionWith M fail [.failWorkflow] chan true) s = y at h
    obtain ⟨e | a, r'⟩ := y
    · exact h
    · rw [andThen_ok]
      split <;> exact h
  · exact he.trans (replyAndReturn_guards hM _ chan act s)

omit hM in
theorem updateErr_failsGuarded {failed : FailedCompletion μ}
    (h : ∀ cause reason auto chan r, Guards M I r ((failed cause reason auto chan).exec r).2) :
    FailsGuarded M I (updateErr failed) := by
  intro e chan r
  cases chan with
  | none => exact autoFail_guards e
  | some c =>
    have hbroken : Guards M I r { r with amBroken := true } := .of_eq rfl rfl rfl
    exact hbroken.trans (h _ _ true (some c) _)

theorem failedCompletion_guards : ∀ (fuel : Nat) (cause : WorkflowTaskFailedCause) (reason : EvictionReason)
    (auto : Bool) (chan : Option RespChan) (r : ManagedRun μ),
      Guards M I r ((failedCompletion M cfg fuel cause reason auto chan).exec r).2
  | 0, _, _, _, _, r => .refl r
  | fuel + 1, cause, reason, auto, chan, r => by
    unfold failedCompletion
    rw [exec_get_bind]
    split
    · exact replyAndReturn_guards hM _ chan _ r
    · exact failTask_guards hM (updateErr_failsGuarded (failedCompletion_guards fuel)) _ cause reason auto chan r

theorem failing_failsGuarded (fuel : Nat) : FailsGuarded M I (updateErr (failedCompletion M cfg fuel)) :=
  updateErr_failsGuarded (failedCompletion_guards hM fuel)

/-! ## Calls of the stream -/

theorem offerWft_guards (p : PermittedWFT) (r : ManagedRun μ) : Guards M I r ((offerWft M p).exec r).2 := by
  unfold offerWft bufferWftIfOutstandingWork
  simp only [exec_bind, exec_get, andThen_ok]
  split
  · exact .of_eq rfl rfl rfl
  · next h =>
    simp only [Bool.or_eq_true, not_or, Bool.not_eq_true, Option.isSome_eq_false_iff, Option.isNone_iff_eq_none] at h
    exact incomingWft_guards hM p h.1.1.1

theorem fetchedPageCompletion_guards (fuel : Nat) (page : HistoryUpdate) (pg : HistoryPaginator)
    (hw : r.completionWaitingOnPageFetch ≠ none → Awaits r) :
    Guards M I r ((fetchedPageCompletion M cfg fuel page pg).exec r).2 := by
  have hresume : Guards M I r (r.resume (some pg)) :=
    fun hr => ⟨⟨hr.mgr, hr.eviction⟩, fun _ => ⟨rfl, .inr (.inl rfl)⟩⟩
  unfold fetchedPageCompletion
  simp only [exec_bind, exec_get, andThen_ok, exec_modify]
  split
  · next c hc =>
    obtain ⟨-, c', hc', hflag⟩ := hw (by simp [hc])
    obtain rfl : c' = c := Option.some.inj (hc'.symm.trans hc)
    exact hresume.trans (settleCompletion_guards hM (failing_failsGuarded hM fuel) (some page) hflag)
  · exact hresume.trans (autoFail_guards _)

theorem requestEviction_guards (fuel : Nat) (info : RequestEvictMsg) (r : ManagedRun μ) :
    Guards M I r ((requestEviction M cfg fuel info).exec r).2 := by
  unfold requestEviction
  rw [exec_get_bind]
  split
  · next c _ =>
    split
    · have hresume : Guards M I r (r.resume r.paginator) :=
        fun hr => ⟨⟨hr.mgr, hr.eviction⟩, fun _ => ⟨rfl, .inr (.inl rfl)⟩⟩
      rw [exec_modify_bind, snd_exec_bind_pure]
      exact hresume.trans (failedCompletion_guards hM fuel _ info.reason true c.respChan _)
    · exact markForEviction_guards hM info r
  · exact markForEviction_guards hM info r

theorem completeWft_guards (status : WFTReportStatus) (r : ManagedRun μ) :
    Guards M I r ((completeWft M status).exec r).2 := by
  intro hr
  unfold completeWft
  rw [exec_get_bind]
  split
  · exact Guards.refl r hr
  · cases status with
    | notReported | dropWft => exact Guards.of_eq rfl rfl rfl hr
    | reported reset =>
      have hm : ∀ m, I m → M.hasUndeliveredCancels m = M.hasUndeliveredCancels r.mgr →
          Guards M I r { r with wft := none, mgr := (M.sinkReqs [.indicateWorkflowTaskCompleted] m).2 } :=
        fun m hm hu => .of_mgr (fun _ => hM.sink _ m hm (by simp)) rfl rfl fun _ => (hM.indicate m).trans hu
      cases reset with
      | none => exact hm r.mgr hr.mgr rfl hr
      | some id =>
        have h := hM.reset id r.mgr hr.mgr
        exact hm _ h.1 h.2 hr

theorem finishActivation_guarded (pred : OutstandingActivation → Bool) (hr : Guarded M I r) :
    Guarded M I ((finishActivation M pred).exec r).2 := by
  unfold finishActivation
  simp only [exec_bind, exec_get, andThen_ok, exec_modify]
  split
  · split
    · next he =>
      have he : r.activation = some .eviction := by simpa [activationIsEviction] using he
      exact ⟨hM.invalidate r.mgr hr.mgr (hr.eviction he), fun h => by cases h⟩
    · exact ⟨hr.mgr, fun h => by cases h⟩
  · exact ⟨hr.mgr, hr.eviction⟩

end

/-! ## What comes back from a call -/

/-- An activation, or a request for a page of history. -/
abbrev Reply := Except HistoryPaginator (Option ActivationOrAuto)

def call (M : ManagerOps μ) (cfg : WorkerConfig) (fuel : Nat) : RunInput → ROp μ Reply
  | .newWft p => return .ok (← offerWft M p)
  | .success commands chan => successfulCompletion M cfg fuel commands chan
  | .failure cause reason isAutoFail chan => return .ok (← failedCompletion M cfg fuel cause reason isAutoFail chan)
  | .fetchedPage update paginator => return .ok (← fetchedPageCompletion M cfg fuel update paginator)
  | .requestEviction info => return .ok (← ManagedRun.requestEviction M cfg fuel info).intoRunUpdateResp
  | .postActivation status isAutocomplete => do
    let _ ← completeWft M status
    let _ ← finishActivation M (endsActivation isAutocomplete)
    return .ok none
  | .localResolution res => return .ok (← ManagedRun.localResolution M res)
  | .heartbeatTimeout => return .ok (← ManagedRun.heartbeatTimeout M)
  | .checkMoreActivations => return .ok (← ManagedRun.checkMoreActivations M)

/-- A page comes for a completion that `asked` for it. -/
def conforms (asked : Bool) (r : ManagedRun μ) : RunInput → Bool
  | .fetchedPage .. => r.completionWaitingOnPageFetch.isNone || asked
  | _ => true

/-- The completion that waits is one of the outstanding activation, and asked for its page. -/
def stillAsked (asked : Bool) (reply : Reply) (r : ManagedRun μ) : Bool :=
  r.activation.isSome && (!reply.toBool || (asked && r.completionWaitingOnPageFetch.isSome))

theorem successfulCompletion_asks {fuel : Nat} {commands : List WFCommand} {chan : Option RespChan}
    {r r' : ManagedRun μ}
    {pg : HistoryPaginator} (h : (successfulCompletion M cfg fuel commands chan).exec r = (.ok (.error pg), r'))
    (ha : r'.activation.isSome) : Awaits r' := by
  unfold successfulCompletion successfulCompletionWith at h
  rw [exec_get_bind] at h
  generalize (if r.activationIsEviction then [] else commands) = cs at h
  simp only at h
  split at h
  · unfold completeWithoutTask at h
    rw [exec_get_bind] at h
    split at h
    · obtain ⟨_, s, -, h⟩ := exec_bind_ok h
      obtain ⟨_, s, -, h⟩ := exec_bind_ok h
      cases h
    · obtain ⟨_, s, -, h⟩ := exec_bind_ok h
      cases h
  · split at h
    · obtain ⟨_, s, -, h⟩ := exec_bind_ok h
      cases h
    · unfold processOrFetch at h
      rw [exec_get_bind] at h
      split at h
      · obtain ⟨_, s, -, h⟩ := exec_bind_ok h
        cases h
      · split at h
        · cases h
          exact ⟨ha, _, rfl, rfl⟩
        · obtain ⟨_, s, -, h⟩ := exec_bind_ok h
          cases h

section

variable (hM : M.Upholds I) {i : RunInput} {asked : Bool} {r r' : ManagedRun μ}
include hM

theorem call_guards (cfg : WorkerConfig) (fuel : Nat) (hi : ∀ status auto, i ≠ .postActivation status auto)
    (hc : conforms asked r i = true)
    (hask : asked = true → Awaits r) : Guards M I r ((call M cfg fuel i).exec r).2 := by
  cases i with
  | postActivation status auto => exact absurd rfl (hi status auto)
  | success commands chan =>
    exact successfulCompletionWith_guards hM (failing_failsGuarded hM fuel) commands chan false r
  | newWft p =>
    rw [call, snd_exec_bind_pure]
    exact offerWft_guards hM p r
  | failure cause reason auto chan =>
    rw [call, snd_exec_bind_pure]
    exact failedCompletion_guards hM fuel cause reason auto chan r
  | fetchedPage page pg =>
    rw [call, snd_exec_bind_pure]
    refine fetchedPageCompletion_guards hM fuel page pg fun hw => hask ?_
    simpa [conforms, hw] using hc
  | requestEviction info =>
    rw [call, snd_exec_bind_pure]
    exact requestEviction_guards hM fuel info r
  | localResolution res =>
    rw [call, snd_exec_bind_pure]
    exact localResolution_guards hM res r
  | heartbeatTimeout =>
    rw [call, snd_exec_bind_pure]
    exact heartbeatTimeout_guards hM r
  | checkMoreActivations =>
    rw [call, snd_exec_bind_pure]
    exact checkMoreActivations_guards hM r

theorem postActivation_guarded (cfg : WorkerConfig) (fuel : Nat) (status : WFTReportStatus) (auto : Bool)
    (hr : Guarded M I r) : Guarded M I ((call M cfg fuel (.postActivation status auto)).exec r).2 := by
  have h := (completeWft_guards hM status r hr).1
  rw [call, exec_bind]
  generalize (completeWft M status).exec r = x at h
  obtain ⟨e | _, s⟩ := x
  · exact h
  · rw [andThen_ok, snd_exec_bind_pure]
    exact finishActivation_guarded hM _ h

omit hM in
theorem postActivation_awaits {fuel : Nat} {reply : Reply} {status : WFTReportStatus} {auto : Bool}
    (h : (call M cfg fuel (.postActivation status auto)).exec r = (.ok reply, r')) (hr : Awaits r)
    (ha : r'.activation.isSome) : Awaits r' := by
  obtain ⟨_, s, hs, h⟩ := exec_bind_ok h
  obtain ⟨_, s', hs', h⟩ := exec_bind_ok h
  cases h
  have hsame : s.activation = r.activation ∧ s.completionWaitingOnPageFetch = r.completionWaitingOnPageFetch := by
    have hspec := completeWft_spec (M := M) r status
    rw [hs] at hspec
    rcases hspec with ⟨rfl, -⟩ | ⟨m, rfl⟩ <;> exact ⟨rfl, rfl⟩
  rcases finishActivation_spec s (endsActivation auto) with ⟨a, rfl | rfl, hf⟩ | ⟨-, -, m, hf⟩
  · rw [hs'] at hf
    cases hf
    cases ha
  · rw [hs'] at hf
    cases hf
    exact hr.of_eq hsame.1 hsame.2
  · rw [hs'] at hf
    cases hf
    cases ha

/-- **While its eviction is outstanding a run asks for no cancellation**, and a waiting completion is one of the
outstanding activation. -/
theorem call_guarded {fuel : Nat} {reply : Reply} (h : (call M cfg fuel i).exec r = (.ok reply, r'))
    (hc : conforms asked r i = true) (hr : Guarded M I r) (hask : asked = true → Awaits r) :
    Guarded M I r' ∧ (stillAsked asked reply r' = true → Awaits r') := by
  have hstill : stillAsked asked reply r' = true →
      r'.activation.isSome ∧ (reply.toBool = false ∨ asked = true ∧ r'.completionWaitingOnPageFetch.isSome) := by
    simp only [stillAsked, Bool.and_eq_true, Bool.or_eq_true, Bool.not_eq_true', imp_self]
  by_cases hi : ∃ status auto, i = .postActivation status auto
  · obtain ⟨status, auto, rfl⟩ := hi
    have hg := postActivation_guarded hM cfg fuel status auto hr
    rw [h] at hg
    refine ⟨hg, fun hs => ?_⟩
    obtain ⟨ha, hreply | ⟨hasked, -⟩⟩ := hstill hs
    · obtain ⟨_, s, -, h⟩ := exec_bind_ok h
      obtain ⟨_, s, -, h⟩ := exec_bind_ok h
      cases h
      cases hreply
    · exact postActivation_awaits h (hask hasked) ha
  · have hg := call_guards hM cfg fuel (fun status auto he => hi ⟨status, auto, he⟩) hc hask hr
    rw [h] at hg
    refine ⟨hg.1, fun hs => ?_⟩
    obtain ⟨ha, hreply | ⟨hasked, hw⟩⟩ := hstill hs
    · cases reply with
      | ok => cases hreply
      | error pg =>
        cases i with
        | success commands chan => exact successfulCompletion_asks h ha
        | postActivation status auto => exact absurd ⟨status, auto, rfl⟩ hi
        | _ =>
          obtain ⟨_, s, -, h⟩ := exec_bind_ok h
          cases h
    · exact (hg.2 (hask hasked).1).awaits (hask hasked) (Option.isSome_iff_ne_none.mp hw)

end

/-! ## Evictions that are withheld -/

/-- Nothing but a cancellation keeps the run. -/
def wantsEviction (M : ManagerOps μ) (r : ManagedRun μ) : Bool :=
  r.tryingToEvict.isSome && r.activation.isNone && (r.amBroken || !r.morePendingWork M)

section

variable {act : Option ActivationOrAuto} {r r' : ManagedRun μ}

theorem evictionActivation_withholds (hr : wantsEviction M r = true)
    (h : (evictionActivation M).exec r = (.ok none, r')) : M.hasUndeliveredCancels r'.mgr = true := by
  unfold wantsEviction at hr
  rw [Bool.and_eq_true, Bool.and_eq_true] at hr
  obtain ⟨⟨he, ha⟩, hw⟩ := hr
  obtain ⟨info, he⟩ := Option.isSome_iff_exists.mp he
  unfold evictionActivation at h
  simp only [exec_bind, exec_get, andThen_ok, he, ha, hw, Bool.and_self, if_true, exec_modify] at h
  obtain ⟨_, s, -, h⟩ := exec_bind_ok ((exec_bind ..).trans h)
  rw [exec_get_bind] at h
  split at h
  · next hu =>
    cases h
    exact hu
  · cases h

theorem checkMoreActivations_found (h : (_checkMoreActivations M).exec r = (.ok act, r')) :
    act = none ∧ r' = r ∨ act.isSome ∧ r.wft.isSome ∧ r'.wft = r.wft ∧ r'.tryingToEvict = r.tryingToEvict := by
  have hs := checkMoreActivations_inner (M := M).exec r
  rw [h] at hs
  unfold _checkMoreActivations at h
  rw [exec_get_bind] at h
  split at h
  · cases h
    exact .inl ⟨rfl, rfl⟩
  next hn =>
  have hw : r.wft.isSome := by
    simp only [Bool.or_eq_true, not_or, Bool.not_eq_true, Option.isNone_eq_false_iff] at hn
    exact hn.2
  have hsame : r'.wft = r.wft ∧ r'.tryingToEvict = r.tryingToEvict := by
    cases hs
    exact ⟨rfl, rfl⟩
  split at h
  · obtain ⟨_, s, -, h⟩ := exec_bind_ok h
    cases h
    exact .inr ⟨rfl, hw, hsame⟩
  split at h
  · cases h
    exact .inr ⟨rfl, hw, hsame⟩
  split at h
  · cases h
    exact .inr ⟨rfl, hw, hsame⟩
  split at h
  · cases h
    exact .inr ⟨rfl, hw, hsame⟩
  · cases h
    exact .inl ⟨rfl, rfl⟩

theorem finalAct_withholds (hact : act = none → wantsEviction M r = true) (hw : act.isSome → r.wft.isSome)
    (h : (finalAct M act).exec r = (.ok none, r')) : M.hasUndeliveredCancels r'.mgr = true := by
  cases act with
  | none => exact evictionActivation_withholds (hact rfl) h
  | some a =>
    obtain ⟨wft, hwft⟩ := Option.isSome_iff_exists.mp (hw rfl)
    cases a with
    | readyForQueries act =>
      simp only [finalAct, dispatchQueries, exec_bind, exec_get, andThen_ok, hwft] at h
      cases h
    | langActivation | autocomplete | autoFail => cases h

theorem outgoingAct_withholds (hact : act = none → wantsEviction M r = true) (hw : act.isSome → r.wft.isSome)
    (h : (outgoingAct M act).exec r = (.ok none, r')) : M.hasUndeliveredCancels r'.mgr = true := by
  obtain ⟨act', s, hc, hf⟩ := exec_bind_ok h
  unfold checkedAct at hc
  rw [exec_get_bind] at hc
  split at hc
  · next hn =>
    rw [Bool.and_eq_true, Option.isNone_iff_eq_none] at hn
    have hwants := hact hn.2
    rcases checkMoreActivations_found hc with ⟨rfl, rfl⟩ | ⟨hsome, hwft, hs, -⟩
    · exact finalAct_withholds (fun _ => hwants) (by simp) hf
    · refine finalAct_withholds (fun hne => ?_) (fun _ => hs ▸ hwft) hf
      rw [hne] at hsome
      cases hsome
  · cases hc
    exact finalAct_withholds hact hw hf

/-- A round that gives nothing withholds the eviction. -/
theorem updateRound_withholds {go : Option ActivationOrAuto → ROp μ (Option ActivationOrAuto)}
    (he : r.tryingToEvict.isSome) (hact : act = none → wantsEviction M r = true) (hw : act.isSome → r.wft.isSome)
    (h : (updateRound M go act none).exec r = (.ok none, r')) : M.hasUndeliveredCancels r'.mgr = true := by
  have hs := outgoingAct_settles (M := M) act r
  have ho : ∀ s, (outgoingAct M act).exec r = (.ok none, s) → _ := fun s => outgoingAct_withholds hact hw
  unfold updateRound at h
  rw [exec_attempt_bind] at h
  generalize (outgoingAct M act).exec r = x at hs ho h
  obtain ⟨e | a, s⟩ := x
  · cases h
  · have hs : s.tryingToEvict = r.tryingToEvict := by
      cases hs
      rfl
    simp only [exec_bind, exec_modify, andThen_ok, exec_get] at h
    rw [if_neg] at h
    · cases a with
      | none =>
        cases h
        exact ho s rfl
      | some a => cases h
    · intro hi
      have hn : s.tryingToEvict = none := (isIdle_iff.mp hi).2.2.2
      rw [← hs, hn] at he
      cases he

theorem settle_withholds {x : FOp μ (Option ActivationOrAuto)} {s : ManagedRun μ} (hx : x.exec r = (.ok act, s))
    (he : s.tryingToEvict.isSome) (hact : act = none → wantsEviction M s = true) (hw : act.isSome → s.wft.isSome)
    (h : (settle M x).exec r = (.ok none, r')) : M.hasUndeliveredCancels r'.mgr = true := by
  unfold settle at h
  rw [exec_attempt_bind, hx] at h
  have hupdate : (updateOk M s.taskBuffer.intoBufferOrder.length act none).exec s = (.ok none, r') := h
  cases hn : s.taskBuffer.intoBufferOrder.length with
  | zero | succ =>
    rw [hn] at hupdate
    exact updateRound_withholds he hact hw hupdate

theorem settle_checkMoreActivations_withholds {x : FOp μ (Option ActivationOrAuto)} {s : ManagedRun μ}
    (hr : wantsEviction M s = true) (hx : x.exec r = (_checkMoreActivations M).exec s)
    (h : (settle M x).exec r = (.ok none, r')) : M.hasUndeliveredCancels r'.mgr = true := by
  have he : s.tryingToEvict.isSome := by
    simp only [wantsEviction, Bool.and_eq_true] at hr
    exact hr.1.1
  generalize hy : (_checkMoreActivations M).exec s = y at hx
  obtain ⟨e | act, s'⟩ := y
  · unfold settle at h
    rw [exec_attempt_bind, hx] at h
    cases h
  · rcases checkMoreActivations_found hy with ⟨rfl, rfl⟩ | ⟨hsome, hw, hs, hs'⟩
    · exact settle_withholds hx he (fun _ => hr) nofun h
    · refine settle_withholds hx (hs' ▸ he) (fun hne => ?_) (fun _ => hs ▸ hw) h
      rw [hne] at hsome
      cases hsome

/-- **Looking for an activation withholds the eviction only for a cancellation.** -/
theorem checkMoreActivations_withholds (hr : wantsEviction M r = true)
    (h : (checkMoreActivations M).exec r = (.ok none, r')) : M.hasUndeliveredCancels r'.mgr = true :=
  settle_checkMoreActivations_withholds hr rfl h

theorem localResolution_withholds {res : LocalResolution} (hr : wantsEviction M r = true)
    (h : (localResolution M res).exec r = (.ok none, r')) : M.hasUndeliveredCancels r'.mgr = true := by
  have hr' := hr
  simp only [wantsEviction, Bool.and_eq_true] at hr'
  obtain ⟨⟨he, ha⟩, hw⟩ := hr'
  by_cases hp : r.morePendingWork M
  · -- the run is broken, and the result goes to the machines
    have hb : r.amBroken = true := by simpa [hp] using hw
    have hne : r.activationIsEviction = false := by simp [activationIsEviction, Option.isNone_iff_eq_none.mp ha]
    have hx : (_localResolution M res).exec r = andThen (fun _ => do
        if (← get).activation.isNone then _checkMoreActivations M else return none)
        ((M.notifyOfLocalResult res r.mgr).1, { r with mgr := (M.notifyOfLocalResult res r.mgr).2 }) := by
      unfold _localResolution
      rw [exec_get_bind, if_neg (by simp [hne, hp]), exec_bind]
      rfl
    cases hres : (M.notifyOfLocalResult res r.mgr).1 with
    | error e =>
      unfold localResolution settle at h
      rw [exec_attempt_bind, hx, hres] at h
      cases h
    | ok _ =>
      rw [hres, andThen_ok, exec_get_bind, if_pos ha] at hx
      refine settle_checkMoreActivations_withholds ?_ hx h
      simp [wantsEviction, he, ha, hb]
  · refine settle_checkMoreActivations_withholds hr ?_ h
    unfold _localResolution
    rw [exec_get_bind, if_pos (by simp [he, ha, hp])]

end

end ManagedRun

end SdkCore
