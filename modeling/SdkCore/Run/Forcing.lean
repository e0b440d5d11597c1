import SdkCore.LocalActivities.Handshake
import SdkCore.Machines.ForcedFailure
import SdkCore.Run.Answers
import SdkCore.Run.Returning

/-!
# Completions that are forced

Nondeterminism may fail the workflow, by another completion, which may fail again. Every such failure uses something up
(`applyCommands_forced`), unless the run is `trapped` (`failing_returns_iff`).
-/

namespace SdkCore

open Op Managers

namespace ManagedRun

variable {μ : Type} {M : ManagerOps μ} {cfg : WorkerConfig}

/-! ## The eviction of a broken run -/

/-- A broken run without an activation completes its task by itself. -/
def autocompletes (M : ManagerOps μ) (r : ManagedRun μ) : Bool :=
  (r.waitingOnLa.isSome && M.outstandingLocalActivityCount r.mgr = 0) || r.waitingOnLa = some true

/-- The eviction goes out once it is asked for: no other activation is outstanding and no cancellations wait. -/
def evictsAtOnce (M : ManagerOps μ) (r : ManagedRun μ) : Bool :=
  r.activationIsEviction || (r.tryingToEvict.isNone && r.activation.isNone && !r.autocompletes M &&
    !M.hasUndeliveredCancels (M.sinkReqs [.cancelAllInRun] r.mgr).2)

/-- What asking for the eviction of a broken run does. -/
structure Marked (M : ManagerOps μ) (r r' : ManagedRun μ) : Prop where
  mgr : r'.mgr = r.mgr ∨ r'.mgr = (M.sinkReqs [.cancelAllInRun] r.mgr).2
  wft : Drained r.wft r'.wft
  runId : r'.runId = r.runId
  amBroken : r'.amBroken = r.amBroken
  evict : r'.tryingToEvict.isSome = true
  legacy : r'.pendingWorkIsLegacyQuery = r.pendingWorkIsLegacyQuery
  eviction : r'.activationIsEviction = r.evictsAtOnce M

section

variable {r : ManagedRun μ}

theorem checkMoreActivations_autocompletes (hb : r.amBroken = true) (hw : r.wft.isSome = true)
    (ha : r.activation = none) (h : r.autocompletes M = true) :
    ∃ w, (_checkMoreActivations M).exec r = (.ok (some .autocomplete), { r with waitingOnLa := w }) := by
  unfold _checkMoreActivations
  rw [exec_get_bind, if_neg (by simp [ha, Option.isSome_iff_ne_none.mp hw]), if_neg (by simp [hb])]
  split
  · exact ⟨none, rfl⟩
  · next hla =>
    rw [if_neg (by simp [hb])]
    have hdue : r.waitingOnLa = some true := by
      unfold autocompletes at h
      simpa [hla] using h
    rw [if_pos hdue]
    exact ⟨r.waitingOnLa, rfl⟩

/-- The eviction comes next. -/
theorem checkMoreActivations_evicts (hb : r.amBroken = true) (h : r.autocompletes M = false) :
    (_checkMoreActivations M).exec r = (.ok none, r) := by
  obtain ⟨hla, hdue⟩ := Bool.or_eq_false_iff.mp h
  unfold _checkMoreActivations
  rw [exec_get_bind]
  split
  · rfl
  · rw [if_neg (by simp [hb]), if_neg (by simpa using hla), if_neg (by simp [hb]), if_neg (by simpa using hdue)]
    rfl

theorem update_of_wft {act a : Option ActivationOrAuto} {r' : ManagedRun μ}
    (h : (outgoingAct M act).exec r = (.ok a, r')) (hw : r'.wft.isSome = true) :
    (update M act none).exec r = (sendOut a).exec r' := by
  have hround : ∀ go, (updateRound M go act none).exec r = (sendOut a).exec r' := by
    intro go
    unfold updateRound
    simp only [exec_bind, exec_attempt, h, andThen_ok, exec_modify, exec_get]
    rw [if_neg]
    · rfl
    · intro hi
      have hnone : r'.wft = none := (isIdle_iff.mp hi).2.1
      rw [hnone] at hw
      cases hw
  show (updateOk M r.taskBuffer.intoBufferOrder.length act none).exec r = _
  cases r.taskBuffer.intoBufferOrder.length with
  | zero | succ => exact hround _

theorem exec_sendOut_some (act : ActivationOrAuto) :
    (sendOut (some act)).exec r = (.ok (some act), insertOutstandingActivation act r) := rfl

theorem exec_checkMoreActivations_autocompletes (hb : r.amBroken = true) (hw : r.wft.isSome = true)
    (ha : r.activation = none) (h : r.autocompletes M = true) : ∃ w, (checkMoreActivations M).exec r =
      (.ok (some .autocomplete), insertOutstandingActivation .autocomplete { r with waitingOnLa := w }) := by
  obtain ⟨w, hc⟩ := checkMoreActivations_autocompletes hb hw ha h
  refine ⟨w, ?_⟩
  have hout : (outgoingAct M (some .autocomplete)).exec { r with waitingOnLa := w } =
      (.ok (some .autocomplete), { r with waitingOnLa := w }) := by
    unfold outgoingAct checkedAct
    rw [exec_bind, exec_get_bind, if_neg (by simp)]
    rfl
  unfold checkMoreActivations settle
  rw [exec_attempt_bind, hc]
  exact update_of_wft hout hw

section

variable (hq : ∀ m, (M.sinkReqs [.cancelAllInRun] m).1 = [])
include hq

theorem sinkLaRequests_cancelAllInRun : (sinkLaRequests M [.cancelAllInRun]).exec r =
    (.ok (), { r with mgr := (M.sinkReqs [.cancelAllInRun] r.mgr).2 }) := by
  have hask : (askMgr (M.sinkReqs [.cancelAllInRun])).exec r =
      (.ok [], { r with mgr := (M.sinkReqs [.cancelAllInRun] r.mgr).2 }) := by
    rw [← hq r.mgr]
    rfl
  unfold sinkLaRequests
  rw [exec_bind, hask]
  rfl

theorem exec_checkMoreActivations_evicts (hb : r.amBroken = true) (hw : r.wft.isSome = true) (ha : r.activation = none)
    (h : r.autocompletes M = false) (he : r.tryingToEvict.isSome = true) : ∃ act, (checkMoreActivations M).exec r =
      (.ok act, { r with
        waitingOnLa := none
        mgr := (M.sinkReqs [.cancelAllInRun] r.mgr).2
        activation := if M.hasUndeliveredCancels (M.sinkReqs [.cancelAllInRun] r.mgr).2 then none
                      else some .eviction }) := by
  obtain ⟨info, he⟩ := Option.isSome_iff_exists.mp he
  have hc := checkMoreActivations_evicts hb h
  have hchecked : (checkedAct M none).exec r = (.ok none, r) := by
    unfold checkedAct
    rw [exec_get_bind]
    split
    · exact hc
    · rfl
  have hout : (outgoingAct M none).exec r = (evictionActivation M).exec r := by
    unfold outgoingAct
    rw [exec_bind, hchecked]
    rfl
  have hev : ∃ n, (evictionActivation M).exec r =
      (.ok (if M.hasUndeliveredCancels (M.sinkReqs [.cancelAllInRun] r.mgr).2 then none
        else some (.langActivation { historyLength := n, jobs := [.removeFromCache info.reason] })),
        { r with waitingOnLa := none, mgr := (M.sinkReqs [.cancelAllInRun] r.mgr).2 }) := by
    unfold evictionActivation
    rw [exec_get_bind]
    simp only [he, ha, hb, Option.isNone_none, Bool.true_or, Bool.and_true, if_true]
    rw [exec_modify_bind, exec_bind, sinkLaRequests_cancelAllInRun hq, andThen_ok, exec_bind, exec_get,
      andThen_ok]
    cases M.hasUndeliveredCancels (M.sinkReqs [.cancelAllInRun] r.mgr).2 with
    | true | false => simp [he, ha, hb]
  obtain ⟨n, hev⟩ := hev
  unfold checkMoreActivations settle
  rw [exec_attempt_bind, hc]
  have hupdate := update_of_wft (hout.trans hev) hw
  cases hu : M.hasUndeliveredCancels (M.sinkReqs [.cancelAllInRun] r.mgr).2 with
  | true =>
    refine ⟨none, hupdate.trans ?_⟩
    simp [hu, sendOut, ha]
  | false =>
    refine ⟨some (.langActivation { historyLength := n, jobs := [.removeFromCache info.reason] }), hupdate.trans ?_⟩
    simp [hu, exec_sendOut_some, insertOutstandingActivation, ActivationOrAuto.outstanding,
      WorkflowActivation.isOnlyEviction, ha]

omit hq in
theorem dropQueries_legacy (reason : EvictionReason) :
    (r.dropQueries reason).pendingWorkIsLegacyQuery = r.pendingWorkIsLegacyQuery := by
  unfold dropQueries
  split
  · rfl
  · next h =>
    have hl : r.pendingWorkIsLegacyQuery = false := by
      simp only [Bool.or_eq_true, not_or, Bool.not_eq_true] at h
      exact h.2
    rw [hl]
    simp only [pendingWorkIsLegacyQuery, Bool.or_eq_false_iff] at hl ⊢
    refine ⟨hl.1, ?_⟩
    cases r.wft with
    | none | some => rfl

omit hq in
theorem dropQueries_eq (reason : EvictionReason) : ∃ q, Drained r.wft q ∧
    r.dropQueries reason = { r with wft := q } := by
  unfold dropQueries
  split
  · exact ⟨r.wft, .same _, rfl⟩
  · refine ⟨_, ?_, rfl⟩
    cases r.wft with
    | none => exact .same none
    | some t => exact .queries t

omit hq in
theorem Drained.isSome {s t : Option OutstandingTask} (h : Drained s t) : t.isSome = s.isSome := by
  cases h <;> rfl

/-- The eviction is asked for. -/
theorem markForEviction_marked (hb : r.amBroken = true) (hw : r.wft.isSome = true) (info : RequestEvictMsg) :
    ∃ a r', (markForEviction M info).exec r = (.ok a, r') ∧ Marked M r r' := by
  obtain ⟨q, hdrained, hdrop⟩ := dropQueries_eq info.reason
  have hlegacy := dropQueries_legacy (r := r) info.reason
  rw [hdrop] at hlegacy
  unfold markForEviction
  rw [exec_get_bind]
  split
  · next hcond =>
    rw [exec_modify_bind, exec_bind, hdrop]
    have hmark : ∀ act r', (checkMoreActivations M).exec { r with wft := q, tryingToEvict := some info } =
      (.ok act, r') →
        andThen (fun act => pure (EvictionRequestResult.evictionRequested act))
          ((checkMoreActivations M).exec { r with wft := q, tryingToEvict := some info }) =
            (.ok (.evictionRequested act), r') := by
      intro act r' h
      rw [h]
      rfl
    obtain ⟨hev, htry⟩ : r.activationIsEviction = false ∧ r.tryingToEvict.isNone = true := by simpa using hcond
    have hwq : q.isSome = true := hdrained.isSome.trans hw
    by_cases hbusy : r.activation.isSome = true
    · -- the eviction waits for the activation that is outstanding
      have hsome : r.activation.isNone = false := by simpa [Option.isSome_iff_ne_none] using hbusy
      have hat : r.evictsAtOnce M = false := by simp [evictsAtOnce, hev, hsome]
      exact ⟨_, _, hmark _ _ (exec_checkMoreActivations_busy hbusy), .inl rfl, hdrained, rfl, rfl, rfl, hlegacy,
        hev.trans hat.symm⟩
    · have ha : r.activation = none := by simpa using hbusy
      by_cases hauto : r.autocompletes M = true
      · obtain ⟨w, h⟩ := exec_checkMoreActivations_autocompletes
          (r := { r with wft := q, tryingToEvict := some info }) hb hwq ha hauto
        have hat : r.evictsAtOnce M = false := by simp [evictsAtOnce, hev, hauto]
        refine ⟨_, _, hmark _ _ h, .inl rfl, hdrained, rfl, rfl, rfl, ?_, hat.symm⟩
        rw [← hlegacy]
        simp [pendingWorkIsLegacyQuery, insertOutstandingActivation, ActivationOrAuto.outstanding, ha]
      · have hauto : r.autocompletes M = false := by simpa using hauto
        obtain ⟨act, h⟩ := exec_checkMoreActivations_evicts hq
          (r := { r with wft := q, tryingToEvict := some info }) hb hwq ha hauto rfl
        have hat : r.evictsAtOnce M = !M.hasUndeliveredCancels (M.sinkReqs [.cancelAllInRun] r.mgr).2 := by
          simp [evictsAtOnce, hev, htry, ha, hauto]
        refine ⟨_, _, hmark _ _ h, .inr rfl, hdrained, rfl, rfl, rfl, ?_, ?_⟩
        · rw [← hlegacy]
          simp only [pendingWorkIsLegacyQuery, ha]
          split <;> rfl
        · rw [hat]
          simp only [activationIsEviction]
          split
          · next hu => simp [hu]
          · next hu => simp [hu]
  · next hcond =>
    refine ⟨_, _, rfl, .inl rfl, .same _, rfl, rfl, rfl, rfl, ?_⟩
    show r.activationIsEviction = r.evictsAtOnce M
    cases hev : r.activationIsEviction with
    | true => simp [evictsAtOnce, hev]
    | false =>
      have htry : r.tryingToEvict.isNone = false := by
        simpa [hev, Option.isSome_iff_ne_none] using hcond
      simp [evictsAtOnce, hev, htry]

theorem evictFailed_marked (hb : r.amBroken = true) (hw : r.wft.isSome = true) (reason : EvictionReason) :
    ∃ a r', (evictFailed M reason false).exec r = (.ok a, r') ∧ Marked M r r' := by
  obtain ⟨a, r', h, hm⟩ := markForEviction_marked hq hb hw { reason }
  refine ⟨a.intoRunUpdateResp, r', ?_, hm⟩
  unfold evictFailed
  rw [if_neg (by simp), exec_bind, h]
  rfl

end

end

/-! ## Forced completions -/

section

variable {σ τ : Type} {B : Behaviour σ} {L : LocalActivities τ} {start : RunId → Nat → σ × τ}
  {r r' : ManagedRun (Managers σ τ)}

/-- Nondeterminism fails the workflow, the eviction does not go out first, and the machines refuse what accepts no
update. -/
def trapped (B : Behaviour σ) (L : LocalActivities τ) (start : RunId → Nat → σ × τ) (cfg : WorkerConfig)
    (r : ManagedRun (Managers σ τ)) : Bool :=
  r.wft.any (·.attempt ≤ 1) && cfg.shouldFailWorkflow r.runId && !r.pendingWorkIsLegacyQuery &&
    !r.evictsAtOnce (ops B L start) && r.mgr.wfm.readyToApplyNextWft && r.mgr.wfm.machines.updateOnlyTask

theorem Marked.wfm (h : Marked (ops B L start) r r') : r'.mgr.wfm = r.mgr.wfm := by
  rcases h.mgr with hm | hm
  · rw [hm]
  · rw [hm]
    rfl

theorem Marked.evictsAtOnce (h : Marked (ops B L start) r r') :
    r'.evictsAtOnce (ops B L start) = r'.activationIsEviction := by
  have hn : r'.tryingToEvict.isNone = false := by simpa [Option.isSome_iff_ne_none] using h.evict
  simp [ManagedRun.evictsAtOnce, hn]

theorem Drained.any_attempt {s t : Option OutstandingTask} (h : Drained s t) :
    t.any (·.attempt ≤ 1) = s.any (·.attempt ≤ 1) := by
  cases h <;> rfl

/-- Asking for the eviction does not help. -/
theorem Marked.trapped (h : Marked (ops B L start) r r') :
    r'.trapped B L start cfg = r.trapped B L start cfg := by
  unfold ManagedRun.trapped
  rw [h.wft.any_attempt, h.runId, h.legacy, h.evictsAtOnce, h.eviction, h.wfm]

theorem exec_onMgr_applyCompletion (commands : List WFCommand) (page : Option HistoryUpdate) (broken : Bool) :
    (onMgr ((ops B L start).applyCompletion commands page broken)).exec r =
      (((WorkflowManager.applyCompletion B commands page broken).exec r.mgr.wfm).1,
        { r with mgr := { r.mgr with
          wfm := ((WorkflowManager.applyCompletion B commands page broken).exec r.mgr.wfm).2 } }) := rfl

/-- The machines refuse the commands again. -/
theorem applyCommands_refused (h : r.mgr.wfm.machines.updateOnlyTask = true) {commands : List WFCommand}
    (hc : WFCommand.refused commands = true) (page : Option HistoryUpdate) :
    (applyCommands (ops B L start) commands page).exec r =
      (.error (.nondeterminism .updateOnlyCommands), r) := by
  have hmgr : (onMgr ((ops B L start).applyCompletion commands page r.amBroken)).exec r =
      (.error (.nondeterminism .updateOnlyCommands), r) := by
    rw [exec_onMgr_applyCompletion, WorkflowManager.applyCompletion_refused h hc]
  unfold applyCommands
  rw [exec_get_bind, exec_bind, hmgr, andThen_error]

section

variable (hL : ∀ t, (L.sinkReqs [.cancelAllInRun] t).1 = [])
include hL

/-- When the machines do not refuse the command, nondeterminism uses something up. -/
theorem applyCommands_forced (hb : r.amBroken = true) (ho : r.mgr.wfm.machines.updateOnlyTask = false)
    {cause : NondeterminismCause}
    (h : (applyCommands (ops B L start) [.failWorkflow] none).exec r = (.error (.nondeterminism cause), r')) :
    r'.mgr.wfm.machines.updateOnlyTask = false ∧ r'.mgr.wfm.pending < r.mgr.wfm.pending := by
  have hforced := WorkflowManager.applyCompletion_forced (B := B) ho
  unfold applyCommands at h
  rw [exec_get_bind, hb, exec_bind, exec_onMgr_applyCompletion] at h
  generalize (WorkflowManager.applyCompletion B [.failWorkflow] none true).exec r.mgr.wfm = x at h hforced
  obtain ⟨e | _, w⟩ := x
  · cases h
    exact hforced
  · -- a workflow that ends asks the local activities only to be cancelled, and waits for none of them
    have ht : w.machines.amTerminating = true := hforced
    have hdrain : (askMgr (ops B L start).drainQueuedLocalActivities).exec
        { r with mgr := { r.mgr with wfm := w } } =
        ((.ok [.cancelAllInRun], { r with mgr := { r.mgr with wfm := w } }) :
          Except WFMachinesError (List LocalActRequest) × ManagedRun (Managers σ τ)) := by
      have hd : w.machines.drainQueuedLocalActivities B = ([.cancelAllInRun], w.machines) := by
        simp [WorkflowMachines.drainQueuedLocalActivities, ht]
      simp [askMgr, onMgr, ops, onMachines, hd]
    rw [andThen_ok, exec_bind, hdrain, andThen_ok, exec_bind, sinkLaRequests_cancelAllInRun fun m => hL m.las,
      andThen_ok, exec_get_bind, if_pos] at h
    · cases h
    · show WorkflowMachines.outstandingLocalActivityCount B w.machines = 0
      simp [WorkflowMachines.outstandingLocalActivityCount, ht]

/-- A trapped run fails for ever. -/
theorem not_returns_of_trapped (chan : RespChan) : ∀ (fuel : Nat) (reason : EvictionReason) (auto : Bool)
    (r : ManagedRun (Managers σ τ)), r.amBroken = true → r.trapped B L start cfg = true →
    ¬ Returns (failedCompletion (ops B L start) cfg fuel .nonDeterministicError reason auto (some chan)) r
  | 0, _, _, r, _, _ => not_returns_throw _ r
  | fuel + 1, reason, auto, r, hb, ht => by
    intro h
    have htr := ht
    simp only [trapped, Bool.and_eq_true, Bool.not_eq_true'] at ht
    obtain ⟨⟨⟨⟨⟨hattempt, hcfg⟩, hlegacy⟩, hev⟩, hready⟩, honly⟩ := ht
    obtain ⟨wft, hw, hattempt⟩ := (Option.any_eq_true ..).mp hattempt
    obtain ⟨act, r₁, he, hm⟩ := evictFailed_marked (M := ops B L start) (fun m => hL m.las) hb
      (by simp [hw]) reason
    have hnoReport : r.isNoReportQueryFail reason auto = false := by simp [isNoReportQueryFail, hlegacy]
    have hfails : r₁.failsWorkflow cfg wft.attempt .nonDeterministicError = true := by
      simpa [failsWorkflow, hm.legacy, hlegacy, hm.runId, hcfg] using hattempt
    unfold failedCompletion failTask at h
    rw [returns_get_bind] at h
    simp only [hw] at h
    rw [returns_get_bind, hnoReport, returns_bind he, returns_get_bind, if_pos hfails] at h
    obtain ⟨a, s, h⟩ := h
    obtain ⟨a', s', h, -⟩ := exec_bind_ok h
    obtain ⟨wft₁, hw₁⟩ := Option.isSome_iff_exists.mp (hm.wft.isSome.trans (by simp [hw]))
    have honly₁ : r₁.mgr.wfm.machines.updateOnlyTask = true := by rw [hm.wfm]; exact honly
    have hready₁ : r₁.mgr.wfm.readyToApplyNextWft = true := by rw [hm.wfm]; exact hready
    have hrefused : WFCommand.refused (activationCompletion (ops B L start) r₁ wft₁ [.failWorkflow] (some chan)
        true).commands = true := by
      rw [activationCompletion_failWorkflow]
      rfl
    have hagain := of_completion_returns hw₁ (hm.eviction.trans hev) hready₁ (by simp)
      (applyCommands_refused honly₁ hrefused none) ⟨a', s', h⟩
    unfold updateErr at hagain
    rw [returns_modify_bind] at hagain
    refine not_returns_of_trapped chan fuel _ true { r₁ with amBroken := true } rfl ?_ hagain
    exact hm.trapped.trans htr

theorem forcing_returns {w : Nat ×ₗ Nat} (chan : Option RespChan)
    (ih : ∀ s : ManagedRun (Managers σ τ), s.mgr.wfm.pending < w → s.amBroken = true → s.trapped B L start cfg = false →
      ∀ cause reason auto, ∃ n, ∀ fuel ≥ n,
        Returns (failedCompletion (ops B L start) cfg fuel cause reason auto chan) s)
    (hw : r.mgr.wfm.pending = w) (hb : r.amBroken = true) (ho : r.mgr.wfm.machines.updateOnlyTask = false) :
    ∃ n, ∀ fuel ≥ n, ∀ e r', (applyCommands (ops B L start) [.failWorkflow] none).exec r = (.error e, r') →
      Returns (updateErr (failedCompletion (ops B L start) cfg fuel) e chan) r' := by
  generalize hx : (applyCommands (ops B L start) [.failWorkflow] none).exec r = x
  obtain ⟨e | las, s⟩ := x
  · cases e with
    | fatal cause =>
      refine ⟨1, fun fuel hfuel e r' h => ?_⟩
      cases h
      obtain ⟨fuel, rfl⟩ := Nat.exists_eq_add_of_le' hfuel
      exact updateErr_fatal_returns cause fuel chan
    | nondeterminism cause =>
      obtain ⟨hs, hlt⟩ := applyCommands_forced hL hb ho hx
      cases chan with
      | none =>
        refine ⟨0, fun fuel _ e r' h => ?_⟩
        exact autoFail_returns _
      | some chan =>
        have hfree : ({ s with amBroken := true } : ManagedRun (Managers σ τ)).trapped B L start cfg = false := by
          simp [trapped, hs]
        obtain ⟨n, hn⟩ := ih { s with amBroken := true }
          (hw ▸ hlt) rfl hfree .nonDeterministicError .nondeterminism true
        refine ⟨n, fun fuel hfuel e r' h => ?_⟩
        cases h
        exact hn fuel hfuel
  · refine ⟨0, fun fuel _ e r' h => ?_⟩
    cases h

theorem returns_of_not_trapped (chan : Option RespChan) (w : Nat ×ₗ Nat) : ∀ r : ManagedRun (Managers σ τ),
    r.mgr.wfm.pending = w → r.amBroken = true → r.trapped B L start cfg = false → ∀ cause reason auto,
      ∃ n, ∀ fuel ≥ n, Returns (failedCompletion (ops B L start) cfg fuel cause reason auto chan) r := by
  induction w using WellFoundedLT.induction with
  | ind w ih =>
    intro r hpending hb hfree cause reason auto
    cases hw : r.wft with
    | none =>
      refine ⟨1, fun fuel hfuel => ?_⟩
      obtain ⟨fuel, rfl⟩ := Nat.exists_eq_add_of_le' hfuel
      exact failedCompletion_without_task hw cause reason auto chan fuel
    | some wft =>
      by_cases hno : r.isNoReportQueryFail reason auto = true
      · -- a query in the old form that is left to a later attempt
        refine ⟨1, fun fuel hfuel => ?_⟩
        obtain ⟨fuel, rfl⟩ := Nat.exists_eq_add_of_le' hfuel
        have he : (evictFailed (ops B L start) reason (r.isNoReportQueryFail reason auto)).exec r =
            (.ok none, r) := by
          rw [hno]
          rfl
        refine failedCompletion_returns hw he fun hf => ?_
        have hlegacy : r.pendingWorkIsLegacyQuery = true := by
          simp only [isNoReportQueryFail, Bool.and_eq_true] at hno
          exact hno.1.1
        simp [failsWorkflow, hlegacy] at hf
      · have hno : r.isNoReportQueryFail reason auto = false := by simpa using hno
        obtain ⟨act, r₁, he, hm⟩ := evictFailed_marked (M := ops B L start) (fun m => hL m.las) hb
          (by simp [hw]) reason
        obtain ⟨wft₁, hw₁⟩ := Option.isSome_iff_exists.mp (hm.wft.isSome.trans (by simp [hw]))
        have hfatal : ∀ fuel, Returns (updateErr (failedCompletion (ops B L start) cfg (fuel + 1))
            (.fatal .paginatorAbsent) chan) r₁ := fun fuel => updateErr_fatal_returns _ fuel chan
        rw [← hno] at he
        by_cases hforced : r₁.failsWorkflow cfg wft.attempt cause = true ∧ r₁.activationIsEviction = false ∧
            r₁.mgr.wfm.readyToApplyNextWft = true
        · obtain ⟨hf, hev, hready⟩ := hforced
          have honly : r₁.mgr.wfm.machines.updateOnlyTask = false := by
            by_contra honly
            have honly : r₁.mgr.wfm.machines.updateOnlyTask = true := by simpa using honly
            have htrapped : r₁.trapped B L start cfg = true := by
              simp only [failsWorkflow, Bool.and_eq_true, Bool.not_eq_true', decide_eq_true_eq] at hf
              simp [trapped, hm.wft.any_attempt, hw, hf.1.1.2, hf.2, hf.1.1.1, hm.evictsAtOnce, hev, hready, honly]
            rw [hm.trapped, hfree] at htrapped
            cases htrapped
          obtain ⟨n, hn⟩ := forcing_returns hL chan (fun s hs => ih _ hs s rfl) (hm.wfm ▸ hpending)
            (hm.amBroken.trans hb) honly
          refine ⟨n + 2, fun fuel hfuel => ?_⟩
          obtain ⟨k, rfl⟩ := Nat.exists_eq_add_of_le' hfuel
          have hfail := hn (k + n + 1) (by omega)
          exact failedCompletion_returns hw he fun _ => forced_returns hw₁ (hfatal (k + n)) fun _ _ => hfail
        · refine ⟨2, fun fuel hfuel => ?_⟩
          obtain ⟨k, rfl⟩ := Nat.exists_eq_add_of_le' hfuel
          exact failedCompletion_returns hw he fun hf =>
            forced_returns hw₁ (hfatal k) fun hev hready => absurd ⟨hf, hev, hready⟩ hforced

/-- **Failing a completion returns, unless the run is trapped.** -/
theorem updateErr_returns_iff (e : WFMachinesError) (chan : Option RespChan) (r : ManagedRun (Managers σ τ)) :
    (∃ n, ∀ fuel ≥ n, Returns (updateErr (failedCompletion (ops B L start) cfg fuel) e chan) r) ↔
      ¬ (e.isNondeterminism = true ∧ chan.isSome = true ∧ r.trapped B L start cfg = true) := by
  constructor
  · rintro ⟨n, hn⟩ ⟨he, hchan, ht⟩
    obtain ⟨chan, rfl⟩ := Option.isSome_iff_exists.mp hchan
    have h := hn n le_rfl
    unfold updateErr at h
    rw [if_pos he] at h
    exact not_returns_of_trapped hL chan n e.evictReason true { r with amBroken := true } rfl ht h
  · intro h
    cases chan with
    | none => exact ⟨0, fun fuel _ => autoFail_returns e⟩
    | some chan =>
      cases e with
      | fatal cause =>
        refine ⟨1, fun fuel hfuel => ?_⟩
        obtain ⟨k, rfl⟩ := Nat.exists_eq_add_of_le' hfuel
        exact updateErr_fatal_returns cause k (some chan)
      | nondeterminism cause =>
        have hfree : r.trapped B L start cfg = false := by simpa [WFMachinesError.isNondeterminism] using h
        exact returns_of_not_trapped hL (some chan) _ { r with amBroken := true } rfl rfl hfree .nonDeterministicError
          .nondeterminism true

/-- A trapped run does not get out of a refused completion. -/
theorem refused_not_returns {wft : OutstandingTask} (hw : r.wft = some wft) (ht : r.trapped B L start cfg = true)
    {commands : List WFCommand} {chan : RespChan}
    (hc : WFCommand.refused (activationCompletion (ops B L start) r wft commands (some chan) false).commands =
      true) (fuel : Nat) :
    ¬ Returns (successfulCompletion (ops B L start) cfg fuel commands (some chan)) r := by
  intro h
  have htr := ht
  simp only [trapped, Bool.and_eq_true, Bool.not_eq_true'] at ht
  obtain ⟨⟨⟨⟨-, -⟩, hev⟩, hready⟩, honly⟩ := ht
  have hev : r.activationIsEviction = false := (Bool.or_eq_false_iff.mp hev).1
  have hne : commands ≠ [.queryResponse .legacy] := by
    rintro rfl
    rcases activationCompletion_commands (r := r) wft [.queryResponse .legacy] (some chan)
      false with h | h
    · rw [h] at hc
      cases hc
    · rw [h] at hc
      cases hc
  have hfail := of_completion_returns hw hev hready hne (applyCommands_refused honly hc none) h
  unfold updateErr at hfail
  exact not_returns_of_trapped hL chan fuel _ true { r with amBroken := true } rfl htr hfail

end

end

/-! ## With the manager of local activities -/

section

variable {σ : Type}

theorem localActivities_cancelAllInRun (D : Scheduling) (h : Host) :
    ((Host.localActivities D).sinkReqs [.cancelAllInRun] h).1 = [] := by
  show ((h.lam.enqueue [.cancelAllInRun h.runId]).1.map fun res => (⟨res.seq⟩ : LocalResolution)) ++ [] = []
  unfold LocalActivityManager.enqueue
  split <;> rfl

/-- **Failing a completion ends, unless the run is trapped**, for any error in any state. -/
theorem failing_returns_iff (B : Behaviour σ) (D : Scheduling) (start : RunId → Nat → σ × Host) (cfg : WorkerConfig)
    (r : ManagedRun (Managers σ Host)) :
    (∀ e chan, (∃ n, ∀ fuel ≥ n,
        Returns (updateErr (failedCompletion (ops B (Host.localActivities D) start) cfg fuel) e chan) r) ↔
      ¬ (e.isNondeterminism = true ∧ chan.isSome = true ∧ r.trapped B (Host.localActivities D) start cfg = true)) ∧
    ∀ completion page, (∃ n, ∀ fuel ≥ n,
        Returns (settleCompletion (ops B (Host.localActivities D) start)
          (updateErr (failedCompletion (ops B (Host.localActivities D) start) cfg fuel)) completion page) r) ↔
      ∀ e r', (_processCompletion (ops B (Host.localActivities D) start) completion page).exec r =
          (.error e, r') →
        ¬ (e.isNondeterminism = true ∧ completion.respChan.isSome = true ∧
          r'.trapped B (Host.localActivities D) start cfg = true) := by
  have hiff : ∀ e chan (s : ManagedRun (Managers σ Host)), (∃ n, ∀ fuel ≥ n,
        Returns (updateErr (failedCompletion (ops B (Host.localActivities D) start) cfg fuel) e chan) s) ↔
      ¬ (e.isNondeterminism = true ∧ chan.isSome = true ∧ s.trapped B (Host.localActivities D) start cfg = true) :=
    updateErr_returns_iff (localActivities_cancelAllInRun D)
  refine ⟨fun e chan => hiff e chan r, fun completion page => ?_⟩
  constructor
  · rintro ⟨n, hn⟩ e r' hx
    exact (hiff e completion.respChan r').mp ⟨n, fun fuel hfuel =>
      (settleCompletion_returns_iff completion page).mp (hn fuel hfuel) e r' hx⟩
  · intro h
    generalize hx : (_processCompletion (ops B (Host.localActivities D) start) completion page).exec r = x
    obtain ⟨e | f, s⟩ := x
    · obtain ⟨n, hn⟩ := (hiff e completion.respChan s).mpr (h e s hx)
      refine ⟨n, fun fuel hfuel => (settleCompletion_returns_iff completion page).mpr fun e' s' hx' => ?_⟩
      rw [hx] at hx'
      cases hx'
      exact hn fuel hfuel
    · refine ⟨0, fun fuel _ => (settleCompletion_returns_iff completion page).mpr fun e' s' hx' => ?_⟩
      rw [hx] at hx'
      cases hx'

end

/-- An update is sent with the second task. -/
def updateMachines : Behaviour Unit :=
  { Behaviour.signals with
    processMessages := fun s e _ => { inner := s, jobs := if e.eventId = 6 then [.doUpdate true] else [] } }

def updateTask (runId : RunId) (taskToken : TaskToken) : PermittedWFT where
  work :=
    { taskToken, attempt := 1, runId, legacyQuery := false, queryRequests := []
      update :=
        { events := [⟨4, .workflowTaskCompleted, some (.workflowTaskCompleted 2)⟩,
            ⟨5, .workflowTaskScheduled, some .other⟩, ⟨6, .workflowTaskStarted, some (.workflowTaskStarted 5)⟩]
          previousWftStartedId := 3, wftStartedId := 6, hasLastWft := true, wftCount := 1 } }
  paginator := { runId, previousWftStartedId := 3, wftStartedEventId := 6, nextPageToken := .done }

def failingConfig : WorkerConfig := { shouldFailWorkflow := fun _ => true }

abbrev updateOps : ManagerOps (Managers Unit Host) :=
  ops updateMachines (Host.localActivities Handshake.sampleScheduling) fun runId _ => ((), { runId })

/-- Lang answers the update without accepting it. The completion never returns. -/
theorem update_refused_endless :
    ∃ r, Reach (Step updateOps failingConfig) (fun r i => r.inTurn i ∧ r.hasActivation i) (IsBlank updateOps) r ∧
      ∀ fuel, ¬ Returns (successfulCompletion updateOps failingConfig fuel [.other 1] (some ⟨1, true⟩)) r := by
  obtain ⟨r, hreach, hw, ht⟩ : ∃ r, Reach (Step updateOps failingConfig) (fun r i => r.inTurn i ∧ r.hasActivation i)
      (IsBlank updateOps) r ∧ r.wft.isSome ∧ r.trapped updateMachines (Host.localActivities Handshake.sampleScheduling)
        (fun runId _ => ((), { runId })) failingConfig :=
    Reach.exists_of_trace (f := step? updateOps failingConfig 1)
      [.newWft (.ofStart 0 7 []), .success [] (some ⟨0, true⟩), .postActivation (.reported none) false,
        .newWft (updateTask 0 8)] (by decide +kernel) (fun _ _ _ => step_of_step?) (.start ⟨0, 0, rfl⟩)
  obtain ⟨wft, hw⟩ := Option.isSome_iff_exists.mp hw
  refine ⟨r, hreach, fun fuel => refused_not_returns (localActivities_cancelAllInRun _) hw ht ?_ fuel⟩
  rcases activationCompletion_commands (r := r) wft [.other 1] (some ⟨1, true⟩) false with h | h
  · rw [h]
    rfl
  · rw [h]
    rfl

end ManagedRun

end SdkCore
