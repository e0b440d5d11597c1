import SdkCore.Machines.Requests
import SdkCore.Run.Inputs

/-!
# When a run is evicted

The activation that evicts a run goes out when no cancellation of a local activity waits. `Upholds M I` says that the
managers keep `I`. Every update keeps a run `Guarded` (`update_guards`).
-/

namespace SdkCore

open Op

/-- The activation evicts the run. -/
def ActivationOrAuto.evicts : ActivationOrAuto → Bool
  | langActivation act | readyForQueries act => act.evicts
  | autocomplete | autoFail _ => false

theorem ActivationOrAuto.outstanding_ne_eviction {act : ActivationOrAuto} (h : act.evicts = false) :
    act.outstanding ≠ .eviction := by
  have hne : ∀ a : WorkflowActivation, a.evicts = false →
      (if a.isOnlyEviction then OutstandingActivation.eviction
        else if a.isLegacyQuery then .legacyQuery else .normal) ≠ .eviction := by
    intro a ha
    rw [WorkflowActivation.isOnlyEviction_eq_false ha, if_neg (by simp)]
    split <;> simp
  cases act with
  | langActivation a | readyForQueries a => exact hne a h
  | autocomplete | autoFail => simp [outstanding]

theorem putQueriesInAct_evicts (act : WorkflowActivation) (wft : OutstandingTask) :
    (putQueriesInAct act wft).1.evicts = act.evicts := by
  unfold putQueriesInAct
  split
  · rfl
  · simp [WorkflowActivation.evicts, List.any_append, List.any_map, Function.comp_def, Job.isRemoveFromCache]

/-- The managers keep `I`, make no eviction, and may be told to invalidate the run when no cancellation waits. -/
structure ManagerOps.Upholds {μ : Type} (M : ManagerOps μ) (I : μ → Prop) : Prop where
  newWorkFromServer : ∀ update messages legacyQuery m, I m →
    I (M.newWorkFromServer update messages legacyQuery m).2 ∧
      ∀ act, (M.newWorkFromServer update messages legacyQuery m).1 = .ok act → act.evicts = false
  getNextActivation : ∀ m, I m →
    I (M.getNextActivation m).2 ∧ ∀ act, (M.getNextActivation m).1 = .ok act → act.evicts = false
  getWfActivation : ∀ m, I m → I (M.getWfActivation m).2 ∧ (M.getWfActivation m).1.evicts = false
  applyCompletion : ∀ commands page amBroken m, I m → I (M.applyCompletion commands page amBroken m).2
  notifyOfLocalResult : ∀ res m, I m → I (M.notifyOfLocalResult res m).2
  drain : ∀ m, I m → I (M.drainQueuedLocalActivities m).2 ∧ .invalidateRun ∉ (M.drainQueuedLocalActivities m).1
  sink : ∀ reqs m, I m → .invalidateRun ∉ reqs → I (M.sinkReqs reqs m).2
  invalidate : ∀ m, I m → M.hasUndeliveredCancels m = false → I (M.sinkReqs [.invalidateRun] m).2
  indicate : ∀ m, M.hasUndeliveredCancels (M.sinkReqs [.indicateWorkflowTaskCompleted] m).2 = M.hasUndeliveredCancels m
  reported : ∀ m, I m → I (M.wftCompletionReported m) ∧
    M.hasUndeliveredCancels (M.wftCompletionReported m) = M.hasUndeliveredCancels m
  reset : ∀ id m, I m → I (M.resetLastStartedId id m) ∧
    M.hasUndeliveredCancels (M.resetLastStartedId id m) = M.hasUndeliveredCancels m

namespace ManagedRun

variable {μ : Type} {M : ManagerOps μ} {cfg : WorkerConfig} {I : μ → Prop}

/-! ## The managers of a run -/

/-- The managers keep `I`. -/
def Managed (I : μ → Prop) (r : ManagedRun μ) : Prop := I r.mgr

/-- No activation that evicts is made. -/
abbrev Offers (I : μ → Prop) (x : Except WFMachinesError (Option ActivationOrAuto) × ManagedRun μ) : Prop :=
  Post (fun act r' => Managed I r' ∧ ∀ a, act = some a → a.evicts = false) (fun _ r' => Managed I r') x

theorem modify_managed {ε : Type} {f : ManagedRun μ → ManagedRun μ} (h : ∀ r, (f r).mgr = r.mgr) :
    Keeps (Managed I) (modify f : Op (ManagedRun μ) ε Unit) :=
  .modify fun r hr => by rwa [Managed, h r]

section

variable (hM : M.Upholds I)
include hM

theorem movesRun_managed : MovesRun M (.invalidateRun ∉ ·) (Implies (Managed I)) where
  waitingOnLa _ _ hr := hr
  applyCompletion r commands page amBroken := hM.applyCompletion commands page amBroken r.mgr
  notifyOfLocalResult r res := hM.notifyOfLocalResult res r.mgr
  drain r _ h hr := h (hM.drain r.mgr hr).2 (hM.drain r.mgr hr).1
  sink r reqs h hr := hM.sink reqs r.mgr hr h
  heartbeat := by simp
  reported r hr := (hM.reported r.mgr hr).1

variable {r : ManagedRun μ}

/-- The machines offer no eviction. -/
theorem checkMoreActivations_offers (hr : Managed I r) : Offers I ((_checkMoreActivations M).exec r) := by
  unfold _checkMoreActivations
  rw [exec_get_bind]
  split
  · exact ⟨hr, nofun⟩
  split
  · have h := hM.getNextActivation r.mgr hr
    simp only [exec_bind, onMgr, exec_zoom, exec_ofFn]
    generalize M.getNextActivation r.mgr = x at h
    obtain ⟨e | act, m⟩ := x
    · exact h.1
    · exact ⟨h.1, fun a ha => by cases ha; exact h.2 act rfl⟩
  split
  · exact ⟨hr, fun a ha => by cases ha; rfl⟩
  split
  · have h := hM.getWfActivation r.mgr hr
    exact ⟨h.1, fun a ha => by cases ha; exact h.2⟩
  split
  · exact ⟨hr, fun a ha => by cases ha; rfl⟩
  · exact ⟨hr, nofun⟩

theorem checkedAct_offers {act : Option ActivationOrAuto} (hr : Managed I r)
    (hact : ∀ a, act = some a → a.evicts = false) : Offers I ((checkedAct M act).exec r) := by
  unfold checkedAct
  rw [exec_get_bind]
  split
  · exact checkMoreActivations_offers hM hr
  · exact ⟨hr, hact⟩

/-- An activation that evicts goes out only if no cancellation waits. -/
abbrev Evicts (M : ManagerOps μ) (I : μ → Prop)
    (x : Except WFMachinesError (Option ActivationOrAuto) × ManagedRun μ) : Prop :=
  Post (fun act r' => Managed I r' ∧
      ∀ a, act = some a → a.outstanding = .eviction → M.hasUndeliveredCancels r'.mgr = false)
    (fun _ r' => Managed I r') x

/-- The eviction goes out last. -/
theorem evictionActivation_evicts (hr : Managed I r) : Evicts M I ((evictionActivation M).exec r) := by
  unfold evictionActivation
  rw [exec_get_bind]
  split
  · exact ⟨hr, nofun⟩
  split
  · refine (Keeps.holds (modify_managed (by intro; rfl)) hr).bind fun _ r hr => ?_
    refine (Keeps.holds (sinkLaRequests_moves (movesRun_managed hM) (by simp)) hr).bind fun _ r hr => ?_
    rw [exec_get_bind]
    split
    · exact ⟨hr, nofun⟩
    · next h => exact ⟨hr, fun _ _ _ => by simpa using h⟩
  · exact ⟨hr, nofun⟩

theorem outgoingAct_evicts {act : Option ActivationOrAuto} (hr : Managed I r)
    (hact : ∀ a, act = some a → a.evicts = false) : Evicts M I ((outgoingAct M act).exec r) := by
  refine (checkedAct_offers hM hr hact).bind fun act r ⟨hr, hact⟩ => ?_
  unfold finalAct
  split
  · exact evictionActivation_evicts hM hr
  · unfold dispatchQueries
    rw [exec_get_bind]
    split
    · exact ⟨hr, nofun⟩
    · refine ⟨hr, fun a ha he => absurd he ?_⟩
      cases ha
      exact ActivationOrAuto.outstanding_ne_eviction ((putQueriesInAct_evicts _ _).trans (hact _ rfl))
  · refine ⟨hr, fun a ha he => absurd he ?_⟩
    cases ha
    exact ActivationOrAuto.outstanding_ne_eviction (hact _ rfl)

theorem localResolution_offers (res : LocalResolution) (hr : Managed I r) :
    Offers I ((_localResolution M res).exec r) := by
  unfold _localResolution
  rw [exec_get_bind]
  split
  · exact checkMoreActivations_offers hM hr
  · refine (Keeps.holds (onMgr_moves ((movesRun_managed hM).notifyOfLocalResult · res)) hr).bind fun _ r hr => ?_
    rw [exec_get_bind]
    split
    · exact checkMoreActivations_offers hM hr
    · exact ⟨hr, nofun⟩

omit hM in
theorem heartbeatTimeout_offers (hr : Managed I r) : Offers I (_heartbeatTimeout.exec r) := by
  unfold _heartbeatTimeout
  rw [exec_get_bind]
  split
  · split
    · exact ⟨hr, fun a ha => by cases ha; rfl⟩
    · exact ⟨hr, nofun⟩
  · exact ⟨hr, nofun⟩

theorem applyUpdate_offers (work : PreparedWFT) (hr : Managed I r) :
    Post (fun act r' => Managed I r' ∧ act.evicts = false) (fun _ r' => Managed I r')
      ((applyUpdate M work).exec r) := by
  unfold applyUpdate
  split
  · have h := hM.newWorkFromServer work.update work.messages work.legacyQuery r.mgr hr
    simp only [onMgr, exec_zoom, exec_ofFn]
    generalize M.newWorkFromServer work.update work.messages work.legacyQuery r.mgr = x at h
    obtain ⟨e | act, m⟩ := x
    · exact h.1
    · exact ⟨h.1, h.2 act rfl⟩
  · have h := hM.getNextActivation r.mgr hr
    simp only [exec_bind, onMgr, exec_zoom, exec_ofFn]
    generalize M.getNextActivation r.mgr = x at h
    obtain ⟨e | act, m⟩ := x
    · exact h.1
    · rw [andThen_ok]
      split
      · exact h.1
      · exact ⟨h.1, h.2 act rfl⟩

theorem incomingWft_offers (p : PermittedWFT) (hr : Managed I r) : Offers I ((_incomingWft M p).exec r) := by
  refine (Keeps.holds (modify_managed (by intro; rfl)) hr).bind fun _ r hr => ?_
  split
  · exact hr
  · refine (Keeps.holds (modify_managed (by intro; rfl)) hr).bind fun _ r hr => ?_
    rw [exec_get_bind]
    split
    · exact ⟨hr, fun a ha => by cases ha; rfl⟩
    · refine (applyUpdate_offers hM p.work hr).bind fun act r ⟨hr, hact⟩ => ?_
      split
      · exact ⟨hr, fun a ha => by cases ha; exact hact⟩
      · rw [exec_get_bind]
        split
        · exact (Keeps.holds (sinkHeartbeatTimeoutStart_moves (movesRun_managed hM)) hr).bind fun _ r hr => ⟨hr, nofun⟩
        · exact ⟨hr, fun a ha => by cases ha; rfl⟩

end

/-! ## The invariant -/

/-- No cancellation waits while the eviction is outstanding. -/
structure Guarded (M : ManagerOps μ) (I : μ → Prop) (r : ManagedRun μ) : Prop where
  mgr : Managed I r
  eviction : r.activation = some .eviction → M.hasUndeliveredCancels r.mgr = false

/-- A completion waits for a page. -/
def Awaits (r : ManagedRun μ) : Prop :=
  r.activation.isSome ∧ ∃ c, r.completionWaitingOnPageFetch = some c ∧ c.activationWasEviction = r.activationIsEviction

/-- An outstanding activation stays, and a completion that begins to wait is one of it. -/
structure Holds (r r' : ManagedRun μ) : Prop where
  activation : r'.activation = r.activation
  waiting : r'.completionWaitingOnPageFetch = r.completionWaitingOnPageFetch ∨
    r'.completionWaitingOnPageFetch = none ∨ Awaits r'

/-- A step keeps the run guarded. -/
def Guards (M : ManagerOps μ) (I : μ → Prop) (r r' : ManagedRun μ) : Prop :=
  Guarded M I r → Guarded M I r' ∧ (r.activation.isSome → Holds r r')

section

variable {r r' s : ManagedRun μ}

theorem Holds.refl (r : ManagedRun μ) : Holds r r := ⟨rfl, .inl rfl⟩

theorem Awaits.of_eq (h : Awaits r) (ha : r'.activation = r.activation)
    (hw : r'.completionWaitingOnPageFetch = r.completionWaitingOnPageFetch) : Awaits r' := by
  unfold Awaits activationIsEviction at *
  rwa [ha, hw]

theorem Holds.trans (h : Holds r s) (h' : Holds s r') : Holds r r' := by
  refine ⟨h'.activation.trans h.activation, ?_⟩
  rcases h'.waiting with hw | hw
  · rcases h.waiting with hs | hs | hs
    · exact .inl (hw.trans hs)
    · exact .inr (.inl (hw.trans hs))
    · exact .inr (.inr (hs.of_eq h'.activation hw))
  · exact .inr hw

theorem Holds.awaits (h : Holds r r') (hr : Awaits r) (hw : r'.completionWaitingOnPageFetch ≠ none) : Awaits r' := by
  rcases h.waiting with h' | h' | h'
  · exact hr.of_eq h.activation h'
  · exact absurd h' hw
  · exact h'

theorem Guards.refl (r : ManagedRun μ) : Guards M I r r := fun hr => ⟨hr, fun _ => .refl r⟩

theorem Guards.trans (h : Guards M I r s) (h' : Guards M I s r') : Guards M I r r' := by
  intro hr
  obtain ⟨hs, ha⟩ := h hr
  obtain ⟨ht, ha'⟩ := h' hs
  refine ⟨ht, fun hn => (ha hn).trans (ha' ?_)⟩
  rwa [(ha hn).activation]

theorem Guards.of_mgr (hm : Managed I r → Managed I r') (ha : r'.activation = r.activation)
    (hw : r'.completionWaitingOnPageFetch = r.completionWaitingOnPageFetch)
    (hc : r.activation = some .eviction → M.hasUndeliveredCancels r'.mgr = M.hasUndeliveredCancels r.mgr) :
    Guards M I r r' := by
  intro hr
  refine ⟨⟨hm hr.mgr, fun he => ?_⟩, fun _ => ⟨ha, .inl hw⟩⟩
  rw [ha] at he
  rw [hc he]
  exact hr.eviction he

theorem Guards.of_eq (hm : r'.mgr = r.mgr) (ha : r'.activation = r.activation)
    (hw : r'.completionWaitingOnPageFetch = r.completionWaitingOnPageFetch) : Guards M I r r' := by
  refine .of_mgr (fun h => ?_) ha hw fun _ => by rw [hm]
  rwa [Managed, hm]

theorem fulfill_guards (f : Option FulfillableActivationComplete) : Guards M I r (r.fulfill f) := by
  unfold fulfill send
  split
  · exact .refl r
  · split
    · exact .refl r
    · exact .of_eq rfl rfl rfl

theorem autoFail_guards (e : WFMachinesError) : Guards M I r ((autoFail e).exec r).2 := .of_eq rfl rfl rfl

/-- To send an activation keeps the run guarded. -/
theorem sendOut_guards {act : Option ActivationOrAuto}
    (hact : ∀ a, act = some a → r.activation = none ∧
      (a.outstanding = .eviction → M.hasUndeliveredCancels r.mgr = false)) : Guards M I r ((sendOut act).exec r).2 := by
  cases act with
  | none => exact .refl r
  | some a =>
    obtain ⟨ha, he⟩ := hact a rfl
    intro hr
    refine ⟨⟨hr.mgr, fun h => he (Option.some.inj h)⟩, fun hn => ?_⟩
    rw [ha] at hn
    cases hn

end

/-! ## Updates -/

section

variable (hM : M.Upholds I)
include hM

/-- A way to go on that keeps the run guarded. -/
def GoesOnGuarded (M : ManagerOps μ) (I : μ → Prop)
    (go : Option ActivationOrAuto → ROp μ (Option ActivationOrAuto)) : Prop :=
  ∀ act r, (∀ a, act = some a → a.evicts = false) → r.activation = none → Guards M I r ((go act).exec r).2

variable {r : ManagedRun μ}
  {go : Option ActivationOrAuto → ROp μ (Option ActivationOrAuto)} {act : Option ActivationOrAuto}

theorem takeBuffered_guards (hgo : GoesOnGuarded M I go) (ha : r.activation = none) :
    Guards M I r ((takeBuffered M go).exec r).2 := by
  intro hr
  unfold takeBuffered
  rw [exec_get_bind]
  split
  · exact Guards.refl r hr
  · next p rest hn =>
    rw [exec_modify_bind, exec_attempt_bind]
    have hoff := incomingWft_offers (r := { r with taskBuffer := rest }) hM p hr.mgr
    obtain ⟨q, pg, w, -, -, hs⟩ := incomingWft_spec p { r with taskBuffer := rest }
    generalize exec (_incomingWft M p) { r with taskBuffer := rest } = x at hs hoff
    obtain ⟨res, r'⟩ := x
    have ha' : r'.activation = r.activation := hs.settles.activation
    have hw : r'.completionWaitingOnPageFetch = r.completionWaitingOnPageFetch := hs.evolves.same.waiting
    have hstep : ∀ hm : Managed I r', Guards M I r r' := fun hm =>
      .of_mgr (fun _ => hm) ha' hw fun he => by rw [ha] at he; cases he
    cases res with
    | ok act => exact (hstep hoff.1).trans (hgo act r' hoff.2 (ha'.trans ha)) hr
    | error e => exact (hstep hoff).trans (autoFail_guards e) hr

/-- So does a round of an update. -/
theorem updateRound_guards (hgo : GoesOnGuarded M I go) (f : Option FulfillableActivationComplete)
    (hev : ∀ a, act = some a → a.evicts = false) (hact : act.isSome → r.activation = none) :
    Guards M I r ((updateRound M go act f).exec r).2 := by
  intro hr
  by_cases ha : r.activation = none
  · have hev := outgoingAct_evicts hM hr.mgr hev
    have hs := outgoingAct_settles (M := M) act r
    unfold updateRound
    rw [exec_attempt_bind]
    generalize (outgoingAct M act).exec r = x at hs hev
    obtain ⟨res, r'⟩ := x
    have hstep : ∀ hm : Managed I r', Guards M I r r' := fun hm =>
      .of_mgr (fun _ => hm) hs.activation hs.evolves.same.waiting fun he => by rw [ha] at he; cases he
    cases res with
    | error e => exact (hstep hev).trans (autoFail_guards e) hr
    | ok a =>
      simp only [exec_bind, exec_modify, andThen_ok, exec_get]
      refine (hstep hev.1).trans ((fulfill_guards f).trans ?_) hr
      split
      · next hi => exact takeBuffered_guards hM hgo (isIdle_iff.mp hi).2.2.1
      · refine sendOut_guards fun b hb => ⟨by rw [fulfill_activation, hs.activation, ha], fun he => ?_⟩
        have hmgr : (r'.fulfill f).mgr = r'.mgr := by
          unfold fulfill send
          split
          · rfl
          · split <;> rfl
        rw [hmgr]
        exact hev.2 b hb he
  · have hn : act = none := by
      cases act with
      | none => rfl
      | some a => exact absurd (hact rfl) ha
    have hsome := Option.isSome_iff_ne_none.mpr ha
    subst hn
    unfold updateRound
    simp only [exec_bind, exec_attempt, outgoingAct_busy hsome, andThen_ok, exec_modify, exec_get]
    rw [if_neg]
    · exact fulfill_guards f hr
    · intro hi
      have h := (isIdle_iff.mp hi).2.2.1
      rw [fulfill_activation] at h
      exact ha h

theorem updateOk_guards : ∀ (fuel : Nat) {act : Option ActivationOrAuto} (f : Option FulfillableActivationComplete)
    {r : ManagedRun μ}, (∀ a, act = some a → a.evicts = false) → (act.isSome → r.activation = none) →
      Guards M I r ((updateOk M fuel act f).exec r).2
  | 0, _, f, _, hev, hact => updateRound_guards hM (fun _ r _ _ => .refl r) f hev hact
  | fuel + 1, _, f, _, hev, hact =>
    updateRound_guards hM (fun _ _ hev ha => updateOk_guards fuel none hev fun _ => ha) f hev hact

/-- **Updates keep a run guarded.** -/
theorem update_guards (f : Option FulfillableActivationComplete) (hev : ∀ a, act = some a → a.evicts = false)
    (hact : act.isSome → r.activation = none) : Guards M I r ((update M act f).exec r).2 :=
  updateOk_guards hM _ f hev hact

theorem settle_guards {x : FOp μ (Option ActivationOrAuto)} (hfree : AsksWhenFree x r)
    (hoff : Managed I r → Offers I (x.exec r)) (ha : (x.exec r).2.activation = r.activation)
    (hw : (x.exec r).2.completionWaitingOnPageFetch = r.completionWaitingOnPageFetch)
    (hc : r.activation = some .eviction → M.hasUndeliveredCancels (x.exec r).2.mgr = M.hasUndeliveredCancels r.mgr) :
    Guards M I r ((settle M x).exec r).2 := by
  intro hr
  have hoff := hoff hr.mgr
  unfold settle AsksWhenFree at *
  rw [exec_attempt_bind]
  generalize x.exec r = y at hfree hoff ha hw hc
  obtain ⟨res, r'⟩ := y
  cases res with
  | error e => exact (Guards.of_mgr (fun _ => hoff) ha hw hc).trans (autoFail_guards e) hr
  | ok act =>
    refine (Guards.of_mgr (fun _ => hoff.1) ha hw hc).trans (update_guards hM none hoff.2 fun h => ?_) hr
    obtain ⟨a, rfl⟩ := Option.isSome_iff_exists.mp h
    exact hfree a rfl

theorem checkMoreActivations_guards (r : ManagedRun μ) : Guards M I r ((checkMoreActivations M).exec r).2 := by
  have hs := checkMoreActivations_inner (M := M).exec r
  refine settle_guards hM (checkMoreActivations_free r) (checkMoreActivations_offers hM) hs.settles.activation
    hs.evolves.same.waiting fun he => ?_
  rw [checkMoreActivations_busy (by simp [he])]

theorem localResolution_guards (res : LocalResolution) (r : ManagedRun μ) :
    Guards M I r ((localResolution M res).exec r).2 := by
  have hs := (localResolution_inner (M := M) res).exec r
  refine settle_guards hM (localResolution_free res r) (localResolution_offers hM res) hs.settles.activation
    hs.evolves.same.waiting fun he => ?_
  unfold _localResolution
  rw [exec_get_bind, if_pos (by simp [activationIsEviction, he]), checkMoreActivations_busy (by simp [he])]

theorem heartbeatTimeout_guards (r : ManagedRun μ) : Guards M I r ((heartbeatTimeout M).exec r).2 := by
  have hs := heartbeatTimeout_inner.exec r
  refine settle_guards hM (heartbeatTimeout_free r) heartbeatTimeout_offers hs.settles.activation
    hs.evolves.same.waiting fun _ => ?_
  unfold _heartbeatTimeout
  rw [exec_get_bind]
  split
  · split <;> rfl
  · rfl

/-- So does a task that is applied. -/
theorem incomingWft_guards (p : PermittedWFT) (ha : r.activation = none) :
    Guards M I r ((incomingWft M p).exec r).2 := by
  obtain ⟨q, pg, w, -, -, hs⟩ := incomingWft_spec p r
  have ha' : ((_incomingWft M p).exec r).2.activation = r.activation := hs.settles.activation
  refine settle_guards hM (fun _ _ => ha'.trans ha) (incomingWft_offers hM p) ha' hs.evolves.same.waiting fun he => ?_
  rw [ha] at he
  cases he

end

end ManagedRun

end SdkCore
