import SdkCore.Run.ManagedRun

/-!
# How a run evolves

What happens to a run between two answers is made of small changes: the inner state changes and queries go out
(`Settles`), an activation goes out while none is outstanding, an eviction is asked for, or a task is taken from the
buffer. `Evolves` is any number of them.
-/

namespace SdkCore.ManagedRun

open Relation Op

variable {μ : Type} {M : ManagerOps μ} {cfg : WorkerConfig}

/-! ## The changes -/

/-- The same task, but its queries may have gone out. -/
inductive Drained : Option OutstandingTask → Option OutstandingTask → Prop
  | same (t : Option OutstandingTask) : Drained t t
  | queries (t : OutstandingTask) : Drained (some t) (some { t with pendingQueries := [] })

theorem Drained.trans {s t u : Option OutstandingTask} (h : Drained s t) (h' : Drained t u) : Drained s u := by
  cases h with
  | same => exact h'
  | queries t =>
    cases h' with
    | same | queries => exact .queries t

/-- Only the managers and two flags change. -/
inductive Inner (r : ManagedRun μ) : ManagedRun μ → Prop
  | mk (m : μ) (w : Option Bool) (b : Bool) : Inner r { r with mgr := m, waitingOnLa := w, amBroken := b }

instance : Std.Refl (Inner (μ := μ)) := ⟨fun r => .mk r.mgr r.waitingOnLa r.amBroken⟩

instance : IsTrans (ManagedRun μ) Inner where
  trans _ _ _ h h' := by
    cases h with
    | mk m w b =>
      cases h' with
      | mk m' w' b' => exact .mk m' w' b'

/-- The inner state changed, and queries may have gone out. -/
inductive Settles (r : ManagedRun μ) : ManagedRun μ → Prop
  | mk (m : μ) (w : Option Bool) (b : Bool) (q : Option OutstandingTask) (h : Drained r.wft q) :
    Settles r { r with mgr := m, waitingOnLa := w, amBroken := b, wft := q }

instance : Std.Refl (Settles (μ := μ)) := ⟨fun r => .mk r.mgr r.waitingOnLa r.amBroken r.wft (.same _)⟩

instance : IsTrans (ManagedRun μ) Settles where
  trans _ _ _ h h' := by
    cases h with
    | mk m w b q h =>
      cases h' with
      | mk m' w' b' q' h' => exact .mk m' w' b' q' (h.trans h')

variable {r r' : ManagedRun μ} {α : Type}

theorem Inner.settles (h : Inner r r') : Settles r r' := by
  cases h with
  | mk m w b => exact .mk m w b r.wft (.same _)

theorem Settles.activation (h : Settles r r') : r'.activation = r.activation := by
  cases h
  rfl

/-- The smallest changes of a run that answers no completion. -/
inductive Change : ManagedRun μ → ManagedRun μ → Prop
  | settle {r r' : ManagedRun μ} (h : Settles r r') : Change r r'
  | dispatch (r : ManagedRun μ) (a : OutstandingActivation) (h : r.activation = none) :
    Change r { r with activation := some a }
  | evict (r : ManagedRun μ) (reason : EvictionReason) : Change r { r with tryingToEvict := some { reason } }
  | take (r : ManagedRun μ) (p : PermittedWFT) (rest : BufferedTasks) (q : Option OutstandingTask)
    (pg : Option HistoryPaginator) (w : Option Bool) (hw : r.wft = none) (ha : r.activation = none)
    (he : r.tryingToEvict = none) (hn : r.taskBuffer.getNextWft = some (p, rest))
    (hq : q = none ∨ q = some (.ofWork p.work)) (hpg : pg = r.paginator ∨ pg = some p.paginator) :
    Change r { r with taskBuffer := rest, applied := r.applied ++ [p], wft := q, paginator := pg, waitingOnLa := w }

abbrev Evolves : ManagedRun μ → ManagedRun μ → Prop := ReflTransGen Change

theorem Settles.evolves (h : Settles r r') : Evolves r r' := .single (.settle h)

theorem Inner.evolves (h : Inner r r') : Evolves r r' := h.settles.evolves

/-- An operation on the inner state. -/
abbrev Internal {α : Type} (x : FOp μ α) : Prop := Moves Inner (fun _ => True) x

theorem Internal.exec {x : FOp μ α} (h : Internal x) (r : ManagedRun μ) : Inner r (x.exec r).2 := (h r).1

/-! ## Functions that report an error -/

theorem onMgr_inner (f : μ → Except WFMachinesError α × μ) : Internal (onMgr f) :=
  fun _ => ⟨.mk _ _ _, fun _ _ => trivial⟩

theorem waitingOnLa_inner (w : Option Bool) : Internal (modify fun r : ManagedRun μ => { r with waitingOnLa := w }) :=
  .modify fun r => .mk r.mgr w r.amBroken

/-- A completion moves a run along `R` by its managers. `A` says which requests may be sunk. -/
structure MovesRun (M : ManagerOps μ) (A : List LocalActRequest → Prop) (R : ManagedRun μ → ManagedRun μ → Prop) :
    Prop where
  waitingOnLa : ∀ r w, R r { r with waitingOnLa := w }
  applyCompletion : ∀ r commands page amBroken,
    R r { r with mgr := (M.applyCompletion commands page amBroken r.mgr).2 }
  notifyOfLocalResult : ∀ r res, R r { r with mgr := (M.notifyOfLocalResult res r.mgr).2 }
  drain : ∀ r r', (A (M.drainQueuedLocalActivities r.mgr).1 →
    R { r with mgr := (M.drainQueuedLocalActivities r.mgr).2 } r') → R r r'
  sink : ∀ r reqs, A reqs → R r { r with mgr := (M.sinkReqs reqs r.mgr).2 }
  heartbeat : A [.startHeartbeatTimeout]
  reported : ∀ r, R r { r with mgr := M.wftCompletionReported r.mgr }

section

variable {A : List LocalActRequest → Prop} {R : ManagedRun μ → ManagedRun μ → Prop}

/-- One call to the managers. -/
theorem onMgr_moves {f : μ → Except WFMachinesError α × μ} (h : ∀ r, R r { r with mgr := (f r.mgr).2 }) :
    Moves R (fun _ => True) (onMgr f) :=
  fun r => ⟨h r, fun _ _ => trivial⟩

variable [Std.Refl R] [IsTrans _ R] (hR : MovesRun M A R)
include hR

/-- Results of local activities are applied. -/
theorem notifyOfLocalResults_moves : ∀ results : List LocalResolution,
    Moves R (fun _ => True) (notifyOfLocalResults M results)
  | [] => .pure _
  | res :: rest => (onMgr_moves (hR.notifyOfLocalResult · res)).bind fun _ => notifyOfLocalResults_moves rest

/-- Requests are sunk. -/
theorem sinkLaRequests_moves {reqs : List LocalActRequest} (h : A reqs) :
    Moves R (fun _ => True) (sinkLaRequests M reqs) :=
  (onMgr_moves (hR.sink · reqs h)).bind fun _ => notifyOfLocalResults_moves hR _

theorem sinkHeartbeatTimeoutStart_moves : Moves R (fun _ => True) (sinkHeartbeatTimeoutStart M) :=
  (onMgr_moves (hR.sink · _ hR.heartbeat)).bind fun _ => .pure _

omit [IsTrans _ R] in
/-- The answer is prepared. -/
theorem prepareCompleteResp_moves (data : RunActivationCompletion) (due : Bool) :
    Moves R (fun _ => True) (prepareCompleteResp M data due) := by
  apply Moves.get
  intro r
  simp only
  split
  · exact ⟨hR.reported r, fun _ _ => trivial⟩
  · exact Moves.pure _ r

/-- Commands are applied. -/
theorem applyCommands_moves (commands : List WFCommand) (page : Option HistoryUpdate) :
    Moves R (fun _ => True) (applyCommands M commands page) := by
  have hrest : ∀ reqs, A reqs → Moves R (fun _ => True) (do
      sinkLaRequests M reqs
      let r ← get
      if M.outstandingLocalActivityCount r.mgr = 0 then return false
      else if M.hasTaskTimeout r.mgr then return true
      else throw (.fatal .missingTaskTimeout)) := by
    intro reqs hreqs
    refine (sinkLaRequests_moves hR hreqs).bind fun _ => .get fun r => ?_
    split
    · exact Moves.pure _ r
    split
    · exact Moves.pure _ r
    · exact Moves.throw trivial r
  intro r
  refine Moves.bind (onMgr_moves (hR.applyCompletion · commands page r.amBroken)) (fun _ r => ?_) r
  exact ⟨hR.drain r _ fun hA => (hrest _ hA _).1, fun _ _ => trivial⟩

theorem afterCommands_moves (completion : RunActivationCompletion) (ha hl las : Bool) :
    Moves R (fun _ => True) (afterCommands M completion ha hl las) := by
  unfold afterCommands
  split
  · exact .bind (.modify (hR.waitingOnLa · _)) fun _ => prepareCompleteResp_moves hR _ _
  · refine (sinkHeartbeatTimeoutStart_moves hR).bind fun _ => ?_
    split
    · exact .bind (.modify (hR.waitingOnLa · _)) fun _ => prepareCompleteResp_moves hR _ _
    · exact .bind (.modify (hR.waitingOnLa · _)) fun _ => .get fun r => Moves.pure _ r

/-- **A completion moves a run along `R`.** -/
theorem processCompletion_moves (completion : RunActivationCompletion) (page : Option HistoryUpdate) :
    Moves R (fun _ => True) (_processCompletion M completion page) := by
  apply Moves.get
  intro r
  split
  · exact prepareCompleteResp_moves hR _ _ r
  · exact Moves.bind (applyCommands_moves hR _ _) (fun _ => afterCommands_moves hR _ _ _ _) r

end

theorem movesRun_inner : MovesRun M (fun _ => True) Inner where
  waitingOnLa r w := .mk r.mgr w r.amBroken
  applyCompletion _ _ _ _ := .mk _ _ _
  notifyOfLocalResult _ _ := .mk _ _ _
  drain r r' h := by
    cases h trivial
    exact .mk _ _ _
  sink _ _ _ := .mk _ _ _
  heartbeat := trivial
  reported _ := .mk _ _ _

/-- It changes the inner state only. -/
theorem processCompletion_inner (completion : RunActivationCompletion) (page : Option HistoryUpdate) :
    Internal (_processCompletion M completion page) :=
  processCompletion_moves movesRun_inner completion page

/-- So does a look for the next activation. -/
theorem checkMoreActivations_inner : Internal (_checkMoreActivations M) := by
  apply Moves.get
  intro r
  split
  · exact Moves.pure _ r
  split
  · exact Moves.bind (onMgr_inner _) (fun _ => .pure _) r
  split
  · exact Moves.bind (waitingOnLa_inner _) (fun _ => .pure _) r
  split
  · exact Moves.bind (onMgr_inner _) (fun _ => .pure _) r
  split <;> exact Moves.pure _ r

theorem evictionActivation_inner : Internal (evictionActivation M) := by
  apply Moves.get
  intro r
  split
  · exact Moves.pure _ r
  split
  · refine Moves.bind (waitingOnLa_inner _) (fun _ => ?_) r
    refine Moves.bind (sinkLaRequests_moves movesRun_inner trivial) fun _ => ?_
    apply Moves.get
    intro r
    split <;> exact Moves.pure _ r
  · exact Moves.pure _ r

theorem putQueriesInAct_drained (act : WorkflowActivation) (t : OutstandingTask) :
    Drained (some t) (some (putQueriesInAct act t).2) := by
  unfold putQueriesInAct
  split
  · exact .same _
  · exact .queries t

/-- Queries go out. -/
theorem dispatchQueries_settles (act : WorkflowActivation) (r : ManagedRun μ) :
    Settles r ((dispatchQueries act).exec r).2 := by
  unfold dispatchQueries
  rw [exec_get_bind]
  split
  · exact refl r
  · next t ht =>
    exact .mk r.mgr r.waitingOnLa r.amBroken _ (ht ▸ putQueriesInAct_drained act t)

theorem checkedAct_inner (maybeAct : Option ActivationOrAuto) : Internal (checkedAct M maybeAct) := by
  apply Moves.get
  intro r
  split
  · exact checkMoreActivations_inner r
  · exact Moves.pure _ r

theorem finalAct_settles (maybeAct : Option ActivationOrAuto) (r : ManagedRun μ) :
    Settles r ((finalAct M maybeAct).exec r).2 := by
  unfold finalAct
  split
  · exact (evictionActivation_inner.exec r).settles
  · exact dispatchQueries_settles _ r
  · exact refl r

/-- What goes out next is settled. -/
theorem outgoingAct_settles (maybeAct : Option ActivationOrAuto) (r : ManagedRun μ) :
    Settles r ((outgoingAct M maybeAct).exec r).2 := by
  have h := ((checkedAct_inner (M := M) maybeAct).exec r).settles
  rw [outgoingAct, exec_bind]
  generalize (checkedAct M maybeAct).exec r = x at h
  obtain ⟨e | act, r'⟩ := x
  · exact h
  · exact IsTrans.trans _ _ _ h (finalAct_settles act r')

/-- A local activity is resolved. -/
theorem localResolution_inner (res : LocalResolution) : Internal (_localResolution M res) := by
  apply Moves.get
  intro r
  split
  · exact checkMoreActivations_inner r
  · refine Moves.bind (onMgr_inner _) (fun _ => ?_) r
    apply Moves.get
    intro r
    split
    · exact checkMoreActivations_inner r
    · exact Moves.pure _ r

theorem heartbeatTimeout_inner : Internal (_heartbeatTimeout (μ := μ)) := by
  apply Moves.get
  intro r
  split
  · refine Moves.bind (waitingOnLa_inner _) (fun _ => ?_) r
    split <;> exact .pure _
  · exact Moves.pure _ r

/-- History goes to the machines. -/
theorem applyUpdate_inner (work : PreparedWFT) : Internal (applyUpdate M work) := by
  unfold applyUpdate
  split
  · exact onMgr_inner _
  · refine .bind (onMgr_inner _) fun act => ?_
    split
    · exact .throw trivial
    · exact .pure _

/-! ## Updates -/

section

variable {r : ManagedRun μ}

theorem checkMoreActivations_busy (h : r.activation.isSome) : (_checkMoreActivations M).exec r = (.ok none, r) := by
  simp [_checkMoreActivations, exec_bind, h]

theorem evictionActivation_busy (h : r.activation.isSome) : (evictionActivation M).exec r = (.ok none, r) := by
  unfold evictionActivation
  simp only [exec_bind, exec_get, andThen_ok]
  split
  · rfl
  · rw [if_neg (by simp [Option.isSome_iff_ne_none.mp h])]
    rfl

/-- Nothing goes out while an activation is outstanding. -/
theorem outgoingAct_busy (h : r.activation.isSome) : (outgoingAct M none).exec r = (.ok none, r) := by
  have hc : (checkedAct M none).exec r = (.ok none, r) := by
    simp only [checkedAct, exec_bind, exec_get, andThen_ok]
    split
    · exact checkMoreActivations_busy h
    · rfl
  rw [outgoingAct, exec_bind, hc]
  exact evictionActivation_busy h

variable {act : Option ActivationOrAuto}

theorem activation_eq_none_of_outgoingAct {a : ActivationOrAuto} (hact : act.isSome → r.activation = none)
    (h : ((outgoingAct M act).exec r).1 = .ok (some a)) : r.activation = none := by
  cases act with
  | some _ => exact hact rfl
  | none =>
    by_contra hne
    rw [outgoingAct_busy (Option.isSome_iff_ne_none.mpr hne)] at h
    cases h

/-- A run with nothing to do. -/
theorem isIdle_iff :
    r.isIdle M act ↔ (act = none ∨ act = some .autocomplete) ∧ r.wft = none ∧ r.activation = none ∧
      r.tryingToEvict = none := by
  have hp : r.hasAnyPendingWork M false true = false ↔
      r.wft = none ∧ r.activation = none ∧ r.tryingToEvict = none := by
    simp only [hasAnyPendingWork, morePendingWork, Bool.not_true, Bool.false_and, Bool.or_false, Bool.not_false,
      Bool.true_and, Bool.false_eq_true, if_false, Bool.or_eq_false_iff, Option.isSome_eq_false_iff,
      Option.isNone_iff_eq_none]
    constructor
    · rintro ⟨⟨⟨hw, -⟩, ha⟩, he⟩
      exact ⟨hw, ha, he⟩
    · rintro ⟨hw, ha, he⟩
      simp [hw, ha, he]
  match act with
  | none => simp [isIdle, hp]
  | some .autocomplete => simp [isIdle, hp]
  | some (.langActivation _) => simp [isIdle]
  | some (.readyForQueries _) => simp [isIdle]
  | some (.autoFail _) => simp [isIdle]

/-- A task is taken over. -/
theorem incomingWft_spec (p : PermittedWFT) (r : ManagedRun μ) :
    ∃ q pg w, (q = r.wft ∨ q = some (.ofWork p.work)) ∧ (pg = r.paginator ∨ pg = some p.paginator) ∧
      Inner { r with applied := r.applied ++ [p], wft := q, paginator := pg, waitingOnLa := w }
        ((_incomingWft M p).exec r).2 := by
  unfold _incomingWft
  rw [exec_modify_bind]
  split
  · exact ⟨r.wft, r.paginator, r.waitingOnLa, .inl rfl, .inl rfl, refl _⟩
  · refine ⟨some (.ofWork p.work), some p.paginator, r.waitingOnLa.map fun _ => false, .inr rfl, .inr rfl, ?_⟩
    rw [exec_modify_bind, exec_get_bind]
    split
    · exact refl _
    · refine Internal.exec ?_ _
      refine .bind (applyUpdate_inner _) fun act => ?_
      split
      · exact .pure _
      · apply Moves.get
        intro r
        split
        · exact Moves.bind (sinkHeartbeatTimeoutStart_moves movesRun_inner) (fun _ => .pure _) r
        · exact Moves.pure _ r

/-- An activation goes out. -/
theorem sendOut_evolves (h : act.isSome → r.activation = none) : Evolves r ((sendOut act).exec r).2 := by
  cases act with
  | none => exact .refl
  | some a =>
    have h := h rfl
    have hr : ((sendOut (some a)).exec r).2 = { r with activation := some a.outstanding } := by
      show insertOutstandingActivation a r = _
      simp [insertOutstandingActivation, h]
    rw [hr]
    exact .single (.dispatch r _ h)

@[simp] theorem fulfill_activation (f : Option FulfillableActivationComplete) :
    (r.fulfill f).activation = r.activation := by
  unfold fulfill send
  split
  · rfl
  · split <;> rfl

end

/-- A way to go on, while no activation is outstanding. -/
def GoesOn (go : Option ActivationOrAuto → ROp μ (Option ActivationOrAuto)) : Prop :=
  ∀ act r, r.activation = none → Evolves r ((go act).exec r).2

theorem autoFail_evolves (e : WFMachinesError) (r : ManagedRun μ) : Evolves r ((autoFail e).exec r).2 :=
  Inner.evolves (.mk r.mgr r.waitingOnLa true)

variable {go : Option ActivationOrAuto → ROp μ (Option ActivationOrAuto)}

/-- The next task comes from the buffer. -/
theorem takeBuffered_evolves (hgo : GoesOn go) (hw : r.wft = none) (ha : r.activation = none)
    (he : r.tryingToEvict = none) : Evolves r ((takeBuffered M go).exec r).2 := by
  unfold takeBuffered
  rw [exec_get_bind]
  split
  · exact .refl
  · next p rest hn =>
    rw [exec_modify_bind, exec_attempt_bind]
    obtain ⟨q, pg, w, hq, hpg, hs⟩ := incomingWft_spec p { r with taskBuffer := rest }
    generalize exec (_incomingWft M p) { r with taskBuffer := rest } = x at hs
    have ht : Evolves r x.2 := by
      refine .head (.take r p rest q pg w hw ha he hn ?_ hpg) hs.evolves
      exact hq.imp_left fun h => h.trans hw
    have ha' : x.2.activation = none := hs.settles.activation.trans ha
    split
    · exact ht.trans (hgo _ _ ha')
    · exact ht.trans (autoFail_evolves _ _)

/-- The inner state changes, the completion is answered, and the run goes on. The answer is lost only if looking for an
activation fails. -/
inductive Updates (f : Option FulfillableActivationComplete) (r r' : ManagedRun μ) : Prop
  | answered {s : ManagedRun μ} (hs : Settles r s) (h : Evolves (s.fulfill f) r')
  | lost (ha : r.activation = none) (h : Evolves r r')

/-- Without a completion a run evolves. -/
theorem Updates.evolves (h : Updates none r r') : Evolves r r' := by
  cases h with
  | answered hs h => exact hs.evolves.trans h
  | lost _ h => exact h

/-- A round of an update. -/
theorem updateRound_spec (hgo : GoesOn go) (act : Option ActivationOrAuto) (f : Option FulfillableActivationComplete)
    (r : ManagedRun μ) (hact : act.isSome → r.activation = none) : Updates f r ((updateRound M go act f).exec r).2 := by
  have hs := outgoingAct_settles (M := M) act r
  have hn := fun a => activation_eq_none_of_outgoingAct (M := M) (a := a) hact
  have hb : ∀ e, ((outgoingAct M act).exec r).1 = .error e → r.activation = none := by
    intro e he
    by_contra hne
    have hsome := Option.isSome_iff_ne_none.mpr hne
    cases act with
    | none => rw [outgoingAct_busy hsome] at he; cases he
    | some _ => exact hne (hact rfl)
  unfold updateRound
  rw [exec_attempt_bind]
  generalize (outgoingAct M act).exec r = x at hs hn hb
  obtain ⟨res, r'⟩ := x
  cases res with
  | error e => exact .lost (hb e rfl) (hs.evolves.trans (autoFail_evolves e r'))
  | ok a =>
    refine .answered hs ?_
    simp only [exec_bind, exec_modify, andThen_ok, exec_get]
    split
    · next hi =>
      obtain ⟨-, hw, ha, he⟩ := isIdle_iff.mp hi
      exact takeBuffered_evolves hgo hw ha he
    · refine sendOut_evolves fun h => ?_
      obtain ⟨b, rfl⟩ := Option.isSome_iff_exists.mp h
      rw [fulfill_activation, hs.activation]
      exact hn b rfl

theorem updateOk_spec : ∀ (fuel : Nat) (act : Option ActivationOrAuto) (f : Option FulfillableActivationComplete)
    (r : ManagedRun μ), (act.isSome → r.activation = none) → Updates f r ((updateOk M fuel act f).exec r).2
  | 0, act, f, r, hact => updateRound_spec (fun _ _ _ => .refl) act f r hact
  | fuel + 1, act, f, r, hact =>
    updateRound_spec (fun act r ha => (updateOk_spec fuel act none r fun _ => ha).evolves) act f r hact

/-- **An update answers the completion at hand, and otherwise only makes small changes.** -/
theorem update_spec (act : Option ActivationOrAuto) (f : Option FulfillableActivationComplete) (r : ManagedRun μ)
    (hact : act.isSome → r.activation = none) : Updates f r ((update M act f).exec r).2 :=
  updateOk_spec _ act f r hact

/-- An activation is made only if none is outstanding. -/
def AsksWhenFree (x : FOp μ (Option ActivationOrAuto)) (r : ManagedRun μ) : Prop :=
  ∀ a, (x.exec r).1 = .ok (some a) → (x.exec r).2.activation = none

/-- What was found goes out. -/
theorem settle_evolves {x : FOp μ (Option ActivationOrAuto)} (hx : AsksWhenFree x r) :
    Evolves (x.exec r).2 ((settle M x).exec r).2 := by
  unfold settle AsksWhenFree at *
  rw [exec_attempt_bind]
  generalize x.exec r = y at hx
  obtain ⟨res, r'⟩ := y
  cases res with
  | error e => exact autoFail_evolves e r'
  | ok act =>
    refine (update_spec act none r' fun h => ?_).evolves
    obtain ⟨a, rfl⟩ := Option.isSome_iff_exists.mp h
    exact hx a rfl

theorem checkMoreActivations_free (r : ManagedRun μ) : AsksWhenFree (_checkMoreActivations M) r := by
  intro a h
  rw [(checkMoreActivations_inner.exec r).settles.activation]
  by_contra hne
  rw [checkMoreActivations_busy (Option.isSome_iff_ne_none.mpr hne)] at h
  cases h

theorem checkMoreActivations_evolves (r : ManagedRun μ) : Evolves r ((checkMoreActivations M).exec r).2 :=
  (checkMoreActivations_inner.exec r).evolves.trans (settle_evolves (checkMoreActivations_free r))

theorem localResolution_free (res : LocalResolution) (r : ManagedRun μ) : AsksWhenFree (_localResolution M res) r := by
  intro a
  unfold _localResolution
  rw [exec_get_bind]
  split
  · exact checkMoreActivations_free r a
  · rw [exec_bind]
    generalize (onMgr (M.notifyOfLocalResult res)).exec r = y
    obtain ⟨e | _, r'⟩ := y
    · intro h
      cases h
    · rw [andThen_ok, exec_get_bind]
      split
      · exact checkMoreActivations_free r' a
      · intro h
        cases h

theorem localResolution_evolves (res : LocalResolution) (r : ManagedRun μ) :
    Evolves r ((localResolution M res).exec r).2 :=
  ((localResolution_inner res).exec r).evolves.trans (settle_evolves (localResolution_free res r))

theorem heartbeatTimeout_free (r : ManagedRun μ) : AsksWhenFree _heartbeatTimeout r := by
  intro a h
  rw [(heartbeatTimeout_inner.exec r).settles.activation]
  by_contra hne
  simp only [_heartbeatTimeout, exec_bind, exec_get, andThen_ok] at h
  split at h
  · rw [if_neg (by simpa using hne)] at h
    cases h
  · cases h

theorem heartbeatTimeout_evolves (r : ManagedRun μ) : Evolves r ((heartbeatTimeout M).exec r).2 :=
  (heartbeatTimeout_inner.exec r).evolves.trans (settle_evolves (heartbeatTimeout_free r))

theorem incomingWft_evolves (p : PermittedWFT) (ha : r.activation = none) :
    ∃ q pg w, (q = r.wft ∨ q = some (.ofWork p.work)) ∧ (pg = r.paginator ∨ pg = some p.paginator) ∧
      Evolves { r with applied := r.applied ++ [p], wft := q, paginator := pg, waitingOnLa := w }
        ((incomingWft M p).exec r).2 := by
  obtain ⟨q, pg, w, hq, hpg, hs⟩ := incomingWft_spec p r
  refine ⟨q, pg, w, hq, hpg, hs.evolves.trans (settle_evolves ?_)⟩
  intro a _
  exact hs.settles.activation.trans ha

theorem dropQueries_settles (r : ManagedRun μ) (reason : EvictionReason) : Settles r (r.dropQueries reason) := by
  unfold dropQueries
  split
  · exact refl r
  · refine .mk r.mgr r.waitingOnLa r.amBroken _ ?_
    cases r.wft with
    | none => exact .same _
    | some t => exact .queries t

/-- An eviction is asked for. -/
theorem markForEviction_evolves (info : RequestEvictMsg) (r : ManagedRun μ) :
    ∃ s, Settles r s ∧ Evolves { s with tryingToEvict := some info } ((markForEviction M info).exec r).2 := by
  unfold markForEviction
  rw [exec_get_bind]
  split
  · refine ⟨r.dropQueries info.reason, dropQueries_settles r _, ?_⟩
    rw [exec_modify_bind, exec_bind]
    have h := checkMoreActivations_evolves (M := M) { r.dropQueries info.reason with tryingToEvict := some info }
    generalize exec (checkMoreActivations M) _ = y at h
    obtain ⟨e | a, r'⟩ := y <;> exact h
  · exact ⟨r, refl r, .refl⟩

end SdkCore.ManagedRun
