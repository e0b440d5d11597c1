import SdkCore.History.Consumer
import SdkCore.Machines.WorkflowManager

/-!
# Applying a sequence

What the machines do to the history at hand, the events processed, the replay flag and the jobs. Most operations are
`Quiet`. `applyNextWftFromHistory_spec`: nothing is left to apply, or the next sequence is taken and applied.
-/

namespace SdkCore

open Op Chunks WFMachinesError

def WFMachinesError.NotFetch (e : WFMachinesError) : Prop := e ≠ .fatal .needFetch

/-- There is a job for lang, or an error, for this event. -/
def Behaviour.Produces {σ : Type} (B : Behaviour σ) (e : HistoryEvent) : Prop :=
  e.isWftEvent = false ∧ ∀ s replaying lastTask next,
    (B.handleEvent s e replaying lastTask next).jobs ≠ [] ∨ (B.handleEvent s e replaying lastTask next).error ≠ none

/-- The ways in which the machines react. -/
inductive Behaviour.Answers {σ : Type} (B : Behaviour σ) : (σ → Reaction σ) → Prop
  | processMessages (e : HistoryEvent) (replaying : Bool) : B.Answers fun s => B.processMessages s e replaying
  | handleEvent (e : HistoryEvent) (replaying lastTask : Bool) (next : Option HistoryEvent) :
      B.Answers fun s => B.handleEvent s e replaying lastTask next
  | peekEvents (events : List HistoryEvent) : B.Answers fun s => (B.peekEvents s events).1
  | handleProtocolMessage (n : Nat) : B.Answers fun s => B.handleProtocolMessage s n
  | tryResolveWithDat (seq : Nat) : B.Answers fun s => B.tryResolveWithDat s seq
  | localResolution (res : LocalResolution) : B.Answers fun s => B.localResolution s res
  | encounteredNonReplayWft : B.Answers B.encounteredNonReplayWft
  | handleDrivenResult (c : WFCommand) : B.Answers fun s => B.handleDrivenResult s c

/-- Whatever happens moves the inner state along `r`. -/
structure Behaviour.Respects {σ : Type} (B : Behaviour σ) (r : σ → σ → Prop) : Prop where
  answers : ∀ {f : σ → Reaction σ}, B.Answers f → ∀ s, r s (f s).inner
  receiveMessages : ∀ s messages, r s (B.receiveMessages s messages)
  wftApplied : ∀ s events, r s (B.wftApplied s events)
  addTerminalCommand : ∀ s c, r s (B.addTerminalCommand s c)
  handleCommand : ∀ s n, r s (B.handleCommand s n).1
  takeAllReqs : ∀ s, r s (B.takeAllReqs s).2

/-- Other things that happen to the inner state. -/
inductive Behaviour.Updates {σ : Type} (B : Behaviour σ) (s : σ) : σ → Prop
  | same : B.Updates s s
  | receiveMessages (messages : List Nat) : B.Updates s (B.receiveMessages s messages)
  | wftApplied (events : List HistoryEvent) : B.Updates s (B.wftApplied s events)
  | addTerminalCommand (c : WFCommand) : B.Updates s (B.addTerminalCommand s c)
  | handleCommand (n : Nat) : B.Updates s (B.handleCommand s n).1
  | takeAllReqs : B.Updates s (B.takeAllReqs s).2

theorem Behaviour.Respects.updates {σ : Type} {B : Behaviour σ} {r : σ → σ → Prop} [Std.Refl r] (hr : B.Respects r)
    {s s' : σ} (h : B.Updates s s') : r s s' := by
  cases h with
  | same => exact refl s
  | receiveMessages => exact hr.receiveMessages _ _
  | wftApplied => exact hr.wftApplied _ _
  | addTerminalCommand => exact hr.addTerminalCommand _ _
  | handleCommand => exact hr.handleCommand _ _
  | takeAllReqs => exact hr.takeAllReqs _

namespace WorkflowMachines

variable {σ : Type} {B : Behaviour σ}

/-! ## What operations leave alone -/

/-- The history at hand stays, and jobs are only added. -/
structure Steady (m m' : WorkflowMachines σ) : Prop where
  history : m'.lastHistoryFromServer = m.lastHistoryFromServer
  legacy : m'.preparingLegacyQuery = m.preparingLegacyQuery
  jobs : m.jobs <+: m'.jobs

/-- So do the events that were processed, and the replay flag. -/
structure Quiet (m m' : WorkflowMachines σ) : Prop extends Steady m m' where
  current : m'.currentStartedEventId = m.currentStartedEventId
  lastProcessed : m'.lastProcessedEvent = m.lastProcessedEvent
  replaying : m'.replaying = m.replaying
  terminal : m'.haveSeenTerminalEvent = m.haveSeenTerminalEvent
  tasks : m'.workflowTasks = m.workflowTasks

variable {m m₁ m₂ m₃ m' : WorkflowMachines σ} {n : Int} {wt wt' : WorkflowTaskMachine} {r : WftResponse}
  {e : HistoryEvent} {events : List HistoryEvent}

theorem Steady.rfl : Steady m m := ⟨.refl _, .refl _, List.prefix_rfl⟩

theorem Steady.trans (h : Steady m₁ m₂) (h' : Steady m₂ m₃) : Steady m₁ m₃ :=
  ⟨h'.history.trans h.history, h'.legacy.trans h.legacy, h.jobs.trans h'.jobs⟩

theorem Quiet.rfl : Quiet m m := ⟨.rfl, .refl _, .refl _, .refl _, .refl _, .refl _⟩

theorem Quiet.trans (h : Quiet m₁ m₂) (h' : Quiet m₂ m₃) : Quiet m₁ m₃ :=
  ⟨h.toSteady.trans h'.toSteady, h'.current.trans h.current, h'.lastProcessed.trans h.lastProcessed,
    h'.replaying.trans h.replaying, h'.terminal.trans h.terminal, h'.tasks.trans h.tasks⟩

instance : Std.Refl (Quiet (σ := σ)) := ⟨fun _ => .rfl⟩

instance : IsTrans (WorkflowMachines σ) Quiet := ⟨fun _ _ _ => .trans⟩

/-- What commands and local activities change. -/
theorem quiet_with (m : WorkflowMachines σ) (updateOnlyTask : Bool) (currentWfTaskCommands : List CommandAndMachine)
    (preresolutions : List Preresolution) (activationIndex : Nat) (amTerminating : Bool) (inner : σ) :
    Quiet m { m with updateOnlyTask, currentWfTaskCommands, preresolutions, activationIndex, amTerminating, inner } :=
  ⟨⟨.refl _, .refl _, List.prefix_rfl⟩, .refl _, .refl _, .refl _, .refl _, .refl _⟩

/-- A reaction is quiet. -/
theorem absorb_quiet (m : WorkflowMachines σ) (r : Reaction σ) : Quiet m (m.absorb r) :=
  ⟨⟨.refl _, .refl _, List.prefix_append _ _⟩, .refl _, .refl _, .refl _, .refl _, .refl _⟩

/-- What a reaction does, and its error. -/
theorem exec_react (f : σ → Reaction σ) (m : WorkflowMachines σ) :
    exec (react f) m =
      ((f m.inner).error.elim (.ok ()) (fun e => .error (.ofMachine e)), m.absorb (f m.inner)) := by
  unfold react
  simp only [exec_bind, exec_get, andThen_ok, exec_modify]
  cases (f m.inner).error <;> rfl

/-! ## Operations along a relation -/

/-- Applying commands moves the machines along `R`. -/
structure MovesOn (B : Behaviour σ) (R : WorkflowMachines σ → WorkflowMachines σ → Prop) : Prop where
  absorb : ∀ {f : σ → Reaction σ}, B.Answers f → ∀ m : WorkflowMachines σ, R m (m.absorb (f m.inner))
  update : ∀ (m : WorkflowMachines σ) (updateOnlyTask : Bool) (currentWfTaskCommands : List CommandAndMachine)
    (preresolutions : List Preresolution) (activationIndex : Nat) (amTerminating : Bool) {inner : σ},
    B.Updates m.inner inner →
      R m { m with updateOnlyTask, currentWfTaskCommands, preresolutions, activationIndex, amTerminating, inner }

/-- So does applying history, for `R` that is about the inner state and the jobs only. -/
structure MovesFreely (B : Behaviour σ) (R : WorkflowMachines σ → WorkflowMachines σ → Prop) : Prop where
  absorb : ∀ {f : σ → Reaction σ}, B.Answers f → ∀ m : WorkflowMachines σ, R m (m.absorb (f m.inner))
  update : ∀ {m m' : WorkflowMachines σ}, B.Updates m.inner m'.inner → m'.jobs = m.jobs → R m m'
  taskStarted : ∀ (m : WorkflowMachines σ) (sid : Int) (wt : WorkflowTaskMachine) (r : WftResponse),
    R m (m.taskStarted sid wt r)

theorem MovesFreely.still {R : WorkflowMachines σ → WorkflowMachines σ → Prop} {E : WFMachinesError → Prop}
    (h : MovesFreely B R) {f : WorkflowMachines σ → WorkflowMachines σ}
    (hf : ∀ m, (f m).inner = m.inner ∧ (f m).jobs = m.jobs) : Moves R E (modify f) :=
  .modify fun m => h.update ((hf m).1 ▸ .same) (hf m).2

theorem MovesFreely.movesOn {R : WorkflowMachines σ → WorkflowMachines σ → Prop} (h : MovesFreely B R) : MovesOn B R :=
  ⟨h.absorb, fun _ _ _ _ _ _ _ hs => h.update hs rfl⟩

section

variable {R : WorkflowMachines σ → WorkflowMachines σ → Prop}

/-- A reaction moves along `R`. -/
theorem react_by {f : σ → Reaction σ} (hf : ∀ m : WorkflowMachines σ, R m (m.absorb (f m.inner))) :
    Moves R WFMachinesError.NotFetch (react f) := by
  intro m
  rw [exec_react]
  refine ⟨hf m, fun e he => ?_⟩
  cases hf : (f m.inner).error with
  | none => simp [hf] at he
  | some e' =>
    simp only [hf, Option.elim_some, Except.error.injEq] at he
    exact he ▸ ofMachine_ne_needFetch e'

variable [Std.Refl R] [IsTrans _ R] (hR : MovesOn B R)
include hR

/-- Peeked resolutions are applied. -/
theorem applyPeeked_by (includeHeld : Bool) :
    ∀ fuel : Nat, Moves R WFMachinesError.NotFetch (applyPeeked B includeHeld fuel)
  | 0 => .pure ()
  | fuel + 1 => by
    unfold applyPeeked
    apply Moves.get
    intro m
    split
    · exact Moves.pure () m
    · split
      · exact Moves.pure () m
      · exact Moves.bind (.modify fun m => hR.update m _ _ _ _ _ .same)
          (fun _ => (react_by (hR.absorb (.tryResolveWithDat _))).bind fun _ => applyPeeked_by _ fuel) m

theorem applyLocalActivityPeekedResolutions_by (includeHeld : Bool) :
    Moves R WFMachinesError.NotFetch (applyLocalActivityPeekedResolutions B includeHeld) :=
  Moves.get fun m => applyPeeked_by hR includeHeld _ m

/-- Held ones are released. -/
theorem releaseHeld_by : Moves R WFMachinesError.NotFetch (releaseHeldLocalActivityResolutionsIfIdle B) := by
  apply Moves.get
  intro m
  split
  · exact Moves.pure () m
  · exact applyLocalActivityPeekedResolutions_by hR true m

theorem performDelayedAction_by :
    ∀ action : DelayedAction, Moves R WFMachinesError.NotFetch (performDelayedAction B action)
  | .localActivityMarker seq activationIndex => by
    unfold performDelayedAction
    apply Moves.get
    intro m
    split
    · exact Moves.bind (.modify fun m => hR.update m _ _ _ _ _ .same)
        (fun _ => applyLocalActivityPeekedResolutions_by hR false) m
    · exact Moves.pure () m
  | .protocolMessage n => by
    unfold performDelayedAction
    exact react_by (hR.absorb (.handleProtocolMessage n))

/-- Delayed actions are performed. -/
theorem performDelayedActions_by :
    ∀ actions : List DelayedAction, Moves R WFMachinesError.NotFetch (performDelayedActions B actions)
  | [] => .pure ()
  | action :: actions => (performDelayedAction_by hR action).bind fun _ => performDelayedActions_by actions

theorem afterPeek_by (actions : List DelayedAction) : Moves R WFMachinesError.NotFetch (do
    performDelayedActions B actions
    releaseHeldLocalActivityResolutionsIfIdle B
    modify fun m =>
      { m with updateOnlyTask := if !m.replaying && m.hasPendingJobs then !Job.hasNonUpdateJobs m.jobs
                                 else m.updateOnlyTask }
    let m ← get
    if !m.replaying && !m.updateOnlyTask then react B.encounteredNonReplayWft else pure ()) := by
  refine (performDelayedActions_by hR _).bind fun _ => (releaseHeld_by hR).bind fun _ =>
    Moves.bind (.modify fun m => hR.update m _ _ _ _ _ .same) fun _ => Moves.get fun m => ?_
  split
  · exact react_by (hR.absorb .encounteredNonReplayWft) m
  · exact Moves.pure () m

/-- The next sequence is looked at. -/
theorem lookAhead_by (lastHandled : Int) : Moves R WFMachinesError.NotFetch (lookAhead B lastHandled) := by
  intro m
  exact Moves.bind (react_by (hR.absorb (.peekEvents _))) (fun _ => afterPeek_by hR _) m

omit [IsTrans _ R] in
theorem checkUpdateOnly_by (results : List WFCommand) : Moves R WFMachinesError.NotFetch (checkUpdateOnly results) := by
  apply Moves.get
  intro m
  split
  · split
    · exact Moves.modify (fun m => hR.update m _ _ _ _ _ .same) m
    · split
      · exact Moves.throw nofun m
      · exact Moves.pure () m
  · exact Moves.pure () m

/-- Commands of lang are handled. -/
theorem handleDrivenResults_by :
    ∀ commands : List WFCommand, Moves R WFMachinesError.NotFetch (handleDrivenResults B commands)
  | [] => .pure ()
  | c :: commands => by
    unfold handleDrivenResults
    split
    · exact Moves.bind (.modify fun m => hR.update m _ _ _ _ _ (.addTerminalCommand c))
        fun _ => handleDrivenResults_by commands
    · exact (react_by (hR.absorb (.handleDrivenResult c))).bind fun _ => handleDrivenResults_by commands

/-- Commands are prepared. -/
theorem prepareCommandList_by :
    ∀ commands : List CommandAndMachine, Moves R WFMachinesError.NotFetch (prepareCommandList B commands)
  | [] => .modify fun m => hR.update m _ _ _ _ _ .same
  | .terminal :: commands => prepareCommandList_by commands
  | .machine n :: commands => by
    apply Moves.get
    intro m
    refine Moves.bind (.modify fun m => hR.update m _ _ _ _ _ (.handleCommand n)) (fun _ => ?_) m
    split
    · exact Moves.throw (ofMachine_ne_needFetch _)
    · exact prepareCommandList_by commands

/-- **Commands move the machines along `R`.** -/
theorem iterateMachines_by (results : List WFCommand) :
    Moves R WFMachinesError.NotFetch (iterateMachines B results) :=
  (checkUpdateOnly_by hR results).bind fun _ => (handleDrivenResults_by hR results).bind fun _ =>
    (applyLocalActivityPeekedResolutions_by hR false).bind fun _ => (releaseHeld_by hR).bind fun _ =>
      Moves.get fun m => prepareCommandList_by hR _ m

end

section

variable {R : WorkflowMachines σ → WorkflowMachines σ → Prop} [Std.Refl R] (hR : MovesFreely B R)
include hR

theorem handleWftEvent_moves (e : HistoryEvent) : Moves R (fun _ => True) (handleWftEvent e) := by
  apply Moves.get
  intro m
  split
  · exact Moves.throw trivial m
  split
  · split
    · exact Moves.modify (fun m => hR.taskStarted m _ _ _) m
    · exact Moves.throw trivial m
  split
  · exact Moves.throw trivial m
  split
  · exact Moves.throw trivial m
  split
  · exact Moves.modify (fun m => hR.taskStarted m _ _ _) m
  · exact Moves.throw trivial m

variable [IsTrans _ R]

theorem handleEvent_moves (e : HistoryEvent) (lastTask : Bool) (next : Option HistoryEvent) :
    Moves R (fun _ => True) (handleEvent B e lastTask next) := by
  refine Moves.bind (hR.still (by simp)) fun _ => ?_
  split
  · exact handleWftEvent_moves hR e
  · exact Moves.get fun m => (react_by (hR.absorb (.handleEvent e _ lastTask next))).weaken m

theorem applyEvent_moves (hasFinalEvent : Bool) (e : HistoryEvent) (next : Option HistoryEvent) :
    Moves R (fun _ => True) (applyEvent B hasFinalEvent e next) := by
  apply Moves.get
  intro m
  split
  · exact Moves.throw trivial m
  · refine Moves.bind (hR.still (by simp)) (fun _ => Moves.get fun m' => ?_) m
    exact Moves.bind (react_by (hR.absorb (.processMessages e _))).weaken
      (fun _ => (handleEvent_moves hR e hasFinalEvent next).bind fun _ => hR.still (by simp)) m'

/-- The events of a sequence. -/
theorem applyEvents_moves (hasFinalEvent : Bool) :
    ∀ events : List HistoryEvent, Moves R (fun _ => True) (applyEvents B hasFinalEvent events)
  | [] => .pure ()
  | e :: events => (applyEvent_moves hR hasFinalEvent e events.head?).bind fun _ =>
    applyEvents_moves hasFinalEvent events

theorem applyTaken_moves (events : List HistoryEvent) (hasFinalEvent : Bool) (lastHandled : Int) :
    Moves R (fun _ => True) (applyTaken B events hasFinalEvent lastHandled) :=
  Moves.bind (.modify fun _ => hR.update (.wftApplied events) rfl) fun _ =>
    (applyEvents_moves hR hasFinalEvent events).bind fun _ =>
      (lookAhead_by hR.movesOn lastHandled).weaken.bind fun _ => .pure _

/-- The next sequence. -/
theorem applyNextWftFromHistory_moves : Moves R (fun _ => True) (applyNextWftFromHistory B) := by
  apply Moves.get
  intro m
  split
  · exact Moves.bind (hR.still (by simp)) (fun _ => .pure 0) m
  · refine Moves.bind (hR.still (by simp)) (fun _ => ?_) m
    unfold applyWft
    split
    · exact applyTaken_moves hR _ _ _
    · exact applyTaken_moves hR _ _ _
    · exact Moves.throw trivial
    · exact Moves.throw trivial

theorem newHistoryFromServer_moves (update : HistoryUpdate) : Moves R (fun _ => True) (newHistoryFromServer B update) :=
  Moves.bind (hR.still (by simp)) fun _ => (applyNextWftFromHistory_moves hR).bind fun _ => .pure _

end

abbrev Reacts {α : Type} (x : MOp σ α) : Prop := Moves Quiet WFMachinesError.NotFetch x

/-- Quiet, and the inner state moves along `r`. -/
def QuietBy (r : σ → σ → Prop) (m m' : WorkflowMachines σ) : Prop := Quiet m m' ∧ r m.inner m'.inner

/-- Commands are quiet. -/
theorem movesOn_quiet : MovesOn B Quiet := ⟨fun _ m => absorb_quiet m _,
    fun m _ _ _ _ _ _ _ => quiet_with m _ _ _ _ _ _⟩

section

variable {r : σ → σ → Prop} [Std.Refl r]

instance : Std.Refl (QuietBy r) := ⟨fun m => ⟨.rfl, refl m.inner⟩⟩

instance [IsTrans σ r] : IsTrans (WorkflowMachines σ) (QuietBy r) :=
  ⟨fun _ _ _ h h' => ⟨h.1.trans h'.1, IsTrans.trans _ _ _ h.2 h'.2⟩⟩

theorem movesOn_quietBy (hr : B.Respects r) : MovesOn B (QuietBy r) :=
  ⟨fun hf m => ⟨absorb_quiet m _, hr.answers hf m.inner⟩,
    fun m _ _ _ _ _ _ hs => ⟨quiet_with m _ _ _ _ _ _, hr.updates hs⟩⟩

end

/-! ## Applying events -/

/-- No task known to be started lies beyond `n`. -/
structure Below (n : Int) (m : WorkflowMachines σ) : Prop where
  current : m.currentStartedEventId ≤ n
  tasks : ∀ p ∈ m.workflowTasks, ∀ i, p.2.state = .started i → i ≤ n

theorem Below.mono {n' : Int} (h : Below n m) (hn : n ≤ n') : Below n' m :=
  ⟨Int.le_trans h.current hn, fun p hp i hi => Int.le_trans (h.tasks p hp i hi) hn⟩

theorem Below.of_eq (h : Below n m) (hc : m'.currentStartedEventId = m.currentStartedEventId)
    (ht : m'.workflowTasks = m.workflowTasks) : Below n m' :=
  ⟨hc ▸ h.current, ht ▸ h.tasks⟩

/-- The task that a machine says is started. -/
theorem handleEvent_started (h : wt.handleEvent e = .ok (wt', r)) :
    (∀ i, wt'.state = .started i → i = e.eventId) ∧
      ∀ i, r.triggerWftTaskStarted = some i → i ≤ e.eventId ∨ wt.state = .started i := by
  unfold WorkflowTaskMachine.handleEvent at h
  split at h
  · cases h; exact ⟨nofun, nofun⟩
  · cases h
    refine ⟨fun i hi => by cases hi; rfl, fun i hi => Or.inl ?_⟩
    simp only [Option.ite_none_left_eq_some, Option.some.injEq, Int.not_lt] at hi
    omega
  · split at h
    · cases h; exact ⟨nofun, nofun⟩
    · cases h
  · cases h; exact ⟨nofun, nofun⟩
  · rename_i hs _
    cases h
    exact ⟨nofun, fun i hi => Or.inr (by cases hi; exact hs)⟩
  · cases h; exact ⟨nofun, nofun⟩
  · cases h; exact ⟨nofun, nofun⟩
  · cases h

variable {sid : Int} {hasFinalEvent fin : Bool} {u u' : HistoryUpdate}

/-- It is the one of the event. -/
theorem taskStarted_below (h : wt.handleEvent e = .ok (wt', r)) (hm : Below n m) (hn : n ≤ e.eventId)
    (hwt : ∀ i, wt.state = .started i → i ≤ e.eventId) : Below e.eventId (m.taskStarted sid wt' r) := by
  obtain ⟨hs, ht⟩ := handleEvent_started h
  constructor
  · cases hr : r.triggerWftTaskStarted with
    | none => simpa [taskStarted, hr] using Int.le_trans hm.current hn
    | some i => simpa [taskStarted, hr] using (ht i hr).elim id (hwt i)
  · intro p hp i hi
    rcases List.mem_cons.mp hp with rfl | hp
    · exact Int.le_of_eq (hs i hi)
    · exact Int.le_trans (hm.tasks p (List.mem_of_mem_filter hp) i hi) hn

/-- An event also changes the tasks that are known. -/
structure Touched (e : HistoryEvent) (m m' : WorkflowMachines σ) : Prop extends Steady m m' where
  lastProcessed : m'.lastProcessedEvent = m.lastProcessedEvent
  replaying : m'.replaying = m.replaying
  terminal : m'.haveSeenTerminalEvent = m.haveSeenTerminalEvent
  below : ∀ n, Below n m → n ≤ e.eventId → Below e.eventId m'

theorem Quiet.touched (h : Quiet m m') : Touched e m m' :=
  ⟨h.toSteady, h.lastProcessed, h.replaying, h.terminal, fun _ hb hn => (hb.of_eq h.current h.tasks).mono hn⟩

theorem taskStarted_touched (h : wt.handleEvent e = .ok (wt', r))
    (hwt : ∀ n, Below n m → ∀ i, wt.state = .started i → i ≤ n) : Touched e m (m.taskStarted sid wt' r) := by
  refine ⟨⟨rfl, rfl, ?_⟩, rfl, rfl, rfl, fun n hb hn => ?_⟩
  · unfold taskStarted
    split
    · exact List.prefix_append _ _
    · exact List.prefix_rfl
  · exact taskStarted_below h hb hn (fun i hi => Int.le_trans (hwt n hb i hi) hn)

theorem handleWftEvent_spec (e : HistoryEvent) (m : WorkflowMachines σ) :
    Post (fun _ m' => Touched e m m') (fun err _ => err.NotFetch) (exec (handleWftEvent e) m) := by
  unfold handleWftEvent
  simp only [exec_bind, exec_get, andThen_ok]
  by_cases ha : e.attributes.isNone
  · rw [if_pos ha]; exact nofun
  rw [if_neg ha]
  by_cases hs : e.eventType = .workflowTaskScheduled
  · rw [if_pos hs]
    cases hh : (WorkflowTaskMachine.mk m.nextStartedEventId .created).handleEvent e with
    | error err => exact ofMachine_ne_needFetch err
    | ok p => exact taskStarted_touched hh (fun _ _ _ h => nomatch h)
  rw [if_neg hs]
  cases e.scheduledEventId with
  | none => exact nofun
  | some sid =>
    cases hf : m.workflowTasks.find? (·.1 = sid) with
    | none => simp only [hf]; exact nofun
    | some q =>
      cases hh : q.2.handleEvent e with
      | error err => simp only [hf, hh]; exact ofMachine_ne_needFetch err
      | ok p =>
        simp only [hf, hh]
        exact taskStarted_touched hh (fun n hb i hi => hb.tasks q (List.mem_of_find?_eq_some hf) i hi)

/-- What applying the events of a sequence does. -/
structure Applied (B : Behaviour σ) (hasFinalEvent : Bool) (events : List HistoryEvent) (m m' : WorkflowMachines σ) :
    Prop extends Steady m m' where
  contig : Contig m.lastProcessedEvent events
  lastProcessed : m'.lastProcessedEvent = m.lastProcessedEvent + events.length
  replaying : m'.replaying = (m.replaying && !events.any (m.endsReplay hasFinalEvent))
  terminal : m'.haveSeenTerminalEvent = (m.haveSeenTerminalEvent || events.any (·.isFinalWfExecutionEvent))
  below : Below m.lastProcessedEvent m → Below m'.lastProcessedEvent m'
  produced : (∃ e ∈ events, B.Produces e) → m'.jobs ≠ []

theorem Steady.endsReplay (h : Steady m m') : m'.endsReplay = m.endsReplay := by
  funext hasFinalEvent e
  simp only [WorkflowMachines.endsReplay, h.legacy, h.history]

theorem Steady.jobs_ne_nil (h : Steady m m') (hm : m.jobs ≠ []) : m'.jobs ≠ [] :=
  fun h0 => hm (List.prefix_nil.mp (h0 ▸ h.jobs))

/-- One event after the other. -/
theorem Applied.cons (h : Applied B hasFinalEvent [e] m₁ m₂) (h' : Applied B hasFinalEvent events m₂ m₃) :
    Applied B hasFinalEvent (e :: events) m₁ m₃ where
  toSteady := h.toSteady.trans h'.toSteady
  contig := by
    have hlast := h.lastProcessed
    exact ⟨h.contig.1, by simpa [hlast] using h'.contig⟩
  lastProcessed := by
    rw [h'.lastProcessed, h.lastProcessed]
    simp only [List.length_cons, List.length_nil]
    omega
  replaying := by
    simp only [h'.replaying, h.replaying, List.any_cons, List.any_nil, h.toSteady.endsReplay, Bool.not_or,
      Bool.or_false, Bool.and_assoc]
  terminal := by
    simp only [h'.terminal, h.terminal, List.any_cons, List.any_nil, Bool.or_false, Bool.or_assoc]
  below hb := h'.below (h.below hb)
  produced := by
    rintro ⟨x, hx, hp⟩
    rcases List.mem_cons.mp hx with rfl | hx
    · exact h'.toSteady.jobs_ne_nil (h.produced ⟨x, List.mem_singleton_self x, hp⟩)
    · exact h'.produced ⟨x, hx, hp⟩

/-- What handling an event does. -/
theorem handleEvent_spec (e : HistoryEvent) (lastTask : Bool) (next : Option HistoryEvent) (m : WorkflowMachines σ) :
    Post (fun _ m' =>
        Touched e { m with haveSeenTerminalEvent := m.haveSeenTerminalEvent || e.isFinalWfExecutionEvent } m' ∧
          (B.Produces e → m'.jobs ≠ []))
      (fun err _ => err.NotFetch) (exec (handleEvent B e lastTask next) m) := by
  unfold handleEvent
  simp only [exec_bind, exec_modify, andThen_ok]
  generalize { m with haveSeenTerminalEvent := m.haveSeenTerminalEvent || e.isFinalWfExecutionEvent } = m₁
  by_cases hw : e.isWftEvent
  · rw [if_pos hw]
    exact (handleWftEvent_spec e m₁).imp (fun _ m' h => ⟨h, fun hp => by rw [hp.1] at hw; cases hw⟩) (fun _ _ h => h)
  · rw [if_neg hw]
    simp only [exec_bind, exec_get, andThen_ok, exec_react]
    cases herr : (B.handleEvent m₁.inner e m₁.replaying lastTask next).error with
    | some err => exact ofMachine_ne_needFetch err
    | none =>
      refine ⟨(absorb_quiet _ _).touched, fun hp => ?_⟩
      have hjobs := (hp.2 m₁.inner m₁.replaying lastTask next).resolve_right (by simp [herr])
      exact List.append_ne_nil_of_right_ne_nil _ hjobs

theorem applyEvent_spec (hasFinalEvent : Bool) (e : HistoryEvent) (next : Option HistoryEvent)
    (m : WorkflowMachines σ) :
    Post (fun _ m' => Applied B hasFinalEvent [e] m m') (fun err _ => err.NotFetch)
      (exec (applyEvent B hasFinalEvent e next) m) := by
  unfold applyEvent
  simp only [exec_bind, exec_get, andThen_ok]
  by_cases hid : e.eventId = m.lastProcessedEvent + 1
  swap
  · rw [if_pos hid]; exact nofun
  rw [if_neg (fun h => h hid)]
  rw [exec_modify_bind, exec_get_bind]
  refine ((react_by fun m => absorb_quiet m _).post _).bind fun _ m₁ hq =>
    (handleEvent_spec e hasFinalEvent next m₁).bind fun _ m₂ h => ?_
  obtain ⟨ht, hp⟩ := h
  refine ⟨⟨ht.history.trans hq.history, ht.legacy.trans hq.legacy, hq.jobs.trans ht.jobs⟩, ⟨hid, trivial⟩, hid, ?_,
    ?_, fun hb => ?_, ?_⟩
  · simpa using ht.replaying.trans hq.replaying
  · simpa [hq.terminal] using ht.terminal
  · have hb' : Below m.lastProcessedEvent m₁ := hb.of_eq hq.current hq.tasks
    exact { ht.below m.lastProcessedEvent { hb' with } (by omega) with }
  · rintro ⟨x, hx, hprod⟩
    exact hp (List.mem_singleton.mp hx ▸ hprod)

/-- **What applying the events of a sequence does.** -/
theorem applyEvents_spec (hasFinalEvent : Bool) : ∀ (events : List HistoryEvent) (m : WorkflowMachines σ),
    Post (fun _ m' => Applied B hasFinalEvent events m m') (fun err _ => err.NotFetch)
      (exec (applyEvents B hasFinalEvent events) m)
  | [], m => ⟨.rfl, trivial, by simp, by simp, by simp, id, by simp⟩
  | e :: events, m => by
    unfold applyEvents
    exact (applyEvent_spec hasFinalEvent e events.head? m).bind fun _ m₁ h =>
      (applyEvents_spec hasFinalEvent events m₁).imp (fun _ _ h' => h.cons h') (fun _ _ h' => h')

theorem Applied.of_quiet {m₀ : WorkflowMachines σ} (h₁ : Quiet m₀ m₁) (h : Applied B hasFinalEvent events m₁ m₂)
    (h₂ : Quiet m₂ m₃) : Applied B hasFinalEvent events m₀ m₃ where
  toSteady := (h₁.toSteady.trans h.toSteady).trans h₂.toSteady
  contig := h₁.lastProcessed ▸ h.contig
  lastProcessed := by rw [h₂.lastProcessed, h.lastProcessed, h₁.lastProcessed]
  replaying := by rw [h₂.replaying, h.replaying, h₁.replaying, h₁.toSteady.endsReplay]
  terminal := by rw [h₂.terminal, h.terminal, h₁.terminal]
  below hb := by
    rw [h₂.lastProcessed]
    exact (h.below (by rw [h₁.lastProcessed]; exact hb.of_eq h₁.current h₁.tasks)).of_eq h₂.current h₂.tasks
  produced he := h₂.toSteady.jobs_ne_nil (h.produced he)

theorem applyTaken_spec (events : List HistoryEvent) (hasFinalEvent : Bool) (lastHandled : Int)
    (m : WorkflowMachines σ) :
    Post (fun n m' => n = events.length ∧ Applied B hasFinalEvent events
        { m with replaying := if events.isEmpty then m.preparingLegacyQuery else m.replaying } m')
      (fun err _ => err.NotFetch) (exec (applyTaken B events hasFinalEvent lastHandled) m) := by
  unfold applyTaken
  refine (applyEvents_spec hasFinalEvent events _).bind fun _ m₁ h => ((lookAhead_by movesOn_quiet _).post m₁).bind
    fun _ m₂ hq => ⟨rfl, .of_quiet ?_ h hq⟩
  exact ⟨⟨rfl, rfl, List.prefix_rfl⟩, rfl, rfl, rfl, rfl, rfl⟩

/-- What applying the next sequence did. -/
inductive Outcome (B : Behaviour σ) (m m' : WorkflowMachines σ) : Nat → Prop
  | idle : m.haveSeenTerminalEvent = true ∨ m.lastHistoryFromServer.hasLastWft = true →
      Applied B true [] { m with replaying := m.preparingLegacyQuery } m' → Outcome B m m' 0
  /-- The next sequence, or what remains of the last update, was taken and applied. -/
  | took {c rest : List HistoryEvent} : m.haveSeenTerminalEvent = false → c ≠ [] →
      m.lastHistoryFromServer.events = c ++ rest →
      seqEnd m.lastHistoryFromServer.events = some (c.length - 1) ∨
        m.lastHistoryFromServer.hasLastWft = true ∧ seqEnd m.lastHistoryFromServer.events = none ∧ rest = [] →
      Applied B (rest.isEmpty && m.lastHistoryFromServer.hasLastWft) c
        { m with lastHistoryFromServer := { m.lastHistoryFromServer with events := rest } } m' →
      Outcome B m m' c.length

/-- The update has no more to offer, and is not the last. -/
def Exhausted (m : WorkflowMachines σ) : Prop :=
  m.lastHistoryFromServer.hasLastWft = false ∧ seqEnd m.lastHistoryFromServer.events = none ∧
    m.lastHistoryFromServer.events.length ≤ 1

theorem Exhausted.of_eq (h : Exhausted m') (hh : m'.lastHistoryFromServer = m.lastHistoryFromServer) : Exhausted m := by
  unfold Exhausted at ⊢
  rwa [← hh]

section

variable {b : Int} {m : WorkflowMachines σ} (hcur : m.currentStartedEventId ≤ b) (hle : m.lastProcessedEvent ≤ b)
  (hc : Contig b m.lastHistoryFromServer.events)
include hle hc

/-- A sequence that is complete is taken. -/
theorem took_spec {i : Nat} (hterm : m.haveSeenTerminalEvent = false) (hi : i < m.lastHistoryFromServer.events.length)
    (hseq : seqEnd m.lastHistoryFromServer.events = some i ∨
      m.lastHistoryFromServer.hasLastWft = true ∧ seqEnd m.lastHistoryFromServer.events = none ∧
        m.lastHistoryFromServer.events.drop (i + 1) = []) (lastHandled : Int) :
    Post (fun n m' => Outcome B m m' n) (fun err _ => err = .fatal .needFetch → Exhausted m)
      (exec (applyTaken B ((m.lastHistoryFromServer.events.take (i + 1)).filter
        (fun e => e.eventId > m.lastProcessedEvent))
          ((m.lastHistoryFromServer.events.drop (i + 1)).isEmpty && m.lastHistoryFromServer.hasLastWft) lastHandled)
        { m with lastHistoryFromServer :=
            { m.lastHistoryFromServer with events := m.lastHistoryFromServer.events.drop (i + 1) } }) := by
  have hfilter : (m.lastHistoryFromServer.events.take (i + 1)).filter (fun e => e.eventId > m.lastProcessedEvent) =
      m.lastHistoryFromServer.events.take (i + 1) := by
    rw [List.filter_eq_self]
    intro e he
    have := hc.lt e (List.mem_of_mem_take he)
    exact decide_eq_true (by omega)
  have hlen : (m.lastHistoryFromServer.events.take (i + 1)).length = i + 1 := by rw [List.length_take]; omega
  have hne : m.lastHistoryFromServer.events.take (i + 1) ≠ [] := List.ne_nil_of_length_pos (by omega)
  have hempty : (m.lastHistoryFromServer.events.take (i + 1)).isEmpty = false := by simpa using hne
  rw [hfilter]
  refine (applyTaken_spec _ _ _ _).imp ?_ (fun err _ h h' => absurd h' h)
  rintro n m' ⟨rfl, h⟩
  refine .took hterm hne (List.take_append_drop _ _).symm ?_ ?_
  · rw [hlen]; exact hseq
  · simpa only [hempty, Bool.false_eq_true, if_false] using h

include hcur

/-- **Applying the next sequence**, for an update with contiguous events. -/
theorem applyNextWftFromHistory_spec :
    Post (fun n m' => Outcome B m m' n) (fun err _ => err = .fatal .needFetch → Exhausted m)
      (exec (applyNextWftFromHistory B) m) := by
  unfold applyNextWftFromHistory
  rw [exec_get_bind]
  by_cases hterm : m.haveSeenTerminalEvent = true
  · rw [if_pos hterm]
    exact .idle (Or.inl hterm) ⟨.rfl, trivial, by simp, by simp, by simp, fun hb => hb, by simp⟩
  rw [if_neg hterm]
  rw [Bool.not_eq_true] at hterm
  cases hs : seqEnd m.lastHistoryFromServer.events with
  | some i =>
    simp only [take_of_some hc hcur hs, HistoryUpdate.buildNextWft, exec_bind, exec_modify, andThen_ok, applyWft]
    exact took_spec hle hc hterm (seqEnd_lt _ _ hs) (Or.inl hs) _
  | none =>
    cases hl : m.lastHistoryFromServer.hasLastWft with
    | false =>
      simp only [take_of_none_of_not_last hc hcur hs hl, exec_bind, exec_modify, andThen_ok]
      by_cases h1 : m.lastHistoryFromServer.events.length ≤ 1
      · rw [if_pos h1]
        exact fun _ => ⟨hl, hs, h1⟩
      · rw [if_neg h1]
        intro h
        cases h
    | true =>
      simp only [take_of_none hc hcur hs hl, exec_bind, exec_modify, andThen_ok]
      by_cases h1 : m.lastHistoryFromServer.events.length ≤ 1
      · rw [if_pos h1]
        refine (applyTaken_spec _ _ _ _).imp ?_ (fun err _ h h' => absurd h' h)
        rintro n m' ⟨rfl, h⟩
        exact .idle (Or.inr hl) h
      · rw [if_neg h1]
        exact took_spec hle hc hterm (by omega) (Or.inr ⟨hl, hs, List.drop_eq_nil_of_le (by omega)⟩) _

end

end WorkflowMachines

end SdkCore
