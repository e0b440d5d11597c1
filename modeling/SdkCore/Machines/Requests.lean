import SdkCore.Machines.Applying

/-!
# What machines ask for

The machines never ask to remove a run from the cache, and only start and cancel local activities (`LawfulBehaviour`).
So no activation of the workflow manager is an eviction (`getNextActivation_stays`).
-/

namespace SdkCore

open Op

def Job.isRemoveFromCache : Job → Bool
  | removeFromCache _ => true
  | _ => false

def WorkflowActivation.evicts (act : WorkflowActivation) : Bool := act.jobs.any (·.isRemoveFromCache)

theorem WorkflowActivation.isOnlyEviction_eq_false {act : WorkflowActivation} (h : act.evicts = false) :
    act.isOnlyEviction = false := by
  unfold isOnlyEviction
  split
  · next hj => simp [evicts, hj, Job.isRemoveFromCache] at h
  · rfl

/-- The reactions that there are. -/
inductive Behaviour.Reacting {σ : Type} (B : Behaviour σ) : Reaction σ → Prop
  | processMessages (s : σ) (e : HistoryEvent) (replaying : Bool) : Reacting B (B.processMessages s e replaying)
  | handleEvent (s : σ) (e : HistoryEvent) (replaying lastTask : Bool) (next : Option HistoryEvent) :
    Reacting B (B.handleEvent s e replaying lastTask next)
  | peekEvents (s : σ) (events : List HistoryEvent) : Reacting B (B.peekEvents s events).1
  | handleProtocolMessage (s : σ) (n : Nat) : Reacting B (B.handleProtocolMessage s n)
  | tryResolveWithDat (s : σ) (seq : Nat) : Reacting B (B.tryResolveWithDat s seq)
  | localResolution (s : σ) (res : LocalResolution) : Reacting B (B.localResolution s res)
  | encounteredNonReplayWft (s : σ) : Reacting B (B.encounteredNonReplayWft s)
  | handleDrivenResult (s : σ) (c : WFCommand) : Reacting B (B.handleDrivenResult s c)

/-- Requests of machines. -/
inductive LocalActRequest.OfMachine : LocalActRequest → Prop
  | new (seq : Nat) : OfMachine (.new seq)
  | cancel (seq : Nat) : OfMachine (.cancel seq)

/-- Machines that leave evictions to the run. -/
structure LawfulBehaviour (σ : Type) extends Behaviour σ where
  jobs : ∀ ρ, toBehaviour.Reacting ρ → ∀ job ∈ ρ.jobs, job.isRemoveFromCache = false
  requests : ∀ s, ∀ req ∈ (takeAllReqs s).1, req.OfMachine

namespace WorkflowMachines

variable {σ : Type}

/-- No job removes the run. -/
def Stays (m : WorkflowMachines σ) : Prop := ∀ job ∈ m.jobs, job.isRemoveFromCache = false

theorem Stays.append {l : List Job} {m n : WorkflowMachines σ} (h : Stays m) (hm : n.jobs = m.jobs ++ l)
    (hj : ∀ job ∈ l, job.isRemoveFromCache = false) : Stays n := by
  intro job hmem
  rw [hm] at hmem
  rcases List.mem_append.mp hmem with hmem | hmem
  · exact h job hmem
  · exact hj job hmem

/-- Whatever is applied keeps it so. -/
theorem movesFreely_stays (B : LawfulBehaviour σ) : MovesFreely B.toBehaviour (Implies (Stays (σ := σ))) where
  absorb hf m hm := hm.append rfl (B.jobs _ (by cases hf <;> constructor))
  update _ hj hm := by rwa [Stays, hj]
  taskStarted m sid wt r hm := by
    refine hm.append (l := if r.workflowReset then [.other] else []) ?_ ?_
    · unfold taskStarted
      split <;> simp
    · split <;> simp [Job.isRemoveFromCache]

theorem react_stays (B : LawfulBehaviour σ) {f : σ → Reaction σ} (hf : B.toBehaviour.Answers f) :
    Keeps Stays (react f) :=
  (react_by ((movesFreely_stays B).absorb hf)).weaken

end WorkflowMachines

/-! ## The workflow manager -/

namespace WorkflowManager

open WorkflowMachines

variable {σ : Type} (B : LawfulBehaviour σ)

abbrev Stays (w : WorkflowManager σ) : Prop := w.machines.Stays

theorem onMachines_stays {α : Type} {x : MOp σ α} (h : Keeps WorkflowMachines.Stays x) : Keeps Stays (onMachines x) :=
  h.zoom (fun _ h => h) (fun _ _ _ h => h)

theorem modify_stays {f : WorkflowManager σ → WorkflowManager σ}
    (h : ∀ w, (f w).machines = w.machines) : Keeps Stays (modify f : WOp σ Unit) :=
  .modify fun w hw job hj => hw job (h w ▸ hj)

theorem localResolutions_stays : ∀ rs : List LocalResolution,
    Keeps WorkflowMachines.Stays (localResolutions B.toBehaviour rs)
  | [] => .pure ()
  | res :: rs => (react_stays B (.localResolution res)).bind fun _ => localResolutions_stays rs

theorem applyDeferred_stays : Keeps Stays (applyDeferredLocalResolutions B.toBehaviour) := by
  refine .get fun w => ?_
  split
  · exact Moves.pure () w
  · exact Moves.bind (modify_stays (by intro; rfl)) (fun _ => onMachines_stays (localResolutions_stays B _)) w

variable {m : WorkflowMachines σ} {w : WorkflowManager σ}

theorem drainQueuedLocalActivities_stays (h : m.Stays) :
    (m.drainQueuedLocalActivities B.toBehaviour).2.Stays ∧
      .invalidateRun ∉ (m.drainQueuedLocalActivities B.toBehaviour).1 := by
  unfold WorkflowMachines.drainQueuedLocalActivities
  split
  · exact ⟨h, by simp⟩
  · refine ⟨h, fun hmem => ?_⟩
    cases B.requests _ _ hmem

/-- No activation is an eviction. -/
theorem getWfActivation_stays (h : m.Stays) : m.getWfActivation.2.Stays ∧ m.getWfActivation.1.evicts = false := by
  refine ⟨fun _ hj => absurd hj (by simp [WorkflowMachines.getWfActivation]), ?_⟩
  simpa [WorkflowActivation.evicts, WorkflowMachines.getWfActivation] using fun job hj => h job hj

abbrev Activates (r : Except WFMachinesError WorkflowActivation × WorkflowManager σ) : Prop :=
  Post (fun act w => w.Stays ∧ act.evicts = false) (fun _ w => w.Stays) r

theorem exec_getWfActivation_activates (h : w.Stays) : Activates (exec getWfActivation w) :=
  getWfActivation_stays h

theorem getNextActivation_stays (h : w.Stays) : Activates (exec (getNextActivation B.toBehaviour) w) := by
  refine (exec_getWfActivation_activates h).bind fun act w h => ?_
  have hrest : ∀ (act : WorkflowActivation) (w : WorkflowManager σ), w.Stays ∧ act.evicts = false →
      Activates (exec (do
        modify fun w => { w with awaitingActivationCompletion := !act.jobs.isEmpty }
        return act : WOp σ WorkflowActivation) w) := fun act w h => h
  split
  · refine Post.bind (Post.bind (Keeps.holds
      (onMachines_stays (applyNextWftFromHistory_moves (movesFreely_stays B))) h.1)
      fun _ w h => exec_getWfActivation_activates h) hrest
  · exact hrest act w h

theorem newWorkFromServer_stays (update : HistoryUpdate) (messages : List Nat) (preparingLegacyQuery : Bool)
    (h : w.Stays) : Activates (exec (newWorkFromServer B.toBehaviour update messages preparingLegacyQuery) w) := by
  have hnew : Keeps Stays (onMachines
      (WorkflowMachines.newWorkFromServer B.toBehaviour update messages preparingLegacyQuery)) :=
    onMachines_stays (.bind (.modify fun _ => (movesFreely_stays B).update (.receiveMessages messages) rfl) fun _ =>
      newHistoryFromServer_moves (movesFreely_stays B) update)
  refine (Keeps.holds hnew h).bind fun _ w h => ?_
  refine (Keeps.holds (modify_stays (by intro; rfl)) h).bind fun _ w h => ?_
  refine (Keeps.holds (applyDeferred_stays B) h).bind fun _ w h => ?_
  exact getNextActivation_stays B h

theorem notifyOfLocalResult_stays (res : LocalResolution) : Keeps Stays (notifyOfLocalResult B.toBehaviour res) := by
  refine .get fun w => ?_
  split
  · exact modify_stays (fun _ => rfl) w
  · exact onMachines_stays (react_stays B (.localResolution res)) w

theorem applyTasks_stays : ∀ fuel : Nat, Keeps WorkflowMachines.Stays (applyTasks B.toBehaviour fuel)
  | 0 => .pure ()
  | fuel + 1 => by
    refine (applyNextWftFromHistory_moves (movesFreely_stays B)).bind fun n => .get fun m => ?_
    split
    · exact Moves.pure () m
    · exact applyTasks_stays fuel m

theorem applyCompletion_stays (commands : List WFCommand) (page : Option HistoryUpdate) (amBroken : Bool) :
    Keeps Stays (applyCompletion B.toBehaviour commands page amBroken) := by
  have hpush : Keeps Stays (pushCommandsAndIterate B.toBehaviour commands) :=
    (onMachines_stays (iterateMachines_by (movesFreely_stays B).movesOn commands).weaken).bind fun _ =>
      .bind (modify_stays (by intro; rfl)) fun _ => applyDeferred_stays B
  have hready : Keeps Stays (applyNextTaskIfReady B.toBehaviour) := by
    refine .get fun w => ?_
    simp only
    split
    · exact Moves.pure () w
    · exact onMachines_stays (applyTasks_stays B _) w
  have hlast : Keeps Stays (if amBroken then pure () else applyNextTaskIfReady B.toBehaviour : WOp σ Unit) := by
    split
    · exact .pure ()
    · exact hready
  refine hpush.bind fun _ => ?_
  cases page with
  | some update =>
    exact (onMachines_stays (newHistoryFromServer_moves (movesFreely_stays B) update)).bind fun _ => hlast
  | none =>
    have hpure : Keeps Stays (pure () : WOp σ Unit) := .pure ()
    exact hpure.bind fun _ => hlast

end WorkflowManager

end SdkCore
