import SdkCore.Workflow.WorkflowFuture

/-!
# Every activation is answered with its own commands

`handling` is the activation that was taken and not answered, with the calls of the instance since. Every completion
answers it (`activations_answered`).
-/

namespace SdkCore.NativeWorkflow

/-! ## What is expected of a run -/

def jobAnswer : Option ActivationVariant → ActivationJobResult → List WorkflowCommand
  | some (.doUpdate protocolInstanceId), .startedRoutine _ _ => [.updateResponse protocolInstanceId .accepted]
  | some (.doUpdate protocolInstanceId), .updateRejected failure =>
    [.updateResponse protocolInstanceId (.rejected failure)]
  | some (.queryWorkflow queryId), .queryResponse result => [.respondToQuery queryId result]
  | _, _ => []

/-- The answer of a routine that is finished. -/
def completionAnswer : RoutineCompletion → List WorkflowCommand
  | .update completion => [WorkflowFuture.updateCommand completion]
  | .main (.terminal outcome) => [WorkflowFuture.terminalCommand outcome]
  | _ => []

namespace Entry

def answers : Entry → List WorkflowCommand
  | .activated a (.ok results) _ => (a.jobs.zip results).flatMap fun p => jobAnswer p.1 p.2
  | .polled (.ok r) _ => r.completion.toList.flatMap completionAnswer
  | _ => []

def pushed : Entry → List WorkflowCommand
  | .activated _ _ pushed | .polled _ pushed => pushed
  | _ => []

end Entry

/-- The activation that was taken and not answered, and the calls since. -/
def handling : List Entry → Option (WorkflowActivation × List Entry)
  | [] => none
  | .taken a :: _ => some (a, [])
  | .sent _ :: _ => none
  | e :: before => (handling before).map fun h => (h.1, h.2 ++ [e])

def taken : List Entry → List WorkflowActivation
  | [] => []
  | .taken a :: before => taken before ++ [a]
  | _ :: before => taken before

def WorkflowActivationCompletion.isFailed (c : WorkflowActivationCompletion) : Bool :=
  match c.status with
  | .successful _ => false
  | .failed _ _ => true

def lastFailed : List Entry → Bool
  | [] => false
  | .sent c :: _ => c.isFailed
  | _ :: before => lastFailed before

/-- The completion has the answers and commands of its activation. -/
def Answers (before : List Entry) (c : WorkflowActivationCompletion) : Prop :=
  ∃ a es, handling before = some (a, es) ∧ c.runId = a.runId ∧
    ∀ commands, c.status = .successful commands → commands = es.flatMap Entry.answers ++ es.flatMap Entry.pushed

/-- One activation at a time is taken, handled and answered. -/
def Expected (before : List Entry) : Entry → Prop
  | .taken _ => handling before = none
  | .activated a _ _ => handling before = some (a, [])
  | .polled _ _ => handling before ≠ none
  | .sent c => Answers before c

/-- An eviction has no other jobs. -/
def EvictsAlone (a : WorkflowActivation) : Prop := some .removeFromCache ∈ a.jobs → a.isOnlyEviction = true

namespace WorkflowFuture

/-- Evictions are alone, and a failure is followed by an eviction. -/
def CoreEvicts (s : WorkflowFuture) : Input → Prop
  | .deliver a => EvictsAlone a
  | .next => s.inFlightActivation = none → lastFailed s.log = true →
    s.incomingActivations.head?.all (·.isOnlyEviction) = true
  | _ => True

/-- The eviction was answered, or the channel is empty. -/
def EndsBy (s : WorkflowFuture) : Termination → Prop
  | .evicted => ∃ a c before, s.log = .sent c :: .taken a :: before ∧ a.isOnlyEviction = true
  | .channelLost => s.closed = true ∧ s.incomingActivations = [] ∧ handling s.log = none

/-! ## The invariant -/

/-- What was delivered was taken or waits. -/
structure Base (s : WorkflowFuture) : Prop where
  delivered : s.delivered = taken s.log ++ s.incomingActivations
  expected : Each Expected s.log
  alone : ∀ a ∈ s.incomingActivations, EvictsAlone a

/-- Nothing is handled, and only a failed task left commands in the host. -/
structure Idle (s : WorkflowFuture) : Prop where
  handling : handling s.log = none
  commands : lastFailed s.log = false → s.activationCmds = []

/-- The activation in flight is the one that is handled, with its answers. -/
structure Owes (s : WorkflowFuture) (f : InFlightActivation) (a : WorkflowActivation) (es : List Entry) : Prop where
  handling : handling s.log = some (a, es)
  runId : f.runId = a.runId
  answers : f.commands = es.flatMap Entry.answers
  pushed : s.activationCmds = es.flatMap Entry.pushed

/-- What holds where the future is. -/
def Here (s : WorkflowFuture) : Phase → Prop
  | .pending | .activations => s.Idle
  | .activating a contexts shouldPoll =>
    handling s.log = some (a, []) ∧ s.activationCmds = [] ∧ translateActivation a.jobs = .ok (contexts, shouldPoll)
  | .driving f _ => ∃ a es, s.Owes f a es
  | .ended t => s.EndsBy t
  | .panicked => False

structure Inv (s : WorkflowFuture) : Prop where
  base : s.Base
  here : s.inFlightActivation = none → s.Here s.phase
  inFlight : ∀ f, s.inFlightActivation = some f →
    (s.phase = .pending ∨ s.phase = .activations) ∧ ∃ a es, s.Owes f a es

variable {s s' : WorkflowFuture} {f : InFlightActivation} {a : WorkflowActivation} {es : List Entry}

/-- A completion that answers is sent. -/
theorem Base.send {c : WorkflowActivationCompletion} (h : s.Base) (hc : Answers s.log c) : (s.send c).Base where
  delivered := h.delivered
  expected := ⟨hc, h.expected⟩
  alone := h.alone

theorem Inv.of_here (hb : s.Base) (hf : s.inFlightActivation = none) (hp : s.Here s.phase) : s.Inv where
  base := hb
  here _ := hp
  inFlight f h := by
    rw [hf] at h
    cases h

theorem Inv.head (hb : s.Base) (hi : s.Idle) (hf : s.inFlightActivation = none) : s.continueLoop.Inv :=
  Inv.of_here { hb with } hf ⟨hi.handling, hi.commands⟩

theorem Inv.drive (pass : Pass) (hb : s.Base) (ho : s.Owes f a es) (hf : s.inFlightActivation = none) :
    Inv { s with phase := .driving f pass } :=
  Inv.of_here { hb with } hf ⟨a, es, { ho with }⟩

theorem Inv.beginPass (hb : s.Base) (ho : s.Owes f a es) (hf : s.inFlightActivation = none) : (s.beginPass f).Inv :=
  Inv.of_here { hb with } hf ⟨a, es, { ho with }⟩

/-- The task is answered with a failure. -/
theorem Inv.fail {runId : String} {failure : Failure} {cause : Option Nat} (hb : s.Base)
    (hh : handling s.log = some (a, es)) (hr : runId = a.runId) (hf : s.inFlightActivation = none) :
    (s.send (.fail runId failure cause)).continueLoop.Inv := by
  refine Inv.head (hb.send ⟨a, es, hh, hr, fun _ h => ?_⟩) ⟨rfl, fun h => ?_⟩ hf
  · cases h
  · cases h

theorem failOnNonSdkWake_cases (s : WorkflowFuture) (runId : String) :
    (∃ failure, s.failOnNonSdkWake runId =
      ({ s with wakeTracking := some false }.send (.fail runId failure (some nonDeterministicError)), true)) ∨
    s.failOnNonSdkWake runId = (s, false) := by
  unfold failOnNonSdkWake
  split
  · exact .inl ⟨_, rfl⟩
  · exact .inr rfl

/-- The completion answers the task. -/
theorem Inv.complete (hb : s.Base) (ho : s.Owes f a es) (hf : s.inFlightActivation = none) :
    (s.sendCompletion f.runId f.commands).continueLoop.Inv := by
  have hs : Base { s with activationCmds := [] } := { hb with }
  refine Inv.head (hs.send ⟨a, es, ho.handling, ho.runId, fun commands h => ?_⟩) ⟨rfl, fun _ => rfl⟩ hf
  rw [← Status.successful.inj h, ho.answers, ho.pushed]

theorem Inv.awaitWake (hb : s.Base) (ho : s.Owes f a es) : (s.driven f .awaitWake).Inv where
  base := { hb with }
  here h := by cases h
  inFlight _ h := by
    cases h
    exact ⟨.inl rfl, a, es, { ho with }⟩

/-! ## Calls of the instance -/

def add (f : InFlightActivation) (commands : List WorkflowCommand) : InFlightActivation :=
  { f with commands := f.commands ++ commands }

theorem add_nil (f : InFlightActivation) : add f [] = f := by
  simp [add]

variable {r : GuestResult RoutinePollResult} {pushed : List WorkflowCommand} {pass : Pass}
  {context : ActivationJobContext} {jobs : List (Option ActivationVariant)} {contexts : List ActivationJobContext}
  {shouldPoll : Bool} {p : Processed}

theorem Owes.polled (h : s.Owes f a es) :
    (s.record (.polled r pushed) pushed).Owes (add f (Entry.polled r pushed).answers) a (es ++ [.polled r pushed]) where
  handling := by simp [record, NativeWorkflow.handling, h.handling]
  runId := h.runId
  answers := by simp [add, h.answers]
  pushed := by simp [record, h.pushed, Entry.pushed]

theorem Base.polled (hb : s.Base) (h : s.Owes f a es) : (s.record (.polled r pushed) pushed).Base where
  delivered := hb.delivered
  expected := ⟨by simp [Expected, h.handling], hb.expected⟩
  alone := hb.alone

variable {completion : Option RoutineCompletion} {job : Option ActivationVariant} {p' : Processed}

theorem Inv.routineCompleted {id : RoutineId} (hb : s.Base)
    (ho : s.Owes (add f (completion.toList.flatMap completionAnswer)) a es) (hf : s.inFlightActivation = none) :
    (s.routineCompleted f pass id completion).Inv := by
  have hfail : ∀ message, (s.failDriving f message).Inv := fun _ => Inv.fail hb ho.handling ho.runId hf
  rcases completion with _ | completion | (_ | failure) | completion
  · exact Inv.drive _ hb (add_nil f ▸ ho) hf
  · exact hfail _
  · exact Inv.drive _ hb (add_nil f ▸ ho) hf
  · exact hfail _
  · exact Inv.drive _ hb ho hf

/-- A pass is followed by another, by an answer, or by waiting. -/
theorem Inv.endPass (hb : s.Base) (ho : s.Owes f a es) (hf : s.inFlightActivation = none) : (s.endPass f pass).Inv := by
  unfold WorkflowFuture.endPass
  cases pass.next with
  | again => exact Inv.beginPass hb ho hf
  | complete => exact Inv.complete hb ho hf
  | awaitWake =>
    show Inv (if s.wakeTracking.isSome then _ else _)
    split
    · exact Inv.fail hb ho.handling ho.runId hf
    · exact Inv.awaitWake hb ho

theorem Inv.mainCompleted (hb : s.Base) (ho : s.Owes (add f (completion.toList.flatMap completionAnswer)) a es)
    (hf : s.inFlightActivation = none) : (s.mainCompleted f pass completion).Inv := by
  have hfail : ∀ message, (s.failDriving f message).Inv := fun _ => Inv.fail hb ho.handling ho.runId hf
  rcases completion with _ | (_ | failure | outcome) | _ | _
  · exact hfail _
  · exact Inv.endPass hb (add_nil f ▸ ho) hf
  · exact Inv.fail hb ho.handling ho.runId hf
  · exact Inv.complete hb ho hf
  · exact hfail _
  · exact hfail _

theorem Inv.polled (hb : s.Base) (ho : s.Owes (add f (Entry.polled r pushed).answers) a es)
    (hf : s.inFlightActivation = none) : (s.polled f pass r).Inv := by
  have hfail : ∀ s' : WorkflowFuture, s'.Base → handling s'.log = some (a, es) → s'.inFlightActivation = none →
      ∀ message, (s'.failDriving f message).Inv := fun s' hb hh hf _ => Inv.fail hb hh ho.runId hf
  unfold WorkflowFuture.polled
  split
  · cases r with
    | err | panicked => exact hfail s hb ho.handling hf _
    | ok result =>
      simp only [routinePolled, GuestResult.toExcept]
      rcases s.failOnNonSdkWake_cases f.runId with ⟨failure, he⟩ | he
      · rw [he]
        exact Inv.fail { hb with } ho.handling ho.runId hf
      · rw [he]
        exact Inv.routineCompleted hb ho hf
  · have hb' : Base { s with activeRoutines := pass.stillActive } := { hb with }
    cases r with
    | err | panicked => exact hfail _ hb' ho.handling hf _
    | ok result =>
      simp only [mainPolled, GuestResult.toExcept]
      rcases failOnNonSdkWake_cases { s with activeRoutines := pass.stillActive } f.runId with ⟨failure, he⟩ | he
      · rw [he]
        exact Inv.fail { hb with } ho.handling ho.runId hf
      · rw [he]
        exact Inv.mainCompleted hb' { ho with } hf

/-! ## Activations -/

/-- The answer to a job, as the driver sees it. -/
def contextAnswer : ActivationJobContext → ActivationJobResult → List WorkflowCommand
  | .update protocolInstanceId, .startedRoutine _ _ => [.updateResponse protocolInstanceId .accepted]
  | .update protocolInstanceId, .updateRejected failure => [.updateResponse protocolInstanceId (.rejected failure)]
  | .query queryId, .queryResponse result => [.respondToQuery queryId result]
  | _, _ => []

theorem translateResolution_ok {result polled : Bool} {message : String}
    (h : translateResolution result message = .ok (context, polled)) : context = .passive := by
  unfold translateResolution at h
  split at h
  · cases h
    rfl
  · cases h

theorem contextAnswer_eq {polled : Bool} (h : translateJob job = .ok (context, polled)) (r : ActivationJobResult) :
    contextAnswer context r = jobAnswer job r := by
  rcases job with _ | job
  · cases h
  · cases job with
    | resolveActivity | resolveChildWorkflowExecutionStart | resolveChildWorkflowExecution | resolveNexusOperationStart
    | resolveNexusOperation =>
      obtain rfl := translateResolution_ok h
      rfl
    | removeFromCache => cases h
    | _ =>
      cases h
      cases r <;> rfl

theorem translateActivation_cons {t : List ActivationJobContext × Bool}
    (h : translateActivation (job :: jobs) = .ok t) :
    ∃ context polled contexts shouldPoll, translateJob job = .ok (context, polled) ∧
      translateActivation jobs = .ok (contexts, shouldPoll) ∧ t = (context :: contexts, polled || shouldPoll) := by
  rw [translateActivation] at h
  cases hj : translateJob job with
  | error e =>
    rw [hj] at h
    cases h
  | ok j =>
    rw [hj] at h
    cases ht : translateActivation jobs with
    | error e =>
      rw [ht] at h
      cases h
    | ok js =>
      rw [ht] at h
      cases h
      exact ⟨j.1, j.2, js.1, js.2, rfl, rfl, rfl⟩

theorem flatMap_contextAnswer (h : translateActivation jobs = .ok (contexts, shouldPoll))
    (results : List ActivationJobResult) :
    ((contexts.zip results).flatMap fun p => contextAnswer p.1 p.2) =
      (jobs.zip results).flatMap fun p => jobAnswer p.1 p.2 := by
  induction jobs generalizing contexts shouldPoll results with
  | nil =>
    cases h
    rfl
  | cons job jobs ih =>
    obtain ⟨context, polled, contexts', shouldPoll', hj, ht, he⟩ := translateActivation_cons h
    cases he
    cases results with
    | nil => rfl
    | cons r results =>
      simp only [List.zip_cons_cons, List.flatMap_cons]
      rw [contextAnswer_eq hj, ih ht]

theorem processResult_commands {r : ActivationJobResult} (h : processResult p context r = .ok p') :
    p'.commands = p.commands ++ contextAnswer context r := by
  cases context with
  | passive =>
    cases r with
    | none =>
      cases h
      exact (List.append_nil _).symm
    | startedRoutine | queryResponse | updateRejected => cases h
  | signal =>
    cases r with
    | none =>
      cases h
      exact (List.append_nil _).symm
    | startedRoutine id kind =>
      cases kind with
      | signal =>
        cases h
        exact (List.append_nil _).symm
      | main | update => cases h
    | queryResponse | updateRejected => cases h
  | update protocolInstanceId =>
    cases r with
    | startedRoutine id kind =>
      cases kind with
      | update startedId =>
        simp only [processResult] at h
        split at h
        · cases h
          rfl
        · cases h
      | main | signal => cases h
    | updateRejected failure =>
      cases h
      rfl
    | none | queryResponse => cases h
  | query queryId =>
    cases r with
    | queryResponse result =>
      cases h
      rfl
    | none | startedRoutine | updateRejected => cases h

theorem processResults_commands {l : List (ActivationJobContext × ActivationJobResult)}
    (h : processResults l p = (p', none)) : p'.commands = p.commands ++ l.flatMap fun x => contextAnswer x.1 x.2 := by
  induction l generalizing p with
  | nil =>
    cases h
    exact (List.append_nil _).symm
  | cons x l ih =>
    simp only [processResults] at h
    split at h
    · next q hq =>
      rw [ih h, processResult_commands hq, List.flatMap_cons, List.append_assoc]
    · cases h

/-- Results give their answers, in order. -/
theorem processActivationResults_commands {results : List ActivationJobResult} {activeRoutines : List RoutineId}
    (ht : translateActivation jobs = .ok (contexts, shouldPoll))
    (h : processActivationResults contexts results ⟨activeRoutines, [], false⟩ = (p, none)) :
    p.commands = (jobs.zip results).flatMap fun x => jobAnswer x.1 x.2 := by
  unfold processActivationResults at h
  split at h
  · cases h
  · rw [processResults_commands h, List.nil_append, flatMap_contextAnswer ht]

/-- The guest has applied the activation. -/
theorem Inv.activated {r : GuestResult (List ActivationJobResult)} (hb : s.Base)
    (hh : handling s.log = some (a, [.activated a r pushed])) (hc : s.activationCmds = pushed)
    (ht : translateActivation a.jobs = .ok (contexts, shouldPoll)) (hf : s.inFlightActivation = none) :
    (s.activated a contexts shouldPoll r).Inv := by
  cases r with
  | err | panicked => exact Inv.fail hb hh rfl hf
  | ok results =>
    simp only [WorkflowFuture.activated, GuestResult.toExcept]
    rcases s.failOnNonSdkWake_cases a.runId with ⟨failure, he⟩ | he
    · rw [he]
      exact Inv.fail { hb with } hh rfl hf
    · rw [he]
      simp only [activationProcessed]
      split
      · exact Inv.fail { hb with } hh rfl hf
      · next p hp =>
        have ho : Owes { s with activeRoutines := p.activeRoutines } ⟨a.runId, p.commands⟩ a
            [.activated a (.ok results) pushed] :=
          { handling := hh
            runId := rfl
            answers := by
              rw [processActivationResults_commands ht hp, List.flatMap_singleton]
              rfl
            pushed := by
              rw [List.flatMap_singleton]
              exact hc }
        have hb' : Base { s with activeRoutines := p.activeRoutines } := { hb with }
        split
        · exact Inv.beginPass hb' ho hf
        · exact Inv.complete hb' ho hf

theorem mem_of_unreachable (h : translateActivation jobs = .error .unreachable) : some .removeFromCache ∈ jobs := by
  induction jobs with
  | nil => cases h
  | cons job jobs ih =>
    rw [translateActivation] at h
    cases hj : translateJob job with
    | ok j =>
      rw [hj] at h
      cases ht : translateActivation jobs with
      | ok js =>
        rw [ht] at h
        cases h
      | error e =>
        rw [ht] at h
        cases h
        exact List.mem_cons_of_mem _ (ih ht)
    | error e =>
      rw [hj] at h
      cases h
      rcases job with _ | job
      · cases hj
      · cases job with
        | removeFromCache => exact List.mem_cons_self
        | resolveActivity result | resolveChildWorkflowExecutionStart result | resolveChildWorkflowExecution result
        | resolveNexusOperationStart result | resolveNexusOperation result => cases result <;> cases hj
        | _ => cases hj

/-- An activation is received. -/
theorem Inv.receive (hb : s.Base) (hh : handling s.log = some (a, [])) (hc : a.isOnlyEviction = false →
    s.activationCmds = []) (ha : EvictsAlone a) (hlog : ∃ before, s.log = .taken a :: before)
    (hf : s.inFlightActivation = none) : (s.receive a).Inv := by
  unfold WorkflowFuture.receive
  split
  · next he =>
    obtain ⟨before, hlog⟩ := hlog
    have hbase : (s.send ⟨a.runId, .successful []⟩).Base := by
      refine hb.send ⟨a, [], hh, rfl, fun commands h => ?_⟩
      rw [← Status.successful.inj h]
      rfl
    exact Inv.of_here { hbase with } hf ⟨a, _, before, congrArg _ hlog, he⟩
  · next he =>
    have he : a.isOnlyEviction = false := Bool.eq_false_iff.mpr he
    rcases s.failOnNonSdkWake_cases a.runId with ⟨failure, hw⟩ | hw
    · rw [hw]
      exact Inv.fail { hb with } hh rfl hf
    · rw [hw]
      cases ht : translateActivation a.jobs with
      | error e =>
        cases e with
        | error message => exact Inv.fail hb hh rfl hf
        | unreachable =>
          rw [ha (mem_of_unreachable ht)] at he
          cases he
      | ok t =>
        exact Inv.of_here { hb with } hf ⟨hh, hc he, ht⟩

theorem Inv.nextActivation (h : s.Inv) (hp : s.phase = .activations) (hi : s.CoreEvicts .next) :
    s.nextActivation.Inv := by
  unfold WorkflowFuture.nextActivation
  split
  · next f hf =>
    obtain ⟨-, a, es, ho⟩ := h.inFlight f hf
    have hb : Base { s with inFlightActivation := none } := { h.base with }
    dsimp only
    rcases failOnNonSdkWake_cases { s with inFlightActivation := none } f.runId with ⟨failure, he⟩ | he
    · rw [he]
      exact Inv.fail { h.base with } ho.handling ho.runId rfl
    · rw [he]
      exact Inv.beginPass hb { ho with } rfl
  · next hf =>
    have hidle : s.Idle := by simpa only [hp, Here] using h.here hf
    split
    · next a rest hin =>
      have ha : EvictsAlone a := h.base.alone a (by rw [hin]; exact List.mem_cons_self)
      refine Inv.receive ⟨?_, ⟨hidle.handling, h.base.expected⟩, fun b hb => ?_⟩ rfl (fun he => ?_) ha ⟨_, rfl⟩ hf
      · rw [h.base.delivered, hin]
        exact (List.append_assoc _ [a] rest).symm
      · exact h.base.alone b (by rw [hin]; exact List.mem_cons_of_mem _ hb)
      · -- a task that failed is followed by an eviction
        cases hl : lastFailed s.log with
        | false => exact hidle.commands hl
        | true =>
          have hevict := hi hf hl
          rw [hin] at hevict
          exact absurd (he.symm.trans hevict) Bool.false_ne_true
    · next hin =>
      refine Inv.of_here { h.base with } hf ?_
      cases hc : s.closed with
      | true => exact ⟨rfl, hin, hidle.handling⟩
      | false => exact ⟨hidle.handling, hidle.commands⟩

theorem Owes.congr (h : s.Owes f a es) (hl : s'.log = s.log) (hc : s'.activationCmds = s.activationCmds) :
    s'.Owes f a es :=
  ⟨hl ▸ h.handling, h.runId, h.answers, hc ▸ h.pushed⟩

theorem Inv.congr (h : s.Inv) (hb : s'.Base) (hl : s'.log = s.log) (hc : s'.activationCmds = s.activationCmds)
    (hp : s'.phase = s.phase) (hf : s'.inFlightActivation = s.inFlightActivation)
    (he : s.closed = true → s'.closed = true ∧ s'.incomingActivations = s.incomingActivations) : s'.Inv where
  base := hb
  here hn := by
    have hh := h.here (hf ▸ hn)
    rw [hp]
    cases hphase : s.phase with
    | pending | activations =>
      rw [hphase] at hh
      exact ⟨hl ▸ hh.handling, by rw [hl, hc]; exact hh.commands⟩
    | activating =>
      rw [hphase] at hh
      exact ⟨hl ▸ hh.1, hc ▸ hh.2.1, hh.2.2⟩
    | driving =>
      rw [hphase] at hh
      obtain ⟨a, es, ho⟩ := hh
      exact ⟨a, es, ho.congr hl hc⟩
    | ended t =>
      rw [hphase] at hh
      cases t with
      | evicted =>
        obtain ⟨a, c, before, hlog, ha⟩ := hh
        exact ⟨a, c, before, hl.trans hlog, ha⟩
      | channelLost =>
        obtain ⟨hclosed, hin⟩ := he hh.1
        exact ⟨hclosed, hin.trans hh.2.1, hl ▸ hh.2.2⟩
    | panicked =>
      rw [hphase] at hh
      exact hh
  inFlight f hs := by
    obtain ⟨hphase, a, es, ho⟩ := h.inFlight f (hf ▸ hs)
    exact ⟨hp.symm ▸ hphase, a, es, ho.congr hl hc⟩

theorem Inv.not_inFlight (h : s.Inv) (hp : ¬(s.phase = .pending ∨ s.phase = .activations)) :
    s.inFlightActivation = none := by
  cases hf : s.inFlightActivation with
  | none => rfl
  | some f => exact absurd (h.inFlight f hf).1 hp

theorem Inv.deliver {b : WorkflowActivation} (h : s.Inv) (hc : s.closed = false) (hb : EvictsAlone b) :
    Inv { s with incomingActivations := s.incomingActivations ++ [b], delivered := s.delivered ++ [b] } := by
  refine h.congr ⟨?_, h.base.expected, fun c hin => ?_⟩ rfl rfl rfl rfl fun ht => ?_
  · rw [h.base.delivered]
    exact List.append_assoc _ _ _
  · rcases List.mem_append.mp hin with hin | hin
    · exact h.base.alone c hin
    · rw [List.mem_singleton.mp hin]
      exact hb
  · rw [hc] at ht
    cases ht

theorem Inv.poll (h : s.Inv) (hp : s.phase = .pending) : s.continueLoop.Inv := by
  cases hf : s.inFlightActivation with
  | none =>
    have hidle : s.Idle := by simpa only [hp, Here] using h.here hf
    exact Inv.head h.base hidle hf
  | some f =>
    obtain ⟨-, a, es, ho⟩ := h.inFlight f hf
    refine ⟨{ h.base with }, fun hn => ?_, fun g hg => ?_⟩
    · cases hf.symm.trans hn
    · obtain rfl := Option.some.inj (hf.symm.trans hg)
      exact ⟨.inr rfl, a, es, { ho with }⟩

theorem Inv.step {i : Input} (h : s.Inv) (hi : s.CoreEvicts i) (hs : WorkflowFuture.step s i = some s') : s'.Inv := by
  cases i with
  | deliver b =>
    simp only [WorkflowFuture.step] at hs
    split at hs
    · cases hs
    · next hc =>
      cases hs
      exact h.deliver (Bool.eq_false_iff.mpr hc) hi
  | close =>
    cases hs
    exact h.congr { h.base with } rfl rfl rfl rfl fun _ => ⟨rfl, rfl⟩
  | wake =>
    cases hs
    exact h.congr { h.base with } rfl rfl rfl rfl fun hc => ⟨hc, rfl⟩
  | poll =>
    simp only [WorkflowFuture.step] at hs
    split at hs
    · next hp =>
      cases hs
      exact h.poll hp
    · cases hs
  | next =>
    simp only [WorkflowFuture.step] at hs
    split at hs
    · next hp =>
      cases hs
      exact h.nextActivation hp hi
    · cases hs
  | activated r pushed =>
    simp only [WorkflowFuture.step] at hs
    split at hs
    · next a contexts shouldPoll hp =>
      cases hs
      have hf : s.inFlightActivation = none := h.not_inFlight (by simp [hp])
      have hh := h.here hf
      rw [hp] at hh
      obtain ⟨hlog, hc, ht⟩ := hh
      have hh : handling (s.record (.activated a r pushed) pushed).log = some (a, [.activated a r pushed]) := by
        simp [record, handling, hlog]
      exact Inv.activated ⟨h.base.delivered, ⟨hlog, h.base.expected⟩, h.base.alone⟩ hh (by simp [record, hc]) ht hf
    · cases hs
  | polled r pushed =>
    simp only [WorkflowFuture.step] at hs
    split at hs
    · next f pass hp =>
      cases hs
      have hf : s.inFlightActivation = none := h.not_inFlight (by simp [hp])
      have hh := h.here hf
      rw [hp] at hh
      obtain ⟨a, es, ho⟩ := hh
      exact Inv.polled (h.base.polled ho) ho.polled hf
    · cases hs

theorem Inv.new (detect : Bool) : (new detect).Inv :=
  Inv.of_here ⟨rfl, trivial, fun _ h => by cases h⟩ rfl ⟨rfl, fun _ => rfl⟩

theorem Reachable.inv (h : Reachable CoreEvicts s) : s.Inv := by
  refine Reach.invariant ?_ (fun _ _ _ hinv hi hs => hinv.step hi hs) h
  rintro _ ⟨detect, rfl⟩
  exact Inv.new detect

/-- **Every activation is answered once and with its own commands**, if Core follows a failure by an eviction. They are
taken in order, none before the one before it was answered. A successful completion has exactly the answers of the
instance and the commands of the host for it. The driver ends only with an eviction or when the channel is lost. -/
theorem activations_answered (h : Reachable CoreEvicts s) :
    s.delivered = taken s.log ++ s.incomingActivations ∧
    (∀ after e before, s.log = after ++ e :: before → Expected before e) ∧
    s.phase ≠ .panicked ∧ ∀ t, s.phase = .ended t → s.EndsBy t := by
  have hinv : s.Inv := h.inv
  have hhere : ∀ p, s.phase = p → p ≠ .pending → p ≠ .activations → s.Here p := by
    intro p hp hpend hact
    subst hp
    exact hinv.here (hinv.not_inFlight fun hp => hp.elim hpend hact)
  refine ⟨hinv.base.delivered, each_iff.mp hinv.base.expected, fun hp => ?_, fun t hp => ?_⟩
  · exact hhere _ hp (by simp) (by simp)
  · exact hhere _ hp (by simp) (by simp)

instance (a : WorkflowActivation) : Decidable (EvictsAlone a) :=
  inferInstanceAs (Decidable (some .removeFromCache ∈ a.jobs → a.isOnlyEviction = true))

instance (s : WorkflowFuture) (i : Input) : Decidable (s.CoreEvicts i) := by
  cases i <;> dsimp only [CoreEvicts] <;> infer_instance

/-- An update is completed, the next activation panics after a command, and Core evicts the workflow. -/
theorem activations_answered_panic :
    ∃ s, Reachable CoreEvicts s ∧ s.activationCmds = [.other 3] ∧
      .sent ⟨"run", .successful [.updateResponse "update" .accepted, .updateResponse "update" (.completed 5), .other 1,
        .other 2]⟩ ∈ s.log ∧
      s.EndsBy .evicted ∧ ∀ after e before, s.log = after ++ e :: before → Expected before e := by
  obtain ⟨s, hr, hp, hc, hmem⟩ : ∃ s, Reachable CoreEvicts s ∧ s.phase = .ended .evicted ∧
    s.activationCmds = [.other 3] ∧
      .sent ⟨"run", .successful [.updateResponse "update" .accepted, .updateResponse "update" (.completed 5), .other 1,
        .other 2]⟩ ∈ s.log :=
    Reach.exists_of_trace
      [.deliver ⟨"run", [some .initializeWorkflow, some (.doUpdate "update")]⟩, .poll, .next,
        .activated (.ok [.none, .startedRoutine 1 (.update "u" "1" "update")]) [.other 1],
        .polled (.ok ⟨some (.update (.completed "update" 5)), true, none⟩) [.other 2],
        .polled (.ok ⟨some (.main .blocked), false, some .handler⟩) [],
        .polled (.ok ⟨some (.main .blocked), false, some .handler⟩) [],
        .deliver ⟨"run", [some .fireTimer]⟩, .next, .activated (.panicked "overflow") [.other 3],
        .deliver ⟨"run", [some .removeFromCache]⟩, .next] (by decide) (fun _ _ _ h => h) (.start ⟨true, rfl⟩)
  obtain ⟨-, hexp, -, hend⟩ := activations_answered hr
  exact ⟨s, hr, hc, hmem, hend _ hp, hexp⟩

end WorkflowFuture

end SdkCore.NativeWorkflow
