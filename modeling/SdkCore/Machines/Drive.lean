import SdkCore.Machines.Applying

/-!
# Driving a run

`Feeding` is a workflow manager with the paginator of the task at hand. `step` gives it what a managed run does
(`Asks`). A completion first extracts the next update, if the next sequence cannot be taken. What the manager does is
proved once for any invariant of the machines (`Kept`).
-/

namespace SdkCore

open Op

namespace WorkflowMachines

variable {σ : Type} {B : Behaviour σ}

/-- An invariant, with the condition `C` for applying a sequence and the errors `E`. -/
structure Kept (B : Behaviour σ) (R : WorkflowMachines σ → WorkflowMachines σ → Prop) (I C : WorkflowMachines σ → Prop)
    (E : WFMachinesError → Prop) : Prop where
  reacts : MovesOn B R
  quiet : ∀ {m m'}, R m m' → Quiet m m'
  keep : ∀ {m m'}, R m m' → I m → I m'
  keepC : ∀ {m m'}, Quiet m m' → C m → C m'
  drain : ∀ {m}, I m → I m.getWfActivation.2
  drainC : ∀ {m}, C m → C m.getWfActivation.2
  errors : ∀ {err : WFMachinesError}, err.NotFetch → E err
  apply : ∀ {m}, I m → C m →
    Post (fun _ m' => I m' ∧ (m'.jobs = [] → C m')) (fun err _ => E err) (exec (applyNextWftFromHistory B) m)

variable {R : WorkflowMachines σ → WorkflowMachines σ → Prop} {I C : WorkflowMachines σ → Prop}
  {E : WFMachinesError → Prop}

/-- Without jobs a sequence may be applied. -/
def Calm (I C : WorkflowMachines σ → Prop) (m : WorkflowMachines σ) : Prop := I m ∧ (m.jobs = [] → C m)

theorem Calm.keep (hk : Kept B R I C E) {m m' : WorkflowMachines σ} (h : Calm I C m) (hR : R m m') : Calm I C m' := by
  refine ⟨hk.keep hR h.1, fun hj => hk.keepC (hk.quiet hR) (h.2 ?_)⟩
  by_contra hne
  exact (hk.quiet hR).toSteady.jobs_ne_nil hne hj

end WorkflowMachines

namespace WorkflowManager

open WorkflowMachines

variable {σ : Type} {B : Behaviour σ} {R : WorkflowMachines σ → WorkflowMachines σ → Prop}
  {I C : WorkflowMachines σ → Prop} {E : WFMachinesError → Prop}

/-! ## What the manager keeps -/

theorem onMachines_post {α : Type} {x : MOp σ α} {w : WorkflowManager σ} {Q : α → WorkflowMachines σ → Prop}
    (h : Post Q (fun err _ => E err) (exec x w.machines)) :
    Post (fun a w' => Q a w'.machines) (fun err _ => E err) (exec (onMachines x) w) := by
  unfold onMachines
  rw [exec_zoom]
  generalize exec x w.machines = r at h
  match r with
  | (.ok a, m') => exact h
  | (.error e, m') => exact h

theorem drainQueuedLocalActivities_by [Std.Refl R] (hR : MovesOn B R) (m : WorkflowMachines σ) :
    R m (m.drainQueuedLocalActivities B).2 := by
  unfold drainQueuedLocalActivities
  split
  · exact refl m
  · exact hR.update m _ _ _ _ _ .takeAllReqs

section

variable [Std.Refl R] (hR : MovesOn B R)
include hR

theorem notifyOfLocalResult_by (res : LocalResolution) (w : WorkflowManager σ) :
    Post (fun _ w' => R w.machines w'.machines) (fun err _ => err.NotFetch) (exec (notifyOfLocalResult B res) w) := by
  unfold notifyOfLocalResult
  rw [exec_get_bind]
  split
  · exact refl w.machines
  · exact onMachines_post ((react_by (hR.absorb (.localResolution res))).post _)

variable [IsTrans _ R]

theorem localResolutions_by : ∀ rs : List LocalResolution, Moves R WFMachinesError.NotFetch (localResolutions B rs)
  | [] => .pure ()
  | res :: rs => (react_by (hR.absorb (.localResolution res))).bind fun _ => localResolutions_by rs

theorem applyDeferred_by (w : WorkflowManager σ) :
    Post (fun _ w' => R w.machines w'.machines) (fun err _ => err.NotFetch)
      (exec (applyDeferredLocalResolutions B) w) := by
  unfold applyDeferredLocalResolutions
  rw [exec_get_bind]
  split
  · exact refl w.machines
  · exact onMachines_post ((localResolutions_by hR _).post _)

/-- Commands are applied. -/
theorem pushCommandsAndIterate_by (commands : List WFCommand) (w : WorkflowManager σ) :
    Post (fun _ w' => R w.machines w'.machines) (fun err _ => err.NotFetch)
      (exec (pushCommandsAndIterate B commands) w) := by
  refine (onMachines_post ((iterateMachines_by hR commands).post _)).bind fun _ w₁ h₁ => ?_
  exact (applyDeferred_by hR _).imp (fun _ _ h₂ => IsTrans.trans _ _ _ h₁ h₂) (fun _ _ h => h)

end

@[simp] theorem exec_getWfActivation (w : WorkflowManager σ) :
    exec getWfActivation w =
      (.ok w.machines.getWfActivation.1, { w with machines := w.machines.getWfActivation.2 }) := rfl

section

variable (hk : Kept B R I C E)
include hk

variable {w : WorkflowManager σ}

theorem getNextActivation_calm (h : Calm I C w.machines) :
    Post (fun act w' => ∃ m, I m ∧ m.getWfActivation = (act, w'.machines)) (fun err _ => E err)
      (exec (getNextActivation B) w) := by
  unfold getNextActivation
  rw [exec_bind, exec_getWfActivation, andThen_ok]
  by_cases hj : w.machines.jobs = []
  · rw [if_pos (by simp [WorkflowMachines.getWfActivation, hj])]
    have happly : Post (fun _ (w' : WorkflowManager σ) => I w'.machines ∧ (w'.machines.jobs = [] → C w'.machines))
        (fun err _ => E err) (exec (onMachines (applyNextWftFromHistory B))
          { w with machines := w.machines.getWfActivation.2 }) :=
      onMachines_post (hk.apply (hk.drain h.1) (hk.drainC (h.2 hj)))
    refine Post.bind (happly.bind fun _ w₁ h₁ => ?_) (fun act w₁ h₁ => h₁)
    exact ⟨w₁.machines, h₁.1, rfl⟩
  · rw [if_neg (by simpa [WorkflowMachines.getWfActivation] using hj)]
    exact ⟨w.machines, h.1, rfl⟩

theorem applyTasks_calm : ∀ (fuel : Nat) {m : WorkflowMachines σ}, I m → C m →
    Post (fun _ m' => Calm I C m') (fun err _ => E err) (exec (applyTasks B fuel) m)
  | 0, m, h, hC => ⟨h, fun _ => hC⟩
  | fuel + 1, m, h, hC => by
    unfold applyTasks
    refine (hk.apply h hC).bind fun n m₁ h₁ => ?_
    rw [exec_get_bind]
    split
    · exact h₁
    · rename_i hstop
      have hj : m₁.jobs = [] := by
        simp only [Bool.or_eq_true, not_or, hasPendingJobs, Bool.not_eq_true, Bool.not_eq_false',
          List.isEmpty_iff] at hstop
        exact hstop.2
      exact applyTasks_calm fuel h₁.1 (h₁.2 hj)

/-- Sequences are applied while there are no jobs. -/
theorem applyNextTaskIfReady_calm (h : Calm I C w.machines) :
    Post (fun _ w' => Calm I C w'.machines) (fun err _ => E err) (exec (applyNextTaskIfReady B) w) := by
  unfold applyNextTaskIfReady
  rw [exec_get_bind]
  simp only
  split
  · exact h
  · rename_i hj
    exact onMachines_post (applyTasks_calm hk _ h.1 (h.2 (by simpa [hasPendingJobs] using hj)))

variable [Std.Refl R] [IsTrans _ R]

theorem applyCompletion_calm (commands : List WFCommand) (h : Calm I C w.machines) :
    Post (fun _ w' => I w'.machines) (fun err _ => E err) (exec (applyCompletion B commands none false) w) := by
  refine ((pushCommandsAndIterate_by hk.reacts commands w).imp (fun _ _ hR => h.keep hk hR)
    (fun _ _ he => hk.errors he)).bind fun _ w₁ h₁ => ?_
  exact (applyNextTaskIfReady_calm hk h₁).imp (fun _ _ h₂ => h₂.1) (fun _ _ he => he)

/-- A completion with a page. -/
theorem applyCompletion_page (commands : List WFCommand) {u : HistoryUpdate} (h : ∀ m', R w.machines m' →
      Post (fun _ m'' => Calm I C m'') (fun err _ => E err) (exec (newHistoryFromServer B u) m')) :
    Post (fun _ w' => I w'.machines) (fun err _ => E err) (exec (applyCompletion B commands (some u) false) w) := by
  refine ((pushCommandsAndIterate_by hk.reacts commands w).imp (fun _ _ hR => hR) (fun _ _ he => hk.errors he)).bind
    fun _ w₁ hR => (onMachines_post (h _ hR)).bind fun _ w₂ h₂ => ?_
  exact (applyNextTaskIfReady_calm hk h₂).imp (fun _ _ h₃ => h₃.1) (fun _ _ he => he)

theorem newWorkFromServer_calm {u : HistoryUpdate} {messages : List Nat} {legacy : Bool}
    (h : Post (fun _ m' => Calm I C m') (fun err _ => E err)
      (exec (WorkflowMachines.newWorkFromServer B u messages legacy) w.machines)) :
    Post (fun act w' => ∃ m, I m ∧ m.getWfActivation = (act, w'.machines)) (fun err _ => E err)
      (exec (newWorkFromServer B u messages legacy) w) := by
  refine (onMachines_post h).bind fun _ w₁ h₁ => ?_
  refine ((applyDeferred_by hk.reacts _).imp (fun _ w₂ hR => ?_) (fun _ _ he => hk.errors he)).bind
    fun _ w₂ h₂ => getNextActivation_calm hk h₂
  exact h₁.keep hk hR

end

end WorkflowManager

/-! ## Runs -/

/-- A first page with a token, and the pages that the server has. -/
structure TaskHistory where
  prev : Int
  started : Int
  runId : RunId := 0
  firstPage : List HistoryEvent
  token : List UInt8
  client : Client
  pages : List (List HistoryEvent)
  messages : List Nat := []
  legacy : Bool := false

namespace TaskHistory

def history (t : TaskHistory) : List HistoryEvent := t.firstPage ++ t.pages.flatten

def paginator (t : TaskHistory) : HistoryPaginator := .new t.firstPage t.prev t.started t.runId (.ofBytes t.token)

/-- A task without events, for a query, has nothing to extract. -/
def firstUpdate (t : TaskHistory) : Except Status HistoryUpdate × HistoryPaginator × Client :=
  if t.firstPage.isEmpty then
    (.ok (HistoryUpdate.fromEvents [] t.prev t.started true).1, .new [] t.prev t.started t.runId .fetchFromStart,
      t.client)
  else HistoryPaginator.extractNextUpdate t.client t.paginator

/-- The history goes on after event `a` without gaps up to the task, or comes without events. -/
structure Continues (t : TaskHistory) (a : Int) : Prop where
  nonneg : 0 ≤ a
  contig : Contig a t.history
  ends : t.firstPage ≠ [] → a + t.history.length = t.started
  serves : Serves (.ofBytes t.token) t.client t.pages
  pages : t.firstPage = [] → t.pages = []

theorem Continues.extracting {t : TaskHistory} {a : Int} (h : t.Continues a) (hne : t.firstPage ≠ []) :
    Extracting t.prev t.started a t.firstPage t.pages t.paginator t.client :=
  extracting_new h.nonneg h.contig (h.ends hne) (NextPageToken.ofBytes_ne_fetchFromStart _) h.serves (Or.inr hne)

end TaskHistory

/-- The workflow manager, and the paginator of its task. -/
structure Feeding (σ : Type) where
  wfm : WorkflowManager σ
  paginator : HistoryPaginator
  client : Client
  task : Option TaskHistory

/-- What a managed run does with its manager. -/
inductive RunInput
  | task (t : TaskHistory)
  | activation
  | queries
  | localResult (res : LocalResolution)
  | completion (commands : List WFCommand)
  /-- The requests for local activities are taken. -/
  | drain
  /-- The completion of the task is reported to the server, which may take the task back. -/
  | reported
  | reset (id : Int)

/-- A task comes, or the one at hand is taken back. -/
def RunInput.changesTask : RunInput → Bool
  | .task _ | .reset _ => true
  | _ => false

namespace Feeding

open WorkflowMachines WorkflowManager

variable {σ : Type}

def fresh (inner : σ) : Feeding σ :=
  { wfm := { machines := { inner } }, paginator := .new [] 0 0 0 .done, client := [], task := none }

/-- The outcome of an operation, with the activation it gives. -/
def apply {α : Type} (s : Feeding σ) (x : WOp σ α) (f : α → Option WorkflowActivation) :
    Except WFMachinesError (Option WorkflowActivation) × Feeding σ :=
  ((exec x s.wfm).1.map f, { s with wfm := (exec x s.wfm).2 })

/-- There is none if a page cannot be fetched, or no job is there. -/
def step (B : Behaviour σ) (s : Feeding σ) :
    RunInput → Option (Except WFMachinesError (Option WorkflowActivation) × Feeding σ)
  | .task t =>
    match t.firstUpdate with
    | (.ok update, paginator, client) =>
      some (apply { s with paginator, client, task := some t }
        (WorkflowManager.newWorkFromServer B update t.messages t.legacy) some)
    | (.error _, _, _) => none
  | .activation => if s.wfm.machines.hasPendingJobs then some (s.apply (getNextActivation B) some) else none
  | .queries => some (s.apply WorkflowManager.getWfActivation some)
  | .localResult res => some (s.apply (notifyOfLocalResult B res) fun _ => none)
  | .completion commands =>
    if s.wfm.readyToApplyNextWft then some (s.apply (applyCompletion B commands none false) fun _ => none)
    else
      match HistoryPaginator.extractNextUpdate s.client s.paginator with
      | (.ok update, paginator, client) =>
        some (apply { s with paginator, client } (applyCompletion B commands (some update) false) fun _ => none)
      | (.error _, _, _) => none
  | .drain =>
    some (.ok none, { s with wfm := { s.wfm with machines := (s.wfm.machines.drainQueuedLocalActivities B).2 } })
  | .reported => some (.ok none, { s with wfm := s.wfm.wftCompletionReported })
  | .reset id =>
    some (.ok none, { s with wfm := { s.wfm with machines := s.wfm.machines.resetLastStartedId B id }, task := none })

/-- A task continues the history where the run is. If its two events are the last, it may be taken back and results of
local activities may come. Everything else comes after a task. -/
def Admits (P : TaskHistory → Prop) (s : Feeding σ) : RunInput → Prop
  | .task t => P t ∧ t.Continues s.wfm.machines.lastProcessedEvent
  | .reset id => id ≤ s.wfm.machines.lastProcessedEvent - 2 ∧
      ∀ p ∈ s.wfm.machines.workflowTasks, p.1 ≤ s.wfm.machines.lastProcessedEvent - 2 →
        ∀ i, p.2.state = .started i → i ≤ s.wfm.machines.lastProcessedEvent - 2
  | .localResult _ => s.task ≠ none ∨ s.wfm.awaitingNextWft = true
  | .drain | .reported => True
  | .activation | .queries | .completion _ => s.task ≠ none

/-- The states of runs whose tasks have `P`. -/
inductive Reaches (B : Behaviour σ) (P : TaskHistory → Prop) : Feeding σ → Prop
  | start (inner : σ) : Reaches B P (fresh inner)
  | step {s s' input out} : Reaches B P s → Admits P s input → s.step B input = some (.ok out, s') → Reaches B P s'

def outputs (B : Behaviour σ) : Feeding σ → List RunInput → List (Except WFMachinesError (Option WorkflowActivation))
  | _, [] => []
  | s, input :: inputs =>
    match s.step B input with
    | none => []
    | some (.error err, _) => [.error err]
    | some (.ok out, s') => .ok out :: outputs B s' inputs

variable {s : Feeding σ} {input : RunInput} {r : Except WFMachinesError (Option WorkflowActivation) × Feeding σ}

theorem admits_of_task {P : TaskHistory → Prop} (hi : input.changesTask = false) (ht : s.task ≠ none) :
    Admits P s input := by
  cases input with
  | task | reset => cases hi
  | localResult => exact .inl ht
  | drain | reported => trivial
  | activation | queries | completion => exact ht

/-- **A step asks the manager for what a managed run may ask it for.** -/
theorem step_asks {B : Behaviour σ} (h : s.step B input = some r) : Asks B s.wfm r.2.wfm := by
  cases input with
  | task t =>
    unfold step at h
    simp only at h
    split at h <;> cases h
    exact .work ..
  | activation =>
    unfold step at h
    simp only at h
    split at h <;> cases h
    exact .activation
  | completion commands =>
    unfold step at h
    simp only at h
    split at h
    · cases h
      exact .completion ..
    · split at h <;> cases h
      exact .completion ..
  | queries => cases h; exact .queries
  | localResult => cases h; exact .localResult _
  | drain => cases h; exact .drain
  | reported => cases h; exact .reported
  | reset => cases h; exact .reset _

theorem task_of_step {B : Behaviour σ} (hi : input.changesTask = false) (h : s.step B input = some r) :
    r.2.task = s.task := by
  cases input with
  | task | reset => cases hi
  | activation =>
    unfold step at h
    simp only at h
    split at h <;> cases h
    rfl
  | queries | localResult | drain | reported => cases h; rfl
  | completion commands =>
    unfold step at h
    simp only at h
    split at h
    · cases h; rfl
    · split at h <;> cases h
      rfl

theorem exists_step_of_mem_outputs {B : Behaviour σ} {P : TaskHistory → Prop} :
    ∀ {inputs : List RunInput} {s : Feeding σ} {x : Except WFMachinesError (Option WorkflowActivation)},
    Reaches B P s → s.task ≠ none → (∀ i ∈ inputs, i.changesTask = false) → x ∈ outputs B s inputs →
    ∃ s₁ input s₂, Reaches B P s₁ ∧ Admits P s₁ input ∧ s₁.step B input = some (x, s₂) ∧ s₂.task = s.task
  | [], _, _, _, _, _, hx => by cases hx
  | input :: inputs, s, x, hr, ht, hi, hx => by
    have hin := hi input List.mem_cons_self
    have had : Admits P s input := admits_of_task hin ht
    unfold outputs at hx
    split at hx
    · cases hx
    · rename_i err s' hstep
      exact ⟨s, input, s', hr, had, by rw [hstep, List.mem_singleton.mp hx], task_of_step hin hstep⟩
    · rename_i out s' hstep
      have htask : s'.task = s.task := task_of_step hin hstep
      rcases List.mem_cons.mp hx with rfl | hx
      · exact ⟨s, input, s', hr, had, hstep, htask⟩
      · rw [← htask] at ht ⊢
        exact exists_step_of_mem_outputs (.step hr had hstep) ht (fun i h => hi i (List.mem_cons_of_mem _ h)) hx

theorem exists_step_of_mem_task_outputs {B : Behaviour σ} {P : TaskHistory → Prop} (t : TaskHistory) (hP : P t)
    (hc : t.Continues 0) (inner : σ) (inputs : List RunInput) (hi : ∀ i ∈ inputs, i.changesTask = false)
    {x : Except WFMachinesError (Option WorkflowActivation)} (hx : x ∈ outputs B (fresh inner) (.task t :: inputs)) :
    ∃ s₁ input s₂, Reaches B P s₁ ∧ Admits P s₁ input ∧ s₁.step B input = some (x, s₂) ∧ s₂.task = some t := by
  have had : Admits P (fresh inner) (.task t) := ⟨hP, hc⟩
  have htask : ∀ {r}, (fresh inner).step B (.task t) = some r → r.2.task = some t := by
    intro r hstep
    unfold step at hstep
    simp only at hstep
    split at hstep <;> cases hstep
    rfl
  unfold outputs at hx
  split at hx
  · cases hx
  · rename_i err s' hstep
    exact ⟨_, _, s', .start inner, had, by rw [hstep, List.mem_singleton.mp hx], htask hstep⟩
  · rename_i out s' hstep
    rcases List.mem_cons.mp hx with rfl | hx
    · exact ⟨_, _, s', .start inner, had, hstep, htask hstep⟩
    · have ht : s'.task = some t := htask hstep
      rw [← ht]
      exact exists_step_of_mem_outputs (.step (.start inner) had hstep) (by simp [ht]) hi hx

/-! ## Invariants of runs -/

/-- An invariant for each task, with its paginator. -/
structure Carried (B : Behaviour σ) (R : WorkflowMachines σ → WorkflowMachines σ → Prop) (P : TaskHistory → Prop)
    (I : TaskHistory → HistoryPaginator → Client → WorkflowMachines σ → Prop) (C : WorkflowMachines σ → Prop)
    (E : WFMachinesError → Prop) : Prop where
  kept : ∀ {t}, P t → ∀ p client, Kept B R (I t p client) C E
  below : ∀ {t p client m}, I t p client m → Below m.lastProcessedEvent m
  ready : ∀ {t p client m}, I t p client m → m.readyToApplyNextWft = true → C m
  page : ∀ {t p client m u p' client'}, P t → I t p client m → m.readyToApplyNextWft = false →
    HistoryPaginator.extractNextUpdate client p = (.ok u, p', client') →
    Post (fun _ m' => Calm (I t p' client') C m') (fun err _ => E err) (exec (newHistoryFromServer B u) m)
  start : ∀ {t m u p client}, P t → t.Continues m.lastProcessedEvent → Below m.lastProcessedEvent m →
    t.firstUpdate = (.ok u, p, client) →
    Post (fun _ m' => Calm (I t p client) C m') (fun err _ => E err)
      (exec (WorkflowMachines.newWorkFromServer B u t.messages t.legacy) m)

variable {B : Behaviour σ} {R : WorkflowMachines σ → WorkflowMachines σ → Prop} {P : TaskHistory → Prop}
  {I : TaskHistory → HistoryPaginator → Client → WorkflowMachines σ → Prop} {C : WorkflowMachines σ → Prop}
  {E : WFMachinesError → Prop}

structure Inv (P : TaskHistory → Prop) (I : TaskHistory → HistoryPaginator → Client → WorkflowMachines σ → Prop)
    (s : Feeding σ) : Prop where
  below : Below s.wfm.machines.lastProcessedEvent s.wfm.machines
  held : ∀ t, s.task = some t → P t ∧ I t s.paginator s.client s.wfm.machines

/-- Keep the invariant, with an activation made from machines that have it, or fail with `E`. -/
def Goes (P : TaskHistory → Prop) (I : TaskHistory → HistoryPaginator → Client → WorkflowMachines σ → Prop)
    (E : WFMachinesError → Prop) : Except WFMachinesError (Option WorkflowActivation) × Feeding σ → Prop
  | (.ok out, s') => Inv P I s' ∧ ∀ act, out = some act →
      ∃ t m, s'.task = some t ∧ P t ∧ I t s'.paginator s'.client m ∧ m.getWfActivation = (act, s'.wfm.machines)
  | (.error err, _) => E err

theorem Inv.between (h : Below s.wfm.machines.lastProcessedEvent s.wfm.machines) (ht : s.task = none) : Inv P I s :=
  ⟨h, fun t ht' => by rw [ht] at ht'; cases ht'⟩

theorem Quiet.ready {m m' : WorkflowMachines σ} (h : Quiet m m') : m'.readyToApplyNextWft = m.readyToApplyNextWft := by
  simp only [WorkflowMachines.readyToApplyNextWft, h.history, h.current]

section

variable (hcar : Carried B R P I C E) {s : Feeding σ} {t : TaskHistory} (ht : s.task = some t) (hP : P t)
include hcar ht hP

theorem apply_goes {α : Type} {x : WOp σ α} {f : α → Option WorkflowActivation}
    (h : Post (fun a w' => I t s.paginator s.client w'.machines ∧ ∀ act, f a = some act →
        ∃ m, I t s.paginator s.client m ∧ m.getWfActivation = (act, w'.machines)) (fun err _ => E err) (exec x s.wfm)) :
    Goes P I E (s.apply x f) := by
  unfold apply
  generalize exec x s.wfm = r at h
  match r with
  | (.error err, w') => exact h
  | (.ok a, w') =>
    refine ⟨⟨hcar.below h.1, fun t' ht' => ?_⟩, fun act hact => ?_⟩
    · cases ht.symm.trans ht'
      exact ⟨hP, h.1⟩
    · obtain ⟨m, hm, hact⟩ := h.2 act hact
      exact ⟨t, m, ht, hP, hm, hact⟩

omit hcar ht hP in
theorem goes_of_activation {p : HistoryPaginator} {client : Client} (hk : Kept B R (I t p client) C E)
    {m m' : WorkflowMachines σ} {act : WorkflowActivation} (hm : I t p client m)
    (hact : m.getWfActivation = (act, m')) :
    I t p client m' ∧ ∀ act', some act = some act' → ∃ m, I t p client m ∧ m.getWfActivation = (act', m') := by
  refine ⟨?_, fun act' h => ?_⟩
  · have := hk.drain hm
    rwa [hact] at this
  · cases h
    exact ⟨m, hm, hact⟩

theorem apply_react_goes (hI : I t s.paginator s.client s.wfm.machines) {α : Type} {x : WOp σ α}
    (h : Post (fun _ w' => R s.wfm.machines w'.machines) (fun err _ => err.NotFetch) (exec x s.wfm)) :
    Goes P I E (s.apply x fun _ => none) :=
  apply_goes hcar ht hP (h.imp (fun _ _ hR => ⟨(hcar.kept hP _ _).keep hR hI, nofun⟩)
    (fun _ _ he => (hcar.kept hP s.paginator s.client).errors he))

end

variable [Std.Refl R] [IsTrans _ R]

/-- **A step keeps the invariant**, or fails as it may. -/
theorem step_goes (hcar : Carried B R P I C E) (hs : Inv P I s) (had : Admits P s input) (h : s.step B input = some r) :
    Goes P I E r := by
  cases input with
  | task t =>
    obtain ⟨hP, hcont⟩ := had
    unfold step at h
    simp only at h
    split at h
    · rename_i u p client hext
      cases h
      refine apply_goes hcar rfl hP ?_
      refine (newWorkFromServer_calm (hcar.kept hP p client)
        (hcar.start hP hcont hs.below hext)).imp ?_ (fun _ _ he => he)
      rintro act w' ⟨m, hm, hact⟩
      exact goes_of_activation (hcar.kept hP p client) hm hact
    · cases h
  | activation =>
    obtain ⟨t, ht⟩ := Option.ne_none_iff_exists'.mp had
    obtain ⟨hP, hI⟩ := hs.held t ht
    unfold step at h
    simp only at h
    split at h
    · rename_i hj
      cases h
      have hcalm : Calm (I t s.paginator s.client) C s.wfm.machines :=
        ⟨hI, fun h0 => by simp [hasPendingJobs, h0] at hj⟩
      refine apply_goes hcar ht hP ((getNextActivation_calm (hcar.kept hP _ _) hcalm).imp ?_ (fun _ _ he => he))
      rintro act w' ⟨m, hm, hact⟩
      exact goes_of_activation (hcar.kept hP _ _) hm hact
    · cases h
  | queries =>
    obtain ⟨t, ht⟩ := Option.ne_none_iff_exists'.mp had
    obtain ⟨hP, hI⟩ := hs.held t ht
    cases h
    exact apply_goes hcar ht hP (goes_of_activation (hcar.kept hP _ _) hI rfl)
  | localResult res =>
    cases h
    cases ht : s.task with
    | some t =>
      obtain ⟨hP, hI⟩ := hs.held t ht
      exact apply_react_goes hcar ht hP hI (notifyOfLocalResult_by (hcar.kept hP s.paginator s.client).reacts res s.wfm)
    | none =>
      -- the result waits for the next task
      have hwait : s.wfm.awaitingNextWft = true := had.resolve_left (by simp [ht])
      unfold apply notifyOfLocalResult
      rw [exec_get_bind, if_pos (by simp [hwait])]
      exact ⟨.between hs.below ht, nofun⟩
  | drain =>
    cases h
    cases ht : s.task with
    | some t =>
      obtain ⟨hP, hI⟩ := hs.held t ht
      have hk := hcar.kept hP s.paginator s.client
      have hdrain := hk.keep (drainQueuedLocalActivities_by hk.reacts s.wfm.machines) hI
      refine ⟨⟨hcar.below hdrain, fun t' ht' => ?_⟩, nofun⟩
      cases ht'
      exact ⟨hP, hdrain⟩
    | none =>
      have hq := drainQueuedLocalActivities_by (movesOn_quiet (B := B)) s.wfm.machines
      refine ⟨.between ?_ rfl, nofun⟩
      exact hq.lastProcessed ▸ hs.below.of_eq hq.current hq.tasks
  | reported =>
    cases h
    exact ⟨⟨hs.below, hs.held⟩, nofun⟩
  | reset id =>
    cases h
    refine ⟨.between ⟨had.1, fun p hp i hi => ?_⟩ rfl, nofun⟩
    obtain ⟨hp, hle⟩ := List.mem_filter.mp hp
    exact had.2 p hp (of_decide_eq_true hle) i hi
  | completion commands =>
    obtain ⟨t, ht⟩ := Option.ne_none_iff_exists'.mp had
    obtain ⟨hP, hI⟩ := hs.held t ht
    unfold step at h
    simp only at h
    split at h
    · rename_i hready
      cases h
      have hcalm : Calm (I t s.paginator s.client) C s.wfm.machines := ⟨hI, fun _ => hcar.ready hI hready⟩
      refine apply_goes hcar ht hP ?_
      exact (applyCompletion_calm (hcar.kept hP _ _) commands hcalm).imp
        (fun _ _ hI' => ⟨hI', nofun⟩) (fun _ _ he => he)
    · rename_i hready
      split at h
      · rename_i u p client hext
        cases h
        refine apply_goes hcar (s := { s with paginator := p, client := client }) ht hP ?_
        refine (applyCompletion_page (hcar.kept hP p client) commands fun m' hR => ?_).imp
          (fun _ _ hI' => ⟨hI', nofun⟩) (fun _ _ he => he)
        refine hcar.page hP ((hcar.kept hP _ _).keep hR hI) ?_ hext
        rw [Quiet.ready ((hcar.kept hP s.paginator s.client).quiet hR)]
        simpa [WorkflowManager.readyToApplyNextWft] using hready
      · cases h

/-- **The invariant holds in every run.** -/
theorem Reaches.inv (hcar : Carried B R P I C E) (h : Reaches B P s) : Inv P I s := by
  induction h with
  | start inner => exact ⟨⟨Int.le_refl _, nofun⟩, nofun⟩
  | step _ had hstep ih => exact (step_goes hcar ih had hstep).1

end Feeding

end SdkCore
