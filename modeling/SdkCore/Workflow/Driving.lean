import SdkCore.Workflow.Readiness
import SdkCore.Workflow.WorkflowFuture

/-!
# Driving routines until nothing is ready

The driver polls routines in passes, each again as long as its poll has mutated the state or made progress, and stops
after a pass without either. Routines hold the waits that their last poll found pending. To cancel a token or write into
a cell is not recorded as progress (`complete_quiescent`).
-/

namespace SdkCore.WorkflowContext

open NativeWorkflow (RoutineId Pass RoutinePollResult RoutinePendingState mainRoutineId)

/-! ## Routines and their waits -/

variable {S : Type}

/-- What a condition reads: the state, and which tokens are cancelled. -/
structure View (S : Type) where
  state : S
  cancelled : Nat → Bool

/-- What a routine waits with. A condition also sees whether all handlers are finished. -/
inductive Wait (S : Type)
  | condition (p : View S → Bool → Bool) (token : Nat)
  | cancelled (token : Nat)
  | command (id : PendingCommandId)
  | localActivity (n : Nat)

/-- A wait found pending, and what there was to see. -/
structure Polled (S : Type) where
  wait : Wait S
  seen : View S

/-- Whether there was progress, the waits found pending by the running poll, and what was to be seen before it. -/
structure RoutineLoop (S : Type) where
  madeProgress : Bool
  polled : List (Polled S)
  since : View S

/-- What the driver is at. Activations that do not poll are part of the next one. -/
inductive Stage (S : Type)
  | activating
  | polling (pass : Pass) (loop : RoutineLoop S)
  | completed
  | awaitWake
  | ended

/-- The driver with its context, state and routines. -/
structure Driver (S : Type) where
  ctx : Ctx
  state : S
  activeRoutines : List RoutineId
  handlers : List RoutineId
  nextRoutineId : RoutineId
  /-- The waits that the routines held when they were polled last. -/
  held : RoutineId → List (Wait S)
  stage : Stage S

inductive DriverInput (S : Type)
  /-- A job resolves a command, cancels the workflow or starts a handler, which may be finished when it is made. -/
  | resolve (event : UnblockEvent)
  | cancelWorkflow
  | startRoutine (finished : Bool)
  /-- The jobs are applied and the routines are driven. -/
  | drive
  /-- Workflow code uses the context, a callback of a cancelled token runs, or the state is mutated: with `state_mut`,
  or in a cell that the shared reference of `state` gives access to. -/
  | act (a : Action)
  | callback
  | stateMut (f : S → S)
  | state (f : S → S)
  | pollWait (wait : Wait S) (w : Waker)
  /-- The poll ends, with the waits still held, by their place among those polled. -/
  | pending (kept : List Nat) (pendingState : RoutinePendingState)
  | ready
  | fail
  | wake
  | activate

namespace Driver

def new (state : S) : Driver S where
  ctx := init
  state := state
  activeRoutines := []
  handlers := []
  nextRoutineId := mainRoutineId + 1
  held _ := []
  stage := .activating

def allHandlersFinished (d : Driver S) : Bool := d.handlers.isEmpty

def view (d : Driver S) : View S := ⟨d.state, fun t => (d.ctx.tokens t).cancelled⟩

/-- The wait is ready, as read from `v`. -/
def isReadyAt (d : Driver S) (v : View S) : Wait S → Bool
  | .condition p token => p v d.allHandlersFinished || v.cancelled token
  | .cancelled token => v.cancelled token
  | .command id => d.ctx.commandReady id
  | .localActivity n => d.ctx.laReady n

def isReady (d : Driver S) (wait : Wait S) : Bool := d.isReadyAt d.view wait

/-- The context after the poll, and whether the wait is pending. -/
def pollWait (d : Driver S) (wait : Wait S) (w : Waker) : Option (Ctx × Bool) :=
  match wait with
  | .condition _ _ | .cancelled _ => some (d.ctx, !d.isReady wait)
  | .command id => if d.ctx.hasFuture id then some (d.ctx.pollOp id w, !d.isReady wait) else none
  | .localActivity n =>
    match d.ctx.las n with
    | some la =>
      if la.terminated then none
      else
        let (ctx, result) := d.ctx.pollLa n la w
        some (ctx, result.isNone)
    | none => none

/-- Something has happened in the poll. -/
def flagged (d : Driver S) : Bool := d.ctx.stateMutated || d.ctx.progressMade

def takeFlags (d : Driver S) : Driver S := { d with ctx := { d.ctx with stateMutated := false, progressMade := false } }

/-- A routine is polled. -/
def beginLoop (d : Driver S) (pass : Pass) (madeProgress : Bool) : Driver S :=
  { d.takeFlags with stage := .polling pass ⟨madeProgress, [], d.view⟩ }

def beginPass (d : Driver S) (activeRoutines : List RoutineId) : Driver S := d.beginLoop (.start activeRoutines) false

def current (pass : Pass) : RoutineId := pass.todo.headD mainRoutineId

/-- The waits that the routine still holds. -/
def keptWaits (loop : RoutineLoop S) (kept : List Nat) : List (Polled S) := kept.filterMap (loop.polled[·]?)

/-- Another pass, or the end. -/
def endPass (d : Driver S) (pass : Pass) : Driver S :=
  match pass.next with
  | .again => d.beginPass pass.stillActive
  | .complete => { d with activeRoutines := pass.stillActive, stage := .completed }
  | .awaitWake => { d with activeRoutines := pass.stillActive, stage := .awaitWake }

/-- Nothing has happened in the last poll. -/
def stalled (d : Driver S) (pass : Pass) (loop : RoutineLoop S) (waits : List (Wait S))
    (pendingState : RoutinePendingState) : Driver S :=
  let d := { d with held := Function.update d.held (current pass) waits }
  let pass := pass.note ⟨none, loop.madeProgress, some pendingState⟩
  match pass.todo with
  | id :: rest => d.beginLoop { pass with todo := rest, stillActive := pass.stillActive ++ [id] } false
  | [] => d.endPass pass

/-- The routine is polled again if something has happened. -/
def pending (d : Driver S) (pass : Pass) (loop : RoutineLoop S) (waits : List (Wait S))
    (pendingState : RoutinePendingState) : Driver S :=
  if d.flagged then d.beginLoop pass true else d.takeFlags.stalled pass loop waits pendingState

/-- With the main routine the workflow is finished. -/
def ready (d : Driver S) (pass : Pass) (loop : RoutineLoop S) : Driver S :=
  match pass.todo with
  | id :: rest =>
    let pass := pass.note ⟨none, loop.madeProgress || d.flagged, none⟩
    { d with handlers := d.handlers.erase id }.beginLoop { pass with todo := rest } false
  | [] => { d with stage := .ended }

/-! ## Runs -/

/-- Code runs while jobs are applied and routines are polled. -/
def runs (d : Driver S) (ctx : Ctx) : Option (Driver S) :=
  match d.stage with
  | .activating | .polling _ _ => some { d with ctx := ctx }
  | _ => none

def polls (d : Driver S) (wait : Wait S) (ctx : Ctx) (isPending : Bool) : Option (Driver S) :=
  match d.stage with
  | .activating => some { d with ctx := ctx }
  | .polling pass loop =>
    some { d with
      ctx := ctx
      stage := .polling pass
        (if isPending then { loop with polled := ⟨wait, { d with ctx := ctx }.view⟩ :: loop.polled } else loop) }
  | _ => none

def applies (d : Driver S) (d' : Driver S) : Option (Driver S) :=
  match d.stage with
  | .activating => some d'
  | _ => none

def startRoutine (d : Driver S) (finished : Bool) : Driver S :=
  { d with
    activeRoutines := d.activeRoutines ++ [d.nextRoutineId]
    handlers := if finished then d.handlers else d.handlers ++ [d.nextRoutineId]
    nextRoutineId := d.nextRoutineId + 1 }

/-- A handler that was finished when it was made is ready. -/
def canPend (d : Driver S) (pass : Pass) : Bool := pass.todo.head?.all (· ∈ d.handlers)

def input (d : Driver S) : DriverInput S → Option (Driver S)
  | .resolve event =>
    match d.ctx.unblock event with
    | some ctx => d.applies { d with ctx := ctx }
    | none => d.applies { d with stage := .ended }
  | .cancelWorkflow => d.applies { d with ctx := GuestWorkflowInstance.notifyCancel d.ctx }
  | .startRoutine finished => d.applies (d.startRoutine finished)
  | .drive => d.applies (d.beginPass d.activeRoutines)
  | .act a => (d.ctx.act a).bind d.runs
  | .callback => none
  | .stateMut f => { d with state := f d.state }.runs { d.ctx with stateMutated := true }
  | .state f => { d with state := f d.state }.runs d.ctx
  | .pollWait wait w => (d.pollWait wait w).bind fun (ctx, isPending) => d.polls wait ctx isPending
  | .pending kept pendingState =>
    match d.stage with
    | .polling pass loop =>
      if d.canPend pass then some (d.pending pass loop ((keptWaits loop kept).map (·.wait)) pendingState) else none
    | _ => none
  | .ready =>
    match d.stage with
    | .polling pass loop => some (d.ready pass loop)
    | _ => none
  | .fail => some { d with stage := .ended }
  | .wake =>
    match d.stage with
    | .awaitWake => some (d.beginPass d.activeRoutines)
    | _ => none
  | .activate =>
    match d.stage with
    | .completed => some { d with stage := .activating }
    | _ => none

/-- As long as there are callbacks to be run nothing else happens. -/
def step (d : Driver S) (i : DriverInput S) : Option (Driver S) :=
  match d.ctx.callbacks with
  | [] => d.input i
  | callback :: rest =>
    match i with
    | .callback => some { d with ctx := { d.ctx with callbacks := rest }.runCallback callback }
    | _ => none

def Reachable (ok : Driver S → DriverInput S → Prop) : Driver S → Prop :=
  Reach (fun d i d' => step d i = some d') ok fun d => ∃ state, d = new state

/-! ## What is ready is polled again -/

/-- The wait is ready, but would not be as of `v`. -/
def turned (d : Driver S) (v : View S) (wait : Wait S) : Bool := !d.isReadyAt v wait && d.isReady wait

/-- The running poll has turned a wait of an earlier handler ready. -/
def turnsHeld (d : Driver S) (pass : Pass) (loop : RoutineLoop S) : Bool :=
  (pass.stillActive.flatMap d.held).any (d.turned loop.since)

/-- A poll whose tokens or cells turn such a wait ready also mutates the state or makes progress, if the routine or a
handler before it holds the wait. -/
def announces (d : Driver S) : DriverInput S → Bool
  | .pending kept _ =>
    match d.stage with
    | .polling pass loop =>
      d.flagged || !((keptWaits loop kept).any (fun x => d.turned x.seen x.wait) || d.turnsHeld pass loop)
    | _ => true
  | .ready =>
    match d.stage with
    | .polling pass loop => d.flagged || !d.turnsHeld pass loop
    | _ => true
  | _ => true

variable {d d' : Driver S} {loop : RoutineLoop S} {waits : List (Wait S)} {wait : Wait S} {pass : Pass} {ctx : Ctx}
  {v : View S}

/-- Ids of routines differ, and new ones are new. -/
structure Ids (d : Driver S) (ids : List RoutineId) : Prop where
  next : mainRoutineId < d.nextRoutineId
  nodup : ids.Nodup
  bounds : ∀ r ∈ ids, mainRoutineId < r ∧ r < d.nextRoutineId

/-- The wait was not ready as of `v`, or will be polled again. -/
def Excused (d : Driver S) (v : View S) (wait : Wait S) : Prop := d.isReadyAt v wait = true → d.flagged = true

/-- Waits of this routine and of handlers before it in the pass were not ready, unless there was progress. -/
structure Watched (d : Driver S) (pass : Pass) (loop : RoutineLoop S) : Prop where
  polled : ∀ x ∈ loop.polled, d.Excused x.seen x.wait
  held : ∀ r ∈ pass.stillActive, ∀ wait ∈ d.held r,
    (loop.madeProgress = true ∨ pass.passMadeProgress = true) ∨ d.Excused loop.since wait
  guarded : ∀ r ∈ pass.stillActive, r ∈ d.handlers
  ids : d.Ids (pass.todo ++ pass.stillActive)

/-- No held wait is ready. -/
def Quiet (d : Driver S) : Prop := ∀ r ∈ mainRoutineId :: d.activeRoutines, ∀ wait ∈ d.held r, d.isReady wait = false

def Here (d : Driver S) : Stage S → Prop
  | .activating | .awaitWake => d.Ids d.activeRoutines
  | .polling pass loop => d.Watched pass loop
  | .completed => d.ctx.callbacks = [] ∧ d.Ids d.activeRoutines ∧ d.Quiet
  | .ended => True

structure Inv (d : Driver S) : Prop where
  ctx : d.ctx.Ok
  here : d.Here d.stage

theorem Inv.hereAt {d : Driver S} {stage : Stage S} (h : d.Inv) (hs : d.stage = stage) : d.Here stage := hs ▸ h.here

/-! ### What code does -/

/-- Operations made ready are marked. -/
structure Marks (d d' : Driver S) : Prop where
  raises : d.ctx.Raises d'.ctx
  laReady : ∀ n, d'.ctx.laReady n = true → d.ctx.laReady n = true ∨ d'.ctx.progressMade = true
  handlers : d'.handlers = d.handlers
  held : d'.held = d.held
  nextRoutineId : d'.nextRoutineId = d.nextRoutineId
  activeRoutines : d'.activeRoutines = d.activeRoutines

theorem flagged_of_progress (h : d.ctx.progressMade = true) : d.flagged = true := by
  simp [flagged, h]

theorem Marks.flagged (h : Marks d d') (hf : d.flagged = true) : d'.flagged = true := by
  rcases Bool.or_eq_true_iff.mp hf with hm | hp
  · exact Bool.or_eq_true_iff.mpr (.inl (h.raises.mutated hm))
  · exact flagged_of_progress (h.raises.progress hp)

theorem Marks.isReadyAt (h : Marks d d') (hr : d'.isReadyAt v wait = true) :
    d.isReadyAt v wait = true ∨ d'.flagged = true := by
  cases wait with
  | condition p t =>
    simp only [Driver.isReadyAt, allHandlersFinished, h.handlers] at hr
    exact .inl hr
  | cancelled t => exact .inl hr
  | command id =>
    rcases h.raises.ready id hr with hr | hp
    · exact .inl hr
    · exact .inr (flagged_of_progress hp)
  | localActivity n =>
    rcases h.laReady n hr with hr | hp
    · exact .inl hr
    · exact .inr (flagged_of_progress hp)

theorem Excused.marks (h : d.Excused v wait) (hm : Marks d d') : d'.Excused v wait := by
  intro hr
  rcases hm.isReadyAt hr with hr | hf
  · exact hm.flagged (h hr)
  · exact hf

variable {ids : List RoutineId} {w : Waker} {isPending : Bool} {kept : List Nat} {id : RoutineId}
  {pendingState : RoutinePendingState} {d₁ : Driver S} {i : DriverInput S}

theorem Ids.congr (h : d.Ids ids) (hn : d'.nextRoutineId = d.nextRoutineId) : d'.Ids ids :=
  ⟨hn ▸ h.next, h.nodup, fun r hr => hn ▸ h.bounds r hr⟩

/-- Code that marks them keeps the watch. -/
theorem Watched.marks (h : d.Watched pass loop) (hm : Marks d d') : d'.Watched pass loop := by
  constructor
  · exact fun x hx => (h.polled x hx).marks hm
  · intro r hr wait hw
    rw [hm.held] at hw
    exact (h.held r hr wait hw).imp_right fun he => he.marks hm
  · exact fun r hr => hm.handlers ▸ h.guarded r hr
  · exact h.ids.congr hm.nextRoutineId

theorem Inv.marks (h : d.Inv) (hm : Marks d d') (hok : d'.ctx.Ok) (hstage : d'.stage = d.stage)
    (hruns : d.stage ≠ .completed) : d'.Inv := by
  refine ⟨hok, ?_⟩
  rw [hstage]
  cases hs : d.stage with
  | activating | awaitWake =>
    show d'.Ids d'.activeRoutines
    rw [hm.activeRoutines]
    exact (h.hereAt hs).congr hm.nextRoutineId
  | polling pass loop => exact (h.hereAt hs).marks hm
  | completed => exact absurd hs hruns
  | ended => trivial

theorem Marks.of_changes (hc : d.ctx.Changes ctx)
    (hla : ∀ n, ctx.laReady n = true → d.ctx.laReady n = true ∨ ctx.progressMade = true) :
      Marks d { d with ctx := ctx } :=
  ⟨.changes hc, hla, rfl, rfl, rfl, rfl⟩

theorem runs_eq_some (h : d.runs ctx = some d') : (d.stage ≠ .completed) ∧ d' = { d with ctx := ctx } := by
  unfold runs at h
  split at h
  · next hs => exact ⟨by simp [hs], (Option.some.inj h).symm⟩
  · next hs => exact ⟨by simp [hs], (Option.some.inj h).symm⟩
  · cases h

theorem Inv.act {a : Action} (h : d.Inv) (ha : d.ctx.act a = some ctx) (hr : d.runs ctx = some d') : d'.Inv := by
  obtain ⟨hne, rfl⟩ := runs_eq_some hr
  exact h.marks (.of_changes (h.ctx.act_changes ha) fun n => Ctx.act_laReady h.ctx ha) (h.ctx.act ha) rfl hne

theorem Inv.callback {callback : Callback} {rest : List Callback} (h : d.Inv)
    (hc : d.ctx.callbacks = callback :: rest) :
    Inv { d with ctx := { d.ctx with callbacks := rest }.runCallback callback } := by
  obtain ⟨hok, hcb⟩ := h.ctx.next hc
  have hrest : Ctx.Raises d.ctx { d.ctx with callbacks := rest } :=
    .of_eq (fun _ => rfl) rfl fun h => h
  refine h.marks ⟨hrest.trans (.changes (hok.runCallback_changes hcb)), fun n hr => ?_, rfl, rfl, rfl, rfl⟩
    (hok.runCallback hcb) rfl fun hs => ?_
  · exact Ctx.runCallback_laReady hok hr
  · cases hc.symm.trans (h.hereAt hs).1

theorem Inv.mutate (h : d.Inv) (f : S → S) (mutated : Bool) (hm : d.ctx.stateMutated = true → mutated = true)
    (hr : { d with state := f d.state }.runs { d.ctx with stateMutated := mutated } = some d') : d'.Inv := by
  obtain ⟨hne, rfl⟩ := runs_eq_some hr
  exact h.marks ⟨.of_eq (fun _ => rfl) rfl hm, fun _ hr => .inl hr, rfl, rfl, rfl, rfl⟩
    ⟨{ h.ctx.sound with }, { h.ctx.listens with }, { h.ctx.laSound with }⟩ rfl hne

/-! ### Polls of waits -/

/-- A pending wait is not ready as of then, or there was progress. -/
theorem pollWait_spec (hok : d.ctx.Ok) (h : d.pollWait wait w = some (ctx, isPending)) :
    Marks d { d with ctx := ctx } ∧ ctx.Ok ∧
      (isPending = true → Excused { d with ctx := ctx } (view { d with ctx := ctx }) wait) := by
  cases wait with
  | condition | cancelled =>
    cases h
    refine ⟨.of_changes .refl fun _ hr => .inl hr, hok, fun hp hr => ?_⟩
    rw [show d.isReady _ = true from hr] at hp
    cases hp
  | command id =>
    simp only [pollWait] at h
    split at h
    · next hf =>
      cases h
      have hact : d.ctx.act (.poll id w) = some (d.ctx.pollOp id w) := if_pos hf
      have hm : Marks d { d with ctx := d.ctx.pollOp id w } :=
        .of_changes (hok.act_changes hact) fun n => Ctx.act_laReady hok hact
      refine ⟨hm, hok.act hact, fun hp hr => ?_⟩
      rcases hm.isReadyAt hr with hr | hflag
      · rw [show d.isReady (.command id) = true from hr] at hp
        cases hp
      · exact hflag
    · cases h
  | localActivity n =>
    simp only [pollWait] at h
    split at h
    · next la hla =>
      split at h
      · cases h
      · next hterm =>
        cases h
        have hact : d.ctx.act (.pollLa n w) = some (d.ctx.pollLa n la w).1 := by
          simp only [Ctx.act, Ctx.withLa, hla, hterm, if_false, Bool.false_eq_true]
        refine ⟨.of_changes (hok.act_changes hact) fun m => Ctx.act_laReady hok hact, hok.act hact, fun hp hr => ?_⟩
        have hpend : (d.ctx.pollLa n la w).2 = none := Option.isNone_iff_eq_none.mp hp
        exact flagged_of_progress (Ctx.pollLa_laReady hok hla w hpend hr)
    · cases h

theorem Inv.polls (h : d.Inv) (hp : d.pollWait wait w = some (ctx, isPending))
    (hr : d.polls wait ctx isPending = some d') : d'.Inv := by
  obtain ⟨hm, hok, hexcused⟩ := pollWait_spec h.ctx hp
  unfold Driver.polls at hr
  split at hr
  · next hs =>
    cases hr
    exact h.marks hm hok rfl (by simp [hs])
  · next pass loop hs =>
    cases hr
    have hwatched : Watched { d with ctx := ctx } pass loop := (h.hereAt hs).marks hm
    refine ⟨hok, ?_⟩
    cases isPending with
    | false => exact ⟨hwatched.polled, hwatched.held, hwatched.guarded, hwatched.ids.congr rfl⟩
    | true =>
      refine ⟨fun x hin => ?_, hwatched.held, hwatched.guarded, hwatched.ids.congr rfl⟩
      rcases List.mem_cons.mp hin with rfl | hin
      · exact hexcused rfl
      · exact hwatched.polled x hin
  · cases hr

/-! ### The loop and the passes -/

theorem Inv.beginLoop {madeProgress : Bool} (hok : d.ctx.Ok) (hids : d.Ids (pass.todo ++ pass.stillActive))
    (hguarded : ∀ r ∈ pass.stillActive, r ∈ d.handlers) (hheld : ∀ r ∈ pass.stillActive, ∀ wait ∈ d.held r,
      (madeProgress = true ∨ pass.passMadeProgress = true) ∨ d.isReady wait = false) :
    (d.beginLoop pass madeProgress).Inv where
  ctx := ⟨{ hok.sound with }, { hok.listens with }, { hok.laSound with }⟩
  here := by
    refine ⟨fun _ hx => (by cases hx), fun r hr wait hw => ?_, hguarded, hids.congr rfl⟩
    refine (hheld r hr wait hw).imp_right fun hready hr => ?_
    rw [show (d.beginLoop pass madeProgress).isReadyAt d.view wait = d.isReady wait by cases wait <;> rfl, hready] at hr
    cases hr

theorem Inv.beginPass (hok : d.ctx.Ok) (hids : d.Ids ids) : (d.beginPass ids).Inv := by
  have hids : d.Ids (ids ++ []) := by rwa [List.append_nil]
  exact Inv.beginLoop hok hids (fun _ hr => by cases hr) fun _ hr => by cases hr

/-- What was not ready and was not turned is not ready. -/
theorem Excused.not_ready (h : d.Excused v wait) (hf : d.flagged = false) (ht : ¬ d.turned v wait = true) :
    d.isReady wait = false := by
  cases hv : d.isReadyAt v wait with
  | true =>
    rw [h hv] at hf
    cases hf
  | false =>
    rw [turned, hv] at ht
    exact Bool.eq_false_iff.mpr ht

theorem mem_of_mem_keptWaits {x : Polled S} (h : x ∈ keptWaits loop kept) : x ∈ loop.polled := by
  obtain ⟨i, -, hi⟩ := List.mem_filterMap.mp h
  exact List.mem_of_getElem? hi

theorem Inv.endPass (hok : d.ctx.Ok) (hcb : d.ctx.callbacks = []) (hids : d.Ids pass.stillActive)
    (hmain : ∀ wait ∈ d.held mainRoutineId, d.isReady wait = false)
    (hheld : ∀ r ∈ pass.stillActive, ∀ wait ∈ d.held r, pass.passMadeProgress = true ∨ d.isReady wait = false) :
    (d.endPass pass).Inv := by
  unfold Driver.endPass
  cases hn : pass.next with
  | again => exact Inv.beginPass hok hids
  | awaitWake => exact ⟨hok, hids.congr rfl⟩
  | complete =>
    have hprogress : ¬ pass.passMadeProgress = true := by
      intro hp
      simp only [Pass.next, hp, if_true] at hn
      cases hn
    refine ⟨hok, hcb, hids.congr rfl, fun r hr wait hw => ?_⟩
    have hready : ∀ wait, isReady { d with activeRoutines := pass.stillActive, stage := .completed } wait =
      d.isReady wait :=
      fun wait => by cases wait <;> rfl
    rcases List.mem_cons.mp hr with rfl | hr
    · exact hmain wait hw
    · exact (hheld r hr wait hw).resolve_left hprogress

theorem Ids.rotate {rest active : List RoutineId} (h : d.Ids (id :: rest ++ active)) :
    d.Ids (rest ++ (active ++ [id])) := by
  have hperm : (rest ++ (active ++ [id])).Perm (id :: rest ++ active) := by
    rw [← List.append_assoc]
    exact List.perm_append_singleton _ _
  exact ⟨h.next, hperm.nodup_iff.mpr h.nodup, fun r hr => h.bounds r (hperm.mem_iff.mp hr)⟩

theorem Inv.stalled (hok : d.ctx.Ok) (hcb : d.ctx.callbacks = []) (hids : d.Ids (pass.todo ++ pass.stillActive))
    (hguarded : ∀ r ∈ pass.stillActive, r ∈ d.handlers) (hcan : d.canPend pass = true)
    (hwaits : ∀ wait ∈ waits, d.isReady wait = false) (hheld : ∀ r ∈ pass.stillActive, ∀ wait ∈ d.held r,
      (loop.madeProgress = true ∨ pass.passMadeProgress = true) ∨ d.isReady wait = false) :
    (d.stalled pass loop waits pendingState).Inv := by
  obtain ⟨todo, active, progress, interceptor⟩ := pass
  have hready : ∀ held wait, isReady { d with held := held } wait = d.isReady wait :=
    fun _ wait => by cases wait <;> rfl
  -- the waits of the others are what they were
  have hothers : ∀ id, id ∉ active → ∀ r ∈ active, ∀ wait ∈ Function.update d.held id waits r,
      (progress || loop.madeProgress) = true ∨ d.isReady wait = false := by
    intro id hid r hr wait hw
    have hne : r ≠ id := fun he => hid (he ▸ hr)
    rw [Function.update_of_ne hne] at hw
    refine (hheld r hr wait hw).imp_left fun hp => ?_
    rcases hp with hp | hp
    · rw [hp, Bool.or_true]
    · rw [show progress = true from hp, Bool.true_or]
  cases todo with
  | nil =>
    have hmain : mainRoutineId ∉ active := fun hin => Nat.lt_irrefl _ (hids.bounds _ hin).1
    refine Inv.endPass hok hcb ⟨hids.next, hids.nodup, hids.bounds⟩ (fun wait hw => ?_) fun r hr wait hw => ?_
    · have hw : wait ∈ Function.update d.held mainRoutineId waits mainRoutineId := hw
      exact hwaits wait hw
    · exact hothers mainRoutineId hmain r hr wait hw
  | cons id rest =>
    have hid : id ∉ active := fun hin =>
      (List.nodup_cons.mp hids.nodup).1 (List.mem_append_right rest hin)
    refine Inv.beginLoop hok (hids.rotate.congr rfl) (fun r hr => ?_) fun r hr wait hw => ?_
    · rcases List.mem_append.mp hr with hr | hr
      · exact hguarded r hr
      · rw [List.mem_singleton.mp hr]
        exact of_decide_eq_true hcan
    · rcases List.mem_append.mp hr with hr | hr
      · exact (hothers id hid r hr wait hw).imp_left .inr
      · rw [List.mem_singleton.mp hr] at hw
        have hw : wait ∈ Function.update d.held id waits id := hw
        rw [Function.update_self] at hw
        exact .inr (hwaits wait hw)

theorem Watched.held_not_ready (h : d.Watched pass loop) (hf : d.flagged = false)
    (ht : ¬ d.turnsHeld pass loop = true) : ∀ r ∈ pass.stillActive, ∀ wait ∈ d.held r,
      (loop.madeProgress = true ∨ pass.passMadeProgress = true) ∨ d.isReady wait = false := by
  intro r hr wait hin
  refine (h.held r hr wait hin).imp_right fun he => he.not_ready hf fun hw => ht ?_
  exact List.any_eq_true.mpr ⟨wait, List.mem_flatMap.mpr ⟨r, hr, hin⟩, hw⟩

theorem Inv.pending (h : d.Inv) (hs : d.stage = .polling pass loop) (hcb : d.ctx.callbacks = [])
    (hcan : d.canPend pass = true) (ha : d.announces (.pending kept pendingState) = true) :
    (d.pending pass loop ((keptWaits loop kept).map (·.wait)) pendingState).Inv := by
  have hw : d.Watched pass loop := h.hereAt hs
  unfold Driver.pending
  split
  · exact Inv.beginLoop h.ctx hw.ids hw.guarded fun _ _ _ _ => .inl (.inl rfl)
  · next hf =>
    have hf : d.flagged = false := Bool.eq_false_iff.mpr hf
    simp only [announces, hs, hf, Bool.false_or, Bool.not_eq_true', Bool.or_eq_false_iff] at ha
    have hready : ∀ wait, d.takeFlags.isReady wait = d.isReady wait := fun wait => by cases wait <;> rfl
    refine Inv.stalled ⟨{ h.ctx.sound with }, { h.ctx.listens with }, { h.ctx.laSound with }⟩ hcb
      (hw.ids.congr rfl) hw.guarded hcan (fun wait hin => ?_) fun r hr wait hin => ?_
    · obtain ⟨x, hx, rfl⟩ := List.mem_map.mp hin
      exact (hw.polled x (mem_of_mem_keptWaits hx)).not_ready hf (List.any_eq_false.mp ha.1 x hx)
    · exact hw.held_not_ready hf (Bool.eq_false_iff.mp ha.2) r hr wait hin

theorem isReady_finish {r : RoutineId} (hr : r ∈ d.handlers) (hne : r ≠ id) (wait : Wait S) :
    isReady { d with handlers := d.handlers.erase id } wait = d.isReady wait := by
  have hin : r ∈ d.handlers.erase id := (List.mem_erase_of_ne hne).mpr hr
  have hfin : (d.handlers.erase id).isEmpty = d.handlers.isEmpty := by
    rw [List.isEmpty_eq_false_iff_exists_mem.mpr ⟨r, hin⟩, List.isEmpty_eq_false_iff_exists_mem.mpr ⟨r, hr⟩]
  cases wait with
  | condition p t => simp only [isReady, isReadyAt, view, allHandlersFinished, hfin]
  | cancelled | command | localActivity => rfl

theorem Inv.ready (h : d.Inv) (hs : d.stage = .polling pass loop) (ha : d.announces .ready = true) :
    (d.ready pass loop).Inv := by
  have hw : d.Watched pass loop := h.hereAt hs
  obtain ⟨todo, active, progress, interceptor⟩ := pass
  cases todo with
  | nil => exact ⟨h.ctx, trivial⟩
  | cons id rest =>
    obtain ⟨hid, hnodup⟩ := List.nodup_cons.mp hw.ids.nodup
    have hne : ∀ r ∈ active, r ≠ id := fun r hr he => hid (List.mem_append_right rest (he ▸ hr))
    refine Inv.beginLoop h.ctx ⟨hw.ids.next, hnodup,
      fun r hr => hw.ids.bounds r (List.mem_cons_of_mem _ hr)⟩ (fun r hr => ?_)
      fun r hr wait hin => ?_
    · exact (List.mem_erase_of_ne (hne r hr)).mpr (hw.guarded r hr)
    · rw [isReady_finish (hw.guarded r hr) (hne r hr)]
      show (_ ∨ (progress || (loop.madeProgress || d.flagged)) = true) ∨ _
      cases hf : d.flagged with
      | true => exact .inl (.inr (by simp))
      | false =>
        simp only [announces, hs, hf, Bool.false_or, Bool.not_eq_true'] at ha
        rcases hw.held_not_ready hf (Bool.eq_false_iff.mp ha) r hr wait hin with hp | hready
        · rcases hp with hp | hp
          · simp [hp]
          · simp [show progress = true from hp]
        · exact .inr hready

theorem applies_eq_some (h : d.applies d₁ = some d') : d.stage = .activating ∧ d' = d₁ := by
  unfold applies at h
  split at h
  · next hs => exact ⟨hs, (Option.some.inj h).symm⟩
  · cases h

theorem Ids.startRoutine (h : d.Ids d.activeRoutines) (finished : Bool) :
    (d.startRoutine finished).Ids (d.startRoutine finished).activeRoutines := by
  have hlt : ∀ r ∈ d.activeRoutines, r ≠ d.nextRoutineId := fun r hr => Nat.ne_of_lt (h.bounds r hr).2
  refine ⟨Nat.lt_succ_of_lt h.next, List.nodup_append.mpr ⟨h.nodup, List.nodup_singleton _, fun r hr r' hr' => ?_⟩,
    fun r hr => ?_⟩
  · rw [List.mem_singleton.mp hr']
    exact hlt r hr
  · rcases List.mem_append.mp hr with hr | hr
    · exact ⟨(h.bounds r hr).1, Nat.lt_succ_of_lt (h.bounds r hr).2⟩
    · rw [List.mem_singleton.mp hr]
      exact ⟨h.next, Nat.lt_succ_self _⟩

theorem Inv.of_activating (hok : d.ctx.Ok) (hs : d.stage = .activating) (hids : d.Ids d.activeRoutines) : d.Inv :=
  ⟨hok, by rw [hs]; exact hids⟩

theorem Inv.applies (h : d.Inv) (ha : d.applies d₁ = some d')
    (hd : d.stage = .activating → d.Ids d.activeRoutines → d₁.Inv) : d'.Inv := by
  obtain ⟨hs, rfl⟩ := applies_eq_some ha
  exact hd hs (h.hereAt hs)

theorem Inv.input (h : d.Inv) (hcb : d.ctx.callbacks = []) (ha : d.announces i = true) (hi : d.input i = some d') :
    d'.Inv := by
  cases i with
  | resolve event =>
    simp only [Driver.input, Ctx.unblock] at hi
    split at hi
    · next ctx hu =>
      split at hu
      · cases hu
        exact h.applies hi fun hs hids => .of_activating (h.ctx.send event) hs (hids.congr rfl)
      · cases hu
    · exact h.applies hi fun _ _ => ⟨h.ctx, trivial⟩
  | cancelWorkflow =>
    have hc := h.ctx.cancelToken 0
    have hok : (GuestWorkflowInstance.notifyCancel d.ctx).Ok :=
      ⟨{ hc.sound with }, { hc.listens with }, { hc.laSound with }⟩
    exact h.applies hi fun hs hids => .of_activating hok hs (hids.congr rfl)
  | startRoutine finished => exact h.applies hi fun hs hids => .of_activating h.ctx hs (hids.startRoutine finished)
  | drive => exact h.applies hi fun _ hids => .beginPass h.ctx hids
  | act a =>
    obtain ⟨ctx, hact, hr⟩ := Option.bind_eq_some_iff.mp hi
    exact h.act hact hr
  | callback => cases hi
  | stateMut f => exact h.mutate f true (fun _ => rfl) hi
  | state f => exact h.mutate f d.ctx.stateMutated (fun hm => hm) hi
  | pollWait wait w =>
    obtain ⟨⟨ctx, isPending⟩, hp, hr⟩ := Option.bind_eq_some_iff.mp hi
    exact h.polls hp hr
  | pending kept pendingState =>
    simp only [Driver.input] at hi
    split at hi
    · next pass loop hs =>
      split at hi
      · next hcan =>
        cases hi
        exact h.pending hs hcb hcan ha
      · cases hi
    · cases hi
  | ready =>
    simp only [Driver.input] at hi
    split at hi
    · next pass loop hs =>
      cases hi
      exact h.ready hs ha
    · cases hi
  | fail =>
    cases hi
    exact ⟨h.ctx, trivial⟩
  | wake =>
    simp only [Driver.input] at hi
    split at hi
    · next hs =>
      cases hi
      exact .beginPass h.ctx (h.hereAt hs)
    · cases hi
  | activate =>
    simp only [Driver.input] at hi
    split at hi
    · next hs =>
      cases hi
      exact ⟨h.ctx, (h.hereAt hs).2.1.congr rfl⟩
    · cases hi

/-- Every step keeps the invariant. -/
theorem Inv.step (h : d.Inv) (ha : d.announces i = true) (hs : Driver.step d i = some d') : d'.Inv := by
  unfold Driver.step at hs
  split at hs
  · next hcb => exact h.input hcb ha hs
  · next callback rest hcb =>
    split at hs
    · cases hs
      exact h.callback hcb
    · cases hs

theorem Inv.new (state : S) : (new state).Inv :=
  ⟨Ctx.init_ok, ⟨Nat.lt_succ_self _, List.nodup_nil, fun _ hr => by cases hr⟩⟩

theorem Reachable.inv (h : Reachable (fun d i => d.announces i = true) d) : d.Inv := by
  refine Reach.invariant ?_ (fun _ _ _ hinv hi hs => hinv.step hi hs) h
  rintro _ ⟨state, rfl⟩
  exact Inv.new state

/-- **The driver stops only when nothing is ready**, in every run in which a poll mutates the state or makes progress
whenever the tokens that it cancels, or what it writes into cells, turn a wait ready that the routine itself or a
handler polled before it in the pass holds: no wait that a live routine holds is ready when the routines were driven. -/
theorem complete_quiescent (h : Reachable (fun d i => d.announces i = true) d) (hc : d.stage = .completed) :
    ∀ r ∈ mainRoutineId :: d.activeRoutines, ∀ wait ∈ d.held r, d.isReady wait = false :=
  (h.inv.hereAt hc).2.2

def isCompleted (d : Driver S) : Bool :=
  match d.stage with
  | .completed => true
  | _ => false

theorem stage_of_isCompleted (h : d.isCompleted = true) : d.stage = .completed := by
  unfold isCompleted at h
  split at h
  · assumption
  · cases h

def handlerWaits : List (DriverInput Nat) :=
  [.act .newToken, .startRoutine false, .drive, .pollWait (.cancelled 1) .noop, .pending [0] .handler]

/-- The main routine starts a timer, cancels the token, mutates the state and waits. It is polled again, then the
handler, which finishes before the completion. -/
theorem complete_quiescent_mutated :
    ∃ d : Driver Nat, Reachable (fun d i => d.announces i = true) d ∧ d.stage = .completed ∧
      d.held mainRoutineId ≠ [] ∧ ∀ wait ∈ d.held mainRoutineId, d.isReady wait = false := by
  obtain ⟨d, hr, hc, hheld⟩ : ∃ d : Driver Nat, Reachable (fun d i => d.announces i = true) d ∧ d.isCompleted = true ∧
      (d.held mainRoutineId).isEmpty = false :=
    Reach.exists_of_trace (handlerWaits ++
      [.act (.timer 0 10), .act (.cancelToken 1), .stateMut (· + 1), .pollWait (.command (.timer 1)) .noop,
        .pending [0] .handler, .pollWait (.command (.timer 1)) .noop, .pending [0] .handler,
        .pollWait (.cancelled 1) .noop, .ready, .pollWait (.command (.timer 1)) .noop, .pending [0] .handler])
      (by decide) (fun _ _ _ h => h) (.start ⟨0, rfl⟩)
  have hc : d.stage = .completed := stage_of_isCompleted hc
  exact ⟨d, hr, hc, List.isEmpty_eq_false_iff.mp hheld, complete_quiescent hr hc _ List.mem_cons_self⟩

/-- The main routine cancels the token and waits for a timer. The handler's wait is ready at the completion. -/
theorem cancelled_token_not_polled :
    ∃ d : Driver Nat, Reachable (fun _ _ => True) d ∧ d.stage = .completed ∧
      ∃ r ∈ d.activeRoutines, ∃ wait ∈ d.held r, d.isReady wait = true := by
  obtain ⟨d, hr, hc, hactive, hready⟩ : ∃ d : Driver Nat, Reachable (fun _ _ => True) d ∧ d.isCompleted = true ∧
      d.activeRoutines = [1] ∧ (d.held 1).any d.isReady = true :=
    Reach.exists_of_trace (handlerWaits ++
      [.act (.timer 0 10), .act (.cancelToken 1), .pollWait (.command (.timer 1)) .noop, .pending [0] .handler])
      (by decide) (fun _ _ _ h => h) (.start ⟨0, rfl⟩)
  refine ⟨d, hr, stage_of_isCompleted hc, 1, by rw [hactive]; exact List.mem_singleton_self _, ?_⟩
  exact List.any_eq_true.mp hready

end Driver

end SdkCore.WorkflowContext
