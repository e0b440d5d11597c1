import SdkCore.Workflow.Actions
import SdkCore.Lib.Reach

/-!
# Resolutions find what waits for them

Resolutions go to the unblockers of their commands, and the cancellation to the root token. Core resolves what it was
told of, once for each kind, and no timer whose cancellation it has received (`resolution_finds_unblocker`).
-/

namespace SdkCore.WorkflowContext

/-! ## The instance and its inputs -/

structure GuestWorkflowInstance where
  ctx : Ctx
  sent : List WorkflowCommand
  resolved : Finset PendingCommandId
  panicked : Bool

inductive Input
  /-- Workflow code runs, while jobs are applied or when routines are polled. -/
  | act (a : Action)
  /-- The next callback of a cancelled token runs. -/
  | callback
  | enterRuntimePoll (w : Waker)
  | leaveRuntimePoll
  | resolve (event : UnblockEvent)
  | cancelWorkflow
  | complete

namespace GuestWorkflowInstance

def new : GuestWorkflowInstance where
  ctx := init
  sent := []
  resolved := ∅
  panicked := false

/-- Core knows of no cancellation of the timer, and only fires it. -/
def knownTimer (s : GuestWorkflowInstance) : UnblockEvent → Bool
  | ⟨.timer seq, result⟩ => result = .fired && .cancelTimer seq ∉ s.sent
  | _ => true

/-- Core may resolve the command. -/
def canResolve (s : GuestWorkflowInstance) (event : UnblockEvent) : Bool :=
  s.sent.any (event.id ∈ ·.issues) && event.id ∉ s.resolved && s.knownTimer event

/-- The future has to be there. -/
def applyResolution (s : GuestWorkflowInstance) (event : UnblockEvent) : GuestWorkflowInstance :=
  match s.ctx.unblock event with
  | some ctx => { s with ctx := ctx, resolved := insert event.id s.resolved }
  | none => { s with panicked := true }

def notifyCancel (s : Ctx) : Ctx := { s.cancelToken 0 with progressMade := true }

def runNext (s : GuestWorkflowInstance) (callback : Callback) (rest : List Callback) : GuestWorkflowInstance :=
  { s with ctx := { s.ctx with callbacks := rest }.runCallback callback }

/-- An input when there are no callbacks to be run. -/
def input (s : GuestWorkflowInstance) : Input → Option GuestWorkflowInstance
  | .act a => (s.ctx.act a).map fun ctx => { s with ctx := ctx }
  | .callback => none
  | .enterRuntimePoll w => some { s with ctx := { s.ctx with currentWaker := some w } }
  | .leaveRuntimePoll => some { s with ctx := { s.ctx with currentWaker := none } }
  | .resolve event => if s.canResolve event then some (s.applyResolution event) else none
  | .cancelWorkflow => some { s with ctx := notifyCancel s.ctx }
  | .complete => some { s with sent := s.sent ++ s.ctx.commands, ctx := { s.ctx with commands := [] } }

/-- As long as there are callbacks to be run nothing else happens. -/
def step (s : GuestWorkflowInstance) (i : Input) : Option GuestWorkflowInstance :=
  if s.panicked then none
  else
    match s.ctx.callbacks with
    | [] => s.input i
    | callback :: rest =>
      match i with
      | .callback => some (s.runNext callback rest)
      | _ => none

def Reachable (ok : GuestWorkflowInstance → Input → Prop) : GuestWorkflowInstance → Prop :=
  Reach (fun s i s' => step s i = some s') ok (· = new)

variable {s s' : GuestWorkflowInstance}

theorem step_cases {i : Input} (h : step s i = some s') :
    s.panicked = false ∧
    ((∃ callback rest, i = .callback ∧ s.ctx.callbacks = callback :: rest ∧ s' = s.runNext callback rest) ∨
    (s.ctx.callbacks = [] ∧ s.input i = some s')) := by
  unfold step at h
  split at h
  · cases h
  · next hp =>
    refine ⟨Bool.eq_false_iff.mpr hp, ?_⟩
    split at h
    · next hc => exact .inr ⟨hc, h⟩
    · next callback rest hc =>
      split at h
      · exact .inl ⟨callback, rest, rfl, hc, (Option.some.inj h).symm⟩
      · cases h

/-- A callback or action runs, a command is resolved, or the context is cancelled, polled or completed. -/
theorem step_ctx {i : Input} (h : step s i = some s') :
    (∃ callback rest, i = .callback ∧ s.ctx.callbacks = callback :: rest ∧
      s'.ctx = { s.ctx with callbacks := rest }.runCallback callback) ∨
    (∃ a, i = .act a ∧ s.ctx.act a = some s'.ctx) ∨
    (∃ event, event.id ∈ s.ctx.pendingUnblocks ∧ s'.ctx = s.ctx.send event) ∨
    ∃ t w p cs, Ctx.Plains s.ctx t ∧
      s'.ctx = { t with currentWaker := w, progressMade := p, commands := cs } := by
  obtain ⟨-, ⟨callback, rest, hi, hc, rfl⟩ | ⟨-, hs⟩⟩ := step_cases h
  · exact .inl ⟨callback, rest, hi, hc, rfl⟩
  · cases i with
    | act a =>
      obtain ⟨ctx, ha, rfl⟩ := Option.map_eq_some_iff.mp hs
      exact .inr (.inl ⟨a, rfl, ha⟩)
    | callback => cases hs
    | resolve event =>
      simp only [input, applyResolution, Ctx.unblock] at hs
      split at hs
      · cases hs
        by_cases hp : event.id ∈ s.ctx.pendingUnblocks
        · exact .inr (.inr (.inl ⟨event, hp, by rw [if_pos hp]⟩))
        · exact .inr (.inr (.inr ⟨s.ctx, _, _, _, .refl, by rw [if_neg hp]⟩))
      · cases hs
    | cancelWorkflow =>
      cases hs
      exact .inr (.inr (.inr ⟨_, _, _, _, .single (.cancelToken 0), rfl⟩))
    | enterRuntimePoll | leaveRuntimePoll | complete =>
      cases hs
      exact .inr (.inr (.inr ⟨s.ctx, _, _, _, .refl, rfl⟩))

/-! ## What waits for a resolution -/

end GuestWorkflowInstance

namespace Ctx

variable {s s' : Ctx}

/-- An unblocker is there, or a timer's cancellation was pushed. -/
def Waits (s : Ctx) (id : PendingCommandId) : Prop :=
  id ∈ s.pendingUnblocks ∨ ∃ seq, id = .timer seq ∧ .cancelTimer seq ∈ s.commands

/-- Only a cancelled timer loses its unblocker, and new commands have theirs. -/
structure Grows (s s' : Ctx) : Prop where
  commands : ∀ c ∈ s.commands, c ∈ s'.commands
  waits : ∀ id, s.Waits id → s'.Waits id
  issued : ∀ c ∈ s'.commands, c ∈ s.commands ∨ ∀ id ∈ c.issues, s'.Waits id

namespace Grows

theorem trans {t : Ctx} (h : Grows s s') (h' : Grows s' t) : Grows s t where
  commands c hc := h'.commands c (h.commands c hc)
  waits id hid := h'.waits id (h.waits id hid)
  issued c hc := by
    rcases h'.issued c hc with hc | hc
    · rcases h.issued c hc with hc | hc
      · exact .inl hc
      · exact .inr fun id hid => h'.waits id (hc id hid)
    · exact .inr hc

theorem of_eq (hp : s'.pendingUnblocks = s.pendingUnblocks) (hc : s'.commands = s.commands) : Grows s s' where
  commands c h := by rwa [hc]
  waits id h := by
    unfold Waits
    rwa [hp, hc]
  issued c h := .inl (hc ▸ h)

theorem issue {k : SeqKind} {c : Nat → WorkflowCommand} (hc : ∀ seq, (c seq).issues = k.ids seq) :
    Grows s (s.issue k c) where
  commands d hd := by
    rw [issue_commands]
    exact List.mem_append_left _ hd
  waits id hid := by
    rcases hid with hid | ⟨seq, rfl, hseq⟩
    · exact .inl (mem_issue_pendingUnblocks.mpr (.inl hid))
    · refine .inr ⟨seq, rfl, ?_⟩
      rw [issue_commands]
      exact List.mem_append_left _ hseq
  issued d hd := by
    rw [issue_commands] at hd
    rcases List.mem_append.mp hd with hd | hd
    · exact .inl hd
    · rw [List.mem_singleton.mp hd]
      refine .inr fun id hid => .inl (mem_issue_pendingUnblocks.mpr (.inr ?_))
      rwa [← hc]

theorem push {c : WorkflowCommand} (hc : c.issues = []) : Grows s (s.pushCommand c) where
  commands d hd := List.mem_append_left _ hd
  waits id hid := by
    rcases hid with hid | ⟨seq, rfl, hseq⟩
    · exact .inl hid
    · exact .inr ⟨seq, rfl, List.mem_append_left _ hseq⟩
  issued d hd := by
    rcases List.mem_append.mp hd with hd | hd
    · exact .inl hd
    · rw [List.mem_singleton.mp hd, hc]
      exact .inr fun id hid => by cases hid

theorem cancelTimer (seq : Nat) :
    Grows s ((s.send ⟨.timer seq, .cancelled⟩).pushCommand (.cancelTimer seq)) where
  commands d hd := List.mem_append_left _ hd
  waits id hid := by
    rcases hid with hid | ⟨seq', rfl, hseq⟩
    · by_cases he : id = .timer seq
      · exact .inr ⟨seq, he, List.mem_append_right _ (List.mem_singleton_self _)⟩
      · exact .inl (Finset.mem_erase.mpr ⟨he, hid⟩)
    · exact .inr ⟨seq', rfl, List.mem_append_left _ hseq⟩
  issued d hd := by
    rcases List.mem_append.mp hd with hd | hd
    · exact .inl hd
    · rw [List.mem_singleton.mp hd]
      exact .inr fun id hid => by cases hid

theorem cancel (id : CancellableSeqNum) : Grows s (s.cancel id) := by
  have hm : Grows s (s.mark id) := .of_eq rfl rfl
  obtain ⟨-, he⟩ | ⟨seq, -, hp, he⟩ | ⟨seq, -, -, he⟩ | ⟨c, hc, he⟩ := s.cancel_cases id <;> rw [he]
  · exact .of_eq rfl rfl
  · exact hm.trans (.cancelTimer seq)
  · exact hm
  · exact hm.trans (.push hc.issues)

theorem plain (h : Plain s s') : Grows s s' := by
  cases h with
  | issue hissues _ => exact .issue hissues
  | cancel => exact .cancel _
  | cancelToken t =>
    unfold Ctx.cancelToken
    split <;> exact .of_eq rfl rfl
  | poll | tokens | stateMut => exact .of_eq rfl rfl

/-- Small changes grow a context. -/
theorem changes (h : Changes s s') : Grows s s' := by
  refine h.keeps (fun t t' hc ht => ht.trans ?_) (.of_eq rfl rfl)
  cases hc with
  | plain hp => exact .plain hp
  | attempt => exact .issue fun _ => rfl
  | poll | tokens | la => exact .of_eq rfl rfl

end Grows

end Ctx

namespace GuestWorkflowInstance

variable {s s' : GuestWorkflowInstance}

/-! ## The invariant -/

/-- What Core has not resolved waits, or is a cancelled timer. -/
structure Inv (s : GuestWorkflowInstance) : Prop where
  ctx : s.ctx.Ok
  answered : ∀ c ∈ s.sent ++ s.ctx.commands, ∀ id ∈ c.issues, id ∉ s.resolved →
    s.ctx.Waits id ∨ ∃ seq, id = .timer seq ∧ .cancelTimer seq ∈ s.sent

namespace Inv

theorem new : Inv new where
  ctx := Ctx.init_ok
  answered c hc := by cases hc

theorem grows {ctx : Ctx} (h : Inv s) (hg : s.ctx.Grows ctx) (hctx : ctx.Ok) : Inv { s with ctx := ctx } where
  ctx := hctx
  answered c hc id hid hr := by
    rcases List.mem_append.mp hc with hc | hc
    · exact (h.answered c (List.mem_append_left _ hc) id hid hr).imp_left (hg.waits id)
    · rcases hg.issued c hc with hc | hc
      · exact (h.answered c (List.mem_append_right _ hc) id hid hr).imp_left (hg.waits id)
      · exact .inl (hc id hid)

theorem act {ctx : Ctx} {a : Action} (h : Inv s) (ha : s.ctx.act a = some ctx) : Inv { s with ctx := ctx } :=
  h.grows (.changes (h.ctx.act_changes ha)) (h.ctx.act ha)

theorem runNext {callback : Callback} {rest : List Callback} (h : Inv s) (hc : s.ctx.callbacks = callback :: rest) :
    Inv (s.runNext callback rest) := by
  obtain ⟨hok, hcb⟩ := h.ctx.next hc
  have hr : Inv { s with ctx := { s.ctx with callbacks := rest } } := h.grows (.of_eq rfl rfl) hok
  exact hr.grows (.changes (hok.runCallback_changes hcb)) (hok.runCallback hcb)

theorem notifyCancel (h : Inv s) : Inv { s with ctx := notifyCancel s.ctx } := by
  have hc : Ctx.Plain s.ctx (s.ctx.cancelToken 0) := .cancelToken 0
  have ht := h.grows (.plain hc) (h.ctx.cancelToken 0)
  exact ht.grows (.of_eq rfl rfl) ⟨{ ht.ctx.sound with }, { ht.ctx.listens with }, { ht.ctx.laSound with }⟩

theorem complete (h : Inv s) :
    Inv { s with sent := s.sent ++ s.ctx.commands, ctx := { s.ctx with commands := [] } } where
  ctx := h.ctx.takeCommands
  answered c hc id hid hr := by
    rw [List.append_nil] at hc
    rcases h.answered c hc id hid hr with (hp | ⟨seq, he, hseq⟩) | ⟨seq, he, hseq⟩
    · exact .inl (.inl hp)
    · exact .inr ⟨seq, he, List.mem_append_right _ hseq⟩
    · exact .inr ⟨seq, he, List.mem_append_left _ hseq⟩

theorem applyResolution (h : Inv s) (event : UnblockEvent) : Inv (s.applyResolution event) := by
  unfold GuestWorkflowInstance.applyResolution Ctx.unblock
  by_cases hp : event.id ∈ s.ctx.pendingUnblocks
  · rw [if_pos hp]
    refine ⟨h.ctx.send event, ?_⟩
    intro c hc id hid hr
    obtain ⟨hne, hr⟩ := not_or.mp (Finset.mem_insert.not.mp hr)
    rcases h.answered c hc id hid hr with (hp | ht) | ht
    · exact .inl (.inl (Finset.mem_erase.mpr ⟨hne, hp⟩))
    · exact .inl (.inr ht)
    · exact .inr ht
  · rw [if_neg hp]
    exact ⟨h.ctx, h.answered⟩

theorem step {i : Input} (h : Inv s) (hs : step s i = some s') : Inv s' := by
  obtain ⟨-, ⟨callback, rest, -, hc, rfl⟩ | ⟨-, hi⟩⟩ := step_cases hs
  · exact h.runNext hc
  · cases i with
    | act a =>
      obtain ⟨ctx, ha, rfl⟩ := Option.map_eq_some_iff.mp hi
      exact h.act ha
    | callback => cases hi
    | enterRuntimePoll | leaveRuntimePoll =>
      cases hi
      exact ⟨⟨{ h.ctx.sound with }, { h.ctx.listens with }, { h.ctx.laSound with }⟩, h.answered⟩
    | resolve event =>
      simp only [input] at hi
      split at hi
      · cases hi
        exact h.applyResolution event
      · cases hi
    | cancelWorkflow =>
      cases hi
      exact h.notifyCancel
    | complete =>
      cases hi
      exact h.complete

end Inv

theorem Reachable.inv {ok : GuestWorkflowInstance → Input → Prop} (h : Reachable ok s) : Inv s :=
  Reach.invariant (fun _ hs => hs ▸ Inv.new) (fun _ _ _ hi _ hs => hi.step hs) h

theorem Reachable.exists_of_trace {ok : GuestWorkflowInstance → Input → Prop} [∀ s i, Decidable (ok s i)]
    {P : GuestWorkflowInstance → Prop} [DecidablePred P] (is : List Input)
    (ht : (trace step (fun s i => decide (ok s i)) is new).any (fun s => decide (P s)) = true) :
    ∃ s, Reachable ok s ∧ P s :=
  Reach.exists_of_trace is ht (fun _ _ _ h => h) (.start rfl)

/-! ## Resolutions -/

/-- A timer fires that was cancelled since. -/
def firesCancelled (s : GuestWorkflowInstance) (event : UnblockEvent) : Bool :=
  match event.id with
  | .timer seq => .cancelTimer seq ∈ s.ctx.commands
  | _ => false

theorem applyResolution_panicked (event : UnblockEvent) (hp : s.panicked = false) :
    (s.applyResolution event).panicked = false ↔ event.id ∈ s.ctx.pendingUnblocks := by
  unfold applyResolution Ctx.unblock
  split <;> next h => split at h <;> simp_all

theorem Inv.mem_pendingUnblocks_iff {event : UnblockEvent} (h : Inv s) (hc : s.canResolve event = true) :
    event.id ∈ s.ctx.pendingUnblocks ↔ s.firesCancelled event = false := by
  simp only [canResolve, Bool.and_eq_true, List.any_eq_true, decide_eq_true_eq] at hc
  obtain ⟨⟨⟨c, hc, hid⟩, hr⟩, hk⟩ := hc
  obtain ⟨id, result⟩ := event
  constructor
  · intro hp
    cases id with
    | timer seq => exact decide_eq_false fun hseq => (h.ctx.sound.gone seq hseq).1 hp
    | _ => rfl
  · intro hf
    rcases h.answered c (List.mem_append_left _ hc) id hid hr with (hp | ⟨seq, rfl, hseq⟩) | ⟨seq, rfl, hseq⟩
    · exact hp
    · exact absurd hseq (of_decide_eq_false hf)
    · simp only [knownTimer, Bool.and_eq_true, decide_eq_true_eq] at hk
      exact absurd hseq hk.2

def FiresUncancelled (s : GuestWorkflowInstance) : Input → Prop
  | .resolve event => s.firesCancelled event = false
  | _ => True

theorem Inv.panicked {i : Input} (h : Inv s) (hi : s.FiresUncancelled i)
    (hs : GuestWorkflowInstance.step s i = some s') :
    s'.panicked = false := by
  obtain ⟨hp, ⟨callback, rest, -, -, rfl⟩ | ⟨-, hs⟩⟩ := step_cases hs
  · exact hp
  · cases i with
    | act a =>
      obtain ⟨ctx, -, rfl⟩ := Option.map_eq_some_iff.mp hs
      exact hp
    | callback => cases hs
    | resolve event =>
      simp only [input] at hs
      split at hs
      · next hc =>
        cases hs
        exact (applyResolution_panicked event hp).mpr ((h.mem_pendingUnblocks_iff hc).mpr hi)
      · cases hs
    | enterRuntimePoll | leaveRuntimePoll | cancelWorkflow | complete =>
      cases hs
      exact hp

theorem Reachable.panicked (h : Reachable FiresUncancelled s) : s.panicked = false := by
  cases h with
  | start h =>
    subst h
    rfl
  | step h hi hs => exact (Reachable.inv h).panicked hi hs

/-- **Resolutions find what waits for them**, if no timer is fired by an activation that has cancelled it. Of what Core
may resolve, exactly such timers would not be found. -/
theorem resolution_finds_unblocker (h : Reachable FiresUncancelled s) :
    s.panicked = false ∧ ∀ event, s.canResolve event = true →
      ((s.applyResolution event).panicked = false ↔ s.firesCancelled event = false) := by
  have hp : s.panicked = false := h.panicked
  exact ⟨hp, fun event hc => (applyResolution_panicked event hp).trans (h.inv.mem_pendingUnblocks_iff hc)⟩

instance (s : GuestWorkflowInstance) (i : Input) : Decidable (s.FiresUncancelled i) := by
  cases i <;> dsimp only [FiresUncancelled] <;> infer_instance

/-- Two timers. One is cancelled with the workflow, and the other fires. -/
theorem resolution_finds_unblocker_two :
    ∃ s, Reachable FiresUncancelled s ∧ s.canResolve ⟨.timer 2, .fired⟩ = true ∧
      .cancelTimer 1 ∈ s.ctx.commands ∧ (s.applyResolution ⟨.timer 2, .fired⟩).panicked = false := by
  obtain ⟨s, hr, hc, hmem, hf⟩ : ∃ s, Reachable FiresUncancelled s ∧ s.canResolve ⟨.timer 2, .fired⟩ = true ∧
      .cancelTimer 1 ∈ s.ctx.commands ∧ s.firesCancelled ⟨.timer 2, .fired⟩ = false :=
    Reachable.exists_of_trace
      [.act .newToken, .act (.timer 0 10), .act (.timer 1 10), .complete, .cancelWorkflow, .callback] (by decide)
  exact ⟨s, hr, hc, hmem, ((resolution_finds_unblocker hr).2 _ hc).mpr hf⟩

/-- The workflow is cancelled and its timer fires in one activation. -/
theorem cancelled_timer_fires : ∃ s, Reachable (fun _ _ => True) s ∧ s.panicked = true :=
  Reachable.exists_of_trace [.act (.timer 0 10), .complete, .cancelWorkflow, .callback, .resolve ⟨.timer 1, .fired⟩]
    (by decide)

end GuestWorkflowInstance

end SdkCore.WorkflowContext
