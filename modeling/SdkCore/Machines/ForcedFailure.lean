import SdkCore.Machines.Applying
import Mathlib.Data.Prod.Lex

/-!
# Failing a workflow by force

A run that fails its workflow gives the machines one command that ends it. They refuse it while a task with only updates
has accepted none (`applyCompletion_refused`), and otherwise fail only by using something up.
-/

namespace SdkCore

open Op WorkflowMachines

def CommandAndMachine.isMachine : CommandAndMachine → Bool
  | terminal => false
  | machine _ => true

/-- Neither accepts an update, nor are all rejections. -/
def WFCommand.refused (commands : List WFCommand) : Bool :=
  !commands.any (· = .updateResponse .accepted) && commands.any (· ≠ .updateResponse .rejected)

namespace WorkflowMachines

variable {σ : Type} {B : Behaviour σ} (m : WorkflowMachines σ)

/-- The commands that wait. -/
def machineCommands : Nat := m.currentWfTaskCommands.countP (·.isMachine)

/-- Whether commands are refused stays the same. -/
structure Resolute (m m' : WorkflowMachines σ) : Prop where
  updateOnlyTask : m'.updateOnlyTask = m.updateOnlyTask
  amTerminating : m'.amTerminating = m.amTerminating

theorem Resolute.rfl {m : WorkflowMachines σ} : Resolute m m := ⟨.refl _, .refl _⟩

theorem Resolute.trans {m₁ m₂ m₃ : WorkflowMachines σ} (h : Resolute m₁ m₂) (h' : Resolute m₂ m₃) : Resolute m₁ m₃ :=
  ⟨h'.updateOnlyTask.trans h.updateOnlyTask, h'.amTerminating.trans h.amTerminating⟩

/-! ## Results of local activities -/

/-- Peeked results were used up. -/
structure UsesUp (m m' : WorkflowMachines σ) : Prop extends Resolute m m' where
  fewer : m'.preresolutions.length < m.preresolutions.length

theorem UsesUp.trans {m₁ m₂ m₃ : WorkflowMachines σ} (h : UsesUp m₁ m₂) (h' : UsesUp m₂ m₃) : UsesUp m₁ m₃ :=
  ⟨h.toResolute.trans h'.toResolute, h'.fewer.trans h.fewer⟩

/-- Results are applied, or nothing is done. -/
def Resolves (x : MOp σ Unit) : Prop :=
  ∀ m, Post (fun _ m' => m' = m ∨ UsesUp m m') (fun _ m' => UsesUp m m') (x.exec m)

theorem Resolves.after {x : MOp σ Unit} (hx : Resolves x) {m m₁ : WorkflowMachines σ} (h : m₁ = m ∨ UsesUp m m₁) :
    Post (fun _ m' => m' = m ∨ UsesUp m m') (fun _ m' => UsesUp m m') (x.exec m₁) := by
  rcases h with rfl | h
  · exact hx m₁
  · refine (hx m₁).imp (fun _ m' h' => .inr ?_) fun _ m' h' => h.trans h'
    rcases h' with rfl | h'
    · exact h
    · exact h.trans h'

theorem absorb_length_le (ρ : Reaction σ) : (m.absorb ρ).preresolutions.length ≤ m.preresolutions.length :=
  List.length_filter_le _ _

theorem applyPeeked_resolves (includeHeld : Bool) : ∀ fuel : Nat, Resolves (applyPeeked B includeHeld fuel)
  | 0 => fun _ => .inl rfl
  | fuel + 1 => by
    intro m
    unfold applyPeeked
    rw [exec_get_bind]
    split
    · exact .inl rfl
    · next p rest hp =>
      split
      · exact .inl rfl
      · rw [exec_modify_bind, exec_bind, exec_react]
        have huses : UsesUp m (({ m with preresolutions := rest } : WorkflowMachines σ).absorb
            (B.tryResolveWithDat m.inner p.seq)) := by
          refine ⟨⟨rfl, rfl⟩, ?_⟩
          rw [hp]
          exact Nat.lt_succ_of_le (absorb_length_le _ _)
        cases (B.tryResolveWithDat m.inner p.seq).error with
        | some e => exact huses
        | none => exact (applyPeeked_resolves includeHeld fuel).after (.inr huses)

theorem applyLocalActivityPeekedResolutions_resolves (includeHeld : Bool) :
    Resolves (applyLocalActivityPeekedResolutions B includeHeld) :=
  fun m => applyPeeked_resolves includeHeld m.preresolutions.length m

theorem releaseHeld_resolves : Resolves (releaseHeldLocalActivityResolutionsIfIdle B) := by
  intro m
  unfold releaseHeldLocalActivityResolutionsIfIdle
  rw [exec_get_bind]
  split
  · exact .inl rfl
  · exact applyLocalActivityPeekedResolutions_resolves true m

theorem localResolutions_length_le : ∀ (results : List LocalResolution) (m : WorkflowMachines σ),
    ((WorkflowManager.localResolutions B results).exec m).2.preresolutions.length ≤ m.preresolutions.length ∧
      Resolute m ((WorkflowManager.localResolutions B results).exec m).2
  | [], m => ⟨le_rfl, .rfl⟩
  | res :: rest, m => by
    have hres : Resolute m (m.absorb (B.localResolution m.inner res)) := ⟨rfl, rfl⟩
    have hle := absorb_length_le m (B.localResolution m.inner res)
    unfold WorkflowManager.localResolutions localResolution
    rw [exec_bind, exec_react]
    cases (B.localResolution m.inner res).error with
    | some e => exact ⟨hle, hres⟩
    | none =>
      have ih := localResolutions_length_le rest (m.absorb (B.localResolution m.inner res))
      exact ⟨ih.1.trans hle, hres.trans ih.2⟩

/-- Every command that fails is gone. -/
theorem prepareCommandList_drops : ∀ (commands : List CommandAndMachine) (m : WorkflowMachines σ),
    Resolute m ((prepareCommandList B commands).exec m).2 ∧
      ((prepareCommandList B commands).exec m).2.preresolutions = m.preresolutions ∧
      ∀ e, ((prepareCommandList B commands).exec m).1 = .error e →
        ((prepareCommandList B commands).exec m).2.machineCommands < commands.countP (·.isMachine)
  | [], m => ⟨⟨rfl, rfl⟩, rfl, fun e he => by cases he⟩
  | .terminal :: commands, m => prepareCommandList_drops commands m
  | .machine n :: commands, m => by
    have hcount : (CommandAndMachine.machine n :: commands).countP (·.isMachine) =
        commands.countP (·.isMachine) + 1 := by
      simp [CommandAndMachine.isMachine]
    unfold prepareCommandList
    rw [exec_get_bind, exec_modify_bind, hcount]
    cases (B.handleCommand m.inner n).2 with
    | some e => exact ⟨⟨rfl, rfl⟩, rfl, fun _ _ => Nat.lt_succ_self _⟩
    | none =>
      obtain ⟨hr, hp, he⟩ := prepareCommandList_drops commands
        { m with inner := (B.handleCommand m.inner n).1, currentWfTaskCommands := commands }
      exact ⟨⟨hr.1, hr.2⟩, hp, fun e h => (he e h).trans (Nat.lt_succ_self _)⟩

/-! ## The command that ends the workflow -/

/-- What is left to be used up. -/
def pending : Nat ×ₗ Nat := toLex (m.preresolutions.length, m.machineCommands)

def terminated (B : Behaviour σ) (m : WorkflowMachines σ) : WorkflowMachines σ :=
  { m with
    inner := B.addTerminalCommand m.inner .failWorkflow
    currentWfTaskCommands := m.currentWfTaskCommands ++ [.terminal]
    amTerminating := true }

/-- **The command that ends the workflow fails only by using something up.** -/
theorem iterateMachines_forced {m : WorkflowMachines σ} (h : m.updateOnlyTask = false) :
    Post (fun _ m' => m'.updateOnlyTask = false ∧ m'.amTerminating = true ∧
        m'.preresolutions.length ≤ m.preresolutions.length)
      (fun _ m' => m'.updateOnlyTask = false ∧ m'.pending < m.pending)
      ((iterateMachines B [.failWorkflow]).exec m) := by
  have hcheck : (checkUpdateOnly [.failWorkflow]).exec m = (.ok (), m) := by simp [checkUpdateOnly, exec_bind, h]
  have hdriven : (handleDrivenResults B [.failWorkflow]).exec m = (.ok (), m.terminated B) := by
    simp [handleDrivenResults, WFCommand.isTerminal, terminated]
  have hshort : ∀ m', UsesUp (m.terminated B) m' → m'.updateOnlyTask = false ∧ m'.pending < m.pending := by
    intro m' hu
    exact ⟨hu.updateOnlyTask.trans h, Prod.Lex.toLex_lt_toLex.mpr (.inl hu.fewer)⟩
  unfold iterateMachines
  rw [exec_bind, hcheck, andThen_ok, exec_bind, hdriven]
  refine ((applyLocalActivityPeekedResolutions_resolves false (m.terminated B)).imp (fun _ _ h => h)
    fun _ => hshort).bind fun _ m₁ h₁ => ?_
  refine ((releaseHeld_resolves.after h₁).imp (fun _ _ h => h) fun _ => hshort).bind fun _ m₂ h₂ => ?_
  have hlen : m₂.preresolutions.length ≤ m.preresolutions.length := by
    rcases h₂ with rfl | h₂
    · exact le_rfl
    · exact h₂.fewer.le
  have hflags : m₂.updateOnlyTask = false ∧ m₂.amTerminating = true := by
    rcases h₂ with rfl | h₂
    · exact ⟨h, rfl⟩
    · exact ⟨h₂.updateOnlyTask.trans h, h₂.amTerminating⟩
  obtain ⟨hr, hp, he⟩ := prepareCommandList_drops m₂.currentWfTaskCommands m₂
  unfold prepareCommands
  rw [exec_get_bind]
  generalize (prepareCommandList B m₂.currentWfTaskCommands).exec m₂ = x at hr hp he
  obtain ⟨e | _, m'⟩ := x
  · refine ⟨hr.updateOnlyTask.trans hflags.1, ?_⟩
    have hlt : m'.machineCommands < m₂.machineCommands := he e rfl
    -- only a result that was used up can have added commands
    rcases h₂ with rfl | h₂
    · refine Prod.Lex.toLex_lt_toLex.mpr (.inr ⟨congrArg List.length hp, ?_⟩)
      simpa [machineCommands, terminated, CommandAndMachine.isMachine] using hlt
    · exact Prod.Lex.toLex_lt_toLex.mpr (.inl (hp ▸ h₂.fewer))
  · exact ⟨hr.updateOnlyTask.trans hflags.1, hr.amTerminating.trans hflags.2, (congrArg List.length hp).le.trans hlen⟩

end WorkflowMachines

namespace WorkflowManager

variable {σ : Type} {B : Behaviour σ}

/-- Results that wait for the end of a completion count too. -/
def pending (w : WorkflowManager σ) : Nat ×ₗ Nat :=
  toLex (w.machines.preresolutions.length + w.deferredLocalResolutions.length, w.machines.machineCommands)

variable {w : WorkflowManager σ}

theorem pending_lt {m : WorkflowMachines σ} (h : m.pending < w.machines.pending) :
    ({ w with machines := m } : WorkflowManager σ).pending < w.pending := by
  rcases Prod.Lex.toLex_lt_toLex.mp h with hlt | ⟨heq, hlt⟩
  · exact Prod.Lex.toLex_lt_toLex.mpr (.inl (Nat.add_lt_add_right hlt _))
  · exact Prod.Lex.toLex_lt_toLex.mpr (.inr ⟨congrArg (· + w.deferredLocalResolutions.length) heq, hlt⟩)

theorem applyDeferred_forced (h : w.machines.updateOnlyTask = false) (ht : w.machines.amTerminating = true) :
    Post (fun _ w' => w'.machines.amTerminating = true)
      (fun _ w' => w'.machines.updateOnlyTask = false ∧ w.deferredLocalResolutions ≠ [] ∧
        w'.deferredLocalResolutions = [] ∧ w'.machines.preresolutions.length ≤ w.machines.preresolutions.length)
      ((applyDeferredLocalResolutions B).exec w) := by
  unfold applyDeferredLocalResolutions
  rw [exec_get_bind]
  split
  · exact ht
  · rw [exec_modify_bind]
    unfold onMachines
    rw [exec_zoom]
    obtain ⟨hle, hr⟩ := WorkflowMachines.localResolutions_length_le w.deferredLocalResolutions w.machines
    have hnil : w.deferredLocalResolutions = [] →
        ((localResolutions B w.deferredLocalResolutions).exec w.machines).1 = .ok () := by
      intro h
      rw [h]
      rfl
    generalize (localResolutions B w.deferredLocalResolutions).exec w.machines = x at hle hr hnil
    obtain ⟨e | _, m'⟩ := x
    · refine ⟨hr.updateOnlyTask.trans h, fun h => ?_, rfl, hle⟩
      cases hnil h
    · exact hr.amTerminating.trans ht

/-- Such commands are refused while no update is accepted. -/
theorem applyCompletion_refused (h : w.machines.updateOnlyTask = true) {commands : List WFCommand}
    (hc : WFCommand.refused commands = true) (page : Option HistoryUpdate) (amBroken : Bool) :
    (applyCompletion B commands page amBroken).exec w = (.error (.nondeterminism .updateOnlyCommands), w) := by
  obtain ⟨hacc, hrej⟩ : commands.any (· = .updateResponse .accepted) = false ∧
      commands.any (· ≠ .updateResponse .rejected) = true := by
    simpa only [WFCommand.refused, Bool.and_eq_true, Bool.not_eq_true'] using hc
  have hcheck : (checkUpdateOnly commands).exec w.machines =
      (.error (.nondeterminism .updateOnlyCommands), w.machines) := by
    unfold checkUpdateOnly
    rw [exec_get_bind, if_pos h, if_neg (by simp [hacc]), if_pos hrej, exec_throw]
  have hiter : (onMachines (iterateMachines B commands)).exec w =
      (.error (.nondeterminism .updateOnlyCommands), w) := by
    unfold onMachines iterateMachines
    rw [exec_zoom, exec_bind, hcheck, andThen_error]
  unfold applyCompletion pushCommandsAndIterate
  rw [exec_bind, exec_bind, hiter, andThen_error, andThen_error]

/-- **A broken run fails to end its workflow only by using something up, or if the machines refuse.** -/
theorem applyCompletion_forced (h : w.machines.updateOnlyTask = false) :
    Post (fun _ w' => w'.machines.amTerminating = true)
      (fun _ w' => w'.machines.updateOnlyTask = false ∧ w'.pending < w.pending)
      ((applyCompletion B [.failWorkflow] none true).exec w) := by
  have hiter := WorkflowMachines.iterateMachines_forced (B := B) h
  refine Post.bind ?_ fun _ w' ht => by simpa [Post] using ht
  unfold pushCommandsAndIterate onMachines
  rw [exec_bind, exec_zoom]
  generalize (iterateMachines B [.failWorkflow]).exec w.machines = x at hiter
  obtain ⟨e | _, m⟩ := x
  · exact ⟨hiter.1, pending_lt hiter.2⟩
  · obtain ⟨ho, ht, hle⟩ := hiter
    refine (applyDeferred_forced ho ht).imp (fun _ _ h => h) fun _ w' hw' => ?_
    obtain ⟨ho', hne, hnil, hle'⟩ := hw'
    refine ⟨ho', Prod.Lex.toLex_lt_toLex.mpr (.inl ?_)⟩
    rw [hnil]
    exact Nat.add_lt_add_of_le_of_lt (hle'.trans hle) (List.length_pos_of_ne_nil hne)

end WorkflowManager

end SdkCore
