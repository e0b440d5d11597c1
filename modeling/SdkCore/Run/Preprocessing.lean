import SdkCore.Run.ManagedRun

/-!
# The commands of a completion

The two loops of the source, over commands with any data. The first keeps all but the later terminal commands and moves
the first one to the end. `preprocess_conservative` says when they agree.
-/

namespace SdkCore.Preprocessing

/-- A command, with data for the machines. -/
structure Command (δ : Type) where
  variant : WFCommand
  data : δ

variable {δ : Type} {commands a b : List (Command δ)} {c t : Command δ}

def isQuery (c : Command δ) : Bool := c.variant.answers.isSome

def isTerminal (c : Command δ) : Bool := c.variant.isTerminal

/-- The command does not end the workflow. -/
def isPlain (c : Command δ) : Bool := !isQuery c && !isTerminal c

structure Gathered (δ : Type) where
  commands : List (Command δ) := []
  queryResults : List (Command δ) := []
  terminals : List (Command δ) := []

def gather (g : Gathered δ) (c : Command δ) : Gathered δ :=
  if isQuery c then { g with queryResults := g.queryResults ++ [c] }
  else if isTerminal c then { g with terminals := g.terminals ++ [c] }
  else { g with commands := g.commands ++ [c] }

def preprocess (commands : List (Command δ)) : List (Command δ) × List (Command δ) :=
  let g := commands.foldl gather {}
  (g.commands ++ g.terminals.head?.toList, g.queryResults)

structure GatheredOld (δ : Type) where
  commands : List (Command δ) := []
  queryResults : List (Command δ) := []
  seenTerminal : Bool := false

def gatherOld (g : GatheredOld δ) (c : Command δ) : GatheredOld δ :=
  if isQuery c then { g with queryResults := g.queryResults ++ [c] }
  else if g.seenTerminal then g
  else { g with commands := g.commands ++ [c], seenTerminal := isTerminal c }

/-- The loop without it. -/
def preprocessOldBehavior (commands : List (Command δ)) : List (Command δ) × List (Command δ) :=
  let g := commands.foldl gatherOld {}
  (g.commands, g.queryResults)

/-- No command for the machines stands behind the first terminal one. -/
def EndsWithTerminal (commands : List (Command δ)) : Prop :=
  ∀ a t b, commands = a ++ t :: b → (∀ c ∈ a, isTerminal c = false) → isTerminal t = true →
    ∀ c ∈ b, isPlain c = false

theorem isQuery_of_isTerminal (h : isTerminal c = true) : isQuery c = false := by
  unfold isTerminal at h
  unfold isQuery
  cases hv : c.variant <;> simp_all [WFCommand.isTerminal, WFCommand.answers]

theorem foldl_gather (g : Gathered δ) : commands.foldl gather g =
    ⟨g.commands ++ commands.filter isPlain, g.queryResults ++ commands.filter isQuery,
      g.terminals ++ commands.filter isTerminal⟩ := by
  induction commands generalizing g with
  | nil => simp
  | cons c commands ih =>
    rw [List.foldl_cons, ih]
    cases ht : isTerminal c with
    | true => simp [gather, isPlain, ht, isQuery_of_isTerminal ht]
    | false => cases hq : isQuery c <;> simp [gather, isPlain, ht, hq]

/-- What the first loop gives. -/
theorem preprocess_eq : preprocess commands =
    (commands.filter isPlain ++ (commands.find? isTerminal).toList, commands.filter isQuery) := by
  simp [preprocess, foldl_gather, List.head?_filter]

theorem foldl_gatherOld_seen (g : GatheredOld δ) (hs : g.seenTerminal = true) :
    commands.foldl gatherOld g = { g with queryResults := g.queryResults ++ commands.filter isQuery } := by
  induction commands generalizing g with
  | nil => simp
  | cons c commands ih => cases hq : isQuery c <;> simp [gatherOld, hq, hs, ih]

theorem foldl_gatherOld_plain (h : ∀ c ∈ commands, isTerminal c = false) (g : GatheredOld δ)
    (hs : g.seenTerminal = false) : commands.foldl gatherOld g =
      ⟨g.commands ++ commands.filter isPlain, g.queryResults ++ commands.filter isQuery, false⟩ := by
  induction commands generalizing g with
  | nil => simp [← hs]
  | cons c commands ih =>
    obtain ⟨hc, h⟩ := List.forall_mem_cons.mp h
    rw [List.foldl_cons, ih h]
    · cases hq : isQuery c <;> simp [gatherOld, isPlain, hq, hc, hs]
    · cases hq : isQuery c <;> simp [gatherOld, hq, hc, hs]

theorem preprocessOldBehavior_of_plain (h : ∀ c ∈ commands, isTerminal c = false) :
    preprocessOldBehavior commands = (commands.filter isPlain, commands.filter isQuery) := by
  simp [preprocessOldBehavior, foldl_gatherOld_plain h]

theorem preprocessOldBehavior_of_terminal (ha : ∀ c ∈ a, isTerminal c = false) (ht : isTerminal t = true) :
    preprocessOldBehavior (a ++ t :: b) =
      (a.filter isPlain ++ [t], (a ++ t :: b).filter isQuery) := by
  have hq := isQuery_of_isTerminal ht
  simp [preprocessOldBehavior, foldl_gatherOld_plain ha, gatherOld, hq, ht, foldl_gatherOld_seen]

theorem preprocess_of_terminal (ha : ∀ c ∈ a, isTerminal c = false) (ht : isTerminal t = true) :
    preprocess (a ++ t :: b) =
      (a.filter isPlain ++ b.filter isPlain ++ [t], (a ++ t :: b).filter isQuery) := by
  have hn : a.find? isTerminal = none := List.find?_eq_none.mpr fun c hc => by simp [ha c hc]
  simp [preprocess_eq, hn, ht, isPlain]

theorem preprocess_alike_of_terminal (ha : ∀ c ∈ a, isTerminal c = false) (ht : isTerminal t = true) :
    preprocess (a ++ t :: b) = preprocessOldBehavior (a ++ t :: b) ↔
      ∀ c ∈ b, isPlain c = false := by
  rw [preprocess_of_terminal ha ht, preprocessOldBehavior_of_terminal ha ht]
  simp

/-- When the loops agree. -/
theorem preprocess_alike_iff : preprocess commands = preprocessOldBehavior commands ↔
    EndsWithTerminal commands := by
  cases hf : commands.find? isTerminal with
  | none =>
    have hn : ∀ c ∈ commands, isTerminal c = false := by simpa using hf
    rw [preprocess_eq, preprocessOldBehavior_of_plain hn, hf]
    simp only [Option.toList_none, List.append_nil, true_iff]
    rintro a t b rfl - ht
    simp [hn t (by simp)] at ht
  | some t =>
    obtain ⟨ht, a, b, rfl, ha⟩ := List.find?_eq_some_iff_append.mp hf
    replace ha : ∀ c ∈ a, isTerminal c = false := by simpa using ha
    constructor
    · intro he a' t' b' h' ha' ht' c hc
      rw [h'] at he
      exact (preprocess_alike_of_terminal ha' ht').mp he c hc
    · exact fun he => (preprocess_alike_of_terminal ha ht).mpr (he a t b rfl ha ht)

/-! ## The run -/

def variants (commands : List (Command δ)) : List WFCommand := commands.map (·.variant)

def answers (c : Command δ) : Option QueryId := c.variant.answers

theorem preprocessCommandSequence_map : preprocessCommandSequence (variants commands) =
    (variants (preprocess commands).1,
      (preprocess commands).2.filterMap answers) := by
  have hp : ∀ c : Command δ, (c.variant.answers.isNone && !c.variant.isTerminal) = isPlain c := fun c => by
    simp [isPlain, isQuery, isTerminal]
  have ht : ∀ c : Command δ, (decide (c.variant.answers = none) && c.variant.isTerminal) = isTerminal c := fun c => by
    cases hv : c.variant <;> simp [isTerminal, hv, WFCommand.isTerminal, WFCommand.answers]
  have hq : ∀ c : Command δ, (if isQuery c then answers c else none) = c.variant.answers := fun c => by
    cases h : c.variant.answers <;> simp [isQuery, answers, h]
  simp [preprocessCommandSequence, preprocess_eq, variants, List.filter_map, List.filter_filter, List.find?_filter,
    Function.comp_def, List.filterMap_filter, Bool.and_comm, hp, ht, hq, Option.toList_map]

theorem foldl_gatherOld_map (g : GatheredOld δ) :
    variants (commands.foldl gatherOld g).commands =
      variants g.commands ++ (preprocessOld g.seenTerminal (variants commands)).1 ∧
    (commands.foldl gatherOld g).queryResults.filterMap answers =
      g.queryResults.filterMap answers ++ (preprocessOld g.seenTerminal (variants commands)).2 := by
  induction commands generalizing g with
  | nil => simp [preprocessOld, variants]
  | cons c commands ih =>
    rw [List.foldl_cons, (ih _).1, (ih _).2]
    cases hc : c.variant.answers with
    | some id => simp [gatherOld, isQuery, preprocessOld, variants, answers, hc]
    | none => cases hs : g.seenTerminal <;> simp [gatherOld, isQuery, isTerminal, preprocessOld, variants, hc, hs]

/-- **The commands of a completion.** All answers are kept in order, and so are the commands that do not end the
workflow, with the first that does behind them. Without the flag it is the same exactly when no command stands behind
the first terminal one, and then runs send the same whatever the flag. -/
theorem preprocess_conservative (commands : List (Command δ)) :
    (preprocess commands).2 = commands.filter isQuery ∧
    (preprocess commands).1 = commands.filter isPlain ++ (commands.find? isTerminal).toList ∧
    (preprocess commands = preprocessOldBehavior commands ↔ EndsWithTerminal commands) ∧
    (preprocess commands = preprocessOldBehavior commands →
      ∀ {μ : Type} (M : ManagerOps μ) (r : ManagedRun μ) wft chan forced,
        let d := ManagedRun.activationCompletion M r wft (variants commands) chan forced
        d.commands = variants (preprocess commands).1 ∧
          d.queryResponses = (preprocess commands).2.filterMap answers) := by
  refine ⟨by rw [preprocess_eq], by rw [preprocess_eq], preprocess_alike_iff, ?_⟩
  intro h μ M r wft chan forced
  have ho : preprocessCommandSequenceOldBehavior (variants commands) =
      (variants (preprocessOldBehavior commands).1, (preprocessOldBehavior commands).2.filterMap answers) :=
    (Prod.ext (foldl_gatherOld_map {}).1 (foldl_gatherOld_map {}).2).symm
  rw [← h] at ho
  simp only [ManagedRun.activationCompletion, ho, ite_self, preprocessCommandSequence_map, and_self]

end SdkCore.Preprocessing
