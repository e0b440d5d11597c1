import Mathlib.Data.List.Lattice

/-!
# Internal flags

Flags known to be in the history, and those used since. The metadata of a completion lists used ones and marks them as
known, but the server may discard the completion of a speculative task (`flags_recorded_iff`).
-/

namespace SdkCore

inductive CoreInternalFlags
  | idAndTypeDeterminismChecks
  | upsertSearchAttributeOnPatch
  | moveTerminalCommands
  | nexusOperationDeterminismChecks
  | tooHigh
  deriving DecidableEq

namespace CoreInternalFlags

def fromU32 : Nat → CoreInternalFlags
  | 1 => .idAndTypeDeterminismChecks
  | 2 => .upsertSearchAttributeOnPatch
  | 3 => .moveTerminalCommands
  | 4 => .nexusOperationDeterminismChecks
  | _ => .tooHigh

def toU32 : CoreInternalFlags → Nat
  | .idAndTypeDeterminismChecks => 1
  | .upsertSearchAttributeOnPatch => 2
  | .moveTerminalCommands => 3
  | .nexusOperationDeterminismChecks => 4
  | .tooHigh => 4294967295

def allExceptTooHigh : List CoreInternalFlags :=
  [.idAndTypeDeterminismChecks, .upsertSearchAttributeOnPatch, .moveTerminalCommands, .nexusOperationDeterminismChecks]

@[simp] theorem fromU32_toU32 (flag : CoreInternalFlags) : fromU32 flag.toU32 = flag := by
  cases flag <;> rfl

end CoreInternalFlags

structure WorkflowTaskCompletedMetadata where
  coreUsedFlags : List Nat := []
  langUsedFlags : List Nat := []
  sdkName : String := ""
  sdkVersion : String := ""
  deriving DecidableEq

/-- The event, of which the flags read the metadata. -/
structure WorkflowTaskCompleted where
  sdkMetadata : Option WorkflowTaskCompletedMetadata
  deriving DecidableEq

namespace WorkflowTaskCompleted

def coreFlags (e : WorkflowTaskCompleted) : List CoreInternalFlags :=
  (e.sdkMetadata.getD {}).coreUsedFlags.map CoreInternalFlags.fromU32

def langFlags (e : WorkflowTaskCompleted) : List Nat := (e.sdkMetadata.getD {}).langUsedFlags

end WorkflowTaskCompleted

/-- Sets are lists without regard to order. -/
structure InternalFlags where
  canWriteSdkMetadata : Bool
  core : List CoreInternalFlags := []
  lang : List Nat := []
  coreSinceLastComplete : List CoreInternalFlags := []
  langSinceLastComplete : List Nat := []
  lastSdkName : String := ""
  lastSdkVersion : String := ""
  sdkName : String
  sdkVersion : String
  deriving DecidableEq

namespace InternalFlags

def new (sdkMetadata : Bool) (sdkName sdkVersion : String) : InternalFlags :=
  { canWriteSdkMetadata := sdkMetadata, sdkName, sdkVersion }

variable (fl : InternalFlags)

/-- Flags of an event are known. -/
def addFromComplete (e : WorkflowTaskCompleted) : InternalFlags :=
  match e.sdkMetadata with
  | some metadata =>
    { fl with
      core := fl.core ∪ metadata.coreUsedFlags.map CoreInternalFlags.fromU32
      lang := fl.lang ∪ metadata.langUsedFlags
      lastSdkName := if metadata.sdkName ≠ "" then metadata.sdkName else fl.lastSdkName
      lastSdkVersion := if metadata.sdkVersion ≠ "" then metadata.sdkVersion else fl.lastSdkVersion }
  | none => fl

def addLangUsed (flags : List Nat) : InternalFlags :=
  if fl.canWriteSdkMetadata then { fl with langSinceLastComplete := fl.langSinceLastComplete ∪ flags } else fl

/-- Whether the flag may be used; the use is recorded if asked for. -/
def tryUse (flag : CoreInternalFlags) (shouldRecord : Bool) : Bool × InternalFlags :=
  if shouldRecord then
    if fl.canWriteSdkMetadata then
      (true, { fl with coreSinceLastComplete := fl.coreSinceLastComplete.insert flag })
    else (false, fl)
  else (fl.core.contains flag, fl)

def writeAllKnown : InternalFlags :=
  if fl.canWriteSdkMetadata then
    { fl with coreSinceLastComplete := fl.coreSinceLastComplete ∪ CoreInternalFlags.allExceptTooHigh }
  else fl

/-- The metadata. Its flags are known from here on. -/
def gatherForWftComplete : WorkflowTaskCompletedMetadata × InternalFlags :=
  if !fl.canWriteSdkMetadata then ({}, fl)
  else
    let coreNewlyUsed := (fl.coreSinceLastComplete.filter fun f => !fl.core.contains f).map CoreInternalFlags.toU32
    let langNewlyUsed := fl.langSinceLastComplete.filter fun f => !fl.lang.contains f
    ({ coreUsedFlags := coreNewlyUsed
       langUsedFlags := langNewlyUsed
       sdkName := if fl.lastSdkName ≠ fl.sdkName then fl.sdkName else ""
       sdkVersion := if fl.lastSdkVersion ≠ fl.sdkVersion then fl.sdkVersion else "" },
     { fl with core := fl.core ∪ fl.coreSinceLastComplete, lang := fl.lang ∪ fl.langSinceLastComplete })

/-- `available_internal_flags` for lang. -/
def allLang : List Nat := fl.lang

section

variable {fl : InternalFlags} {flag : CoreInternalFlags} {l : Nat}

theorem tryUse_iff : (fl.tryUse flag false).1 = true ↔ flag ∈ fl.core := by
  simp [tryUse]

theorem mem_core_addFromComplete {e : WorkflowTaskCompleted} :
    flag ∈ (fl.addFromComplete e).core ↔ flag ∈ fl.core ∨ flag ∈ e.coreFlags := by
  obtain ⟨_ | metadata⟩ := e <;> simp [addFromComplete, WorkflowTaskCompleted.coreFlags]

theorem mem_lang_addFromComplete {e : WorkflowTaskCompleted} :
    l ∈ (fl.addFromComplete e).lang ↔ l ∈ fl.lang ∨ l ∈ e.langFlags := by
  obtain ⟨_ | metadata⟩ := e <;> simp [addFromComplete, WorkflowTaskCompleted.langFlags]

theorem addLangUsed_known (flags : List Nat) :
    (fl.addLangUsed flags).core = fl.core ∧ (fl.addLangUsed flags).lang = fl.lang := by
  unfold addLangUsed
  split <;> exact ⟨rfl, rfl⟩

theorem tryUse_known (flag : CoreInternalFlags) (shouldRecord : Bool) :
    (fl.tryUse flag shouldRecord).2.core = fl.core ∧ (fl.tryUse flag shouldRecord).2.lang = fl.lang := by
  unfold tryUse
  split
  · split <;> exact ⟨rfl, rfl⟩
  · exact ⟨rfl, rfl⟩

theorem writeAllKnown_known : fl.writeAllKnown.core = fl.core ∧ fl.writeAllKnown.lang = fl.lang := by
  unfold writeAllKnown
  split <;> exact ⟨rfl, rfl⟩

/-- The flags used since the last completion become known, if metadata can be written. -/
theorem mem_core_gather : flag ∈ fl.gatherForWftComplete.2.core ↔
    flag ∈ fl.core ∨ (fl.canWriteSdkMetadata = true ∧ flag ∈ fl.coreSinceLastComplete) := by
  cases hw : fl.canWriteSdkMetadata with
  | false | true => simp [gatherForWftComplete, hw]

theorem mem_lang_gather : l ∈ fl.gatherForWftComplete.2.lang ↔
    l ∈ fl.lang ∨ (fl.canWriteSdkMetadata = true ∧ l ∈ fl.langSinceLastComplete) := by
  cases hw : fl.canWriteSdkMetadata with
  | false | true => simp [gatherForWftComplete, hw]

theorem mem_gathered_core (hw : fl.canWriteSdkMetadata = true) (hs : flag ∈ fl.coreSinceLastComplete)
    (hk : flag ∉ fl.core) : flag ∈ (WorkflowTaskCompleted.mk fl.gatherForWftComplete.1).coreFlags := by
  simp [gatherForWftComplete, hw, WorkflowTaskCompleted.coreFlags, hs, hk]

theorem mem_gathered_lang (hw : fl.canWriteSdkMetadata = true) (hs : l ∈ fl.langSinceLastComplete)
    (hk : l ∉ fl.lang) : l ∈ (WorkflowTaskCompleted.mk fl.gatherForWftComplete.1).langFlags := by
  simp [gatherForWftComplete, hw, WorkflowTaskCompleted.langFlags, hs, hk]

/-- What is written is known. -/
theorem gathered_known (fl : InternalFlags) :
    (∀ flag ∈ (WorkflowTaskCompleted.mk fl.gatherForWftComplete.1).coreFlags, flag ∈ fl.gatherForWftComplete.2.core) ∧
      ∀ l ∈ (WorkflowTaskCompleted.mk fl.gatherForWftComplete.1).langFlags, l ∈ fl.gatherForWftComplete.2.lang := by
  cases hw : fl.canWriteSdkMetadata with
  | false => simp [gatherForWftComplete, hw, WorkflowTaskCompleted.coreFlags, WorkflowTaskCompleted.langFlags]
  | true =>
    simp only [gatherForWftComplete, hw, WorkflowTaskCompleted.coreFlags, WorkflowTaskCompleted.langFlags]
    simp +contextual

end

end InternalFlags

/-! ## Runs of a workflow -/

/-- The flags, and the completed events in the history. -/
structure Recording where
  flags : InternalFlags
  history : List WorkflowTaskCompleted
  deriving DecidableEq

namespace Recording

inductive Step
  | tryUse (flag : CoreInternalFlags) (shouldRecord : Bool)
  | addLangUsed (flags : List Nat)
  | writeAllKnown
  /-- A completion with the gathered metadata; the server discards it if the task was speculative. -/
  | complete (discarded : Bool)
  | completedElsewhere (e : WorkflowTaskCompleted)
  /-- The completed event at an index of the history is read. -/
  | readBack (index : Nat)
  deriving DecidableEq

/-- A discarded completion does not touch the flags. -/
def step (s : Recording) : Step → Recording
  | .tryUse flag shouldRecord => { s with flags := (s.flags.tryUse flag shouldRecord).2 }
  | .addLangUsed flags => { s with flags := s.flags.addLangUsed flags }
  | .writeAllKnown => { s with flags := s.flags.writeAllKnown }
  | .complete discarded =>
    let (metadata, flags) := s.flags.gatherForWftComplete
    { flags, history := if discarded then s.history else s.history ++ [⟨some metadata⟩] }
  | .completedElsewhere e => { s with history := s.history ++ [e] }
  | .readBack index =>
    match s.history[index]? with
    | some e => { s with flags := s.flags.addFromComplete e }
    | none => s

def run (s : Recording) (steps : List Step) : Recording := steps.foldl step s

def HasCore (history : List WorkflowTaskCompleted) (flag : CoreInternalFlags) : Prop :=
  ∃ e ∈ history, flag ∈ e.coreFlags

def HasLang (history : List WorkflowTaskCompleted) (l : Nat) : Prop := ∃ e ∈ history, l ∈ e.langFlags

/-- Every known flag is in the history. -/
structure Recorded (s : Recording) : Prop where
  core : ∀ flag, (s.flags.tryUse flag false).1 = true → HasCore s.history flag
  lang : ∀ l ∈ s.flags.allLang, HasLang s.history l

/-- A discarded completion that can have metadata comes when the flags used are in the history. -/
def Admissible (s : Recording) : Step → Prop
  | .complete true => s.flags.canWriteSdkMetadata = true →
      (∀ flag ∈ s.flags.coreSinceLastComplete, HasCore s.history flag) ∧
        ∀ l ∈ s.flags.langSinceLastComplete, HasLang s.history l
  | _ => True

section

variable {s : Recording} {history : List WorkflowTaskCompleted} {flag : CoreInternalFlags} {l : Nat}

theorem HasCore.append (h : HasCore history flag) (e : WorkflowTaskCompleted) : HasCore (history ++ [e]) flag := by
  obtain ⟨e', he', hf⟩ := h
  exact ⟨e', List.mem_append_left _ he', hf⟩

theorem HasLang.append (h : HasLang history l) (e : WorkflowTaskCompleted) : HasLang (history ++ [e]) l := by
  obtain ⟨e', he', hl⟩ := h
  exact ⟨e', List.mem_append_left _ he', hl⟩

theorem Recorded.of_known (h : Recorded s) {flags : InternalFlags}
    (hk : flags.core = s.flags.core ∧ flags.lang = s.flags.lang) : Recorded { s with flags } where
  core flag hf := h.core flag (InternalFlags.tryUse_iff.mpr (hk.1 ▸ InternalFlags.tryUse_iff.mp hf))
  lang l hl := h.lang l (by rwa [InternalFlags.allLang, ← hk.2])

theorem Recorded.complete (h : Recorded s) : Recorded (step s (.complete false)) where
  core flag hf := by
    rcases InternalFlags.mem_core_gather.mp (InternalFlags.tryUse_iff.mp hf) with hk | ⟨hw, hs⟩
    · exact (h.core flag (InternalFlags.tryUse_iff.mpr hk)).append _
    · by_cases hk : flag ∈ s.flags.core
      · exact (h.core flag (InternalFlags.tryUse_iff.mpr hk)).append _
      · exact ⟨_, List.mem_append_right _ (List.mem_singleton_self _), InternalFlags.mem_gathered_core hw hs hk⟩
  lang l hl := by
    rcases InternalFlags.mem_lang_gather.mp hl with hk | ⟨hw, hs⟩
    · exact (h.lang l hk).append _
    · by_cases hk : l ∈ s.flags.lang
      · exact (h.lang l hk).append _
      · exact ⟨_, List.mem_append_right _ (List.mem_singleton_self _), InternalFlags.mem_gathered_lang hw hs hk⟩

theorem Recorded.discarded (h : Recorded s) (ha : Admissible s (.complete true)) :
    Recorded (step s (.complete true)) where
  core flag hf := by
    rcases InternalFlags.mem_core_gather.mp (InternalFlags.tryUse_iff.mp hf) with hk | ⟨hw, hs⟩
    · exact h.core flag (InternalFlags.tryUse_iff.mpr hk)
    · exact (ha hw).1 flag hs
  lang l hl := by
    rcases InternalFlags.mem_lang_gather.mp hl with hk | ⟨hw, hs⟩
    · exact h.lang l hk
    · exact (ha hw).2 l hs

theorem Recorded.readBack (h : Recorded s) {e : WorkflowTaskCompleted} (he : e ∈ s.history) :
    Recorded { s with flags := s.flags.addFromComplete e } where
  core flag hf := by
    rcases InternalFlags.mem_core_addFromComplete.mp (InternalFlags.tryUse_iff.mp hf) with hk | hk
    · exact h.core flag (InternalFlags.tryUse_iff.mpr hk)
    · exact ⟨e, he, hk⟩
  lang l hl := by
    rcases InternalFlags.mem_lang_addFromComplete.mp hl with hk | hk
    · exact h.lang l hk
    · exact ⟨e, he, hk⟩

/-- Such steps keep the flags recorded. -/
theorem Recorded.step (h : Recorded s) {i : Step} (ha : Admissible s i) : Recorded (step s i) := by
  cases i with
  | tryUse flag shouldRecord => exact h.of_known (InternalFlags.tryUse_known flag shouldRecord)
  | addLangUsed flags => exact h.of_known (InternalFlags.addLangUsed_known flags)
  | writeAllKnown => exact h.of_known InternalFlags.writeAllKnown_known
  | complete discarded =>
    cases discarded with
    | false => exact h.complete
    | true => exact h.discarded ha
  | completedElsewhere e => exact ⟨fun flag hf => (h.core flag hf).append e, fun l hl => (h.lang l hl).append e⟩
  | readBack index =>
    rw [Recording.step]
    split
    · next e he => exact h.readBack (List.mem_of_getElem? he)
    · exact h

/-- If the flags stay recorded, the step was such a one. -/
theorem Recorded.admissible {i : Step} (h : Recorded (Recording.step s i)) : Admissible s i := by
  cases i with
  | complete discarded =>
    cases discarded with
    | false => trivial
    | true =>
      intro hw
      refine ⟨fun flag hs => h.core flag (InternalFlags.tryUse_iff.mpr ?_), fun l hs => h.lang l ?_⟩
      · exact InternalFlags.mem_core_gather.mpr (.inr ⟨hw, hs⟩)
      · exact InternalFlags.mem_lang_gather.mpr (.inr ⟨hw, hs⟩)
  | _ => trivial

theorem run_take_succ {steps : List Step} {k : Nat} {i : Step} (hi : steps[k]? = some i) :
    run s (steps.take (k + 1)) = step (run s (steps.take k)) i := by
  rw [run, List.take_add_one, hi, List.foldl_append]
  rfl

end

/-- **Over any history, every flag that is answered to be known is recorded in every state iff the server discards
completions only when the flags used so far are in the history.** -/
theorem flags_recorded_iff (sdkMetadata : Bool) (sdkName sdkVersion : String) (history : List WorkflowTaskCompleted)
    (steps : List Step) :
    (∀ k, Recorded (run ⟨InternalFlags.new sdkMetadata sdkName sdkVersion, history⟩ (steps.take k))) ↔
      ∀ k i, steps[k]? = some i →
        Admissible (run ⟨InternalFlags.new sdkMetadata sdkName sdkVersion, history⟩ (steps.take k)) i := by
  constructor
  · intro h k i hi
    have hnext := h (k + 1)
    rw [run_take_succ hi] at hnext
    exact hnext.admissible
  · intro h k
    induction k with
    | zero => exact ⟨nofun, nofun⟩
    | succ k ih =>
      cases hi : steps[k]? with
      | some i =>
        rw [run_take_succ hi]
        exact ih.step (h k i hi)
      | none =>
        -- the run ended before
        have hlen := List.getElem?_eq_none_iff.mp hi
        rw [List.take_of_length_le (by omega)]
        rwa [List.take_of_length_le hlen] at ih

/-- Lang uses flag 7 in a speculative task, whose completion is discarded. The history does not have it. -/
theorem discarded_flag_known :
    ∃ s, run ⟨InternalFlags.new true "core" "1", []⟩
        [.writeAllKnown, .complete false, .addLangUsed [7], .writeAllKnown, .complete true] = s ∧
      7 ∈ s.flags.allLang ∧ ¬ HasLang s.history 7 := by
  refine ⟨_, rfl, by decide, ?_⟩
  rintro ⟨e, he, hl⟩
  revert e
  decide

/-! ## Replay -/

section

open InternalFlags WorkflowTaskCompleted

variable {s : Recording} {steps : List Step}

/-- Every flag in the history is known. -/
structure Heard (s : Recording) : Prop where
  core : ∀ flag, HasCore s.history flag → flag ∈ s.flags.core
  lang : ∀ l, HasLang s.history l → l ∈ s.flags.lang

theorem Heard.grow {flags : InternalFlags} (h : Heard s) (hc : s.flags.core ⊆ flags.core)
    (hl : s.flags.lang ⊆ flags.lang) : Heard { s with flags } :=
  ⟨fun flag hf => hc (h.core flag hf), fun l hf => hl (h.lang l hf)⟩

/-- The flags of a completion are known from then on. -/
theorem Heard.complete (h : Heard s) : Heard (step s (.complete false)) := by
  obtain ⟨hcore, hlang⟩ := gathered_known s.flags
  constructor
  · rintro flag ⟨e, he, hf⟩
    rcases List.mem_append.mp he with he | he
    · exact mem_core_gather.mpr (.inl (h.core flag ⟨e, he, hf⟩))
    · exact hcore flag (List.mem_singleton.mp he ▸ hf)
  · rintro l ⟨e, he, hf⟩
    rcases List.mem_append.mp he with he | he
    · exact mem_lang_gather.mpr (.inl (h.lang l ⟨e, he, hf⟩))
    · exact hlang l (List.mem_singleton.mp he ▸ hf)

/-- Every step of this worker keeps this. -/
theorem Heard.step {i : Step} (h : Heard s) (hi : ∀ e, i ≠ .completedElsewhere e) : Heard (step s i) := by
  cases i with
  | tryUse | addLangUsed | writeAllKnown =>
    exact h.grow (by simp [tryUse_known, addLangUsed_known, writeAllKnown_known])
      (by simp [tryUse_known, addLangUsed_known, writeAllKnown_known])
  | complete discarded =>
    cases discarded with
    | false => exact h.complete
    | true => exact h.grow (fun _ hf => mem_core_gather.mpr (.inl hf)) fun _ hl => mem_lang_gather.mpr (.inl hl)
  | completedElsewhere e => exact absurd rfl (hi e)
  | readBack index =>
    rw [Recording.step]
    split
    · exact h.grow (fun _ hf => mem_core_addFromComplete.mpr (.inl hf)) fun _ hl =>
        mem_lang_addFromComplete.mpr (.inl hl)
    · exact h

theorem mem_foldl_addFromComplete (history : List WorkflowTaskCompleted) (fl : InternalFlags) :
    let other := history.foldl addFromComplete fl
    (∀ flag, flag ∈ other.core ↔ flag ∈ fl.core ∨ HasCore history flag) ∧
      ∀ l, l ∈ other.lang ↔ l ∈ fl.lang ∨ HasLang history l := by
  induction history generalizing fl with
  | nil => simp [HasCore, HasLang]
  | cons e history ih =>
    simp [ih, HasCore, HasLang, mem_core_addFromComplete, mem_lang_addFromComplete, or_assoc]

/-- **A reader of the history knows the flags of the run**, if they are recorded and no completion is foreign. -/
theorem read_alike (fl : InternalFlags) (h : ∀ e, .completedElsewhere e ∉ steps) (hr : Recorded (run ⟨fl, []⟩ steps))
    (m : Bool) (name version : String) :
    let s := run ⟨fl, []⟩ steps
    let other := s.history.foldl addFromComplete (.new m name version)
    (∀ flag, (other.tryUse flag false).1 = (s.flags.tryUse flag false).1) ∧
      ∀ l, l ∈ other.allLang ↔ l ∈ s.flags.allLang := by
  intro s other
  have hheard : Heard s := List.foldlRecOn steps step ⟨by simp [HasCore], by simp [HasLang]⟩
    fun _ hs i hi => hs.step fun e he => h e (he ▸ hi)
  obtain ⟨hcore, hlang⟩ := mem_foldl_addFromComplete s.history (.new m name version)
  refine ⟨fun flag => ?_, fun l => ?_⟩
  · rw [Bool.eq_iff_iff, tryUse_iff, hcore]
    simpa [new] using ⟨fun hf => tryUse_iff.mpr (hheard.core flag hf), hr.core flag⟩
  · rw [allLang, hlang]
    simpa [new] using ⟨hheard.lang l, hr.lang l⟩

theorem read_alike_recorded :
    let fl := (new true "core" "1").writeAllKnown
    let other := (run ⟨fl, []⟩ [.complete false]).history.foldl addFromComplete (.new true "" "")
    (other.tryUse .moveTerminalCommands false).1 = true := by
  intro fl other
  have hr : Recorded ⟨fl, []⟩ := ⟨by simp [tryUse, fl, writeAllKnown, new], by simp [allLang, fl, writeAllKnown, new]⟩
  exact ((@read_alike [.complete false] fl (by simp) hr.complete true "" "").1 _).trans rfl

end

end Recording

end SdkCore
