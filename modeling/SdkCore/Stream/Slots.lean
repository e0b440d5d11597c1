import SdkCore.Run.Managers
import SdkCore.Stream.Flow

/-!
# Tasks that wait for a slot

Tasks that wait get a slot when a run leaves the cache, so there has to be a run or a fetch. Every input keeps it so
(`polls_not_stranded`), except for a failed fetch for a run that is not in the cache.
-/

namespace SdkCore.WFStream

open Relation ManagedRun Op

variable {μ : Type} {M : ManagerOps μ} {cfg : WorkerConfig}

/-- A run can leave the cache, or a fetch returns. -/
def Busy (s : WFStream μ) : Prop := s.runs ≠ [] ∨ s.fetches ≠ []

/-- Tasks wait for a slot only while the stream is busy. -/
structure Slots (s : WFStream μ) : Prop where
  groups : [] ∉ s.bufferedPollsNeedCacheSlot
  busy : s.bufferedPollsNeedCacheSlot ≠ [] → s.Busy

/-! ## Flows -/

section

variable {s : WFStream μ} {l : List PermittedWFT}

theorem runs_ne_nil_of_isFull (h : s.isFull cfg) : s.runs ≠ [] := by
  intro hn
  have h : s.runs.length = capacity cfg := by simpa [isFull] using h
  rw [hn, capacity] at h
  split at h
  · simp only [List.length_nil] at h
    omega
  · cases h

theorem nil_notMem_bufferPoll (p : PermittedWFT) : ∀ groups : List (List PermittedWFT), [] ∉ groups →
    [] ∉ bufferPoll p groups
  | [], _ => by simp [bufferPoll]
  | group :: groups, h => by
    simp only [List.mem_cons, not_or] at h
    unfold bufferPoll
    split
    · simpa using h.2
    · simpa [eq_comm] using And.intro h.1 (nil_notMem_bufferPoll p groups h.2)

theorem Slots.putRun (r : ManagedRun μ) (h : [] ∉ s.bufferedPollsNeedCacheSlot) : Slots (s.putRun r) :=
  ⟨h, fun _ => .inl (putRun_runs_ne_nil s r)⟩

variable {x y : List PermittedWFT × WFStream μ} {α : Type} {k : RunId} {evict : Bool} {buffered : BufferedTasks}
  {w : Option PermittedWFT}

theorem Place.slots (h : Place M cfg x y) (hx : [] ∉ x.2.bufferedPollsNeedCacheSlot) : Slots y.2 := by
  cases h with
  | offer => exact .putRun _ hx
  | @new p l s => exact ⟨hx, fun _ => .inl (putRun_runs_ne_nil s _)⟩
  | poll hf => exact ⟨nil_notMem_bufferPoll _ _ hx, fun _ => .inl (runs_ne_nil_of_isFull hf)⟩
  | fetch => exact ⟨hx, fun _ => .inr (by simp [requestFetch])⟩

theorem Flows.slots (h : Flows M cfg x y) (hx : Slots x.2) : Slots y.2 := by
  induction h with
  | refl => exact hx
  | tail _ h ih =>
    cases h with
    | place h => exact h.slots ih.groups
    | run => exact .putRun _ ih.groups

abbrev Serves {α : Type} (x : Except Limit α × WFStream μ) : Prop := Post (fun _ s' => Slots s') (fun _ _ => True) x

theorem FlowsTo.serves {x : Except Limit α × WFStream μ} (h : FlowsTo M cfg (l, s) l x) (hs : Slots s) : Serves x :=
  Post.imp h (fun _ _ h => h.slots hs) fun _ _ _ => trivial

theorem onRun_serves {x : ROp μ α} (hs : Slots s) : Serves ((onRun k x).exec s) :=
  onRun_post (fun _ => hs) (fun _ _ _ _ _ => .putRun _ hs.groups) fun _ _ _ _ _ => trivial

theorem onRun_map_serves {β : Type} {x : ROp μ α} {f : Option α → β} (hs : Slots s) :
    Serves ((onRun k x >>= fun a => pure (f a)).exec s) :=
  Post.bind (onRun_serves hs) fun _ _ h => h

theorem instantiateAll_serves (ps : List PermittedWFT) (hg : [] ∉ s.bufferedPollsNeedCacheSlot)
    (hs : ps = [] → Slots s) : Serves ((instantiateAll M cfg ps).exec s) := by
  cases ps with
  | nil => exact hs rfl
  | cons p ps =>
    have h : Place M cfg (p :: [], s) ([], _) := instantiateOrUpdate_place p s
    unfold instantiateAll
    rw [exec_bind]
    generalize (instantiateOrUpdate M cfg p).exec s = y at h
    obtain ⟨e | act, s₁⟩ := y
    · trivial
    · refine Post.bind ?_ fun _ _ h => h
      refine Post.imp (instantiateAll_places (l := []) ps s₁) (fun _ s' h' => ?_) fun _ _ _ => trivial
      have h' : Flows M cfg (ps ++ [], s₁) ([], s') := h'.lift id fun _ _ => .place
      exact h'.slots (h.slots hg)

theorem processCompletion_serves (fuel : Nat) (k : RunId) (c : ValidatedCompletion) (tx : Option RespChan)
    (hs : Slots s) : Serves ((processCompletion M cfg fuel k c tx).exec s) := by
  refine Post.bind (onRun_serves hs) fun a s₁ h => ?_
  match a with
  | none => exact h
  | some (.ok act) => exact (evictAfterCompletion_flows (l := []) fuel k _ s₁).serves h
  | some (.error paginator) =>
    refine (evictAfterCompletion_flows (l := []) fuel k _ _).serves ?_
    exact ⟨h.groups, fun _ => .inr (by simp [requestFetch])⟩

theorem processFetchedPage_serves (fuel : Nat) (paginator : HistoryPaginator) (update : HistoryUpdate)
    (hs : Slots s) : Serves ((processFetchedPage M cfg fuel paginator update).exec s) := by
  refine Post.bind (onRun_serves hs) fun a s₁ h => ?_
  match a with
  | none => exact h
  | some act => exact (evictAfterCompletion_flows (l := []) fuel _ _ s₁).serves h

theorem takeReady_serves (hg : [] ∉ s.bufferedPollsNeedCacheSlot) (hs : evict = false → Slots s) :
    Post (fun ready s' => [] ∉ s'.bufferedPollsNeedCacheSlot ∧ (ready.1 = [] → Slots s')) (fun _ _ => True)
      ((takeReady evict buffered w).exec s) := by
  unfold takeReady
  split
  · exact ⟨hg, fun h => by cases h⟩
  split
  · exact ⟨hg, fun h => by cases h⟩
  rw [exec_get_bind]
  split
  · next group groups hp =>
    split
    · rw [hp] at hg
      simp only [List.mem_cons, not_or] at hg
      exact ⟨hg.2, fun h => absurd h.symm hg.1⟩
    · next he => exact ⟨hg, fun _ => hs (by simpa using he)⟩
  · next hp => exact ⟨hg, fun _ => ⟨hg, fun hn => absurd hp hn⟩⟩

theorem afterFinish_serves (hs : Slots s) : Serves ((afterFinish M cfg k evict buffered w).exec s) := by
  unfold afterFinish
  rw [exec_modify_bind]
  have hg : [] ∉ (if evict then s.removeRun k else s).bufferedPollsNeedCacheSlot := by
    cases evict <;> exact hs.groups
  refine Post.bind (takeReady_serves hg fun he => ?_) fun ready s₁ h => instantiateAll_serves _ h.1 fun hn => ?_
  · rw [he]
    exact hs
  · obtain ⟨hn, -⟩ := List.append_eq_nil_iff.mp hn
    have hp := startOrder_perm ready.1
    rw [hn] at hp
    exact h.2 (List.perm_nil.mp hp.symm)

theorem processPostActivation_serves (k : RunId) (status : WFTReportStatus) (w : Option PermittedWFT) (auto : Bool)
    (hs : Slots s) : Serves ((processPostActivation M cfg k status w auto).exec s) := by
  refine Post.bind (onRun_serves hs) fun a s₁ h₁ => ?_
  rw [exec_modify_bind]
  refine Post.bind (onRun_serves ⟨h₁.groups, h₁.busy⟩) fun a s₂ h₂ => ?_
  match a with
  | none => exact h₂
  | some finished =>
    refine Post.bind (afterFinish_serves h₂) fun act s₃ h₃ => ?_
    split
    · exact h₃
    · exact onRun_map_serves h₃

/-! ## Inputs -/

/-- The last fetch returns without a task, for a run not in the cache, while tasks wait. -/
def abandons (s : WFStream μ) (fetch : Option Nat) : Bool :=
  !s.bufferedPollsNeedCacheSlot.isEmpty && s.runs.isEmpty && (s.returned fetch).fetches.isEmpty

/-- An input leaves the tasks that wait alone. -/
def strandsPolls (s : WFStream μ) : WFStreamInput → Bool
  | .fetchedPageCompletion _ _ fetch | .failedFetch _ _ fetch => s.abandons fetch
  | _ => false

theorem Slots.returned {fetch : Option Nat} (hs : Slots s) (h : s.abandons fetch = false) :
    Slots (s.returned fetch) := by
  refine ⟨hs.groups, fun hp => ?_⟩
  have hp : s.bufferedPollsNeedCacheSlot ≠ [] := hp
  by_cases hr : s.runs = []
  · refine .inr fun hf => ?_
    simp [abandons, hp, hr, hf] at h
  · exact .inl hr

theorem touch_serves (k : RunId) {f : SOp μ α} (hs : Slots s) (hf : ∀ s₁, Slots s₁ → Serves (f.exec s₁)) :
    Serves ((touch k >>= fun _ => f).exec s) :=
  Post.bind (onRun_map_serves hs) fun _ s₁ h => hf s₁ h

/-- Other inputs do not. -/
theorem handle_serves (fuel : Nat) (input : WFStreamInput) (hs : Slots s) (hi : s.strandsPolls input = false) :
    Serves ((handle M cfg fuel input).exec s) := by
  cases input with
  | newWft p fetch =>
    unfold handle
    rw [exec_modify_bind]
    have h : Place M cfg (p :: [], _) ([], _) :=
      instantiateOrUpdate_place p { s.returned fetch with entered := s.entered ++ [p] }
    rw [exec_bind]
    generalize (instantiateOrUpdate M cfg p).exec _ = y at h
    obtain ⟨e | act, s₁⟩ := y
    · trivial
    · exact h.slots hs.groups
  | completion k c tx =>
    refine touch_serves k hs fun s₁ h => ?_
    rw [exec_modify_bind]
    exact Post.bind (processCompletion_serves fuel k c tx ⟨h.groups, h.busy⟩) fun _ _ h => h
  | fetchedPageCompletion paginator update fetch =>
    unfold handle
    refine touch_serves paginator.runId (hs.returned hi) fun s₁ h => ?_
    exact Post.bind (processFetchedPage_serves fuel paginator update h) fun _ _ h => h
  | postActivation k status w auto =>
    refine touch_serves k hs fun s₁ h => ?_
    exact Post.bind (processPostActivation_serves k status w auto h) fun _ _ h => h
  | localResolution k | heartbeatTimeout k | localActivityCancelProcessed k | requestEviction k =>
    refine touch_serves k hs fun s₁ h => ?_
    exact Post.bind (onRun_map_serves h) fun _ _ h => h
  | failedFetch k info fetch =>
    unfold handle processFailedFetch
    simp only [exec_bind, exec_modify, andThen_ok, exec_get]
    split
    · exact hs.returned hi
    · exact Post.bind (onRun_map_serves (hs.returned hi)) fun _ _ h => h
  | bumpStream => exact hs

end

theorem Step.slots {s s' : WFStream μ} {input : WFStreamInput} (h : Step M cfg s input s') (hs : Slots s)
    (hi : s.strandsPolls input = false) : Slots s' := by
  obtain ⟨fuel, actions, h⟩ := h
  have hm : Serves ((process M cfg fuel input).exec s) := by
    refine Post.bind (handle_serves fuel input hs hi) fun _ s₁ h => ?_
    exact Post.bind ((reconcileBuffered_flows (l := []) fuel s₁).serves h) fun _ _ h => h
  rwa [h] at hm

/-- **While tasks wait for a slot, there is a cached run or a fetch under way**, if a fetch for a run that is not cached
does not come back empty when nothing else is going to happen. -/
theorem polls_not_stranded {s : WFStream μ}
    (h : Reach (Step M cfg) (fun s i => s.strandsPolls i = false) (· = {}) s)
    (hp : s.bufferedPollsNeedCacheSlot ≠ []) : s.runs ≠ [] ∨ s.fetches ≠ [] := by
  refine Slots.busy (h.invariant ?_ fun _ _ _ hs hi hstep => hstep.slots hs hi) hp
  rintro _ rfl
  exact ⟨List.not_mem_nil, fun h => absurd rfl h⟩

/-- Two tasks wait for the slot of run 0. Then the first asks for the history of run 1. -/
def slotForFetch : List WFStreamInput :=
  [.newWft (.ofStart 0 7 []) none, .newWft (.ofSticky 1 8 false) none, .newWft (.ofStart 2 9 []) none,
    .completion 0 (.success []) (some ⟨0, true⟩), .postActivation 0 (.reported none) none false,
    .completion 0 (.success []) (some ⟨1, true⟩), .postActivation 0 .notReported none false]

/-- The fetch fails, and the other task waits for ever. -/
theorem polls_stranded :
    ∃ s, Reach (Step signalOps { maxCachedWorkflows := 1 }) (fun _ _ => True) (· = {}) s ∧
      s.bufferedPollsNeedCacheSlot.map (·.map (·.work.taskToken)) = [[9]] ∧ s.runs.isEmpty ∧ s.fetches.isEmpty :=
  Reach.exists_of_trace (f := step? signalOps { maxCachedWorkflows := 1 } 1)
    (slotForFetch ++ [.failedFetch 1 (some ⟨8, 1⟩) (some 0)]) (by decide +kernel)
      (fun _ _ _ => step_of_step?) (.start rfl)

theorem polls_not_stranded_fetch :
    ∃ s, Reach (Step signalOps { maxCachedWorkflows := 1 }) (fun s i => s.strandsPolls i = false) (· = {}) s ∧
      s.bufferedPollsNeedCacheSlot ≠ [] ∧ (s.runs ≠ [] ∨ s.fetches ≠ []) := by
  obtain ⟨s, hreach, hp⟩ : ∃ s, Reach (Step signalOps { maxCachedWorkflows := 1 }) (fun s i => s.strandsPolls i = false)
      (· = {}) s ∧ s.bufferedPollsNeedCacheSlot.isEmpty = false :=
    Reach.exists_of_trace (f := step? signalOps { maxCachedWorkflows := 1 } 1) slotForFetch (by decide +kernel)
      (fun _ _ _ => step_of_step?) (.start rfl)
  have hp : s.bufferedPollsNeedCacheSlot ≠ [] := by simpa using hp
  exact ⟨s, hreach, hp, polls_not_stranded hreach hp⟩

end SdkCore.WFStream
