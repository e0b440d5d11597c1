import SdkCore.Run.Managers
import SdkCore.Stream.Moves

/-!
# Runs and tasks of the stream

What holds of every run (`Move.allRuns`), and where the tasks are. No run is given an activation while it has one
(`activation_inserted_once`), and every task is in one place (`tasks_conserved`).
-/

namespace SdkCore.WFStream

open Relation ManagedRun

variable {μ : Type} {M : ManagerOps μ} {cfg : WorkerConfig}

/-! ## The runs -/

/-- All runs that were ever made. -/
def allRuns (s : WFStream μ) : List (ManagedRun μ) := s.runs ++ s.removed

abbrev evicted (r : ManagedRun μ) (m : μ) : ManagedRun μ :=
  { r with activation := none, answer := none, taskBuffer := .empty, mgr := m }

variable {s : WFStream μ} {r r' : ManagedRun μ} {lossy : Prop} {x y : List PermittedWFT × WFStream μ}

theorem mem_allRuns_putRun (h : r ∈ (s.putRun r').allRuns) : r = r' ∨ r ∈ s.allRuns := by
  simp only [allRuns, putRun, List.mem_append, List.mem_filter, List.mem_singleton] at h ⊢
  tauto

theorem dropRun_runs (s : WFStream μ) (r : ManagedRun μ) (m : μ) :
    (s.dropRun r m).runs = s.runs.filter (·.runId ≠ r.runId) := by
  simp [dropRun, removeRun, putRun, List.filter_filter]

theorem dropRun_removed (s : WFStream μ) (r : ManagedRun μ) (m : μ) :
    (s.dropRun r m).removed = s.removed ++ [evicted r m] := by
  simp [dropRun, removeRun, putRun]

theorem mem_allRuns_dropRun {m : μ} (h : r ∈ (s.dropRun r' m).allRuns) : r = evicted r' m ∨ r ∈ s.allRuns := by
  simp only [allRuns, dropRun_runs, dropRun_removed, List.mem_append, List.mem_filter, List.mem_singleton] at h ⊢
  tauto

/-- What new runs have, and neither acts nor tasks nor eviction take away, holds of every run. -/
theorem Move.allRuns {P : ManagedRun μ → Prop} (hnew : ∀ p n, P ((incomingWft M p).exec (blank M p.work.runId n)).2)
    (hoffer : ∀ r p, p.work.runId = r.runId → P r → P ((offerWft M p).exec r).2)
    (hacts : ∀ r r', Acts r r' → P r → P r') (hevict : ∀ r m, P r → P (evicted r m)) (h : Move M cfg lossy x y)
    (hx : ∀ r ∈ x.2.allRuns, P r) : ∀ r ∈ y.2.allRuns, P r := by
  have hfind : ∀ {s : WFStream μ} {k : RunId} {r : ManagedRun μ}, s.findRun k = some r → r ∈ s.allRuns :=
    fun h => List.mem_append_left _ (mem_of_findRun h)
  intro r hr
  cases h with
  | flow h =>
    cases h with
    | run h ht =>
      rcases mem_allRuns_putRun hr with rfl | hr
      · exact hacts _ _ ht.acts (hx _ (hfind h))
      · exact hx r hr
    | place h =>
      cases h with
      | offer h =>
        rcases mem_allRuns_putRun hr with rfl | hr
        · exact hoffer _ _ (runId_of_findRun h).symm (hx _ (hfind h))
        · exact hx r hr
      | @new p l s h =>
        rcases mem_allRuns_putRun hr with rfl | hr
        · exact hnew _ _
        · exact hx r hr
      | poll | fetch => exact hx r hr
  | acts h ha =>
    rcases mem_allRuns_putRun hr with rfl | hr
    · exact hacts _ _ ha (hx _ (hfind h))
    · exact hx r hr
  | record | enter | pop | reorder | lose => exact hx r hr
  | remove h m =>
    rcases mem_allRuns_dropRun hr with rfl | hr
    · exact hevict _ _ (hx _ (hfind h))
    · exact hx r hr

/-! ## Activations -/

/-- A local activity runs, with a command to report. -/
abbrev localActivityOps : ManagerOps (Managers Unit Unit) :=
  Managers.ops { Behaviour.signals with outstandingLaCount := fun _ => 1, hasCommands := fun _ => true } .absent
    fun _ _ => ((), ())

/-- A run is evicted while a local activity runs. A query comes, and the report brings a new task. -/
def evictionWithQuery (w : Option PermittedWFT) : List WFStreamInput :=
  [.newWft (.ofStart 0 7 []) none, .completion 0 (.success []) (some ⟨0, true⟩),
    .postActivation 0 .notReported none false,
    .requestEviction 0 { reason := .cacheFull }, .newWft (.ofSticky 0 8 true) none,
    .completion 0 (.success []) (some ⟨1, true⟩), .postActivation 0 (.reported none) w false]

theorem Moves.panicked (h : Moves M cfg lossy x y) (hx : ∀ r ∈ x.2.allRuns, r.panicked = false) :
    ∀ r ∈ y.2.allRuns, r.panicked = false := by
  induction h with
  | refl => exact hx
  | tail _ h ih =>
    refine Move.allRuns (fun p n => ?_) (fun r p _ hr => ?_) (fun r r' ha hr => ?_) (fun r m hr => hr) h ih
    · obtain ⟨q, pg, w, -, -, he⟩ := incomingWft_evolves p (r := blank M p.work.runId n) rfl
      exact he.same.panicked
    · exact (offerWft_panicked r p).trans hr
    · exact ha.panicked.trans hr

/-- **No run is given an activation while it has one.** -/
theorem activation_inserted_once {s : WFStream μ} (h : Reach (Step M cfg) (fun _ _ => True) (· = {}) s) (fuel : Nat)
    (input : WFStreamInput) : ∀ r ∈ ((process M cfg fuel input).exec s).2.allRuns, r.panicked = false := by
  have hs : ∀ r ∈ s.allRuns, r.panicked = false := by
    refine h.invariant (I := fun s => ∀ r ∈ s.allRuns, r.panicked = false) ?_ fun s i s' hs _ hstep => ?_
    · rintro _ rfl r hr
      cases hr
    · exact hstep.moves.panicked hs
  have hm : MovesTo M cfg _ _ _ _ := process_moves fuel input s
  generalize (process M cfg fuel input).exec s = x at hm
  obtain ⟨e | a, s'⟩ := x
  · obtain ⟨l, hm⟩ := hm
    exact Moves.panicked hm hs
  · exact Moves.panicked hm hs

theorem activation_inserted_once_evicted :
    ∃ s, Reach (Step localActivityOps { maxCachedWorkflows := 2 }) (fun _ _ => True) (· = {}) s ∧
      s.runs.map (·.activation) = [some .eviction] ∧
      ∀ r ∈ ((process localActivityOps { maxCachedWorkflows := 2 } 1
        (.newWft (.ofSticky 0 8 true) none)).exec s).2.allRuns, r.panicked = false := by
  obtain ⟨s, hreach, h⟩ : ∃ s, Reach (Step localActivityOps { maxCachedWorkflows := 2 }) (fun _ _ => True) (· = {}) s ∧
      s.runs.map (·.activation) = [some .eviction] :=
    Reach.exists_of_trace (f := step? localActivityOps { maxCachedWorkflows := 2 } 1) ((evictionWithQuery none).take 4)
      (by decide +kernel) (fun _ _ _ => step_of_step?) (.start rfl)
  exact ⟨s, hreach, h, activation_inserted_once hreach 1 _⟩

/-! ## The places of the tasks -/

/-- Tasks of runs, those that wait for a slot and those whose history was requested. -/
def places (s : WFStream μ) : List PermittedWFT :=
  s.allRuns.flatMap tasks ++ s.bufferedPollsNeedCacheSlot.flatten ++ s.emitted

/-- Every task is in one place or on its way. -/
structure Conserved (x : List PermittedWFT × WFStream μ) : Prop where
  nodup : (x.2.runs.map runId).Nodup
  perm : x.2.entered.Perm (x.1 ++ x.2.places)

theorem perm_of_find {k : RunId} : ∀ {l : List (ManagedRun μ)}, (l.map runId).Nodup →
    l.find? (·.runId = k) = some r → l.Perm (r :: l.filter (·.runId ≠ k))
  | [], _, h => by cases h
  | x :: l, hd, h => by
    obtain ⟨hx, hd⟩ := List.nodup_cons.mp hd
    by_cases hk : x.runId = k
    · have hl : l.filter (·.runId ≠ k) = l := by
        refine List.filter_eq_self.mpr fun y hy => ?_
        have hne : y.runId ≠ k := fun h => hx (List.mem_map.mpr ⟨y, hy, h.trans hk.symm⟩)
        simpa using hne
      rw [List.find?_cons_of_pos (by simpa using hk)] at h
      cases h
      rw [List.filter_cons_of_neg (by simpa using hk), hl]
    · rw [List.find?_cons_of_neg (by simpa using hk)] at h
      rw [List.filter_cons_of_pos (by simpa using hk)]
      exact ((perm_of_find hd h).cons x).trans (.swap ..)

section

variable {s : WFStream μ} {r r' : ManagedRun μ}

theorem putRun_nodup (hd : (s.runs.map runId).Nodup) : ((s.putRun r').runs.map runId).Nodup := by
  simp only [putRun, List.map_append, List.map_cons, List.map_nil]
  refine List.nodup_append.mpr ⟨hd.sublist (List.filter_sublist.map _),
    List.nodup_cons.mpr ⟨List.not_mem_nil, .nil⟩, ?_⟩
  intro k hk k' hr hkk
  obtain ⟨y, hy, rfl⟩ := List.mem_map.mp hk
  have hne := (List.mem_filter.mp hy).2
  simp [hkk, List.mem_singleton.mp hr] at hne

theorem flatMap_putRun {α : Type} [DecidableEq α] (f : ManagedRun μ → List α) {o : Option (ManagedRun μ)}
    (hd : (s.runs.map runId).Nodup) (hr : s.findRun r'.runId = o) :
    (o.elim [] f ++ (s.putRun r').allRuns.flatMap f).Perm (f r' ++ s.allRuns.flatMap f) := by
  have h : s.runs.Perm (o.toList ++ s.runs.filter (·.runId ≠ r'.runId)) := by
    cases o with
    | some r => exact perm_of_find hd hr
    | none => exact .of_eq (List.filter_eq_self.mpr fun y hy => by simpa using List.find?_eq_none.mp hr y hy).symm
  refine List.perm_iff_count.mpr fun a => ?_
  have h := (h.flatMap_right f).count_eq a
  cases o <;>
  simp only [allRuns, putRun, Option.toList, Option.elim, List.flatMap_append, List.flatMap_cons, List.flatMap_nil,
    List.append_nil, List.nil_append, List.count_append] at h ⊢ <;>
  omega

theorem flatMap_dropRun {α : Type} [DecidableEq α] (f : ManagedRun μ → List α) (m : μ)
    (hd : (s.runs.map runId).Nodup) (hr : s.findRun r.runId = some r) :
    (f r ++ (s.dropRun r m).allRuns.flatMap f).Perm (f (evicted r m) ++ s.allRuns.flatMap f) := by
  refine List.perm_iff_count.mpr fun a => ?_
  have h := ((perm_of_find hd hr).flatMap_right f).count_eq a
  simp only [allRuns, dropRun_runs, dropRun_removed, List.flatMap_append, List.flatMap_cons, List.flatMap_nil,
    List.append_nil, List.count_append] at h ⊢
  omega

theorem putRun_places {o : Option (ManagedRun μ)} (hd : (s.runs.map runId).Nodup) (hr : s.findRun r'.runId = o) :
    (o.elim [] tasks ++ (s.putRun r').places).Perm (r'.tasks ++ s.places) := by
  refine List.perm_iff_count.mpr fun a => ?_
  have h := (flatMap_putRun tasks hd hr).count_eq a
  have hp : (s.putRun r').bufferedPollsNeedCacheSlot = s.bufferedPollsNeedCacheSlot := rfl
  have he : (s.putRun r').emitted = s.emitted := rfl
  simp only [places, hp, he, List.count_append] at h ⊢
  omega

theorem dropRun_nodup (m : μ) (hd : (s.runs.map runId).Nodup) : ((s.dropRun r m).runs.map runId).Nodup := by
  rw [dropRun_runs]
  exact hd.sublist (List.filter_sublist.map _)

theorem dropRun_places (m : μ) (hd : (s.runs.map runId).Nodup) (hr : s.findRun r.runId = some r) :
    (r.taskBuffer.intoBufferOrder ++ (s.dropRun r m).places).Perm s.places := by
  refine List.perm_iff_count.mpr fun a => ?_
  have h := (flatMap_dropRun tasks m hd hr).count_eq a
  have hp : (s.dropRun r m).bufferedPollsNeedCacheSlot = s.bufferedPollsNeedCacheSlot := rfl
  have he : (s.dropRun r m).emitted = s.emitted := rfl
  have ht : (evicted r m).tasks = r.applied ++ r.superseded.flatMap (·.2) := by
    simp [tasks, BufferedTasks.intoBufferOrder, BufferedTasks.empty]
  rw [ht] at h
  simp only [places, hp, he, List.count_append] at ⊢
  simp only [tasks, List.count_append] at h
  omega

end

theorem bufferPoll_flatten (p : PermittedWFT) : ∀ groups : List (List PermittedWFT),
    (bufferPoll p groups).flatten.Perm (p :: groups.flatten)
  | [] => .refl _
  | group :: groups => by
    unfold bufferPoll
    split
    · simp only [List.flatten_cons, List.append_assoc, List.singleton_append]
      exact List.perm_middle
    · simp only [List.flatten_cons]
      exact ((bufferPoll_flatten p groups).append_left group).trans List.perm_middle

theorem Conserved.acts {l : List PermittedWFT} (hx : Conserved (l, s)) (h : s.findRun r.runId = some r)
    (ha : Acts r r') : Conserved (l, s.putRun r') := by
  refine ⟨putRun_nodup hx.nodup, hx.perm.trans (.append_left l ?_)⟩
  exact (List.perm_append_left_iff r'.tasks).mp
    ((putRun_places hx.nodup (ha.runId ▸ h)).symm.trans (ha.tasks.symm.append_right _))

theorem Place.conserved (h : Place M cfg x y) (hx : Conserved x) : Conserved y := by
  cases h with
  | @offer p l s r h =>
    have hk := runId_of_findRun h
    have hk' : ((offerWft M p).exec r).2.runId = r.runId := offerWft_runId r p
    refine ⟨putRun_nodup hx.nodup, hx.perm.trans ?_⟩
    have hp := putRun_places hx.nodup ((hk'.trans hk).symm ▸ h)
    have ht := offerWft_tasks (M := M) r p
    refine List.perm_iff_count.mpr fun a => ?_
    have hp := hp.count_eq a
    have ht := ht.count_eq a
    simp only [Option.elim, List.count_append, List.count_cons] at hp ht ⊢
    omega
  | @new p l s h =>
    obtain ⟨ht, hk, -⟩ := newRun_tasks (M := M) p p.work.runId s.created
    have hp := putRun_places hx.nodup (hk ▸ h)
    refine ⟨putRun_nodup hx.nodup, hx.perm.trans ?_⟩
    show (p :: l ++ s.places).Perm (l ++ (s.putRun _).places)
    refine List.perm_iff_count.mpr fun a => ?_
    have hp := hp.count_eq a
    have ht := ht.count_eq a
    simp only [Option.elim, List.count_append, List.count_cons, List.count_nil] at hp ht ⊢
    omega
  | @poll p l s hf =>
    refine ⟨hx.nodup, hx.perm.trans ?_⟩
    have hp := bufferPoll_flatten p s.bufferedPollsNeedCacheSlot
    refine List.perm_iff_count.mpr fun a => ?_
    have hp := hp.count_eq a
    simp only [places, allRuns, bufferRespOnFullCache, List.count_append, List.count_cons] at hp ⊢
    omega
  | @fetch p l s =>
    refine ⟨hx.nodup, hx.perm.trans ?_⟩
    refine List.perm_iff_count.mpr fun a => ?_
    simp only [places, allRuns, requestFetch, List.count_append, List.count_cons, List.count_nil]
    omega

/-- No task is lost or made. -/
theorem Move.conserved (h : Move M cfg False x y) (hx : Conserved x) : Conserved y := by
  cases h with
  | flow h =>
    cases h with
    | place h => exact h.conserved hx
    | run h ht => exact hx.acts h ht.acts
  | acts h ha => exact hx.acts h ha
  | record => exact ⟨hx.nodup, hx.perm⟩
  | @enter l s ps =>
    refine ⟨hx.nodup, ?_⟩
    have hp : (s.entered ++ ps).Perm (ps ++ (l ++ s.places)) :=
      List.perm_append_comm.trans (hx.perm.append_left ps)
    rw [← List.append_assoc] at hp
    exact hp
  | @pop l s group groups h =>
    refine ⟨hx.nodup, hx.perm.trans ?_⟩
    refine List.perm_iff_count.mpr fun a => ?_
    simp only [places, WFStream.allRuns, h, List.flatten_cons, List.count_append]
    omega
  | @remove l s r h m =>
    refine ⟨dropRun_nodup m hx.nodup, hx.perm.trans ?_⟩
    refine List.perm_iff_count.mpr fun a => ?_
    have hp := (dropRun_places m hx.nodup h).count_eq a
    simp only [List.count_append] at hp ⊢
    omega
  | reorder h => exact ⟨hx.nodup, hx.perm.trans (h.append_right _)⟩
  | lose h => exact h.elim

/-- A run has its own tasks only, and supersedes those that may disappear. -/
def Own (r : ManagedRun μ) : Prop :=
  (∀ t ∈ r.tasks, t.work.runId = r.runId) ∧
    ∀ e ∈ r.superseded, BufferedTasks.Supersedes e.1 e.2 ∧ e.1.work.runId = r.runId

theorem offerWft_own (r : ManagedRun μ) (p : PermittedWFT) (hp : p.work.runId = r.runId) (hr : Own r) :
    Own ((offerWft M p).exec r).2 := by
  refine ⟨fun t ht => ?_, fun e he => ?_⟩
  · rw [offerWft_runId]
    rcases List.mem_cons.mp ((offerWft_tasks r p).mem_iff.mp ht) with rfl | ht
    · exact hp
    · exact hr.1 t ht
  · rw [offerWft_runId]
    rcases offerWft_spec r p with h | ⟨-, -, -, q, pg, w, -, -, h⟩
    · rw [h] at he
      rcases List.mem_append.mp he with he | he
      · exact hr.2 e he
      · cases List.mem_singleton.mp he
        exact ⟨r.taskBuffer.supersedes p, hp⟩
    · rw [h.same.superseded] at he
      exact hr.2 e he

theorem Move.own (h : Move M cfg lossy x y) (hx : ∀ r ∈ x.2.allRuns, Own r) : ∀ r ∈ y.2.allRuns, Own r := by
  refine Move.allRuns (fun p n => ?_) offerWft_own (fun r r' ha hr => ?_) (fun r m hr => ?_) h hx
  · obtain ⟨ht, hk, hs⟩ := newRun_tasks p p.work.runId n
    refine ⟨fun t h => ?_, fun e he => ?_⟩
    · rw [hk, List.mem_singleton.mp (ht.mem_iff.mp h)]
    · rw [hs] at he
      cases he
  · refine ⟨fun t ht => ?_, ?_⟩
    · rw [ha.runId]
      exact hr.1 t (ha.tasks.mem_iff.mp ht)
    · rw [ha.superseded, ha.runId]
      exact hr.2
  · refine ⟨fun t ht => hr.1 t ?_, hr.2⟩
    simp only [tasks, BufferedTasks.intoBufferOrder, BufferedTasks.empty, List.mem_append] at ht ⊢
    tauto

/-- **Every task that came in is in one place**, if no task from a completion finds the end of an eviction and another
task waiting. -/
theorem tasks_conserved {s : WFStream μ}
    (h : Reach (Step M cfg) (fun s i => s.losesTask M i = false) (· = {}) s) :
    s.entered.Perm s.places ∧ ∀ r ∈ s.allRuns, Own r := by
  refine h.invariant (I := fun s => Conserved ([], s) ∧ ∀ r ∈ s.allRuns, Own r) ?_ ?_ |>.imp_left Conserved.perm
  · rintro _ rfl
    refine ⟨⟨.nil, .refl _⟩, fun r hr => ?_⟩
    cases hr
  · intro s i s' hs hi hstep
    have hm := hstep.moves
    rw [hi, Bool.false_eq_true] at hm
    have hinv : ∀ x y, Moves M cfg False x y → Conserved x ∧ (∀ r ∈ x.2.allRuns, Own r) →
        Conserved y ∧ ∀ r ∈ y.2.allRuns, Own r := by
      intro x y h hx
      induction h with
      | refl => exact hx
      | tail _ h ih => exact ⟨h.conserved ih.1, h.own ih.2⟩
    exact hinv _ _ hm hs

/-- The task from the completion is in no place. -/
theorem task_lost :
    ∃ s, Reach (Step localActivityOps { maxCachedWorkflows := 2 }) (fun _ _ => True) (· = {}) s ∧
      (s.entered.map (·.work.taskToken) = [7, 8, 9] ∧ s.places.map (·.work.taskToken) = [7, 8]) ∧
      ¬ s.entered.Perm s.places := by
  obtain ⟨s, hreach, he, hp⟩ : ∃ s, Reach (Step localActivityOps { maxCachedWorkflows := 2 })
    (fun _ _ => True) (· = {}) s ∧
      s.entered.map (·.work.taskToken) = [7, 8, 9] ∧ s.places.map (·.work.taskToken) = [7, 8] :=
    Reach.exists_of_trace (f := step? localActivityOps { maxCachedWorkflows := 2 } 1)
      (evictionWithQuery (some (.ofSticky 0 9 false))) (by decide +kernel) (fun _ _ _ => step_of_step?) (.start rfl)
  refine ⟨s, hreach, ⟨he, hp⟩, fun hperm => ?_⟩
  have hl := (hperm.map (·.work.taskToken)).length_eq
  rw [he, hp] at hl
  cases hl

theorem tasks_conserved_query :
    ∃ s, Reach (Step localActivityOps { maxCachedWorkflows := 2 }) (fun s i => s.losesTask localActivityOps i = false)
        (· = {}) s ∧ s.entered.map (·.work.taskToken) = [7, 8] ∧ s.entered.Perm s.places ∧ ∀ r ∈ s.allRuns, Own r := by
  obtain ⟨s, hreach, h⟩ : ∃ s, Reach (Step localActivityOps { maxCachedWorkflows := 2 })
      (fun s i => s.losesTask localActivityOps i = false) (· = {}) s ∧ s.entered.map (·.work.taskToken) = [7, 8] :=
    Reach.exists_of_trace (f := step? localActivityOps { maxCachedWorkflows := 2 } 1) (evictionWithQuery none)
      (by decide +kernel) (fun _ _ _ => step_of_step?) (.start rfl)
  exact ⟨s, hreach, h, tasks_conserved hreach⟩

end SdkCore.WFStream
