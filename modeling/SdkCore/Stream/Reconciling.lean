import SdkCore.Run.Returning
import SdkCore.Stream.Conservation

/-!
# Evictions for the tasks that wait

After every input the stream requests the evictions that waiting groups need beyond those pending. A request to a run
that is being evicted already is lost (`reconcileBuffered_evicts_enough_iff`).
-/

namespace SdkCore

open Relation ManagedRun Op

variable {μ : Type} {M : ManagerOps μ} {cfg : WorkerConfig}

namespace ManagedRun

def isEvicting (r : ManagedRun μ) : Bool := r.tryingToEvict.isSome

variable {r r' : ManagedRun μ}

theorem Change.isEvicting (h : Change r r') (hr : r.isEvicting = true) : r'.isEvicting = true := by
  cases h with
  | settle h =>
    cases h
    exact hr
  | dispatch | take => exact hr
  | evict => rfl

theorem Evolves.isEvicting (h : Evolves r r') (hr : r.isEvicting = true) : r'.isEvicting = true := by
  induction h with
  | refl => exact hr
  | tail _ h ih => exact h.isEvicting ih

theorem markForEviction_evicts (info : RequestEvictMsg) (r : ManagedRun μ) :
    ∃ res r', (markForEviction M info).exec r = (.ok res, r') ∧ r'.runId = r.runId ∧ r'.isEvicting = true := by
  obtain ⟨res, r', h⟩ := markForEviction_returns (r := r) info
  obtain ⟨s, hs, he⟩ := markForEviction_evolves info r
  rw [h] at he
  have hid : s.runId = r.runId := by
    cases hs
    rfl
  exact ⟨res, r', h, he.same.runId.trans hid, he.isEvicting rfl⟩

end ManagedRun

namespace WFStream

variable {s : WFStream μ} {r r' : ManagedRun μ} {k : RunId}

/-- Runs without a task of their own, least recently used first. -/
def free (s : WFStream μ) : List (ManagedRun μ) := s.runs.filter (!·.hasBufferedWft)

/-- The evictions needed beyond those pending. -/
def needed (s : WFStream μ) : Nat := s.bufferedPollsNeedCacheSlot.length - s.runs.countP (·.isEvicting)

theorem evictThese_eq : ∀ (n : Nat) (rs : List (ManagedRun μ)),
    evictThese n rs = ((rs.filter (!·.hasBufferedWft)).take n).map runId
  | 0, rs => by simp [evictThese]
  | n + 1, [] => rfl
  | n + 1, r :: rs => by
    rw [evictThese]
    split
    · next h => simp [h, evictThese_eq n rs]
    · next h => simp [h, evictThese_eq (n + 1) rs]

/-! ## What a request does -/

/-- Which runs are being evicted. -/
def flags (s : WFStream μ) : List (RunId × Bool) := s.runs.map fun r => (r.runId, r.isEvicting)

theorem flags_putRun (hd : (s.runs.map runId).Nodup) (hr : s.findRun k = some r) (hk : r'.runId = k)
    (he : r'.isEvicting = true) : (s.putRun r').flags.Perm (s.flags.map fun x => (x.1, x.2 || decide (x.1 = k))) := by
  have hrest : (s.runs.filter (·.runId ≠ k)).map (fun r => (r.runId, r.isEvicting)) =
      (s.runs.filter (·.runId ≠ k)).map (fun r => (r.runId, r.isEvicting || decide (r.runId = k))) := by
    refine List.map_congr_left fun x hx => ?_
    have hne : x.runId ≠ k := by simpa using (List.mem_filter.mp hx).2
    simp [hne]
  have hperm := (perm_of_find hd hr).map fun r => (r.runId, r.isEvicting || decide (r.runId = k))
  have hrk := runId_of_findRun hr
  simp only [flags, putRun, hk, List.map_append, List.map_map, List.map_cons, List.map_nil, hrest, he]
  refine List.perm_append_comm.trans (.trans ?_ hperm.symm)
  simp [hrk]

variable (M cfg) in
/-- The run asked is being evicted afterwards. -/
theorem requestEviction_flags (hd : (s.runs.map runId).Nodup) (hk : k ∈ s.runs.map runId) (fuel : Nat) :
    ∃ act s', (requestEviction M cfg fuel k { reason := .cacheFull }).exec s = (.ok act, s') ∧
      s'.flags.Perm (s.flags.map fun x => (x.1, x.2 || decide (x.1 = k))) := by
  obtain ⟨r, hr, hrk⟩ := List.mem_map.mp hk
  obtain ⟨r, hr⟩ : ∃ r, s.findRun k = some r := by
    refine Option.isSome_iff_exists.mp (List.find?_isSome.mpr ⟨r, hr, by simpa using hrk⟩)
  obtain ⟨res, r', hm, hid, he⟩ := markForEviction_evicts { reason := .cacheFull } r
  have hexec : (ManagedRun.requestEviction M cfg fuel { reason := .cacheFull }).exec r = (.ok res, r') := by
    rw [requestEviction_marks (.inr (by decide)), hm]
  refine ⟨res.intoRunUpdateResp, s.putRun r', ?_, flags_putRun hd hr (hid.trans (runId_of_findRun hr)) he⟩
  simp only [requestEviction, onRun, exec_bind, exec_get, andThen_ok, hr, hexec, exec_modify, exec_pure]
  rfl

theorem flags_ids (s : WFStream μ) : s.flags.map (·.1) = s.runs.map runId := by
  simp [flags, Function.comp_def]

variable (M cfg) in
theorem requestEvictions_flags (fuel : Nat) : ∀ (ks : List RunId) {s : WFStream μ}, (s.runs.map runId).Nodup →
    (∀ k ∈ ks, k ∈ s.runs.map runId) → ∃ acts s', (requestEvictions M cfg fuel ks).exec s = (.ok acts, s') ∧
      s'.flags.Perm (s.flags.map fun x => (x.1, x.2 || decide (x.1 ∈ ks)))
  | [], s, _, _ => ⟨[], s, rfl, by simp⟩
  | k :: ks, s, hd, hks => by
    obtain ⟨act, s₁, h₁, hp₁⟩ := requestEviction_flags M cfg hd (hks k List.mem_cons_self) fuel
    -- The runs of the cache are the same.
    have hids : (s₁.runs.map runId).Perm (s.runs.map runId) := by
      have hmap := hp₁.map (·.1)
      rwa [flags_ids, List.map_map, Function.comp_def, flags_ids] at hmap
    obtain ⟨acts, s₂, h₂, hp₂⟩ := requestEvictions_flags fuel ks (hids.nodup_iff.mpr hd) fun k' hk' =>
      hids.mem_iff.mpr (hks k' (List.mem_cons_of_mem _ hk'))
    refine ⟨act.toList ++ acts, s₂, ?_, hp₂.trans ?_⟩
    · rw [requestEvictions, exec_bind, h₁, andThen_ok, exec_bind, h₂]
      rfl
    · refine (hp₁.map _).trans (.of_eq ?_)
      simp [Function.comp_def, Bool.or_assoc]

/-! ## Counting -/

theorem countP_or {α : Type} (p q : α → Bool) (l : List α) :
    l.countP (fun x => p x || q x) = l.countP p + l.countP fun x => !p x && q x := by
  induction l with
  | nil => rfl
  | cons x l ih =>
    simp only [List.countP_cons, ih]
    cases p x <;> cases q x <;> simp <;> omega

theorem filter_mem_runId {t l : List (ManagedRun μ)} (h : t.Sublist l) (hd : (l.map runId).Nodup) :
    l.filter (fun r => decide (r.runId ∈ t.map runId)) = t := by
  induction h with
  | slnil => rfl
  | @cons t l r h ih =>
    obtain ⟨hr, hd⟩ := List.nodup_cons.mp hd
    have hnot : r.runId ∉ t.map runId := fun hm => hr ((h.map runId).subset hm)
    rw [List.filter_cons_of_neg (by simpa using hnot), ih hd]
  | @cons_cons t l r h ih =>
    obtain ⟨hr, hd⟩ := List.nodup_cons.mp hd
    rw [List.filter_cons_of_pos (by simp)]
    congr 1
    refine (List.filter_congr fun x hx => ?_).trans (ih hd)
    have hne : x.runId ≠ r.runId := fun he => hr (he ▸ List.mem_map_of_mem hx)
    simp [hne]

/-- How many are being evicted then. -/
theorem countP_requested (hd : (s.runs.map runId).Nodup) (n : Nat) :
    (s.runs.countP fun r => r.isEvicting || decide (r.runId ∈ (s.free.take n).map runId)) =
      s.runs.countP (·.isEvicting) + (s.free.take n).countP (!·.isEvicting) := by
  have hsub : (s.free.take n).Sublist s.runs := (List.take_sublist n s.free).trans List.filter_sublist
  rw [countP_or]
  conv_rhs => rw [← filter_mem_runId hsub hd, List.countP_filter]

theorem countP_candidates (s : WFStream μ) (n : Nat) :
    (s.runs.countP fun r => r.isEvicting || !r.hasBufferedWft) =
      s.runs.countP (·.isEvicting) +
        ((s.free.take n).countP (!·.isEvicting) + (s.free.drop n).countP (!·.isEvicting)) := by
  rw [countP_or, ← List.countP_append, List.take_append_drop, free, List.countP_filter]

variable (M cfg) in
/-- **There are enough evictions iff the runs asked are not being evicted already, or all others are.** -/
theorem reconcileBuffered_evicts_enough_iff (hd : (s.runs.map runId).Nodup) (fuel : Nat) :
    ∃ acts s', (reconcileBuffered M cfg fuel).exec s = (.ok acts, s') ∧
      (min s.bufferedPollsNeedCacheSlot.length (s.runs.countP fun r => r.isEvicting || !r.hasBufferedWft) ≤
          s'.runs.countP (·.isEvicting) ↔
        (∀ r ∈ s.free.take s.needed, r.isEvicting = false) ∨ ∀ r ∈ s.free.drop s.needed, r.isEvicting = true) := by
  have hks : ∀ k ∈ (s.free.take s.needed).map runId, k ∈ s.runs.map runId := fun k hk =>
    (((List.take_sublist _ s.free).trans List.filter_sublist).map runId).subset hk
  obtain ⟨acts, s', h, hp⟩ := requestEvictions_flags M cfg fuel _ hd hks
  refine ⟨acts, s', ?_, ?_⟩
  · have hthese : evictThese s.needed s.runs = (s.free.take s.needed).map runId := evictThese_eq _ _
    rw [← hthese] at h
    exact h
  · have hcount : s'.runs.countP (·.isEvicting) =
        s.runs.countP (·.isEvicting) + (s.free.take s.needed).countP (!·.isEvicting) := by
      have hflags := hp.countP_eq (·.2)
      simp only [flags, List.countP_map, List.map_map, Function.comp_def] at hflags
      rw [hflags, countP_requested hd]
    have htake : (∀ r ∈ s.free.take s.needed, r.isEvicting = false) ↔
        (s.free.take s.needed).countP (!·.isEvicting) = (s.free.take s.needed).length := by
      rw [List.countP_eq_length]
      simp
    have hdrop : (∀ r ∈ s.free.drop s.needed, r.isEvicting = true) ↔
        (s.free.drop s.needed).countP (!·.isEvicting) = 0 := by
      simp
    have hle := List.countP_le_length (p := fun r : ManagedRun μ => !r.isEvicting) (l := s.free.take s.needed)
    have hle' := List.countP_le_length (p := fun r : ManagedRun μ => !r.isEvicting) (l := s.free.drop s.needed)
    have hneed : s.needed = s.bufferedPollsNeedCacheSlot.length - s.runs.countP (·.isEvicting) := rfl
    rw [countP_candidates s s.needed, htake, hdrop]
    rw [List.length_take] at hle ⊢
    rw [List.length_drop] at hle'
    omega

/-- Run 0 is asked to go for run 2. Then run 1 is used. -/
def oneWaits : List WFStreamInput :=
  [.newWft (.ofStart 0 7 []) none, .newWft (.ofStart 1 8 []) none, .newWft (.ofStart 2 9 []) none, .heartbeatTimeout 1]

/-- How many evictions there should be, and how many there are. -/
def evictions (s : WFStream (Managers Unit Unit)) : Nat × Nat :=
  (min s.bufferedPollsNeedCacheSlot.length (s.runs.countP fun r => r.isEvicting || !r.hasBufferedWft),
    ((reconcileBuffered signalOps { maxCachedWorkflows := 2 } 1).exec s).2.runs.countP (·.isEvicting))

/-- A task for run 3 comes, and run 0 is asked again. -/
theorem reconcileBuffered_evicts_too_few :
    ∃ s, Reach (Step signalOps { maxCachedWorkflows := 2 }) (fun _ _ => True) (· = {}) s ∧
      evictions ((handle signalOps { maxCachedWorkflows := 2 } 1 (.newWft (.ofStart 3 10 []) none)).exec s).2 =
        (2, 1) :=
  Reach.exists_of_trace (f := step? signalOps { maxCachedWorkflows := 2 } 1) oneWaits (by decide +kernel)
    (fun _ _ _ => step_of_step?) (.start rfl)

theorem reconcileBuffered_evicts_enough_two :
    ∃ s : WFStream (Managers Unit Unit), s.bufferedPollsNeedCacheSlot.length = 2 ∧
      ∃ acts s', (reconcileBuffered signalOps { maxCachedWorkflows := 2 } 1).exec s = (.ok acts, s') ∧
        2 ≤ s'.runs.countP (·.isEvicting) := by
  have h : ((trace (step? signalOps { maxCachedWorkflows := 2 } 1) (fun _ _ => true) (oneWaits.take 3) {}).map fun s =>
      ((handle signalOps { maxCachedWorkflows := 2 } 1 (.newWft (.ofStart 3 10 []) none)).exec s).2).map
        (fun s => (s.bufferedPollsNeedCacheSlot.length, s.runs.map runId, (s.free.take s.needed).all (!·.isEvicting),
          s.runs.countP fun r => r.isEvicting || !r.hasBufferedWft)) = some (2, [1, 0], true, 2) := by
    decide +kernel
  obtain ⟨s, -, h⟩ := Option.map_eq_some_iff.mp h
  simp only [Prod.mk.injEq] at h
  obtain ⟨hgroups, hids, hfresh, hcount⟩ := h
  obtain ⟨acts, s', hexec, hiff⟩ := reconcileBuffered_evicts_enough_iff signalOps { maxCachedWorkflows := 2 }
    (by rw [hids]; decide) 1
  have henough := hiff.mpr (.inl (by simpa using hfresh))
  rw [hgroups, hcount] at henough
  exact ⟨s, hgroups, acts, s', hexec, henough⟩

end WFStream

end SdkCore
