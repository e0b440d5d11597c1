import SdkCore.History.Consumer

/-!
# The boundaries of workflow task sequences

A whole history is taken sequence by sequence (`takeAll`). `Chunked` says without a scan what the sequences are. One
that ends at position `k` has the boundary `k + 1`.
-/

namespace SdkCore

open Chunks

/-! ## Taking all sequences -/

/-- The last started task among the events, or `cur`. -/
def lastStarted (cur : Int) (events : List HistoryEvent) : Int :=
  ((events.filter (·.isWftStarted)).getLast?.map (·.eventId)).getD cur

/-- Take sequences until there are none, each after the last started task. -/
def takeAll : Nat → HistoryUpdate → Int → List (List HistoryEvent) × Stop
  | 0, _, _ => ([], .outOfFuel)
  | fuel + 1, u, cur =>
    match u.takeNextWftSequence cur with
    | (.replayOver, _) => ([], .replayOver)
    | (.needFetch, _) => ([], .needFetch)
    | (.panicked, _) => ([], .panicked)
    | (.wft events _, u) =>
      let r := takeAll fuel u (lastStarted cur events)
      (events :: r.1, r.2)

theorem lastStarted_le {a cur : Int} {l : List HistoryEvent} (hc : Contig a l) (hcur : cur ≤ a) :
    lastStarted cur l ≤ a + l.length := by
  unfold lastStarted
  cases hl : (l.filter (·.isWftStarted)).getLast? with
  | none =>
    show cur ≤ _
    omega
  | some e => exact hc.le e (List.mem_filter.mp (List.mem_of_getLast? hl)).1

/-- They are the chunks of the events. -/
theorem takeAll_eq (l : List HistoryEvent) : ∀ {fuel : Nat} {u : HistoryUpdate} {a cur : Int}, u.events = l →
    Contig a l → cur ≤ a → u.hasLastWft = true → l.length < fuel →
    takeAll fuel u cur = (whole seqEnd l, .replayOver) := by
  induction l using chunk_induction seqEnd_lt with
  | none l hn =>
    rintro fuel u a cur rfl hc hcur hlast hf
    obtain ⟨fuel, rfl⟩ : ∃ k, fuel = k + 1 := ⟨fuel - 1, by omega⟩
    rw [takeAll, take_of_none hc hcur hn hlast, whole_of_none hn]
    by_cases h1 : u.events.length ≤ 1
    · rw [if_pos h1, if_pos h1]
    · -- everything is taken at once, and nothing is left for the next call
      have hlen : u.events.length - 1 + 1 = u.events.length := by omega
      have hnil : Contig (a + u.events.length) ({ u with events := [] } : HistoryUpdate).events := trivial
      obtain ⟨fuel, rfl⟩ : ∃ k, fuel = k + 1 := ⟨fuel - 1, by omega⟩
      rw [if_neg h1, if_neg h1]
      simp only [HistoryUpdate.buildNextWft, hlen, List.take_length, List.drop_length, takeAll,
        take_of_none hnil (lastStarted_le hc hcur) (cut_nil seqEnd_lt) hlast, List.length_nil, Nat.zero_le, if_true]
  | some l i hs ih =>
    rintro fuel u a cur rfl hc hcur hlast hf
    obtain ⟨fuel, rfl⟩ : ∃ k, fuel = k + 1 := ⟨fuel - 1, by omega⟩
    have hi := seqEnd_lt _ _ hs
    have hc' := hc
    rw [← List.take_append_drop (i + 1) u.events, contig_append] at hc'
    have hrest := @ih fuel { u with events := u.events.drop (i + 1) } _ _ rfl hc'.2 (lastStarted_le hc'.1 hcur) hlast
      (by rw [List.length_drop]; omega)
    rw [takeAll, take_of_some hc hcur hs, whole_of_some seqEnd_lt hs]
    simp only [HistoryUpdate.buildNextWft, hrest]

/-! ## What the sequences are -/

/-- The task at `t` completed and accepted an update with the sequencing id `s`. -/
def AcceptsUpdate (l : List HistoryEvent) (t : Nat) (s : Int) : Prop :=
  l[t]?.any (·.isWftStarted) = true ∧ l[t + 1]?.any (·.eventType = .workflowTaskCompleted) = true ∧
    l[t + 2]?.bind (·.acceptedSequencingId) = some s

/-- A started task with an id below `s`. -/
def StartBelow (l : List HistoryEvent) (s : Int) (r : Nat) : Prop :=
  unskippedStart l r = true ∧ l[r]?.any (·.eventId < s) = true

/-- The last such task between `j` and `t` is at `r`. -/
structure SequencedAt (l : List HistoryEvent) (j t : Nat) (s : Int) (r : Nat) : Prop where
  le : j ≤ r
  le_end : r ≤ t
  start : StartBelow l s r
  last : ∀ m, r < m → m ≤ t → ¬ StartBelow l s m

/-- The task at `k` completed, and the next was scheduled at once. -/
def CompletedIdle (l : List HistoryEvent) (k : Nat) : Prop :=
  l[k + 1]?.any (·.eventType = .workflowTaskCompleted) = true ∧
    l[k + 2]?.any (·.eventType = .workflowTaskScheduled) = true

/-- **The sequences of a history.** -/
structure Chunked (history : List HistoryEvent) (seqs : List (List HistoryEvent)) : Prop where
  /-- They make up the history, or all of it but its last event. -/
  concat : ∃ trailing, seqs.flatten ++ trailing = history ∧ trailing.length ≤ 1
  /-- All but the last end in a started task or a final event. -/
  ends : ∀ c ∈ seqs.dropLast, c.getLast?.any (·.endsSequence) = true
  /-- None ends in a task that failed or timed out, or that the workflow did not outlive. -/
  unskipped : ∀ k, IsBoundary seqs (k + 1) → history[k]?.any (·.isWftStarted) = true →
    history[k + 1]?.any (·.abandonsWft) = false
  /-- None that has no command ends in a heartbeat, but for an update that was sequenced there and accepted later. -/
  heartbeat : ∀ j k, NextBoundary seqs j (k + 1) → history[k]?.any (·.isWftStarted) = true →
    CompletedIdle history k → (∀ m, j ≤ m → m ≤ k → history[m]?.any (·.isCommandEvent) = false) →
    ∃ t s, k < t ∧ AcceptsUpdate history t s ∧ SequencedAt history j t s k
  /-- One ends in the task that accepted an update, and one ends where the update was sequenced: in the last task
  below its sequencing id after a boundary `j`, with no other boundary from there to the accepting task. -/
  accepted : ∀ t s, AcceptsUpdate history t s →
    history[t + 2]?.any (·.eventType = .workflowExecutionUpdateAccepted) = true →
    IsBoundary seqs (t + 1) ∧ ∀ j r, IsBoundary seqs j → SequencedAt history j t s r →
      (∀ m, IsBoundary seqs m → j < m → m ≤ t → m = r + 1) → IsBoundary seqs (r + 1)

/-! ## Positions in the rest of a history -/

section

variable {l : List HistoryEvent} {j k t r : Nat} {s : Int}

theorem acceptsUpdate_drop : AcceptsUpdate (l.drop j) t s ↔ AcceptsUpdate l (j + t) s := by
  simp only [AcceptsUpdate, List.getElem?_drop, Nat.add_assoc]

theorem startBelow_drop : StartBelow (l.drop j) s k ↔ StartBelow l s (j + k) := by
  simp only [StartBelow, unskippedStart, List.getElem?_drop, Nat.add_assoc]

theorem completedIdle_drop : CompletedIdle (l.drop j) k ↔ CompletedIdle l (j + k) := by
  simp only [CompletedIdle, List.getElem?_drop, Nat.add_assoc]

theorem sequencedStart_succ {n : Nat} :
    (StartBelow l s n ∧ sequencedStart l s (n + 1) = some n) ∨
      (¬ StartBelow l s n ∧ sequencedStart l s (n + 1) = sequencedStart l s n) := by
  rw [StartBelow, ← Bool.and_eq_true]
  by_cases h : (unskippedStart l n && l[n]?.any (fun e => e.eventId < s)) = true
  · exact Or.inl ⟨h, if_pos h⟩
  · exact Or.inr ⟨h, if_neg h⟩

theorem sequencedStart_eq_some_iff : ∀ {n : Nat},
    sequencedStart l s n = some r ↔ r < n ∧ StartBelow l s r ∧ ∀ m, r < m → m < n → ¬ StartBelow l s m
  | 0 => ⟨nofun, fun h => absurd h.1 (Nat.not_lt_zero r)⟩
  | n + 1 => by
    obtain ⟨hn, hs⟩ | ⟨hn, hs⟩ := sequencedStart_succ (l := l) (s := s) (n := n)
    · rw [hs, Option.some.injEq]
      constructor
      · rintro rfl
        exact ⟨Nat.lt_succ_self n, hn, fun m h1 h2 => by omega⟩
      · rintro ⟨h1, -, h3⟩
        by_contra hne
        exact h3 n (by omega) (Nat.lt_succ_self n) hn
    · rw [hs, sequencedStart_eq_some_iff]
      constructor
      · rintro ⟨h1, h2, h3⟩
        refine ⟨by omega, h2, fun m hm hmn => ?_⟩
        rcases Nat.lt_succ_iff_lt_or_eq.mp hmn with hmn | rfl
        · exact h3 m hm hmn
        · exact hn
      · rintro ⟨h1, h2, h3⟩
        refine ⟨?_, h2, fun m hm hmn => h3 m hm (by omega)⟩
        rcases Nat.lt_succ_iff_lt_or_eq.mp h1 with h1 | rfl
        · exact h1
        · exact absurd h2 hn

/-- Where an update was sequenced, in the rest of a history. -/
theorem sequencedStart_drop_iff (hj : j ≤ t) :
    sequencedStart (l.drop j) s (t - j + 1) = some (r - j) ∧ j ≤ r ↔ SequencedAt l j t s r := by
  rw [sequencedStart_eq_some_iff]
  constructor
  · rintro ⟨⟨h1, h2, h3⟩, h4⟩
    have hr : j + (r - j) = r := by omega
    refine ⟨h4, by omega, by rw [← hr]; exact startBelow_drop.mp h2, fun m hm hmt hb => ?_⟩
    have hm' : j + (m - j) = m := by omega
    exact h3 (m - j) (by omega) (by omega) (startBelow_drop.mpr (by rwa [hm']))
  · intro h
    have h1 := h.le
    have h2 := h.le_end
    have hr : j + (r - j) = r := by omega
    refine ⟨⟨by omega, startBelow_drop.mpr (by rw [hr]; exact h.start), fun m hm hmt hb => ?_⟩, h1⟩
    exact h.last (j + m) (by omega) (by omega) (startBelow_drop.mp hb)

end

/-! ## Where a sequence ends -/

section

variable {l : List HistoryEvent} {n i : Nat}

theorem not_final_of_started {e : HistoryEvent} (h : e.isWftStarted = true) : e.isFinalWfExecutionEvent = false := by
  have h : e.eventType = .workflowTaskStarted := by simpa [HistoryEvent.isWftStarted] using h
  simp [HistoryEvent.isFinalWfExecutionEvent, h]

theorem concludedEnd_cases {nextNext : HistoryEvent} (hst : l[n]?.any (·.isWftStarted) = true)
    (hcomp : l[n + 1]?.any (·.eventType = .workflowTaskCompleted) = true) (hnn : l[n + 2]? = some nextNext)
    (h : concludedEnd l n nextNext = i) :
    i = n ∨ ∃ s, AcceptsUpdate l n s ∧ sequencedStart l s (n + 1) = some i := by
  unfold concludedEnd at h
  cases hsid : nextNext.acceptedSequencingId with
  | none =>
    rw [hsid] at h
    exact Or.inl h.symm
  | some s =>
    simp only [hsid] at h
    cases hq : sequencedStart l s (n + 1) with
    | none =>
      rw [hq] at h
      exact Or.inl h.symm
    | some r =>
      rw [hq] at h
      refine Or.inr ⟨s, ⟨hst, hcomp, by rw [hnn]; exact hsid⟩, by rw [hq]; exact congrArg some h⟩

/-- A sequence ends in a final event, a task that did not fail and is no heartbeat, or where an update that this task
accepted was sequenced. -/
theorem seqEndAt_cases (h : seqEndAt l n = some i) :
    (i = n ∧ l[n]?.any (·.isFinalWfExecutionEvent) = true) ∨
      (unskippedStart l n = true ∧
        (CompletedIdle l n → (l.take (n + 1)).any (·.isCommandEvent) = true) ∧
        (i = n ∨ ∃ s, AcceptsUpdate l n s ∧ sequencedStart l s (n + 1) = some i)) := by
  have hopened : (if (l.take (n + 1)).any (·.opensSequence) then some n else none) = some i → i = n := by
    intro h
    split at h
    · exact (Option.some.inj h).symm
    · cases h
  unfold seqEndAt at h
  cases he : l[n]? with
  | none => simp [he] at h
  | some e =>
    simp only [he] at h
    by_cases hfin : e.isFinalWfExecutionEvent
    · rw [if_pos hfin] at h
      exact Or.inl ⟨(Option.some.inj h).symm, hfin⟩
    rw [if_neg hfin] at h
    by_cases hst : e.isWftStarted
    swap
    · rw [if_neg hst] at h
      cases h
    rw [if_pos hst] at h
    have hst' : l[n]?.any (·.isWftStarted) = true := by rw [he]; exact hst
    right
    cases hnext : l[n + 1]? with
    | none =>
      rw [hnext] at h
      refine ⟨by simp [unskippedStart, he, hst, hnext], fun hi => ?_, Or.inl (hopened h)⟩
      simp [CompletedIdle, hnext] at hi
    | some next =>
      simp only [hnext] at h
      by_cases hab : next.abandonsWft
      · rw [if_pos hab] at h
        cases h
      rw [if_neg hab] at h
      refine ⟨by simp [unskippedStart, he, hst, hnext, hab], ?_⟩
      by_cases hcomp : next.eventType = .workflowTaskCompleted
      swap
      · rw [if_neg hcomp] at h
        refine ⟨fun hi => ?_, Or.inl (hopened h)⟩
        simp [CompletedIdle, hnext, hcomp] at hi
      rw [if_pos hcomp] at h
      have hcomp' : l[n + 1]?.any (·.eventType = .workflowTaskCompleted) = true := by simp [hnext, hcomp]
      cases hnn : l[n + 2]? with
      | none =>
        rw [hnn] at h
        refine ⟨fun hi => ?_, Or.inl (hopened h)⟩
        simp [CompletedIdle, hnn] at hi
      | some nextNext =>
        simp only [hnn] at h
        split at h
        · cases h
        · rename_i hidle
          refine ⟨fun hi => ?_, concludedEnd_cases hst' hcomp' hnn (Option.some.inj h)⟩
          have hsched : nextNext.eventType = .workflowTaskScheduled := by simpa [CompletedIdle, hnn] using hi.2
          simpa [hsched] using hidle

/-- A task that accepts an update ends a sequence. -/
theorem seqEndAt_accepts {s : Int} (h : AcceptsUpdate l n s)
    (hty : l[n + 2]?.any (·.eventType = .workflowExecutionUpdateAccepted) = true) :
    seqEndAt l n = some ((sequencedStart l s (n + 1)).getD n) := by
  obtain ⟨h1, h2, h3⟩ := h
  obtain ⟨e, he, hst⟩ := Option.any_eq_true _ _ |>.mp h1
  obtain ⟨next, hnext, hcomp⟩ := Option.any_eq_true _ _ |>.mp h2
  obtain ⟨nn, hnn, hacc⟩ := Option.any_eq_true _ _ |>.mp hty
  have hcomp : next.eventType = .workflowTaskCompleted := of_decide_eq_true hcomp
  have hacc : nn.eventType = .workflowExecutionUpdateAccepted := of_decide_eq_true hacc
  rw [hnn] at h3
  have hsid : nn.acceptedSequencingId = some s := h3
  unfold seqEndAt
  simp only [he, hnext, hnn, not_final_of_started hst, hst, HistoryEvent.abandonsWft, hcomp, hacc, concludedEnd,
    hsid]
  simp

end

/-! ## The sequences of a history -/

section

variable {l : List HistoryEvent}

theorem seqEnd_unskipped {i : Nat} (h : seqEnd l = some i) (hst : l[i]?.any (·.isWftStarted) = true) :
    l[i + 1]?.any (·.abandonsWft) = false := by
  have hun : unskippedStart l i = true → l[i + 1]?.any (·.abandonsWft) = false := by
    intro h
    simpa using (Bool.and_eq_true_iff.mp h).2
  obtain ⟨n, -, h⟩ := List.exists_of_findSome?_eq_some h
  obtain ⟨rfl, hfin⟩ | ⟨hstart, -, rfl | ⟨s, -, hseq⟩⟩ := seqEndAt_cases h
  · obtain ⟨e, he, hst⟩ := Option.any_eq_true _ _ |>.mp hst
    rw [he] at hfin
    cases (not_final_of_started hst).symm.trans hfin
  · exact hun hstart
  · exact hun (sequencedStart_le hseq).2

theorem chunks_seqEnd_ends (l : List HistoryEvent) :
    ∀ c ∈ (chunks seqEnd l).1, c.getLast?.any (·.endsSequence) = true := by
  induction l using chunk_induction seqEnd_lt with
  | none l hn => simp [chunks_of_none hn]
  | some l i hs ih =>
    rw [chunks_of_some seqEnd_lt hs]
    intro c hc
    rcases List.mem_cons.mp hc with rfl | hc
    · obtain ⟨hi, hend⟩ := seqEnd_some hs
      rw [List.getLast?_take, Nat.add_sub_cancel, List.getElem?_eq_getElem hi]
      rwa [List.getElem?_eq_getElem hi] at hend
    · exact ih c hc

/-- Sequences end in tasks and final events. -/
theorem whole_ends : ∀ c ∈ (whole seqEnd l).dropLast, c.getLast?.any (·.endsSequence) = true := by
  intro c hc
  refine chunks_seqEnd_ends l c ?_
  unfold whole at hc
  split at hc
  · rw [List.append_nil] at hc
    exact List.dropLast_subset _ hc
  · rwa [List.dropLast_concat] at hc

theorem whole_concat : ∃ trailing, (whole seqEnd l).flatten ++ trailing = l ∧ trailing.length ≤ 1 := by
  have hl := chunks_flatten seqEnd_lt l
  unfold whole
  split
  · rename_i h1
    exact ⟨(chunks seqEnd l).2, by rw [List.append_nil]; exact hl, h1⟩
  · exact ⟨[], by simpa using hl, Nat.zero_le 1⟩

/-- No sequence ends in a task that failed. -/
theorem whole_unskipped {k : Nat} (h : IsBoundary (whole seqEnd l) (k + 1))
    (hst : l[k]?.any (·.isWftStarted) = true) : l[k + 1]?.any (·.abandonsWft) = false := by
  obtain ⟨j, hn⟩ := exists_nextBoundary h
  have hjk := hn.lt
  rcases hn.cut_drop seqEnd_lt with hs | hlen
  · have hk : j + (k - j) = k := by omega
    have hun := seqEnd_unskipped hs
    rw [Nat.add_sub_cancel, List.getElem?_drop, List.getElem?_drop, ← Nat.add_assoc, hk] at hun
    exact hun hst
  · rw [List.getElem?_eq_none hlen]
    rfl

/-- None ends in a heartbeat without commands. -/
theorem whole_heartbeat {j k : Nat} (h : NextBoundary (whole seqEnd l) j (k + 1))
    (hst : l[k]?.any (·.isWftStarted) = true) (hidle : CompletedIdle l k)
    (hcmd : ∀ m, j ≤ m → m ≤ k → l[m]?.any (·.isCommandEvent) = false) :
    ∃ t s, k < t ∧ AcceptsUpdate l t s ∧ SequencedAt l j t s k := by
  have hjk := Nat.lt_succ_iff.mp h.lt
  have hk : j + (k - j) = k := by omega
  rcases h.cut_drop seqEnd_lt with hs | hlen
  swap
  · have := hidle.1
    rw [List.getElem?_eq_none hlen] at this
    cases this
  rw [Nat.add_sub_cancel] at hs
  obtain ⟨n, -, hn⟩ := List.exists_of_findSome?_eq_some hs
  obtain ⟨hkn, hfin⟩ | ⟨-, hbusy, hend⟩ := seqEndAt_cases hn
  · rw [← hkn, List.getElem?_drop, hk] at hfin
    obtain ⟨e, he, hst⟩ := Option.any_eq_true _ _ |>.mp hst
    rw [he] at hfin
    cases (not_final_of_started hst).symm.trans hfin
  -- the heartbeat itself does not conclude the sequence
  have hne : k - j ≠ n := by
    rintro rfl
    have hany := hbusy (completedIdle_drop.mpr (by rwa [hk]))
    obtain ⟨e, he, hc⟩ := List.any_eq_true.mp hany
    obtain ⟨m, hm, he⟩ := List.mem_take_iff_getElem.mp he
    have hlt : m < (l.drop j).length := by omega
    have hm' := hcmd (j + m) (by omega) (by omega)
    rw [← List.getElem?_drop, List.getElem?_eq_getElem hlt, he] at hm'
    cases hc.symm.trans hm'
  obtain ⟨s, hacc, hseq⟩ := hend.resolve_left hne
  have hlt := (sequencedStart_le hseq).1
  refine ⟨j + n, s, by omega, acceptsUpdate_drop.mp hacc, ?_⟩
  exact (sequencedStart_drop_iff (Nat.le_add_right j n)).mp ⟨by rwa [Nat.add_sub_cancel_left], hjk⟩

section

variable {t : Nat} {s : Int} (hacc : AcceptsUpdate l t s)
  (hty : l[t + 2]?.any (·.eventType = .workflowExecutionUpdateAccepted) = true)
include hacc hty

theorem seqEndAt_drop_accepts {j : Nat} (hj : j ≤ t) :
    seqEndAt (l.drop j) (t - j) = some ((sequencedStart (l.drop j) s (t - j + 1)).getD (t - j)) := by
  have ht : j + (t - j) = t := by omega
  refine seqEndAt_accepts (acceptsUpdate_drop.mpr (by rwa [ht])) ?_
  rwa [List.getElem?_drop, ← Nat.add_assoc, ht]

/-- One ends in the task that accepted an update. -/
theorem whole_accepted : IsBoundary (whole seqEnd l) (t + 1) := by
  obtain ⟨j, hjt, hj, hlast⟩ := exists_last_boundary (whole seqEnd l) t
  obtain ⟨n, i, hnt, hn, hs⟩ := exists_seqEnd (seqEndAt_drop_accepts hacc hty hjt)
  have hin := (seqEndAt_some hn).1
  have hb := hj.add_of_cut seqEnd_lt hs
  have := hlast _ hb (by omega)
  have heq : j + (i + 1) = t + 1 := by omega
  rwa [heq] at hb

theorem whole_sequenced {j r : Nat} (hj : IsBoundary (whole seqEnd l) j) (hr : SequencedAt l j t s r)
    (hbetween : ∀ m, IsBoundary (whole seqEnd l) m → j < m → m ≤ t → m = r + 1) :
    IsBoundary (whole seqEnd l) (r + 1) := by
  have hjr := hr.le
  have hrt := hr.le_end
  have hjt : j ≤ t := by omega
  have hat := seqEndAt_drop_accepts hacc hty hjt
  rw [((sequencedStart_drop_iff hjt).mpr hr).1] at hat
  obtain ⟨n, i, hnt, hn, hs⟩ := exists_seqEnd hat
  have hin := (seqEndAt_some hn).1
  have hb := hj.add_of_cut seqEnd_lt hs
  by_cases hit : j + (i + 1) ≤ t
  · rw [← hbetween _ hb (by omega) hit]
    exact hb
  · -- the sequence that starts at `j` is concluded by the accepting task
    have hnt : n = t - j := by omega
    rw [hnt, hat] at hn
    have hir : r - j = i := Option.some.inj hn
    have heq : j + (i + 1) = r + 1 := by omega
    rwa [heq] at hb

end

/-- **All sequences of a contiguous history can be taken.** -/
theorem takeAll_chunked (u : HistoryUpdate) (hc : Contig 0 u.events) (hlast : u.hasLastWft = true) :
    ∃ seqs, takeAll (u.events.length + 1) u 0 = (seqs, .replayOver) ∧ Chunked u.events seqs :=
  ⟨whole seqEnd u.events, takeAll_eq u.events rfl hc (Int.le_refl 0) hlast (Nat.lt_succ_self _),
    { concat := whole_concat
      ends := whole_ends
      unskipped := fun _ => whole_unskipped
      heartbeat := fun _ _ => whole_heartbeat
      accepted := fun _ _ hacc hty => ⟨whole_accepted hacc hty, fun _ _ => whole_sequenced hacc hty⟩ }⟩

end

/-- An update is sequenced at a heartbeat, and accepted by the next task. -/
def updatedHistory : List HistoryEvent :=
  [⟨1, .workflowExecutionStarted, none⟩, ⟨2, .workflowTaskScheduled, none⟩, ⟨3, .workflowTaskStarted, none⟩,
    ⟨4, .workflowTaskCompleted, none⟩, ⟨5, .workflowTaskScheduled, none⟩, ⟨6, .workflowTaskStarted, none⟩,
    ⟨7, .workflowTaskCompleted, none⟩,
    ⟨8, .workflowExecutionUpdateAccepted, some (.workflowExecutionUpdateAccepted 5)⟩,
    ⟨9, .workflowTaskScheduled, none⟩, ⟨10, .workflowTaskStarted, none⟩]

theorem updatedHistory_chunked :
    ∃ seqs, takeAll 11 ⟨updatedHistory, 0, 10, true, 0⟩ 0 = (seqs, .replayOver) ∧ Chunked updatedHistory seqs :=
  takeAll_chunked ⟨updatedHistory, 0, 10, true, 0⟩ (by decide) rfl

-- both the heartbeat and the accepting task end a sequence
example : (takeAll 11 ⟨updatedHistory, 0, 10, true, 0⟩ 0).1.map (·.map (·.eventId)) =
    [[1, 2, 3], [4, 5, 6], [7, 8, 9, 10]] := by decide

end SdkCore
