import SdkCore.Lib.Chunks
import SdkCore.History.Update

/-!
# Where workflow task sequences end

`seqEnd` states the rule of sequences without a loop, and the scan follows it (`findEndIndexOfNextWftSeq_append`). The
rule looks ahead two events, but only past a completed task (`localAt_seqEnd`).
-/

namespace SdkCore

open Chunks

/-- A command event, or the start of the execution. -/
def HistoryEvent.opensSequence (e : HistoryEvent) : Bool :=
  e.isCommandEvent || e.eventType = .workflowExecutionStarted

/-- The started task at `k` did not fail. -/
def unskippedStart (l : List HistoryEvent) (k : Nat) : Bool :=
  l[k]?.any (·.isWftStarted) && !l[k + 1]?.any (·.abandonsWft)

/-- The last such task before `n` with an id below `sid`. -/
def sequencedStart (l : List HistoryEvent) (sid : Int) : Nat → Option Nat
  | 0 => none
  | n + 1 =>
    if unskippedStart l n && l[n]?.any (fun e => e.eventId < sid) then some n else sequencedStart l sid n

/-- The end of a sequence concluded at `n`. -/
def concludedEnd (l : List HistoryEvent) (n : Nat) (nextNext : HistoryEvent) : Nat :=
  match nextNext.acceptedSequencingId with
  | some sid => (sequencedStart l sid (n + 1)).getD n
  | none => n

/-- Whether a sequence is concluded at `n`, and where it ends. -/
def seqEndAt (l : List HistoryEvent) (n : Nat) : Option Nat :=
  let ifOpened := if (l.take (n + 1)).any (·.opensSequence) then some n else none
  match l[n]? with
  | none => none
  | some e =>
    if e.isFinalWfExecutionEvent then some n
    else if e.isWftStarted then
      match l[n + 1]? with
      | none => ifOpened
      | some next =>
        if next.abandonsWft then none
        else if next.eventType = .workflowTaskCompleted then
          match l[n + 2]? with
          | none => ifOpened
          | some nextNext =>
            if !(l.take (n + 1)).any (·.isCommandEvent) && nextNext.eventType = .workflowTaskScheduled then none
            else some (concludedEnd l n nextNext)
        else ifOpened
    else none

/-- The last position of the sequence that starts with `l`. -/
def seqEnd (l : List HistoryEvent) : Option Nat := (List.range l.length).findSome? (seqEndAt l)

def seqEndIndex (skipped : Nat) (l : List HistoryEvent) : NextWFTSeqEndIndex :=
  match seqEnd l with
  | some i => .complete (skipped + i)
  | none => .incomplete (skipped + l.length - 1)

variable {i n : Nat} {l : List HistoryEvent} {fromEventId : Int} {e : HistoryEvent}
  {skipped b k j : Nat} {sid : Int} {l' : List HistoryEvent}

theorem seqEndIndex_of_some (h : seqEnd l = some i) : seqEndIndex skipped l = .complete (skipped + i) := by
  simp [seqEndIndex, h]

theorem seqEndIndex_of_none (h : seqEnd l = none) : seqEndIndex skipped l = .incomplete (skipped + l.length - 1) := by
  simp [seqEndIndex, h]

/-! ## The scan follows the rule -/

/-- The tasks that the scan remembers. -/
def startsUpTo (b : Nat) (l : List HistoryEvent) : Nat → List (Int × Nat)
  | 0 => []
  | n + 1 =>
    match l[n]? with
    | some e => if unskippedStart l n then (e.eventId, b + n) :: startsUpTo b l n else startsUpTo b l n
    | none => startsUpTo b l n

/-- The variables of the scan after `n` events. -/
def scanAfter (b : Nat) (l : List HistoryEvent) (n : Nat) : SeqScan where
  sawCommandOrStarted := (l.take n).any (·.opensSequence)
  sawCommand := (l.take n).any (·.isCommandEvent)
  wftStartedEventIdToIndex := startsUpTo b l n

theorem startsUpTo_find (b : Nat) (l : List HistoryEvent) (sid : Int) : ∀ n,
    ((startsUpTo b l n).find? (fun p => p.1 < sid)).map (·.2) = (sequencedStart l sid n).map (b + ·)
  | 0 => rfl
  | n + 1 => by
    have ih := startsUpTo_find b l sid n
    unfold startsUpTo sequencedStart
    cases hn : l[n]? with
    | none => simpa [unskippedStart, hn] using ih
    | some e =>
      by_cases hu : unskippedStart l n
      · by_cases hs : e.eventId < sid <;> simp [hu, hs, ih]
      · simpa [hu] using ih

section

variable {b n : Nat} {l : List HistoryEvent} {e : HistoryEvent} (he : l[n]? = some e)
include he

theorem take_succ_of_getElem? : l.take (n + 1) = l.take n ++ [e] := by
  rw [List.take_add_one, he]; rfl

theorem see_sawCommand : ((scanAfter b l n).see e).sawCommand = (l.take (n + 1)).any (·.isCommandEvent) := by
  simp [scanAfter, SeqScan.see, take_succ_of_getElem? he]

theorem see_sawCommandOrStarted :
    ((scanAfter b l n).see e).sawCommandOrStarted = (l.take (n + 1)).any (·.opensSequence) := by
  simp [scanAfter, SeqScan.see, take_succ_of_getElem? he, HistoryEvent.opensSequence, Bool.or_assoc]

theorem see_eq_scanAfter (hu : unskippedStart l n = false) :
    (scanAfter b l n).see e = scanAfter b l (n + 1) := by
  rw [SeqScan.mk.injEq]
  refine ⟨see_sawCommandOrStarted he, see_sawCommand he, ?_⟩
  simp [scanAfter, SeqScan.see, startsUpTo, he, hu]

theorem push_eq_scanAfter (hu : unskippedStart l n = true) :
    ((scanAfter b l n).see e).push e (b + n) = scanAfter b l (n + 1) := by
  rw [SeqScan.mk.injEq]
  refine ⟨see_sawCommandOrStarted he, see_sawCommand he, ?_⟩
  simp [scanAfter, SeqScan.see, SeqScan.push, startsUpTo, he, hu]

end

/-- The end found by the scan. -/
theorem concludeAt_scanAfter (b n : Nat) (l : List HistoryEvent) (nn : HistoryEvent) :
    (scanAfter b l (n + 1)).concludeAt nn (b + n) = b + concludedEnd l n nn := by
  unfold SeqScan.concludeAt concludedEnd
  cases nn.acceptedSequencingId with
  | none => rfl
  | some sid =>
    have h := startsUpTo_find b l sid (n + 1)
    simp only [scanAfter]
    cases hf : (startsUpTo b l (n + 1)).find? (fun p => p.1 < sid) <;>
      cases hs : sequencedStart l sid (n + 1) <;> simp_all

theorem scanStep_scanAfter (hasLastWft : Bool) (he : l[n]? = some e) (hfrom : fromEventId < e.eventId) :
    scanStep fromEventId hasLastWft (b + n) (scanAfter b l n) e l[n + 1]? l[n + 2]? =
      match seqEndAt l n with
      | some i => .finish (b + i)
      | none => .more (scanAfter b l (n + 1)) := by
  have hnot : ¬ e.eventId ≤ fromEventId := by omega
  simp only [scanStep, seqEndAt, hnot, he, if_false, see_sawCommand he, see_sawCommandOrStarted he]
  by_cases hfin : e.isFinalWfExecutionEvent
  · simp [hfin]
  by_cases hst : e.isWftStarted
  swap
  · simp [hfin, hst, see_eq_scanAfter he (by simp [unskippedStart, he, hst])]
  cases hnext : l[n + 1]? with
  | none =>
    rw [push_eq_scanAfter he (by simp [unskippedStart, he, hst, hnext])]
    cases (l.take (n + 1)).any (·.opensSequence) <;> simp [hfin, hst]
  | some next =>
    by_cases hab : next.abandonsWft
    · simp [hfin, hst, hab, see_eq_scanAfter he (by simp [unskippedStart, hnext, hab])]
    rw [push_eq_scanAfter he (by simp [unskippedStart, he, hst, hnext, hab])]
    simp only [hfin, hst, hab, Bool.false_eq_true, if_false, if_true]
    by_cases hcomp : next.eventType = .workflowTaskCompleted
    · rw [if_pos hcomp]
      cases hnn : l[n + 2]? with
      | none => cases (l.take (n + 1)).any (·.opensSequence) <;> simp
      | some nn =>
        simp only [concludeAt_scanAfter]
        split <;> rfl
    · rw [if_neg hcomp]
      split <;> rfl

theorem scan_scanAfter (hasLastWft : Bool) (hfrom : ∀ e ∈ l, fromEventId < e.eventId) :
    ∀ (m n : Nat), n + m = l.length →
    scan fromEventId hasLastWft (b + n) (scanAfter b l n) (l.drop n) =
      match (List.range' n m).findSome? (seqEndAt l) with
      | some i => .complete (b + i)
      | none => .incomplete (b + l.length - 1)
  | 0, n, hn => by
    rw [List.drop_eq_nil_of_le (by omega)]
    simp [scan, ← hn]
  | m + 1, n, hn => by
    have hlt : n < l.length := by omega
    have he : l[n]? = some l[n] := List.getElem?_eq_getElem hlt
    rw [List.drop_eq_getElem_cons hlt, List.range'_succ, List.findSome?_cons, scan, List.getElem?_drop,
      List.getElem?_drop, scanStep_scanAfter hasLastWft he (hfrom _ (List.getElem_mem hlt))]
    cases seqEndAt l n with
    | some i => rfl
    | none => exact scan_scanAfter hasLastWft hfrom m (n + 1) (by omega)

theorem scan_skip (hasLastWft : Bool) (s : SeqScan) :
    ∀ (ix : Nat) {skipped l : List HistoryEvent}, (∀ e ∈ skipped, e.eventId ≤ fromEventId) →
    scan fromEventId hasLastWft ix s (skipped ++ l) = scan fromEventId hasLastWft (ix + skipped.length) s l
  | _, [], _, _ => rfl
  | ix, e :: skipped, l, h => by
    have he : e.eventId ≤ fromEventId := h e List.mem_cons_self
    rw [List.cons_append, scan, scanStep, if_pos he]
    simp only
    rw [scan_skip hasLastWft s (ix + 1) (fun x hx => h x (List.mem_cons_of_mem _ hx)), List.length_cons]
    congr 1; omega

/-- **The scan follows the rule**, whatever it skips. -/
theorem findEndIndexOfNextWftSeq_append (hasLastWft : Bool) (skipped l : List HistoryEvent)
    (hs : ∀ e ∈ skipped, e.eventId ≤ fromEventId) (hl : ∀ e ∈ l, fromEventId < e.eventId) :
    findEndIndexOfNextWftSeq (skipped ++ l) fromEventId hasLastWft = seqEndIndex skipped.length l := by
  unfold findEndIndexOfNextWftSeq seqEndIndex seqEnd
  rw [scan_skip hasLastWft _ 0 hs, List.range_eq_range']
  have h := scan_scanAfter (b := skipped.length) hasLastWft hl l.length 0 (by omega)
  rw [Nat.zero_add]
  exact h

/-! ## What the rule looks at -/

theorem sequencedStart_le : ∀ {n k : Nat}, sequencedStart l sid n = some k → k < n ∧ unskippedStart l k = true
  | 0, _, h => by cases h
  | n + 1, k, h => by
    rw [sequencedStart] at h
    split at h
    · rename_i hu
      cases h
      exact ⟨Nat.lt_succ_self n, (Bool.and_eq_true_iff.mp hu).1⟩
    · have ih := sequencedStart_le h
      exact ⟨by omega, ih.2⟩

/-- A started task or a final event. -/
def HistoryEvent.endsSequence (e : HistoryEvent) : Bool := e.isWftStarted || e.isFinalWfExecutionEvent

theorem any_endsSequence_of_unskippedStart (h : unskippedStart l k = true) : l[k]?.any (·.endsSequence) = true := by
  rw [unskippedStart, Bool.and_eq_true_iff] at h
  cases hk : l[k]? with
  | none => simp [hk] at h
  | some e => simpa [hk, HistoryEvent.endsSequence] using Or.inl (by simpa [hk] using h.1)

theorem seqEndAt_some (h : seqEndAt l n = some i) : i ≤ n ∧ l[i]?.any (·.endsSequence) = true := by
  unfold seqEndAt at h
  cases he : l[n]? with
  | none => simp [he] at h
  | some e =>
    simp only [he] at h
    have hend : e.endsSequence = true → i = n → i ≤ n ∧ l[i]?.any (·.endsSequence) = true := by
      rintro h1 rfl; exact ⟨Nat.le_refl _, by simpa [he] using h1⟩
    by_cases hfin : e.isFinalWfExecutionEvent
    · rw [if_pos hfin] at h
      exact hend (by simp [HistoryEvent.endsSequence, hfin]) (Option.some.inj h).symm
    rw [if_neg hfin] at h
    by_cases hst : e.isWftStarted
    swap
    · rw [if_neg hst] at h; cases h
    have hst' : e.endsSequence = true := by simp [HistoryEvent.endsSequence, hst]
    rw [if_pos hst] at h
    have hopened : (if (l.take (n + 1)).any (·.opensSequence) then some n else none) = some i → i = n := by
      intro h; split at h
      · exact (Option.some.inj h).symm
      · cases h
    split at h
    · exact hend hst' (hopened h)
    · split at h
      · cases h
      · split at h
        · split at h
          · exact hend hst' (hopened h)
          · split at h
            · cases h
            · rename_i nn _ _
              -- the end may lie at an earlier task that was not skipped
              have hi := Option.some.inj h
              unfold concludedEnd at hi
              split at hi
              · rename_i sid _
                cases hs : sequencedStart l sid (n + 1) with
                | none => exact hend hst' (by rw [hs] at hi; exact hi.symm)
                | some k =>
                  rw [hs] at hi
                  have hk := sequencedStart_le hs
                  have hik : i = k := hi.symm
                  subst hik
                  exact ⟨by omega, any_endsSequence_of_unskippedStart hk.2⟩
              · exact hend hst' hi.symm
        · exact hend hst' (hopened h)

theorem seqEnd_some (h : seqEnd l = some i) : i < l.length ∧ l[i]?.any (·.endsSequence) = true := by
  obtain ⟨n, hn, h⟩ := List.exists_of_findSome?_eq_some h
  have := seqEndAt_some h
  exact ⟨by have := List.mem_range.mp hn; omega, this.2⟩

theorem seqEnd_lt (l : List HistoryEvent) (i : Nat) (h : seqEnd l = some i) : i < l.length := (seqEnd_some h).1

theorem exists_seqEnd (hj : seqEndAt l j = some k) : ∃ n i, n ≤ j ∧ seqEndAt l n = some i ∧ seqEnd l = some i := by
  have hlen : j < l.length := by
    by_contra hlt
    rw [seqEndAt, List.getElem?_eq_none (Nat.le_of_not_lt hlt)] at hj
    cases hj
  cases hs : seqEnd l with
  | none =>
    rw [seqEnd, List.findSome?_eq_none_iff] at hs
    cases hj.symm.trans (hs j (List.mem_range.mpr hlen))
  | some i =>
    obtain ⟨l₁, n, l₂, hsplit, hn, hbefore⟩ := List.findSome?_eq_some_iff.mp hs
    have hsorted := List.pairwise_lt_range (n := l.length)
    rw [hsplit, List.pairwise_append] at hsorted
    refine ⟨n, i, ?_, hn, rfl⟩
    -- the rule stops at `n`, and it would have stopped at `j` before that
    have hmem : j ∈ l₁ ++ n :: l₂ := hsplit ▸ List.mem_range.mpr hlen
    rcases List.mem_append.mp hmem with h | h
    · cases hj.symm.trans (hbefore j h)
    · rcases List.mem_cons.mp h with rfl | h
      · exact Nat.le_refl _
      · exact Nat.le_of_lt ((List.pairwise_cons.mp hsorted.2.1).1 j h)

theorem seqEnd_le_of_final (he : l[j]? = some e) (hf : e.isFinalWfExecutionEvent = true) :
    ∃ i, seqEnd l = some i ∧ i ≤ j := by
  have hj : seqEndAt l j = some j := by simp [seqEndAt, he, hf]
  obtain ⟨n, i, hnj, hn, hs⟩ := exists_seqEnd hj
  exact ⟨i, hs, Nat.le_trans (seqEndAt_some hn).1 hnj⟩

theorem sequencedStart_congr : ∀ {n : Nat}, (∀ k ≤ n, l[k]? = l'[k]?) → sequencedStart l sid n = sequencedStart l' sid n
  | 0, _ => rfl
  | n + 1, h => by
    rw [sequencedStart, sequencedStart, unskippedStart, unskippedStart, h n (by omega), h (n + 1) (Nat.le_refl _),
      sequencedStart_congr (fun k hk => h k (by omega))]

/-- The events that the rule looks at. -/
theorem seqEndAt_congr (h : ∀ k ≤ n + 1, l[k]? = l'[k]?)
    (hc : l[n + 1]?.any (·.eventType = .workflowTaskCompleted) = true → l[n + 2]? = l'[n + 2]?) :
    seqEndAt l n = seqEndAt l' n := by
  have ht : l.take (n + 1) = l'.take (n + 1) := by
    apply List.ext_getElem?
    intro k
    simp only [List.getElem?_take]
    split
    · exact h k (by omega)
    · rfl
  have hend : ∀ nn, concludedEnd l n nn = concludedEnd l' n nn := fun nn => by
    unfold concludedEnd
    split
    · rw [sequencedStart_congr h]
    · rfl
  have hn1 := h (n + 1) (Nat.le_refl _)
  rw [hn1] at hc
  unfold seqEndAt
  rw [ht, h n (by omega), hn1]
  simp only [hend]
  cases hn : l'[n + 1]? with
  | none => rfl
  | some next =>
    by_cases hcomp : next.eventType = .workflowTaskCompleted
    · rw [hc (by simp [hn, hcomp])]
    · cases l'[n]? <;> simp [hcomp]

theorem seqEndAt_of_no_next (hn : l[n + 1]? = none) (h : seqEndAt l n = some i) : i = n := by
  unfold seqEndAt at h
  simp only [hn] at h
  repeat' split at h
  all_goals first | cases h; rfl | cases h

theorem findSome?_congr {α β : Type} {f g : α → Option β} : ∀ {l : List α}, (∀ a ∈ l, f a = g a) →
    l.findSome? f = l.findSome? g
  | [], _ => rfl
  | a :: l, h => by
    rw [List.findSome?_cons, List.findSome?_cons, h a List.mem_cons_self,
      findSome?_congr (fun x hx => h x (List.mem_cons_of_mem _ hx))]

/-- A list that ends in such an event shows all sequences that end before. -/
theorem localAt_seqEnd (he : e.endsSequence = true) : LocalAt seqEnd e := by
  have hne : e.eventType ≠ .workflowTaskCompleted := by
    intro h
    simp [HistoryEvent.endsSequence, HistoryEvent.isWftStarted, HistoryEvent.isFinalWfExecutionEvent, h] at he
  intro t
  have hbefore : ∀ after, ∀ n ∈ List.range t.length, seqEndAt (t ++ e :: after) n = seqEndAt (t ++ [e]) n := by
    intro after n hn
    have hn := List.mem_range.mp hn
    have hk : ∀ k ≤ t.length, (t ++ e :: after)[k]? = (t ++ [e])[k]? := by
      intro k hk
      rcases Nat.lt_or_eq_of_le hk with hk | rfl
      · rw [List.getElem?_append_left hk, List.getElem?_append_left hk]
      · simp
    refine seqEndAt_congr (fun k hk' => hk k (by omega)) (fun hcomp => hk _ ?_)
    -- past a completed task there is at least one more event of the list
    rcases Nat.lt_or_eq_of_le (show n + 1 ≤ t.length by omega) with h | h
    · omega
    · rw [h] at hcomp; simp [hne] at hcomp
  have hsplit : ∀ after, seqEnd (t ++ e :: after) =
      ((List.range t.length).findSome? (seqEndAt (t ++ [e]))).or
        ((List.range' t.length (after.length + 1)).findSome? (seqEndAt (t ++ e :: after))) := by
    intro after
    have hr : List.range (t ++ e :: after).length = List.range t.length ++ List.range' t.length (after.length + 1) := by
      rw [List.length_append, List.length_cons, List.range_eq_range', List.range_eq_range', ← List.range'_append_1,
        Nat.zero_add]
    rw [seqEnd, hr, List.findSome?_append, findSome?_congr (hbefore after)]
  cases hf : (List.range t.length).findSome? (seqEndAt (t ++ [e])) with
  | some i =>
    obtain ⟨n, hn, h⟩ := List.exists_of_findSome?_eq_some hf
    have hi := (seqEndAt_some h).1
    refine Or.inl ⟨i, by have := List.mem_range.mp hn; omega, fun after => ?_⟩
    rw [hsplit, hf]; rfl
  | none =>
    right
    rw [hsplit, hf, Option.none_or]
    simp only [List.length_nil, Nat.zero_add, List.range'_one, List.findSome?_singleton]
    cases h : seqEndAt (t ++ [e]) t.length with
    | none => exact Or.inl rfl
    | some i => exact Or.inr (by rw [seqEndAt_of_no_next (by simp) h])

theorem chunks_seqEnd_flatten_ends (l : List HistoryEvent) (h : (chunks seqEnd l).1 ≠ []) :
    ∃ t e, (chunks seqEnd l).1.flatten = t ++ [e] ∧ e.endsSequence = true := by
  induction l using chunk_induction seqEnd_lt with
  | none l hn => exact absurd (by rw [chunks_of_none hn]) h
  | some l i hs ih =>
    rw [chunks_of_some seqEnd_lt hs, List.flatten_cons]
    by_cases hrest : (chunks seqEnd (l.drop (i + 1))).1 = []
    · obtain ⟨hi, hend⟩ := seqEnd_some hs
      refine ⟨l.take i, l[i], ?_, ?_⟩
      · rw [hrest, List.flatten_nil, List.append_nil, List.take_add_one, List.getElem?_eq_getElem hi]; rfl
      · simpa [List.getElem?_eq_getElem hi] using hend
    · obtain ⟨t, e, hte, hend⟩ := ih hrest
      exact ⟨l.take (i + 1) ++ t, e, by rw [hte, List.append_assoc], hend⟩

end SdkCore
