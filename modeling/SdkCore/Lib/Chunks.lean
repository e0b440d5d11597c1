import Mathlib.Data.List.Basic
import Mathlib.Data.Nat.Find

/-!
# Cutting a list into chunks

A cut function says where the first chunk of a list ends. `whole` takes the rest as a chunk too, unless it is a single
element. `deliver_eq_whole_iff` says when pieces that are cut on their own give the chunks of a list.
-/

namespace SdkCore.Chunks

variable {α : Type} (cut : List α → Option Nat)

def chunksAux : Nat → List α → List (List α) × List α
  | 0, l => ([], l)
  | fuel + 1, l =>
    match cut l with
    | none => ([], l)
    | some i =>
      let r := chunksAux fuel (l.drop (i + 1))
      (l.take (i + 1) :: r.1, r.2)

/-- The complete chunks, and the rest. -/
def chunks (l : List α) : List (List α) × List α := chunksAux cut l.length l

/-- The chunks when nothing more is to come. -/
def whole (l : List α) : List (List α) :=
  (chunks cut l).1 ++ if (chunks cut l).2.length ≤ 1 then [] else [(chunks cut l).2]

/-- The chunk that a list ends in. -/
def openChunk (l : List α) : List α :=
  if (chunks cut l).2 = [] then (chunks cut l).1.getLastD [] else (chunks cut l).2

/-- The chunks of pieces, of which `last` is the last. -/
def deliver (pieces : List (List α)) (last : List α) : List (List α) :=
  pieces.flatMap (fun t => (chunks cut t).1) ++ whole cut last

/-- The last chunk of a piece is also one with what follows. -/
def EndsAlike (o after : List α) : Prop :=
  cut o = some (o.length - 1) ∧ cut (o ++ after) = some (o.length - 1)

/-- Every piece ends in a chunk that the full list has as well. -/
def PiecesAlike : List (List α) → List α → Prop
  | [], _ => True
  | t :: pieces, last => EndsAlike cut (openChunk cut t) (pieces.flatten ++ last) ∧ PiecesAlike pieces last

instance (o after : List α) : Decidable (EndsAlike cut o after) := inferInstanceAs (Decidable (_ ∧ _))

instance PiecesAlike.decidable : ∀ (pieces : List (List α)) (last : List α), Decidable (PiecesAlike cut pieces last)
  | [], _ => isTrue trivial
  | _ :: pieces, last => @instDecidableAnd _ _ _ (PiecesAlike.decidable pieces last)

/-- The cut does not look beyond `e` for a chunk that ends before. -/
def LocalAt (e : α) : Prop :=
  ∀ t : List α, (∃ i < t.length, ∀ after, cut (t ++ e :: after) = some i) ∨
    cut (t ++ [e]) = none ∨ cut (t ++ [e]) = some t.length

section

variable {cut} (hcut : ∀ l i, cut l = some i → i < l.length)
include hcut

/-! ## Unfolding the chunks -/

omit hcut in
theorem chunks_of_none {l : List α} (h : cut l = none) : chunks cut l = ([], l) := by
  unfold chunks
  cases l.length <;> simp [chunksAux, h]

theorem chunksAux_eq : ∀ {n m : Nat} {l : List α}, l.length ≤ n → l.length ≤ m →
    chunksAux cut n l = chunksAux cut m l
  | n, m, l, hn, hm => by
    cases hc : cut l with
    | none => cases n <;> cases m <;> simp [chunksAux, hc]
    | some i =>
      have hi := hcut l i hc
      obtain ⟨n, rfl⟩ : ∃ k, n = k + 1 := ⟨n - 1, by omega⟩
      obtain ⟨m, rfl⟩ : ∃ k, m = k + 1 := ⟨m - 1, by omega⟩
      have hlen : (l.drop (i + 1)).length < l.length := by rw [List.length_drop]; omega
      simp only [chunksAux, hc]
      rw [chunksAux_eq (n := n) (m := m) (by omega) (by omega)]

theorem chunks_of_some {l : List α} {i : Nat} (h : cut l = some i) :
    chunks cut l = (l.take (i + 1) :: (chunks cut (l.drop (i + 1))).1, (chunks cut (l.drop (i + 1))).2) := by
  have hi := hcut l i h
  unfold chunks
  obtain ⟨n, hn⟩ : ∃ n, l.length = n + 1 := ⟨l.length - 1, by omega⟩
  rw [hn]
  simp only [chunksAux, h]
  rw [chunksAux_eq hcut (by rw [List.length_drop]; omega) (Nat.le_refl _)]

theorem chunk_induction {motive : List α → Prop} (none : ∀ l, cut l = none → motive l)
    (some : ∀ l i, cut l = some i → motive (l.drop (i + 1)) → motive l) (l : List α) : motive l := by
  induction hn : l.length using Nat.strongRecOn generalizing l with
  | _ n ih =>
    cases hc : cut l with
    | none => exact none l hc
    | some i =>
      have hi := hcut l i hc
      exact some l i hc (ih _ (by rw [List.length_drop]; omega) _ rfl)

/-- Nothing is lost. -/
theorem chunks_flatten (l : List α) : (chunks cut l).1.flatten ++ (chunks cut l).2 = l := by
  induction l using chunk_induction hcut with
  | none l hc => simp [chunks_of_none hc]
  | some l i hc ih =>
    rw [chunks_of_some hcut hc]
    simp only [List.flatten_cons, List.append_assoc, ih, List.take_append_drop]

theorem ne_nil_of_mem_chunks (l : List α) : ∀ c ∈ (chunks cut l).1, c ≠ [] := by
  induction l using chunk_induction hcut with
  | none l hc => simp [chunks_of_none hc]
  | some l i hc ih =>
    rw [chunks_of_some hcut hc]
    intro c hmem
    rcases List.mem_cons.mp hmem with rfl | hmem
    · have := hcut l i hc
      exact List.ne_nil_of_length_pos (by rw [List.length_take]; omega)
    · exact ih c hmem

theorem chunks_length_le (l : List α) : (chunks cut l).1.length ≤ (chunks cut l).1.flatten.length := by
  induction l using chunk_induction hcut with
  | none l hc => simp [chunks_of_none hc]
  | some l i hc ih =>
    have := hcut l i hc
    rw [chunks_of_some hcut hc, List.flatten_cons, List.length_append, List.length_cons, List.length_take]
    omega

theorem chunks_flatten_ne_nil {l : List α} (h : (chunks cut l).1 ≠ []) : (chunks cut l).1.flatten ≠ [] := by
  intro hf
  obtain ⟨c, hc⟩ := List.exists_mem_of_ne_nil _ h
  exact ne_nil_of_mem_chunks hcut l c hc (List.flatten_eq_nil_iff.mp hf c hc)

theorem cut_nil : cut [] = none := by
  cases hc : cut [] with
  | none => rfl
  | some i => exact absurd (hcut _ _ hc) (by simp)

theorem whole_nil : whole cut [] = [] := by
  simp [whole, chunks_of_none (cut_nil hcut)]

theorem whole_of_some {l : List α} {i : Nat} (h : cut l = some i) :
    whole cut l = l.take (i + 1) :: whole cut (l.drop (i + 1)) := by
  simp only [whole, chunks_of_some hcut h, List.cons_append]

omit hcut in
theorem whole_of_none {l : List α} (h : cut l = none) : whole cut l = if l.length ≤ 1 then [] else [l] := by
  simp [whole, chunks_of_none h]

/-- Only a single element at the end is lost. -/
theorem whole_flatten (l : List α) : (whole cut l).flatten = l ↔ (chunks cut l).2.length ≠ 1 := by
  have hl := chunks_flatten hcut l
  unfold whole
  generalize (chunks cut l).1 = cs, (chunks cut l).2 = r at hl
  subst hl
  match r with
  | [] => simp
  | [_] => simp
  | _ :: _ :: _ => simp

theorem whole_flatten_length_le (l : List α) : (whole cut l).flatten.length ≤ l.length := by
  have hl := congrArg List.length (chunks_flatten hcut l)
  simp only [whole, List.flatten_append, List.length_append] at hl ⊢
  split
  · simp only [List.flatten_nil, List.length_nil]; omega
  · simp only [List.flatten_singleton]; omega

theorem deliver_length_le (pieces : List (List α)) (last : List α) :
    (deliver cut pieces last).flatten.length ≤ (pieces.flatten ++ last).length := by
  induction pieces with
  | nil => simpa [deliver] using whole_flatten_length_le hcut last
  | cons t pieces ih =>
    have ht := congrArg List.length (chunks_flatten hcut t)
    simp only [deliver, List.flatMap_cons, List.flatten_append, List.flatten_cons, List.length_append] at ih ht ⊢
    omega

/-! ## Pieces against the full list -/

theorem openChunk_of_some_end {l : List α} (hl : l ≠ []) (h : cut l = some (l.length - 1)) : openChunk cut l = l := by
  have hlen : l.length - 1 + 1 = l.length := Nat.sub_add_cancel (List.length_pos_iff.mpr hl)
  simp [openChunk, chunks_of_some hcut h, hlen, chunks_of_none (cut_nil hcut)]

theorem openChunk_of_some {l : List α} {i : Nat} (h : cut l = some i) (hd : l.drop (i + 1) ≠ []) :
    openChunk cut l = openChunk cut (l.drop (i + 1)) := by
  have hf := chunks_flatten hcut (l.drop (i + 1))
  simp only [openChunk, chunks_of_some hcut h]
  split
  · rename_i hr
    -- the remaining elements are all in chunks, so there is a last one among them
    rw [hr] at hf
    obtain ⟨c, cs, hcs⟩ : ∃ c cs, (chunks cut (l.drop (i + 1))).1 = c :: cs := by
      cases hcs : (chunks cut (l.drop (i + 1))).1 with
      | nil => rw [hcs] at hf; exact absurd hf.symm hd
      | cons c cs => exact ⟨c, cs, rfl⟩
    rw [hcs]; rfl
  · rfl

/-- A piece that ends in a local element is cut like the full list, up to its last chunk. -/
theorem exists_chunks_append {e : α} (hloc : LocalAt cut e) (t after : List α) :
    ∃ cs : List (List α), ∃ o, o = openChunk cut (t ++ [e]) ∧ o ≠ [] ∧ cs.flatten ++ o = t ++ [e] ∧
      (cut o = none ∧ (chunks cut (t ++ [e])).1 = cs ∨
        cut o = some (o.length - 1) ∧ (chunks cut (t ++ [e])).1 = cs ++ [o]) ∧
      whole cut (t ++ e :: after) = cs ++ whole cut (o ++ after) := by
  rcases hloc t with ⟨i, hi, hc⟩ | hc | hc
  · obtain ⟨cs, o, ho, hne, hf, hcs, hw⟩ := exists_chunks_append hloc (t.drop (i + 1)) after
    have hdrop : ∀ x, (t ++ e :: x).drop (i + 1) = t.drop (i + 1) ++ e :: x := fun x =>
      List.drop_append_of_le_length (by omega)
    have htake : ∀ x, (t ++ e :: x).take (i + 1) = t.take (i + 1) := fun x =>
      List.take_append_of_le_length (by omega)
    refine ⟨t.take (i + 1) :: cs, o, ?_, hne, ?_, ?_, ?_⟩
    · rw [ho, openChunk_of_some hcut (hc []) (by rw [hdrop]; simp), hdrop]
    · rw [List.flatten_cons, List.append_assoc, hf, ← List.append_assoc, List.take_append_drop]
    · rw [chunks_of_some hcut (hc []), hdrop, htake]
      rcases hcs with ⟨h1, h2⟩ | ⟨h1, h2⟩
      · exact Or.inl ⟨h1, by rw [h2]⟩
      · exact Or.inr ⟨h1, by rw [h2]; rfl⟩
    · rw [whole_of_some hcut (hc after), hdrop, htake, hw]; rfl
  · refine ⟨[], t ++ [e], by simp [openChunk, chunks_of_none hc], by simp, rfl, Or.inl ⟨hc, ?_⟩, by simp⟩
    rw [chunks_of_none hc]
  · have hlen : (t ++ [e]).length - 1 = t.length := by simp
    have hc' := hc
    rw [← hlen] at hc'
    refine ⟨[], t ++ [e], (openChunk_of_some_end hcut (by simp) hc').symm, by simp, rfl, Or.inr ⟨hc', ?_⟩, by simp⟩
    have htake : (t ++ [e]).take (t.length + 1) = t ++ [e] := List.take_of_length_le (by simp)
    simp [chunks_of_some hcut hc, chunks_of_none (cut_nil hcut), htake]
termination_by t.length
decreasing_by rw [List.length_drop]; omega

theorem whole_append_eq_cons_iff {o after : List α} {cs : List (List α)} (ho : o ≠ []) (hc : cut o ≠ none) :
    whole cut (o ++ after) = o :: cs ↔ cut (o ++ after) = some (o.length - 1) ∧ cs = whole cut after := by
  have hlen : o.length - 1 + 1 = o.length := Nat.sub_add_cancel (List.length_pos_iff.mpr ho)
  constructor
  · intro h
    cases hca : cut (o ++ after) with
    | none =>
      rw [whole_of_none hca] at h
      split at h
      · cases h
      · obtain ⟨h, -⟩ := List.cons.inj h
        rw [h] at hca
        exact absurd hca hc
    | some i =>
      rw [whole_of_some hcut hca, List.cons.injEq] at h
      have hi := hcut _ _ hca
      have hl := congrArg List.length h.1
      rw [List.length_take] at hl
      have hio : i + 1 = o.length := by omega
      refine ⟨by rw [← hio]; simp, ?_⟩
      rw [← h.2, hio, List.drop_left]
  · rintro ⟨h, rfl⟩
    rw [whole_of_some hcut h, hlen, List.take_left, List.drop_left]

/-- **Pieces give the chunks and elements of the full list exactly if they all end in chunks of it and it does not end
in a single element.** -/
theorem deliver_eq_whole_iff {pieces : List (List α)} {last : List α}
    (hp : ∀ t ∈ pieces, ∃ t' e, t = t' ++ [e] ∧ LocalAt cut e) :
    deliver cut pieces last = whole cut (pieces.flatten ++ last) ∧
        (deliver cut pieces last).flatten = pieces.flatten ++ last ↔
      PiecesAlike cut pieces last ∧ (chunks cut (pieces.flatten ++ last)).2.length ≠ 1 := by
  rw [← whole_flatten hcut]
  induction pieces with
  | nil => simp [deliver, PiecesAlike]
  | cons t pieces ih =>
    obtain ⟨t, e, rfl, hloc⟩ := hp t List.mem_cons_self
    have ih := ih (fun t ht => hp t (List.mem_cons_of_mem _ ht))
    have hle := deliver_length_le hcut pieces last
    obtain ⟨cs, o, ho, hne, hf, hcs, hw⟩ := exists_chunks_append hcut hloc t (pieces.flatten ++ last)
    have hfull : ((t ++ [e]) :: pieces).flatten ++ last = cs.flatten ++ (o ++ (pieces.flatten ++ last)) := by
      rw [← List.append_assoc cs.flatten, hf]; simp
    have hw' : whole cut (cs.flatten ++ (o ++ (pieces.flatten ++ last))) =
        cs ++ whole cut (o ++ (pieces.flatten ++ last)) := by
      rw [← hw, ← List.append_assoc, hf]; simp
    have hdel : deliver cut ((t ++ [e]) :: pieces) last =
        (chunks cut (t ++ [e])).1 ++ deliver cut pieces last := by
      simp [deliver]
    rw [hfull, hdel, hw', PiecesAlike, ← ho, EndsAlike]
    rcases hcs with ⟨hn, hcs⟩ | ⟨hs, hcs⟩
    · -- the last chunk is not complete in the piece, so its elements are lost
      simp only [hn, reduceCtorEq, false_and, iff_false, not_and]
      intro _ h
      rw [hcs, List.flatten_append] at h
      have hl := congrArg List.length h
      have := List.length_pos_iff.mpr hne
      simp only [List.length_append] at hl hle
      omega
    · have hfirst := @whole_append_eq_cons_iff _ _ hcut _ (pieces.flatten ++ last) (deliver cut pieces last) hne
        (by rw [hs]; simp)
      rw [hcs, List.append_assoc, List.append_cancel_left_eq, List.singleton_append, eq_comm, hfirst,
        List.flatten_append, List.flatten_append, List.flatten_cons, List.append_cancel_left_eq,
        List.append_cancel_left_eq, List.append_cancel_left_eq]
      constructor
      · rintro ⟨⟨hca, hd⟩, hfl⟩
        obtain ⟨h1, h2⟩ := ih.mp ⟨hd, hfl⟩
        rw [(whole_append_eq_cons_iff hcut hne (by rw [hs]; simp)).mpr ⟨hca, rfl⟩, List.flatten_cons, h2]
        exact ⟨⟨⟨hs, hca⟩, h1⟩, rfl⟩
      · rintro ⟨⟨⟨-, hca⟩, h1⟩, h2⟩
        rw [(whole_append_eq_cons_iff hcut hne (by rw [hs]; simp)).mpr ⟨hca, rfl⟩, List.flatten_cons,
          List.append_cancel_left_eq] at h2
        obtain ⟨hd, hfl⟩ := ih.mpr ⟨h1, h2⟩
        exact ⟨⟨hca, hd⟩, hfl⟩

end

/-! ## Boundaries -/

/-- The first `k` elements are those of the first few chunks. -/
def IsBoundary (cs : List (List α)) (k : Nat) : Prop := ∃ pre post, cs = pre ++ post ∧ pre.flatten.length = k

/-- `k` is the first boundary after the boundary `j`. -/
structure NextBoundary (cs : List (List α)) (j k : Nat) : Prop where
  left : IsBoundary cs j
  right : IsBoundary cs k
  lt : j < k
  between : ∀ m, IsBoundary cs m → j < m → k ≤ m

theorem isBoundary_zero (cs : List (List α)) : IsBoundary cs 0 := ⟨[], cs, rfl, rfl⟩

theorem isBoundary_nil {k : Nat} : IsBoundary ([] : List (List α)) k ↔ k = 0 := by
  constructor
  · rintro ⟨pre, post, h, rfl⟩
    rw [(List.append_eq_nil_iff.mp h.symm).1]
    rfl
  · rintro rfl
    exact isBoundary_zero _

theorem isBoundary_cons {c : List α} {cs : List (List α)} {k : Nat} :
    IsBoundary (c :: cs) k ↔ k = 0 ∨ ∃ m, IsBoundary cs m ∧ k = c.length + m := by
  constructor
  · rintro ⟨_ | ⟨d, pre⟩, post, h, rfl⟩
    · exact Or.inl rfl
    · obtain ⟨rfl, rfl⟩ := List.cons.inj h
      exact Or.inr ⟨_, ⟨pre, post, rfl, rfl⟩, by rw [List.flatten_cons, List.length_append]⟩
  · rintro (rfl | ⟨m, ⟨pre, post, rfl, rfl⟩, rfl⟩)
    · exact isBoundary_zero _
    · exact ⟨c :: pre, post, rfl, by rw [List.flatten_cons, List.length_append]⟩

theorem isBoundary_append {pre post : List (List α)} {k : Nat} :
    IsBoundary (pre ++ post) k ↔ IsBoundary pre k ∨ ∃ m, IsBoundary post m ∧ k = pre.flatten.length + m := by
  induction pre generalizing k with
  | nil =>
    constructor
    · intro h
      exact Or.inr ⟨k, h, (Nat.zero_add k).symm⟩
    · rintro (h | ⟨m, h, rfl⟩)
      · rw [isBoundary_nil.mp h]
        exact isBoundary_zero _
      · simpa using h
  | cons c pre ih =>
    simp only [List.cons_append, isBoundary_cons, ih, List.flatten_cons, List.length_append]
    constructor
    · rintro (rfl | ⟨m, h | ⟨m', h, rfl⟩, rfl⟩)
      · exact Or.inl (Or.inl rfl)
      · exact Or.inl (Or.inr ⟨m, h, rfl⟩)
      · exact Or.inr ⟨m', h, by omega⟩
    · rintro ((rfl | ⟨m, h, rfl⟩) | ⟨m', h, rfl⟩)
      · exact Or.inl rfl
      · exact Or.inr ⟨m, Or.inl h, rfl⟩
      · exact Or.inr ⟨_, Or.inr ⟨m', h, rfl⟩, by omega⟩

theorem IsBoundary.le {cs : List (List α)} {k : Nat} (h : IsBoundary cs k) : k ≤ cs.flatten.length := by
  obtain ⟨pre, post, rfl, rfl⟩ := h
  rw [List.flatten_append, List.length_append]
  exact Nat.le_add_right _ _

/-- The last boundary up to `t`. -/
theorem exists_last_boundary (cs : List (List α)) (t : Nat) :
    ∃ j ≤ t, IsBoundary cs j ∧ ∀ m, IsBoundary cs m → j < m → t < m := by
  classical
  refine ⟨Nat.findGreatest (IsBoundary cs) t, Nat.findGreatest_le t,
    Nat.findGreatest_spec (Nat.zero_le t) (isBoundary_zero cs), fun m hm hlt => ?_⟩
  by_contra hmt
  exact Nat.findGreatest_is_greatest hlt (Nat.le_of_not_lt hmt) hm

theorem exists_nextBoundary {cs : List (List α)} {k : Nat} (h : IsBoundary cs (k + 1)) :
    ∃ j, NextBoundary cs j (k + 1) := by
  obtain ⟨j, hjk, hj, hlast⟩ := exists_last_boundary cs k
  exact ⟨j, hj, h, Nat.lt_succ_of_le hjk, hlast⟩

section

variable {cut} (hcut : ∀ l i, cut l = some i → i < l.length)
include hcut

/-- From a boundary on a list is cut as if it started there. -/
theorem whole_drop {pre post : List (List α)} : ∀ {l : List α}, whole cut l = pre ++ post →
    whole cut (l.drop pre.flatten.length) = post := by
  induction pre with
  | nil =>
    intro l h
    exact h
  | cons c pre ih =>
    intro l h
    cases hc : cut l with
    | none =>
      -- the rest of the list is its only chunk
      rw [whole_of_none hc] at h
      split at h
      · cases h
      · obtain ⟨rfl, hnil⟩ := List.cons.inj h
        obtain ⟨rfl, rfl⟩ := List.append_eq_nil_iff.mp hnil.symm
        rw [List.drop_eq_nil_of_le (by simp), whole_nil hcut]
    | some i =>
      rw [whole_of_some hcut hc] at h
      obtain ⟨rfl, hrest⟩ := List.cons.inj h
      have hi := hcut l i hc
      rw [List.flatten_cons, List.length_append, List.length_take, Nat.min_eq_left hi, ← List.drop_drop]
      exact ih hrest

theorem IsBoundary.add_of_cut {l : List α} {j i : Nat} (h : IsBoundary (whole cut l) j)
    (hc : cut (l.drop j) = some i) : IsBoundary (whole cut l) (j + (i + 1)) := by
  obtain ⟨pre, post, hsplit, hj⟩ := h
  have hpost := whole_drop hcut hsplit
  have hi := hcut _ _ hc
  rw [hj, whole_of_some hcut hc] at hpost
  rw [hsplit, isBoundary_append, hj, ← hpost]
  refine Or.inr ⟨i + 1, isBoundary_cons.mpr (Or.inr ⟨0, isBoundary_zero _, ?_⟩), rfl⟩
  rw [List.length_take, Nat.min_eq_left hi]

theorem NextBoundary.cut_drop {l : List α} {j k : Nat} (h : NextBoundary (whole cut l) j k) :
    cut (l.drop j) = some (k - 1 - j) ∨ l.length ≤ k := by
  obtain ⟨pre, post, hsplit, hj⟩ := h.left
  have hpost := whole_drop hcut hsplit
  have hlt := h.lt
  rw [hj] at hpost
  cases hc : cut (l.drop j) with
  | none =>
    rw [whole_of_none hc] at hpost
    have hk := h.right
    rw [hsplit, isBoundary_append, hj] at hk
    have hk : ∃ m, IsBoundary post m ∧ k = j + m := by
      refine hk.resolve_left (fun hk => ?_)
      have := hk.le
      omega
    obtain ⟨m, hm, rfl⟩ := hk
    rw [← hpost] at hm
    split at hm
    · rw [isBoundary_nil] at hm
      omega
    · rw [isBoundary_cons] at hm
      obtain rfl | ⟨m', -, rfl⟩ := hm
      · omega
      · rw [List.length_drop]
        omega
  | some i =>
    left
    have hi := hcut _ _ hc
    rw [whole_of_some hcut hc] at hpost
    have hle := h.between _ (h.left.add_of_cut hcut hc) (by omega)
    have hk := h.right
    rw [hsplit, isBoundary_append, ← hpost] at hk
    obtain hk | ⟨m, hm, rfl⟩ := hk
    · have := hk.le
      omega
    · rw [isBoundary_cons, List.length_take] at hm
      obtain rfl | ⟨m', -, rfl⟩ := hm
      · omega
      · exact congrArg some (by omega)

end

end SdkCore.Chunks
