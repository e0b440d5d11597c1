import Mathlib.Data.Finset.Max

/-!
# The largest elements of a set

A bounded set that drops its smallest element has the largest of all that were inserted (`Largest.insertCapped`,
`Largest.unique`).
-/

namespace SdkCore

variable {α : Type} [LinearOrder α] {n : Nat} {f g : Finset α} {s : Set α} {x : α}

def popFirst (f : Finset α) : Finset α := if h : f.Nonempty then f.erase (f.min' h) else f

/-- At most `n` elements are kept. -/
def insertCapped (n : Nat) (f : Finset α) (x : α) : Finset α :=
  if n < (insert x f).card then popFirst (insert x f) else insert x f

/-- `f` has all elements of `s`, or the `n` largest ones. -/
structure Largest (n : Nat) (f : Finset α) (s : Set α) : Prop where
  mem : ∀ y ∈ f, y ∈ s
  card : f.card ≤ n
  above : ∀ y ∈ s, y ∉ f → f.card = n ∧ ∀ z ∈ f, y < z

/-- **An insertion keeps the largest.** -/
theorem Largest.insertCapped (h : Largest n f s) : Largest n (insertCapped n f x) (insert x s) := by
  have hmem : ∀ y ∈ insert x f, y ∈ insert x s := fun y hy =>
    (Finset.mem_insert.mp hy).imp id (h.mem y)
  unfold SdkCore.insertCapped popFirst
  split
  · next hc =>
    have hx : x ∉ f := fun hx => by
      rw [Finset.insert_eq_of_mem hx] at hc
      exact absurd h.card (Nat.not_le.mpr hc)
    have hn : f.card = n := by
      rw [Finset.card_insert_of_notMem hx] at hc
      exact Nat.le_antisymm h.card (Nat.lt_succ_iff.mp hc)
    have hne : (insert x f).Nonempty := Finset.insert_nonempty x f
    rw [dif_pos hne]
    have hcard : ((insert x f).erase ((insert x f).min' hne)).card = n := by
      rw [Finset.card_erase_of_mem (Finset.min'_mem _ hne), Finset.card_insert_of_notMem hx, hn, Nat.add_sub_cancel]
    refine ⟨fun y hy => hmem y (Finset.mem_of_mem_erase hy), hcard.le, fun y hy hny => ⟨hcard, fun z hz => ?_⟩⟩
    have hmin : (insert x f).min' hne < z :=
      lt_of_le_of_ne (Finset.min'_le _ _ (Finset.mem_of_mem_erase hz)) (Finset.ne_of_mem_erase hz).symm
    by_cases hyi : y ∈ insert x f
    · obtain rfl : y = (insert x f).min' hne := by
        by_contra hne'
        exact hny (Finset.mem_erase.mpr ⟨hne', hyi⟩)
      exact hmin
    · have hy' : y ∈ s := hy.resolve_left fun he => hyi (he ▸ Finset.mem_insert_self x f)
      have hlt := (h.above y hy' fun hf => hyi (Finset.mem_insert_of_mem hf)).2
      rcases Finset.mem_insert.mp (Finset.mem_of_mem_erase hz) with rfl | hz
      · -- the new element stays, so one of the old ones is the smallest
        rcases Finset.mem_insert.mp (Finset.min'_mem _ hne) with he | he
        · exact absurd he hmin.ne
        · exact (hlt _ he).trans hmin
      · exact hlt z hz
  · next hc =>
    refine ⟨hmem, Nat.not_lt.mp hc, fun y hy hny => ?_⟩
    have hy' : y ∈ s := hy.resolve_left fun he => hny (he ▸ Finset.mem_insert_self x f)
    obtain ⟨hn, hlt⟩ := h.above y hy' fun hf => hny (Finset.mem_insert_of_mem hf)
    have hx : x ∈ f := by
      by_contra hx
      rw [Finset.card_insert_of_notMem hx, hn] at hc
      exact hc (Nat.lt_succ_self n)
    rw [Finset.insert_eq_of_mem hx]
    exact ⟨hn, hlt⟩

theorem Largest.subset (h : Largest n f s) (h' : Largest n g s) : f ⊆ g := by
  intro y hy
  by_contra hg
  obtain ⟨hn, hlt⟩ := h'.above y (h.mem y hy) hg
  obtain ⟨z, hz, hzf⟩ : ∃ z ∈ g, z ∉ f := by
    by_contra hno
    push Not at hno
    exact hg (Finset.eq_of_subset_of_card_le hno (hn ▸ h.card) ▸ hy)
  exact lt_asymm (hlt z hz) ((h.above z (h'.mem z hz) hzf).2 y hy)

theorem Largest.unique (h : Largest n f s) (h' : Largest n g s) : f = g := (h.subset h').antisymm (h'.subset h)

end SdkCore
