import Mathlib.Data.List.Range

/-!
# Queues with numbered elements

Elements of a queue have numbers, and are taken from its front or out of turn. None is taken twice, and one taken from
the front comes after all smaller ones (`Tickets.Fair.of_moves`).
-/

namespace SdkCore

/-- The numbers that wait, the next one, and those taken, in turn or not. -/
structure Tickets where
  waiting : List Nat
  next : Nat
  taken : List (Nat × Bool)

namespace Tickets

/-- A number is given out, or one is taken. -/
inductive Move : Tickets → Tickets → Prop
  | issue {waiting next taken} : Move ⟨waiting, next, taken⟩ ⟨waiting ++ [next], next + 1, taken⟩
  | serve {n next waiting taken} : Move ⟨n :: waiting, next, taken⟩ ⟨waiting, next, taken ++ [(n, false)]⟩
  | outOfTurn {n next before after taken} :
    Move ⟨before ++ n :: after, next, taken⟩ ⟨before ++ after, next, taken ++ [(n, true)]⟩

/-- Every number waits or was taken once, in order but for those out of turn. -/
structure Fair (t : Tickets) : Prop where
  perm : (t.waiting ++ t.taken.map Prod.fst).Perm (List.range t.next)
  sorted : t.waiting.Pairwise (· < ·)
  inTurn : ∀ before n after, t.taken = before ++ (n, false) :: after → ∀ i < n, i ∈ before.map Prod.fst

variable {t t' : Tickets}

theorem Fair.init : Fair ⟨[], 0, []⟩ where
  perm := .refl _
  sorted := .nil
  inTurn before n after h := by simp at h

/-- No number is taken twice. -/
theorem Fair.nodup (h : Fair t) : (t.taken.map Prod.fst).Nodup :=
  (h.perm.nodup_iff.mpr List.nodup_range).sublist (List.sublist_append_right _ _)

theorem Fair.lt_next (h : Fair t) {n : Nat} (hn : n ∈ t.waiting) : n < t.next :=
  List.mem_range.mp (h.perm.subset (List.mem_append_left _ hn))

theorem snoc_eq_append {α : Type} {l before after : List α} {a b : α} (h : l ++ [a] = before ++ b :: after) :
    (∃ after', l = before ++ b :: after') ∨ (before = l ∧ b = a) := by
  cases after using List.reverseRecOn with
  | nil =>
    obtain ⟨rfl, hab⟩ := List.append_inj' h rfl
    exact .inr ⟨rfl, (List.cons.inj hab).1.symm⟩
  | append_singleton after c =>
    rw [← List.cons_append, ← List.append_assoc] at h
    exact .inl ⟨after, (List.append_inj' h rfl).1⟩

theorem Fair.move (h : Fair t) (hm : Move t t') : Fair t' := by
  cases hm with
  | @issue waiting next taken =>
    refine ⟨?_, ?_, h.inTurn⟩
    · rw [List.range_succ, List.append_assoc]
      exact (List.perm_append_comm_assoc _ _ _).trans
        ((h.perm.append_left [next]).trans List.perm_append_comm)
    · rw [List.pairwise_append]
      refine ⟨h.sorted, List.pairwise_singleton _ _, fun a ha b hb => ?_⟩
      cases List.mem_singleton.mp hb
      exact h.lt_next ha
  | @serve n next waiting taken =>
    refine ⟨?_, (List.pairwise_cons.mp h.sorted).2, fun before m after hcut i hi => ?_⟩
    · rw [List.map_append, ← List.append_assoc]
      exact List.perm_append_comm.trans h.perm
    · rcases snoc_eq_append hcut with ⟨after', htaken⟩ | ⟨rfl, hn⟩
      · exact h.inTurn before m after' htaken i hi
      · cases hn
        -- smaller numbers do not wait, as the front is the least
        have hlt : i < next := hi.trans (h.lt_next List.mem_cons_self)
        rcases List.mem_append.mp (h.perm.symm.subset (List.mem_range.mpr hlt)) with hw | htaken
        · rcases List.mem_cons.mp hw with rfl | hw
          · exact absurd hi (lt_irrefl _)
          · exact absurd hi (lt_asymm ((List.pairwise_cons.mp h.sorted).1 i hw))
        · exact htaken
  | @outOfTurn n next before after taken =>
    refine ⟨?_, ?_, fun before' m after' hcut i hi => ?_⟩
    · rw [List.map_append, ← List.append_assoc]
      refine List.perm_append_comm.trans (List.Perm.trans ?_ h.perm)
      exact (List.perm_middle.append_right _).symm
    · exact h.sorted.sublist ((List.Sublist.refl before).append (List.sublist_cons_self n after))
    · rcases snoc_eq_append hcut with ⟨after'', htaken⟩ | ⟨-, hn⟩
      · exact h.inTurn before' m after'' htaken i hi
      · cases hn

theorem Fair.of_moves (h : Fair t) (hm : Relation.ReflTransGen Move t t') : Fair t' := by
  induction hm with
  | refl => exact h
  | tail _ hstep ih => exact ih.move hstep

end Tickets

end SdkCore
