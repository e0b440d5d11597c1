import Mathlib.Data.List.Perm.Basic

/-!
# What became of the items that arrived

A log has an entry for each item, in the order of arrival. An item is held until it is returned or discarded.
-/

namespace SdkCore.Arrivals

variable {α : Type}

inductive Fate
  | held
  | returned
  | discarded
  deriving DecidableEq

structure Entry (α : Type) where
  item : α
  fate : Fate

def items (fate : Fate) (log : List (Entry α)) : List α := (log.filter (·.fate = fate)).map Entry.item

def kept (log : List (Entry α)) : List α := (log.filter (·.fate ≠ .discarded)).map Entry.item

/-- Return the first held item of a kind. -/
def takeFirst (p : α → Bool) : List (Entry α) → Option (α × List (Entry α))
  | [] => none
  | e :: log =>
    if e.fate = .held ∧ p e.item = true then some (e.item, { e with fate := .returned } :: log)
    else (takeFirst p log).map fun x => (x.1, e :: x.2)

def discard (e : Entry α) : Entry α := if e.fate = .held then { e with fate := .discarded } else e

/-- Discard the first held item of a kind, and those held after it. -/
def discardFrom (p : α → Bool) : List (Entry α) → List (Entry α)
  | [] => []
  | e :: log => if e.fate = .held ∧ p e.item = true then (e :: log).map discard else e :: discardFrom p log

@[simp]
theorem items_nil (fate : Fate) : items fate ([] : List (Entry α)) = [] := by
  simp [items]

theorem items_cons (fate : Fate) (e : Entry α) (log : List (Entry α)) :
    items fate (e :: log) = if e.fate = fate then e.item :: items fate log else items fate log := by
  simp only [items, List.filter_cons, decide_eq_true_eq]
  split <;> rfl

theorem items_append (fate : Fate) (log log' : List (Entry α)) :
    items fate (log ++ log') = items fate log ++ items fate log' := by
  simp [items]

/-- Nothing is lost but what was discarded. -/
theorem returned_append_held (log : List (Entry α)) : (items .returned log ++ items .held log).Perm (kept log) := by
  induction log with
  | nil => exact .nil
  | cons e log ih =>
    simp only [items_cons, kept, List.filter_cons]
    cases e.fate with
    | held => exact List.perm_middle.trans (ih.cons _)
    | returned => exact ih.cons _
    | discarded => exact ih

/-- The first held item of the kind is taken. -/
theorem takeFirst_of_held {p : α → Bool} {x : α} (hx : p x = true) :
    ∀ {log : List (Entry α)} {pre post : List α}, items .held log = pre ++ x :: post → (∀ y ∈ pre, p y = false) →
      ∃ log', takeFirst p log = some (x, log') ∧ items .held log' = pre ++ post ∧
        (items .returned log').Perm (x :: items .returned log)
  | [], pre, post, h, _ => by simp at h
  | e :: log, pre, post, h, hpre => by
    rw [items_cons] at h
    by_cases he : e.fate = .held
    · rw [if_pos he] at h
      cases pre with
      | nil =>
        obtain ⟨rfl, rfl⟩ := List.cons.inj h
        refine ⟨{ e with fate := .returned } :: log, by simp [takeFirst, he, hx], ?_, ?_⟩
        · simp [items_cons]
        · simp [items_cons, he]
      | cons y pre =>
        obtain ⟨rfl, hrest⟩ := List.cons.inj h
        have hy : p e.item = false := hpre _ List.mem_cons_self
        obtain ⟨log', ht, hheld, hret⟩ :=
          takeFirst_of_held hx hrest fun y hy => hpre y (List.mem_cons_of_mem _ hy)
        refine ⟨e :: log', by simp [takeFirst, hy, ht], ?_, ?_⟩
        · simp [items_cons, he, hheld]
        · simpa [items_cons, he] using hret
    · rw [if_neg he] at h
      obtain ⟨log', ht, hheld, hret⟩ := takeFirst_of_held hx h hpre
      refine ⟨e :: log', by simp [takeFirst, he, ht], by simp [items_cons, he, hheld], ?_⟩
      rw [items_cons, items_cons]
      split
      · exact (hret.cons _).trans (.swap _ _ _)
      · exact hret

theorem takeFirst_eq_none {p : α → Bool} :
    ∀ {log : List (Entry α)}, (∀ y ∈ items .held log, p y = false) → takeFirst p log = none
  | [], _ => rfl
  | e :: log, h => by
    rw [items_cons] at h
    have hlog : takeFirst p log = none := by
      refine takeFirst_eq_none fun y hy => h y ?_
      split
      · exact List.mem_cons_of_mem _ hy
      · exact hy
    rw [takeFirst, hlog, if_neg]
    · rfl
    · rintro ⟨he, hp⟩
      rw [if_pos he] at h
      rw [h _ List.mem_cons_self] at hp
      cases hp

theorem takeFirst_items {p : α → Bool} {x : α} :
    ∀ {log log' : List (Entry α)}, takeFirst p log = some (x, log') → log'.map Entry.item = log.map Entry.item
  | [], _, h => by cases h
  | e :: log, _, h => by
    rw [takeFirst] at h
    split at h
    · cases h
      rfl
    · obtain ⟨y, hy, he⟩ := Option.map_eq_some_iff.mp h
      cases he
      rw [List.map_cons, List.map_cons, takeFirst_items hy]

theorem items_map_discard (log : List (Entry α)) :
    items .held (log.map discard) = [] ∧ items .returned (log.map discard) = items .returned log ∧
      (log.map discard).map Entry.item = log.map Entry.item := by
  induction log with
  | nil => exact ⟨rfl, rfl, rfl⟩
  | cons e log ih =>
    obtain ⟨hheld, hret, hitems⟩ := ih
    simp only [List.map_cons, items_cons, hheld, hret, hitems, discard]
    cases h : e.fate <;> simp [h]

/-- What is left is held before the first of the kind. -/
theorem items_discardFrom (p : α → Bool) (log : List (Entry α)) :
    items .held (discardFrom p log) = (items .held log).takeWhile (!p ·) ∧
      items .returned (discardFrom p log) = items .returned log ∧
        (discardFrom p log).map Entry.item = log.map Entry.item := by
  induction log with
  | nil => exact ⟨rfl, rfl, rfl⟩
  | cons e log ih =>
    obtain ⟨hheld, hret, hitems⟩ := ih
    rw [discardFrom]
    split
    · next h =>
      obtain ⟨hnone, hret', hitems'⟩ := items_map_discard (e :: log)
      exact ⟨hnone.trans (by simp [items_cons, h.1, h.2]), hret', hitems'⟩
    · next h =>
      simp only [items_cons, hheld, hret, List.map_cons, hitems, and_self, and_true]
      by_cases he : e.fate = .held
      · have hp : p e.item = false := by simpa [he] using h
        simp [he, hp]
      · simp [he]

end SdkCore.Arrivals
