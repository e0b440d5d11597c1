import Mathlib.Data.List.Dedup
import Mathlib.Data.List.ReduceOption
import SdkCore.Lib.Feed

/-!
# Work in batches

Items are grouped by a key, a group is worked on in one call, and results are written back by index. Groups are finished
in any order (`runAll_ok`, `runAll_complete`).
-/

namespace SdkCore.Batches

variable {α β γ ι κ ε : Type}

/-- Write values at their indices. -/
def scatter (writes : List (Nat × α)) (l : List α) : List α := writes.foldl (fun l w => l.set w.1 w.2) l

@[simp]
theorem length_scatter (writes : List (Nat × α)) (l : List α) : (scatter writes l).length = l.length := by
  induction writes generalizing l with
  | nil => rfl
  | cons w ws ih =>
    exact (ih _).trans (by simp)

theorem getElem?_scatter_of_ne {writes : List (Nat × α)} {l : List α} {i : Nat} (h : ∀ w ∈ writes, w.1 ≠ i) :
    (scatter writes l)[i]? = l[i]? := by
  induction writes generalizing l with
  | nil => rfl
  | cons w ws ih =>
    refine (ih fun w' hw' => h w' (List.mem_cons_of_mem _ hw')).trans ?_
    exact List.getElem?_set_ne (h w List.mem_cons_self)

theorem getElem?_scatter {writes : List (Nat × α)} {l : List α} {i : Nat} {v : α} (hi : i < l.length)
    (hm : (i, v) ∈ writes) (h : ∀ w ∈ writes, w.1 = i → w.2 = v) : (scatter writes l)[i]? = some v := by
  induction writes generalizing l with
  | nil => cases hm
  | cons w ws ih =>
    have hws : ∀ w' ∈ ws, w'.1 = i → w'.2 = v := fun w' hw' => h w' (List.mem_cons_of_mem _ hw')
    rw [scatter, List.foldl_cons]
    by_cases hlater : (i, v) ∈ ws
    · exact ih (by simpa using hi) hlater hws
    · -- the value is written by the first one, and not overwritten
      have hw : (i, v) = w := (List.mem_cons.mp hm).resolve_right hlater
      subst hw
      refine (getElem?_scatter_of_ne ?_).trans (by simp [hi])
      intro w' hw' he
      exact hlater (by rw [← he, ← hws w' hw' he]; exact hw')

/-- Groups are finished in any order. -/
structure Order (α : Type) where
  run : List α → List α
  perm : ∀ l, (run l).Perm l

namespace Order

variable (o : Order α) {l : List α} {a : α}

@[simp]
theorem mem_run : a ∈ o.run l ↔ a ∈ l := (o.perm l).mem_iff

def asListed : Order α := ⟨id, fun _ => .refl _⟩

def reversed : Order α := ⟨List.reverse, List.reverse_perm⟩

end Order

/-! ## Failing work -/

theorem mapM_ok {f : α → Except ε β} {l : List α} {r : List β} (h : l.mapM f = .ok r) :
    (∀ a ∈ l, ∃ b ∈ r, f a = .ok b) ∧ ∀ b ∈ r, ∃ a ∈ l, f a = .ok b := by
  induction l generalizing r with
  | nil =>
    cases h
    simp
  | cons a as ih =>
    rw [List.mapM_cons] at h
    obtain ⟨b, hb, h⟩ := bind_eq_ok.mp h
    obtain ⟨bs, hbs, h⟩ := bind_eq_ok.mp h
    cases h
    obtain ⟨h1, h2⟩ := ih hbs
    constructor
    · intro x hx
      rcases List.mem_cons.mp hx with rfl | hx
      · exact ⟨b, List.mem_cons_self, hb⟩
      · obtain ⟨y, hy, hf⟩ := h1 x hx
        exact ⟨y, List.mem_cons_of_mem _ hy, hf⟩
    · intro y hy
      rcases List.mem_cons.mp hy with rfl | hy
      · exact ⟨a, List.mem_cons_self, hb⟩
      · obtain ⟨x, hx, hf⟩ := h2 y hy
        exact ⟨x, List.mem_cons_of_mem _ hx, hf⟩

theorem mapM_complete {f : α → Except ε β} {l : List α} (h : ∀ a ∈ l, ∃ b, f a = .ok b) : ∃ r, l.mapM f = .ok r := by
  induction l with
  | nil => exact ⟨[], rfl⟩
  | cons a as ih =>
    obtain ⟨b, hb⟩ := h a List.mem_cons_self
    obtain ⟨bs, hbs⟩ := ih fun x hx => h x (List.mem_cons_of_mem _ hx)
    exact ⟨b :: bs, by rw [List.mapM_cons, hb, hbs]; rfl⟩

/-- The items for which there is something to do. -/
def collect (g : α × Nat → Except ε (Option β)) (l : List α) : Except ε (List β) := do
  let found ← l.zipIdx.mapM g
  return found.reduceOption

section Collect

variable {g : α × Nat → Except ε (Option β)} {l : List α} {found : List β}

theorem collect_ok (h : collect g l = .ok found) :
    (∀ i a, l[i]? = some a → ∃ o, g (a, i) = .ok o ∧ ∀ b ∈ o, b ∈ found) ∧
      ∀ b ∈ found, ∃ i a, l[i]? = some a ∧ g (a, i) = .ok (some b) := by
  obtain ⟨r, hr, h⟩ := bind_eq_ok.mp h
  cases h
  obtain ⟨h1, h2⟩ := mapM_ok hr
  constructor
  · intro i a hi
    obtain ⟨o, ho, hg⟩ := h1 (a, i) (List.mem_zipIdx_iff_getElem?.mpr hi)
    exact ⟨o, hg, fun b hb => List.reduceOption_mem_iff.mpr (hb ▸ ho)⟩
  · intro b hb
    obtain ⟨⟨a, i⟩, hm, hg⟩ := h2 _ (List.reduceOption_mem_iff.mp hb)
    exact ⟨i, a, List.mem_zipIdx_iff_getElem?.mp hm, hg⟩

theorem collect_complete (h : ∀ i a, l[i]? = some a → ∃ o, g (a, i) = .ok o) : ∃ found, collect g l = .ok found := by
  have hall : ∀ x ∈ l.zipIdx, ∃ o, g x = .ok o := by
    rintro ⟨a, i⟩ hx
    exact h i a (List.mem_zipIdx_iff_getElem?.mp hx)
  obtain ⟨r, hr⟩ := mapM_complete hall
  exact ⟨r.reduceOption, by rw [collect, hr]; rfl⟩

theorem nodup_collect {idx : β → Nat} (hidx : ∀ a i b, g (a, i) = .ok (some b) → idx b = i)
    (h : collect g l = .ok found) :
    (found.map idx).Nodup := by
  have hsub : ∀ {xs : List (α × Nat)} {r : List (Option β)}, xs.mapM g = .ok r →
      (r.reduceOption.map idx).Sublist (xs.map Prod.snd) := by
    intro xs
    induction xs with
    | nil =>
      intro r hr
      cases hr
      exact .refl _
    | cons x xs ih =>
      intro r hr
      rw [List.mapM_cons] at hr
      obtain ⟨o, ho, hr⟩ := bind_eq_ok.mp hr
      obtain ⟨os, hos, hr⟩ := bind_eq_ok.mp hr
      cases hr
      cases o with
      | none => exact (ih hos).trans (List.sublist_cons_self _ _)
      | some b =>
        obtain ⟨a, i⟩ := x
        rw [List.reduceOption_cons_of_some, List.map_cons, hidx a i b ho]
        exact (ih hos).cons_cons i
  obtain ⟨r, hr, h⟩ := bind_eq_ok.mp h
  cases h
  refine (hsub hr).nodup ?_
  rw [List.zipIdx_map_snd]
  exact List.nodup_range'

end Collect

theorem mem_zip_map {f : α → β} {xs : List α} {x : α} {b : β} (h : (x, b) ∈ xs.zip (xs.map f)) : b = f x := by
  induction xs with
  | nil => cases h
  | cons y ys ih =>
    rcases List.mem_cons.mp h with h | h
    · cases h
      rfl
    · exact ih h

/-! ## Groups -/

variable [DecidableEq κ]

def groupBy (key : ι → κ) (items : List ι) : List (κ × List ι) :=
  (items.map key).dedup.map fun k => (k, items.filter (key · = k))

theorem mem_groupBy {key : ι → κ} {items : List ι} {k : κ} {xs : List ι} :
    (k, xs) ∈ groupBy key items ↔ (∃ x ∈ items, key x = k) ∧ xs = items.filter (key · = k) := by
  simp only [groupBy, List.mem_map, List.mem_dedup, Prod.mk.injEq]
  constructor
  · rintro ⟨k', hk, rfl, rfl⟩
    exact ⟨hk, rfl⟩
  · rintro ⟨hk, rfl⟩
    exact ⟨k, hk, rfl, rfl⟩

/-- One call for a group, with one result for each item. -/
structure Work (ι κ β γ ε : Type) where
  call : κ → List ι → Except ε (List β)
  /-- The error for a wrong number of results. -/
  contract : κ → (requested returned : Nat) → ε
  finish : κ → ι → β → Except ε γ

namespace Work

variable (w : Work ι κ β γ ε)

def finishItem (k : κ) (x : ι × β) : Except ε (ι × γ) := do
  let c ← w.finish k x.1 x.2
  return (x.1, c)

/-- A call, checked for the number of its results. -/
def runGroup (g : κ × List ι) : Except ε (List (ι × γ)) := do
  let out ← w.call g.1 g.2
  if out.length = g.2.length then (g.2.zip out).mapM (w.finishItem g.1)
  else throw (w.contract g.1 g.2.length out.length)

def runAll (order : Order (κ × List ι)) (key : ι → κ) (items : List ι) : Except ε (List (ι × γ)) := do
  let results ← (order.run (groupBy key items)).mapM w.runGroup
  return results.flatten

def groupOf (key : ι → κ) (items : List ι) (x : ι) : List ι := items.filter (key · = key x)

/-- The call for the item's group gives `b` in its place, finished as `c`. -/
def Gives (key : ι → κ) (items : List ι) (x : ι) (c : γ) : Prop :=
  ∃ out b, w.call (key x) (groupOf key items x) = .ok out ∧ out.length = (groupOf key items x).length ∧
    (x, b) ∈ (groupOf key items x).zip out ∧ w.finish (key x) x b = .ok c

variable {w} {key : ι → κ} {items : List ι}

omit [DecidableEq κ] in
theorem finishItem_eq_ok {k : κ} {x y : ι} {b : β} {c : γ} :
    w.finishItem k (x, b) = .ok (y, c) ↔ x = y ∧ w.finish k x b = .ok c := by
  rw [finishItem, bind_eq_ok]
  constructor
  · rintro ⟨c', hc, h⟩
    cases h
    exact ⟨rfl, hc⟩
  · rintro ⟨rfl, hc⟩
    exact ⟨c, hc, rfl⟩

omit [DecidableEq κ] in
theorem runGroup_ok {g : κ × List ι} {r : List (ι × γ)} (h : w.runGroup g = .ok r) :
    ∃ out, w.call g.1 g.2 = .ok out ∧ out.length = g.2.length ∧ (g.2.zip out).mapM (w.finishItem g.1) = .ok r := by
  obtain ⟨out, hout, h⟩ := bind_eq_ok.mp h
  split at h
  · next hl => exact ⟨out, hout, hl, h⟩
  · cases h

omit [DecidableEq κ] in
theorem runGroup_spec {k : κ} {xs : List ι} {r : List (ι × γ)} (h : w.runGroup (k, xs) = .ok r) :
    ∃ out, w.call k xs = .ok out ∧ out.length = xs.length ∧ (∀ x ∈ xs, ∃ c, (x, c) ∈ r) ∧
      ∀ x c, (x, c) ∈ r → x ∈ xs ∧ ∃ b, (x, b) ∈ xs.zip out ∧ w.finish k x b = .ok c := by
  obtain ⟨out, hout, hl, hr⟩ := runGroup_ok h
  obtain ⟨h1, h2⟩ := mapM_ok hr
  refine ⟨out, hout, hl, ?_, ?_⟩
  · intro x hx
    have hx' : x ∈ (xs.zip out).map Prod.fst := by
      rw [List.map_fst_zip (Nat.le_of_eq hl.symm)]
      exact hx
    obtain ⟨⟨y, b⟩, hyb, rfl⟩ := List.mem_map.mp hx'
    obtain ⟨⟨z, c⟩, hz, hf⟩ := h1 _ hyb
    obtain ⟨rfl, -⟩ := finishItem_eq_ok.mp hf
    exact ⟨c, hz⟩
  · intro x c hxc
    obtain ⟨⟨y, b⟩, hyb, hf⟩ := h2 _ hxc
    obtain ⟨rfl, hc⟩ := finishItem_eq_ok.mp hf
    exact ⟨(List.of_mem_zip hyb).1, b, hyb, hc⟩

/-- **The results, whatever the order.** -/
theorem runAll_ok {order : Order (κ × List ι)} {r : List (ι × γ)} (h : w.runAll order key items = .ok r) :
    (∀ x ∈ items, ∃ c, (x, c) ∈ r) ∧ ∀ x c, (x, c) ∈ r → x ∈ items ∧ w.Gives key items x c := by
  obtain ⟨results, hr, h⟩ := bind_eq_ok.mp h
  cases h
  obtain ⟨h1, h2⟩ := mapM_ok hr
  constructor
  · intro x hx
    have hg : (key x, groupOf key items x) ∈ groupBy key items := mem_groupBy.mpr ⟨⟨x, hx, rfl⟩, rfl⟩
    obtain ⟨rs, hrs, hrun⟩ := h1 _ ((order.mem_run).mpr hg)
    obtain ⟨out, -, -, hall, -⟩ := runGroup_spec hrun
    obtain ⟨c, hc⟩ := hall x (by simp [groupOf, hx])
    exact ⟨c, List.mem_flatten.mpr ⟨rs, hrs, hc⟩⟩
  · intro x c hxc
    obtain ⟨rs, hrs, hc⟩ := List.mem_flatten.mp hxc
    obtain ⟨⟨k, xs⟩, hg, hrun⟩ := h2 rs hrs
    obtain ⟨-, rfl⟩ := mem_groupBy.mp ((order.mem_run).mp hg)
    obtain ⟨out, hout, hl, -, hall⟩ := runGroup_spec hrun
    obtain ⟨hx, b, hb, hf⟩ := hall x c hc
    obtain ⟨hmem, hk⟩ := List.mem_filter.mp hx
    obtain rfl : key x = k := of_decide_eq_true hk
    exact ⟨hmem, out, b, hout, hl, hb, hf⟩

omit [DecidableEq κ] in
theorem zip_unique {xs : List ι} {out : List β} (hn : xs.Nodup) {x : ι} {b b' : β} (h : (x, b) ∈ xs.zip out)
    (h' : (x, b') ∈ xs.zip out) : b = b' := by
  obtain ⟨i, hi⟩ := List.mem_iff_getElem?.mp h
  obtain ⟨j, hj⟩ := List.mem_iff_getElem?.mp h'
  obtain ⟨hxi, hbi⟩ := List.getElem?_zip_eq_some.mp hi
  obtain ⟨hxj, hbj⟩ := List.getElem?_zip_eq_some.mp hj
  have hlt := (List.getElem?_eq_some_iff.mp hxi).1
  obtain rfl : i = j := (List.getElem?_inj hlt hn).mp (hxi.trans hxj.symm)
  exact Option.some.inj (hbi.symm.trans hbj)

/-- An item has one result. -/
theorem Gives.unique (hn : items.Nodup) {x : ι} {c c' : γ} (h : w.Gives key items x c) (h' : w.Gives key items x c') :
    c = c' := by
  obtain ⟨out, b, hout, -, hb, hc⟩ := h
  obtain ⟨out', b', hout', -, hb', hc'⟩ := h'
  rw [hout] at hout'
  cases hout'
  obtain rfl := zip_unique (hn.filter _) hb hb'
  exact Except.ok.inj (hc.symm.trans hc')

/-- **The results are in the places of their items**, and other places are as before. -/
theorem getElem?_runAll {order : Order (κ × List ι)} {r : List (ι × γ)} (h : w.runAll order key items = .ok r)
    {idx : ι → Nat} (hn : (items.map idx).Nodup) (l : List γ) :
    (∀ x ∈ items, idx x < l.length → ∃ c, w.Gives key items x c ∧
        (scatter (r.map fun y => (idx y.1, y.2)) l)[idx x]? = some c) ∧
      ∀ i, (∀ x ∈ items, idx x ≠ i) → (scatter (r.map fun y => (idx y.1, y.2)) l)[i]? = l[i]? := by
  obtain ⟨h1, h2⟩ := runAll_ok h
  have hinj : ∀ x ∈ items, ∀ y ∈ items, idx x = idx y → x = y := List.inj_on_of_nodup_map hn
  constructor
  · intro x hx hlt
    obtain ⟨c, hc⟩ := h1 x hx
    have hg := (h2 x c hc).2
    refine ⟨c, hg, getElem?_scatter hlt (List.mem_map.mpr ⟨(x, c), hc, rfl⟩) ?_⟩
    intro v hv he
    obtain ⟨⟨y, c'⟩, hy, rfl⟩ := List.mem_map.mp hv
    obtain ⟨hym, hyg⟩ := h2 y c' hy
    obtain rfl := hinj y hym x hx he
    exact hyg.unique (.of_map _ hn) hg
  · intro i hi
    refine getElem?_scatter_of_ne ?_
    intro v hv
    obtain ⟨⟨y, c⟩, hy, rfl⟩ := List.mem_map.mp hv
    exact hi y (h2 y c hy).1

/-- Everything succeeds if every call gives enough results that can be finished. -/
theorem runAll_complete (order : Order (κ × List ι))
    (h : ∀ x ∈ items, ∃ out, w.call (key x) (groupOf key items x) = .ok out ∧
      out.length = (groupOf key items x).length ∧
      ∀ y b, (y, b) ∈ (groupOf key items x).zip out → ∃ c, w.finish (key x) y b = .ok c) :
    ∃ r, w.runAll order key items = .ok r := by
  have hgroups : ∀ g ∈ order.run (groupBy key items), ∃ r, w.runGroup g = .ok r := by
    rintro ⟨k, xs⟩ hg
    obtain ⟨⟨x, hx, rfl⟩, rfl⟩ := mem_groupBy.mp ((order.mem_run).mp hg)
    obtain ⟨out, hout, hl, hfin⟩ := h x hx
    have hmap : ∀ z ∈ (groupOf key items x).zip out, ∃ y, w.finishItem (key x) z = .ok y := by
      rintro ⟨y, b⟩ hyb
      obtain ⟨c, hc⟩ := hfin y b hyb
      exact ⟨(y, c), finishItem_eq_ok.mpr ⟨rfl, hc⟩⟩
    obtain ⟨r, hr⟩ := mapM_complete hmap
    refine ⟨r, ?_⟩
    rw [runGroup, show w.call (key x, items.filter (key · = key x)).1 (key x, items.filter (key · = key x)).2 = .ok out
      from hout]
    exact (if_pos hl).trans hr
  obtain ⟨rs, hrs⟩ := mapM_complete hgroups
  exact ⟨rs.flatten, by rw [runAll, hrs]; rfl⟩

end Work

end SdkCore.Batches
