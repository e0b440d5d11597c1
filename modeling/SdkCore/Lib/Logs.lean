import Mathlib.Data.List.Basic

/-!
# Logs

A log holds what happened, the newest entry first.
-/

namespace SdkCore

variable {ε : Type}

/-- Every entry meets `P` with those before it. -/
def Each (P : List ε → ε → Prop) : List ε → Prop
  | [] => True
  | e :: before => P before e ∧ Each P before

theorem each_iff {P : List ε → ε → Prop} {log : List ε} :
    Each P log ↔ ∀ after e before, log = after ++ e :: before → P before e := by
  induction log with
  | nil => simp [Each]
  | cons x xs ih =>
    rw [Each, ih]
    constructor
    · rintro ⟨hx, hxs⟩ after e before h
      cases after with
      | nil =>
        cases h
        exact hx
      | cons y ys =>
        cases h
        exact hxs ys e before rfl
    · intro h
      exact ⟨h [] x xs rfl, fun after e before hxs => h (x :: after) e before (by rw [hxs]; rfl)⟩

theorem Each.append {P : List ε → ε → Prop} {new log : List ε} (h : Each P log)
    (hnew : ∀ e ∈ new, ∀ before, P before e) :
    Each P (new ++ log) := by
  induction new with
  | nil => exact h
  | cons e new ih =>
    exact ⟨hnew e List.mem_cons_self _, ih fun e' he' => hnew e' (List.mem_cons_of_mem _ he')⟩

/-- What is opened is closed later. -/
def Paired (opens closes : ε → Prop) (log : List ε) : Prop :=
  ∀ after e before, log = after ++ e :: before → opens e → ∃ c ∈ after, closes c

namespace Paired

variable {opens closes : ε → Prop} {e : ε} {log : List ε}

theorem nil : Paired opens closes [] := by
  intro after e before h
  simp at h

theorem cons (he : ¬ opens e) (h : Paired opens closes log) : Paired opens closes (e :: log) := by
  intro after x before hl hx
  cases after with
  | nil =>
    cases hl
    exact absurd hx he
  | cons y ys =>
    cases hl
    obtain ⟨c, hc, hcl⟩ := h ys x before rfl hx
    exact ⟨c, List.mem_cons_of_mem _ hc, hcl⟩

theorem append {new : List ε} (h : Paired opens closes log) (hnew : ∀ e ∈ new, ¬ opens e) :
    Paired opens closes (new ++ log) := by
  induction new with
  | nil => exact h
  | cons e new ih => exact cons (hnew e List.mem_cons_self) (ih fun e' he' => hnew e' (List.mem_cons_of_mem _ he'))

theorem close (he : ¬ opens e) (hc : closes e) : Paired opens closes (e :: log) := by
  intro after x before hl hx
  cases after with
  | nil =>
    cases hl
    exact absurd hx he
  | cons y ys =>
    cases hl
    exact ⟨e, List.mem_cons_self, hc⟩

end Paired

end SdkCore
