import Mathlib.Data.List.Basic

/-!
# Reachable states

`Reach step ok init` are the states reached from `init` by inputs that `ok` admits. An invariant is proved for one step
(`Reach.invariant`), and a computed run is reached (`Reach.exists_of_trace`).
-/

namespace SdkCore

variable {σ ι : Type}

/-- The states reached from `init` by steps that `ok` admits. -/
inductive Reach (step : σ → ι → σ → Prop) (ok : σ → ι → Prop) (init : σ → Prop) : σ → Prop
  | start {s : σ} (h : init s) : Reach step ok init s
  | step {s s' : σ} {i : ι} (h : Reach step ok init s) (hi : ok s i) (hs : step s i s') : Reach step ok init s'

variable {step : σ → ι → σ → Prop} {ok : σ → ι → Prop} {init : σ → Prop}

/-- What holds at the start and is kept by every step always holds. -/
theorem Reach.invariant {I : σ → Prop} (hinit : ∀ s, init s → I s)
    (hstep : ∀ s i s', I s → ok s i → step s i s' → I s') {s : σ} (h : Reach step ok init s) : I s := by
  induction h with
  | start h => exact hinit _ h
  | step _ hi hs ih => exact hstep _ _ _ ih hi hs

/-- Run `f` as long as `ok` admits the inputs. -/
def trace (f : σ → ι → Option σ) (ok : σ → ι → Bool) : List ι → σ → Option σ
  | [], s => some s
  | i :: is, s => if ok s i then (f s i).bind (trace f ok is) else none

/-- A computed run is a run. -/
theorem Reach.of_trace {f : σ → ι → Option σ} {okb : σ → ι → Bool} (hf : ∀ s i s', f s i = some s' → step s i s')
    (hok : ∀ s i, okb s i = true → ok s i) :
    ∀ {is : List ι} {s s' : σ}, Reach step ok init s → trace f okb is s = some s' → Reach step ok init s'
  | [], s, s', h, ht => by
    cases ht
    exact h
  | i :: is, s, s', h, ht => by
    unfold trace at ht
    split at ht
    · next hi =>
      obtain ⟨t, hst, ht⟩ := Option.bind_eq_some_iff.mp ht
      exact Reach.of_trace hf hok (.step h (hok s i hi) (hf s i t hst)) ht
    · cases ht

/-- A state with `P` is reached by computation. -/
theorem Reach.exists_of_trace {P : σ → Prop} [DecidablePred P] [∀ s i, Decidable (ok s i)] {f : σ → ι → Option σ}
    (is : List ι) {s : σ} (ht : (trace f (fun s i => decide (ok s i)) is s).any (fun s => decide (P s)) = true)
    (hf : ∀ s i s', f s i = some s' → step s i s') (h : Reach step ok init s) : ∃ s', Reach step ok init s' ∧ P s' := by
  obtain ⟨s', hs, hp⟩ := Option.any_eq_true _ _ |>.mp ht
  exact ⟨s', .of_trace hf (fun _ _ hi => of_decide_eq_true hi) h hs, of_decide_eq_true hp⟩

end SdkCore
