import Mathlib.Data.List.Basic

/-!
# Machines that are fed inputs

A machine takes an input and gives outputs, or rejects it. The inputs come from an environment with a state (`follows`).
The outputs are right exactly for inputs that the machine is up to (`feed_of_avoids`, `avoids_of_feed`).
-/

namespace SdkCore

variable {σ ι ο ε κ : Type} {α : Type} {x : Except ε α} {a : α} {s u : σ} {i : ι} {is : List ι} {P : List ο → Prop}

theorem bind_eq_ok {β : Type} {g : α → Except ε β} {b : β} : x >>= g = .ok b ↔ ∃ a, x = .ok a ∧ g a = .ok b := by
  cases x with
  | error e => exact ⟨fun h => (nomatch h), fun ⟨_, h, _⟩ => (nomatch h)⟩
  | ok a =>
    constructor
    · exact fun h => ⟨a, rfl, h⟩
    · rintro ⟨_, h, hb⟩
      cases h
      exact hb

theorem mapError_eq_ok {ε' : Type} {g : ε → ε'} : x.mapError g = .ok a ↔ x = .ok a := by
  cases x <;> simp [Except.mapError]

theorem ite_error_eq_ok {c : Prop} [Decidable c] {e : ε} : (if c then .error e else x) = .ok a ↔ ¬ c ∧ x = .ok a := by
  split <;> simp [*]

/-- Give a machine its inputs. -/
def feed (f : σ → ι → Except ε (List ο × σ)) : σ → List ι → Except ε (List ο × σ)
  | s, [] => .ok ([], s)
  | s, i :: is =>
    match f s i with
    | .error e => .error e
    | .ok (o, t) =>
      match feed f t is with
      | .error e => .error e
      | .ok (os, u) => .ok (o ++ os, u)

/-- The environment can send these inputs. -/
def follows (next : κ → ι → Option κ) : κ → List ι → Bool
  | _, [] => true
  | k, i :: is =>
    match next k i with
    | none => false
    | some k' => follows next k' is

def avoids (next : κ → ι → Option κ) (wrong : κ → ι → Bool) : κ → List ι → Bool
  | _, [] => true
  | k, i :: is =>
    !wrong k i &&
      match next k i with
      | none => true
      | some k' => avoids next wrong k' is

variable {f : σ → ι → Except ε (List ο × σ)} {next : κ → ι → Option κ} {wrong : κ → ι → Bool}

theorem feed_cons_ok {out : List ο} :
    feed f s (i :: is) = .ok (out, u) ↔
      ∃ o t os, f s i = .ok (o, t) ∧ feed f t is = .ok (os, u) ∧ out = o ++ os := by
  constructor
  · intro h
    rw [feed] at h
    split at h
    · cases h
    · next o t ho =>
      split at h
      · cases h
      · next os v hos =>
        cases h
        exact ⟨o, t, os, ho, hos, rfl⟩
  · rintro ⟨o, t, os, ho, hos, rfl⟩
    simp only [feed, ho, hos]

theorem feed_cons {t : σ} {o os : List ο} (h : f s i = .ok (o, t)) (hs : feed f t is = .ok (os, u)) :
    feed f s (i :: is) = .ok (o ++ os, u) :=
  feed_cons_ok.mpr ⟨o, t, os, h, hs, rfl⟩

/-- What every step keeps holds after all inputs. -/
theorem feed_induction {R : List ι → σ → Prop} {p : ι → Prop}
    (hstep : ∀ before s i o t, R before s → p i → f s i = .ok (o, t) → R (before ++ [i]) t) :
    ∀ (is before : List ι) (s t : σ) (out : List ο), R before s → (∀ i ∈ is, p i) → feed f s is = .ok (out, t) →
      R (before ++ is) t
  | [], before, s, t, out, h, _, hf => by
    cases hf
    rwa [List.append_nil]
  | i :: is, before, s, u, out, h, hp, hf => by
    obtain ⟨o, t, os, ho, hos, -⟩ := feed_cons_ok.mp hf
    rw [List.append_cons]
    exact feed_induction hstep is (before ++ [i]) t u os (hstep before s i o t h (hp i List.mem_cons_self) ho)
      (fun j hj => hp j (List.mem_cons_of_mem _ hj)) hos

theorem follows_iff : ∀ {is : List ι} {k : κ}, follows next k is = true ↔ ∃ k', is.foldlM next k = some k'
  | [], k => by simp [follows]
  | i :: is, k => by
    rw [follows, List.foldlM_cons]
    cases hk : next k i with
    | none => simp
    | some k' => exact follows_iff

/-- The input is accepted and the relation is kept. -/
def Advances (f : σ → ι → Except ε (List ο × σ)) (R : σ → List ο → Prop) (s : σ) (i : ι) (out : List ο) : Prop :=
  ∃ o t, f s i = .ok (o, t) ∧ R t (out ++ o)

variable {R : κ → σ → List ο → Prop}

/-- Inputs that the machine is up to are accepted. -/
theorem feed_of_avoids
    (hstep : ∀ k k' s out i, R k s out → next k i = some k' → wrong k i = false → Advances f (R k') s i out) :
    ∀ (is : List ι) (k k' : κ) (s : σ) (out : List ο), R k s out → is.foldlM next k = some k' →
      avoids next wrong k is = true → Advances (feed f) (R k') s is out
  | [], k, k', s, out, h, hk, _ => by
    cases hk
    exact ⟨[], s, rfl, by simpa using h⟩
  | i :: is, k, k'', s, out, h, hk, ha => by
    rw [List.foldlM_cons] at hk
    obtain ⟨k', hi, hk⟩ := Option.bind_eq_some_iff.mp hk
    simp only [avoids, hi, Bool.and_eq_true, Bool.not_eq_true'] at ha
    obtain ⟨o, t, ho, ht⟩ := hstep k k' s out i h hi ha.1
    obtain ⟨os, u, hos, hu⟩ := feed_of_avoids hstep is k' k'' t (out ++ o) ht hk ha.2
    exact ⟨o ++ os, u, feed_cons ho hos, by rwa [← List.append_assoc]⟩

/-- Outputs are right only if the machine is up to all inputs. -/
theorem avoids_of_feed (hP : ∀ a b, P (a ++ b) → P a)
    (hstep : ∀ k k' s out i, R k s out → next k i = some k' → wrong k i = false → Advances f (R k') s i out)
    (hwrong : ∀ k k' s out i, R k s out → next k i = some k' → wrong k i = true →
      ∀ o t, f s i = .ok (o, t) → ¬ P (out ++ o)) :
    ∀ (is : List ι) (k : κ) (s u : σ) (out os : List ο), R k s out → follows next k is = true →
      feed f s is = .ok (os, u) → P (out ++ os) → avoids next wrong k is = true
  | [], _, _, _, _, _, _, _, _, _ => rfl
  | i :: is, k, s, u, out, os, h, hf, hfeed, hp => by
    obtain ⟨o, t, os, ho, hos, rfl⟩ := feed_cons_ok.mp hfeed
    unfold follows at hf
    split at hf
    · cases hf
    next k' hk =>
    rw [← List.append_assoc] at hp
    cases hw : wrong k i with
    | true => exact absurd (hP _ _ hp) (hwrong k k' s out i h hk hw o t ho)
    | false =>
      obtain ⟨o', t', ho', ht⟩ := hstep k k' s out i h hk hw
      cases ho.symm.trans ho'
      simp only [avoids, hw, hk, Bool.not_false, Bool.true_and]
      exact avoids_of_feed hP hstep hwrong is k' t u (out ++ o) os ht hf hos hp

end SdkCore
