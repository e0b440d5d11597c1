import SdkCore.Lib.Reach

/-!
# Permits for slots

For workflow tasks a dealer waits until fewer permits are out than its cap, then asks the supplier for a slot, and
counts the permit when it has the slot. In between nothing says that a permit is on its way, so several tasks may pass
the check for the last one (`cap_exceeded`, `extant_le_max`).
-/

namespace SdkCore.MeteredPermitDealer

abbrev TaskId := Nat

structure Permit where
  owner : TaskId
  used : Bool
  deriving DecidableEq

/-- The counters, and who is where. -/
structure Dealer where
  extantPermits : Nat
  unusedClaimants : Nat
  /-- The tasks in `acquire_owned` that wait until fewer permits are out. -/
  waiting : List TaskId
  /-- The tasks that have passed the check and ask the supplier. -/
  reserving : List TaskId
  permits : List Permit
  deriving DecidableEq

def new : Dealer := ⟨0, 0, [], [], []⟩

inductive Input
  | acquireOwned (t : TaskId)
  /-- A task that waits finds fewer permits out than the cap. -/
  | checked (t : TaskId)
  | tryAcquireOwned (t : TaskId)
  | granted (t : TaskId)
  /-- The supplier has no slot now, or the task stops waiting for one. -/
  | refused (t : TaskId)
  | abandoned (t : TaskId)
  | intoUsed (p : Permit)
  | dropped (p : Permit)
  deriving DecidableEq

def buildOwned (s : Dealer) (t : TaskId) : Dealer :=
  { s with
    extantPermits := s.extantPermits + 1
    unusedClaimants := s.unusedClaimants + 1
    reserving := s.reserving.erase t
    permits := s.permits ++ [⟨t, false⟩] }

def dropPermit (s : Dealer) (p : Permit) : Dealer :=
  { s with
    extantPermits := s.extantPermits - 1
    unusedClaimants := if p.used then s.unusedClaimants else s.unusedClaimants - 1
    permits := s.permits.erase p }

def usePermit (s : Dealer) (p : Permit) : Dealer :=
  { s with
    unusedClaimants := s.unusedClaimants - 1
    permits := s.permits.erase p ++ [⟨p.owner, true⟩] }

def belowMax (maxPermits : Option Nat) (s : Dealer) : Bool :=
  match maxPermits with
  | some max => decide (s.extantPermits < max)
  | none => true

def step (maxPermits : Option Nat) (s : Dealer) : Input → Option Dealer
  | .acquireOwned t => some { s with waiting := s.waiting ++ [t] }
  | .checked t =>
    if t ∈ s.waiting ∧ belowMax maxPermits s = true then
      some { s with waiting := s.waiting.erase t, reserving := s.reserving ++ [t] }
    else none
  | .tryAcquireOwned t => some (if belowMax maxPermits s then { s with reserving := s.reserving ++ [t] } else s)
  | .granted t => if t ∈ s.reserving then some (buildOwned s t) else none
  | .refused t => if t ∈ s.reserving then some { s with reserving := s.reserving.erase t } else none
  | .abandoned t => if t ∈ s.waiting then some { s with waiting := s.waiting.erase t } else none
  | .intoUsed p => if p ∈ s.permits ∧ p.used = false then some (usePermit s p) else none
  | .dropped p => if p ∈ s.permits then some (dropPermit s p) else none

abbrev Reachable (maxPermits : Option Nat) (ok : Dealer → Input → Prop) : Dealer → Prop :=
  Reach (fun s i s' => step maxPermits s i = some s') ok (· = new)

section

variable {maxPermits : Option Nat} {ok : Dealer → Input → Prop} {s s' : Dealer} {i : Input}

/-- The permits that are out, and those of them that are not used yet. -/
structure Counts (s : Dealer) : Prop where
  extant : s.extantPermits = s.permits.length
  unused : s.unusedClaimants = s.permits.countP (!·.used)

theorem Counts.split {p : Permit} (h : Counts s) (hp : p ∈ s.permits) :
    s.extantPermits = (s.permits.erase p).length + 1 ∧
      s.unusedClaimants = (s.permits.erase p).countP (!·.used) + if p.used then 0 else 1 := by
  have hperm := List.perm_cons_erase hp
  refine ⟨by rw [h.extant, hperm.length_eq, List.length_cons], ?_⟩
  rw [h.unused, hperm.countP_eq, List.countP_cons]
  cases p.used <;> rfl

theorem counts_step (h : Counts s) (hs : step maxPermits s i = some s') : Counts s' := by
  obtain ⟨he, hu⟩ := h
  cases i with
  | acquireOwned t =>
    cases hs
    exact ⟨he, hu⟩
  | checked | refused | abandoned =>
    obtain ⟨-, hs⟩ := Option.ite_none_right_eq_some.mp hs
    cases hs
    exact ⟨he, hu⟩
  | tryAcquireOwned t =>
    cases hs
    split <;> exact ⟨he, hu⟩
  | granted t =>
    obtain ⟨-, hs⟩ := Option.ite_none_right_eq_some.mp hs
    cases hs
    exact ⟨by simp [buildOwned, he], by simp [buildOwned, hu]⟩
  | intoUsed p =>
    obtain ⟨⟨hp, hn⟩, hs⟩ := Option.ite_none_right_eq_some.mp hs
    cases hs
    obtain ⟨he', hu'⟩ := Counts.split ⟨he, hu⟩ hp
    exact ⟨by simp [usePermit, he'], by simp [usePermit, hu', hn]⟩
  | dropped p =>
    obtain ⟨hp, hs⟩ := Option.ite_none_right_eq_some.mp hs
    cases hs
    obtain ⟨he', hu'⟩ := Counts.split ⟨he, hu⟩ hp
    refine ⟨by simp [dropPermit, he'], ?_⟩
    simp only [dropPermit, hu']
    cases p.used <;> simp

end

/-! ## The cap -/

section

variable {m : Nat} {s s' : Dealer} {i : Input}

/-- A task passes the check only while there is room for all who have passed it before. -/
def roomFor (m : Nat) (s : Dealer) : Input → Bool
  | .checked _ | .tryAcquireOwned _ => !belowMax (some m) s || decide (s.extantPermits + s.reserving.length < m)
  | _ => true

/-- With room for all, the places booked stay within the cap. -/
theorem booked_step (h : s.extantPermits + s.reserving.length ≤ m) (hok : roomFor m s i = true)
    (hs : step (some m) s i = some s') : s'.extantPermits + s'.reserving.length ≤ m := by
  cases i with
  | acquireOwned t =>
    cases hs
    exact h
  | checked t =>
    obtain ⟨⟨-, hb⟩, hs⟩ := Option.ite_none_right_eq_some.mp hs
    cases hs
    have hroom : s.extantPermits + s.reserving.length < m := by simpa [roomFor, hb] using hok
    simp only [List.length_append, List.length_singleton]
    omega
  | tryAcquireOwned t =>
    cases hs
    split
    · next hb =>
      have hroom : s.extantPermits + s.reserving.length < m := by simpa [roomFor, hb] using hok
      simp only [List.length_append, List.length_singleton]
      omega
    · exact h
  | granted t =>
    obtain ⟨ht, hs⟩ := Option.ite_none_right_eq_some.mp hs
    cases hs
    have hlen := (List.perm_cons_erase ht).length_eq
    simp only [buildOwned, List.length_cons] at hlen ⊢
    omega
  | refused t =>
    obtain ⟨ht, hs⟩ := Option.ite_none_right_eq_some.mp hs
    cases hs
    have hlen := (List.perm_cons_erase ht).length_eq
    simp only [List.length_cons] at hlen ⊢
    omega
  | abandoned t | intoUsed p =>
    obtain ⟨-, hs⟩ := Option.ite_none_right_eq_some.mp hs
    cases hs
    exact h
  | dropped p =>
    obtain ⟨-, hs⟩ := Option.ite_none_right_eq_some.mp hs
    cases hs
    simp only [dropPermit]
    omega

/-- **If a task passes the check only while there is room for all who passed before, no more permits are out than the
cap says.** -/
theorem extant_le_max (h : Reachable (some m) (fun s i => roomFor m s i = true) s) :
    s.permits.length = s.extantPermits ∧ s.extantPermits ≤ m := by
  have hcounts : Counts s := h.invariant (fun _ hs => hs ▸ ⟨rfl, rfl⟩) fun _ _ _ hi _ hs => counts_step hi hs
  refine ⟨hcounts.extant.symm, ?_⟩
  have hb : s.extantPermits + s.reserving.length ≤ m := by
    refine h.invariant ?_ fun _ _ _ hi hok hs => booked_step hi hok hs
    rintro _ rfl
    exact Nat.zero_le m
  omega

end

theorem two_permits_in_turn :
    ∃ s, Reachable (some 2) (fun s i => roomFor 2 s i = true) s ∧ s.extantPermits = 2 ∧ s.extantPermits ≤ 2 := by
  obtain ⟨s, hs, he⟩ : ∃ s, Reachable (some 2) (fun s i => roomFor 2 s i = true) s ∧ s.extantPermits = 2 :=
    Reach.exists_of_trace
      [.acquireOwned 1, .checked 1, .granted 1, .acquireOwned 2, .checked 2, .granted 2, .tryAcquireOwned 3]
      (by decide) (fun _ _ _ h => h) (.start rfl)
  exact ⟨s, hs, he, (extant_le_max hs).2⟩

/-- All three pass the check before the first permit is counted. -/
theorem cap_exceeded : ∃ s, Reachable (some 2) (fun _ _ => True) s ∧ s.extantPermits = 3 :=
  Reach.exists_of_trace
    [.acquireOwned 1, .acquireOwned 2, .checked 1, .checked 2, .tryAcquireOwned 3, .granted 1, .granted 2, .granted 3]
    (by decide) (fun _ _ _ h => h) (.start rfl)

end SdkCore.MeteredPermitDealer
