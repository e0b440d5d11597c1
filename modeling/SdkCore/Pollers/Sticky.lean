import Mathlib.Logic.Function.Basic
import SdkCore.Lib.Wakeups

/-!
# Polling the sticky and the normal queue

Two pollers share the slots for workflow tasks. Before each poll they read four numbers, one after the other, and wait
for a change if they may not go on. They do not both wait while slots are left (`stuck_pollers`).
-/

namespace SdkCore.StickyPollerShared

/-- The numbers that the pollers share. -/
inductive Channel
  | stickyActive
  | stickyTarget
  | nonStickyActive
  | stickyBacklog
  deriving DecidableEq

/-- The channels in the order in which they are read. -/
def Channel.all : List Channel := [.stickyActive, .stickyTarget, .nonStickyActive, .stickyBacklog]

abbrev Channels := Channel → Watch Nat

/-- Whether a poller may go on, by the numbers it has read. -/
def allow (maxSlots : Nat) (isSticky : Bool) (c : Channels) : Bool :=
  let active := (c .stickyActive).value
  let target := (c .stickyTarget).value
  let nonSticky := (c .nonStickyActive).value
  let backlog := (c .stickyBacklog).value
  let stickyShouldBeChosen := 1 < backlog ∧ active < backlog ∧ active < target
  let balance := decide (active + nonSticky < maxSlots)
  if isSticky then
    if active = 0 then true
    else if target ≤ active then false
    else if nonSticky = 0 ∧ maxSlots ≤ active + 1 then false
    else if stickyShouldBeChosen then true
    else balance
  else if nonSticky = 0 then true
  else if active = 0 ∧ maxSlots ≤ nonSticky + 1 then false
  else if stickyShouldBeChosen then false
  else balance

/-- Where a poller is in `wait_if_needed`. -/
inductive Phase
  | reading (rest : List Channel)
  | waiting
  | returned

structure State where
  channels : Channels := fun _ => .channel 0
  seen : Bool → Channels := fun _ => channels
  phase : Bool → Phase := fun _ => .returned

inductive Input
  | send (c : Channel) (n : Nat)
  | poll (isSticky : Bool)

/-- A number is sent, or a poller goes on. -/
def step (maxSlots : Nat) (s : State) : Input → State
  | .send c n => { s with channels := Function.update s.channels c ((s.channels c).sendModify fun _ => n) }
  | .poll k =>
    let goes (phase : Phase) : State := { s with phase := Function.update s.phase k phase }
    match s.phase k with
    | .returned => goes (.reading Channel.all)
    | .reading (c :: rest) =>
      { goes (.reading rest) with seen := Function.update s.seen k (Function.update (s.seen k) c (s.channels c)) }
    | .reading [] => goes (if allow maxSlots k (s.seen k) then .returned else .waiting)
    | .waiting =>
      let changed := Channel.all.any fun c => (s.channels c).hasChanged (s.seen k c).version
      goes (if changed then .reading Channel.all else .waiting)

/-- The poller waits and does not find a change. -/
def Stuck (maxSlots : Nat) (s : State) (k : Bool) : Prop :=
  s.phase k = .waiting ∧ (step maxSlots s (.poll k)).phase k = .waiting

/-- What was read is current or was changed since, and who waits may not go on. -/
structure Inv (maxSlots : Nat) (s : State) : Prop where
  read : ∀ k c, s.seen k c = s.channels c ∨ (s.seen k c).version < (s.channels c).version
  denied : ∀ k, s.phase k = .waiting → allow maxSlots k (s.seen k) = false

variable {m : Nat} {s : State}

theorem Inv.send (h : Inv m s) (c : Channel) (n : Nat) : Inv m (step m s (.send c n)) := by
  refine ⟨fun k c' => ?_, h.denied⟩
  simp only [step]
  by_cases hc : c' = c
  · subst hc
    rw [Function.update_self, Watch.sendModify_version]
    rcases h.read k c' with hs | hs
    · exact .inr (by rw [hs]; exact Nat.lt_succ_self _)
    · exact .inr (Nat.lt_succ_of_lt hs)
  · rw [Function.update_of_ne hc]
    exact h.read k c'

/-- A poller waits only if it may not go on. -/
theorem Inv.goes {k : Bool} {p : Phase} (h : Inv m s) (hp : p = .waiting → allow m k (s.seen k) = false) :
    Inv m { s with phase := Function.update s.phase k p } := by
  refine ⟨h.read, fun k' hw => ?_⟩
  by_cases hk : k' = k
  · subst hk
    exact hp (by simpa using hw)
  · exact h.denied k' (by simpa [hk] using hw)

theorem Inv.sees {k : Bool} (h : Inv m s) (hk : s.phase k ≠ .waiting) (c : Channel) :
    Inv m { s with seen := Function.update s.seen k (Function.update (s.seen k) c (s.channels c)) } := by
  constructor
  · intro k' c'
    by_cases hk' : k' = k
    · subst hk'
      by_cases hc : c' = c
      · exact .inl (by simp [hc])
      · simpa [hc] using h.read k' c'
    · simpa [hk'] using h.read k' c'
  · intro k' hw
    have hne : k' ≠ k := fun he => hk (he ▸ hw)
    simpa [hne] using h.denied k' hw

theorem Inv.step (h : Inv m s) (i : Input) : Inv m (step m s i) := by
  cases i with
  | send c n => exact h.send c n
  | poll k =>
    rw [StickyPollerShared.step]
    split
    · exact h.goes nofun
    · next c rest hr => exact (h.goes (k := k) (p := .reading rest) nofun).sees (by simp) c
    · refine h.goes fun hp => ?_
      split at hp
      · cases hp
      · next ha => simpa using ha
    · next hw => exact h.goes fun _ => h.denied k hw

/-- Who is stuck has read the current numbers. -/
theorem Inv.seen_eq (h : Inv m s) {k : Bool} (hs : Stuck m s k) : s.seen k = s.channels := by
  obtain ⟨hw, hs⟩ := hs
  have hnone : ∀ c ∈ Channel.all, (s.channels c).hasChanged (s.seen k c).version = false := by
    simpa [StickyPollerShared.step, hw] using hs
  funext c
  have hseen := Watch.hasChanged_eq_false.mp (hnone c (by cases c <;> simp [Channel.all]))
  exact (h.read k c).resolve_right (by omega)

/-- **A stuck poller may not go on**; if both are stuck, each kind has a poll and all slots are in use. -/
theorem stuck_pollers (m : Nat) (inputs : List Input) :
    let s := inputs.foldl (step m) {}
    let active := (s.channels .stickyActive).value
    let nonSticky := (s.channels .nonStickyActive).value
    (∀ k, Stuck m s k → allow m k s.channels = false) ∧
      (Stuck m s true → Stuck m s false → 0 < active ∧ 0 < nonSticky ∧ m ≤ active + nonSticky) := by
  intro s active nonSticky
  have hinv : Inv m s := List.foldlRecOn inputs (step m) ⟨by simp, by simp⟩ fun _ h i _ => h.step i
  have hstuck : ∀ k, Stuck m s k → allow m k s.channels = false :=
    fun k hk => hinv.seen_eq hk ▸ hinv.denied k hk.1
  refine ⟨hstuck, fun ht hf => ?_⟩
  grind [allow]

end SdkCore.StickyPollerShared
