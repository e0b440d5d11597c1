import Mathlib.Data.List.Basic

/-!
# Waiting for changes

`Watch` is a shared value with versions, and a receiver waits for one that it has not seen. `Notify` wakes whoever waits
at the time of a call. `Oneshot` is a channel for one value.
-/

namespace SdkCore

structure Watch (α : Type) where
  value : α
  version : Nat
  deriving DecidableEq

namespace Watch

variable {α : Type}

def channel (value : α) : Watch α := ⟨value, 0⟩

/-- A change, also if the value stays. -/
def sendModify (w : Watch α) (f : α → α) : Watch α := ⟨f w.value, w.version + 1⟩

/-- A receiver that has seen `seen` need not wait. -/
def hasChanged (w : Watch α) (seen : Nat) : Bool := seen ≠ w.version

@[simp]
theorem sendModify_value (w : Watch α) (f : α → α) : (w.sendModify f).value = f w.value := rfl

@[simp]
theorem sendModify_version (w : Watch α) (f : α → α) : (w.sendModify f).version = w.version + 1 := rfl

theorem hasChanged_eq_false {w : Watch α} {seen : Nat} : w.hasChanged seen = false ↔ seen = w.version := by
  simp [hasChanged]

end Watch

/-- How many calls there were. -/
structure Notify where
  calls : Nat
  deriving DecidableEq

namespace Notify

def notifyWaiters (n : Notify) : Notify := ⟨n.calls + 1⟩

def notified (n : Notify) : Nat := n.calls

def isReady (n : Notify) (future : Nat) : Bool := future < n.calls

end Notify

/-- What was sent, and who waits. -/
structure Oneshot (α ω : Type) where
  value : Option α
  waker : Option ω
  deriving DecidableEq

namespace Oneshot

variable {α ω : Type}

def channel : Oneshot α ω := ⟨none, none⟩

/-- Wait if there is nothing yet. -/
def poll (c : Oneshot α ω) (w : ω) : Oneshot α ω := if c.value.isSome then c else { c with waker := some w }

def send (v : α) : Oneshot α ω := ⟨some v, none⟩

@[simp]
theorem poll_value (c : Oneshot α ω) (w : ω) : (c.poll w).value = c.value := by
  unfold poll
  split <;> rfl

end Oneshot

end SdkCore
