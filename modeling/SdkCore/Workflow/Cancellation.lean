import Mathlib.Logic.Relation
import SdkCore.Lib.Reach

/-!
# Cancellation tokens

To cancel a token runs its callbacks, which may do anything with tokens. `stack` are the tokens whose callbacks are run,
one in each step. A child is linked to its parent by a callback that does nothing once the child was dropped
(`cancellation_flows_down`).
-/

namespace SdkCore.Cancellation

/-- A callback with its number. That of `child_token` cancels the child. -/
structure Callback where
  n : Nat
  child : Option Nat
  deriving DecidableEq

/-- `WorkflowCancellationState`, whether there is a handle, and callbacks to be run. The rest records reasons, callbacks
due at the first cancel, those registered later, and those run. -/
structure Token where
  cancelled : Bool := false
  reason : Option String := none
  callbacks : List Callback := []
  held : Bool := true
  running : List Callback := []
  called : List (Option String) := []
  cancels : List (Option String) := []
  due : List Callback := []
  late : List Callback := []
  ran : List (Callback × Option String) := []
  ranLate : List (Callback × Option String) := []
  deriving DecidableEq

namespace Token

variable (k : Token)

/-- The first cancel sets the reason and takes the callbacks. -/
def cancel (reason : Option String) : Token :=
  if k.cancelled then { k with cancels := k.cancels ++ [reason] }
  else
    { k with cancelled := true, reason, callbacks := [], running := k.callbacks, cancels := k.cancels ++ [reason] }

/-- A callback of a cancelled token is run at once. -/
def register (callback : Callback) : Token :=
  if k.cancelled then { k with late := k.late ++ [callback], ranLate := k.ranLate ++ [(callback, k.reason)] }
  else { k with callbacks := k.callbacks ++ [callback], due := k.due ++ [callback] }

def unregister (n : Nat) : Token :=
  if k.cancelled then k else { k with callbacks := k.callbacks.erase ⟨n, none⟩, due := k.due.erase ⟨n, none⟩ }

def runFirst : Token :=
  match k.running with
  | [] => k
  | callback :: rest => { k with running := rest, ran := k.ran ++ [(callback, k.reason)] }

end Token

structure State where
  tokens : Nat → Token := fun _ => { held := false }
  nextToken : Nat := 0
  nextCallback : Nat := 0
  stack : List Nat := []

namespace State

variable (s : State)

def modify (t : Nat) (f : Token → Token) : State := { s with tokens := Function.update s.tokens t (f (s.tokens t)) }

def new : State := { s.modify s.nextToken fun _ => {} with nextToken := s.nextToken + 1 }

def cancel (t : Nat) (reason : Option String) : State :=
  { s.modify t (·.cancel reason) with stack := if (s.tokens t).cancelled then s.stack else t :: s.stack }

def runCallback (callback : Callback) (reason : Option String) : State :=
  match callback.child with
  -- the link to a child is weak
  | some c => if (s.tokens c).held then s.cancel c reason else s
  | none => s

def register (t : Nat) (child : Option Nat) : State :=
  let callback := ⟨s.nextCallback, child⟩
  let s' := { s.modify t (·.register callback) with nextCallback := s.nextCallback + 1 }
  if (s.tokens t).cancelled then s'.runCallback callback (s.tokens t).reason else s'

/-- The next callback of the last token on the stack. -/
def runNext : Option State :=
  match s.stack with
  | [] => none
  | t :: rest =>
    match (s.tokens t).running with
    | [] => some { s with stack := rest }
    | callback :: _ => some ((s.modify t (·.runFirst)).runCallback callback (s.tokens t).reason)

end State

/-- `cancel` and `cancel_with_reason` are one call, and `drop` drops the last handle. -/
inductive Input
  | new
  | childToken (t : Nat)
  | register (t : Nat)
  | unregister (t n : Nat)
  | cancel (t : Nat) (reason : Option String)
  | drop (t : Nat)
  | runNext

def step (s : State) : Input → Option State
  | .new => some s.new
  | .childToken t => if (s.tokens t).held then some (s.new.register t (some s.nextToken)) else none
  | .register t => if (s.tokens t).held then some (s.register t none) else none
  | .unregister t n => some (if (s.tokens t).held then s.modify t (·.unregister n) else s)
  | .cancel t reason =>
    if (s.tokens t).held then
      some ((s.modify t fun k => { k with called := k.called ++ [reason] }).cancel t reason)
    else none
  | .drop t => if (s.tokens t).held then some (s.modify t ({ · with held := false })) else none
  | .runNext => s.runNext

abbrev Reachable : State → Prop := Reach (fun s i s' => step s i = some s') (fun _ _ => True) (· = {})

/-- `child_token` of the token gave `c`. -/
def Token.HasChild (k : Token) (c : Nat) : Prop := ∃ cb ∈ k.due ++ k.late, cb.child = some c

instance (k : Token) (c : Nat) : Decidable (k.HasChild c) :=
  inferInstanceAs (Decidable (∃ cb ∈ k.due ++ k.late, cb.child = some c))

/-- A callback that cancels `c` was run with the reason. -/
def Token.Sent (k : Token) (c : Nat) (reason : Option String) : Prop :=
  ∃ cb, (cb, reason) ∈ k.ran ++ k.ranLate ∧ cb.child = some c

/-- What holds of a token if `n` callbacks were registered. -/
structure Token.Ok (n : Nat) (k : Token) : Prop where
  waiting : k.cancelled = false → k.callbacks = k.due ∧ k.late = [] ∧ k.running = [] ∧ k.ran = [] ∧ k.cancels = []
  queue : k.cancelled = true → k.ran ++ k.running.map (·, k.reason) = k.due.map (·, k.reason)
  late : k.ranLate = k.late.map (·, k.reason)
  reached : k.cancelled = true → k.cancels.head? = some k.reason
  nodup : ((k.due ++ k.late).map (·.n)).Nodup
  numbered : ∀ cb ∈ k.due ++ k.late, cb.n < n

namespace Token.Ok

theorem new (n : Nat) (held : Bool) : Token.Ok n { held } := by
  constructor <;> simp

variable {n : Nat} {k : Token} (h : k.Ok n)
include h

theorem mono {n' : Nat} (hn : n ≤ n') : k.Ok n' :=
  { h with numbered := fun cb hcb => Nat.lt_of_lt_of_le (h.numbered cb hcb) hn }

theorem cancel (r : Option String) : (k.cancel r).Ok n := by
  unfold Token.cancel
  split
  · next hc => exact { h with waiting := by simp [hc], reached := fun _ => by simp [h.reached hc] }
  · next hc =>
    obtain ⟨hcallbacks, hlate, -, hran, hcancels⟩ := h.waiting (by simpa using hc)
    exact ⟨nofun, by simp [hran, hcallbacks], by simp [h.late, hlate], by simp [hcancels], h.nodup, h.numbered⟩

theorem register (child : Option Nat) : (k.register ⟨n, child⟩).Ok (n + 1) := by
  have hnew : ((k.due ++ k.late ++ [Callback.mk n child]).map (·.n)).Nodup := by
    rw [List.map_append, List.nodup_append]
    refine ⟨h.nodup, by simp, fun i hi j hj => ?_⟩
    obtain ⟨cb, hcb, rfl⟩ := List.mem_map.mp hi
    have hlt := h.numbered cb hcb
    simp only [List.map_cons, List.map_nil, List.mem_singleton] at hj
    omega
  have hnumbered : ∀ cb ∈ k.due ++ k.late ++ [⟨n, child⟩], cb.n < n + 1 := by
    intro cb hcb
    rcases List.mem_append.mp hcb with hcb | hcb
    · exact Nat.lt_succ_of_lt (h.numbered cb hcb)
    · rw [List.mem_singleton.mp hcb]
      exact Nat.lt_succ_self n
  unfold Token.register
  split
  · next hc =>
    rw [List.append_assoc] at hnew hnumbered
    exact ⟨by simp [hc], h.queue, by simp [h.late], h.reached, hnew, hnumbered⟩
  · next hc =>
    obtain ⟨hcallbacks, hlate, hrest⟩ := h.waiting (by simpa using hc)
    rw [hlate] at hnew hnumbered
    exact ⟨fun _ => ⟨by simp [hcallbacks], hlate, hrest⟩, fun h => absurd h hc, h.late, h.reached,
      by simpa [hlate] using hnew, by simpa [hlate] using hnumbered⟩

theorem unregister (i : Nat) : (k.unregister i).Ok n := by
  have hsub : (k.due.erase ⟨i, none⟩ ++ k.late).Sublist (k.due ++ k.late) := List.erase_sublist.append_right _
  unfold Token.unregister
  split
  · exact h
  · next hc =>
    obtain ⟨hcallbacks, hrest⟩ := h.waiting (by simpa using hc)
    exact ⟨fun _ => ⟨by rw [hcallbacks], hrest⟩, fun h => absurd h hc, h.late, h.reached,
      h.nodup.sublist (hsub.map _), fun cb hcb => h.numbered cb (hsub.subset hcb)⟩

theorem runFirst : k.runFirst.Ok n := by
  unfold Token.runFirst
  split
  · exact h
  · next callback rest hr =>
    have hcan : k.cancelled = true := by
      by_contra hc
      simp [(h.waiting (by simpa using hc)).2.2.1] at hr
    refine { h with waiting := by simp [hcan], queue := fun _ => ?_ }
    rw [← h.queue hcan, hr]
    simp

theorem handle (held : Bool) (called : List (Option String)) : Token.Ok n { k with held, called } :=
  { h with }

theorem sent {c : Nat} {r : Option String} (hs : k.Sent c r) : k.HasChild c ∧ k.cancelled = true ∧ r = k.reason := by
  obtain ⟨hw, hq, hl, hr, -, -⟩ := h
  obtain ⟨cb, hcb, hc⟩ := hs
  cases hcan : k.cancelled with
  | false =>
    obtain ⟨-, hlate, -, hran, -⟩ := hw hcan
    simp [hran, hl, hlate] at hcb
  | true =>
    rcases List.mem_append.mp hcb with hcb | hcb
    · have hcb : (cb, r) ∈ k.due.map (·, k.reason) := hq hcan ▸ List.mem_append_left _ hcb
      grind [Token.HasChild]
    · grind [Token.HasChild]

end Token.Ok

namespace State

/-- What holds after `s₀`. A callback that cancels `x` may have been run without effect. -/
structure Inv (s₀ : State) (x : Option Nat) (s : State) : Prop where
  fresh : ∀ t, s.nextToken ≤ t → s.tokens t = { held := false }
  ok : ∀ t, (s.tokens t).Ok s.nextCallback
  older : ∀ p c, (s.tokens p).HasChild c → p < c ∧ c < s.nextToken
  stacked : ∀ t, (s.tokens t).running ≠ [] → t ∈ s.stack
  effect : ∀ p c r, (s.tokens p).Sent c r → x ≠ some c → (s.tokens c).cancelled = true ∨ (s.tokens c).held = false
  caused : ∀ t, ∀ r ∈ (s.tokens t).cancels, r ∈ (s.tokens t).called ∨ ∃ p, (s.tokens p).Sent t r
  kept : ∀ t, (s₀.tokens t).cancelled = true →
    (s.tokens t).cancelled = true ∧ (s.tokens t).reason = (s₀.tokens t).reason

variable {s₀ s : State} {x : Option Nat} {t u c : Nat} {r : Option String} {callback : Callback}

theorem Inv.lt_of_held (h : Inv s₀ x s) (ht : (s.tokens t).held = true) : t < s.nextToken := by
  by_contra hlt
  simp [h.fresh t (Nat.le_of_not_lt hlt)] at ht

/-- How a token may change. Callbacks without effect cancel `x` before and `y` after it. -/
structure Put (s : State) (x y : Option Nat) (t : Nat) (k : Token) (m n : Nat) (stack : List Nat) : Prop where
  lt : t < m
  ok : k.Ok n
  nextToken : s.nextToken ≤ m := by exact Nat.le_refl _
  nextCallback : s.nextCallback ≤ n := by exact Nat.le_refl _
  called : (s.tokens t).called ⊆ k.called := by exact fun _ h => h
  sent : ∀ c r, (s.tokens t).Sent c r → k.Sent c r := by exact fun _ _ h => h
  cancelled : (s.tokens t).cancelled = true → k.cancelled = true ∧ k.reason = (s.tokens t).reason := by
    exact fun h => ⟨h, rfl⟩
  dropped : (s.tokens t).held = false → k.held = false ∨ ∀ p r, ¬ (s.tokens p).Sent t r := by exact .inl
  children : ∀ c, k.HasChild c → (s.tokens t).HasChild c ∨ t < c ∧ c < m := by exact fun _ => .inl
  stacked : s.stack ⊆ stack := by exact fun _ h => h
  running : k.running ≠ [] → (s.tokens t).running ≠ [] ∨ t ∈ stack := by exact .inl
  unsent : ∀ c r, k.Sent c r → (s.tokens t).Sent c r ∨ y = some c := by exact fun _ _ => .inl
  effect : ∀ c, x = some c → y = some c ∨ c = t ∧ k.cancelled = true := by exact fun _ => .inl
  caused : ∀ r ∈ k.cancels, r ∈ (s.tokens t).cancels ∨ r ∈ k.called ∨ ∃ p, (s.tokens p).Sent t r := by
    exact fun _ => .inl

theorem Inv.put {k : Token} {m n : Nat} {stack : List Nat} {y : Option Nat} (h : Inv s₀ x s)
    (hput : Put s x y t k m n stack) : Inv s₀ y ⟨Function.update s.tokens t k, m, n, stack⟩ := by
  have hall {p : Nat → Token → Prop} (hk : p t k) (ho : ∀ u, p u (s.tokens u)) :
      ∀ u, p u (Function.update s.tokens t k u) := (Function.forall_update_iff _ _).mpr ⟨hk, fun u _ => ho u⟩
  have hsent := hall (p := fun u k' => ∀ c r, (s.tokens u).Sent c r → k'.Sent c r) hput.sent fun _ _ _ h => h
  have holder u c (hc : (s.tokens u).HasChild c) : u < c ∧ c < m :=
    (h.older u c hc).imp_right fun hlt => Nat.lt_of_lt_of_le hlt hput.nextToken
  constructor
  · exact hall (p := fun u k' => m ≤ u → k' = { held := false }) (fun hu => absurd hput.lt (Nat.not_lt.mpr hu))
      fun u hu => h.fresh u (Nat.le_trans hput.nextToken hu)
  · exact hall (p := fun _ k' => k'.Ok n) hput.ok fun u => (h.ok u).mono hput.nextCallback
  · exact hall (p := fun u k' => ∀ c, k'.HasChild c → u < c ∧ c < m)
      (fun c hc => (hput.children c hc).elim (holder t c) id) holder
  · exact hall (p := fun u k' => k'.running ≠ [] → u ∈ stack)
      (fun hk => (hput.running hk).elim (fun hr => hput.stacked (h.stacked t hr)) id)
      fun u hr => hput.stacked (h.stacked u hr)
  · intro p c r hs hne
    have hold : (s.tokens p).Sent c r := (hall (p := fun p k' => k'.Sent c r → (s.tokens p).Sent c r ∨ y = some c)
      (hput.unsent c r) (fun _ => .inl) p hs).resolve_right hne
    -- the callback for `c` that had no effect yet has it now
    by_cases hx : x = some c
    · obtain ⟨rfl, hcan⟩ := (hput.effect c hx).resolve_left hne
      exact .inl (by simpa using hcan)
    · have hc := h.effect p c r hold hx
      by_cases hct : c = t
      · subst hct
        simp only [Function.update_self]
        exact hc.imp (fun hc => (hput.cancelled hc).1) fun hd => (hput.dropped hd).resolve_right fun hno => hno p r hold
      · simpa [hct] using hc
  · refine hall (p := fun u k' => ∀ r ∈ k'.cancels, r ∈ k'.called ∨ ∃ p, (Function.update s.tokens t k p).Sent u r)
      (fun r hr => ?_) fun u r hr => (h.caused u r hr).imp_right fun ⟨p, hs⟩ => ⟨p, hsent p u r hs⟩
    rcases hput.caused r hr with hold | hcalled | ⟨p, hs⟩
    · exact (h.caused t r hold).imp (@hput.called r) fun ⟨p, hs⟩ => ⟨p, hsent p t r hs⟩
    · exact .inl hcalled
    · exact .inr ⟨p, hsent p t r hs⟩
  · refine hall (p := fun u k' => (s₀.tokens u).cancelled = true →
      k'.cancelled = true ∧ k'.reason = (s₀.tokens u).reason) (fun hu => ?_) h.kept
    obtain ⟨hcan, hreason⟩ := h.kept t hu
    exact (hput.cancelled hcan).imp_right fun hr => hr.trans hreason

/-- What a cancel of a token leaves alone. -/
theorem cancel_eq (k : Token) (r : Option String) : (k.cancel r).cancelled = true ∧ (k.cancel r).held = k.held ∧
    (k.cancel r).called = k.called ∧ (k.cancel r).cancels = k.cancels ++ [r] ∧ (k.cancel r).due = k.due ∧
      (k.cancel r).late = k.late ∧ (k.cancel r).ran = k.ran ∧ (k.cancel r).ranLate = k.ranLate := by
  unfold Token.cancel
  split
  · next hc => exact ⟨hc, rfl, rfl, rfl, rfl, rfl, rfl, rfl⟩
  · exact ⟨rfl, rfl, rfl, rfl, rfl, rfl, rfl, rfl⟩

theorem Inv.cancel (h : Inv s₀ x s) (hx : x = none ∨ x = some t) (ht : (s.tokens t).held = true)
    (hc : r ∈ (s.tokens t).called ∨ ∃ p, (s.tokens p).Sent t r) : Inv s₀ none (s.cancel t r) := by
  obtain ⟨hcan, hheld, hcalled, hcancels, hdue, hlate, hran, hranLate⟩ := cancel_eq (s.tokens t) r
  have hsent : ∀ c r', ((s.tokens t).cancel r).Sent c r' ↔ (s.tokens t).Sent c r' :=
    by simp [Token.Sent, hran, hranLate]
  refine h.put {
    lt := h.lt_of_held ht
    ok := (h.ok t).cancel r
    called := hcalled ▸ fun _ h => h
    sent := fun c r' => (hsent c r').mpr
    cancelled := fun hk => by simp [Token.cancel, hk]
    dropped := fun hd => .inl (hheld.trans hd)
    children := fun c hc => .inl (by simpa [Token.HasChild, hdue, hlate] using hc)
    stacked := ?_
    running := fun hrun => ?_
    unsent := fun c r' hs => .inl ((hsent c r').mp hs)
    effect := fun c hc => .inr ⟨by simpa [hc] using hx, hcan⟩
    caused := fun r' hr' => ?_ }
  · split
    · exact List.Subset.refl _
    · exact List.subset_cons_self _ _
  · -- a token that was cancelled before is not put on the stack again
    cases hk : (s.tokens t).cancelled with
    | true => exact .inl (by simpa [Token.cancel, hk] using hrun)
    | false => exact .inr (by simp)
  · rw [hcancels, List.mem_append, List.mem_singleton] at hr'
    rw [hcalled]
    exact hr'.imp_right fun (he : r' = r) => he ▸ hc

theorem Inv.runCallback (h : Inv s₀ callback.child s) (hs : ∀ c, callback.child = some c → ∃ p, (s.tokens p).Sent c r) :
    Inv s₀ none (s.runCallback callback r) := by
  unfold State.runCallback
  split
  · next c hc =>
    split
    · next hheld => exact h.cancel (.inr hc) hheld (.inr (hs c hc))
    · next hheld =>
      obtain ⟨hf, hok, ho, hst, he, hcause, hkept⟩ := h
      refine ⟨hf, hok, ho, hst, ?_, hcause, hkept⟩
      grind
  · next hc => rwa [hc] at h

/-- A handle is dropped, or used to cancel the token. -/
theorem Inv.handle {held : Bool} {called : List (Option String)} (h : Inv s₀ none s) (ht : (s.tokens t).held = true)
    (hcalled : (s.tokens t).called ⊆ called) : Inv s₀ none (s.modify t ({ · with held, called })) :=
  h.put { lt := h.lt_of_held ht, ok := (h.ok t).handle _ _, called := hcalled, dropped := by simp [ht] }

theorem Inv.unregister (h : Inv s₀ none s) (ht : (s.tokens t).held = true) (n : Nat) :
    Inv s₀ none (s.modify t (·.unregister n)) := by
  have hok := (h.ok t).unregister n
  simp only [modify, Token.unregister] at hok ⊢
  split at hok
  · next hc =>
    rw [if_pos hc]
    exact h.put { lt := h.lt_of_held ht, ok := hok }
  · next hc =>
    rw [if_neg hc]
    refine h.put { lt := h.lt_of_held ht, ok := hok, children := fun c ⟨cb, hcb, hc⟩ => .inl ⟨cb, ?_, hc⟩ }
    exact (List.erase_sublist.append_right _).subset hcb

theorem Inv.new (h : Inv s₀ none s) : Inv s₀ none s.new := by
  have hfresh := h.fresh s.nextToken (Nat.le_refl _)
  refine h.put (t := s.nextToken) {
    lt := Nat.lt_succ_self _
    ok := .new _ true
    nextToken := Nat.le_succ _
    called := by simp [hfresh]
    sent := by simp [hfresh, Token.Sent]
    cancelled := by simp [hfresh]
    dropped := fun _ => .inr fun p r hs => ?_
    children := by simp [Token.HasChild]
    running := by simp
    unsent := by simp [Token.Sent]
    caused := by simp }
  -- nobody has a token for a child that is not made yet
  exact Nat.lt_irrefl _ (h.older p _ ((h.ok p).sent hs).1).2

theorem Inv.register {child : Option Nat} (h : Inv s₀ none s) (ht : (s.tokens t).held = true)
    (hc : ∀ c, child = some c → t < c ∧ c < s.nextToken) : Inv s₀ none (s.register t child) := by
  have hok := (h.ok t).register child
  simp only [State.register, modify, Token.register] at hok ⊢
  split at hok
  · next hcan =>
    rw [if_pos hcan, if_pos hcan]
    refine Inv.runCallback (h.put {
      lt := h.lt_of_held ht
      ok := hok
      nextCallback := Nat.le_succ _
      sent := fun c r ⟨cb, hcb, hc⟩ => ⟨cb, by grind, hc⟩
      children := fun c ⟨cb, hcb, hcb'⟩ => by grind [Token.HasChild]
      unsent := fun c r ⟨cb, hcb, hcb'⟩ => by grind [Token.Sent]
      effect := nofun }) fun c hcc => ⟨t, ⟨s.nextCallback, child⟩, ?_, hcc⟩
    simp
  · next hcan =>
    rw [if_neg hcan, if_neg hcan]
    exact h.put {
      lt := h.lt_of_held ht
      ok := hok
      nextCallback := Nat.le_succ _
      children := fun c ⟨cb, hcb, hcb'⟩ => by grind [Token.HasChild] }

theorem Inv.runFirst {rest : List Callback} (h : Inv s₀ none s) (hr : (s.tokens t).running = callback :: rest) :
    Inv s₀ none ((s.modify t (·.runFirst)).runCallback callback (s.tokens t).reason) := by
  have ht : t < s.nextToken := by
    by_contra hlt
    simp [h.fresh t (Nat.le_of_not_lt hlt)] at hr
  have hok := (h.ok t).runFirst
  simp only [modify, Token.runFirst, hr] at hok ⊢
  refine Inv.runCallback (h.put {
    lt := ht
    ok := hok
    sent := fun c r ⟨cb, hcb, hc⟩ => ⟨cb, by grind, hc⟩
    running := fun _ => .inl (by simp [hr])
    unsent := fun c r ⟨cb, hcb, hc⟩ => by grind [Token.Sent]
    effect := nofun }) fun c hc => ⟨t, callback, ?_, hc⟩
  simp

theorem Inv.step {s' : State} {i : Input} (h : Inv s₀ none s) (hs : step s i = some s') : Inv s₀ none s' := by
  cases i with
  | new =>
    cases hs
    exact h.new
  | childToken t =>
    obtain ⟨ht, ⟨⟩⟩ := Option.ite_none_right_eq_some.mp hs
    have hlt := h.lt_of_held ht
    refine h.new.register ?_ ?_
    · simpa [State.new, modify, Nat.ne_of_lt hlt] using ht
    · rintro c ⟨⟩
      exact ⟨hlt, Nat.lt_succ_self _⟩
  | register t =>
    obtain ⟨ht, ⟨⟩⟩ := Option.ite_none_right_eq_some.mp hs
    exact h.register ht fun _ hc => by cases hc
  | unregister t n =>
    cases hs
    split
    · next ht => exact h.unregister ht n
    · exact h
  | cancel t r =>
    obtain ⟨ht, ⟨⟩⟩ := Option.ite_none_right_eq_some.mp hs
    exact Inv.cancel (h.handle ht (List.subset_append_left _ _)) (.inl rfl) (by simpa [modify] using ht)
      (.inl (by simp [modify]))
  | drop t =>
    obtain ⟨ht, ⟨⟩⟩ := Option.ite_none_right_eq_some.mp hs
    exact h.handle ht (List.Subset.refl _)
  | runNext =>
    replace hs : s.runNext = some s' := hs
    unfold State.runNext at hs
    split at hs
    · cases hs
    · next t rest hstack =>
      split at hs
      · next hr =>
        cases hs
        obtain ⟨hf, hok, ho, hst, he, hcause, hkept⟩ := h
        refine ⟨hf, hok, ho, ?_, he, hcause, hkept⟩
        grind
      · next hr =>
        cases hs
        exact h.runFirst hr

theorem Inv.init : Inv {} none {} := by
  constructor <;> simp [Token.Ok.new, Token.HasChild, Token.Sent]

/-- `d` comes from `a` by `child_token`, and nothing between was dropped before its cancel. -/
inductive Descends (s : State) (a : Nat) : Nat → Prop
  | child {d : Nat} (hd : (s.tokens a).HasChild d) : Descends s a d
  | grandchild {b d : Nat} (hb : Descends s a b) (hk : (s.tokens b).held = true ∨ (s.tokens b).cancelled = true)
      (hd : (s.tokens b).HasChild d) : Descends s a d

/-- A cancel reaches the children. -/
theorem Inv.cancelled_child (h : Inv s₀ none s) (hs : s.stack = []) (ht : (s.tokens t).cancelled = true)
    (hc : (s.tokens t).HasChild c) : (s.tokens c).cancelled = true ∨ (s.tokens c).held = false := by
  have hrun : (s.tokens t).running = [] := by
    by_contra hne
    simpa [hs] using h.stacked t hne
  have hq := (h.ok t).queue ht
  have hl := (h.ok t).late
  rw [hrun, List.map_nil, List.append_nil] at hq
  obtain ⟨cb, hcb, hchild⟩ := hc
  refine h.effect t c (s.tokens t).reason ⟨cb, ?_, hchild⟩ (by simp)
  rw [hq, hl, ← List.map_append]
  exact List.mem_map_of_mem hcb

theorem Inv.cancelled_descendant {a d : Nat} (h : Inv s₀ none s) (hs : s.stack = [])
    (ha : (s.tokens a).cancelled = true)
    (hd : s.Descends a d) : (s.tokens d).cancelled = true ∨ (s.tokens d).held = false := by
  induction hd with
  | child hd => exact h.cancelled_child hs ha hd
  | grandchild _ hk hd ih =>
    refine h.cancelled_child hs ?_ hd
    grind

/-- Every cancelled token is below one that was cancelled by a call. -/
theorem Inv.called_above (h : Inv s₀ none s) : ∀ t, (s.tokens t).cancelled = true →
    ∃ u, Relation.ReflTransGen (fun p c => (s.tokens p).HasChild c) u t ∧
      (s.tokens t).reason ∈ (s.tokens u).called := by
  intro t
  induction t using Nat.strongRecOn with
  | _ t ih =>
    intro ht
    rcases h.caused t _ (List.mem_of_head? ((h.ok t).reached ht)) with hcalled | ⟨p, hsent⟩
    · exact ⟨t, .refl, hcalled⟩
    · obtain ⟨hchild, hp, hr⟩ := (h.ok p).sent hsent
      obtain ⟨u, hu, hcalled⟩ := ih p (h.older p t hchild).1 hp
      exact ⟨u, hu.tail hchild, hr ▸ hcalled⟩

end State

open State

/-- **Cancellation flows down.** -/
theorem cancellation_flows_down {s : State} (h : Reachable s) :
    (∀ a d, s.stack = [] → (s.tokens a).cancelled = true → s.Descends a d → (s.tokens d).held = true →
      (s.tokens d).cancelled = true) ∧
    (∀ t, (s.tokens t).cancels.head? = if (s.tokens t).cancelled then some (s.tokens t).reason else none) ∧
    (∀ i s', step s i = some s' → ∀ t, (s.tokens t).cancelled = true →
      (s'.tokens t).cancelled = true ∧ (s'.tokens t).reason = (s.tokens t).reason) ∧
    (∀ t, (s.tokens t).cancelled = true → ∃ u, Relation.ReflTransGen (fun p c => (s.tokens p).HasChild c) u t ∧
      (s.tokens t).reason ∈ (s.tokens u).called) ∧
    (∀ t, (((s.tokens t).due ++ (s.tokens t).late).map (·.n)).Nodup ∧
      ((s.tokens t).cancelled = false → (s.tokens t).ran = [] ∧ (s.tokens t).ranLate = []) ∧
      (s.stack = [] → (s.tokens t).cancelled = true →
        (s.tokens t).ran = (s.tokens t).due.map (·, (s.tokens t).reason)) ∧
      (s.tokens t).ranLate = (s.tokens t).late.map (·, (s.tokens t).reason)) ∧
    ∀ t s', step s (.register t) = some s' → (s.tokens t).cancelled = true →
      (s'.tokens t).ranLate = (s.tokens t).ranLate ++ [(⟨s.nextCallback, none⟩, (s.tokens t).reason)] := by
  have hinv : Inv {} none s := h.invariant (fun _ hs => hs ▸ Inv.init) fun _ _ _ hi _ hs => hi.step hs
  refine ⟨fun a d hs ha hd hheld => ?_, fun t => ?_, fun i s' hs t => ?_, hinv.called_above, fun t => ?_,
    fun t s' hs ht => ?_⟩
  · simpa [hheld] using hinv.cancelled_descendant hs ha hd
  · have hok := hinv.ok t
    split
    · next ht => exact hok.reached ht
    · next ht => simp [(hok.waiting (by simpa using ht)).2.2.2.2]
  · have hnow : Inv s none s := { hinv with kept := fun t ht => ⟨ht, rfl⟩ }
    exact (hnow.step hs).kept t
  · have hok := hinv.ok t
    refine ⟨hok.nodup, fun ht => ?_, fun hs ht => ?_, hok.late⟩
    · obtain ⟨-, hlate, -, hran, -⟩ := hok.waiting ht
      exact ⟨hran, by simp [hok.late, hlate]⟩
    · have hrun : (s.tokens t).running = [] := by
        by_contra hne
        simpa [hs] using hinv.stacked t hne
      simpa [hrun] using hok.queue ht
  · obtain ⟨-, ⟨⟩⟩ := Option.ite_none_right_eq_some.mp hs
    simp [State.register, State.runCallback, State.modify, Token.register, ht]

theorem cancellation_flows_down_grandchild : ∃ s, Reachable s ∧ (s.tokens 2).cancelled = true := by
  obtain ⟨s, h, hs, ha, hb, hk, hd, hheld⟩ : ∃ s, Reachable s ∧ s.stack = [] ∧ (s.tokens 0).cancelled = true ∧
      (s.tokens 0).HasChild 1 ∧ (s.tokens 1).held = true ∧ (s.tokens 1).HasChild 2 ∧ (s.tokens 2).held = true :=
    Reach.exists_of_trace [.new, .childToken 0, .childToken 1, .cancel 0 none, .runNext, .runNext, .runNext, .runNext,
      .runNext] (by decide) (fun _ _ _ h => h) (.start rfl)
  exact ⟨s, h, (cancellation_flows_down h).1 0 2 hs ha (.grandchild (.child hb) (.inl hk) hd) hheld⟩

/-- Only a handle to the grandchild is left. -/
theorem cancelled_past_dropped : ∃ s, Reachable s ∧ s.stack = [] ∧ (s.tokens 0).cancelled = true ∧
    (s.tokens 0).HasChild 1 ∧ (s.tokens 1).HasChild 2 ∧ (s.tokens 2).held = true ∧ (s.tokens 2).cancelled = false :=
  Reach.exists_of_trace [.new, .childToken 0, .childToken 1, .drop 1, .cancel 0 none, .runNext, .runNext] (by decide)
    (fun _ _ _ h => h) (.start rfl)

end SdkCore.Cancellation
