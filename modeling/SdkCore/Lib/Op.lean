import Mathlib.Data.List.Basic

/-!
# Operations that may fail

An operation changes a state and gives a value or an error, which does not undo earlier changes. `exec` runs it, and the
lemmas `exec_..` say what its pieces do.
-/

namespace SdkCore

/-- An operation on `σ` that gives an `α` or fails with an `ε`. -/
abbrev Op (σ ε : Type) := ExceptT ε (StateM σ)

namespace Op

variable {σ τ ε α β : Type}

def exec (x : Op σ ε α) (s : σ) : Except ε α × σ := x.run.run s

/-- An operation on a part of the state. -/
def zoom (view : τ → σ) (put : τ → σ → τ) (x : Op σ ε α) : Op τ ε α :=
  ExceptT.mk fun t => ((exec x (view t)).1, put t (exec x (view t)).2)

def ofFn (f : σ → Except ε α × σ) : Op σ ε α := ExceptT.mk f

/-- Run an operation without failing with it. -/
def attempt {δ : Type} (x : Op σ ε α) : Op σ δ (Except ε α) := ExceptT.mk fun s => (.ok (exec x s).1, (exec x s).2)

@[simp] theorem exec_attempt {δ : Type} (x : Op σ ε α) (s : σ) :
    exec (attempt x : Op σ δ (Except ε α)) s = (.ok (exec x s).1, (exec x s).2) := rfl

@[simp] theorem exec_ofFn (f : σ → Except ε α × σ) (s : σ) : exec (ofFn f) s = f s := rfl

@[simp] theorem exec_pure (a : α) (s : σ) : exec (pure a : Op σ ε α) s = (.ok a, s) := rfl

@[simp] theorem exec_throw (e : ε) (s : σ) : exec (throw e : Op σ ε α) s = (.error e, s) := rfl

@[simp] theorem exec_get (s : σ) : exec (get : Op σ ε σ) s = (.ok s, s) := rfl

@[simp] theorem exec_modify (f : σ → σ) (s : σ) : exec (modify f : Op σ ε Unit) s = (.ok (), f s) := rfl

@[simp] theorem exec_zoom (view : τ → σ) (put : τ → σ → τ) (x : Op σ ε α) (t : τ) :
    exec (zoom view put x) t = ((exec x (view t)).1, put t (exec x (view t)).2) := rfl

def andThen (f : α → Op σ ε β) : Except ε α × σ → Except ε β × σ
  | (.ok a, s) => exec (f a) s
  | (.error e, s) => (.error e, s)

@[simp] theorem andThen_ok (f : α → Op σ ε β) (a : α) (s : σ) : andThen f (.ok a, s) = exec (f a) s := rfl

@[simp] theorem andThen_error (f : α → Op σ ε β) (e : ε) (s : σ) : andThen f (.error e, s) = (.error e, s) := rfl

theorem exec_bind (x : Op σ ε α) (f : α → Op σ ε β) (s : σ) : exec (x >>= f) s = andThen f (exec x s) := by
  show ((x >>= f).run.run s : Except ε β × σ) = _
  rw [ExceptT.run_bind, StateT.run_bind]
  unfold exec
  cases x.run.run s with
  | mk r s' => cases r <;> rfl

theorem exec_get_bind (f : σ → Op σ ε β) (s : σ) : exec (get >>= f) s = exec (f s) s := rfl

theorem exec_modify_bind (g : σ → σ) (f : Unit → Op σ ε β) (s : σ) : exec (modify g >>= f) s = exec (f ()) (g s) := rfl

theorem exec_attempt_bind {δ : Type} (x : Op σ ε α) (f : Except ε α → Op σ δ β) (s : σ) :
    exec (attempt x >>= f) s = exec (f (exec x s).1) (exec x s).2 := rfl

@[simp] theorem snd_exec_bind_pure (x : Op σ ε α) (f : α → β) (s : σ) :
    (exec (do return f (← x)) s).2 = (exec x s).2 := by
  rw [exec_bind]
  generalize exec x s = r
  obtain ⟨e | a, s'⟩ := r <;> rfl

variable {x : Op σ ε α} {f : α → Op σ ε β} {s : σ}

theorem exec_bind_ok {s' : σ} {b : β} (h : exec (x >>= f) s = (.ok b, s')) :
    ∃ a s₁, exec x s = (.ok a, s₁) ∧ exec (f a) s₁ = (.ok b, s') := by
  rw [exec_bind] at h
  generalize exec x s = r at h
  obtain ⟨e | a, s₁⟩ := r
  · cases h
  · exact ⟨a, s₁, rfl, h⟩

/-- The operation does not fail. -/
def Returns (x : Op σ ε α) (s : σ) : Prop := ∃ a s', exec x s = (.ok a, s')

@[simp] theorem returns_pure (a : α) (s : σ) : Returns (pure a : Op σ ε α) s := ⟨a, s, rfl⟩

@[simp] theorem not_returns_throw (e : ε) (s : σ) : ¬ Returns (throw e : Op σ ε α) s := by
  rintro ⟨a, s', h⟩
  cases h

theorem returns_bind {s' : σ} {a : α} (h : exec x s = (.ok a, s')) : Returns (x >>= f) s ↔ Returns (f a) s' := by
  unfold Returns
  rw [exec_bind, h, andThen_ok]

theorem Returns.bind (hx : Returns x s) (hf : ∀ a s', exec x s = (.ok a, s') → Returns (f a) s') :
    Returns (x >>= f) s := by
  obtain ⟨a, s', h⟩ := hx
  exact (returns_bind h).mpr (hf a s' h)

@[simp] theorem returns_get_bind (f : σ → Op σ ε β) (s : σ) : Returns (get >>= f) s ↔ Returns (f s) s := .rfl

@[simp] theorem returns_modify_bind (g : σ → σ) (f : Unit → Op σ ε β) (s : σ) :
    Returns (modify g >>= f) s ↔ Returns (f ()) (g s) := .rfl

@[simp] theorem returns_attempt_bind {δ : Type} (x : Op σ ε α) (f : Except ε α → Op σ δ β) (s : σ) :
    Returns (attempt x >>= f) s ↔ Returns (f (exec x s).1) (exec x s).2 := .rfl

def Post (Q : α → σ → Prop) (E : ε → σ → Prop) : Except ε α × σ → Prop
  | (.ok a, s) => Q a s
  | (.error e, s) => E e s

section

variable {Q Q' : α → σ → Prop} {R : β → σ → Prop} {E E' : ε → σ → Prop}

/-- The rule of consequence. -/
theorem Post.imp {r : Except ε α × σ} (h : Post Q E r) (hQ : ∀ a s, Q a s → Q' a s) (hE : ∀ e s, E e s → E' e s) :
    Post Q' E' r :=
  match r, h with
  | (.ok a, s), h => hQ a s h
  | (.error e, s), h => hE e s h

/-- The rule of composition. -/
theorem Post.bind {x : Op σ ε α} {f : α → Op σ ε β} {s : σ} (hx : Post Q E (exec x s))
    (hf : ∀ a s', Q a s' → Post R E (exec (f a) s')) : Post R E (exec (x >>= f) s) := by
  rw [exec_bind]
  generalize exec x s = r at hx
  match r with
  | (.ok a, s') => exact hf a s' hx
  | (.error e, s') => exact hx

theorem Post.and {r : Except ε α × σ} (h : Post Q E r) (h' : Post Q' E' r) :
    Post (fun a s => Q a s ∧ Q' a s) (fun e s => E e s ∧ E' e s) r :=
  match r, h, h' with
  | (.ok _, _), h, h' => ⟨h, h'⟩
  | (.error _, _), h, h' => ⟨h, h'⟩

end

/-- States before and after are related by `R`, and errors are in `E`. -/
def Moves (R : σ → σ → Prop) (E : ε → Prop) (x : Op σ ε α) : Prop :=
  ∀ s, R s (exec x s).2 ∧ ∀ e, (exec x s).1 = .error e → E e

section

variable {R : σ → σ → Prop} {E : ε → Prop}

theorem Moves.weaken {x : Op σ ε α} (h : Moves R E x) : Moves R (fun _ => True) x :=
  fun s => ⟨(h s).1, fun _ _ => trivial⟩

theorem Moves.pure [Std.Refl R] (a : α) : Moves R E (pure a : Op σ ε α) := fun s => ⟨refl s, nofun⟩

theorem Moves.throw [Std.Refl R] {e : ε} (h : E e) : Moves R E (throw e : Op σ ε α) :=
  fun s => ⟨refl s, fun _ h' => by cases h'; exact h⟩

theorem Moves.modify {f : σ → σ} (h : ∀ s, R s (f s)) : Moves R E (modify f : Op σ ε Unit) := fun s => ⟨h s, nofun⟩

/-- Two operations in a row move along `R`. -/
theorem Moves.bind [IsTrans σ R] {x : Op σ ε α} {f : α → Op σ ε β} (hx : Moves R E x) (hf : ∀ a, Moves R E (f a)) :
    Moves R E (x >>= f) := by
  intro s
  have h := hx s
  rw [exec_bind]
  generalize exec x s = r at h
  match r with
  | (.ok a, s') => exact ⟨IsTrans.trans _ _ _ h.1 (hf a s').1, (hf a s').2⟩
  | (.error e, s') => exact ⟨h.1, fun _ he => by cases he; exact h.2 _ rfl⟩

/-- The state that is read is the one at hand. -/
theorem Moves.get {f : σ → Op σ ε β} (h : ∀ s, R s (exec (f s) s).2 ∧ ∀ e, (exec (f s) s).1 = .error e → E e) :
    Moves R E (get >>= f) := h

theorem Moves.post {x : Op σ ε α} (h : Moves R E x) (s : σ) :
    Post (fun _ s' => R s s') (fun e _ => E e) (exec x s) := by
  have h := h s
  generalize exec x s = r at h
  match r with
  | (.ok a, s') => exact h.1
  | (.error e, s') => exact h.2 e rfl

end

def Implies (P : σ → Prop) (s s' : σ) : Prop := P s → P s'

instance {P : σ → Prop} : Std.Refl (Implies P) := ⟨fun _ h => h⟩

instance {P : σ → Prop} : IsTrans σ (Implies P) := ⟨fun _ _ _ h h' hs => h' (h hs)⟩

/-- `P` is kept, also by a failure. -/
abbrev Keeps (P : σ → Prop) (x : Op σ ε α) : Prop := Moves (Implies P) (fun _ => True) x

theorem Keeps.holds {P : σ → Prop} (h : Keeps P x) (hs : P s) :
    Post (fun _ s' => P s') (fun _ s' => P s') (exec x s) := by
  have h := (h s).1 hs
  generalize exec x s = r at h
  match r with
  | (.ok a, s') => exact h
  | (.error e, s') => exact h

/-- What a part keeps, the whole keeps. -/
theorem Keeps.zoom {P : σ → Prop} {Q : τ → Prop} {view : τ → σ} {put : τ → σ → τ} (h : Keeps P x)
    (hview : ∀ t, Q t → P (view t)) (hput : ∀ t s, Q t → P s → Q (put t s)) : Keeps Q (zoom view put x) :=
  fun t => ⟨fun ht => hput t _ ht ((h (view t)).1 (hview t ht)), fun _ _ => trivial⟩

end Op

end SdkCore
