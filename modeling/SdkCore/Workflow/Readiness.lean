import SdkCore.Workflow.LocalActivityFut

/-!
# What becomes ready is progress

A command becomes ready when something is sent to its future, which is progress (`Raises`). So it is for the future of a
local activity, whose command changes when it is polled (`act_laReady`, `pollLa_laReady`).
-/

namespace SdkCore.WorkflowContext

namespace Ctx

variable {s s' : Ctx} {n : Nat}

/-! ## Commands -/

/-- Something was sent to the future. -/
def commandReady (s : Ctx) (id : PendingCommandId) : Bool := (s.channels id).value.isSome

/-- What is made ready is progress. -/
structure Raises (s s' : Ctx) : Prop where
  ready : ∀ id, s'.commandReady id = true → s.commandReady id = true ∨ s'.progressMade = true
  progress : s.progressMade = true → s'.progressMade = true
  mutated : s.stateMutated = true → s'.stateMutated = true

namespace Raises

theorem trans {t : Ctx} (h : Raises s s') (h' : Raises s' t) : Raises s t where
  ready id hid := by
    rcases h'.ready id hid with hid | hp
    · exact (h.ready id hid).imp_right h'.progress
    · exact .inr hp
  progress hp := h'.progress (h.progress hp)
  mutated hm := h'.mutated (h.mutated hm)

theorem of_eq (hv : ∀ id, (s'.channels id).value = (s.channels id).value) (hp : s'.progressMade = s.progressMade)
    (hm : s.stateMutated = true → s'.stateMutated = true) : Raises s s' where
  ready id hid := by
    unfold commandReady at hid
    rw [hv] at hid
    exact .inl hid
  progress h := hp.trans h
  mutated := hm

theorem refl (s : Ctx) : Raises s s := of_eq (fun _ => rfl) rfl fun h => h

theorem issue {k : SeqKind} {c : Nat → WorkflowCommand} : Raises s (s.issue k c) where
  ready id hid := by
    by_cases hin : id ∈ k.ids (s.nextSeq k)
    · rw [commandReady, issue_channels_of_mem hin] at hid
      cases hid
    · rw [commandReady, issue_channels_of_not_mem hin] at hid
      exact .inl hid
  progress h := by cases k <;> exact h
  mutated h := by cases k <;> exact h

theorem send (event : UnblockEvent) : Raises s (s.send event) where
  ready _ _ := .inr rfl
  progress _ := rfl
  mutated h := h

theorem cancel (id : CancellableSeqNum) : Raises s (s.cancel id) := by
  have hmark : Raises s (s.mark id) := of_eq (fun _ => rfl) rfl fun h => h
  have hpush : ∀ (t : Ctx) c, Raises t (t.pushCommand c) := fun t c =>
    of_eq (fun _ => rfl) rfl fun h => h
  obtain ⟨-, he⟩ | ⟨seq, -, -, he⟩ | ⟨seq, -, -, he⟩ | ⟨c, -, he⟩ := s.cancel_cases id <;> rw [he]
  · exact .refl s
  · exact hmark.trans ((send _).trans (hpush _ _))
  · exact hmark
  · exact hmark.trans (hpush _ _)

theorem cancelToken (t : Nat) : Raises s (s.cancelToken t) := by
  unfold Ctx.cancelToken
  split
  · exact .refl s
  · exact of_eq (fun _ => rfl) rfl fun h => h

theorem poll (id : PendingCommandId) (w : Waker) : Raises s (s.pollCommand id w) :=
  of_eq (fun _ => pollCommand_value _ _ _) rfl fun h => h

theorem plain (h : Plain s s') : Raises s s' := by
  cases h with
  | issue => exact .issue
  | cancel => exact .cancel _
  | poll w => exact .poll _ w
  | tokens => exact of_eq (fun _ => rfl) rfl fun h => h
  | cancelToken t => exact .cancelToken t
  | stateMut => exact of_eq (fun _ => rfl) rfl fun _ => rfl

theorem changes (h : Changes s s') : Raises s s' := by
  refine h.keeps (fun t t' hc ht => ht.trans ?_) (.refl s)
  cases hc with
  | plain hp => exact .plain hp
  | poll id w => exact .poll id w
  | tokens => exact of_eq (fun _ => rfl) rfl fun h => h
  | attempt => exact .issue
  | la => exact of_eq (fun _ => rfl) rfl fun h => h

end Raises

/-! ## Local activities -/

/-- The command that it waits for is ready. -/
def laReady (s : Ctx) (n : Nat) : Bool :=
  match s.las n with
  | some la => !la.terminated && s.commandReady la.awaited
  | none => false

theorem laReady_eq_true : s.laReady n = true ↔
    ∃ la, s.las n = some la ∧ la.terminated = false ∧ s.commandReady la.awaited = true := by
  unfold laReady
  cases s.las n with
  | none | some => simp

/-- It waits for the same command. -/
def Awaits (s s' : Ctx) (n : Nat) : Prop :=
  ∀ la', s'.las n = some la' → ∃ la, s.las n = some la ∧ la.awaited = la'.awaited ∧ la.terminated = la'.terminated

theorem Awaits.of_eq (h : s'.las n = s.las n) : Awaits s s' n := fun la' hla' => ⟨la', h ▸ hla', rfl, rfl⟩

theorem Raises.laReady (h : Raises s s') (ha : Awaits s s' n) (hr : s'.laReady n = true) :
    s.laReady n = true ∨ s'.progressMade = true := by
  obtain ⟨la', hla', hterm, hready⟩ := laReady_eq_true.mp hr
  obtain ⟨la, hla, hw, ht⟩ := ha la' hla'
  rcases h.ready _ hready with hready | hp
  · exact .inl (laReady_eq_true.mpr ⟨la, hla, ht.trans hterm, hw ▸ hready⟩)
  · exact .inr hp

theorem cancelLa_awaits (hl : s.LaSound) (m : Nat) : Awaits s (s.cancelLa m) n := by
  cases hla : s.las m with
  | none =>
    rw [cancelLa_of_none hla]
    exact .of_eq rfl
  | some la =>
    have hlas : (s.cancelLa m).las n = (s.noteCancel m la).las n := congrFun (cancelLa_eq hl hla).2.frame.las n
    by_cases hm : m = n
    · subst hm
      intro la' hla'
      rw [hlas] at hla'
      obtain rfl := Option.some.inj ((setLa_las_self _).symm.trans hla')
      exact ⟨la, hla, rfl, rfl⟩
    · exact .of_eq (hlas.trans (Function.update_of_ne (Ne.symm hm) _ _))

theorem cancelLa_laReady (hok : s.Ok) (m : Nat) (hr : (s.cancelLa m).laReady n = true) :
    s.laReady n = true ∨ (s.cancelLa m).progressMade = true :=
  Raises.laReady (.changes (cancelLa_changes hok.laSound m)) (cancelLa_awaits hok.laSound m) hr

theorem attempt_not_ready (n : Nat) (a t : Option Nat) :
    ¬ (s.localActivityNoTimerRetry n a t).commandReady (.activity (s.nextSeq .activity)) = true := by
  have hempty : (s.localActivityNoTimerRetry n a t).channels (.activity (s.nextSeq .activity)) = .channel :=
    issue_channels_of_mem (List.mem_singleton_self _)
  rw [commandReady, hempty]
  exact Bool.false_ne_true

/-- A new local activity is not ready. -/
theorem executeLocalActivity_laReady (hok : s.Ok) (t : Nat) (hr : (s.executeLocalActivity t).laReady n = true) :
    s.laReady n = true ∨ (s.executeLocalActivity t).progressMade = true := by
  have hok' : (s.newLa t).Ok := hok.newLa t
  -- what the local activities wait for is settled when the new one is there
  have hawaits : Awaits (s.newLa t) (s.executeLocalActivity t) n := by
    show Awaits (s.newLa t) ((s.newLa t).register t (.localActivity s.nextLa)) n
    unfold register
    split
    · exact cancelLa_awaits hok'.laSound s.nextLa
    · exact .of_eq rfl
  have hraises : Raises (s.newLa t) (s.executeLocalActivity t) := by
    have hreg : Changes (s.newLa t) ((s.newLa t).register t (.localActivity s.nextLa)) :=
      register_localActivity_changes hok'.laSound t s.nextLa
    exact (Raises.changes hreg).trans (.poll _ _)
  rcases hraises.laReady hawaits hr with hr | hp
  · by_cases hn : s.nextLa = n
    · -- the channel of its first attempt is empty
      subst hn
      obtain ⟨la, hla, -, hready⟩ := laReady_eq_true.mp hr
      obtain rfl := Option.some.inj ((setLa_las_self _).symm.trans hla)
      exact (attempt_not_ready s.nextLa none none hready).elim
    · have hold : Awaits s (s.newLa t) n := .of_eq (Function.update_of_ne (Ne.symm hn) _ _)
      rcases Raises.laReady (.changes (newLa_changes t)) hold hr with hr | hp
      · exact .inl hr
      · exact .inr (hraises.progress hp)
  · exact .inr hp

variable {la : LATimerBackoffFut}

theorem pollLa_of_waits {w : Waker} (hv : s.commandReady la.awaited = false) :
    s.pollLa n la w = (s.pollCommand la.awaited w, none) := by
  have hv : (s.channels la.awaited).value = none := Option.not_isSome_iff_eq_none.mp (Bool.eq_false_iff.mp hv)
  obtain ⟨cur, _ | seq, token, attempt, time, d, terminated⟩ := la
  · have hv : (s.channels (.activity cur)).value = none := hv
    simp only [pollLa, pollCurrentFut, hv]
    rfl
  · have hv : (s.channels (.timer seq)).value = none := hv
    simp only [pollLa, pollTimerFut, hv]
    rfl

theorem pollLa_las_of_ne {m : Nat} (hok : s.Ok) (hm : m ≠ n) (w : Waker) : (s.pollLa m la w).1.las n = s.las n := by
  rcases pollLa_cases hok m la w with
    ⟨-, he⟩ | ⟨seq, -, -, he⟩ | ⟨b, -, -, -, hp, he⟩ | ⟨t, la', r, hp, -, -, -, he⟩ <;> rw [he]
  · rfl
  · exact Function.update_of_ne (Ne.symm hm) _ _
  · exact (Function.update_of_ne (Ne.symm hm) _ _).trans (congrFun hp.frame.las n)
  · exact (Function.update_of_ne (Ne.symm hm) _ _).trans (congrFun hp.frame.las n)

theorem pollLa_raises_laReady {m : Nat} (hok : s.Ok) (hla : s.las m = some la) (hterm : la.terminated = false)
    (w : Waker) (hr : (s.pollLa m la w).1.laReady n = true) :
    s.laReady n = true ∨ (s.pollLa m la w).1.progressMade = true := by
  have hraises : Raises s (s.pollLa m la w).1 := .changes (pollLa_changes hok.sound hok.laSound m la w)
  by_cases hm : m = n
  · subst hm
    cases hv : s.commandReady la.awaited with
    | true => exact .inl (laReady_eq_true.mpr ⟨la, hla, hterm, hv⟩)
    | false => exact hraises.laReady (.of_eq (by rw [pollLa_of_waits hv]; rfl)) hr
  · exact hraises.laReady (.of_eq (pollLa_las_of_ne hok hm w)) hr

theorem timer_ready {t d : Nat} (hs : s.Sound)
    (hr : (s.timer t d).commandReady (.timer (s.nextSeq .timer)) = true) : (s.timer t d).progressMade = true := by
  have hop : (s.issue .timer (.startTimer · d)).GivenOp (.timer (s.nextSeq .timer)) := by
    intro seq hseq
    cases hseq
    exact hs.issue_given (List.mem_singleton_self _)
  have hraises : Raises (s.issue .timer (.startTimer · d)) (s.timer t d) :=
    (Raises.plain (register_op_plain hop)).trans (.poll _ _)
  have hempty : (s.issue .timer (.startTimer · d)).channels (.timer (s.nextSeq .timer)) = .channel :=
    issue_channels_of_mem (List.mem_singleton_self _)
  rcases hraises.ready _ hr with hr | hp
  · rw [commandReady, hempty] at hr
    cases hr
  · exact hp

/-- A pending poll leaves it not ready, or makes progress. -/
theorem pollLa_laReady (hok : s.Ok) (hla : s.las n = some la) (w : Waker) (hpend : (s.pollLa n la w).2 = none)
    (hr : (s.pollLa n la w).1.laReady n = true) : (s.pollLa n la w).1.progressMade = true := by
  rcases pollLa_cases hok n la w with
    ⟨hv, he⟩ | ⟨seq, -, -, he⟩ | ⟨b, -, -, -, -, he⟩ | ⟨t, la', r, -, -, -, -, he⟩
  · rw [he] at hr
    obtain ⟨lb, hlb, -, hready⟩ := laReady_eq_true.mp hr
    obtain rfl := Option.some.inj (hla.symm.trans hlb)
    rw [commandReady, pollCommand_value, hv] at hready
    cases hready
  · rw [he] at hr
    obtain ⟨lb, hlb, -, hready⟩ := laReady_eq_true.mp hr
    obtain rfl := Option.some.inj ((setLa_las_self _).symm.trans hlb)
    -- the attempt that comes after the timer is new
    exact (attempt_not_ready n (some la.nextAttempt)
      la.nextSchedTime hready).elim
  · rw [he] at hr ⊢
    obtain ⟨lb, hlb, -, hready⟩ := laReady_eq_true.mp hr
    obtain rfl := Option.some.inj ((setLa_las_self _).symm.trans hlb)
    exact timer_ready hok.sound hready
  · rw [he] at hpend
    cases hpend

/-- **What an action makes ready is progress.** -/
theorem act_laReady {a : Action} (hok : s.Ok) (ha : s.act a = some s') (hr : s'.laReady n = true) :
    s.laReady n = true ∨ s'.progressMade = true := by
  rcases act_cases hok.sound hok.laSound ha with hp | ⟨t, rfl⟩ | ⟨m, la, -, -, -, rfl⟩ | ⟨m, la, w, -, hla, hterm, rfl⟩
  · exact Raises.laReady (.changes hp.changes) (.of_eq (congrFun hp.frame.las n)) hr
  · exact executeLocalActivity_laReady hok t hr
  · exact cancelLa_laReady hok m hr
  · exact pollLa_raises_laReady hok hla hterm w hr

theorem runCallback_laReady {callback : Callback} (hok : s.Ok) (hr : (s.runCallback callback).laReady n = true) :
    s.laReady n = true ∨ (s.runCallback callback).progressMade = true := by
  cases callback with
  | op id => exact Raises.laReady (.cancel id) (.of_eq (congrFun (cancel_frame id).1 n)) hr
  | child t => exact Raises.laReady (.cancelToken t) (.of_eq (congrFun (cancelToken_frame t).1 n)) hr
  | localActivity m => exact cancelLa_laReady hok m hr

end Ctx

end SdkCore.WorkflowContext
