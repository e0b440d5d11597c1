import SdkCore.Workflow.Instance
import SdkCore.Lib.Logs

/-!
# Cancelling local activities

A cancel finds nothing to stop while a backoff timer has fired and was not polled since, and the next poll does not look
for it. Without such cancels nothing is retried (`no_attempt_after_cancel`).
-/

namespace SdkCore.WorkflowContext

namespace Ctx

variable {s s' : Ctx} {n : Nat}

/-! ## What small changes do to a local activity -/

variable {id : PendingCommandId} {seq : Nat}

theorem send_value_of_ne {event : UnblockEvent} (h : id ≠ event.id) : (s.send event).channels id = s.channels id := by
  simp only [send, Function.update_of_ne h]

theorem pollCommand_of_ne {id' : PendingCommandId} {w : Waker} (h : id' ≠ id) :
    (s.pollCommand id w).channels id' = s.channels id' := by
  simp only [pollCommand, Function.update_of_ne h]

/-- Commands are logged, and none schedules a local activity. -/
structure Appends (s s' : Ctx) : Prop where
  log : ∃ new, s'.log = new ++ s.log ∧
    ∀ e ∈ new, ∃ c, e = .command c ∧ ∀ seq la attempt time, c ≠ .scheduleLocalActivity seq la attempt time

theorem Appends.refl (h : s'.log = s.log) : Appends s s' := ⟨[], h, fun _ he => by cases he⟩

theorem Appends.push {c : WorkflowCommand} (h : s'.log = .command c :: s.log)
    (hc : ∀ seq la attempt time, c ≠ .scheduleLocalActivity seq la attempt time) : Appends s s' := by
  refine ⟨[.command c], h, fun e he => ⟨c, List.mem_singleton.mp he, hc⟩⟩

theorem Appends.trans {t : Ctx} (h : Appends s s') (h' : Appends s' t) : Appends s t := by
  obtain ⟨new, hl, hn⟩ := h.log
  obtain ⟨new', hl', hn'⟩ := h'.log
  refine ⟨new' ++ new, by rw [hl', hl, List.append_assoc], fun e he => ?_⟩
  rcases List.mem_append.mp he with he | he
  · exact hn' e he
  · exact hn e he

theorem cancel_appends (id : CancellableSeqNum) : Appends s (s.cancel id) := by
  obtain ⟨-, he⟩ | ⟨seq, -, -, he⟩ | ⟨seq, -, -, he⟩ | ⟨c, hc, he⟩ := s.cancel_cases id <;> rw [he]
  · exact .refl rfl
  · exact .push rfl fun _ _ _ _ h => by cases h
  · exact .refl rfl
  · refine .push rfl fun seq la attempt time h => ?_
    have hi := hc.issues
    rw [h] at hi
    cases hi

theorem Plain.appends (h : Plain s s') : Appends s s' := by
  cases h with
  | issue _ hla => exact .push issue_log fun seq la attempt time => hla _ seq la attempt time
  | cancel => exact cancel_appends _
  | cancelToken t =>
    unfold Ctx.cancelToken
    split <;> exact .refl rfl
  | poll | tokens | stateMut => exact .refl rfl

theorem Plains.appends (h : Plains s s') : Appends s s' :=
  h.keeps (P := Appends s) (fun _ _ hc ht => ht.trans hc.appends) (.refl rfl)

/-- Only a timer inside of a local activity is touched. -/
theorem Plain.channel (hl : s.LaSound) (h : Plain s s') (ho : s.Owned id) :
    s'.channels id = s.channels id ∨ ∃ seq, id = .timer seq ∧ s'.channels (.timer seq) = .send .cancelled := by
  cases h with
  | issue => exact .inl (issue_channels_of_not_mem fun hid => hl.not_owned_of_new hid ho)
  | cancel =>
    rename_i op _
    obtain ⟨-, he⟩ | ⟨seq, -, -, he⟩ | ⟨seq, -, -, he⟩ | ⟨c, -, he⟩ := s.cancel_cases op <;> rw [he]
    · exact .inl rfl
    · by_cases hid : id = .timer seq
      · exact .inr ⟨seq, hid, Function.update_self _ _ _⟩
      · exact .inl (send_value_of_ne hid)
    · exact .inl rfl
    · exact .inl rfl
  | poll w hn =>
    rename_i id'
    have hne : id ≠ id' := fun he => hn (he ▸ ho)
    exact .inl (pollCommand_of_ne hne)
  | cancelToken t =>
    unfold Ctx.cancelToken
    split <;> exact .inl rfl
  | tokens | stateMut => exact .inl rfl

theorem Plains.channel (hl : s.LaSound) (h : Plains s s') (ho : s.Owned id) :
    s'.channels id = s.channels id ∨ ∃ seq, id = .timer seq ∧ s'.channels (.timer seq) = .send .cancelled := by
  induction h with
  | refl => exact .inl rfl
  | tail hp hc ih =>
    have hp : Plains s _ := hp
    rcases hc.channel (hl.plains hp) ((Owned.congr hp.frame.las).mpr ho) with he | he
    · rcases ih with ih | ⟨seq, rfl, ih⟩
      · exact .inl (he.trans ih)
      · exact .inr ⟨seq, rfl, he.trans ih⟩
    · exact .inr he

/-! ## Cancelled local activities -/

/-- An attempt comes before the cancel. -/
def InTime (n : Nat) (before : List Entry) (e : Entry) : Prop :=
  ∀ seq attempt time, e = .command (.scheduleLocalActivity seq n attempt time) → ∀ q, .cancel n q ∉ before

theorem inTime_cancel (before : List Entry) (m seq : Nat) : InTime n before (.cancel m seq) := by
  intro _ _ _ he
  cases he

/-- Cancelled attempts were asked to stop. -/
def Marked (s : Ctx) : Prop :=
  ∀ seq, .localActivity seq ∈ s.cancelledOperations → .command (.requestCancelLocalActivity seq) ∈ s.log

/-- After a cancel the timer is cancelled, and the attempt was asked to stop. -/
structure Stops (n : Nat) (s : Ctx) : Prop where
  stopped : ∀ la seq, s.las n = some la → la.didCancel = true → la.timerFut = some seq →
    (s.channels (.timer seq)).value = some .cancelled
  cancelled : ∀ seq, .cancel n seq ∈ s.log → ∃ la, s.las n = some la ∧ la.didCancel = true
  requested : ∀ seq, .cancel n seq ∈ s.log → .command (.requestCancelLocalActivity seq) ∈ s.log
  marked : s.Marked
  ordered : Each (InTime n) s.log

theorem Appends.mem {e : Entry} (h : Appends s s') (he : e ∈ s.log) : e ∈ s'.log := by
  obtain ⟨new, hl, -⟩ := h.log
  rw [hl]
  exact List.mem_append_right _ he

theorem Appends.cancel_mem {m : Nat} (h : Appends s s') (he : .cancel m seq ∈ s'.log) : .cancel m seq ∈ s.log := by
  obtain ⟨new, hl, hn⟩ := h.log
  rw [hl] at he
  rcases List.mem_append.mp he with he | he
  · obtain ⟨c, hc, -⟩ := hn _ he
    cases hc
  · exact he

theorem Appends.ordered (h : Appends s s') (ho : Each (InTime n) s.log) : Each (InTime n) s'.log := by
  obtain ⟨new, hl, hn⟩ := h.log
  rw [hl]
  refine ho.append fun e he before seq attempt time hc => ?_
  obtain ⟨c, rfl, hne⟩ := hn e he
  exact absurd (Entry.command.inj hc) (hne seq n attempt time)

theorem Marked.congr (h : s.Marked) (ho : s'.cancelledOperations = s.cancelledOperations)
    (hl : ∀ e ∈ s.log, e ∈ s'.log) : s'.Marked :=
  fun seq hseq => hl _ (h seq (ho ▸ hseq))

theorem Marked.cancel (h : s.Marked) (id : CancellableSeqNum) : (s.cancel id).Marked := by
  have hm : (∀ q, id ≠ .localActivity q) → (s.mark id).Marked := by
    intro hne seq hseq
    rcases Finset.mem_insert.mp hseq with he | hseq
    · exact absurd he.symm (hne seq)
    · exact h seq hseq
  obtain ⟨-, he⟩ | ⟨seq, rfl, -, he⟩ | ⟨seq, rfl, -, he⟩ | ⟨c, hc, he⟩ := s.cancel_cases id <;> rw [he]
  · exact h
  · exact (hm fun _ => by simp).congr rfl fun _ he => List.mem_cons_of_mem _ he
  · exact hm fun _ => by simp
  · intro seq hseq
    rcases Finset.mem_insert.mp hseq with he | hseq
    · rw [hc.localActivity seq he.symm]
      exact List.mem_cons_self
    · exact List.mem_cons_of_mem _ (h seq hseq)

theorem Plain.marked (hp : Plain s s') (h : s.Marked) : s'.Marked := by
  have hl : ∀ e ∈ s.log, e ∈ s'.log := fun e => hp.appends.mem
  cases hp with
  | issue =>
    rename_i k _ _ _
    exact h.congr (by cases k <;> rfl) hl
  | cancel => exact h.cancel _
  | cancelToken t =>
    unfold Ctx.cancelToken
    split
    · exact h
    · exact h
  | poll | tokens | stateMut => exact h.congr rfl hl

theorem Plains.marked (hp : Plains s s') (h : s.Marked) : s'.Marked := hp.keeps (fun _ _ => Plain.marked) h

namespace Stops

theorem plains (h : Stops n s) (hl : s.LaSound) (hp : Plains s s') : Stops n s' where
  stopped la seq hla hd ht := by
    rw [hp.frame.las] at hla
    have ho : s.Owned (.timer seq) := ⟨n, la, hla, owns_iff.mpr (.inr ⟨seq, ht, rfl⟩)⟩
    rcases hp.channel hl ho with he | ⟨seq', hseq, he⟩
    · rw [he]
      exact h.stopped la seq hla hd ht
    · obtain rfl := PendingCommandId.timer.inj hseq
      rw [he]
      rfl
  cancelled seq hc := by
    rw [hp.frame.las]
    exact h.cancelled seq (hp.appends.cancel_mem hc)
  requested seq hc := hp.appends.mem (h.requested seq (hp.appends.cancel_mem hc))
  marked := hp.marked h.marked
  ordered := hp.appends.ordered h.ordered

theorem congr (h : Stops n s) (hlas : s'.las n = s.las n)
    (hv : ∀ la seq, s.las n = some la → la.timerFut = some seq →
      (s'.channels (.timer seq)).value = (s.channels (.timer seq)).value)
    (hlog : s'.log = s.log) (ho : s'.cancelledOperations = s.cancelledOperations) : Stops n s' where
  stopped la seq hla hd ht := by
    rw [hlas] at hla
    rw [hv la seq hla ht]
    exact h.stopped la seq hla hd ht
  cancelled seq hc := by
    rw [hlog] at hc
    rw [hlas]
    exact h.cancelled seq hc
  requested seq hc := by
    rw [hlog] at hc ⊢
    exact h.requested seq hc
  marked := h.marked.congr ho fun _ he => hlog ▸ he
  ordered := hlog ▸ h.ordered

theorem poll (h : Stops n s) (id : PendingCommandId) (w : Waker) : Stops n (s.pollCommand id w) :=
  h.congr rfl (fun _ _ _ _ => pollCommand_value _ _ _) rfl rfl

theorem setLa_other {m : Nat} (h : Stops n s) (hm : m ≠ n) (la : LATimerBackoffFut) : Stops n (s.setLa m la) :=
  h.congr (Function.update_of_ne hm.symm _ _) (fun _ _ _ _ => rfl) rfl rfl

theorem cancelLa_other {m : Nat} (h : Stops n s) (hl : s.LaSound) (hm : m ≠ n) : Stops n (s.cancelLa m) := by
  cases hla : s.las m with
  | none =>
    rw [cancelLa_of_none hla]
    exact h
  | some la =>
    have hnote : Stops n { s with log := .cancel m la.currentFut :: s.log } :=
      { stopped := h.stopped
        cancelled := fun seq hc => h.cancelled seq ((List.mem_cons.mp hc).resolve_left (by simp [hm.symm]))
        requested := fun seq hc =>
          List.mem_cons_of_mem _ (h.requested seq ((List.mem_cons.mp hc).resolve_left (by simp [hm.symm])))
        marked := h.marked.congr rfl fun _ he => List.mem_cons_of_mem _ he
        ordered := ⟨inTime_cancel _ _ _, h.ordered⟩ }
    have hset : Stops n (s.noteCancel m la) := hnote.setLa_other hm _
    exact hset.plains (hl.noteCancel hla) (cancelLa_eq hl hla).2

end Stops

/-! ### A cancel -/

theorem mem_cancelledOperations_cancel (id : CancellableSeqNum) : id ∈ (s.cancel id).cancelledOperations := by
  obtain ⟨hm, he⟩ | ⟨seq, -, -, he⟩ | ⟨seq, -, -, he⟩ | ⟨c, -, he⟩ := s.cancel_cases id <;> rw [he]
  · exact hm
  · exact Finset.mem_insert_self _ _
  · exact Finset.mem_insert_self _ _
  · exact Finset.mem_insert_self _ _

theorem cancel_channels {id : CancellableSeqNum} (h : ∀ seq, id ≠ .timer seq) :
    (s.cancel id).channels = s.channels := by
  obtain ⟨-, he⟩ | ⟨seq, hid, -, he⟩ | ⟨seq, -, -, he⟩ | ⟨c, -, he⟩ := s.cancel_cases id
  · rw [he]
  · exact absurd hid (h seq)
  · rw [he]
    rfl
  · rw [he]
    rfl

/-- A timer that has not fired is cancelled. -/
theorem cancel_timer_value (hs : s.Sound) (hg : s.Given (.timer seq))
    (hne : (s.channels (.timer seq)).value ≠ some .fired) :
    ((s.cancel (.timer seq)).channels (.timer seq)).value = some .cancelled := by
  have hv : .timer seq ∉ s.pendingUnblocks → (s.channels (.timer seq)).value = some .cancelled := by
    intro hp
    cases hval : (s.channels (.timer seq)).value with
    | none => exact absurd (hs.waiting _ hg hval) hp
    | some r =>
      cases r with
      | cancelled => rfl
      | fired => exact absurd hval hne
  obtain ⟨hm, he⟩ | ⟨q, hq, -, he⟩ | ⟨q, hq, hp, he⟩ | ⟨c, hc, -⟩ := s.cancel_cases (.timer seq)
  · rw [he]
    exact hv (hs.once seq hm).2
  · obtain rfl := CancellableSeqNum.timer.inj hq
    rw [he]
    simp [pushCommand, send, Oneshot.send]
  · obtain rfl := CancellableSeqNum.timer.inj hq
    rw [he]
    exact hv hp
  · exact absurd rfl (hc.ne_timer seq)

/-- The backoff timer has fired, and was not polled since. -/
def firedWaits (s : Ctx) (n : Nat) : Bool :=
  match s.las n with
  | some la =>
    match la.timerFut with
    | some seq => (s.channels (.timer seq)).value = some .fired
    | none => false
  | none => false

theorem ne_fired {la : LATimerBackoffFut} (h : s.firedWaits n = false) (hla : s.las n = some la)
    (ht : la.timerFut = some seq) : (s.channels (.timer seq)).value ≠ some .fired := by
  simp only [firedWaits, hla, ht] at h
  exact of_decide_eq_false h

namespace Stops

/-- A cancel in time stops the local activity. -/
theorem cancelLa (h : Stops n s) (hok : s.Ok) (hf : s.firedWaits n = false) : Stops n (s.cancelLa n) := by
  cases hla : s.las n with
  | none =>
    rw [cancelLa_of_none hla]
    exact h
  | some la =>
    obtain ⟨he, hp⟩ := cancelLa_eq hok.laSound hla
    have hlas : (s.cancelLa n).las n = some { la with didCancel := true } := by
      rw [hp.frame.las]
      exact Function.update_self _ _ _
    have hmark : (s.cancelLa n).Marked :=
      hp.marked (h.marked.congr rfl fun _ he => List.mem_cons_of_mem _ he)
    constructor
    · intro la' seq hla' _ ht
      obtain rfl := Option.some.inj (hlas.symm.trans hla')
      have hsound : (s.noteCancel n la).Sound := { hok.sound with }
      have hg : (s.noteCancel n la).Given (.timer seq) := hok.laSound.given_timer hla ht
      rw [he, cancel_channels (fun _ => by simp), show la.timerFut = some seq from ht]
      have hne : (s.channels (.timer seq)).value ≠ some .fired := ne_fired hf hla ht
      exact cancel_timer_value hsound hg hne
    · intro seq _
      exact ⟨_, hlas, rfl⟩
    · intro seq hc
      rcases List.mem_cons.mp (hp.appends.cancel_mem hc) with hc | hc
      · -- the attempt that it has is asked to be cancelled now, or was before
        cases hc
        refine hmark _ ?_
        rw [he]
        exact mem_cancelledOperations_cancel _
      · exact hp.appends.mem (List.mem_cons_of_mem _ (h.requested seq hc))
    · exact hmark
    · have ho : Each (InTime n) (s.noteCancel n la).log := ⟨inTime_cancel _ _ _, h.ordered⟩
      exact hp.appends.ordered ho

end Stops

/-! ### A poll -/

/-- The command is pending, a fired timer gives an attempt, a backoff gives a timer, or there is a result. -/
theorem pollLa_cases (hok : s.Ok) (n : Nat) (la : LATimerBackoffFut) (w : Waker) :
    ((s.channels la.awaited).value = none ∧ s.pollLa n la w = (s.pollCommand la.awaited w, none)) ∨
    (∃ seq, la.timerFut = some seq ∧ (s.channels (.timer seq)).value = some .fired ∧
      s.pollLa n la w = (((s.unregister la.cancellationToken (.op (.timer seq))).localActivityNoTimerRetry n
        (some la.nextAttempt) la.nextSchedTime).setLa n
          { la with timerFut := none, currentFut := s.nextSeq .activity }, none)) ∨
    (∃ b, la.timerFut = none ∧ (s.channels (.activity la.currentFut)).value = some (.backoff b) ∧
      la.didCancel = false ∧ Plains s (s.timer la.cancellationToken b.backoffDuration) ∧
      s.pollLa n la w = ((s.timer la.cancellationToken b.backoffDuration).setLa n
        { la with timerFut := some (s.nextSeq .timer), nextAttempt := b.attempt,
                  nextSchedTime := b.originalScheduleTime }, none)) ∨
    ∃ t la' r, Plains s t ∧ la'.timerFut = none ∧ la'.didCancel = la.didCancel ∧
      la'.cancellationToken = la.cancellationToken ∧ s.pollLa n la w = (t.finishLa n la', some r) := by
  obtain ⟨cur, _ | seq, token, attempt, time, d, terminated⟩ := la
  · simp only [pollLa, pollCurrentFut, LATimerBackoffFut.awaited]
    split
    · next hv => exact .inl ⟨hv, rfl⟩
    · next b hv =>
      cases d with
      | true => exact .inr (.inr (.inr ⟨s, _, _, .refl, rfl, rfl, rfl, rfl⟩))
      | false => exact .inr (.inr (.inl ⟨b, trivial, hv, rfl, timer_plains hok.sound hok.laSound _ _, rfl⟩))
    · exact .inr (.inr (.inr ⟨s, _, _, .refl, rfl, rfl, rfl, rfl⟩))
  · simp only [pollLa, pollTimerFut, LATimerBackoffFut.awaited]
    split
    · next hv => exact .inl ⟨hv, rfl⟩
    · next hv => exact .inr (.inl ⟨seq, rfl, hv, rfl⟩)
    · exact .inr (.inr (.inr ⟨s.unregister token (.op (.timer seq)), ⟨cur, none, token, attempt, time, d, terminated⟩,
        .cancelled, .single (unregister_op_plain _ _), rfl, rfl, rfl, rfl⟩))

theorem setLa_las_self (la : LATimerBackoffFut) : (s.setLa n la).las n = some la := Function.update_self _ _ _

namespace Stops

variable {la la' : LATimerBackoffFut} {m : Nat}

section

variable (h : Stops n s)
include h

theorem setLa (hla : s.las n = some la) (hd : la'.didCancel = la.didCancel)
    (ht : la.didCancel = false ∨ la'.timerFut = none) : Stops n (s.setLa n la') where
  stopped lb seq hlb hdb htb := by
    obtain rfl := Option.some.inj ((setLa_las_self la').symm.trans hlb)
    rcases ht with ht | ht
    · rw [hd, ht] at hdb
      cases hdb
    · rw [ht] at htb
      cases htb
  cancelled seq hc := by
    obtain ⟨lb, hlb, hdb⟩ := h.cancelled seq hc
    obtain rfl := Option.some.inj (hla.symm.trans hlb)
    exact ⟨la', setLa_las_self la', hd.trans hdb⟩
  requested := h.requested
  marked := h.marked
  ordered := h.ordered

theorem finishLa (hla : s.las n = some la) (hd : la'.didCancel = la.didCancel) (ht : la'.timerFut = none) :
    Stops n (s.finishLa n la') := by
  have hset : Stops n (s.setLa n { la' with terminated := true }) := h.setLa hla hd (.inr ht)
  exact { hset with }

/-- An attempt of a local activity that was not cancelled. -/
theorem attempt (hl : s.LaSound) (hm : m = n → ∀ q, .cancel n q ∉ s.log) (a t : Option Nat) :
    Stops n (s.localActivityNoTimerRetry m a t) where
  stopped la seq hla hd ht := by
    have ho : s.Owned (.timer seq) := ⟨n, la, hla, owns_iff.mpr (.inr ⟨seq, ht, rfl⟩)⟩
    rw [localActivityNoTimerRetry, issue_channels_of_not_mem fun hid => hl.not_owned_of_new hid ho]
    exact h.stopped la seq hla hd ht
  cancelled seq hc := h.cancelled seq ((List.mem_cons.mp hc).resolve_left (by simp))
  requested seq hc := List.mem_cons_of_mem _ (h.requested seq ((List.mem_cons.mp hc).resolve_left (by simp)))
  marked := h.marked.congr rfl fun _ he => List.mem_cons_of_mem _ he
  ordered := by
    refine ⟨fun seq attempt time he => ?_, h.ordered⟩
    cases he
    exact hm rfl

theorem not_cancelled_of_fired {seq : Nat} (hla : s.las n = some la) (ht : la.timerFut = some seq)
    (hv : (s.channels (.timer seq)).value = some .fired) (q : Nat) : .cancel n q ∉ s.log := by
  intro hc
  obtain ⟨lb, hlb, hd⟩ := h.cancelled q hc
  obtain rfl := Option.some.inj (hla.symm.trans hlb)
  have hcv := h.stopped la seq hla hd ht
  rw [hv] at hcv
  cases hcv

/-- Its poll goes on only if it was not cancelled. -/
theorem pollLa (hok : s.Ok) (hla : s.las n = some la) (w : Waker) : Stops n (s.pollLa n la w).1 := by
  rcases pollLa_cases hok n la w with
    ⟨-, he⟩ | ⟨seq, ht, hv, he⟩ | ⟨b, -, -, hd, hp, he⟩ | ⟨t, la', r, hp, ht, hd, -, he⟩ <;> rw [he]
  · exact h.poll _ w
  · have hu : Plain s (s.unregister la.cancellationToken (.op (.timer seq))) := unregister_op_plain _ _
    have hn := h.not_cancelled_of_fired hla ht hv
    refine ((h.plains hok.laSound (.single hu)).attempt (hok.laSound.plains (.single hu)) (fun _ => hn) _ _).setLa
      hla rfl (.inr rfl)
  · exact (h.plains hok.laSound hp).setLa ((congrFun hp.frame.las n).trans hla) rfl (.inl hd)
  · exact (h.plains hok.laSound hp).finishLa ((congrFun hp.frame.las n).trans hla) hd ht

theorem pollLa_other (hok : s.Ok) (hm : m ≠ n) (w : Waker) : Stops n (s.pollLa m la w).1 := by
  rcases pollLa_cases hok m la w with
    ⟨-, he⟩ | ⟨seq, -, -, he⟩ | ⟨b, -, -, -, hp, he⟩ | ⟨t, la', r, hp, -, -, -, he⟩ <;> rw [he]
  · exact h.poll _ w
  · have hu : Plain s (s.unregister la.cancellationToken (.op (.timer seq))) := unregister_op_plain _ _
    exact ((h.plains hok.laSound (.single hu)).attempt (hok.laSound.plains (.single hu))
      (fun e => absurd e hm) _ _).setLa_other hm _
  · exact (h.plains hok.laSound hp).setLa_other hm _
  · have hset : Stops n (t.setLa m { la' with terminated := true }) := (h.plains hok.laSound hp).setLa_other hm _
    exact { hset with }

theorem newLa (hl : s.LaSound) (t : Nat) : Stops n (s.newLa t) := by
  by_cases hn : s.nextLa = n
  · -- a local activity that there was not has not been cancelled
    have hnone : ∀ q, .cancel n q ∉ s.log := by
      intro q hc
      obtain ⟨la, hla, -⟩ := h.cancelled q hc
      rw [hl.counted n (Nat.le_of_eq hn)] at hla
      cases hla
    have ha := h.attempt hl (fun _ => hnone) none none (m := s.nextLa)
    have hlas : (s.newLa t).las n = some (.new (s.nextSeq .activity) t) := hn ▸ setLa_las_self _
    refine ⟨fun la seq hla _ ht => ?_, fun q hc => ?_, ha.requested, ha.marked, ha.ordered⟩
    · obtain rfl := Option.some.inj (hlas.symm.trans hla)
      cases ht
    · exact absurd ((List.mem_cons.mp hc).resolve_left (by simp)) (hnone q)
  · have ha := h.attempt hl (fun e => absurd e hn) none none
    have hcount : Stops n { s.localActivityNoTimerRetry s.nextLa none none with nextLa := s.nextLa + 1 } :=
      { ha with }
    exact hcount.setLa_other hn _

theorem executeLocalActivity (hok : s.Ok) (t : Nat) : Stops n (s.executeLocalActivity t) := by
  have hnew := h.newLa hok.laSound t
  refine Stops.poll ?_ _ _
  unfold register
  split
  · by_cases hn : s.nextLa = n
    · subst hn
      refine hnew.cancelLa (hok.newLa t) ?_
      have hlas : (s.newLa t).las s.nextLa = some (.new (s.nextSeq .activity) t) := setLa_las_self _
      simp only [firedWaits, hlas, LATimerBackoffFut.new]
    · exact hnew.cancelLa_other (hok.newLa t).laSound hn
  · exact { hnew with }

theorem send (hs : s.Sound) {event : UnblockEvent} (hp : event.id ∈ s.pendingUnblocks) : Stops n (s.send event) where
  stopped la seq hla hd ht := by
    have hv := h.stopped la seq hla hd ht
    have hne : .timer seq ≠ event.id := by
      intro he
      rw [hs.empty _ (he ▸ hp)] at hv
      cases hv
    rw [send_value_of_ne hne]
    exact hv
  cancelled := h.cancelled
  requested := h.requested
  marked := h.marked
  ordered := h.ordered

theorem act {a : Action} (hok : s.Ok) (hc : a = .cancelLa n → s.firedWaits n = false) (ha : s.act a = some s') :
    Stops n s' := by
  rcases act_cases hok.sound hok.laSound ha with hp | ⟨t, rfl⟩ | ⟨m, la, rfl, -, -, rfl⟩ | ⟨m, la, w, -, hla, -, rfl⟩
  · exact h.plains hok.laSound hp
  · exact h.executeLocalActivity hok t
  · by_cases hm : m = n
    · subst hm
      exact h.cancelLa hok (hc rfl)
    · exact h.cancelLa_other hok.laSound hm
  · by_cases hm : m = n
    · subst hm
      exact h.pollLa hok hla w
    · exact h.pollLa_other hok hm w

theorem runCallback {callback : Callback} (hok : s.Ok) (hcb : s.GivenCallback callback)
    (hc : callback = .localActivity n → s.firedWaits n = false) : Stops n (s.runCallback callback) := by
  cases callback with
  | op id => exact h.plains hok.laSound (.single (.cancel (hcb id rfl)))
  | child t => exact h.plains hok.laSound (.single (.cancelToken t))
  | localActivity m =>
    by_cases hm : m = n
    · subst hm
      exact h.cancelLa hok (hc rfl)
    · exact h.cancelLa_other hok.laSound hm

end

theorem init : Stops n init where
  stopped _ _ hla := by cases hla
  cancelled _ hc := by cases hc
  requested _ hc := by cases hc
  marked _ hseq := absurd hseq (Finset.notMem_empty _)
  ordered := trivial

end Stops

end Ctx

namespace GuestWorkflowInstance

variable {s s' : GuestWorkflowInstance} {n : Nat}

/-- No cancel comes while a fired timer was not polled. -/
def CancelsInTime (n : Nat) (s : GuestWorkflowInstance) : Input → Prop
  | .act a => a = .cancelLa n → s.ctx.firedWaits n = false
  | .callback => s.ctx.callbacks.head? = some (.localActivity n) → s.ctx.firedWaits n = false
  | _ => True

/-- Such steps keep it stopped. -/
theorem stops_step {i : Input} (hinv : Inv s) (h : Ctx.Stops n s.ctx) (hi : CancelsInTime n s i)
    (hs : step s i = some s') : Ctx.Stops n s'.ctx := by
  rcases step_ctx hs with ⟨callback, rest, rfl, hc, he⟩ | ⟨a, rfl, ha⟩ | ⟨event, hp, he⟩ | ⟨t, w, p, cs, ht, he⟩
  · obtain ⟨hok, hcb⟩ := hinv.ctx.next hc
    have hr : Ctx.Stops n { s.ctx with callbacks := rest } := { h with }
    rw [he]
    exact hr.runCallback hok hcb fun hcb => hi (by rw [hc, hcb]; rfl)
  · exact h.act hinv.ctx hi ha
  · rw [he]
    exact h.send hinv.ctx.sound hp
  · rw [he]
    exact { h.plains hinv.ctx.laSound ht with }

theorem Reachable.stops (h : Reachable (CancelsInTime n) s) : Ctx.Stops n s.ctx := by
  induction h with
  | start h =>
    subst h
    exact Ctx.Stops.init
  | step h hi hs ih => exact stops_step (Reachable.inv h) ih hi hs

/-- **A cancelled local activity is not retried**, if it is not cancelled after its backoff timer has fired and before
the next poll: no attempt is scheduled after a cancel, and the one at hand was asked to be cancelled. -/
theorem no_attempt_after_cancel (h : Reachable (CancelsInTime n) s) :
    (∀ after before seq attempt time,
      s.ctx.log = after ++ .command (.scheduleLocalActivity seq n attempt time) :: before → ∀ q, .cancel n q ∉ before) ∧
    ∀ seq, .cancel n seq ∈ s.ctx.log → .command (.requestCancelLocalActivity seq) ∈ s.ctx.log :=
  ⟨fun after before seq attempt time hl => each_iff.mp h.stops.ordered after _ before hl seq attempt time rfl,
    h.stops.requested⟩

instance (n : Nat) (s : GuestWorkflowInstance) (i : Input) : Decidable (CancelsInTime n s i) :=
  match i with
  | .act a => inferInstanceAs (Decidable (a = .cancelLa n → s.ctx.firedWaits n = false))
  | .callback =>
    inferInstanceAs (Decidable (s.ctx.callbacks.head? = some (.localActivity n) → s.ctx.firedWaits n = false))
  | .resolve _ | .enterRuntimePoll _ | .leaveRuntimePoll | .cancelWorkflow | .complete => .isTrue trivial

/-- The first attempt backs off, and the timer is started. -/
def backingOff : List Input :=
  [.act (.executeLocalActivity 0), .complete, .resolve ⟨.activity 1, .backoff ⟨2, 10, none⟩⟩,
    .act (.pollLa 0 (.task 0)), .complete]

theorem no_attempt_after_cancel_backoff :
    ∃ s, Reachable (CancelsInTime 0) s ∧ .cancel 0 1 ∈ s.ctx.log ∧
      .command (.requestCancelLocalActivity 1) ∈ s.ctx.log ∧
      ∀ after before seq attempt time,
        s.ctx.log = after ++ .command (.scheduleLocalActivity seq 0 attempt time) :: before →
          ∀ q, .cancel 0 q ∉ before := by
  obtain ⟨s, hr, hc⟩ : ∃ s, Reachable (CancelsInTime 0) s ∧ .cancel 0 1 ∈ s.ctx.log :=
    Reachable.exists_of_trace (backingOff ++
      [.cancelWorkflow, .callback, .callback, .act (.pollLa 0 (.task 0))]) (by decide)
  obtain ⟨hordered, hrequested⟩ := no_attempt_after_cancel hr
  exact ⟨s, hr, hc, hrequested 1 hc, hordered⟩

/-- The timer fires, the local activity is cancelled, and the next poll schedules an attempt. -/
theorem attempt_after_cancel :
    ∃ s, Reachable (fun _ _ => True) s ∧ ∃ after before,
      s.ctx.log = after ++ .command (.scheduleLocalActivity 2 0 (some 2) none) :: before ∧ .cancel 0 1 ∈ before ∧
      .command (.requestCancelLocalActivity 2) ∉ s.ctx.log := by
  obtain ⟨s, hr, hl⟩ : ∃ s, Reachable (fun _ _ => True) s ∧ s.ctx.log =
      [.command (.scheduleLocalActivity 2 0 (some 2) none), .command (.requestCancelLocalActivity 1), .cancel 0 1,
        .command (.startTimer 1 10), .command (.scheduleLocalActivity 1 0 none none)] :=
    Reachable.exists_of_trace
      (backingOff ++ [.resolve ⟨.timer 1, .fired⟩, .act (.cancelLa 0), .act (.pollLa 0 (.task 0))]) (by decide)
  exact ⟨s, hr, [], _, hl, by decide, by rw [hl]; decide⟩

end GuestWorkflowInstance

end SdkCore.WorkflowContext
