import SdkCore.Workflow.LocalActivityFut

/-!
# Waking local activities

A pending poll of a local activity should leave its waker where the next resolution finds it
(`woken_after_pending_iff`). The attempt after a fired timer is not polled, and the timer after a backoff with the waker
of the runtime.
-/

namespace SdkCore.WorkflowContext

namespace Ctx

variable {s s' : Ctx} {n : Nat}

/-! ## A local activity hears of its token -/

theorem didCancel_of_cancelLa {la : LATimerBackoffFut} (hl : s.LaSound) (hla : (s.cancelLa n).las n = some la) :
    la.didCancel = true := by
  cases hlas : s.las n with
  | none =>
    rw [cancelLa_of_none hlas, hlas] at hla
    cases hla
  | some lb =>
    rw [(cancelLa_eq hl hlas).2.frame.las] at hla
    obtain rfl := Option.some.inj ((setLa_las_self _).symm.trans hla)
    rfl

/-- The local activity listens to its token, or its callback is going to be run. -/
def Heard (n : Nat) (s : Ctx) : Prop :=
  ∀ la, s.las n = some la → la.terminated = false → la.didCancel = false →
    .localActivity n ∈ s.callbacks ∨
    ((s.tokens la.cancellationToken).cancelled = false ∧
      .localActivity n ∈ (s.tokens la.cancellationToken).callbacks)

namespace Heard

section

variable (h : Heard n s)
include h

theorem congr (hlas : s'.las n = s.las n) (ht : s'.tokens = s.tokens) (hc : s'.callbacks = s.callbacks) :
    Heard n s' := by
  intro la
  rw [hlas, ht, hc]
  exact h la

theorem cancelToken (t : Nat) : Heard n (s.cancelToken t) := by
  unfold Ctx.cancelToken
  split
  · exact h
  · intro la hla hterm hd
    rcases h la hla hterm hd with hcb | ⟨hc, hcb⟩
    · exact .inl (List.mem_append_right _ hcb)
    · by_cases ht : la.cancellationToken = t
      · exact .inl (List.mem_append_left _ (ht ▸ hcb))
      · refine .inr ?_
        simp only [Function.update_of_ne ht]
        exact ⟨hc, hcb⟩

/-- Callbacks of other operations change. -/
theorem relisten {tokens : Nat → WorkflowCancellationToken} {k : Nat} (hr : s.Relisten tokens)
    (hkeep : ∀ t, .localActivity n ∈ (s.tokens t).callbacks → .localActivity n ∈ (tokens t).callbacks) :
    Heard n { s with tokens := tokens, nextToken := k } := by
  intro la hla hterm hd
  rcases h la hla hterm hd with hcb | ⟨hc, hcb⟩
  · exact .inl hcb
  · exact .inr ⟨(hr.cancelled _).trans hc, hkeep _ hcb⟩

theorem plain (hp : Plain s s') : Heard n s' := by
  cases hp with
  | issue =>
    rename_i k _ _ _
    exact h.congr (congrFun issue_las n) issue_tokens (by cases k <;> rfl)
  | @cancel id =>
    obtain ⟨hlas, -, -, ht, hc⟩ := s.cancel_frame id
    exact h.congr (congrFun hlas n) ht hc
  | cancelToken t => exact h.cancelToken t
  | tokens k hr hkeep => exact h.relisten hr fun t => hkeep t n
  | poll | stateMut => exact h

theorem plains (hp : Plains s s') : Heard n s' := hp.keeps (fun _ _ hc ht => ht.plain hc) h

theorem setLa_other {m : Nat} (hm : m ≠ n) (la : LATimerBackoffFut) : Heard n (s.setLa m la) :=
  h.congr (Function.update_of_ne hm.symm _ _) rfl rfl

theorem cancelLa (hl : s.LaSound) (m : Nat) : Heard n (s.cancelLa m) := by
  by_cases hm : m = n
  · subst hm
    intro la hla _ hd
    rw [didCancel_of_cancelLa hl hla] at hd
    cases hd
  · cases hla : s.las m with
    | none =>
      rw [cancelLa_of_none hla]
      exact h
    | some la =>
      have hlog : Heard n { s with log := .cancel m la.currentFut :: s.log } := h
      have hnote : Heard n (s.noteCancel m la) := hlog.setLa_other hm _
      exact hnote.plains (cancelLa_eq hl hla).2

theorem finishLa (m : Nat) (la : LATimerBackoffFut) : Heard n (s.finishLa m la) := by
  by_cases hm : m = n
  · subst hm
    intro lb hlb hterm _
    obtain rfl := Option.some.inj ((setLa_las_self _).symm.trans hlb)
    cases hterm
  · have hset : Heard n (s.setLa m { la with terminated := true }) := h.setLa_other hm _
    refine hset.relisten (relisten_unregister _ _) fun t hcb => ?_
    exact mem_update_callbacks (fun hin => (List.mem_erase_of_ne (by simp [Ne.symm hm])).mpr hin) hcb

theorem attempt (m : Nat) (a t : Option Nat) : Heard n (s.localActivityNoTimerRetry m a t) :=
  h.congr (congrFun issue_las n) issue_tokens rfl

theorem setLa {m : Nat} {la la' : LATimerBackoffFut} (hla : s.las m = some la)
    (ht : la'.cancellationToken = la.cancellationToken) (hterm : la'.terminated = la.terminated)
    (hd : la'.didCancel = la.didCancel) : Heard n (s.setLa m la') := by
  by_cases hm : m = n
  · subst hm
    intro lb hlb
    obtain rfl := Option.some.inj ((setLa_las_self la').symm.trans hlb)
    rw [ht, hterm, hd]
    exact h la hla
  · exact h.setLa_other hm la'

theorem pollLa {m : Nat} {la : LATimerBackoffFut} (hok : s.Ok) (hla : s.las m = some la) (w : Waker) :
    Heard n (s.pollLa m la w).1 := by
  rcases pollLa_cases hok m la w with
    ⟨-, he⟩ | ⟨seq, -, -, he⟩ | ⟨b, -, -, -, hp, he⟩ | ⟨t, la', r, hp, -, -, -, he⟩ <;> rw [he]
  · exact h
  · exact ((h.plain (unregister_op_plain la.cancellationToken (.timer seq))).attempt m _ _).setLa hla rfl rfl rfl
  · exact (h.plains hp).setLa ((congrFun hp.frame.las m).trans hla) rfl rfl rfl
  · exact (h.plains hp).finishLa m la'

theorem executeLocalActivity (hok : s.Ok) (t : Nat) : Heard n (s.executeLocalActivity t) := by
  have hl := (hok.newLa t).laSound
  change Heard n ((s.newLa t).register t (.localActivity s.nextLa))
  by_cases hn : s.nextLa = n
  · subst hn
    have hlas : (s.newLa t).las s.nextLa = some (.new (s.nextSeq .activity) t) := setLa_las_self _
    unfold register
    split
    · intro la hla _ hd
      rw [didCancel_of_cancelLa hl hla] at hd
      cases hd
    · next hc =>
      intro la hla _ _
      obtain rfl := Option.some.inj (hlas.symm.trans hla)
      refine .inr ?_
      simp only [LATimerBackoffFut.new, Function.update_self]
      exact ⟨Bool.eq_false_iff.mpr hc, List.mem_append_right _ (List.mem_singleton_self _)⟩
  · have hcount : Heard n { s.localActivityNoTimerRetry s.nextLa none none with nextLa := s.nextLa + 1 } :=
      h.attempt s.nextLa none none
    have hnew : Heard n (s.newLa t) := hcount.setLa_other hn _
    unfold register
    split
    · exact hnew.cancelLa hl s.nextLa
    · refine hnew.relisten (relisten_add fun _ he => by cases he) fun t' hcb => ?_
      exact mem_update_callbacks (fun hin => List.mem_append_left _ hin) hcb

theorem act {a : Action} (hok : s.Ok) (ha : s.act a = some s') : Heard n s' := by
  rcases act_cases hok.sound hok.laSound ha with hp | ⟨t, rfl⟩ | ⟨m, la, -, -, -, rfl⟩ | ⟨m, la, w, -, hla, -, rfl⟩
  · exact h.plains hp
  · exact h.executeLocalActivity hok t
  · exact h.cancelLa hok.laSound m
  · exact h.pollLa hok hla w

theorem runNext {callback : Callback} {rest : List Callback} (hok : s.Ok) (hc : s.callbacks = callback :: rest) :
    Heard n ({ s with callbacks := rest }.runCallback callback) := by
  obtain ⟨hok', hcb⟩ := hok.next hc
  by_cases hn : callback = .localActivity n
  · subst hn
    intro la hla _ hd
    rw [didCancel_of_cancelLa hok'.laSound hla] at hd
    cases hd
  · have hr : Heard n { s with callbacks := rest } := by
      intro la hla hterm hd
      refine (h la hla hterm hd).imp_left fun hin => ?_
      rw [hc] at hin
      exact (List.mem_cons.mp hin).resolve_left (Ne.symm hn)
    cases callback with
    | op id => exact hr.plain (.cancel (hcb id rfl))
    | child t => exact hr.plain (.cancelToken t)
    | localActivity m => exact hr.cancelLa hok'.laSound m

end

theorem init : Heard n init := by
  intro la hla
  cases hla

end Heard

end Ctx

namespace GuestWorkflowInstance

variable {s s' : GuestWorkflowInstance} {n : Nat}

/-- Every step keeps this. -/
theorem heard_step {i : Input} (hinv : Inv s) (h : Ctx.Heard n s.ctx) (hs : step s i = some s') :
    Ctx.Heard n s'.ctx := by
  rcases step_ctx hs with ⟨callback, rest, -, hc, he⟩ | ⟨a, -, ha⟩ | ⟨event, -, he⟩ | ⟨t, w, p, cs, ht, he⟩
  · rw [he]
    exact h.runNext hinv.ctx hc
  · exact h.act hinv.ctx ha
  · rw [he]
    exact h
  · rw [he]
    exact (h.plains ht).congr rfl rfl rfl

theorem Reachable.heard {ok : GuestWorkflowInstance → Input → Prop} (h : Reachable ok s) (n : Nat) :
    Ctx.Heard n s.ctx := by
  induction h with
  | start h =>
    subst h
    exact Ctx.Heard.init
  | step h _ hs ih => exact heard_step (Reachable.inv h) ih hs

end GuestWorkflowInstance

namespace Ctx

variable {s s' : Ctx} {n : Nat} {id : PendingCommandId} {w : Waker}

/-! ## The waker stays with the command -/

theorem owns_awaited (la : LATimerBackoffFut) : la.owns la.awaited = true := by
  cases ht : la.timerFut with
  | none => exact owns_iff.mpr (.inl (by simp only [LATimerBackoffFut.awaited, ht]))
  | some seq => exact owns_iff.mpr (.inr ⟨seq, ht, by simp only [LATimerBackoffFut.awaited, ht]⟩)

/-- The future waits for the command, which has the waker until something is sent. -/
def Parked (n : Nat) (id : PendingCommandId) (w : Waker) (s : Ctx) : Prop :=
  ∃ la, s.las n = some la ∧ la.awaited = id ∧ ((s.channels id).value = none → (s.channels id).waker = some w)

namespace Parked

section

variable (h : Parked n id w s)
include h

theorem owned : s.Owned id := by
  obtain ⟨la, hla, rfl, -⟩ := h
  exact ⟨n, la, hla, owns_awaited la⟩

theorem congr (hlas : s'.las n = s.las n) (hch : s'.channels id = s.channels id ∨ (s'.channels id).value ≠ none) :
    Parked n id w s' := by
  obtain ⟨la, hla, ha, hw⟩ := h
  refine ⟨la, hlas.trans hla, ha, fun hv => ?_⟩
  rcases hch with hch | hch
  · rw [hch] at hv ⊢
    exact hw hv
  · exact absurd hv hch

theorem plains (hl : s.LaSound) (hp : Plains s s') : Parked n id w s' := by
  refine h.congr (congrFun hp.frame.las n) ?_
  rcases hp.channel hl h.owned with he | ⟨seq, rfl, he⟩
  · exact .inl he
  · exact .inr (by rw [he]; simp [Oneshot.send])

theorem setLa_other {m : Nat} (hm : m ≠ n) (la : LATimerBackoffFut) : Parked n id w (s.setLa m la) :=
  h.congr (Function.update_of_ne hm.symm _ _) (.inl rfl)

theorem cancelLa (hl : s.LaSound) (m : Nat) : Parked n id w (s.cancelLa m) := by
  cases hla : s.las m with
  | none =>
    rw [cancelLa_of_none hla]
    exact h
  | some la =>
    have hnote : Parked n id w (s.noteCancel m la) := by
      by_cases hm : m = n
      · subst hm
        obtain ⟨lb, hlb, ha, hw⟩ := h
        obtain rfl := Option.some.inj (hla.symm.trans hlb)
        exact ⟨_, setLa_las_self _, ha, hw⟩
      · exact setLa_other h hm _
    exact hnote.plains (hl.noteCancel hla) (cancelLa_eq hl hla).2

theorem attempt (hl : s.LaSound) (m : Nat) (a t : Option Nat) : Parked n id w (s.localActivityNoTimerRetry m a t) :=
  h.congr (congrFun issue_las n)
    (.inl (issue_channels_of_not_mem fun hid => hl.not_owned_of_new hid h.owned))

theorem pollLa_other {m : Nat} {la : LATimerBackoffFut} (hok : s.Ok) (hm : m ≠ n) (hla : s.las m = some la)
    (w' : Waker) :
    Parked n id w (s.pollLa m la w').1 := by
  rcases pollLa_cases hok m la w' with
    ⟨-, he⟩ | ⟨seq, -, -, he⟩ | ⟨b, -, -, -, hp, he⟩ | ⟨t, la', r, hp, -, -, -, he⟩ <;> rw [he]
  · have hne : id ≠ la.awaited := by
      obtain ⟨lb, hlb, hb, -⟩ := h
      intro heq
      exact hm (hok.laSound.apart m n la lb id hla hlb (heq ▸ owns_awaited la) (hb ▸ owns_awaited lb))
    exact h.congr rfl (.inl (pollCommand_of_ne hne))
  · have hu : Plain s (s.unregister la.cancellationToken (.op (.timer seq))) := unregister_op_plain _ _
    exact ((h.plains hok.laSound (.single hu)).attempt (hok.laSound.plains (.single hu)) m _ _).setLa_other hm _
  · exact (h.plains hok.laSound hp).setLa_other hm _
  · exact (h.plains hok.laSound hp).setLa_other hm _

theorem executeLocalActivity (hok : s.Ok) (t : Nat) : Parked n id w (s.executeLocalActivity t) := by
  have hm : s.nextLa ≠ n := by
    obtain ⟨la, hla, -⟩ := h
    exact Nat.ne_of_gt (hok.laSound.lt_nextLa hla)
  have hcount : Parked n id w { s.localActivityNoTimerRetry s.nextLa none none with nextLa := s.nextLa + 1 } :=
    h.attempt hok.laSound s.nextLa none none
  have hnew : Parked n id w (s.newLa t) := hcount.setLa_other hm _
  have hr : Parked n id w ((s.newLa t).register t (.localActivity s.nextLa)) := by
    unfold register
    split
    · exact hnew.cancelLa (hok.newLa t).laSound s.nextLa
    · exact hnew
  have hne : id ≠ .activity (s.nextSeq .activity) := by
    rintro rfl
    exact hok.laSound.not_owned_of_new (k := .activity) (List.mem_singleton_self _) h.owned
  exact hr.congr rfl (.inl (pollCommand_of_ne hne))

theorem act {a : Action} (hok : s.Ok) (hn : ∀ w', a ≠ .pollLa n w') (ha : s.act a = some s') : Parked n id w s' := by
  rcases act_cases hok.sound hok.laSound ha with hp | ⟨t, rfl⟩ | ⟨m, la, -, -, -, rfl⟩ | ⟨m, la, w', rfl, hla, -, rfl⟩
  · exact h.plains hok.laSound hp
  · exact h.executeLocalActivity hok t
  · exact h.cancelLa hok.laSound m
  · have hm : m ≠ n := fun e => hn w' (by rw [e])
    exact h.pollLa_other hok hm hla w'

theorem runCallback {callback : Callback} (hok : s.Ok) (hcb : s.GivenCallback callback) :
    Parked n id w (s.runCallback callback) := by
  cases callback with
  | op op => exact h.plains hok.laSound (.single (.cancel (hcb op rfl)))
  | child t => exact h.plains hok.laSound (.single (.cancelToken t))
  | localActivity m => exact h.cancelLa hok.laSound m

theorem send (event : UnblockEvent) : Parked n id w (s.send event) := by
  refine h.congr rfl ?_
  by_cases he : id = event.id
  · subst he
    exact .inr (by simp [Ctx.send, Oneshot.send])
  · exact .inl (send_value_of_ne he)

end

end Parked

end Ctx

namespace GuestWorkflowInstance

variable {s s' : GuestWorkflowInstance} {n : Nat} {w : Waker}

def Unpolled (n : Nat) (_ : GuestWorkflowInstance) (i : Input) : Prop := ∀ w, i ≠ .act (.pollLa n w)

/-- Until the next poll every step keeps this. -/
theorem parked_step {i : Input} {id : PendingCommandId} (hinv : Inv s) (h : Ctx.Parked n id w s.ctx)
    (hi : Unpolled n s i) (hs : step s i = some s') : Ctx.Parked n id w s'.ctx := by
  rcases step_ctx hs with ⟨callback, rest, -, hc, he⟩ | ⟨a, rfl, ha⟩ | ⟨event, -, he⟩ | ⟨t, _, p, cs, ht, he⟩
  · obtain ⟨hok, hcb⟩ := hinv.ctx.next hc
    have hr : Ctx.Parked n id w { s.ctx with callbacks := rest } := h
    rw [he]
    exact hr.runCallback hok hcb
  · exact h.act hinv.ctx (fun w' e => hi w' (by rw [e])) ha
  · rw [he]
    exact h.send event
  · rw [he]
    exact (h.plains hinv.ctx.laSound ht).congr rfl (.inl rfl)

theorem Reach.parked {t : GuestWorkflowInstance} {id : PendingCommandId} (hinv : Inv s)
    (h : Ctx.Parked n id w s.ctx) (hr : Reach (fun s i s' => step s i = some s') (Unpolled n) (· = s) t) :
    Inv t ∧ Ctx.Parked n id w t.ctx := by
  refine Reach.invariant (I := fun t => Inv t ∧ Ctx.Parked n id w t.ctx) ?_ ?_ hr
  · rintro _ rfl
    exact ⟨hinv, h⟩
  · intro t i t' ht hi hs
    exact ⟨ht.1.step hs, parked_step ht.1 ht.2 hi hs⟩

/-! ## What a poll leaves behind -/

/-- Until the next poll, the waker is woken by the resolution of the command. -/
def WakesOn (n : Nat) (w : Waker) (s : GuestWorkflowInstance) : Prop :=
  ∀ t, Reach (fun s i s' => step s i = some s') (Unpolled n) (· = s) t →
    ∀ la event ctx, t.ctx.las n = some la → event.id = la.awaited → t.ctx.unblock event = some ctx →
      ctx.woken = w :: t.ctx.woken

theorem exists_event (id : PendingCommandId) : ∃ event : UnblockEvent, event.id = id := by
  cases id with
  | timer seq => exact ⟨⟨.timer seq, .fired⟩, rfl⟩
  | activity seq => exact ⟨⟨.activity seq, .completed⟩, rfl⟩
  | childWorkflowStart seq => exact ⟨⟨.childWorkflowStart seq, ()⟩, rfl⟩
  | childWorkflowComplete seq => exact ⟨⟨.childWorkflowComplete seq, ()⟩, rfl⟩
  | signalExternal seq => exact ⟨⟨.signalExternal seq, ()⟩, rfl⟩
  | cancelExternal seq => exact ⟨⟨.cancelExternal seq, ()⟩, rfl⟩
  | nexusOpStart seq => exact ⟨⟨.nexusOpStart seq, ()⟩, rfl⟩
  | nexusOpComplete seq => exact ⟨⟨.nexusOpComplete seq, ()⟩, rfl⟩

theorem unblock_eq_some {s ctx : Ctx} {event : UnblockEvent} (h : s.unblock event = some ctx) :
    event.id ∈ s.pendingUnblocks ∧ ctx = s.send event := by
  unfold Ctx.unblock at h
  split at h
  · next hp => exact ⟨hp, (Option.some.inj h).symm⟩
  · cases h

/-- The command has to have the waker. -/
theorem wakesOn_iff {la : LATimerBackoffFut} (hinv : Inv s) (hla : s.ctx.las n = some la)
    (hv : (s.ctx.channels la.awaited).value = none) :
    WakesOn n w s ↔ (s.ctx.channels la.awaited).waker = some w := by
  constructor
  · intro h
    obtain ⟨event, he⟩ := exists_event la.awaited
    have hg : s.ctx.Given la.awaited := hinv.ctx.laSound.bounded _ ⟨n, la, hla, Ctx.owns_awaited la⟩
    have hp : event.id ∈ s.ctx.pendingUnblocks := he ▸ hinv.ctx.sound.waiting _ hg hv
    have hw := h s (.start rfl) la event _ hla he (if_pos hp)
    have hlist : (s.ctx.channels event.id).waker.toList = [w] := List.append_cancel_right hw
    rw [he] at hlist
    exact Option.toList_eq_singleton_iff.mp hlist
  · intro h t ht la' event ctx hla' he hu
    obtain ⟨hinvt, lb, hlb, hid, hw⟩ := Reach.parked hinv ⟨la, hla, rfl, fun _ => h⟩ ht
    obtain rfl := Option.some.inj (hla'.symm.trans hlb)
    obtain ⟨hp, rfl⟩ := unblock_eq_some hu
    have hwt : (t.ctx.channels event.id).waker = some w := by
      rw [he, hid]
      exact hw (hid ▸ he ▸ hinvt.ctx.sound.empty _ hp)
    show (t.ctx.channels event.id).waker.toList ++ t.ctx.woken = _
    rw [hwt]
    rfl

end GuestWorkflowInstance

namespace Ctx

variable {s : Ctx} {n : Nat} {w : Waker} {la : LATimerBackoffFut}

/-- A backoff was not polled yet. -/
def backoffWaits (s : Ctx) (n : Nat) : Bool :=
  match s.las n with
  | some la =>
    match la.timerFut, (s.channels (.activity la.currentFut)).value with
    | none, some (.backoff _) => true
    | _, _ => false
  | none => false

/-- The waker that a pending poll leaves. -/
def parkedWaker (s : Ctx) (n : Nat) (w : Waker) : Option Waker :=
  if s.firedWaits n then none else if s.backoffWaits n then some s.constructionWaker else some w

theorem timer_channel {t d : Nat} (ht : (s.tokens t).cancelled = false) :
    (s.timer t d).channels (.timer (s.nextSeq .timer)) = ⟨none, some s.constructionWaker⟩ := by
  have hi : (s.issue .timer (.startTimer · d)).channels (.timer (s.nextSeq .timer)) = .channel :=
    issue_channels_of_mem (List.mem_singleton_self _)
  have hr : ¬ ((s.issue .timer (.startTimer · d)).tokens t).cancelled = true := by
    rw [issue_tokens, ht]
    exact Bool.false_ne_true
  simp only [timer, start, register, if_neg hr, pollCommand, Function.update_self, hi]
  rfl

/-- The command that is waited for has a waker only if it was polled. -/
theorem pollLa_pending (hok : s.Ok) (hheard : Heard n s) (hc : s.callbacks = []) (hla : s.las n = some la)
    (hterm : la.terminated = false) (hpend : (s.pollLa n la w).2 = none) :
    ∃ la', (s.pollLa n la w).1.las n = some la' ∧
      (s.pollLa n la w).1.channels la'.awaited = ⟨none, s.parkedWaker n w⟩ := by
  rcases pollLa_cases hok n la w with
    ⟨hv, he⟩ | ⟨seq, ht, hv, he⟩ | ⟨b, ht, hv, hd, -, he⟩ | ⟨t, la', r, -, -, -, -, he⟩
  · rw [he]
    refine ⟨la, hla, ?_⟩
    have hpark : s.parkedWaker n w = some w := by
      obtain ⟨cur, _ | seq, token, attempt, time, d, terminated⟩ := la
      · simp [parkedWaker, firedWaits, backoffWaits, hla, show (s.channels (.activity cur)).value = none from hv]
      · simp [parkedWaker, firedWaits, backoffWaits, hla, show (s.channels (.timer seq)).value = none from hv]
    simp only [pollCommand, Function.update_self, hpark, Oneshot.poll, hv]
    rfl
  · rw [he]
    refine ⟨_, setLa_las_self _, ?_⟩
    have hpark : s.parkedWaker n w = none := by simp [parkedWaker, firedWaits, hla, ht, hv]
    rw [hpark]
    exact issue_channels_of_mem (k := .activity)
      (c := (.scheduleLocalActivity · n (some la.nextAttempt) la.nextSchedTime)) (List.mem_singleton_self _)
  · rw [he]
    refine ⟨_, setLa_las_self _, ?_⟩
    have hpark : s.parkedWaker n w = some s.constructionWaker := by
      simp [parkedWaker, firedWaits, backoffWaits, hla, ht, hv]
    -- the token was not cancelled, or the local activity would be
    have htok : (s.tokens la.cancellationToken).cancelled = false := by
      rcases hheard la hla hterm hd with hin | ⟨htok, -⟩
      · rw [hc] at hin
        cases hin
      · exact htok
    rw [hpark]
    exact timer_channel htok
  · rw [he] at hpend
    cases hpend

end Ctx

namespace GuestWorkflowInstance

variable {s s' : GuestWorkflowInstance} {n : Nat} {w : Waker}

/-- **A pending poll of a local activity leaves its waker** with the command that it then waits for, exactly if it did
not find a fired timer, and had the waker of the runtime if it found a backoff. -/
theorem woken_after_pending_iff {la : LATimerBackoffFut} (h : Reachable (fun _ _ => True) s)
    (hs : step s (.act (.pollLa n w)) = some s') (hla : s.ctx.las n = some la)
    (hpend : (s.ctx.pollLa n la w).2 = none) :
    WakesOn n w s' ↔
      s.ctx.firedWaits n = false ∧ (s.ctx.backoffWaits n = true → s.ctx.constructionWaker = w) := by
  obtain ⟨-, ⟨_, _, hi, -, -⟩ | ⟨hc, hi⟩⟩ := step_cases hs
  · cases hi
  obtain ⟨ctx, ha, rfl⟩ := Option.map_eq_some_iff.mp hi
  obtain ⟨lb, hlb, hterm, rfl⟩ := Ctx.withLa_eq_some ha
  obtain rfl := Option.some.inj (hla.symm.trans hlb)
  obtain ⟨la', hla', hch⟩ := Ctx.pollLa_pending h.inv.ctx (h.heard n) hc hla hterm hpend
  have hinv : Inv { s with ctx := (s.ctx.pollLa n la w).1 } := h.inv.step hs
  have hv : ((s.ctx.pollLa n la w).1.channels la'.awaited).value = none := by rw [hch]
  rw [wakesOn_iff hinv hla' hv, hch]
  simp only [Ctx.parkedWaker]
  cases s.ctx.firedWaits n <;> cases s.ctx.backoffWaits n <;> simp

/-- The poll finds a backoff, and the waker of the runtime is woken by the timer. -/
theorem woken_after_pending_iff_backoff :
    ∃ s s', Reachable (fun _ _ => True) s ∧ s.ctx.backoffWaits 0 = true ∧
      step s (.act (.pollLa 0 (.task 0))) = some s' ∧ WakesOn 0 (.task 0) s' := by
  obtain ⟨s, hr, hstep, hla, hf, hb, hw⟩ : ∃ s, Reachable (fun _ _ => True) s ∧
      (step s (.act (.pollLa 0 (.task 0)))).isSome ∧
      (s.ctx.las 0).map (fun la => (s.ctx.pollLa 0 la (.task 0)).2) = some none ∧
      s.ctx.firedWaits 0 = false ∧ s.ctx.backoffWaits 0 = true ∧ s.ctx.constructionWaker = .task 0 :=
    Reachable.exists_of_trace [.act (.executeLocalActivity 0), .complete, .enterRuntimePoll (.task 0),
      .resolve ⟨.activity 1, .backoff ⟨2, 10, none⟩⟩] (by decide)
  obtain ⟨s', hs⟩ := Option.isSome_iff_exists.mp hstep
  obtain ⟨la, hla, hpend⟩ := Option.map_eq_some_iff.mp hla
  exact ⟨s, s', hr, hb, hs, (woken_after_pending_iff hr hs hla hpend).mpr ⟨hf, fun _ => hw⟩⟩

/-- The timer has fired. The poll is pending, and the resolution of the attempt wakes nobody. -/
theorem fired_poll_not_woken :
    ∃ s s' la, Reachable (fun _ _ => True) s ∧ step s (.act (.pollLa 0 (.task 0))) = some s' ∧
      s.ctx.las 0 = some la ∧ (s.ctx.pollLa 0 la (.task 0)).2 = none ∧ ¬ WakesOn 0 (.task 0) s' := by
  obtain ⟨s, hr, hstep, hla⟩ : ∃ s, Reachable (fun _ _ => True) s ∧
      (step s (.act (.pollLa 0 (.task 0)))).map (fun s' => ((s'.ctx.las 0).map (·.awaited),
        (s'.ctx.unblock ⟨.activity 2, .completed⟩).map (·.woken))) = some (some (.activity 2), some [.noop, .noop]) ∧
      (s.ctx.las 0).map (fun la => (s.ctx.pollLa 0 la (.task 0)).2.isNone) = some true :=
    Reachable.exists_of_trace (backingOff ++ [.resolve ⟨.timer 1, .fired⟩]) (by decide)
  obtain ⟨s', hs, he⟩ := Option.map_eq_some_iff.mp hstep
  obtain ⟨la, hla, hpend⟩ := Option.map_eq_some_iff.mp hla
  refine ⟨s, s', la, hr, hs, hla, Option.isNone_iff_eq_none.mp hpend, fun hw => ?_⟩
  obtain ⟨ha, hu⟩ := Prod.mk.inj he
  obtain ⟨la', hla', ha⟩ := Option.map_eq_some_iff.mp ha
  obtain ⟨ctx, hu, hctx⟩ := Option.map_eq_some_iff.mp hu
  have hcons := hw s' (.start rfl) la' _ ctx hla' ha.symm hu
  rw [hctx] at hcons
  cases hcons

end GuestWorkflowInstance

end SdkCore.WorkflowContext
