import SdkCore.Workflow.Changes

/-!
# Actions of workflow code as small changes

`act_cases` says once what an action of workflow code does: changes that leave local activities alone, or a local
activity is started, cancelled or polled. `Ok` are the invariants that all results share.
-/

namespace SdkCore.WorkflowContext

namespace Ctx

variable {s s' : Ctx}

/-! ## The futures of local activities -/

variable {id : PendingCommandId} {t n : Nat} {callback : Callback}

/-- The commands inside of a local activity. -/
theorem owns_iff {la : LATimerBackoffFut} :
    la.owns id = true ↔ id = .activity la.currentFut ∨ ∃ seq, la.timerFut = some seq ∧ id = .timer seq := by
  unfold LATimerBackoffFut.owns
  simp only [Bool.or_eq_true, decide_eq_true_iff, Option.map_eq_some_iff, @eq_comm _ _ id]

theorem Owned.congr (h : s'.las = s.las) : s'.Owned id ↔ s.Owned id := by
  unfold Owned
  rw [h]

/-- The commands inside of local activities were issued, and each is inside of one. -/
structure LaSound (s : Ctx) : Prop where
  bounded : ∀ id, s.Owned id → s.Given id
  counted : ∀ n, s.nextLa ≤ n → s.las n = none
  apart : ∀ n m la lb id, s.las n = some la → s.las m = some lb → la.owns id = true → lb.owns id = true → n = m

theorem init_laSound : LaSound init where
  bounded := by
    rintro id ⟨n, la, hla, -⟩
    cases hla
  counted _ _ := rfl
  apart n _ la _ _ hla := by cases hla

namespace LaSound

/-- Only numbers and local activities matter. -/
theorem congr (h : s.LaSound) (hseq : ∀ k, s.nextSeq k ≤ s'.nextSeq k) (hlas : s'.las = s.las)
    (hn : s'.nextLa = s.nextLa) : s'.LaSound where
  bounded id hid := by
    obtain ⟨hpos, hlt⟩ := h.bounded id ((Owned.congr hlas).mp hid)
    exact ⟨hpos, Nat.lt_of_lt_of_le hlt (hseq _)⟩
  counted n hle := by
    rw [hlas]
    exact h.counted n (hn ▸ hle)
  apart n m la lb id := by
    rw [hlas]
    exact h.apart n m la lb id

variable {n : Nat} {la : LATimerBackoffFut}

/-- A local activity gets new commands. -/
theorem setLa (h : s.LaSound) (hn : n < s.nextLa)
    (hla : ∀ id, la.owns id = true → s.Given id ∧ ∀ m lb, s.las m = some lb → lb.owns id = true → m = n) :
    (s.setLa n la).LaSound where
  bounded := by
    rintro id ⟨m, lb, hlb, ho⟩
    simp only [Ctx.setLa, Function.update_apply] at hlb
    split at hlb
    · cases hlb
      exact (hla id ho).1
    · exact h.bounded id ⟨m, lb, hlb, ho⟩
  counted m hle := by
    have hne : m ≠ n := fun e => absurd hn (Nat.not_lt_of_le (e ▸ hle))
    simp only [Ctx.setLa, Function.update_of_ne hne]
    exact h.counted m hle
  apart m m' lb lb' id hlb hlb' ho ho' := by
    simp only [Ctx.setLa, Function.update_apply] at hlb hlb'
    split at hlb <;> split at hlb'
    · next h1 h2 => exact h1.trans h2.symm
    · next h1 _ =>
      cases hlb
      exact h1.trans ((hla id ho).2 m' lb' hlb' ho').symm
    · next _ h2 =>
      cases hlb'
      exact ((hla id ho').2 m lb hlb ho).trans h2.symm
    · exact h.apart m m' lb lb' id hlb hlb' ho ho'

theorem lt_nextLa (h : s.LaSound) (hla : s.las n = some la) : n < s.nextLa := by
  by_contra hge
  rw [h.counted n (Nat.le_of_not_lt hge)] at hla
  cases hla

/-- It keeps some of its commands. -/
theorem setLa_of_owns {la' : LATimerBackoffFut} (h : s.LaSound) (hla : s.las n = some la)
    (hown : ∀ id, la'.owns id = true → la.owns id = true) : (s.setLa n la').LaSound :=
  h.setLa (h.lt_nextLa hla) fun id hid =>
    ⟨h.bounded id ⟨n, la, hla, hown id hid⟩, fun m lb hlb ho => h.apart m n lb la id hlb hla ho (hown id hid)⟩

/-- Plain changes leave local activities alone. -/
theorem plains (h : s.LaSound) (hp : Plains s s') : s'.LaSound :=
  h.congr hp.frame.nextSeq_le hp.frame.las hp.frame.nextLa

/-- A new command is inside of none. -/
theorem not_owned_of_new {k : SeqKind} {id : PendingCommandId} (h : s.LaSound) (hid : id ∈ k.ids (s.nextSeq k)) :
    ¬ s.Owned id := by
  intro ho
  obtain ⟨hk, hseq⟩ := mem_ids.mp hid
  have hlt := (h.bounded id ho).2
  rw [hk, hseq] at hlt
  exact Nat.lt_irrefl _ hlt

/-- Nor is one whose future workflow code has. -/
theorem of_hasFuture {id : PendingCommandId} (h : s.LaSound) (hf : s.hasFuture id = true) :
    s.Given id ∧ ¬ s.Owned id := by
  simp only [hasFuture, ownedByLa, Bool.and_eq_true, Bool.not_eq_true', List.any_eq_false, List.mem_range,
    decide_eq_true_eq] at hf
  refine ⟨hf.1, ?_⟩
  rintro ⟨n, la, hla, ho⟩
  exact hf.2 n (h.lt_nextLa hla) (by simp [hla, ho])

theorem given_timer {seq : Nat} (h : s.LaSound) (hla : s.las n = some la) (ht : la.timerFut = some seq) :
    s.Given (.timer seq) :=
  h.bounded _ ⟨n, la, hla, owns_iff.mpr (.inr ⟨seq, ht, rfl⟩)⟩

end LaSound

/-! ## Operations are made of small changes -/

/-- The callbacks of one token change. -/
theorem relisten_update {callbacks : List Callback}
    (h : ∀ callback ∈ callbacks, callback ∈ (s.tokens t).callbacks ∨ s.GivenCallback callback) :
    s.Relisten (Function.update s.tokens t { s.tokens t with callbacks := callbacks }) where
  cancelled t' := by
    rw [Function.update_apply]
    split
    · next he => rw [he]
    · rfl
  new t' callback hcb := by
    rw [Function.update_apply] at hcb
    split at hcb
    · next he => exact he ▸ h callback hcb
    · exact .inl hcb

theorem relisten_add (h : s.GivenCallback callback) :
    s.Relisten (Function.update s.tokens t
      { s.tokens t with callbacks := (s.tokens t).callbacks ++ [callback] }) := by
  refine relisten_update fun cb hcb => ?_
  rcases List.mem_append.mp hcb with hcb | hcb
  · exact .inl hcb
  · exact .inr (List.mem_singleton.mp hcb ▸ h)

theorem mem_update_callbacks {t' : Nat} {callbacks : List Callback}
    (h : callback ∈ (s.tokens t).callbacks → callback ∈ callbacks) (hcb : callback ∈ (s.tokens t').callbacks) :
    callback ∈ (Function.update s.tokens t { s.tokens t with callbacks := callbacks } t').callbacks := by
  rw [Function.update_apply]
  split
  · next he => exact h (he ▸ hcb)
  · exact hcb

/-- An operation listens to a token. -/
theorem register_op_plain {id : CancellableSeqNum} (h : s.GivenOp id) : Plain s (s.register t (.op id)) := by
  unfold register
  split
  · exact .cancel h
  · refine .tokens s.nextToken (relisten_add fun id' he => ?_) fun t' m hm =>
      mem_update_callbacks (fun hm => List.mem_append_left _ hm) hm
    obtain rfl := Callback.op.inj he
    exact h

theorem register_child_plain (t child : Nat) : Plain s (s.register t (.child child)) := by
  unfold register
  split
  · exact .cancelToken child
  · refine .tokens s.nextToken (relisten_add fun id' he => ?_) fun t' m hm =>
      mem_update_callbacks (fun hm => List.mem_append_left _ hm) hm
    cases he

theorem relisten_unregister (t : Nat) (callback : Callback) : s.Relisten (s.unregister t callback).tokens :=
  relisten_update fun _ hcb => .inl (List.mem_of_mem_erase hcb)

theorem unregister_op_plain (t : Nat) (id : CancellableSeqNum) : Plain s (s.unregister t (.op id)) := by
  refine .tokens s.nextToken (relisten_unregister t _) fun t' m hm => ?_
  exact mem_update_callbacks (fun hm => (List.mem_erase_of_ne (by simp)).mpr hm) hm

section Start

variable {k : SeqKind} {c : Nat → WorkflowCommand} {op : Nat → CancellableSeqNum} {future : Nat → PendingCommandId}

theorem issue_givenOp (h : s.Sound) (hop : ∀ seq q, op seq = .timer q → .timer q ∈ k.ids seq) :
    (s.issue k c).GivenOp (op (s.nextSeq k)) :=
  fun q hq => h.issue_given (hop _ q hq)

theorem start_given {id : PendingCommandId} (h : s.Sound) (t : Nat)
    (hop : ∀ seq q, op seq = .timer q → .timer q ∈ k.ids seq) (hid : id ∈ k.ids (s.nextSeq k)) :
    (s.start k c t op future).Given id := by
  have hr : Plain (s.issue k c) ((s.issue k c).register t (.op (op (s.nextSeq k)))) :=
    register_op_plain (issue_givenOp h hop)
  exact (h.issue_given hid).mono hr.frame.nextSeq_le

/-- An operation is started. -/
theorem start_plains (h : s.Sound) (hl : s.LaSound) (t : Nat) (hissues : ∀ seq, (c seq).issues = k.ids seq)
    (hla : ∀ seq seq' la attempt time, c seq ≠ .scheduleLocalActivity seq' la attempt time)
    (hop : ∀ seq q, op seq = .timer q → .timer q ∈ k.ids seq) (hfuture : ∀ seq, future seq ∈ k.ids seq) :
    Plains s (s.start k c t op future) := by
  have hp : Plains s ((s.issue k c).register t (.op (op (s.nextSeq k)))) :=
    .tail (.single (.issue hissues hla)) (register_op_plain (issue_givenOp h hop))
  refine hp.tail (.poll _ fun ho => ?_)
  exact hl.not_owned_of_new (hfuture (s.nextSeq k)) ((Owned.congr hp.frame.las).mp ho)

end Start

theorem timer_plains (h : s.Sound) (hl : s.LaSound) (t duration : Nat) : Plains s (s.timer t duration) :=
  start_plains h hl t (fun _ => rfl) (fun _ _ _ _ _ h => by cases h)
    (fun seq q hq => by cases hq; exact List.mem_singleton_self _) fun _ => List.mem_singleton_self _

theorem cancelExternalWorkflow_plains (hl : s.LaSound) : Plains s s.cancelExternalWorkflow := by
  have h : Plain s (s.issue .cancelExternalWf .requestCancelExternalWorkflowExecution) :=
    .issue (fun _ => rfl) (fun _ _ _ _ _ h => by cases h)
  refine .tail (.single h) (.poll _ fun ho => ?_)
  exact hl.not_owned_of_new (k := .cancelExternalWf) (List.mem_singleton_self _) ((Owned.congr h.frame.las).mp ho)

theorem newToken_plain (n : Nat) : Plain s { s with nextToken := n } :=
  .tokens n ⟨fun _ => rfl, fun _ _ h => .inl h⟩ fun _ _ h => h

/-- The future of an operation is polled. -/
theorem pollOp_plains (w : Waker) (h : ¬ s.Owned id) : Plains s (s.pollOp id w) := by
  unfold pollOp
  split
  · next callback _ hcb =>
    refine .single (.tokens s.nextToken ⟨fun _ => rfl, fun _ _ h => .inl (List.mem_of_mem_erase h)⟩ fun t m hm => ?_)
    exact (List.mem_erase_of_ne (by cases id <;> cases hcb <;> simp)).mpr hm
  · exact .refl
  · exact .single (.poll w h)

theorem startWith_eq_some {f : Ctx → Nat → Ctx} (h : s.startWith t f = some s') : s' = f s t := by
  unfold startWith at h
  split at h
  · exact (Option.some.inj h).symm
  · cases h

theorem withLa_eq_some {f : LATimerBackoffFut → Ctx} (h : s.withLa n f = some s') :
    ∃ la, s.las n = some la ∧ la.terminated = false ∧ s' = f la := by
  unfold withLa at h
  split at h
  · next la hla =>
    split at h
    · cases h
    · next ht => exact ⟨la, hla, Bool.eq_false_iff.mpr ht, (Option.some.inj h).symm⟩
  · cases h

theorem LaSound.givenOp {id : CancellableSeqNum} (hl : s.LaSound) (h : id.future.any s.hasFuture = true) :
    s.GivenOp id := by
  rintro seq rfl
  exact (hl.of_hasFuture h).1

/-- An action leaves local activities alone, or one is started, cancelled or polled. -/
theorem act_cases {a : Action} (hs : s.Sound) (hl : s.LaSound) (h : s.act a = some s') :
    Plains s s' ∨ (∃ t, s' = s.executeLocalActivity t) ∨
    (∃ n la, a = .cancelLa n ∧ s.las n = some la ∧ la.terminated = false ∧ s' = s.cancelLa n) ∨
    ∃ n la w, a = .pollLa n w ∧ s.las n = some la ∧ la.terminated = false ∧ s' = (s.pollLa n la w).1 := by
  cases a with
  | timer t duration =>
    have h : s.startWith t (·.timer · duration) = some s' := h
    obtain rfl := startWith_eq_some h
    exact .inl (timer_plains hs hl t duration)
  | executeLocalActivity t => exact .inr (.inl ⟨t, startWith_eq_some h⟩)
  | executeActivity t | startChildWorkflow t | signalWorkflow t | startNexusOperation t =>
    obtain rfl := startWith_eq_some h
    exact .inl (start_plains hs hl t (fun _ => rfl) (fun _ _ _ _ _ h => by cases h) (fun _ _ hq => by cases hq)
      fun _ => by simp [SeqKind.ids])
  | cancelExternalWorkflow =>
    cases h
    exact .inl (cancelExternalWorkflow_plains hl)
  | newToken =>
    cases h
    exact .inl (.single (newToken_plain _))
  | childToken t =>
    obtain rfl := startWith_eq_some h
    exact .inl (.tail (.single (newToken_plain (s.nextToken + 1))) (register_child_plain t _))
  | cancelToken t =>
    obtain rfl := startWith_eq_some h
    exact .inl (.single (.cancelToken t))
  | cancel id =>
    simp only [act] at h
    split at h
    · next hf =>
      cases h
      exact .inl (.single (.cancel (hl.givenOp hf)))
    · cases h
  | cancelLa n =>
    obtain ⟨la, hla, ht, rfl⟩ := withLa_eq_some h
    exact .inr (.inr (.inl ⟨n, la, rfl, hla, ht, rfl⟩))
  | poll id w =>
    simp only [act] at h
    split at h
    · next hf =>
      cases h
      exact .inl (pollOp_plains w (hl.of_hasFuture hf).2)
    · cases h
  | pollLa n w =>
    obtain ⟨la, hla, ht, rfl⟩ := withLa_eq_some h
    exact .inr (.inr (.inr ⟨n, la, w, rfl, hla, ht, rfl⟩))
  | stateMut =>
    cases h
    exact .inl (.single .stateMut)

/-! ## Local activities -/

theorem cancelTimerFut_plains {t : Option Nat} (h : ∀ seq, t = some seq → s.Given (.timer seq)) :
    Plains s (s.cancelTimerFut t) := by
  cases t with
  | none => exact .refl
  | some seq =>
    refine .single (.cancel fun q hq => ?_)
    obtain rfl := CancellableSeqNum.timer.inj hq
    exact h _ rfl

/-- The cancel is recorded. -/
def noteCancel (s : Ctx) (n : Nat) (la : LATimerBackoffFut) : Ctx :=
  { s with log := .cancel n la.currentFut :: s.log }.setLa n { la with didCancel := true }

/-- A cancel is recorded, stops the timer and then the attempt. -/
theorem cancelLa_eq {la : LATimerBackoffFut} (hl : s.LaSound) (hla : s.las n = some la) :
    s.cancelLa n = ((s.noteCancel n la).cancelTimerFut la.timerFut).cancel (.localActivity la.currentFut) ∧
    Plains (s.noteCancel n la) (s.cancelLa n) := by
  have he : s.cancelLa n = ((s.noteCancel n la).cancelTimerFut la.timerFut).cancel (.localActivity la.currentFut) := by
    simp only [cancelLa, hla, noteCancel]
  have hop : ((s.noteCancel n la).cancelTimerFut la.timerFut).GivenOp (.localActivity la.currentFut) :=
    fun _ hq => by cases hq
  have hp : Plains (s.noteCancel n la) ((s.noteCancel n la).cancelTimerFut la.timerFut) :=
    cancelTimerFut_plains fun seq ht => hl.given_timer hla ht
  refine ⟨he, ?_⟩
  rw [he]
  exact hp.tail (.cancel hop)

theorem cancelLa_of_none (hla : s.las n = none) : s.cancelLa n = s := by
  simp only [cancelLa, hla]

/-- A local activity is cancelled. -/
theorem cancelLa_changes (hl : s.LaSound) (n : Nat) : Changes s (s.cancelLa n) := by
  cases hla : s.las n with
  | none => rw [cancelLa_of_none hla]
  | some la => exact .head (.la _ s.nextLa _) (cancelLa_eq hl hla).2.changes

theorem finishLa_changes (n : Nat) (la : LATimerBackoffFut) : Changes s (s.finishLa n la) :=
  .tail (.single (.la _ s.nextLa s.log)) (.tokens (relisten_unregister _ _))

/-- The timer is polled. -/
theorem pollTimerFut_changes (n : Nat) (la : LATimerBackoffFut) (seq : Nat) (w : Waker) :
    Changes s (s.pollTimerFut n la seq w).1 := by
  unfold pollTimerFut
  split
  · exact .single (.poll _ w)
  · exact .tail (.tail (.single (.plain (unregister_op_plain _ _))) (.attempt n _ _)) (.la _ _ _)
  · exact .trans (.single (.plain (unregister_op_plain _ _))) (finishLa_changes n _)

/-- The attempt is polled. -/
theorem pollCurrentFut_changes (h : s.Sound) (hl : s.LaSound) (n : Nat) (la : LATimerBackoffFut) (w : Waker) :
    Changes s (s.pollCurrentFut n la w).1 := by
  unfold pollCurrentFut
  split
  · exact .single (.poll _ w)
  · split
    · exact finishLa_changes n la
    · exact .tail (timer_plains h hl _ _).changes (.la _ _ _)
  · exact finishLa_changes n la

/-- Either of them is polled. -/
theorem pollLa_changes (h : s.Sound) (hl : s.LaSound) (n : Nat) (la : LATimerBackoffFut) (w : Waker) :
    Changes s (s.pollLa n la w).1 := by
  unfold pollLa
  split
  · exact pollTimerFut_changes n la _ w
  · exact pollCurrentFut_changes h hl n la w

theorem register_localActivity_changes (hl : s.LaSound) (t n : Nat) : Changes s (s.register t (.localActivity n)) := by
  unfold register
  split
  · exact cancelLa_changes hl n
  · exact .single (.tokens (relisten_add fun _ he => by cases he))

namespace LaSound

theorem noteCancel {la : LATimerBackoffFut} (h : s.LaSound) (hla : s.las n = some la) :
    (s.noteCancel n la).LaSound := by
  have hlog : LaSound { s with log := .cancel n la.currentFut :: s.log } := { h with }
  exact hlog.setLa_of_owns hla fun _ hid => hid

theorem cancelLa (h : s.LaSound) (n : Nat) : (s.cancelLa n).LaSound := by
  cases hla : s.las n with
  | none =>
    rw [cancelLa_of_none hla]
    exact h
  | some la =>
    exact (h.noteCancel hla).plains (cancelLa_eq h hla).2

variable {n : Nat} {la : LATimerBackoffFut}

theorem finishLa {la' : LATimerBackoffFut} (h : s.LaSound) (hla : s.las n = some la)
    (hown : ∀ id, la'.owns id = true → la.owns id = true) : (s.finishLa n la').LaSound := by
  have hset : (s.setLa n { la' with terminated := true }).LaSound := h.setLa_of_owns hla hown
  exact { hset with }

theorem pollTimerFut {seq : Nat} (h : s.LaSound) (hs : s.Sound) (hla : s.las n = some la) (w : Waker) :
    (s.pollTimerFut n la seq w).1.LaSound := by
  have hu : Plain s (s.unregister la.cancellationToken (.op (.timer seq))) := unregister_op_plain _ _
  unfold Ctx.pollTimerFut
  split
  · exact { h with }
  · have hi : ((s.unregister la.cancellationToken (.op (.timer seq))).localActivityNoTimerRetry n
        (some la.nextAttempt) la.nextSchedTime).LaSound := (h.plains (.single hu)).congr le_issue_nextSeq issue_las rfl
    refine hi.setLa (h.lt_nextLa hla) fun id hid => ?_
    have hnew : id ∈ SeqKind.activity.ids (s.nextSeq .activity) := by
      rcases owns_iff.mp hid with hid | ⟨_, ht, -⟩
      · exact List.mem_singleton.mpr hid
      · cases ht
    exact ⟨(hs.plain hu).issue_given hnew, fun m lb hlb ho => absurd ⟨m, lb, hlb, ho⟩ (h.not_owned_of_new hnew)⟩
  · refine (h.plains (.single hu)).finishLa hla fun id hid => ?_
    rcases owns_iff.mp hid with hid | ⟨_, ht, -⟩
    · exact owns_iff.mpr (.inl hid)
    · cases ht

theorem pollCurrentFut (h : s.LaSound) (hs : s.Sound) (hla : s.las n = some la) (w : Waker) :
    (s.pollCurrentFut n la w).1.LaSound := by
  unfold Ctx.pollCurrentFut
  split
  · exact { h with }
  · next b _ =>
    split
    · exact h.finishLa hla fun _ hid => hid
    · have hp := timer_plains hs h la.cancellationToken b.backoffDuration
      refine (h.plains hp).setLa (by rw [hp.frame.nextLa]; exact h.lt_nextLa hla) fun id hid => ?_
      rw [hp.frame.las]
      rcases owns_iff.mp hid with hid | ⟨seq, hseq, hid⟩
      · have ho : la.owns id = true := owns_iff.mpr (.inl hid)
        exact ⟨(h.bounded id ⟨n, la, hla, ho⟩).mono hp.frame.nextSeq_le,
          fun m lb hlb hob => h.apart m n lb la id hlb hla hob ho⟩
      · cases hseq
        have hnew : id ∈ SeqKind.timer.ids (s.nextSeq .timer) := by rw [hid]; exact List.mem_singleton_self _
        refine ⟨start_given hs _ (fun seq q hq => ?_) hnew, fun m lb hlb hob =>
          absurd ⟨m, lb, hlb, hob⟩ (h.not_owned_of_new hnew)⟩
        cases hq
        exact List.mem_singleton_self _
  · exact h.finishLa hla fun _ hid => hid

theorem pollLa (h : s.LaSound) (hs : s.Sound) (hla : s.las n = some la) (w : Waker) : (s.pollLa n la w).1.LaSound := by
  unfold Ctx.pollLa
  split
  · exact h.pollTimerFut hs hla w
  · exact h.pollCurrentFut hs hla w

theorem register_localActivity (h : s.LaSound) (t n : Nat) : (s.register t (.localActivity n)).LaSound := by
  unfold Ctx.register
  split
  · exact h.cancelLa n
  · exact { h with }

end LaSound

/-- A local activity that does not listen to its token yet. -/
def newLa (s : Ctx) (t : Nat) : Ctx :=
  { s.localActivityNoTimerRetry s.nextLa none none with nextLa := s.nextLa + 1 }.setLa s.nextLa
    (.new (s.nextSeq .activity) t)

/-- Its first attempt is inside of it. -/
theorem LaSound.newLa (h : s.LaSound) (hs : s.Sound) (t : Nat) : (s.newLa t).LaSound := by
  have hi : (s.localActivityNoTimerRetry s.nextLa none none).LaSound := h.congr le_issue_nextSeq issue_las rfl
  have hcount : LaSound { s.localActivityNoTimerRetry s.nextLa none none with nextLa := s.nextLa + 1 } :=
    { hi with counted := fun n hn => h.counted n (Nat.le_of_succ_le hn) }
  refine hcount.setLa (Nat.lt_succ_self _) fun id hid => ?_
  have hnew : id ∈ SeqKind.activity.ids (s.nextSeq .activity) := by
    rcases owns_iff.mp hid with hid | ⟨_, ht, -⟩
    · exact List.mem_singleton.mpr hid
    · cases ht
  have hgiven : (s.localActivityNoTimerRetry s.nextLa none none).Given id := hs.issue_given hnew
  exact ⟨hgiven, fun m lb hlb ho => absurd ⟨m, lb, hlb, ho⟩ (h.not_owned_of_new hnew)⟩

theorem newLa_changes (t : Nat) : Changes s (s.newLa t) :=
  .tail (.single (.attempt s.nextLa none none)) (.la _ (s.nextLa + 1) _)

/-! ## What every action and every callback keeps -/

/-- The invariants of a context. -/
structure Ok (s : Ctx) : Prop where
  sound : s.Sound
  listens : s.Listens
  laSound : s.LaSound

theorem init_ok : Ok init := ⟨init_sound, init_listens, init_laSound⟩

namespace Ok

theorem newLa (h : s.Ok) (t : Nat) : (s.newLa t).Ok :=
  ⟨h.sound.changes (newLa_changes t), h.listens.changes (newLa_changes t), h.laSound.newLa h.sound t⟩

/-- **Actions are rows of small changes.** -/
theorem act_changes {a : Action} (h : s.Ok) (ha : s.act a = some s') : Changes s s' := by
  rcases act_cases h.sound h.laSound ha with hp | ⟨t, rfl⟩ | ⟨n, la, -, -, -, rfl⟩ | ⟨n, la, w, -, -, -, rfl⟩
  · exact hp.changes
  · exact .tail (.trans (newLa_changes t) (register_localActivity_changes (h.newLa t).laSound t s.nextLa)) (.poll _ _)
  · exact cancelLa_changes h.laSound n
  · exact pollLa_changes h.sound h.laSound n la w

/-- Actions keep the invariants. -/
theorem act {a : Action} (h : s.Ok) (ha : s.act a = some s') : s'.Ok := by
  have hc := h.act_changes ha
  refine ⟨h.sound.changes hc, h.listens.changes hc, ?_⟩
  rcases act_cases h.sound h.laSound ha with hp | ⟨t, rfl⟩ | ⟨n, la, -, -, -, rfl⟩ | ⟨n, la, w, -, hla, -, rfl⟩
  · exact h.laSound.plains hp
  · exact { (h.newLa t).laSound.register_localActivity t s.nextLa with }
  · exact h.laSound.cancelLa n
  · exact h.laSound.pollLa h.sound hla w

/-- So do callbacks. -/
theorem runCallback_changes {callback : Callback} (h : s.Ok) (hcb : s.GivenCallback callback) :
    Changes s (s.runCallback callback) := by
  cases callback with
  | op id => exact .single (.plain (.cancel (hcb id rfl)))
  | child t => exact .single (.plain (.cancelToken t))
  | localActivity n => exact cancelLa_changes h.laSound n

theorem runCallback {callback : Callback} (h : s.Ok) (hcb : s.GivenCallback callback) :
    (s.runCallback callback).Ok := by
  have hc := h.runCallback_changes hcb
  refine ⟨h.sound.changes hc, h.listens.changes hc, ?_⟩
  cases callback with
  | op id => exact h.laSound.plains (.single (.cancel (hcb id rfl)))
  | child t => exact h.laSound.plains (.single (.cancelToken t))
  | localActivity n => exact h.laSound.cancelLa n

/-- The next callback is about something that there is. -/
theorem next {callback : Callback} {rest : List Callback} (h : s.Ok) (hc : s.callbacks = callback :: rest) :
    Ok { s with callbacks := rest } ∧ Ctx.GivenCallback { s with callbacks := rest } callback := by
  refine ⟨⟨{ h.sound with }, ⟨h.listens.tokens, fun cb hcb => ?_⟩, { h.laSound with }⟩, ?_⟩
  · exact h.listens.callbacks cb (hc ▸ List.mem_cons_of_mem _ hcb)
  · exact h.listens.callbacks callback (hc ▸ List.mem_cons_self)

theorem send (h : s.Ok) (event : UnblockEvent) : (s.send event).Ok :=
  ⟨h.sound.send event, { h.listens with }, { h.laSound with }⟩

theorem takeCommands (h : s.Ok) : Ok { s with commands := [] } :=
  ⟨{ h.sound with gone := fun _ hseq => by cases hseq }, { h.listens with }, { h.laSound with }⟩

theorem cancelToken (h : s.Ok) (t : Nat) : (s.cancelToken t).Ok :=
  ⟨h.sound.cancelToken t, h.listens.cancelToken t, h.laSound.plains (.single (.cancelToken t))⟩

end Ok

end Ctx

end SdkCore.WorkflowContext
