import SdkCore.Workflow.Context

/-!
# What a context goes through

What workflow code does to its context is a row of small changes (`Plain`, and `Change` with local activities). They
keep which commands have an unblocker (`Sound`), and that callbacks are about existing operations (`Listens`).
-/

namespace SdkCore.WorkflowContext

namespace Ctx

/-! ## Small changes -/

def Given (s : Ctx) (id : PendingCommandId) : Prop := 0 < id.seq ∧ id.seq < s.nextSeq id.kind

def GivenOp (s : Ctx) (id : CancellableSeqNum) : Prop := ∀ seq, id = .timer seq → s.Given (.timer seq)

def GivenCallback (s : Ctx) (callback : Callback) : Prop := ∀ id, callback = .op id → s.GivenOp id

/-- It is inside of a local activity. -/
def Owned (s : Ctx) (id : PendingCommandId) : Prop := ∃ n la, s.las n = some la ∧ la.owns id = true

/-- Callbacks of operations come and go. No token is cancelled. -/
structure Relisten (s : Ctx) (tokens : Nat → WorkflowCancellationToken) : Prop where
  cancelled : ∀ t, (tokens t).cancelled = (s.tokens t).cancelled
  new : ∀ t, ∀ callback ∈ (tokens t).callbacks, callback ∈ (s.tokens t).callbacks ∨ s.GivenCallback callback

/-- Local activities and the commands that they wait for are left alone. -/
inductive Plain (s : Ctx) : Ctx → Prop
  | issue {k c} (hissues : ∀ seq, (c seq).issues = k.ids seq)
      (hla : ∀ seq seq' la attempt time, c seq ≠ .scheduleLocalActivity seq' la attempt time) : Plain s (s.issue k c)
  | cancel {id} (h : s.GivenOp id) : Plain s (s.cancel id)
  | poll {id} (w : Waker) (h : ¬ s.Owned id) : Plain s (s.pollCommand id w)
  | tokens {tokens} (n : Nat) (h : s.Relisten tokens)
      (hkeep : ∀ t m, .localActivity m ∈ (s.tokens t).callbacks → .localActivity m ∈ (tokens t).callbacks) :
      Plain s { s with tokens := tokens, nextToken := n }
  | cancelToken (t : Nat) : Plain s (s.cancelToken t)
  | stateMut : Plain s { s with stateMutated := true }

/-- Local activities may change too. -/
inductive Change (s : Ctx) : Ctx → Prop
  | plain {s'} (h : Plain s s') : Change s s'
  | poll (id : PendingCommandId) (w : Waker) : Change s (s.pollCommand id w)
  | tokens {tokens} (h : s.Relisten tokens) : Change s { s with tokens := tokens }
  | attempt (n : Nat) (attempt time : Option Nat) : Change s (s.localActivityNoTimerRetry n attempt time)
  | la (las : Nat → Option LATimerBackoffFut) (nextLa : Nat) (log : List Entry) :
      Change s { s with las := las, nextLa := nextLa, log := log }

abbrev Plains : Ctx → Ctx → Prop := Relation.ReflTransGen Plain

abbrev Changes : Ctx → Ctx → Prop := Relation.ReflTransGen Change

variable {s s' : Ctx}

theorem Plains.changes (h : Plains s s') : Changes s s' := by
  induction h with
  | refl => exact .refl
  | tail _ hc ih => exact ih.tail (.plain hc)

/-- What a change keeps, rows of them keep. -/
theorem Changes.keeps {P : Ctx → Prop} (hstep : ∀ s s', Change s s' → P s → P s') (h : Changes s s') (hs : P s) :
    P s' := by
  induction h with
  | refl => exact hs
  | tail _ hc ih => exact hstep _ _ hc ih

theorem Plains.keeps {P : Ctx → Prop} (hstep : ∀ s s', Plain s s' → P s → P s') (h : Plains s s') (hs : P s) :
    P s' := by
  induction h with
  | refl => exact hs
  | tail _ hc ih => exact hstep _ _ hc ih

/-! ## Cancelling -/

/-- The operation is cancelled. -/
def mark (s : Ctx) (id : CancellableSeqNum) : Ctx :=
  { s with cancelledOperations := insert id s.cancelledOperations }

/-- A request to cancel, which asks for no resolution. -/
structure IsRequest (id : CancellableSeqNum) (c : WorkflowCommand) : Prop where
  issues : c.issues = []
  ne_timer : ∀ seq, id ≠ .timer seq
  ne_cancelTimer : ∀ seq, c ≠ .cancelTimer seq
  localActivity : ∀ seq, id = .localActivity seq → c = .requestCancelLocalActivity seq

/-- Nothing the second time; a waiting timer is resolved; otherwise a request is pushed. -/
theorem cancel_cases (s : Ctx) (id : CancellableSeqNum) :
    (id ∈ s.cancelledOperations ∧ s.cancel id = s) ∨
    (∃ seq, id = .timer seq ∧ .timer seq ∈ s.pendingUnblocks ∧
      s.cancel id = ((s.mark id).send ⟨.timer seq, .cancelled⟩).pushCommand (.cancelTimer seq)) ∨
    (∃ seq, id = .timer seq ∧ .timer seq ∉ s.pendingUnblocks ∧ s.cancel id = s.mark id) ∨
    ∃ c, IsRequest id c ∧ s.cancel id = (s.mark id).pushCommand c := by
  by_cases h : id ∈ s.cancelledOperations
  · exact .inl ⟨h, by simp [cancel, h]⟩
  · cases id with
    | timer seq =>
      by_cases hp : .timer seq ∈ s.pendingUnblocks
      · exact .inr (.inl ⟨seq, rfl, hp, by simp [cancel, h, maybeUnblock, hp, mark]⟩)
      · exact .inr (.inr (.inl ⟨seq, rfl, hp, by simp [cancel, h, maybeUnblock, hp, mark]⟩))
    | _ =>
      refine .inr (.inr (.inr ⟨_, ?_, by simp only [cancel, h, if_false, mark]; rfl⟩))
      constructor <;> simp [WorkflowCommand.issues]

theorem cancel_frame (id : CancellableSeqNum) :
    (s.cancel id).las = s.las ∧ (s.cancel id).nextLa = s.nextLa ∧ (s.cancel id).nextSeq = s.nextSeq ∧
      (s.cancel id).tokens = s.tokens ∧ (s.cancel id).callbacks = s.callbacks := by
  obtain ⟨-, h⟩ | ⟨_, -, -, h⟩ | ⟨_, -, -, h⟩ | ⟨_, -, h⟩ := s.cancel_cases id <;>
    rw [h] <;> exact ⟨rfl, rfl, rfl, rfl, rfl⟩

theorem cancelToken_frame (t : Nat) :
    (s.cancelToken t).las = s.las ∧ (s.cancelToken t).nextLa = s.nextLa ∧ (s.cancelToken t).nextSeq = s.nextSeq := by
  unfold cancelToken
  split <;> exact ⟨rfl, rfl, rfl⟩

/-- Local activities stay, and numbers are only given out. -/
structure Frame (s s' : Ctx) : Prop where
  las : s'.las = s.las
  nextLa : s'.nextLa = s.nextLa
  nextSeq_le : ∀ k, s.nextSeq k ≤ s'.nextSeq k

theorem Plain.frame (h : Plain s s') : Frame s s' := by
  cases h with
  | issue =>
    rename_i k _ _ _
    exact ⟨issue_las, by cases k <;> rfl, le_issue_nextSeq⟩
  | @cancel id =>
    obtain ⟨hlas, hla, hseq, -⟩ := s.cancel_frame id
    exact ⟨hlas, hla, fun k => by rw [hseq]⟩
  | cancelToken t =>
    obtain ⟨hlas, hla, hseq⟩ := s.cancelToken_frame t
    exact ⟨hlas, hla, fun k => by rw [hseq]⟩
  | poll | tokens | stateMut => exact ⟨rfl, rfl, fun _ => Nat.le_refl _⟩

theorem Plains.frame (h : Plains s s') : Frame s s' := by
  refine h.keeps (fun _ _ hc ht => ?_) ⟨rfl, rfl, fun _ => Nat.le_refl _⟩
  obtain ⟨hlas, hla, hseq⟩ := hc.frame
  exact ⟨hlas.trans ht.las, hla.trans ht.nextLa, fun k => (ht.nextSeq_le k).trans (hseq k)⟩

/-! ## Which commands have an unblocker -/

/-- An issued command has an unblocker until something is sent to it. A cancelled timer has none. -/
structure Sound (s : Ctx) : Prop where
  positive : ∀ k, 0 < s.nextSeq k
  given : ∀ id ∈ s.pendingUnblocks, s.Given id
  empty : ∀ id ∈ s.pendingUnblocks, (s.channels id).value = none
  waiting : ∀ id, s.Given id → (s.channels id).value = none → id ∈ s.pendingUnblocks
  gone : ∀ seq, .cancelTimer seq ∈ s.commands → .timer seq ∉ s.pendingUnblocks ∧ seq < s.nextSeq .timer
  once : ∀ seq, .timer seq ∈ s.cancelledOperations → s.Given (.timer seq) ∧ .timer seq ∉ s.pendingUnblocks

theorem pollCommand_value (id id' : PendingCommandId) (w : Waker) :
    ((s.pollCommand id w).channels id').value = (s.channels id').value := by
  by_cases h : id' = id
  · subst h
    simp [pollCommand]
  · simp [pollCommand, Function.update_of_ne h]

theorem init_sound : Sound init where
  positive _ := Nat.one_pos
  given id h := absurd h (Finset.notMem_empty id)
  empty id h := absurd h (Finset.notMem_empty id)
  waiting _ h _ := absurd h.1 (Nat.not_lt_of_le (Nat.le_of_lt_succ h.2))
  gone seq h := by cases h
  once seq h := absurd h (Finset.notMem_empty _)

namespace Sound

theorem push (h : s.Sound) {c : WorkflowCommand}
    (hc : ∀ seq, c = .cancelTimer seq → .timer seq ∉ s.pendingUnblocks ∧ seq < s.nextSeq .timer) :
    (s.pushCommand c).Sound where
  positive := h.positive
  given := h.given
  empty := h.empty
  waiting := h.waiting
  gone seq hmem := by
    rcases List.mem_append.mp hmem with hmem | hmem
    · exact h.gone seq hmem
    · exact hc seq (List.mem_singleton.mp hmem).symm
  once := h.once

theorem send (h : s.Sound) (event : UnblockEvent) : (s.send event).Sound where
  positive := h.positive
  given id hid := h.given id (Finset.mem_of_mem_erase hid)
  empty id hid := by
    have hne := Finset.ne_of_mem_erase hid
    simp only [Ctx.send, Function.update_of_ne hne]
    exact h.empty id (Finset.mem_of_mem_erase hid)
  waiting id hid hval := by
    by_cases he : id = event.id
    · subst he
      simp [Ctx.send, Oneshot.send] at hval
    · simp only [Ctx.send, Function.update_of_ne he] at hval
      exact Finset.mem_erase.mpr ⟨he, h.waiting id hid hval⟩
  gone seq hmem := by
    obtain ⟨hp, hlt⟩ := h.gone seq hmem
    exact ⟨fun hin => hp (Finset.mem_of_mem_erase hin), hlt⟩
  once seq hmem := by
    obtain ⟨hg, hp⟩ := h.once seq hmem
    exact ⟨hg, fun hin => hp (Finset.mem_of_mem_erase hin)⟩

section

variable {k : SeqKind} {c : Nat → WorkflowCommand} (h : s.Sound)
include h

theorem issue_given {id : PendingCommandId} (hid : id ∈ k.ids (s.nextSeq k)) : (s.issue k c).Given id := by
  obtain ⟨hk, hseq⟩ := mem_ids.mp hid
  refine ⟨hseq ▸ h.positive k, ?_⟩
  rw [issue_nextSeq, if_pos hk, hseq]
  exact Nat.lt_succ_self _

omit h in
theorem issue_gone {seq : Nat} (hp : .timer seq ∉ s.pendingUnblocks) (hlt : seq < s.nextSeq .timer) :
    .timer seq ∉ (s.issue k c).pendingUnblocks ∧ seq < (s.issue k c).nextSeq .timer := by
  refine ⟨fun hin => ?_, Nat.lt_of_lt_of_le hlt (le_issue_nextSeq _)⟩
  rcases mem_issue_pendingUnblocks.mp hin with hin | hin
  · exact hp hin
  · exact Nat.lt_irrefl _ (lt_of_mem_ids hin hlt)

theorem issue (hc : ∀ seq, (c seq).issues = k.ids seq) : (s.issue k c).Sound where
  positive k' := Nat.lt_of_lt_of_le (h.positive k') (le_issue_nextSeq k')
  given id hid := by
    rcases mem_issue_pendingUnblocks.mp hid with hid | hid
    · obtain ⟨hpos, hlt⟩ := h.given id hid
      exact ⟨hpos, Nat.lt_of_lt_of_le hlt (le_issue_nextSeq _)⟩
    · exact h.issue_given hid
  empty id hid := by
    by_cases hm : id ∈ k.ids (s.nextSeq k)
    · rw [issue_channels_of_mem hm]
      rfl
    · rw [issue_channels_of_not_mem hm]
      exact h.empty id ((mem_issue_pendingUnblocks.mp hid).resolve_right hm)
  waiting id hid hval := by
    by_cases hm : id ∈ k.ids (s.nextSeq k)
    · exact mem_issue_pendingUnblocks.mpr (.inr hm)
    · rw [issue_channels_of_not_mem hm] at hval
      refine mem_issue_pendingUnblocks.mpr (.inl (h.waiting id ⟨hid.1, ?_⟩ hval))
      have hlt := hid.2
      rw [issue_nextSeq] at hlt
      split at hlt
      · next hk =>
        -- the only new number is that of the operation
        have hne : id.seq ≠ s.nextSeq k := fun hseq => hm (mem_ids.mpr ⟨hk, hseq⟩)
        rw [hk]
        omega
      · exact hlt
  gone seq hmem := by
    rw [issue_commands] at hmem
    rcases List.mem_append.mp hmem with hmem | hmem
    · obtain ⟨hp, hlt⟩ := h.gone seq hmem
      exact issue_gone hp hlt
    · have hi := hc (s.nextSeq k)
      rw [← List.mem_singleton.mp hmem] at hi
      cases k <;> cases hi
  once seq hmem := by
    have ho : (s.issue k c).cancelledOperations = s.cancelledOperations := by cases k <;> rfl
    obtain ⟨⟨hpos, hlt⟩, hp⟩ := h.once seq (ho ▸ hmem)
    obtain ⟨hp, hlt⟩ := issue_gone hp hlt
    exact ⟨⟨hpos, hlt⟩, hp⟩

end

theorem mark {id : CancellableSeqNum} (h : s.Sound) (hid : ∀ seq, id = .timer seq → s.Given (.timer seq) ∧
    .timer seq ∉ s.pendingUnblocks) : (s.mark id).Sound where
  positive := h.positive
  given := h.given
  empty := h.empty
  waiting := h.waiting
  gone := h.gone
  once seq hmem := by
    rcases Finset.mem_insert.mp hmem with he | hmem
    · exact hid seq he.symm
    · exact h.once seq hmem

theorem cancel {id : CancellableSeqNum} (h : s.Sound) (hid : s.GivenOp id) : (s.cancel id).Sound := by
  obtain ⟨-, he⟩ | ⟨seq, rfl, hp, he⟩ | ⟨seq, rfl, hp, he⟩ | ⟨c, hc, he⟩ := s.cancel_cases id
  · rw [he]
    exact h
  · -- the timer is resolved before it counts as cancelled
    have hm : ((s.send ⟨.timer seq, .cancelled⟩).mark (.timer seq)).Sound :=
      (h.send _).mark fun q hq => by
        obtain rfl := CancellableSeqNum.timer.inj hq
        exact ⟨hid _ rfl, Finset.notMem_erase _ _⟩
    rw [he]
    refine Sound.push hm fun seq' hseq => ?_
    obtain rfl := WorkflowCommand.cancelTimer.inj hseq
    exact ⟨Finset.notMem_erase _ _, (h.given _ hp).2⟩
  · rw [he]
    exact h.mark fun q hq => by
      obtain rfl := CancellableSeqNum.timer.inj hq
      exact ⟨hid _ rfl, hp⟩
  · rw [he]
    refine (h.mark fun q hq => ?_).push fun seq hseq => absurd hseq (hc.ne_cancelTimer seq)
    exact absurd hq (hc.ne_timer q)

theorem poll (h : s.Sound) (id : PendingCommandId) (w : Waker) : (s.pollCommand id w).Sound :=
  { h with
    empty := fun id' hid => (pollCommand_value id id' w).trans (h.empty id' hid)
    waiting := fun id' hid hv => h.waiting id' hid ((pollCommand_value id id' w).symm.trans hv) }

theorem cancelToken (h : s.Sound) (t : Nat) : (s.cancelToken t).Sound := by
  unfold Ctx.cancelToken
  split
  · exact h
  · exact { h with }

/-- Plain changes keep this. -/
theorem plain (hc : Plain s s') (h : s.Sound) : s'.Sound := by
  cases hc with
  | issue hissues _ => exact h.issue hissues
  | cancel hid => exact h.cancel hid
  | poll w _ => exact h.poll _ w
  | tokens | stateMut => exact { h with }
  | cancelToken t => exact h.cancelToken t

theorem change (hc : Change s s') (h : s.Sound) : s'.Sound := by
  cases hc with
  | plain hp => exact h.plain hp
  | poll id w => exact h.poll id w
  | tokens | la => exact { h with }
  | attempt n a t => exact h.issue fun _ => rfl

theorem changes (hc : Changes s s') (h : s.Sound) : s'.Sound := hc.keeps (fun _ _ => change) h

end Sound

/-! ## What callbacks are about -/

/-- Callbacks are about operations that there are. -/
structure Listens (s : Ctx) : Prop where
  tokens : ∀ t, ∀ callback ∈ (s.tokens t).callbacks, s.GivenCallback callback
  callbacks : ∀ callback ∈ s.callbacks, s.GivenCallback callback

theorem Given.mono {id : PendingCommandId} (hseq : ∀ k, s.nextSeq k ≤ s'.nextSeq k) (h : s.Given id) : s'.Given id :=
  ⟨h.1, Nat.lt_of_lt_of_le h.2 (hseq _)⟩

theorem GivenCallback.mono {callback : Callback} (hseq : ∀ k, s.nextSeq k ≤ s'.nextSeq k)
    (h : s.GivenCallback callback) :
    s'.GivenCallback callback :=
  fun id hid seq hq => (h id hid seq hq).mono hseq

theorem init_listens : Listens init where
  tokens _ callback h := by cases h
  callbacks callback h := by cases h

namespace Listens

theorem congr (h : s.Listens) (hseq : ∀ k, s.nextSeq k ≤ s'.nextSeq k) (ht : s'.tokens = s.tokens)
    (hc : s'.callbacks = s.callbacks) : s'.Listens where
  tokens t callback hcb := by
    rw [ht] at hcb
    exact (h.tokens t callback hcb).mono hseq
  callbacks callback hcb := by
    rw [hc] at hcb
    exact (h.callbacks callback hcb).mono hseq

theorem relisten {tokens : Nat → WorkflowCancellationToken} {n : Nat} (h : s.Listens) (hr : s.Relisten tokens) :
    Listens { s with tokens := tokens, nextToken := n } where
  tokens t callback hcb := (hr.new t callback hcb).elim (h.tokens t callback) id
  callbacks := h.callbacks

theorem cancelToken (h : s.Listens) (t : Nat) : (s.cancelToken t).Listens := by
  unfold Ctx.cancelToken
  split
  · exact h
  · constructor
    · intro t' callback hcb
      simp only [Function.update_apply] at hcb
      split at hcb
      · cases hcb
      · exact h.tokens t' callback hcb
    · intro callback hcb
      rcases List.mem_append.mp hcb with hcb | hcb
      · exact h.tokens t callback hcb
      · exact h.callbacks callback hcb

theorem plain (hc : Plain s s') (h : s.Listens) : s'.Listens := by
  cases hc with
  | issue =>
    rename_i k _ _ _
    exact h.congr le_issue_nextSeq issue_tokens (by cases k <;> rfl)
  | @cancel id =>
    obtain ⟨-, -, hseq, ht, hc⟩ := s.cancel_frame id
    exact h.congr (fun k => by rw [hseq]) ht hc
  | tokens n hr _ => exact h.relisten hr
  | cancelToken t => exact h.cancelToken t
  | poll | stateMut => exact { h with }

theorem change (hc : Change s s') (h : s.Listens) : s'.Listens := by
  cases hc with
  | plain hp => exact h.plain hp
  | tokens hr => exact h.relisten hr
  | attempt => exact h.congr le_issue_nextSeq issue_tokens rfl
  | poll | la => exact { h with }

theorem changes (hc : Changes s s') (h : s.Listens) : s'.Listens := hc.keeps (fun _ _ => change) h

end Listens

end Ctx

end SdkCore.WorkflowContext
