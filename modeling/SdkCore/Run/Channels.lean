import SdkCore.Run.Inputs

/-!
# The channels of completions

`channels` are those that a run answered, and the one of the completion that waits for a page. A completion adds its
channel, unless the run is vulnerable (`Completed.accounted`).
-/

namespace SdkCore

/-- The paginator is for the run of the task. -/
def PermittedWFT.Coherent (p : PermittedWFT) : Prop := p.paginator.runId = p.work.runId

instance (p : PermittedWFT) : Decidable p.Coherent := inferInstanceAs (Decidable (_ = _))

namespace ManagedRun

variable {μ : Type} {M : ManagerOps μ} {cfg : WorkerConfig} (r : ManagedRun μ)

/-- The channel of the completion that waits. -/
def parkedChannels : List Nat :=
  ((r.completionWaitingOnPageFetch.bind (·.respChan)).map (·.id)).toList

/-- The channels that were answered. -/
def answeredChannels : List Nat := r.replies.map (·.1)

def channels : List Nat := r.answeredChannels ++ r.parkedChannels

/-- What lets a completion that waits be found again. -/
structure Consistent (r : ManagedRun μ) : Prop where
  page : ∀ pg, r.paginator = some pg → pg.runId = r.runId
  tasks : ∀ t ∈ r.taskBuffer.intoBufferOrder, t.Coherent ∧ t.work.runId = r.runId
  parked : r.completionWaitingOnPageFetch.isSome → r.activation.isSome ∧ r.answer = none

section

variable {r r' : ManagedRun μ}

theorem Same.channels (h : Same r r') : r'.channels = r.channels := by
  simp only [ManagedRun.channels, answeredChannels, parkedChannels, h.replies, h.waiting]

theorem Consistent.not_parked (h : Consistent r) (ha : r.activation = none) :
    r.completionWaitingOnPageFetch = none := by
  by_contra hne
  have hp := (h.parked (Option.isSome_iff_ne_none.mpr hne)).1
  rw [ha] at hp
  cases hp

theorem Consistent.of_free (hr : Consistent r) (hk : r'.runId = r.runId) (hw : r'.completionWaitingOnPageFetch = none)
    (hpg : ∀ pg, r'.paginator = some pg → pg.runId = r.runId)
    (ht : ∀ t ∈ r'.taskBuffer.intoBufferOrder, t ∈ r.taskBuffer.intoBufferOrder) : Consistent r' := by
  refine ⟨fun pg h => (hpg pg h).trans hk.symm, fun t h => hk ▸ hr.tasks t (ht t h), fun h => ?_⟩
  rw [hw] at h
  cases h

/-- Small changes keep this. -/
theorem Change.consistent (h : Change r r') (hr : Consistent r) : Consistent r' := by
  cases h with
  | settle h =>
    cases h
    exact ⟨hr.page, hr.tasks, hr.parked⟩
  | dispatch => exact ⟨hr.page, hr.tasks, fun h => ⟨rfl, (hr.parked h).2⟩⟩
  | evict => exact ⟨hr.page, hr.tasks, hr.parked⟩
  | take p rest q pg w hw ha he hn hq hpg =>
    have hp := BufferedTasks.getNextWft_perm hn
    have hfree := hr.not_parked ha
    refine hr.of_free rfl hfree (fun pg' h => ?_) fun t ht => ?_
    · rcases hpg with rfl | rfl
      · exact hr.page pg' h
      · cases h
        obtain ⟨hcoh, hk⟩ := hr.tasks p (hp.mem_iff.mpr List.mem_cons_self)
        exact hcoh.trans hk
    · exact hp.mem_iff.mpr (List.mem_cons_of_mem p ht)

theorem Tends.consistent (h : Tends r r') (hr : Consistent r) : Consistent r' := by
  induction h with
  | refl => exact hr
  | tail _ h ih =>
    cases h with
    | change h => exact h.consistent ih
    | noteEviction => exact ⟨ih.page, ih.tasks, ih.parked⟩

theorem offerWft_consistent (p : PermittedWFT) (hp : p.Coherent) (hk : p.work.runId = r.runId) (hr : Consistent r) :
    Consistent ((offerWft M p).exec r).2 := by
  rcases offerWft_spec r p with h | ⟨-, ha, -, q, pg, w, -, hpg, h⟩
  · rw [h]
    refine ⟨hr.page, fun t ht => ?_, hr.parked⟩
    have ht := (r.taskBuffer.buffer_perm p).mem_iff.mp (List.mem_append_left _ ht)
    rcases List.mem_append.mp ht with ht | ht
    · exact hr.tasks t ht
    · rw [List.mem_singleton.mp ht]
      exact ⟨hp, hk⟩
  · have hfree := hr.not_parked ha
    refine h.tends.consistent (hr.of_free rfl hfree (fun pg' h => ?_) fun t ht => ht)
    rcases hpg with rfl | rfl
    · exact hr.page pg' h
    · cases h
      exact hp.trans hk

theorem offerWft_channels (p : PermittedWFT) :
    ((offerWft M p).exec r).2.channels = r.channels ∧
      ((offerWft M p).exec r).2.completionWaitingOnPageFetch = r.completionWaitingOnPageFetch := by
  rcases offerWft_spec r p with h | ⟨-, -, -, q, pg, w, -, -, h⟩
  · rw [h]
    exact ⟨rfl, rfl⟩
  · exact ⟨h.same.channels, h.same.waiting⟩

theorem newRun_consistent (p : PermittedWFT) (k n : Nat) (hp : p.paginator.runId = k) :
    Consistent ((incomingWft M p).exec (blank M k n)).2 ∧ ((incomingWft M p).exec (blank M k n)).2.channels = [] ∧
      ((incomingWft M p).exec (blank M k n)).2.completionWaitingOnPageFetch = none := by
  have hb : Consistent (blank M k n) := by
    refine ⟨fun pg h => ?_, fun t ht => ?_, fun h => ?_⟩
    · cases h
    · cases ht
    · cases h
  obtain ⟨q, pg, w, -, hpg, h⟩ := incomingWft_evolves p (r := blank M k n) rfl
  refine ⟨h.tends.consistent (hb.of_free rfl rfl (fun pg' h => ?_) fun t ht => ht), h.same.channels, h.same.waiting⟩
  rcases hpg with rfl | rfl
  · cases h
  · cases h
    exact hp

end

/-! ## Completions -/

theorem send_channels (chan : Option RespChan) (res : ActivationCompleteResult)
    (hw : r.completionWaitingOnPageFetch = none) :
    (r.send chan res).channels = r.channels ++ (chan.map (·.id)).toList := by
  cases chan with
  | none => simp [send]
  | some c => simp [send, channels, answeredChannels, parkedChannels, hw]

theorem send_waiting (chan : Option RespChan) (res : ActivationCompleteResult) :
    (r.send chan res).completionWaitingOnPageFetch = r.completionWaitingOnPageFetch := by
  cases chan <;> rfl

theorem Consistent.send {r : ManagedRun μ} (hr : Consistent r) (chan : Option RespChan) (res : ActivationCompleteResult)
    (hw : r.completionWaitingOnPageFetch = none) : Consistent (r.send chan res) := by
  cases chan with
  | none => exact hr
  | some c => exact hr.of_free rfl hw hr.page fun t ht => ht

/-- What a completion leaves. -/
structure Accounted (chan : Option RespChan) (asked : HistoryPaginator → Prop) (r r' : ManagedRun μ) : Prop where
  consistent : Consistent r'
  runId : r'.runId = r.runId
  channels : r'.channels = r.channels ++ (chan.map (·.id)).toList
  waiting : r'.completionWaitingOnPageFetch.isSome → ∃ pg, asked pg ∧ pg.runId = r.runId

/-- **A completion is answered or waits for a page that was asked for**, unless the run is vulnerable. -/
theorem Completed.accounted {chan : Option RespChan} {tok : Option TaskToken} {asked : HistoryPaginator → Prop}
    {r r' : ManagedRun μ} (h : Completed cfg chan tok asked r r') (hv : ¬ Vulnerable cfg r) (hr : Consistent r)
    (hw : r.completionWaitingOnPageFetch = none) (ha : r.answer = none) : Accounted chan asked r r' := by
  have hact : r.activation.isSome := by
    by_contra hne
    exact hv (.inl (by simpa using hne))
  have hsent : ∀ {s t : ManagedRun μ} (res : ActivationCompleteResult), Tends r s → Evolves (s.send chan res) t →
      Accounted chan asked r t := by
    intro s t res hs ht
    have hws := hs.same.waiting.trans hw
    refine ⟨ht.tends.consistent ((hs.consistent hr).send chan res hws), ?_, ?_, fun hn => ?_⟩
    · exact ht.same.runId.trans ((send_runId s chan res).trans hs.same.runId)
    · rw [ht.same.channels, send_channels s chan res hws, hs.same.channels]
    · rw [ht.same.waiting, send_waiting, hws] at hn
      cases hn
  cases h with
  | replied res he _ h' => exact hsent res he.tends h'
  | unstored res he _ _ _ h' => exact hsent res (he.tends.tail (.noteEviction _ _)) h'
  | @waits s c pg hasked hpg he hc _ h' =>
    have hs := he.tends.consistent hr
    have hrep : s.replies = r.replies := he.same.replies
    subst h'
    refine ⟨⟨fun pg h => ?_, hs.tasks, fun _ => ?_⟩, he.same.runId, ?_, fun _ => ⟨pg, hasked, ?_⟩⟩
    · cases h
    · exact ⟨(he.activation hact).symm ▸ hact, he.same.answer.trans ha⟩
    · simp [ManagedRun.channels, answeredChannels, parkedChannels, waitFor, hw, hc, hrep]
    · exact (hs.page pg hpg).trans he.same.runId
  | lost hv' => exact absurd hv' hv

/-- Nondeterminism fails the workflow of the run. -/
def failsOnNondeterminism (cfg : WorkerConfig) (r : ManagedRun μ) : Bool :=
  r.wft.any fun t => r.failsWorkflow cfg t.attempt .nonDeterministicError

theorem not_vulnerable {r : ManagedRun μ} (ha : r.activation.isSome) (hf : r.failsOnNondeterminism cfg = false) :
    ¬ Vulnerable cfg r := by
  rintro (h | ⟨t, ht, h⟩)
  · rw [h] at ha
    cases ha
  · simp [failsOnNondeterminism, ht, h] at hf

/-! ## Completions that waited -/

/-- A run that waits for nothing, and has answered what waited. -/
structure Settled (r r' : ManagedRun μ) : Prop where
  consistent : Consistent r'
  runId : r'.runId = r.runId
  channels : r'.channels = r.channels
  waiting : r'.completionWaitingOnPageFetch = none

section

variable {r r' : ManagedRun μ}

/-- A completion that waited is answered. -/
theorem Completed.settled {c : RunActivationCompletion} {tok : Option TaskToken} {pg : Option HistoryPaginator}
    (hc : r.completionWaitingOnPageFetch = some c) (hpg : ∀ pg', pg = some pg' → pg'.runId = r.runId)
    (h : Completed cfg c.respChan tok (fun _ => False) (r.resume pg) r') (hr : Consistent r)
    (hf : r.failsOnNondeterminism cfg = false) : Settled r r' := by
  obtain ⟨ha, hans⟩ := hr.parked (by simp [hc])
  have hacc := h.accounted (not_vulnerable ha hf)
    (hr.of_free rfl rfl hpg fun t ht => ht) rfl hans
  refine ⟨hacc.consistent, hacc.runId, hacc.channels.trans ?_, ?_⟩
  · simp [ManagedRun.channels, answeredChannels, parkedChannels, resume, hc]
  · by_contra hne
    obtain ⟨-, hn, -⟩ := hacc.waiting (Option.isSome_iff_ne_none.mpr hne)
    exact hn

theorem fetchedPageCompletion_settled {fuel : Nat} {page : HistoryUpdate} {pg : HistoryPaginator}
    {a : Option ActivationOrAuto} (h : (fetchedPageCompletion M cfg fuel page pg).exec r = (.ok a, r'))
    (hpg : pg.runId = r.runId) (hr : Consistent r)
    (hf : r.completionWaitingOnPageFetch.isSome → r.failsOnNondeterminism cfg = false) : Settled r r' := by
  have hpage : ∀ pg', some pg = some pg' → pg'.runId = r.runId := fun pg' h => by
    cases h
    exact hpg
  cases hw : r.completionWaitingOnPageFetch with
  | none =>
    have he : Evolves _ ((fetchedPageCompletion M cfg fuel page pg).exec r).2 :=
      fetchedPageCompletion_idle hw fuel page pg
    rw [h] at he
    refine ⟨he.tends.consistent (hr.of_free rfl rfl hpage fun t ht => ht), he.same.runId, ?_, he.same.waiting⟩
    rw [he.same.channels]
    simp [ManagedRun.channels, answeredChannels, parkedChannels, resume, hw]
  | some c =>
    have hc : Completes cfg _ _ _ _ _ := fetchedPageCompletion_waiting (M := M) hw fuel page pg
    rw [h] at hc
    exact Completed.settled hw hpage hc hr (hf (by simp [hw]))

theorem requestEviction_settled {fuel : Nat} {info : RequestEvictMsg} {a : EvictionRequestResult}
    (h : (requestEviction M cfg fuel info).exec r = (.ok a, r')) (hw : r.completionWaitingOnPageFetch.isSome)
    (hi : info.reason = .paginationOrHistoryFetch) (hr : Consistent r) (hf : r.failsOnNondeterminism cfg = false) :
    Settled r r' := by
  obtain ⟨c, hc⟩ := Option.isSome_iff_exists.mp hw
  have hcomp : Completes cfg _ _ _ _ _ := requestEviction_waiting (M := M) hc hi fuel
  rw [h] at hcomp
  exact Completed.settled hc hr.page hcomp hr hf

end

end ManagedRun

end SdkCore
