import SdkCore.Run.Inputs
import SdkCore.Run.Managers
import Mathlib.Data.List.Perm.Subperm
import Mathlib.Data.List.Nodup

/-!
# Each task is answered once

A run answers its task when it replies to a completion, and drops it when the report comes back. The task at hand was
answered only if that report is still to come (`answered_nodup`).
-/

namespace SdkCore.ManagedRun

variable {μ : Type} {M : ManagerOps μ} {cfg : WorkerConfig} (r : ManagedRun μ)

/-- The tasks that the run has answered. -/
def answered : List TaskToken := r.replies.filterMap (·.2.outcome.answers)

def unstoredToken : Option TaskToken :=
  r.tryingToEvict.bind fun e => e.autoReplyFail.map (·.taskToken)

def waitingTokens : List TaskToken :=
  r.taskBuffer.intoBufferOrder.map (·.work.taskToken) ++ r.unstoredToken.toList

/-- All tasks that the run has seen. -/
def knownTokens : List TaskToken := r.answered ++ r.token.toList ++ r.waitingTokens

/-- Completions come one at a time, tasks are new, and a report follows an answer. -/
def inTurn : RunInput → Bool
  | .newWft p => p.work.taskToken ∉ r.knownTokens
  | .requestEviction info => info.autoReplyFail.all (·.taskToken ∉ r.knownTokens)
  | .success _ _ | .failure _ _ _ _ => r.completionWaitingOnPageFetch.isNone && r.answer.isNone
  | .postActivation status _ => r.answer.any fun o => o.answers.isNone || status.isReported
  | _ => true

/-- The report on an answer finds no pending queries. -/
def queriesDone : RunInput → Bool
  | .postActivation _ _ => r.answer.all (·.answers.isNone) || !r.hasPendingQueries
  | _ => true

/-! ## The invariant -/

/-- No task is answered twice. -/
structure AnswersOnce (r : ManagedRun μ) : Prop where
  nodup : r.answered.Nodup
  /-- The report on the answer is still to come. -/
  current : ∀ k, r.token = some k → k ∈ r.answered → ∃ o, r.answer = some o ∧ o.answers.isSome
  distinct : r.waitingTokens.Nodup
  fresh : ∀ k ∈ r.waitingTokens, k ∉ r.answered ∧ r.token ≠ some k
  /-- A completion that waits is for the current task, and was not answered. -/
  parked : ∀ c, r.completionWaitingOnPageFetch = some c → r.token = some c.taskToken ∧ r.answer = none

namespace AnswersOnce

variable {r r' s : ManagedRun μ}

theorem nodup_of_subperm {l l' : List TaskToken} (h : l.Subperm l') (hn : l'.Nodup) : l.Nodup := by
  obtain ⟨m, hp, hs⟩ := h
  exact hp.nodup_iff.mp (hn.sublist hs)

section

variable (h : AnswersOnce r)
include h

theorem of_eq (hans : r'.answered = r.answered) (htok : r'.token = r.token) (hanswer : r'.answer = r.answer)
    (hpark : r'.completionWaitingOnPageFetch = r.completionWaitingOnPageFetch)
    (hsub : r'.waitingTokens.Subperm r.waitingTokens) : AnswersOnce r' where
  nodup := hans ▸ h.nodup
  current k := by
    rw [htok, hans, hanswer]
    exact h.current k
  distinct := nodup_of_subperm hsub h.distinct
  fresh k hk := by
    rw [hans, htok]
    exact h.fresh k (hsub.subset hk)
  parked c := by
    rw [hpark, htok, hanswer]
    exact h.parked c

/-- Small changes answer nothing. -/
theorem change (hc : Change r r') : AnswersOnce r' := by
  have hsame := hc.same
  have hans : r'.answered = r.answered := by rw [answered, answered, hsame.replies]
  cases hc with
  | settle hs =>
    refine h.of_eq hans hs.token hsame.answer hsame.waiting ?_
    cases hs
    exact .refl _
  | dispatch => exact { h with }
  | evict reason =>
    refine h.of_eq rfl rfl rfl rfl ?_
    show (_ ++ []).Subperm (_ ++ _)
    rw [List.append_nil]
    exact (List.sublist_append_left _ _).subperm
  | take p rest q pg w hw ha he hn hq =>
    have htok : r.token = none := by simp [token, hw]
    have hperm : r.waitingTokens.Perm (p.work.taskToken :: rest.intoBufferOrder.map (·.work.taskToken)) := by
      simpa [waitingTokens, unstoredToken, he] using
        (BufferedTasks.getNextWft_perm hn).map (·.work.taskToken)
    obtain ⟨hp, hrest⟩ := List.nodup_cons.mp (hperm.nodup_iff.mp h.distinct)
    have hfresh : ∀ k ∈ p.work.taskToken :: rest.intoBufferOrder.map (·.work.taskToken), k ∉ r.answered :=
      fun k hk => (h.fresh k (hperm.mem_iff.mpr hk)).1
    have hwait : rest.intoBufferOrder.map (·.work.taskToken) =
        ({ r with taskBuffer := rest, applied := r.applied ++ [p], wft := q, paginator := pg,
                  waitingOnLa := w } : ManagedRun μ).waitingTokens := by
      simp [waitingTokens, unstoredToken, he]
    refine ⟨h.nodup, ?_, hwait ▸ hrest, ?_, ?_⟩
    · intro k hk hmem
      rcases hq with rfl | rfl
      · cases hk
      · cases hk
        exact absurd hmem (hfresh _ List.mem_cons_self)
    · intro k hk
      rw [← hwait] at hk
      refine ⟨hfresh k (List.mem_cons_of_mem _ hk), ?_⟩
      intro hk'
      rcases hq with rfl | rfl
      · cases hk'
      · cases hk'
        exact hp hk
    · intro c hc
      rw [(h.parked c hc).1] at htok
      cases htok

theorem evolves (he : Evolves r r') : AnswersOnce r' := by
  induction he with
  | refl => exact h
  | tail _ hc ih => exact ih.change hc

variable {res : ActivationCompleteResult} {k : TaskToken} {info : RequestEvictMsg} {o : ActivationCompleteOutcome}
  {status : WFTReportStatus}

theorem send (hanswer : r.answer = none) (hpark : r.completionWaitingOnPageFetch = none) (chan : Option RespChan)
    (hnew : ∀ k, res.outcome.answers = some k → k ∉ r.answered ∧ k ∉ r.waitingTokens) :
    AnswersOnce (r.send chan res) := by
  cases chan with
  | none => exact h
  | some c =>
    have hans : (r.send (some c) res).answered = r.answered ++ res.outcome.answers.toList := by
      simp only [ManagedRun.send, answered, List.filterMap_append]
      cases ho : res.outcome.answers <;> simp [ho]
    refine ⟨?_, ?_, h.distinct, ?_, ?_⟩
    · rw [hans]
      refine List.Nodup.append h.nodup ?_ ?_
      · cases res.outcome.answers <;> simp
      · intro k hk hk'
        exact (hnew k (Option.mem_toList.mp hk')).1 hk
    · intro k hk hmem
      rw [hans, List.mem_append] at hmem
      rcases hmem with hmem | hmem
      · -- an earlier answer would still wait for its report
        obtain ⟨o, ho, -⟩ := h.current k hk hmem
        rw [hanswer] at ho
        cases ho
      · refine ⟨res.outcome, rfl, ?_⟩
        rw [Option.mem_toList.mp hmem]
        rfl
    · intro k hk
      refine ⟨?_, (h.fresh k hk).2⟩
      rw [hans, List.mem_append, not_or]
      refine ⟨(h.fresh k hk).1, ?_⟩
      intro hk'
      exact (hnew k (Option.mem_toList.mp hk')).2 hk
    · intro c' hc'
      have hc' : r.completionWaitingOnPageFetch = some c' := hc'
      rw [hpark] at hc'
      cases hc'

theorem token_new (hanswer : r.answer = none) (hk : r.token = some k) : k ∉ r.answered ∧ k ∉ r.waitingTokens := by
  constructor
  · intro hmem
    obtain ⟨o, ho, -⟩ := h.current k hk hmem
    rw [hanswer] at ho
    cases ho
  · intro hmem
    exact (h.fresh k hmem).2 hk

theorem send_unstored (hanswer : r.answer = none) (hpark : r.completionWaitingOnPageFetch = none)
    {reason : EvictionReason} {info : UnstoredWftFailInfo} (he : r.tryingToEvict = some ⟨reason, some info⟩)
    (chan : Option RespChan) (hres : res.outcome.answers = some info.taskToken) :
    AnswersOnce (({ r with tryingToEvict := some ⟨reason, none⟩ } : ManagedRun μ).send chan res) := by
  have hold : r.waitingTokens = r.taskBuffer.intoBufferOrder.map (·.work.taskToken) ++ [info.taskToken] := by
    simp [waitingTokens, unstoredToken, he]
  have hnew : ({ r with tryingToEvict := some ⟨reason, none⟩ } : ManagedRun μ).waitingTokens =
      r.taskBuffer.intoBufferOrder.map (·.work.taskToken) := by
    simp [waitingTokens, unstoredToken]
  have hd := h.distinct
  rw [hold] at hd
  have h' : AnswersOnce ({ r with tryingToEvict := some ⟨reason, none⟩ } : ManagedRun μ) := by
    refine h.of_eq rfl rfl rfl rfl ?_
    rw [hnew]
    exact (List.sublist_append_left _ _).subperm
  refine h'.send hanswer hpark chan fun k hk => ?_
  rw [hres] at hk
  cases hk
  refine ⟨(h.fresh _ (by simp [hold])).1, ?_⟩
  rw [hnew]
  intro hmem
  exact (List.nodup_append.mp hd).2.2 _ hmem _ List.mem_cons_self rfl

theorem waitFor (hanswer : r.answer = none) {c : RunActivationCompletion} (hc : r.token = some c.taskToken) :
    AnswersOnce (r.waitFor c) where
  nodup := h.nodup
  current := h.current
  distinct := h.distinct
  fresh := h.fresh
  parked c' hc' := by
    cases hc'
    exact ⟨hc, hanswer⟩

/-- A completion ends in one of its ways. -/
theorem completed (hanswer : r.answer = none) (hpark : r.completionWaitingOnPageFetch = none) {chan : Option RespChan}
    {tok : Option TaskToken} (htok : tok = none ∨ tok = r.token) {asked : HistoryPaginator → Prop}
    (hc : Completed cfg chan tok asked r r') : AnswersOnce r' := by
  have hkeep : ∀ {s}, Evolves r s → AnswersOnce s ∧ s.answer = none ∧ s.completionWaitingOnPageFetch = none := by
    intro s he
    exact ⟨h.evolves he, he.same.answer.trans hanswer, he.same.waiting.trans hpark⟩
  cases hc with
  | @replied s res he hres h' =>
    obtain ⟨hs, ha, hp⟩ := hkeep he
    refine evolves (hs.send ha hp chan fun k hk => hs.token_new ha ?_) h'
    simp only [List.mem_cons, List.not_mem_nil, or_false, hk] at hres
    rcases hres with hn | ht | ht
    · cases hn
    · rcases htok with rfl | rfl
      · cases ht
      · exact he.token ht.symm
    · exact ht.symm
  | @unstored s reason info res he hw hte hres h' =>
    obtain ⟨hs, ha, hp⟩ := hkeep he
    exact evolves (hs.send_unstored ha hp hte chan hres) h'
  | @waits s c _ _ _ he _ ht h' =>
    obtain ⟨hs, ha, -⟩ := hkeep he
    exact h' ▸ hs.waitFor ha ht
  | @lost s _ he h' =>
    obtain ⟨hs, ha, -⟩ := hkeep he
    rcases h' with rfl | ⟨c, ht, rfl⟩
    · exact hs
    · exact hs.waitFor ha ht

theorem resume (pg : Option HistoryPaginator) : AnswersOnce (r.resume pg) where
  nodup := h.nodup
  current := h.current
  distinct := h.distinct
  fresh := h.fresh
  parked _ hc := by cases hc

theorem insert (hk : k ∉ r.knownTokens) (hans : r'.answered = r.answered) (htok : r'.token = r.token)
    (hanswer : r'.answer = r.answer) (hpark : r'.completionWaitingOnPageFetch = r.completionWaitingOnPageFetch)
    (hsub : r'.waitingTokens.Subperm (k :: r.waitingTokens)) : AnswersOnce r' := by
  simp only [knownTokens, List.mem_append, not_or, Option.mem_toList] at hk
  obtain ⟨⟨hka, hkt⟩, hkw⟩ := hk
  refine ⟨hans ▸ h.nodup, ?_, nodup_of_subperm hsub (List.nodup_cons.mpr ⟨hkw, h.distinct⟩), ?_, ?_⟩
  · intro k'
    rw [htok, hans, hanswer]
    exact h.current k'
  · intro k' hk'
    rw [hans, htok]
    rcases List.mem_cons.mp (hsub.subset hk') with rfl | hk'
    · exact ⟨hka, hkt⟩
    · exact h.fresh k' hk'
  · intro c
    rw [hpark, htok, hanswer]
    exact h.parked c

omit h in
theorem buffer_subperm (r : ManagedRun μ) (p : PermittedWFT) :
    ({ r with taskBuffer := r.taskBuffer.buffer p } : ManagedRun μ).waitingTokens.Subperm
      (p.work.taskToken :: r.waitingTokens) := by
  have hp : ((r.taskBuffer.buffer p).intoBufferOrder.map (·.work.taskToken)).Subperm
      (p.work.taskToken :: r.taskBuffer.intoBufferOrder.map (·.work.taskToken)) := by
    have h := ((r.taskBuffer.buffer_perm p).trans List.perm_append_comm).map (·.work.taskToken)
    rw [List.map_append] at h
    exact (List.sublist_append_left _ _).subperm.trans h.subperm
  exact (List.subperm_append_right r.unstoredToken.toList).mpr hp

theorem newWft {p : PermittedWFT} (hp : p.work.taskToken ∉ r.knownTokens) : AnswersOnce ((offerWft M p).exec r).2 := by
  rcases offerWft_spec r p with ho | ⟨hw, -, -, q, pg, w, hq, -, he⟩
  · rw [ho]
    exact h.insert hp rfl rfl rfl rfl (buffer_subperm r p)
  · refine evolves ?_ he
    simp only [knownTokens, List.mem_append, not_or] at hp
    have htok : r.token = none := by simp [token, hw]
    refine ⟨h.nodup, ?_, h.distinct, ?_, ?_⟩
    · intro k hk hmem
      rcases hq with rfl | rfl
      · cases hk
      · cases hk
        exact absurd hmem hp.1.1
    · intro k hk
      refine ⟨(h.fresh k hk).1, ?_⟩
      intro hk'
      rcases hq with rfl | rfl
      · cases hk'
      · cases hk'
        exact hp.2 hk
    · intro c hc
      rw [(h.parked c hc).1] at htok
      cases htok

theorem noteEviction (hi : ∀ u, info.autoReplyFail = some u → u.taskToken ∉ r.knownTokens) :
    AnswersOnce ({ r with tryingToEvict := some info } : ManagedRun μ) := by
  obtain ⟨reason, auto⟩ := info
  cases auto with
  | none => exact h.change (.evict r reason)
  | some u =>
    refine h.insert (hi u rfl) rfl rfl rfl rfl ?_
    refine List.perm_append_comm.subperm.trans ?_
    exact ((List.sublist_append_left _ _).cons_cons _).subperm

omit h in
theorem knownTokens_of_settles (h : Settles r s) : s.knownTokens = r.knownTokens := by
  have ht := h.token
  rw [knownTokens, ht]
  cases h
  rfl

abbrev Leaves {α : Type} (R : ManagedRun μ → Prop) (x : Except Limit α × ManagedRun μ) : Prop :=
  Op.Post (fun _ r' => R r') (fun _ _ => True) x

omit h in
theorem Leaves.of_snd {α : Type} {R : ManagedRun μ → Prop} {x : Except Limit α × ManagedRun μ} (h : R x.2) :
    Leaves R x := by
  obtain ⟨e | a, r'⟩ := x
  · trivial
  · exact h

theorem requestEviction (hi : ∀ u, info.autoReplyFail = some u → u.taskToken ∉ r.knownTokens) (fuel : Nat) :
    Leaves AnswersOnce ((ManagedRun.requestEviction M cfg fuel info).exec r) := by
  by_cases hw : r.completionWaitingOnPageFetch = none ∨ info.reason ≠ .paginationOrHistoryFetch
  · rw [requestEviction_marks hw]
    refine .of_snd ?_
    obtain ⟨s, hs, he⟩ := markForEviction_evolves info r
    refine evolves (noteEviction (h.evolves hs.evolves) ?_) he
    rw [knownTokens_of_settles hs]
    exact hi
  · obtain ⟨hw, hr⟩ := not_or.mp hw
    obtain ⟨c, hc⟩ := Option.ne_none_iff_exists'.mp hw
    refine (requestEviction_waiting hc (not_not.mp hr) fuel).imp (fun _ _ h' => ?_) fun _ _ _ => trivial
    exact (h.resume _).completed (h.parked c hc).2 rfl (.inl rfl) h'

theorem fetchedPage (fuel : Nat) (page : HistoryUpdate) (pg : HistoryPaginator) :
    Leaves AnswersOnce ((fetchedPageCompletion M cfg fuel page pg).exec r) := by
  cases hc : r.completionWaitingOnPageFetch with
  | none => exact .of_snd (evolves (h.resume _) (fetchedPageCompletion_idle hc fuel page pg))
  | some c =>
    refine (fetchedPageCompletion_waiting hc fuel page pg).imp (fun _ _ h' => ?_) fun _ _ _ => trivial
    exact (h.resume _).completed (h.parked c hc).2 rfl (.inr (h.parked c hc).1.symm) h'

/-- The report on an answer. -/
theorem completeWft (ho : r.answer = some o) (hs : o.answers.isSome → status.isReported ∧ r.hasPendingQueries = false) :
    AnswersOnce ((ManagedRun.completeWft M status).exec r).2 ∧
      ∀ k, ((ManagedRun.completeWft M status).exec r).2.token = some k →
        k ∉ ((ManagedRun.completeWft M status).exec r).2.answered := by
  rcases completeWft_spec r status with ⟨hr, hkept⟩ | ⟨m, hr⟩
  · rw [hr]
    refine ⟨h, fun k hk hmem => ?_⟩
    obtain ⟨o', ho', hans⟩ := h.current k hk hmem
    rw [ho] at ho'
    cases ho'
    obtain ⟨hrep, hq⟩ := hs hans
    rcases hkept with ⟨-, rfl⟩ | hkept
    · cases hrep
    · rw [hq] at hkept
      cases hkept
  · rw [hr]
    refine ⟨⟨h.nodup, fun k hk => ?_, h.distinct, fun k hk => ⟨(h.fresh k hk).1, fun hk' => ?_⟩, fun c hc => ?_⟩,
      fun k hk => ?_⟩
    · cases hk
    · cases hk'
    · have ha := (h.parked c hc).2
      rw [ho] at ha
      cases ha
    · cases hk

theorem endActivation (hk : ∀ k, r.token = some k → k ∉ r.answered) (hans : r'.answered = r.answered)
    (htok : r'.token = r.token) (hanswer : r'.answer = none)
    (hpark : r'.completionWaitingOnPageFetch = r.completionWaitingOnPageFetch)
    (hsub : r'.waitingTokens.Subperm r.waitingTokens) : AnswersOnce r' where
  nodup := hans ▸ h.nodup
  current k hk' hmem := by
    rw [htok] at hk'
    rw [hans] at hmem
    exact absurd hmem (hk k hk')
  distinct := nodup_of_subperm hsub h.distinct
  fresh k hk' := by
    rw [hans, htok]
    exact h.fresh k (hsub.subset hk')
  parked c hc := by
    rw [hpark] at hc
    exact ⟨htok.trans (h.parked c hc).1, hanswer⟩

theorem postActivation (ho : r.answer = some o)
    (hs : o.answers.isSome → status.isReported ∧ r.hasPendingQueries = false) (auto : Bool) (fuel : Nat) :
    Leaves AnswersOnce ((handle M cfg fuel (.postActivation status auto)).exec r) := by
  obtain ⟨h₁, hk⟩ := h.completeWft ho hs
  unfold handle
  rw [Op.exec_bind]
  generalize (ManagedRun.completeWft M status).exec r = x at h₁ hk
  obtain ⟨e | t, s⟩ := x
  · trivial
  · rw [Op.andThen_ok]
    unfold ignore
    rw [Op.exec_bind]
    rcases finishActivation_spec s (endsActivation auto) with ⟨a, -, hf⟩ | ⟨-, -, m, hf⟩
    · rw [hf]
      exact h₁.endActivation hk rfl rfl rfl rfl (.refl _)
    · rw [hf]
      refine h₁.endActivation hk rfl rfl rfl rfl ?_
      exact (List.sublist_append_right _ _).subperm

/-- **Calls in their turn keep the invariant.** -/
theorem step {i : RunInput} (hi : r.inTurn i) (hq : r.queriesDone i) (hs : Step M cfg r i r') : AnswersOnce r' := by
  obtain ⟨fuel, hs⟩ := hs
  cases i with
  | newWft p =>
    obtain ⟨a, hx⟩ := of_ignore hs
    have h' := h.newWft (M := M) (by simpa [inTurn] using hi)
    rwa [hx] at h'
  | success commands chan =>
    obtain ⟨a, hx⟩ := of_ignore hs
    simp only [inTurn, Bool.and_eq_true, Option.isNone_iff_eq_none] at hi
    have hc : Completes cfg chan none _ r _ := successfulCompletion_completes (M := M) fuel commands chan r
    rw [hx] at hc
    exact h.completed hi.2 hi.1 (.inl rfl) hc
  | failure cause reason auto chan =>
    obtain ⟨a, hx⟩ := of_ignore hs
    simp only [inTurn, Bool.and_eq_true, Option.isNone_iff_eq_none] at hi
    have hc : Completes cfg chan none _ r _ := failedCompletion_completes (M := M) fuel cause reason auto chan r
    rw [hx] at hc
    exact h.completed hi.2 hi.1 (.inl rfl) hc
  | fetchedPage page pg =>
    obtain ⟨a, hx⟩ := of_ignore hs
    have h' : Leaves AnswersOnce ((fetchedPageCompletion M cfg fuel page pg).exec r) := h.fetchedPage fuel page pg
    rwa [hx] at h'
  | requestEviction info =>
    obtain ⟨a, hx⟩ := of_ignore hs
    have hi : ∀ u, info.autoReplyFail = some u → u.taskToken ∉ r.knownTokens := by
      intro u hu
      simpa [inTurn, hu] using hi
    have h' : Leaves AnswersOnce ((ManagedRun.requestEviction M cfg fuel info).exec r) := h.requestEviction hi fuel
    rwa [hx] at h'
  | postActivation status auto =>
    obtain ⟨o, ho, hi⟩ := (Option.any_eq_true _ _).mp hi
    have hrep : o.answers.isSome → status.isReported ∧ r.hasPendingQueries = false := by
      intro hsome
      have hne := Option.isSome_iff_ne_none.mp hsome
      exact ⟨by simpa [hne] using hi, by simpa [queriesDone, ho, hne] using hq⟩
    have h' : Leaves AnswersOnce ((handle M cfg fuel (.postActivation status auto)).exec r) :=
      h.postActivation ho hrep auto fuel
    rwa [hs] at h'
  | localResolution res =>
    obtain ⟨a, hx⟩ := of_ignore hs
    have he := localResolution_evolves (M := M) res r
    rw [hx] at he
    exact h.evolves he
  | heartbeatTimeout =>
    obtain ⟨a, hx⟩ := of_ignore hs
    have he := heartbeatTimeout_evolves (M := M) r
    rw [hx] at he
    exact h.evolves he
  | checkMoreActivations =>
    obtain ⟨a, hx⟩ := of_ignore hs
    have he := checkMoreActivations_evolves (M := M) r
    rw [hx] at he
    exact h.evolves he

end

end AnswersOnce

def IsBlank (M : ManagerOps μ) (r : ManagedRun μ) : Prop := ∃ runId n, r = blank M runId n

/-- **Each task is answered at most once**, if a report never finds pending queries. -/
theorem answered_nodup {r : ManagedRun μ}
    (h : Reach (Step M cfg) (fun r i => r.inTurn i ∧ r.queriesDone i) (IsBlank M) r) : r.answered.Nodup := by
  refine AnswersOnce.nodup (h.invariant ?_ fun _ _ _ h hi hs => h.step hi.1 hi.2 hs)
  rintro _ ⟨runId, n, rfl⟩
  refine ⟨.nil, fun k hk => ?_, .nil, fun k hk => ?_, fun c hc => ?_⟩
  · cases hk
  · cases hk
  · cases hc

/-- A completion answers the activation that is outstanding. -/
def hasActivation : RunInput → Bool
  | .success _ _ | .failure _ _ _ _ => r.activation.isSome
  | _ => true

/-- A run is to make room in the cache. Lang fails its task, and a query answers it again. -/
theorem answered_twice :
    ∃ r, Reach (Step signalOps {}) (fun r i => r.inTurn i ∧ r.hasActivation i) (IsBlank signalOps) r ∧
      r.answered = [7, 7] :=
  Reach.exists_of_trace (f := step? signalOps {} 1)
    [.newWft (.ofStart 0 7 [.id 1]), .requestEviction { reason := .cacheFull },
      .failure .workflowWorkerUnhandledFailure .langFail false (some ⟨0, true⟩),
      .postActivation (.reported none) false, .checkMoreActivations, .success [.queryResponse (.id 1)] (some ⟨1, true⟩)]
    (by decide +kernel) (fun _ _ _ => step_of_step?) (.start ⟨0, 0, rfl⟩)

theorem answered_nodup_query :
    ∃ r, Reach (Step signalOps {}) (fun r i => r.inTurn i ∧ r.queriesDone i) (IsBlank signalOps) r ∧
      r.answered = [7] ∧ r.answered.Nodup := by
  obtain ⟨r, hreach, ha⟩ : ∃ r, Reach (Step signalOps {})
      (fun r i => r.inTurn i ∧ r.queriesDone i) (IsBlank signalOps) r ∧
      r.answered = [7] :=
    Reach.exists_of_trace (f := step? signalOps {} 1)
      [.newWft (.ofStart 0 7 [.id 1]), .success [] (some ⟨0, true⟩), .postActivation .notReported false,
        .checkMoreActivations, .success [.queryResponse (.id 1)] (some ⟨1, true⟩),
          .postActivation (.reported none) false]
      (by decide +kernel) (fun _ _ _ => step_of_step?) (.start ⟨0, 0, rfl⟩)
  exact ⟨r, hreach, ha, answered_nodup hreach⟩

end SdkCore.ManagedRun
