import SdkCore.Run.Channels
import SdkCore.Stream.Conservation
import Mathlib.Data.List.Nodup

/-!
# The answers of the stream

A completion with a channel was answered, or waits for a page that its run asked for (`completions_answered`), if
callers take turns (`inTurn`), fetches answer requests (`fetchFits`) and nondeterminism does not fail the workflow
(`mayFailWorkflow`).
-/

namespace SdkCore

def HistoryFetchReq.runId : HistoryFetchReq → RunId
  | full p => p.work.runId
  | nextPage paginator => paginator.runId

def HistoryFetchReq.isNextPage : HistoryFetchReq → Bool
  | full _ => false
  | nextPage _ => true

namespace WFStream

open Relation ManagedRun Op

variable {μ : Type} {M : ManagerOps μ} {cfg : WorkerConfig}

/-- A page for the run was requested. -/
def AsksFor (s : WFStream μ) (k : RunId) : Prop := ∃ f ∈ s.fetches, f.2.isNextPage ∧ f.2.runId = k

/-- Completions are accounted for, with tasks `l` and channels `c` on their way. Run `e` may wait for a page that just
returned. -/
structure Answering (l : List PermittedWFT) (c : List Nat) (e : Option RunId) (s : WFStream μ) : Prop where
  nodup : (s.runs.map runId).Nodup
  ids : s.received.Perm (c ++ s.allRuns.flatMap channels)
  consistent : ∀ r ∈ s.runs, Consistent r
  parked : ∀ r ∈ s.runs, some r.runId ≠ e → r.completionWaitingOnPageFetch.isSome → s.AsksFor r.runId
  gone : ∀ r ∈ s.removed, r.completionWaitingOnPageFetch = none
  fetchNodup : (s.fetches.map (·.1)).Nodup
  fetchLt : ∀ f ∈ s.fetches, f.1 < s.nextFetch
  coherent : ∀ p ∈ l ++ s.bufferedPollsNeedCacheSlot.flatten, p.Coherent

section

variable {l : List PermittedWFT} {c c' : List Nat} {e e' : Option RunId} {s : WFStream μ} {r r' : ManagedRun μ}
    {k : RunId}

theorem mem_runs_putRun {x : ManagedRun μ} (h : x ∈ (s.putRun r').runs) :
    x = r' ∨ x ∈ s.runs ∧ x.runId ≠ r'.runId := by
  simp only [putRun, List.mem_append, List.mem_filter, List.mem_singleton] at h
  rcases h with ⟨h, hne⟩ | h
  · exact .inr ⟨h, by simpa using hne⟩
  · exact .inl h

namespace Answering

theorem putRun (h : Answering l c e s) (hr : s.findRun k = some r) (hk : r'.runId = r.runId)
    (hc : (c' ++ r'.channels).Perm (c ++ r.channels)) (hcons : Consistent r') (he : e = e' ∨ e = some k)
    (hp : some k ≠ e' → r'.completionWaitingOnPageFetch.isSome → s.AsksFor k) :
    Answering l c' e' (s.putRun r') := by
  have hrk := runId_of_findRun hr
  subst hrk
  refine ⟨putRun_nodup h.nodup, ?_, fun x hx => ?_, fun x hx hne hw => ?_, h.gone, h.fetchNodup, h.fetchLt, h.coherent⟩
  · have hids : s.received.Perm _ := h.ids
    have hf := flatMap_putRun channels h.nodup (hk ▸ hr)
    refine hids.trans (List.perm_iff_count.mpr fun a => ?_)
    have hf := hf.count_eq a
    have hc := hc.count_eq a
    simp only [Option.elim, List.count_append] at hf hc ⊢
    omega
  · rcases mem_runs_putRun hx with rfl | ⟨hx, -⟩
    · exact hcons
    · exact h.consistent x hx
  · rcases mem_runs_putRun hx with rfl | ⟨hx, hxk⟩
    · rw [hk] at hne ⊢
      exact hp hne hw
    · refine h.parked x hx ?_ hw
      rcases he with rfl | rfl
      · exact hne
      · rw [hk] at hxk
        exact fun h => hxk (Option.some.inj h)

theorem absent (h : Answering l c (some k) s) (hr : s.findRun k = none) : Answering l c none s := by
  refine { h with parked := fun x hx _ hw => h.parked x hx ?_ hw }
  have hne := List.find?_eq_none.mp hr x hx
  exact fun h => hne (by simpa using h)

/-- A run goes on without answering. -/
theorem tends (h : Answering l c e s) (hr : s.findRun k = some r) (ht : Tends r r') :
    Answering l c e (s.putRun r') := by
  have hm := mem_of_findRun hr
  have hrk := runId_of_findRun hr
  refine h.putRun hr ht.same.runId ?_ (ht.consistent (h.consistent r hm)) (.inl rfl) fun hne hw => ?_
  · rw [ht.same.channels]
  · rw [ht.same.waiting] at hw
    rw [← hrk] at hne ⊢
    exact h.parked r hm hne hw

theorem requestFetch (h : Answering l c e s) (req : HistoryFetchReq) : Answering l c e (s.requestFetch req) := by
  refine { h with parked := fun x hx hne hw => ?_, fetchNodup := ?_, fetchLt := ?_ }
  · obtain ⟨f, hf, hp⟩ := h.parked x hx hne hw
    exact ⟨f, List.mem_append_left _ hf, hp⟩
  · simp only [WFStream.requestFetch, List.map_append, List.map_cons, List.map_nil]
    refine List.nodup_append.mpr ⟨h.fetchNodup, List.nodup_cons.mpr ⟨List.not_mem_nil, .nil⟩, ?_⟩
    intro n hn m hm hnm
    obtain ⟨f, hf, rfl⟩ := List.mem_map.mp hn
    have hlt := h.fetchLt f hf
    rw [hnm, List.mem_singleton.mp hm] at hlt
    omega
  · intro f hf
    simp only [WFStream.requestFetch, List.mem_append, List.mem_singleton] at hf
    rcases hf with hf | rfl
    · exact Nat.lt_succ_of_lt (h.fetchLt f hf)
    · exact Nat.lt_succ_self _

theorem tasks {l' : List PermittedWFT} (h : Answering l c e s) (hl : ∀ p ∈ l', p ∈ l ∨ p.Coherent) :
    Answering l' c e s := by
  refine { h with coherent := fun p hp => ?_ }
  rcases List.mem_append.mp hp with hp | hp
  · exact (hl p hp).elim (fun hp => h.coherent p (List.mem_append_left _ hp)) id
  · exact h.coherent p (List.mem_append_right _ hp)

theorem place {x y : List PermittedWFT × WFStream μ} (hp : Place M cfg x y) (h : Answering x.1 c e x.2) :
    Answering y.1 c e y.2 := by
  cases hp with
  | @offer p l s r hr =>
    have hrk := runId_of_findRun hr
    have hm := mem_of_findRun hr
    have hcoh : p.Coherent := h.coherent p (List.mem_append_left _ List.mem_cons_self)
    obtain ⟨hch, hwait⟩ := offerWft_channels (r := r) p
    have h' : Answering l c e s := h.tasks fun q hq => .inl (List.mem_cons_of_mem p hq)
    refine h'.putRun hr (offerWft_runId r p) (by rw [hch]) ?_ (.inl rfl) fun hne hw => ?_
    · exact offerWft_consistent p hcoh hrk.symm (h.consistent r hm)
    · rw [hwait] at hw
      rw [← hrk] at hne ⊢
      exact h.parked r hm hne hw
  | @new p l s hr =>
    have hcoh : p.Coherent := h.coherent p (List.mem_append_left _ List.mem_cons_self)
    obtain ⟨hcons, hch, hwait⟩ := newRun_consistent p p.work.runId s.created hcoh
    obtain ⟨-, hk, -⟩ := newRun_tasks p p.work.runId s.created
    refine ⟨putRun_nodup h.nodup, ?_, fun x hx => ?_, fun x hx hne hw => ?_, h.gone, h.fetchNodup, h.fetchLt,
      fun q hq => ?_⟩
    · have hf := flatMap_putRun channels h.nodup (hk.symm ▸ hr)
      rw [hch] at hf
      exact h.ids.trans (hf.symm.append_left c)
    · rcases mem_runs_putRun hx with rfl | ⟨hx, -⟩
      · exact hcons
      · exact h.consistent x hx
    · rcases mem_runs_putRun hx with rfl | ⟨hx, -⟩
      · rw [hwait] at hw
        cases hw
      · exact h.parked x hx hne hw
    · refine h.coherent q ?_
      simp only [List.cons_append, List.mem_cons]
      exact .inr hq
  | @poll p l s hf =>
    refine { h with coherent := fun q hq => h.coherent q ?_ }
    have hperm := (bufferPoll_flatten p s.bufferedPollsNeedCacheSlot).mem_iff (a := q)
    simp only [List.mem_append, List.mem_cons] at hq hperm ⊢
    rcases hq with hq | hq
    · exact .inl (.inr hq)
    · rcases hperm.mp hq with hq | hq
      · exact .inl (.inl hq)
      · exact .inr hq
  | @fetch p l s =>
    have h' : Answering l c e s := h.tasks fun q hq => .inl (List.mem_cons_of_mem p hq)
    have h' := h'.requestFetch (.full p)
    exact ⟨h'.nodup, h'.ids, h'.consistent, h'.parked, h'.gone, h'.fetchNodup, h'.fetchLt, h'.coherent⟩

theorem flows {x y : List PermittedWFT × WFStream μ} (hf : Flows M cfg x y) (h : Answering x.1 c e x.2) :
    Answering y.1 c e y.2 := by
  induction hf with
  | refl => exact h
  | tail _ hf ih =>
    cases hf with
    | place hp => exact ih.place hp
    | run hr ht => exact ih.tends hr ht

theorem returned {fetch : Option Nat} (h : Answering l c none s)
    (hf : ∀ n, fetch = some n → ∃ f ∈ s.fetches, f.1 = n ∧ (f.2.isNextPage → e = some f.2.runId)) :
    Answering l c e (s.returned fetch) := by
  refine { h with parked := fun x hx hne hw => ?_, fetchNodup := ?_, fetchLt := ?_ }
  · obtain ⟨g, hg, hpage, hk⟩ := h.parked x hx (by simp) hw
    refine ⟨g, List.mem_filter.mpr ⟨hg, ?_⟩, hpage, hk⟩
    simp only [ne_eq, decide_eq_true_eq]
    intro hgf
    obtain ⟨f, hfm, hfg, hfe⟩ := hf g.1 hgf.symm
    have hfg : f = g := List.inj_on_of_nodup_map h.fetchNodup hfm hg hfg
    subst hfg
    exact hne (hk ▸ (hfe hpage).symm)
  · exact h.fetchNodup.sublist (List.filter_sublist.map _)
  · exact fun f hf => h.fetchLt f (List.mem_filter.mp hf).1

end Answering

theorem find_of_mem : ∀ {runs : List (ManagedRun μ)}, (runs.map runId).Nodup → r ∈ runs → r.runId = k →
    runs.find? (·.runId = k) = some r
  | [], _, h, _ => by cases h
  | x :: runs, hd, h, hk => by
    obtain ⟨hx, hd⟩ := List.nodup_cons.mp hd
    rcases List.mem_cons.mp h with rfl | h
    · exact List.find?_cons_of_pos (by simpa using hk)
    · rw [List.find?_cons_of_neg, find_of_mem hd h hk]
      have hne : x.runId ≠ k := fun hxk => hx (List.mem_map.mpr ⟨r, h, hk.trans hxk.symm⟩)
      simpa using hne

/-! ## The end of an activation -/

/-- No completion of the run waits for a page. -/
def Unparked (k : RunId) (s : WFStream μ) : Prop := ∀ r ∈ s.runs, r.runId = k → r.completionWaitingOnPageFetch = none

theorem Unparked.putRun (h : Unparked k s) (hr : r'.runId = k → r'.completionWaitingOnPageFetch = none) :
    Unparked k (s.putRun r') := by
  intro x hx hk
  rcases mem_runs_putRun hx with rfl | ⟨hx, -⟩
  · exact hr hk
  · exact h x hx hk

variable {x y : List PermittedWFT × WFStream μ}

theorem Unparked.place (hp : Place M cfg x y) (h : Unparked k x.2) : Unparked k y.2 := by
  cases hp with
  | @offer p l s r hr =>
    refine h.putRun fun hk => ?_
    rw [(offerWft_channels p).2]
    exact h r (mem_of_findRun hr) ((offerWft_runId r p).symm.trans hk)
  | @new p l s hr =>
    refine Unparked.putRun h fun _ => ?_
    obtain ⟨q, pg, w, -, -, he⟩ := incomingWft_evolves p (r := blank M p.work.runId s.created) rfl
    exact he.same.waiting
  | poll | fetch => exact h

variable {lossy : Prop} {w : Option PermittedWFT} {α : Type} {tx : Option RespChan}

/-- The end of an activation. -/
theorem Answering.turn (ht : Turn M cfg lossy k w x y) (hw : ∀ p, w = some p → p.Coherent) (h : Answering x.1 c e x.2)
    (hu : Unparked k x.2) : Answering y.1 c e y.2 ∧ Unparked k y.2 := by
  have hfree : ∀ {s : WFStream μ} {r r' : ManagedRun μ}, Answering x.1 c e s → Unparked k s → s.findRun k = some r →
      r'.runId = r.runId → r'.channels = r.channels → r'.completionWaitingOnPageFetch = none → Consistent r' →
      Answering x.1 c e (s.putRun r') ∧ Unparked k (s.putRun r') := by
    intro s r r' h hu hr hk hch hwait hcons
    refine ⟨h.putRun hr hk (by rw [hch]) hcons (.inl rfl) fun _ hn => ?_, hu.putRun fun _ => hwait⟩
    rw [hwait] at hn
    cases hn
  cases ht with
  | place hp => exact ⟨h.place hp, hu.place hp⟩
  | @evolve l s r r' hr he =>
    have hwait := hu r (mem_of_findRun hr) (runId_of_findRun hr)
    exact hfree h hu hr he.same.runId he.same.channels (he.same.waiting.trans hwait)
      (he.tends.consistent (h.consistent r (mem_of_findRun hr)))
  | @endTask l s r hr m =>
    have hcons := h.consistent r (mem_of_findRun hr)
    exact hfree h hu hr rfl rfl (hu r (mem_of_findRun hr) (runId_of_findRun hr)) ⟨hcons.page, hcons.tasks, hcons.parked⟩
  | @endActivation l s r hr a ha =>
    have hcons := h.consistent r (mem_of_findRun hr)
    have hwait := hu r (mem_of_findRun hr) (runId_of_findRun hr)
    exact hfree h hu hr rfl rfl hwait (hcons.of_free rfl hwait hcons.page fun t ht => ht)
  | @enter l s ps hp =>
    refine ⟨?_, hu⟩
    have h : Answering (ps ++ l) c e s := h.tasks fun p hm => ?_
    · exact { h with }
    · exact (List.mem_append.mp hm).elim (fun hm => .inr (hw p (hp p hm))) .inl
  | @pop l s group groups hp =>
    refine ⟨{ h with coherent := fun p hm => h.coherent p ?_ }, hu⟩
    simp only [hp, List.flatten_cons, List.mem_append] at hm ⊢
    tauto
  | @remove l s r hr _ m =>
    have hk := runId_of_findRun hr
    have hwait := hu r (mem_of_findRun hr) hk
    subst hk
    have hruns : ∀ x ∈ (s.dropRun r m).runs, x ∈ s.runs := fun x hx => by
      rw [dropRun_runs] at hx
      exact (List.mem_filter.mp hx).1
    refine ⟨⟨dropRun_nodup m h.nodup, ?_, fun x hx => h.consistent x (hruns x hx), fun x hx => h.parked x (hruns x hx),
      fun x hx => ?_, h.fetchNodup, h.fetchLt, fun p hp => ?_⟩, fun x hx => hu x (hruns x hx)⟩
    · have hids : s.received.Perm _ := h.ids
      have hf := flatMap_dropRun channels m h.nodup hr
      exact hids.trans (((List.perm_append_left_iff r.channels).mp hf).symm.append_left c)
    · rw [dropRun_removed] at hx
      rcases List.mem_append.mp hx with hx | hx
      · exact h.gone x hx
      · rw [List.mem_singleton.mp hx]
        exact hwait
    · have hpolls : (s.dropRun r m).bufferedPollsNeedCacheSlot = s.bufferedPollsNeedCacheSlot := rfl
      simp only [hpolls, List.mem_append, or_assoc] at hp
      rcases hp with hp | hp
      · exact ((h.consistent r (mem_of_findRun hr)).tasks p hp).1
      · exact h.coherent p (List.mem_append.mpr hp)
  | reorder hp => exact ⟨h.tasks fun p hm => .inl (hp.mem_iff.mpr hm), hu⟩
  | lose _ => exact ⟨h.tasks fun p hm => .inl (List.mem_append_right _ hm), hu⟩

theorem Answering.turns (ht : Turns M cfg lossy k w x y) (hw : ∀ p, w = some p → p.Coherent) (h : Answering x.1 c e x.2)
    (hu : Unparked k x.2) : Answering y.1 c e y.2 := by
  have hinv : Answering y.1 c e y.2 ∧ Unparked k y.2 := by
    induction ht with
    | refl => exact ⟨h, hu⟩
    | tail _ ht ih => exact ih.1.turn ht hw ih.2
  exact hinv.1

/-! ## Completions -/

abbrev Answers {α : Type} (x : Except Limit α × WFStream μ) : Prop :=
  Post (fun _ s' => Answering [] [] none s') (fun _ _ => True) x

theorem FlowsTo.answers {x : Except Limit α × WFStream μ} (hf : FlowsTo M cfg ([], s) [] x)
    (h : Answering [] [] none s) : Answers x :=
  Post.imp hf (fun _ _ hf => h.flows hf) fun _ _ _ => trivial

/-- A completion is answered or waits. -/
theorem Answering.accounted {asked : HistoryPaginator → Prop} (h : Answering l (tx.map (·.id)).toList e s)
    (hr : s.findRun k = some r) (ha : Accounted tx asked r r') (he : e = none ∨ e = some k)
    (hasked : ∀ pg, asked pg → pg.runId = k → s.AsksFor k) : Answering l [] none (s.putRun r') := by
  have hk := runId_of_findRun hr
  refine h.putRun hr ha.runId ?_ ha.consistent he fun _ hw => ?_
  · rw [ha.channels, List.nil_append]
    exact List.perm_append_comm
  · obtain ⟨pg, hpg, hpk⟩ := ha.waiting hw
    exact hasked pg hpg (hpk.trans hk)

theorem processCompletion_answers (fuel : Nat) {completion : ValidatedCompletion}
    (h : Answering [] (tx.map (·.id)).toList none s) (hr : s.findRun k = some r) (ha : r.activation.isSome)
    (hans : r.answer = none) (hw : r.completionWaitingOnPageFetch = none) (hf : r.failsOnNondeterminism cfg = false) :
    Answers ((processCompletion M cfg fuel k completion tx).exec s) := by
  have hcons := h.consistent r (mem_of_findRun hr)
  have hc : Completes cfg tx none _ r _ := complete_completes (M := M) fuel tx completion r
  refine Post.bind (Q := fun a s₁ => ∃ a' r', a = some a' ∧ Accounted tx (fun p => a' = .error p) r r' ∧
    s₁ = s.putRun r') (onRun_post (fun hn => ?_) (fun r₁ a r' hr₁ hex => ?_) fun _ _ _ _ _ => trivial) ?_
  · rw [hr] at hn
    cases hn
  · rw [hr] at hr₁
    cases hr₁
    rw [hex] at hc
    exact ⟨a, r', rfl, hc.accounted (not_vulnerable ha hf) hcons hw hans, rfl⟩
  · rintro _ _ ⟨a, r', rfl, hacc, rfl⟩
    cases a with
    | ok act =>
      refine (evictAfterCompletion_flows fuel k _ _).answers (h.accounted hr hacc (.inl rfl) fun pg hpg => ?_)
      cases hpg
    | error pg =>
      refine (evictAfterCompletion_flows fuel k _ _).answers ?_
      -- the request for the page and the run that waits for it come together
      have h' : Answering [] (tx.map (·.id)).toList none (s.requestFetch (.nextPage pg)) := h.requestFetch _
      have hr' : (s.requestFetch (.nextPage pg)).findRun k = some r := hr
      refine h'.accounted hr' hacc (.inl rfl) fun pg' hpg hk => ?_
      cases hpg
      exact ⟨_, List.mem_append_right _ List.mem_cons_self, rfl, hk⟩

theorem Answering.settled (h : Answering l c e s) (hr : s.findRun k = some r) (hs : Settled r r')
    (he : e = none ∨ e = some k) : Answering l c none (s.putRun r') := by
  refine h.putRun hr hs.runId (by rw [hs.channels]) hs.consistent he fun _ hw => ?_
  rw [hs.waiting] at hw
  cases hw

theorem processFetchedPage_answers (fuel : Nat) {paginator : HistoryPaginator} {update : HistoryUpdate}
    (h : Answering [] [] (some paginator.runId) s)
    (hf : ∀ r, s.findRun paginator.runId = some r → r.completionWaitingOnPageFetch.isSome →
      r.failsOnNondeterminism cfg = false) :
    Answers ((processFetchedPage M cfg fuel paginator update).exec s) := by
  refine Post.bind (Q := fun _ s₁ => Answering [] [] none s₁)
    (onRun_post (fun hn => h.absent hn) (fun r a r' hr hex => ?_) fun _ _ _ _ _ => trivial) fun a s₁ h₁ => ?_
  · have hk := runId_of_findRun hr
    refine h.settled hr (fetchedPageCompletion_settled hex hk.symm (h.consistent r (mem_of_findRun hr)) ?_) (.inr rfl)
    exact hf r hr
  · cases a with
    | none => exact h₁
    | some act => exact (evictAfterCompletion_flows fuel _ _ s₁).answers h₁

theorem requestEviction_answers (fuel : Nat) {info : RequestEvictMsg} (h : Answering [] [] e s)
    (he : e = none ∨ e = some k ∧ info.reason = .paginationOrHistoryFetch)
    (hf : ∀ r, s.findRun k = some r → r.completionWaitingOnPageFetch.isSome →
      info.reason = .paginationOrHistoryFetch → r.failsOnNondeterminism cfg = false) :
    Answers ((requestEviction M cfg fuel k info).exec s) := by
  refine Post.bind
    (onRun_post (fun hn => ?_) (fun r a r' hr hex => ?_) fun _ _ _ _ _ => trivial) fun _ _ h => h
  · rcases he with rfl | ⟨rfl, -⟩
    · exact h
    · exact h.absent hn
  · have hcons := h.consistent r (mem_of_findRun hr)
    by_cases hw : r.completionWaitingOnPageFetch.isSome ∧ info.reason = .paginationOrHistoryFetch
    · exact h.settled hr (requestEviction_settled hex hw.1 hw.2 hcons (hf r hr hw.1 hw.2)) (he.imp_right And.left)
    · have ht : Tends r r' := by
        have ht := markForEviction_tends (M := M) r info
        have hm : (ManagedRun.requestEviction M cfg fuel info).exec r = _ := requestEviction_marks ?_ fuel
        · rw [hm] at hex
          rwa [hex] at ht
        · by_cases hn : r.completionWaitingOnPageFetch = none
          · exact .inl hn
          · exact .inr fun hi => hw ⟨Option.isSome_iff_ne_none.mpr hn, hi⟩
      rcases he with rfl | ⟨rfl, hi⟩
      · exact h.tends hr ht
      · have hn : r.completionWaitingOnPageFetch = none := by
          by_contra hn
          exact hw ⟨Option.isSome_iff_ne_none.mpr hn, hi⟩
        exact h.settled hr ⟨ht.consistent hcons, ht.same.runId, ht.same.channels, ht.same.waiting.trans hn⟩ (.inr rfl)

/-! ## Inputs -/

/-- An activation is completed once, and the report comes when it was answered. -/
def inTurn (s : WFStream μ) : WFStreamInput → Bool
  | .completion k _ _ =>
    (s.findRun k).any fun r => r.activation.isSome && r.answer.isNone && r.completionWaitingOnPageFetch.isNone
  | .postActivation k _ _ _ => (s.findRun k).all (·.answer.isSome)
  | _ => true

def answersFetch (s : WFStream μ) (fetch : Option Nat) (fits : HistoryFetchReq → Bool) : Bool :=
  fetch.all fun n => s.fetches.any fun f => f.1 = n && fits f.2

/-- What is fetched was requested. -/
def fetchFits (s : WFStream μ) : WFStreamInput → Bool
  | .newWft _ fetch => s.answersFetch fetch (!·.isNextPage)
  | .fetchedPageCompletion paginator _ fetch => s.answersFetch fetch (·.runId = paginator.runId)
  | .failedFetch k _ fetch => s.answersFetch fetch (·.runId = k)
  | _ => true

def isCoherent : WFStreamInput → Bool
  | .newWft p _ => p.Coherent
  | .postActivation _ _ w _ => w.all (·.Coherent)
  | _ => true

/-- A completion of a run whose nondeterminism fails it. -/
def mayFailWorkflow (cfg : WorkerConfig) (s : WFStream μ) : WFStreamInput → Bool
  | .completion k _ _ => (s.findRun k).any (·.failsOnNondeterminism cfg)
  | .fetchedPageCompletion paginator _ _ =>
    (s.findRun paginator.runId).any fun r => r.completionWaitingOnPageFetch.isSome && r.failsOnNondeterminism cfg
  | .requestEviction k _ | .failedFetch k _ _ =>
    (s.findRun k).any fun r => r.completionWaitingOnPageFetch.isSome && r.failsOnNondeterminism cfg
  | _ => false

theorem Answering.returned_of_fits {fetch : Option Nat} {fits : HistoryFetchReq → Bool} (h : Answering l c none s)
    (hf : s.answersFetch fetch fits) (he : ∀ req, fits req → req.isNextPage → e = some req.runId) :
    Answering l c e (s.returned fetch) := by
  refine h.returned fun n hn => ?_
  subst hn
  obtain ⟨f, hfm, hf⟩ := List.any_eq_true.mp hf
  simp only [Bool.and_eq_true, decide_eq_true_eq] at hf
  exact ⟨f, hfm, hf.1, he f.2 hf.2⟩

theorem touch_answers (k : RunId) {f : SOp μ α} (h : Answering l c e s)
    (hf : ∀ s₁, s₁.findRun k = s.findRun k → Answering l c e s₁ → Answers (f.exec s₁)) :
    Answers ((touch k >>= fun _ => f).exec s) := by
  obtain ⟨s₁, htouch, hfind, hs₁⟩ := touch_spec k s
  rw [exec_bind, htouch]
  refine hf s₁ hfind ?_
  rcases hs₁ with rfl | ⟨r, hr, rfl⟩
  · exact h
  · exact h.tends hr .refl

theorem local_answers (k : RunId) {op : ROp μ (Option ActivationOrAuto)} (hop : ∀ r, Evolves r (op.exec r).2)
    (h : Answering [] [] none s) :
    Answers ((do touch k; return (← actOnRun k op).toList.map .activation : SOp μ
      (List WorkflowStreamAction)).exec s) := by
  refine touch_answers k h fun s₁ _ h => ?_
  refine Post.bind ?_ fun _ _ h => h
  refine Post.bind
    (onRun_post (fun _ => h) (fun r a r' hr hex => ?_) fun _ _ _ _ _ => trivial) fun _ _ h => h
  have he := hop r
  rw [hex] at he
  exact h.tends hr he.tends

/-- Every input accounts for its completion. -/
theorem handle_answers (fuel : Nat) (input : WFStreamInput) (h : Answering [] [] none s) (ht : s.inTurn input)
    (hfit : s.fetchFits input) (hcoh : isCoherent input) (hf : s.mayFailWorkflow cfg input = false) :
    Answers ((handle M cfg fuel input).exec s) := by
  cases input with
  | newWft p fetch =>
    unfold handle
    rw [exec_modify_bind]
    have hfit : s.answersFetch fetch (!·.isNextPage) := hfit
    have h : Answering [] [] none (s.returned fetch) :=
      h.returned_of_fits hfit fun req hreq hn => by simp [hn] at hreq
    have h : Answering [p] [] none { s.returned fetch with entered := s.entered ++ [p] } := by
      have h : Answering [p] [] none (s.returned fetch) := h.tasks fun q hq => .inr ?_
      · exact { h with }
      · rw [List.mem_singleton.mp hq]
        simpa [isCoherent] using hcoh
    have hp : Place M cfg ([p], _) ([], _) :=
      instantiateOrUpdate_place p { s.returned fetch with entered := s.entered ++ [p] }
    rw [exec_bind]
    generalize (instantiateOrUpdate M cfg p).exec _ = y at hp
    obtain ⟨e | act, s₁⟩ := y
    · trivial
    · exact h.place hp
  | completion k completion tx =>
    obtain ⟨r, hr, ht⟩ := (Option.any_eq_true _ _).mp ht
    simp only [Bool.and_eq_true, Option.isNone_iff_eq_none] at ht
    refine touch_answers k h fun s₁ hs₁ h => ?_
    rw [exec_modify_bind]
    have hf : r.failsOnNondeterminism cfg = false := by simpa [mayFailWorkflow, hr] using hf
    refine Post.bind (processCompletion_answers fuel ?_ (hs₁.trans hr) ht.1.1 ht.1.2 ht.2 hf) fun _ _ h => h
    refine { h with ids := ?_ }
    exact (h.ids.append_right _).trans List.perm_append_comm
  | fetchedPageCompletion paginator update fetch =>
    unfold handle
    have hfit : s.answersFetch fetch (·.runId = paginator.runId) := hfit
    have h : Answering [] [] (some paginator.runId) (s.returned fetch) :=
      h.returned_of_fits hfit fun req hreq _ => by rw [of_decide_eq_true hreq]
    refine touch_answers paginator.runId h fun s₁ hs₁ h => ?_
    refine Post.bind (processFetchedPage_answers fuel h fun r hr hw => ?_) fun _ _ h => h
    have hr : s.findRun paginator.runId = some r := hs₁.symm.trans hr
    simpa [mayFailWorkflow, hr, hw] using hf
  | postActivation k status w auto =>
    refine touch_answers k h fun s₁ hs₁ h => ?_
    have hw : ∀ p, w = some p → p.Coherent := fun p hp => by simpa [isCoherent, hp] using hcoh
    have hu : Unparked k s₁ := by
      intro r hr hk
      have hfind : s₁.findRun k = some r := find_of_mem h.nodup hr hk
      rw [hs₁] at hfind
      have hans : r.answer.isSome := by simpa [inTurn, hfind] using ht
      by_contra hne
      rw [((h.consistent r hr).parked (Option.isSome_iff_ne_none.mpr hne)).2] at hans
      cases hans
    refine Post.bind ?_ fun _ _ h => h
    have hturns : TurnsTo M cfg True k w ([], s₁) [] ((processPostActivation M cfg k status w auto).exec s₁) :=
      processPostActivation_turns k status w auto fun _ => trivial
    exact Post.imp hturns (fun _ _ ht => Answering.turns ht hw h hu) fun _ _ _ => trivial
  | localResolution k res => exact local_answers k (fun r => localResolution_evolves res r) h
  | heartbeatTimeout k => exact local_answers k (fun r => heartbeatTimeout_evolves r) h
  | localActivityCancelProcessed k => exact local_answers k (fun r => checkMoreActivations_evolves r) h
  | requestEviction k info =>
    refine touch_answers k h fun s₁ hs₁ h => ?_
    refine Post.bind (requestEviction_answers fuel h (.inl rfl) fun r hr hw _ => ?_) fun _ _ h => h
    have hr : s.findRun k = some r := hs₁.symm.trans hr
    simpa [mayFailWorkflow, hr, hw] using hf
  | failedFetch k info fetch =>
    unfold handle processFailedFetch
    simp only [exec_bind, exec_modify, andThen_ok, exec_get]
    have hfit : s.answersFetch fetch (·.runId = k) := hfit
    have h : Answering [] [] (some k) (s.returned fetch) :=
      h.returned_of_fits hfit fun req hreq _ => by rw [of_decide_eq_true hreq]
    split
    · next hn => exact h.absent (by simpa [hasRun] using hn)
    · refine Post.bind (requestEviction_answers fuel h (.inr ⟨rfl, rfl⟩) fun r hr hw _ => ?_) fun _ _ h => h
      have hr : s.findRun k = some r := hr
      simpa [mayFailWorkflow, hr, hw] using hf
  | bumpStream => exact h

end

theorem Step.answering {s s' : WFStream μ} {input : WFStreamInput} (hstep : Step M cfg s input s')
    (h : Answering [] [] none s) (ht : s.inTurn input) (hfit : s.fetchFits input) (hcoh : isCoherent input)
    (hf : s.mayFailWorkflow cfg input = false) : Answering [] [] none s' := by
  obtain ⟨fuel, actions, hstep⟩ := hstep
  have hm : Answers ((process M cfg fuel input).exec s) := by
    refine Post.bind (handle_answers fuel input h ht hfit hcoh hf) fun _ s₁ h => ?_
    exact Post.bind ((reconcileBuffered_flows fuel s₁).answers h) fun _ _ h => h
  rwa [hstep] at hm

/-- **Every completion with a channel was answered once, or waits in its run for a page that was asked for**, if
nondeterminism never fails a workflow. -/
theorem completions_answered {s : WFStream μ}
    (h : Reach (Step M cfg)
      (fun s i => s.inTurn i ∧ s.fetchFits i ∧ isCoherent i ∧ s.mayFailWorkflow cfg i = false) (· = {}) s) :
    s.received.Perm (s.allRuns.flatMap answeredChannels ++ s.runs.flatMap parkedChannels) ∧
      ∀ r ∈ s.runs, r.completionWaitingOnPageFetch.isSome → s.AsksFor r.runId := by
  have h : Answering [] [] none s := by
    refine h.invariant ?_ fun s i s' hs hi hstep => hstep.answering hs hi.1 hi.2.1 hi.2.2.1 hi.2.2.2
    rintro _ rfl
    refine ⟨.nil, .nil, fun r hr => ?_, fun r hr => ?_, fun r hr => ?_, .nil, fun f hf => ?_, fun p hp => ?_⟩
    · cases hr
    · cases hr
    · cases hr
    · cases hf
    · cases hp
  refine ⟨?_, fun r hr hw => h.parked r hr (by simp) hw⟩
  have hgone : s.removed.flatMap parkedChannels = [] :=
    List.flatMap_eq_nil_iff.mpr fun r hr => by simp [parkedChannels, h.gone r hr]
  refine h.ids.trans ((List.flatMap_append_perm s.allRuns answeredChannels parkedChannels).symm.trans
    (.append_left _ ?_))
  rw [allRuns, List.flatMap_append, hgone, List.append_nil]

/-! ## A completion that is stranded -/

/-- Machines that know of no timer. Start and signals are jobs. -/
abbrev timerlessOps : ManagerOps (Managers Unit Unit) :=
  Managers.ops
    { Behaviour.signals with
      handleEvent := fun s e _ _ _ =>
        { inner := s
          jobs := if e.eventType = .workflowExecutionStarted ∨ e.eventType = .workflowExecutionSignaled
            then [.other] else []
          error := if e.eventType = .timerStarted then some .nondeterminism else none } }
    .absent fun _ _ => ((), ())

/-- Five tasks, the third after an event of the type. -/
def longHistory (type : EventType) : List HistoryEvent :=
  [⟨1, .workflowExecutionStarted, some .other⟩, ⟨2, .workflowTaskScheduled, some .other⟩,
    ⟨3, .workflowTaskStarted, some (.workflowTaskStarted 2)⟩,
    ⟨4, .workflowTaskCompleted, some (.workflowTaskCompleted 2)⟩, ⟨5, .workflowExecutionSignaled, some .other⟩,
    ⟨6, .workflowTaskScheduled, some .other⟩, ⟨7, .workflowTaskStarted, some (.workflowTaskStarted 6)⟩,
    ⟨8, .workflowTaskCompleted, some (.workflowTaskCompleted 6)⟩, ⟨9, type, some .other⟩,
    ⟨10, .workflowTaskScheduled, some .other⟩, ⟨11, .workflowTaskStarted, some (.workflowTaskStarted 10)⟩,
    ⟨12, .workflowTaskCompleted, some (.workflowTaskCompleted 10)⟩, ⟨13, .workflowExecutionSignaled, some .other⟩,
    ⟨14, .workflowTaskScheduled, some .other⟩, ⟨15, .workflowTaskStarted, some (.workflowTaskStarted 14)⟩,
    ⟨16, .workflowTaskCompleted, some (.workflowTaskCompleted 14)⟩, ⟨17, .workflowTaskScheduled, some .other⟩,
    ⟨18, .workflowTaskStarted, some (.workflowTaskStarted 17)⟩]

/-- The first update for pages 1 to 3, 4 to 15 and 16 to 18. -/
def firstUpdate (history : List HistoryEvent) : Except Status HistoryUpdate × HistoryPaginator × Client :=
  HistoryPaginator.extractNextUpdate
    [.ok ⟨some ((history.drop 3).take 12), [2]⟩, .ok ⟨some (history.drop 15), []⟩]
    (.new (history.take 3) 3 18 0 (.next [1]))

example : (firstUpdate (longHistory .timerStarted)).1.toOption.map (·.events) =
    some ((longHistory .timerStarted).take 11) := by
  decide

def pagedTask (history : List HistoryEvent) : PermittedWFT where
  work :=
    { taskToken := 7, attempt := 1, runId := 0, legacyQuery := false, queryRequests := []
      update := (firstUpdate history).1.toOption.getD .dummy }
  paginator := (firstUpdate history).2.1

/-- Lang completes the activations of the first tasks. -/
def replayed (type : EventType) : List WFStreamInput :=
  [.newWft (pagedTask (longHistory type)) none, .completion 0 (.success []) (some ⟨0, true⟩),
    .postActivation 0 .notReported none false, .completion 0 (.success []) (some ⟨1, true⟩)]

/-- The third task has a timer, so the workflow is to fail. The completion for it waits for a page which nobody fetches.
-/
theorem completion_stranded :
    ∃ s, Reach (Step timerlessOps { maxCachedWorkflows := 1, shouldFailWorkflow := fun _ => true })
        (fun s i => s.inTurn i ∧ s.fetchFits i ∧ isCoherent i) (· = {}) s ∧
      s.received = [0, 1] ∧ s.allRuns.flatMap answeredChannels = [0] ∧ s.fetches.isEmpty :=
  Reach.exists_of_trace (f := step? timerlessOps { maxCachedWorkflows := 1, shouldFailWorkflow := fun _ => true } 2)
    (replayed .timerStarted) (by decide +kernel) (fun _ _ _ => step_of_step?) (.start rfl)

theorem completions_answered_waiting :
    ∃ s, Reach (Step timerlessOps { maxCachedWorkflows := 1 })
        (fun s i => s.inTurn i ∧ s.fetchFits i ∧ isCoherent i ∧ s.mayFailWorkflow { maxCachedWorkflows := 1 } i = false)
        (· = {}) s ∧
      (s.received = [0, 1] ∧ s.runs.map (·.completionWaitingOnPageFetch.isSome) = [true]) ∧
      s.received.Perm (s.allRuns.flatMap answeredChannels ++ s.runs.flatMap parkedChannels) ∧
      ∀ r ∈ s.runs, r.completionWaitingOnPageFetch.isSome → s.AsksFor r.runId := by
  obtain ⟨s, hreach, h⟩ : ∃ s, Reach (Step timerlessOps { maxCachedWorkflows := 1 })
      (fun s i => s.inTurn i ∧ s.fetchFits i ∧ isCoherent i ∧ s.mayFailWorkflow { maxCachedWorkflows := 1 } i = false)
      (· = {}) s ∧ s.received = [0, 1] ∧ s.runs.map (·.completionWaitingOnPageFetch.isSome) = [true] :=
    Reach.exists_of_trace (f := step? timerlessOps { maxCachedWorkflows := 1 } 2)
      (replayed .workflowExecutionSignaled) (by decide +kernel) (fun _ _ _ => step_of_step?) (.start rfl)
  exact ⟨s, hreach, h, completions_answered hreach⟩

end WFStream

end SdkCore
