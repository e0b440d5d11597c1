import Mathlib.Data.List.Flatten
import Mathlib.Data.List.Perm.Subperm
import SdkCore.LocalActivities.Ledger

/-!
# Which attempts are started

A request is known by the id of its local activity. If there is a new entry for the id it is taken for that one, whose
own request will start it again. This does not happen in `Clean` runs (`starts_from_own_request`).
-/

namespace SdkCore

open Maps

namespace LocalActivityManager

def starts (log : List LAEvent) : List Started :=
  log.filterMap fun | .started start => some start | _ => none

@[simp]
theorem starts_append (l l' : List LAEvent) : starts (l ++ l') = starts l ++ starts l' := List.filterMap_append

/-- All requests on their way. -/
def Ledger.requests (s : Ledger) : List Request := s.actReqs ++ s.tasks.flatMap (·.wake.requests)

/-- Requests come from the entry for their id, and their tokens are not used yet. -/
structure Fresh (s : Ledger) : Prop where
  own : ∀ q ∈ s.requests, ∀ lai, s.laInfo.lookup q.id = some lai → q.token = lai.taskToken
  nodup : (s.requests.map Request.token).Nodup
  bounded : ∀ q ∈ s.requests, q.token ≤ s.nextTtNum
  unused : ∀ q ∈ s.requests, q.token ∉ (starts s.log).map Started.taskToken
  startedBounded : ∀ tt ∈ (starts s.log).map Started.taskToken, tt ≤ s.nextTtNum
  held : ∀ tt info, s.outstanding.lookup tt = some info → tt ∈ (starts s.log).map Started.taskToken
  once : ((starts s.log).map Started.taskToken).Nodup
  stems : ∀ x ∈ starts s.log, x.request = x.taskToken

variable {l : List Request} {q : Request} {i : Nat} {timers : List SpawnedTask}
  {l' : List Request} {tt : TaskToken} {info : LocalInFlightActInfo}

theorem tokens_shrink (hr : List.Subperm l l') (h : (l'.map Request.token).Nodup) : (l.map Request.token).Nodup := by
  obtain ⟨l₁, hp, hs⟩ := hr
  exact (hp.map _).nodup_iff.mp (h.sublist (hs.map _))

theorem tokens_grow {n : Nat} (hr : l'.Perm (q :: l)) (h : (l.map Request.token).Nodup) (hle : ∀ q' ∈ l, q'.token ≤ n)
    (hq : q.token = n + 1) : (l'.map Request.token).Nodup ∧ ∀ q' ∈ l', q'.token ≤ n + 1 := by
  constructor
  · refine ((hr.map _).nodup_iff).mpr (List.nodup_cons.mpr ⟨?_, h⟩)
    intro hc
    obtain ⟨q', hq', he⟩ := List.mem_map.mp hc
    have hle := hle q' hq'
    rw [he, hq] at hle
    exact Nat.not_succ_le_self _ hle
  · intro q' hq'
    rcases List.mem_cons.mp (hr.subset hq') with rfl | hq'
    · exact Nat.le_of_eq hq
    · exact Nat.le_succ_of_le (hle q' hq')

variable {s t : Ledger}

/-- Less is left of the requests, entries and attempts, and nothing is started. -/
structure Fewer (s t : Ledger) : Prop where
  requests : List.Subperm t.requests s.requests := by exact List.Subperm.refl _
  entries : ∀ q ∈ t.requests, ∀ lai, t.laInfo.lookup q.id = some lai →
    ∃ lai', s.laInfo.lookup q.id = some lai' ∧ lai'.taskToken = lai.taskToken := by exact fun _ _ lai h => ⟨lai, h, rfl⟩
  attempts : ∀ tt info, t.outstanding.lookup tt = some info → ∃ info', s.outstanding.lookup tt = some info' := by
    exact fun _ info h => ⟨info, h⟩
  next : s.nextTtNum ≤ t.nextTtNum := by exact Nat.le_refl _
  log : starts t.log = starts s.log := by simp [starts]

theorem Fresh.shrink (h : Fresh s) (ht : Fewer s t) : Fresh t := by
  obtain ⟨hr, hl, ho, hn, hlog⟩ := ht
  have hmem : ∀ q ∈ t.requests, q ∈ s.requests := fun q hq => hr.subset hq
  constructor
  · intro q hq lai hlai
    obtain ⟨lai', hlai', he⟩ := hl q hq lai hlai
    rw [h.own q (hmem q hq) lai' hlai', he]
  · exact tokens_shrink hr h.nodup
  · exact fun q hq => Nat.le_trans (h.bounded q (hmem q hq)) hn
  · rw [hlog]
    exact fun q hq => h.unused q (hmem q hq)
  · rw [hlog]
    exact fun tt htt => Nat.le_trans (h.startedBounded tt htt) hn
  · intro tt info hi
    obtain ⟨info', hi'⟩ := ho tt info hi
    rw [hlog]
    exact h.held tt info' hi'
  · rw [hlog]
    exact h.once
  · rw [hlog]
    exact h.stems

/-- A request with a new token. -/
theorem Fresh.grow (h : Fresh s) (hr : t.requests.Perm (q :: l)) (hsub : l.Sublist s.requests)
    (hid : ∀ q' ∈ l, q'.id ≠ q.id) (hq : q.token = s.nextTtNum + 1) (hn : t.nextTtNum = s.nextTtNum + 1)
    (hown : ∀ lai, t.laInfo.lookup q.id = some lai → lai.taskToken = s.nextTtNum + 1)
    (hl : ∀ id lai, id ≠ q.id → t.laInfo.lookup id = some lai → s.laInfo.lookup id = some lai)
    (ho : ∀ tt info, t.outstanding.lookup tt = some info →
      s.outstanding.lookup tt = some info) (hlog : starts t.log = starts s.log) : Fresh t := by
  have hmem : ∀ q' ∈ t.requests, q' = q ∨ q' ∈ l := fun q' hq' => List.mem_cons.mp (hr.subset hq')
  have hle : ∀ q' ∈ l, q'.token ≤ s.nextTtNum := fun q' hq' => h.bounded q' (hsub.subset hq')
  obtain ⟨hnodup, hbounded⟩ := tokens_grow hr (h.nodup.sublist (hsub.map _)) hle hq
  constructor
  · intro q' hq' lai hlai
    rcases hmem q' hq' with rfl | hq'
    · rw [hq, hown lai hlai]
    · exact h.own q' (hsub.subset hq') lai (hl _ lai (hid q' hq') hlai)
  · exact hnodup
  · rw [hn]
    exact hbounded
  · intro q' hq' hc
    rw [hlog] at hc
    rcases hmem q' hq' with rfl | hq'
    · have hle := h.startedBounded _ hc
      rw [hq] at hle
      exact Nat.not_succ_le_self _ hle
    · exact h.unused q' (hsub.subset hq') hc
  · rw [hlog, hn]
    exact fun tt htt => Nat.le_succ_of_le (h.startedBounded tt htt)
  · rw [hlog]
    exact fun tt info hi => h.held tt info (ho tt info hi)
  · rw [hlog]
    exact h.once
  · rw [hlog]
    exact h.stems

theorem perm_cons_eraseIdx {α : Type} {l : List α} {x : α} (h : l[i]? = some x) : l.Perm (x :: l.eraseIdx i) := by
  obtain ⟨hi, rfl⟩ := List.getElem?_eq_some_iff.mp h
  exact (List.getElem_cons_eraseIdx_perm hi).symm

theorem requests_filter (p : SpawnedTask → Bool) (reqs : List Request) (tasks : List SpawnedTask) :
    List.Sublist (reqs ++ (tasks.filter p).flatMap (·.wake.requests)) (reqs ++ tasks.flatMap (·.wake.requests)) :=
  (List.filter_sublist.flatMap _).append_left _

theorem requests_timers {reqs : List Request} {tasks : List SpawnedTask}
    (h : ∀ task ∈ timers, task.wake.requests = []) :
    reqs ++ (tasks ++ timers).flatMap (·.wake.requests) = reqs ++ tasks.flatMap (·.wake.requests) := by
  rw [List.flatMap_append, List.flatMap_eq_nil_iff.mpr h, List.append_nil]

theorem Armed.requests {now handle : Nat} {bag bag' : Option TimeoutBag} (h : Armed now handle bag bag' timers) :
    ∀ task ∈ timers, task.wake.requests = [] := by
  cases h <;> simp [Wake.requests]

theorem Bagged.requests {act : NewLocalAct} {bag : TimeoutBag} (h : Bagged act bag timers) :
    ∀ task ∈ timers, task.wake.requests = [] := by
  intro task ht
  obtain ⟨run, res, hw, -⟩ := h.timers task ht
  simp [hw, Wake.requests]

theorem requests_fire {task : SpawnedTask} (h : s.tasks[i]? = some task) :
    ((s.actReqs ++ task.wake.requests) ++ (s.tasks.eraseIdx i).flatMap (·.wake.requests)).Perm s.requests := by
  rw [List.append_assoc]
  exact ((perm_cons_eraseIdx h).flatMap_right (·.wake.requests)).symm.append_left _

theorem requests_eraseIdx (h : s.actReqs[i]? = some q) :
    s.requests.Perm (q :: (s.actReqs.eraseIdx i ++ s.tasks.flatMap (·.wake.requests))) :=
  (perm_cons_eraseIdx h).append_right _

/-- A move loses requests, or adds one with a new token. -/
inductive Requests (s : Ledger) (label : Label) (t : Ledger) : Prop
  | fewer (h : List.Subperm t.requests s.requests) (hn : s.nextTtNum ≤ t.nextTtNum)
  | more (q : Request) (l : List Request) (h : t.requests.Perm (q :: l)) (hl : l.Sublist s.requests)
      (hq : q.token = s.nextTtNum + 1) (hn : t.nextTtNum = s.nextTtNum + 1)
      (hid : label = .create q.id ∨ ∃ tt info, s.outstanding.lookup tt = some info ∧ info.laInfo.id = q.id)

/-- What each move does to the requests. -/
theorem Move.requests {l : Label} (h : Move s l t) : Requests s l t := by
  cases h with
  | idle | elapse | cancelHeld | cancelAgain | indicate | dropMessage | deliver =>
    exact .fewer (List.Subperm.refl _) (Nat.le_refl _)
  | ignore | tooLate => exact .fewer (List.Subperm.refl _) (Nat.le_succ _)
  | accept act bag timers h hb =>
    refine .more ⟨.new act, s.nextTtNum + 1⟩ s.requests ?_ (List.Sublist.refl _) rfl rfl (.inl rfl)
    rw [Ledger.requests, requests_timers hb.requests, List.append_assoc]
    exact List.perm_middle
  | remove | invalidate | finish => exact .fewer (requests_filter _ _ _).subperm (Nat.le_refl _)
  | heartbeat deadline run =>
    refine .fewer ?_ (Nat.le_refl _)
    rw [Ledger.requests, requests_timers (by simp [Wake.requests])]
    exact List.Subperm.refl _
  | dropRequest | late => exact .fewer ((List.eraseIdx_sublist ..).append_right _).subperm (Nat.le_refl _)
  | start i q lai bag timers hq h harm =>
    refine .fewer ?_ (Nat.le_refl _)
    rw [Ledger.requests, requests_timers harm.requests]
    exact ((List.eraseIdx_sublist ..).append_right _).subperm
  | retry tt info lai backoff hi h hc =>
    refine .more ⟨.retry info.laInfo (info.attempt + 1), s.nextTtNum + 1⟩ (s.actReqs ++
      (s.tasks.filter (·.handle ∉ lai.backingOffTask.toList)).flatMap (·.wake.requests)) ?_
        (requests_filter _ _ _) rfl rfl
      (.inr ⟨tt, info, hi, rfl⟩)
    rw [Ledger.requests, List.flatMap_append, ← List.append_assoc]
    exact List.perm_append_comm
  | fire i task ht hd => exact .fewer (requests_fire ht).subperm (Nat.le_refl _)

/-- No request is on its way for an attempt that lang holds. -/
theorem Fresh.no_request (h : Fresh s) (hs : Tracked s) (hi : s.outstanding.lookup tt = some info) :
    ∀ q ∈ s.requests, q.id ≠ info.laInfo.id := by
  intro q hq hid
  obtain ⟨lai, hl, rfl⟩ := hs.entry tt info hi
  rw [← hid] at hl
  exact h.unused q hq (h.own q hq lai hl ▸ h.held _ info hi)

theorem Fresh.no_request_of_entry (h : Fresh s) (hs : Tracked s) {id : ExecutingLAId} {lai : LocalActivityInfo}
    (hl : s.laInfo.lookup id = some lai) (hi : s.outstanding.lookup lai.taskToken = some info) :
    ∀ q ∈ s.requests, q.id ≠ id := by
  obtain ⟨lai', hl', he⟩ := hs.entry _ info hi
  obtain rfl := hs.unique _ _ lai' lai hl' hl he
  exact h.no_request hs hi

/-- No request for the id is on its way when its entry is made. -/
def Unrequested (s : Ledger) : Label → Prop
  | .create id => ∀ q ∈ s.requests, q.id ≠ id
  | _ => True

/-- An entry that is changed, but for its token. -/
theorem lookup_revised {id id' : ExecutingLAId} {lai lai' lai₁ : LocalActivityInfo} (h : s.laInfo.lookup id = some lai)
    (htt : lai'.taskToken = lai.taskToken) (h' : (s.laInfo.insert id lai').lookup id' = some lai₁) :
    ∃ lai₂, s.laInfo.lookup id' = some lai₂ ∧ lai₂.taskToken = lai₁.taskToken := by
  rw [lookup_insert_ite] at h'
  split at h'
  · next he =>
    cases h'
    exact ⟨lai, he ▸ h, htt.symm⟩
  · exact ⟨lai₁, h', rfl⟩

/-- A start takes a request, and uses its token for the first time. -/
theorem Fresh.start {lai : LocalActivityInfo} {e : Started} (hf : Fresh s)
    (hr : s.requests.Perm (q :: t.requests)) (h : s.laInfo.lookup q.id = some lai)
    (hl : ∀ id lai, t.laInfo.lookup id = some lai →
      ∃ lai', s.laInfo.lookup id = some lai' ∧ lai'.taskToken = lai.taskToken)
    (ho : ∀ tt info, t.outstanding.lookup tt = some info →
      tt = lai.taskToken ∨ ∃ info', s.outstanding.lookup tt = some info')
    (hn : t.nextTtNum = s.nextTtNum) (htt : e.taskToken = lai.taskToken) (hreq : e.request = q.token)
    (hlog : starts t.log = starts s.log ++ [e]) : Fresh t := by
  have hmem : ∀ {q'}, q' ∈ t.requests → q' ∈ s.requests := fun h => hr.mem_iff.mpr (List.mem_cons_of_mem _ h)
  have hq : q ∈ s.requests := hr.mem_iff.mpr List.mem_cons_self
  have htok : q.token = e.taskToken := (hf.own q hq lai h).trans htt.symm
  have hnew := hf.unused q hq
  have hnodup := (hr.map Request.token).nodup_iff.mp hf.nodup
  rw [List.map_cons, List.nodup_cons] at hnodup
  rw [htok] at hnew hnodup
  have htoks : (starts t.log).map Started.taskToken = (starts s.log).map Started.taskToken ++ [e.taskToken] := by
    rw [hlog, List.map_append, List.map_singleton]
  constructor
  · intro q' hq' lai' hlai'
    obtain ⟨lai'', hl', he⟩ := hl q'.id lai' hlai'
    rw [hf.own q' (hmem hq') lai'' hl', he]
  · exact hnodup.2
  · exact fun q' hq' => hn ▸ hf.bounded q' (hmem hq')
  · intro q' hq' hc
    rw [htoks] at hc
    rcases List.mem_append.mp hc with hc | hc
    · exact hf.unused q' (hmem hq') hc
    · exact hnodup.1 (List.mem_map.mpr ⟨q', hq', List.mem_singleton.mp hc⟩)
  · intro tt htt
    rw [hn]
    rcases List.mem_append.mp (htoks ▸ htt) with htt | htt
    · exact hf.startedBounded tt htt
    · rw [List.mem_singleton.mp htt, ← htok]
      exact hf.bounded q hq
  · intro tt info hi
    rw [htoks]
    rcases ho tt info hi with rfl | ⟨info', hi'⟩
    · simp [htt]
    · exact List.mem_append_left _ (hf.held tt info' hi')
  · rw [htoks]
    exact List.nodup_append.mpr ⟨hf.once, by simp, fun tt htt _ hc he => hnew (List.mem_singleton.mp hc ▸ he ▸ htt)⟩
  · intro x hx
    rcases List.mem_append.mp (hlog ▸ hx) with hx | hx
    · exact hf.stems x hx
    · rw [List.mem_singleton.mp hx, hreq, htok]

/-- **Every move keeps requests apart.** -/
theorem Move.fresh {l : Label} (h : Move s l t) (hs : Tracked s) (hf : Fresh s) (hl : Unrequested s l) : Fresh t := by
  cases h with
  | idle | elapse | cancelAgain | dropMessage => exact hf.shrink {}
  | ignore => exact hf.shrink { next := Nat.le_succ _ }
  | heartbeat deadline run =>
    refine hf.shrink { requests := ?_ }
    rw [Ledger.requests, requests_timers (by simp [Wake.requests])]
    exact List.Subperm.refl _
  | dropRequest i => exact hf.shrink { requests := ((List.eraseIdx_sublist ..).append_right _).subperm }
  | fire i task ht hd => exact hf.shrink { requests := (requests_fire ht).subperm }
  | accept act bag timers h hb =>
    refine hf.grow (q := ⟨.new act, s.nextTtNum + 1⟩) ?_ (List.Sublist.refl _) hl rfl rfl ?_ ?_
      (fun _ _ h => h) rfl
    · rw [Ledger.requests, requests_timers hb.requests, List.append_assoc]
      exact List.perm_middle
    · simp [Request.id, NewOrRetry.la, newInfo]
    · intro id lai hne hlai
      have hne : id ≠ act.id := hne
      simpa [lookup_insert_ite, hne] using hlai
  | tooLate act h =>
    refine hf.shrink { next := Nat.le_succ _, entries := fun q hq lai hlai => ?_ }
    exact ⟨lai, by rwa [AList.lookup_insert_ne (hl q hq)] at hlai, rfl⟩
  | cancelHeld id lai info h hb hi | deliver tt info hi =>
    refine hf.shrink { attempts := fun tt' info' h' => ?_ }
    rw [lookup_insert_ite] at h'
    split at h'
    · next he => exact ⟨info, he ▸ hi⟩
    · exact ⟨info', h'⟩
  | remove id lai resolved h ho hr =>
    exact hf.shrink {
      requests := (requests_filter _ _ _).subperm
      entries := fun _ _ lai h => ⟨lai, (lookup_of_erase h).2, rfl⟩
      log := by cases resolved <;> simp [starts] }
  | finish tt info lai hi h =>
    exact hf.shrink {
      requests := (requests_filter _ _ _).subperm
      entries := fun _ _ lai h => ⟨lai, (lookup_of_erase h).2, rfl⟩
      attempts := fun _ info h => ⟨info, (lookup_of_erase h).2⟩ }
  | invalidate run =>
    refine hf.shrink {
      requests := (requests_filter _ _ _).subperm
      entries := fun _ _ lai h => ⟨lai, ?_, rfl⟩
      attempts := fun _ info h => ⟨info, ?_⟩ }
    all_goals
      rw [lookup_retain, Option.filter_eq_some_iff] at h
      exact h.1
  | indicate run =>
    refine hf.shrink { entries := fun q _ lai h => ?_ }
    rw [lookup_mapValues] at h
    obtain ⟨lai', hl', rfl⟩ := Option.map_eq_some_iff.mp h
    exact ⟨lai', hl', by split <;> rfl⟩
  | late i q lai hq h =>
    exact hf.shrink {
      requests := ((List.eraseIdx_sublist ..).append_right _).subperm
      entries := fun _ _ _ => lookup_revised h rfl }
  | start i q lai bag timers hq h harm =>
    refine hf.start (e := ⟨lai.taskToken, q.token, q.id, lai.origin⟩) ?_ h (fun _ _ => lookup_revised h rfl)
      (fun tt info hi => ?_) rfl rfl rfl (by simp [starts])
    · rw [Ledger.requests, Ledger.requests, requests_timers harm.requests]
      exact requests_eraseIdx hq
    · rw [lookup_insert_ite] at hi
      split at hi
      · next he => exact .inl he
      · exact .inr ⟨info, hi⟩
  | retry tt info lai backoff hi h hc =>
    have hno := hf.no_request hs hi
    refine hf.grow (q := ⟨.retry info.laInfo (info.attempt + 1), s.nextTtNum + 1⟩) (l := s.actReqs ++
      (s.tasks.filter (·.handle ∉ lai.backingOffTask.toList)).flatMap (·.wake.requests)) ?_ (requests_filter _ _ _)
      (fun q hq => hno q ((requests_filter _ _ _).subset hq)) rfl rfl ?_ ?_ (fun _ _ h => (lookup_of_erase h).2) rfl
    · rw [Ledger.requests, List.flatMap_append, ← List.append_assoc]
      exact List.perm_append_comm
    · simp [Request.id, NewOrRetry.la, retryInfo]
    · intro id lai' hne hlai
      have hne : id ≠ info.laInfo.id := hne
      rw [AList.lookup_insert_ne hne] at hlai
      exact (lookup_of_erase hlai).2

/-! ## Every run -/

/-- A request for the id is on its way. -/
def isRequested (s : LocalActivityManager) (id : ExecutingLAId) : Bool :=
  (s.actReqs ++ s.tasks.flatMap (·.wake.requests)).any (·.id = id)

/-- A new local activity comes when no request for its id is on its way. -/
def isFresh (s : LocalActivityManager) : Input → Bool
  | .enqueue (.new act) => !s.isRequested act.id
  | _ => true

/-- Local activities are not enqueued before the earlier requests for their ids are gone. -/
abbrev Clean : LocalActivityManager → Prop := Reach Step (fun s i => s.isFresh i = true) (· = {})

theorem unrequested_of_isFresh {s : LocalActivityManager} {i : Input} {l : Label} (hi : s.isFresh i = true)
    (hl : l.from s i) : Unrequested s.ledger l := by
  cases l with
  | create id =>
    obtain ⟨act, rfl, rfl⟩ := hl
    intro q hq
    have hi : (s.actReqs ++ s.tasks.flatMap (·.wake.requests)).any (·.id = act.id) = false := by
      simpa [isFresh, isRequested] using hi
    simpa using List.any_eq_false.mp hi q hq
  | start | other => trivial

/-- The rule for invariants of clean runs. -/
theorem Clean.invariant {I : Ledger → Prop} (hinit : I (ledger {}))
    (hmove : ∀ s l t, Tracked s → I s → Unrequested s l → Move s l t → I t) {s : LocalActivityManager} (h : Clean s) :
    Tracked s.ledger ∧ I s.ledger :=
  Reach.ledger_invariant ⟨tracked_init, hinit⟩ (fun _ => trivial) (fun _ _ _ => unrequested_of_isFresh) hmove h

theorem fresh_init : Fresh (ledger {}) := by
  constructor <;> simp [ledger, Ledger.requests, starts]

theorem Step.fresh {s s' : LocalActivityManager} {i : Input} (h : Step s i s') (hs : Tracked s.ledger)
    (hf : Fresh s.ledger) (hi : s.isFresh i = true) : Fresh s'.ledger := by
  have hr : Reach Step (fun s i => s.isFresh i = true) (· = s) s' := .step (.start rfl) hi h
  exact (Reach.ledger_invariant ⟨hs, hf⟩ (fun _ => trivial) (fun _ _ _ => unrequested_of_isFresh)
    (fun _ _ _ hs hf hl hm => hm.fresh hs hf hl) hr).2

theorem Clean.fresh {s : LocalActivityManager} (h : Clean s) : Tracked s.ledger ∧ Fresh s.ledger :=
  Clean.invariant fresh_init (fun _ _ _ hs hf hl hm => hm.fresh hs hf hl) h

/-- What is started comes from a request. -/
theorem nextPending_start {s : LocalActivityManager} {j : Nat} {la : NewLocalAct} {attempt time : Nat}
    (h : (s.nextPending (.request j)).1 = some (.dispatch (.start tt la attempt time))) :
    ∃ q lai, s.actReqs[j]? = some q ∧ q.what.la = la ∧ s.laInfo.lookup la.id = some lai ∧ lai.taskToken = tt := by
  unfold nextPending at h
  split at h
  · cases h
  · cases hq : s.actReqs[j]? with
    | none => simp [hq] at h
    | some q =>
      simp only [hq] at h
      cases hl : s.laInfo.lookup q.what.la.id with
      | none => simp [takeRequest, hl] at h
      | some lai =>
        simp only [takeRequest, hl] at h
        split at h
        · cases h
        · cases h
          exact ⟨q, lai, rfl, rfl, hl, rfl⟩

/-- **Attempts are started for the request made with their entry**, with new tokens, and lang holds no other attempt. -/
theorem starts_from_own_request {s : LocalActivityManager} (h : Clean s) :
    ((starts s.log).map Started.taskToken).Nodup ∧ (∀ x ∈ starts s.log, x.request = x.taskToken) ∧
      ∀ j tt la attempt time, (s.nextPending (.request j)).1 = some (.dispatch (.start tt la attempt time)) →
        ∃ q lai, s.actReqs[j]? = some q ∧ q.what.la = la ∧ s.laInfo.lookup la.id = some lai ∧ lai.taskToken = tt ∧
          q.token = tt ∧ ∀ tt' info, s.outstandingActivityTasks.lookup tt' = some info → info.laInfo.id ≠ la.id := by
  obtain ⟨hs, hf⟩ := h.fresh
  refine ⟨hf.once, hf.stems, fun j tt la attempt time hstart => ?_⟩
  obtain ⟨q, lai, hq, rfl, hl, rfl⟩ := nextPending_start hstart
  have hmem : q ∈ s.ledger.requests := List.mem_append_left _ (List.mem_of_getElem? hq)
  refine ⟨q, lai, hq, rfl, hl, rfl, hf.own q hmem lai hl, fun tt' info hi hid => ?_⟩
  exact hf.no_request hs hi q hmem hid.symm

def sampleAct (runId : RunId) (seq : Nat) (closeTimeouts : LACloseTimeouts) : NewLocalAct where
  runId := runId
  scheduleTime := 0
  scheduleCmd :=
    { seq, attempt := 1, originalScheduleTime := none, scheduleToStartTimeout := none, closeTimeouts
      localRetryThreshold := 60
      retryPolicy :=
        { initialInterval := 1, scaledInterval := fun _ => none, maximumInterval := 1, maximumAttempts := 0
          nonRetryableErrorTypes := [] } }

def run (ok : LocalActivityManager → Input → Bool) (inputs : List Input) : Option LocalActivityManager :=
  trace (fun s i => some (s.process i)) ok inputs {}

theorem exists_of_run {P : LocalActivityManager → Prop} [DecidablePred P] {ok : LocalActivityManager → Input → Prop}
    [∀ s i, Decidable (ok s i)] (inputs : List Input)
    (h : (run (fun s i => decide (ok s i)) inputs).any (fun s => decide (P s)) = true) :
    ∃ s, Reach Step ok (· = {}) s ∧ P s :=
  Reach.exists_of_trace inputs h (fun _ _ _ h => Option.some.inj h) (.start rfl)

/-- A new local activity comes when there is no entry for its id. -/
def isNew (s : LocalActivityManager) : Input → Bool
  | .enqueue (.new act) => (s.laInfo.lookup act.id).isNone
  | _ => true

/-- The run is evicted while a request is queued, and asks again. The old request starts an attempt with the new token,
and the new request starts it again. -/
theorem start_from_old_request :
    ∃ s, Reach Step (fun s i => s.isNew i = true) (· = {}) s ∧
      (starts s.log).map (fun x => (x.taskToken, x.request)) = [(2, 1), (2, 2)] :=
  exists_of_run
    [.enqueue (.new (sampleAct 1 1 (.scheduleOnly 100))), .enqueue (.invalidateRun 1),
      .enqueue (.new (sampleAct 1 1 (.scheduleOnly 100))), .nextPending (.request 0), .nextPending (.request 0)]
    (by decide +kernel)

/-- A local activity with two attempts. -/
theorem starts_from_own_request_retried :
    ∃ s, Clean s ∧ (starts s.log).map Started.taskToken = [1, 2] ∧ ((starts s.log).map Started.taskToken).Nodup := by
  obtain ⟨s, hs, ho⟩ : ∃ s, Clean s ∧ (starts s.log).map Started.taskToken = [1, 2] :=
    exists_of_run
      [.enqueue (.new (sampleAct 1 1 (.scheduleOnly 100))), .nextPending (.request 0), .complete 1 (.failed none),
        .elapse 1, .fire 1, .nextPending (.request 0)] (by decide +kernel)
  exact ⟨s, hs, ho, (starts_from_own_request hs).1⟩

end LocalActivityManager

end SdkCore
