import Mathlib.Data.List.Induction
import SdkCore.LocalActivities.Starts

/-!
# How local activities end

In `Clean` runs a local activity gets one resolution at most, and is not started once it is cancelled
(`resolved_once_and_stopped`). In others a request of an earlier one with the same id ends or revives it.
-/

namespace SdkCore

open Maps

namespace LocalActivityManager

/-- The local activities that were resolved, by the token made for them. -/
def resolutions (log : List LAEvent) : List TaskToken :=
  log.filterMap fun | .resolved origin => some origin | _ => none

def cancels (log : List LAEvent) : List TaskToken :=
  log.filterMap fun | .cancelled origin => some origin | _ => none

@[simp]
theorem resolutions_append (l l' : List LAEvent) : resolutions (l ++ l') = resolutions l ++ resolutions l' :=
  List.filterMap_append

@[simp]
theorem cancels_append (l l' : List LAEvent) : cancels (l ++ l') = cancels l ++ cancels l' := List.filterMap_append

variable (o : TaskToken)

@[simp]
theorem resolutions_resolved : resolutions [.resolved o] = [o] := rfl

@[simp]
theorem resolutions_cancelled : resolutions [.cancelled o] = [] := rfl

@[simp]
theorem resolutions_started (x : Started) : resolutions [.started x] = [] := rfl

@[simp]
theorem cancels_resolved : cancels [.resolved o] = [] := rfl

@[simp]
theorem cancels_cancelled : cancels [.cancelled o] = [o] := rfl

@[simp]
theorem cancels_started (x : Started) : cancels [.started x] = [] := rfl

@[simp]
theorem resolutions_removed (resolved : Bool) :
    resolutions (.cancelled o :: if resolved then [.resolved o] else []) = if resolved then [o] else [] := by
  cases resolved <;> rfl

@[simp]
theorem cancels_removed (resolved : Bool) : cancels (.cancelled o :: if resolved then [.resolved o] else []) = [o] := by
  cases resolved <;> rfl

variable {log : List LAEvent} {l : Label} {q : Request} {lai : LocalActivityInfo} {ids : List ExecutingLAId}

@[simp]
theorem mem_resolutions {o : TaskToken} : o ∈ resolutions log ↔ .resolved o ∈ log := by
  simp only [resolutions, List.mem_filterMap]
  constructor
  · rintro ⟨e, he, ho⟩
    cases e <;> cases ho
    exact he
  · exact fun h => ⟨_, h, rfl⟩

@[simp]
theorem mem_cancels {o : TaskToken} : o ∈ cancels log ↔ .cancelled o ∈ log := by
  simp only [cancels, List.mem_filterMap]
  constructor
  · rintro ⟨e, he, ho⟩
    cases e <;> cases ho
    exact he
  · exact fun h => ⟨_, h, rfl⟩

/-- An attempt is not started after its local activity was cancelled or resolved. -/
def NotRevived (earlier later : LAEvent) : Prop :=
  ∀ start, later = .started start → earlier ≠ .cancelled start.origin ∧ earlier ≠ .resolved start.origin

variable {s t : Ledger}

/-- Entries are for different local activities, and the log tells of accepted ones. -/
structure Rooted (s : Ledger) : Prop where
  bounded : ∀ id lai, s.laInfo.lookup id = some lai → lai.origin ≤ s.nextTtNum
  unique : ∀ id id' lai lai', s.laInfo.lookup id = some lai → s.laInfo.lookup id' = some lai' →
    lai.origin = lai'.origin → id = id'
  resolved : ∀ o ∈ resolutions s.log, o ≤ s.nextTtNum
  cancelled : ∀ o ∈ cancels s.log, o ≤ s.nextTtNum

theorem Move.rooted (h : Move s l t) (hs : Rooted s) : Rooted t := by
  obtain ⟨hb, hu, hr, hc⟩ := hs
  cases h with
  | idle | elapse | heartbeat | dropMessage | deliver | dropRequest | fire => exact ⟨hb, hu, hr, hc⟩
  | ignore =>
    exact ⟨fun id lai h => Nat.le_succ_of_le (hb id lai h), hu, fun o h => Nat.le_succ_of_le (hr o h),
      fun o h => Nat.le_succ_of_le (hc o h)⟩
  | accept act bag timers h hbag =>
    constructor <;> simp only [lookup_insert_ite, newInfo] <;> grind
  | tooLate act h =>
    constructor <;> simp only [lookup_insert_ite, newInfo, resolutions_append, cancels_append, resolutions_resolved,
      cancels_resolved] <;> grind
  | cancelHeld id lai info h | cancelAgain id lai info h =>
    refine ⟨hb, hu, ?_, ?_⟩ <;> simp only [resolutions_append, cancels_append, resolutions_cancelled,
      cancels_cancelled] <;> grind
  | remove id lai resolved h =>
    constructor <;> simp only [lookup_erase_ite, resolutions_append, cancels_append, resolutions_removed,
      cancels_removed] <;> grind
  | invalidate run =>
    constructor <;> simp only [lookup_retain, Option.filter_eq_some_iff] <;> grind
  | indicate run =>
    constructor <;> simp only [lookup_mapValues, Option.map_eq_some_iff] <;> grind
  | late i q lai hq h =>
    constructor <;> simp only [lookup_insert_ite, resolutions_append, cancels_append, resolutions_resolved,
      cancels_resolved] <;> grind
  | start i q lai bag timers hq h =>
    constructor <;> simp only [lookup_insert_ite, resolutions_append, cancels_append, resolutions_started,
      cancels_started] <;> grind
  | finish tt info lai hi h =>
    constructor <;> simp only [lookup_erase_ite, resolutions_append, cancels_append, resolutions_resolved,
      cancels_resolved] <;> grind
  | retry tt info lai backoff hi h =>
    constructor <;> simp only [lookup_insert_ite, lookup_erase_ite, retryInfo] <;> grind

/-! ## Resolved and cancelled ones -/

/-- Nothing is left to do for an entry. -/
def Still (s : Ledger) (id : ExecutingLAId) (lai : LocalActivityInfo) : Prop :=
  lai.queuedForDispatch = false ∧ lai.backingOffTask = none ∧
    s.outstanding.lookup lai.taskToken = none ∧ ∀ q ∈ s.requests, q.id ≠ id

/-- No attempt of an entry will be started, and lang is told about the one it holds. -/
def Stopped (s : Ledger) (id : ExecutingLAId) (lai : LocalActivityInfo) : Prop :=
  (∀ info, s.outstanding.lookup lai.taskToken = some info → info.cancel ≠ .notRequested) ∧
    ∀ q ∈ s.requests, q.id ≠ id

/-- What the log says about the entries. -/
structure Settled (s : Ledger) : Prop where
  once : (resolutions s.log).Nodup
  resolved : ∀ id lai, s.laInfo.lookup id = some lai → lai.origin ∈ resolutions s.log → Still s id lai
  cancelled : ∀ id lai, s.laInfo.lookup id = some lai → lai.origin ∈ cancels s.log → Stopped s id lai
  notRevived : s.log.Pairwise NotRevived

theorem pairwise_notRevived_append {events : List LAEvent} (h : log.Pairwise NotRevived)
    (he : ∀ e ∈ events, ∀ start, e ≠ .started start) : (log ++ events).Pairwise NotRevived := by
  have hlater : ∀ earlier, ∀ e ∈ events, NotRevived earlier e := fun _ e hmem start hs => absurd hs (he e hmem start)
  refine List.pairwise_append.mpr ⟨h, ?_, fun earlier _ e hmem => hlater earlier e hmem⟩
  exact List.Pairwise.imp_of_mem (fun _ hmem _ => hlater _ _ hmem) (List.pairwise_of_forall (fun _ _ => trivial))

/-- A move about one local activity: its entry, requests, attempt and log. -/
structure About (s t : Ledger) (id : ExecutingLAId) (origin tt : TaskToken) : Prop where
  entries : ∀ id', id' ≠ id → t.laInfo.lookup id' = s.laInfo.lookup id'
  others : ∀ id' lai, id' ≠ id → s.laInfo.lookup id' = some lai → lai.origin ≠ origin ∧ lai.taskToken ≠ tt
  requests : ∀ q ∈ t.requests, q ∈ s.requests ∨ q.id = id
  attempts : ∀ tt', tt' ≠ tt → t.outstanding.lookup tt' = s.outstanding.lookup tt'
  log : ∀ o, o ≠ origin → (.resolved o ∈ t.log → .resolved o ∈ s.log) ∧ (.cancelled o ∈ t.log → .cancelled o ∈ s.log)

/-- After a move about one local activity only its own entry matters. -/
theorem Settled.about {k : ExecutingLAId} {origin tt : TaskToken} (h : Settled s) (ha : About s t k origin tt)
    (honce : (resolutions t.log).Nodup) (hpair : t.log.Pairwise NotRevived)
    (hres : ∀ lai, t.laInfo.lookup k = some lai → .resolved lai.origin ∈ t.log → Still t k lai)
    (hcan : ∀ lai, t.laInfo.lookup k = some lai → .cancelled lai.origin ∈ t.log → Stopped t k lai) : Settled t := by
  have hasked : ∀ id', id' ≠ k → (∀ q ∈ s.requests, q.id ≠ id') → ∀ q ∈ t.requests, q.id ≠ id' :=
    fun id' hne hno q hq => (ha.requests q hq).elim (hno q) fun hqid hq => hne (hq.symm.trans hqid)
  refine ⟨honce, fun id' lai hl hmem => ?_, fun id' lai hl hmem => ?_, hpair⟩
  · rw [mem_resolutions] at hmem
    by_cases he : id' = k
    · exact he ▸ hres lai (he ▸ hl) hmem
    rw [ha.entries id' he] at hl
    obtain ⟨ho, ht⟩ := ha.others id' lai he hl
    obtain ⟨hq, hb, hheld, hno⟩ := h.resolved id' lai hl (mem_resolutions.mpr ((ha.log _ ho).1 hmem))
    exact ⟨hq, hb, (ha.attempts _ ht).trans hheld, hasked id' he hno⟩
  · rw [mem_cancels] at hmem
    by_cases he : id' = k
    · exact he ▸ hcan lai (he ▸ hl) hmem
    rw [ha.entries id' he] at hl
    obtain ⟨ho, ht⟩ := ha.others id' lai he hl
    obtain ⟨hheld, hno⟩ := h.cancelled id' lai hl (mem_cancels.mpr ((ha.log _ ho).2 hmem))
    exact ⟨fun info hi => hheld info ((ha.attempts _ ht).symm.trans hi), hasked id' he hno⟩

/-- Less is left of the entries, and the log is as before. -/
structure Shrinks (s t : Ledger) : Prop where
  requests : ∀ q ∈ t.requests, q ∈ s.requests := by exact fun _ h => h
  entries : ∀ id lai, t.laInfo.lookup id = some lai → ∃ lai', s.laInfo.lookup id = some lai' ∧
    lai'.origin = lai.origin ∧ lai'.taskToken = lai.taskToken ∧ lai'.queuedForDispatch = lai.queuedForDispatch ∧
    lai'.backingOffTask = lai.backingOffTask := by exact fun _ lai h => ⟨lai, h, rfl, rfl, rfl, rfl⟩
  attempts : ∀ tt info, t.outstanding.lookup tt = some info → ∃ info', s.outstanding.lookup tt = some info' ∧
    (info'.cancel ≠ .notRequested → info.cancel ≠ .notRequested) := by exact fun _ info h => ⟨info, h, fun h => h⟩
  log : t.log = s.log := by rfl

theorem Settled.shrink (h : Settled s) (ht : Shrinks s t) : Settled t := by
  obtain ⟨honce, hres, hcan, hnr⟩ := h
  obtain ⟨hr, hl, ho, hlog⟩ := ht
  rw [← hlog] at honce hres hcan hnr
  refine ⟨honce, ?_, ?_, hnr⟩
  · intro id lai hlai hmem
    obtain ⟨lai', hlai', he, htt, hq, hback⟩ := hl id lai hlai
    obtain ⟨h₁, h₂, h₃, h₄⟩ := hres id lai' hlai' (he ▸ hmem)
    refine ⟨hq ▸ h₁, hback ▸ h₂, ?_, fun q hq => h₄ q (hr q hq)⟩
    by_contra hc
    obtain ⟨info, hi⟩ := Option.ne_none_iff_exists'.mp hc
    obtain ⟨info', hi', -⟩ := ho _ info hi
    rw [← htt, h₃] at hi'
    cases hi'
  · intro id lai hlai hmem
    obtain ⟨lai', hlai', he, htt, -⟩ := hl id lai hlai
    obtain ⟨h₁, h₂⟩ := hcan id lai' hlai' (he ▸ hmem)
    refine ⟨fun info hi => ?_, fun q hq => h₂ q (hr q hq)⟩
    obtain ⟨info', hi', hc⟩ := ho _ info hi
    exact hc (h₁ info' (htt ▸ hi'))

theorem Fresh.only_request (h : Fresh s) {i : Nat} (hq : s.actReqs[i]? = some q)
    (hl : s.laInfo.lookup q.id = some lai) :
    ∀ q' ∈ s.actReqs.eraseIdx i ++ s.tasks.flatMap (·.wake.requests), q'.id ≠ q.id := by
  intro q' hq' hid
  have hperm := requests_eraseIdx hq
  have hnodup := (hperm.map Request.token).nodup_iff.mp h.nodup
  rw [List.map_cons, List.nodup_cons] at hnodup
  have htok : q.token = lai.taskToken := h.own q (hperm.mem_iff.mpr List.mem_cons_self) lai hl
  have htok' : q'.token = lai.taskToken := h.own q' (hperm.mem_iff.mpr (List.mem_cons_of_mem _ hq')) lai (hid ▸ hl)
  exact hnodup.1 (List.mem_map.mpr ⟨q', hq', htok'.trans htok.symm⟩)

theorem Settled.once_append {o : TaskToken} (h : Settled s) (ho : .resolved o ∉ s.log) :
    (resolutions (s.log ++ [.resolved o])).Nodup := by
  rw [resolutions_append, List.nodup_append]
  exact ⟨h.once, List.nodup_singleton _, fun o' ho' _ hmem he =>
    ho (mem_resolutions.mp (List.mem_singleton.mp hmem ▸ he ▸ ho'))⟩

/-! ## What moves about one local activity do -/

section

variable {id : ExecutingLAId} {tt : TaskToken} {info : LocalInFlightActInfo} (hs : Tracked s) (hroot : Rooted s)
  (hset : Settled s)
include hs hroot

theorem others_of_entry (h : s.laInfo.lookup id = some lai) : ∀ id' lai', id' ≠ id →
    s.laInfo.lookup id' = some lai' → lai'.origin ≠ lai.origin ∧ lai'.taskToken ≠ lai.taskToken := fun _ lai' hne h' =>
  ⟨fun he => hne (hroot.unique _ _ lai' lai h' h he), fun he => hne (hs.unique _ _ lai' lai h' h he)⟩

theorem others_of_new : ∀ id' lai, id' ≠ id → s.laInfo.lookup id' = some lai →
    lai.origin ≠ s.nextTtNum + 1 ∧ lai.taskToken ≠ s.nextTtNum + 1 := fun id' lai _ h =>
  ⟨Nat.ne_of_lt (Nat.lt_succ_of_le (hroot.bounded id' lai h)), Nat.ne_of_lt (Nat.lt_succ_of_le (hs.bounded id' lai h))⟩

omit hs in
theorem Rooted.unknown : .resolved (s.nextTtNum + 1) ∉ s.log ∧ .cancelled (s.nextTtNum + 1) ∉ s.log :=
  ⟨fun h => Nat.not_succ_le_self _ (hroot.resolved _ (mem_resolutions.mpr h)),
    fun h => Nat.not_succ_le_self _ (hroot.cancelled _ (mem_cancels.mpr h))⟩

include hset

theorem Settled.accept {act : NewLocalAct} {bag : TimeoutBag} {timers : List SpawnedTask}
    (hb : Bagged act bag timers) : Settled { s with
      laInfo := s.laInfo.insert act.id (newInfo (s.nextTtNum + 1) (some bag))
      actReqs := s.actReqs ++ [⟨.new act, s.nextTtNum + 1⟩], tasks := s.tasks ++ timers } := by
  have hreq : ∀ q ∈ s.actReqs ++ [⟨.new act, s.nextTtNum + 1⟩] ++ (s.tasks ++ timers).flatMap (·.wake.requests),
      q ∈ s.requests ∨ q.id = act.id := by
    rw [requests_timers hb.requests]
    simp only [Ledger.requests, List.mem_append, List.mem_singleton]
    rintro q ((hq | rfl) | hq)
    · exact .inl (.inl hq)
    · exact .inr rfl
    · exact .inl (.inr hq)
  refine hset.about ⟨fun _ hne => AList.lookup_insert_ne hne, others_of_new hs hroot, hreq,
    fun _ _ => rfl, fun _ _ => ⟨id, id⟩⟩ hset.once hset.notRevived ?_ ?_
  all_goals
    intro lai hl hmem
    cases (AList.lookup_insert _).symm.trans hl
  · exact absurd hmem hroot.unknown.1
  · exact absurd hmem hroot.unknown.2

/-- A new entry that is resolved at once. -/
theorem Settled.tooLate (hno : ∀ q ∈ s.requests, q.id ≠ id) : Settled { s with
      laInfo := s.laInfo.insert id (newInfo (s.nextTtNum + 1) none)
      log := s.log ++ [.resolved (s.nextTtNum + 1)] } := by
  refine hset.about ⟨fun _ hne => AList.lookup_insert_ne hne, others_of_new hs hroot, fun _ => .inl,
    fun _ _ => rfl, fun o hne => by simp [hne]⟩ (hset.once_append hroot.unknown.1)
    (pairwise_notRevived_append hset.notRevived (by simp)) ?_ ?_
  all_goals
    intro lai hl hmem
    cases (AList.lookup_insert _).symm.trans hl
  · exact ⟨rfl, rfl, hs.fresh (Nat.lt_succ_self _), hno⟩
  · exact absurd (by simpa [newInfo] using hmem) hroot.unknown.2

/-- Lang is told about the attempt that it holds. -/
theorem Settled.cancel (hf : Fresh s) (h : s.laInfo.lookup id = some lai)
    (hi : s.outstanding.lookup lai.taskToken = some info) {held : Map TaskToken LocalInFlightActInfo}
    (ha : ∀ tt, tt ≠ lai.taskToken → held.lookup tt = s.outstanding.lookup tt)
    (hc : ∀ info, held.lookup lai.taskToken = some info → info.cancel ≠ .notRequested) :
    Settled { s with outstanding := held, log := s.log ++ [.cancelled lai.origin] } := by
  refine hset.about ⟨fun _ _ => rfl, others_of_entry hs hroot h, fun _ => .inl, ha,
    fun o hne => by simp [hne]⟩ (by simpa using hset.once) (pairwise_notRevived_append hset.notRevived (by simp)) ?_ ?_
  all_goals
    intro lai' hl hmem
    cases h.symm.trans hl
  · obtain ⟨-, -, hheld, -⟩ := hset.resolved id lai h (mem_resolutions.mpr (by simpa using hmem))
    cases hheld.symm.trans hi
  · exact ⟨hc, hf.no_request_of_entry hs h hi⟩

/-- The entry is cancelled before lang holds it. -/
theorem Settled.remove {resolved : Bool} (h : s.laInfo.lookup id = some lai)
    (hr : resolved = true → lai.backingOffTask.isSome = true ∨ lai.queuedForDispatch = true) : Settled { s with
      laInfo := s.laInfo.erase id, tasks := s.tasks.filter (·.handle ∉ handlesOf lai)
      log := s.log ++ .cancelled lai.origin :: if resolved then [.resolved lai.origin] else [] } := by
  have hgone : ∀ lai', (s.laInfo.erase id).lookup id ≠ some lai' := by simp [AList.lookup_erase]
  refine hset.about ⟨fun _ hne => AList.lookup_erase_ne hne, others_of_entry hs hroot h,
    fun q hq => .inl ((requests_filter _ _ _).subset hq), fun _ _ => rfl, fun o hne => ?_⟩ ?_
    (pairwise_notRevived_append hset.notRevived (by cases resolved <;> simp))
    (fun lai' hl => absurd hl (hgone lai')) fun lai' hl => absurd hl (hgone lai')
  · cases resolved <;> simp [hne]
  · cases resolved with
    | false => simpa using hset.once
    | true =>
      -- an entry that is queued or backs off was not resolved
      have hnot : .resolved lai.origin ∉ s.log := fun hmem => by
        obtain ⟨hq, hb, -⟩ := hset.resolved id lai h (mem_resolutions.mpr hmem)
        simp [hq, hb] at hr
      rw [resolutions_append, resolutions_removed]
      simpa using hset.once_append hnot

theorem Settled.finish (h : s.laInfo.lookup id = some lai)
    (hi : s.outstanding.lookup lai.taskToken = some info) : Settled { s with
      outstanding := s.outstanding.erase lai.taskToken, laInfo := s.laInfo.erase id
      tasks := s.tasks.filter (·.handle ∉ handlesOf lai), log := s.log ++ [.resolved lai.origin] } := by
  have hgone : ∀ lai', (s.laInfo.erase id).lookup id ≠ some lai' := by simp [AList.lookup_erase]
  refine hset.about ⟨fun _ hne => AList.lookup_erase_ne hne, others_of_entry hs hroot h,
    fun q hq => .inl ((requests_filter _ _ _).subset hq), fun _ hne => AList.lookup_erase_ne hne,
    fun o hne => by simp [hne]⟩ (hset.once_append fun hmem => ?_)
    (pairwise_notRevived_append hset.notRevived (by simp)) (fun lai' hl => absurd hl (hgone lai'))
    fun lai' hl => absurd hl (hgone lai')
  obtain ⟨-, -, hheld, -⟩ := hset.resolved id lai h (mem_resolutions.mpr hmem)
  cases hheld.symm.trans hi

/-- The attempt failed and the local activity backs off under a new token. -/
theorem Settled.retry {q : Request} {tasks : List SpawnedTask} (h : s.laInfo.lookup q.id = some lai)
    (hi : s.outstanding.lookup lai.taskToken = some info) (hc : info.cancel = .notRequested)
    (hreq : ∀ q' ∈ s.actReqs ++ tasks.flatMap (·.wake.requests), q' ∈ s.requests ∨ q'.id = q.id) : Settled { s with
      outstanding := s.outstanding.erase lai.taskToken
      laInfo := (s.laInfo.erase q.id).insert q.id (retryInfo (some lai) (s.nextTtNum + 1) s.nextHandle), tasks } := by
  refine hset.about ⟨fun _ hne => (AList.lookup_insert_ne hne).trans (AList.lookup_erase_ne hne),
    others_of_entry hs hroot h, hreq, fun _ hne => AList.lookup_erase_ne hne, fun _ _ => ⟨id, id⟩⟩ hset.once
    hset.notRevived ?_ ?_
  all_goals
    intro lai' hl hmem
    cases (AList.lookup_insert _).symm.trans hl
  · obtain ⟨-, -, hheld, -⟩ := hset.resolved _ lai h (mem_resolutions.mpr hmem)
    cases hheld.symm.trans hi
  · exact absurd hc ((hset.cancelled _ lai h (mem_cancels.mpr hmem)).1 info hi)

variable {i : Nat} (hf : Fresh s) (hq : s.actReqs[i]? = some q) (h : s.laInfo.lookup q.id = some lai)
include hq h

omit hs hroot in
theorem Settled.live_of_request : .resolved lai.origin ∉ s.log ∧ .cancelled lai.origin ∉ s.log := by
  have hqs : q ∈ s.requests := (requests_eraseIdx hq).mem_iff.mpr List.mem_cons_self
  exact ⟨fun hc => (hset.resolved _ lai h (mem_resolutions.mpr hc)).2.2.2 q hqs rfl,
    fun hc => (hset.cancelled _ lai h (mem_cancels.mpr hc)).2 q hqs rfl⟩

include hf in
theorem Settled.late : Settled { s with
      actReqs := s.actReqs.eraseIdx i
      laInfo := s.laInfo.insert q.id { lai with queuedForDispatch := false, backingOffTask := none }
      log := s.log ++ [.resolved lai.origin] } := by
  have hlive := hset.live_of_request hq h
  have hheld : s.outstanding.lookup lai.taskToken = none := by
    by_contra hc
    obtain ⟨info, hi⟩ := Option.ne_none_iff_exists'.mp hc
    exact hf.no_request_of_entry hs h hi q ((requests_eraseIdx hq).mem_iff.mpr List.mem_cons_self) rfl
  refine hset.about ⟨fun _ hne => AList.lookup_insert_ne hne, others_of_entry hs hroot h,
    fun q' hq' => .inl ((requests_eraseIdx hq).mem_iff.mpr (List.mem_cons_of_mem _ hq')), fun _ _ => rfl,
    fun o hne => by simp [hne]⟩ (hset.once_append hlive.1) (pairwise_notRevived_append hset.notRevived (by simp)) ?_ ?_
  all_goals
    intro lai' hl hmem
    cases (AList.lookup_insert _).symm.trans hl
  · exact ⟨rfl, rfl, hheld, hf.only_request hq h⟩
  · exact absurd (by simpa using hmem) hlive.2

theorem Settled.start {bag : Option TimeoutBag} {timers : List SpawnedTask}
    (harm : Armed s.now s.nextHandle lai.timeoutBag bag timers) : Settled { s with
      actReqs := s.actReqs.eraseIdx i
      laInfo := s.laInfo.insert q.id { lai with queuedForDispatch := false, backingOffTask := none, timeoutBag := bag }
      outstanding := s.outstanding.insert lai.taskToken info
      tasks := s.tasks ++ timers
      log := s.log ++ [.started ⟨lai.taskToken, q.token, q.id, lai.origin⟩] } := by
  have hlive := hset.live_of_request hq h
  have hreq : ∀ q' ∈ s.actReqs.eraseIdx i ++ (s.tasks ++ timers).flatMap (·.wake.requests), q' ∈ s.requests := by
    rw [requests_timers harm.requests]
    exact fun q' hq' => (requests_eraseIdx hq).mem_iff.mpr (List.mem_cons_of_mem _ hq')
  refine hset.about (k := q.id) ⟨fun _ hne => AList.lookup_insert_ne hne, others_of_entry hs hroot h,
    fun q' hq' => .inl (hreq q' hq'), fun _ hne => AList.lookup_insert_ne hne, fun o hne => by simp⟩
    (by simpa using hset.once) ?_ ?_ ?_
  · -- what came before tells neither of a cancel nor of a resolution
    refine List.pairwise_append.mpr ⟨hset.notRevived, List.pairwise_singleton _ _,
      fun earlier hmem e he start hst => ?_⟩
    cases List.mem_singleton.mp he
    cases hst
    exact ⟨fun hc => hlive.2 (hc ▸ hmem), fun hc => hlive.1 (hc ▸ hmem)⟩
  all_goals
    intro lai' hl hmem
    cases (AList.lookup_insert _).symm.trans hl
  · exact absurd (by simpa using hmem) hlive.1
  · exact absurd (by simpa using hmem) hlive.2

end

/-- **Every move keeps what the log says.** -/
theorem Move.settled (h : Move s l t) (hs : Tracked s) (hf : Fresh s) (hl : Unrequested s l) (hroot : Rooted s)
    (hset : Settled s) : Settled t := by
  cases h with
  | idle => exact hset
  | elapse | ignore | dropMessage => exact hset.shrink {}
  | accept act bag timers h hb => exact (hset.accept hs hroot hb).shrink {}
  | tooLate act h => exact (hset.tooLate hs hroot hl).shrink {}
  | cancelHeld id lai info h hback hi hc =>
    refine (hset.cancel hs hroot hf h hi (fun _ hne => AList.lookup_insert_ne hne) fun info' hi' => ?_).shrink {}
    cases (AList.lookup_insert _).symm.trans hi'
    simp
  | cancelAgain id lai info h hback hi hc =>
    refine hset.cancel hs hroot hf h hi (fun _ _ => rfl) fun info' hi' => ?_
    cases hi.symm.trans hi'
    exact hc
  | remove id lai resolved h ho hr => exact hset.remove hs hroot h hr
  | invalidate run =>
    refine hset.shrink { requests := fun q hq => (requests_filter _ _ _).subset hq, entries := ?_, attempts := ?_ } <;>
      simp only [lookup_retain, Option.filter_eq_some_iff] <;> grind
  | indicate run =>
    refine hset.shrink { entries := ?_ }
    simp only [lookup_mapValues, Option.map_eq_some_iff]
    grind
  | heartbeat deadline run =>
    refine hset.shrink { requests := fun q hq => ?_ }
    rwa [Ledger.requests, requests_timers (by simp [Wake.requests])] at hq
  | deliver tt info hi =>
    refine hset.shrink { attempts := ?_ }
    simp only [lookup_insert_ite]
    grind
  | dropRequest i =>
    exact hset.shrink { requests := fun q hq => ((List.eraseIdx_sublist ..).append_right _).subset hq }
  | late i q lai hq h => exact hset.late hs hroot hf hq h
  | start i q lai bag timers hq h harm => exact (hset.start hs hroot hq h harm).shrink {}
  | finish tt info lai hi h =>
    obtain ⟨lai', hl', rfl⟩ := hs.entry tt info hi
    obtain rfl : lai' = lai := Option.some.inj (hl'.symm.trans h)
    exact hset.finish hs hroot h hi
  | retry tt info lai backoff hi h hc =>
    obtain ⟨lai', hl', rfl⟩ := hs.entry tt info hi
    obtain rfl : lai' = lai := Option.some.inj (hl'.symm.trans h)
    refine (hset.retry (q := ⟨.retry info.laInfo (info.attempt + 1), s.nextTtNum + 1⟩) hs hroot h hi hc ?_).shrink {}
    rw [List.flatMap_append, ← List.append_assoc]
    intro q hq
    rcases List.mem_append.mp hq with hq | hq
    · exact .inl ((requests_filter _ _ _).subset hq)
    · cases List.mem_singleton.mp hq
      exact .inr rfl
  | fire i task ht hd =>
    exact hset.shrink { requests := fun q hq => (requests_fire ht).subset hq }

theorem Clean.settled {s : LocalActivityManager} (h : Clean s) :
    Tracked s.ledger ∧ Fresh s.ledger ∧ Rooted s.ledger ∧ Settled s.ledger := by
  refine Clean.invariant (I := fun s => Fresh s ∧ Rooted s ∧ Settled s) ?_ ?_ h
  · refine ⟨fresh_init, ?_, ?_⟩ <;> constructor <;> simp [ledger, resolutions, cancels]
  · rintro s l t hs ⟨hf, hroot, hset⟩ hl hm
    exact ⟨hm.fresh hs hf hl, hm.rooted hroot, hm.settled hs hf hl hroot hset⟩

/-- **A local activity is resolved at most once, and not started once it is cancelled.** An attempt has a single entry.
-/
theorem resolved_once_and_stopped {s : LocalActivityManager} (h : Clean s) :
    (resolutions s.log).Nodup ∧
      (∀ tt info, s.outstandingActivityTasks.lookup tt = some info →
        ∃! id, (s.laInfo.lookup id).any (·.taskToken = tt) = true) ∧
      s.log.Pairwise fun earlier later => ∀ start, earlier = .cancelled start.origin → later ≠ .started start := by
  obtain ⟨hs, -, -, hset⟩ := h.settled
  refine ⟨hset.once, fun tt info hi => ?_, hset.notRevived.imp fun hn start he hl => (hn start hl).1 he⟩
  obtain ⟨lai, hl, rfl⟩ := hs.entry tt info hi
  have hl : s.laInfo.lookup info.laInfo.id = some lai := hl
  refine ⟨info.laInfo.id, by simp [hl], fun id hid => ?_⟩
  obtain ⟨lai', hl', ht⟩ := Option.any_eq_true _ _ |>.mp hid
  exact hs.unique id _ lai' lai hl' hl (of_decide_eq_true ht)

/-- Runs are not invalidated, and a local activity comes when there is no entry for its id. -/
def isNewAndValid (s : LocalActivityManager) (i : Input) : Bool :=
  match i with
  | .enqueue (.invalidateRun _) => false
  | i => s.isNew i

/-- A local activity is cancelled while its request is queued, and another one gets its number. Both requests end it
when they waited too long; or the first starts it, it is cancelled, and the second starts it again. -/
theorem resolved_twice_and_revived :
    (∃ s, Reach Step (fun s i => s.isNewAndValid i = true) (· = {}) s ∧ resolutions s.log = [1, 2, 2]) ∧
      ∃ s, Reach Step (fun s i => s.isNewAndValid i = true) (· = {}) s ∧
        s.log = [.cancelled 1, .resolved 1, .started ⟨2, 1, ⟨1, 1⟩, 2⟩, .cancelled 2, .started ⟨2, 2, ⟨1, 1⟩, 2⟩] := by
  let act := sampleAct 1 1 (.scheduleOnly 100)
  let late := { act with scheduleCmd := { act.scheduleCmd with scheduleToStartTimeout := some 10 } }
  constructor
  · exact exists_of_run
      [.enqueue (.new late), .enqueue (.cancel ⟨1, 1⟩), .enqueue (.new late), .elapse 11, .nextPending (.request 0),
        .nextPending (.request 0)] (by decide +kernel)
  · exact exists_of_run
      [.enqueue (.new act), .enqueue (.cancel ⟨1, 1⟩), .enqueue (.new act), .nextPending (.request 0),
        .enqueue (.cancel ⟨1, 1⟩), .nextPending (.request 0)] (by decide +kernel)

theorem resolved_once_and_stopped_held :
    ∃ s, Clean s ∧ s.log = [.started ⟨1, 1, ⟨1, 1⟩, 1⟩, .cancelled 1, .resolved 1] ∧ (resolutions s.log).Nodup := by
  obtain ⟨s, hs, ho⟩ : ∃ s, Clean s ∧ s.log = [.started ⟨1, 1, ⟨1, 1⟩, 1⟩, .cancelled 1, .resolved 1] :=
    exists_of_run
      [.enqueue (.new (sampleAct 1 1 (.scheduleOnly 100))), .nextPending (.request 0), .enqueue (.cancel ⟨1, 1⟩),
        .complete 1 (.failed none)] (by decide +kernel)
  exact ⟨s, hs, ho, (resolved_once_and_stopped hs).1⟩

end LocalActivityManager

end SdkCore
