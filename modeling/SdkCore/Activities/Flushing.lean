import SdkCore.Activities.Heartbeat
import SdkCore.Lib.Reach

/-!
# The flush of an evicted activity

An activity that is evicted with a flush waits until it is complete. Reports are matched by token only, so the end of an
earlier report may be taken for it (`flush_notified_after_reports`). `Life` are the stages of a token.
-/

namespace SdkCore.Heartbeats

open HeartbeatStreamState

variable {now : Nat} {s : Heartbeats} {a b : TaskToken} {d : Details}

def detailsOf (l : List (TaskToken × Details)) (tt : TaskToken) : List Details := (l.filter (·.1 = tt)).map (·.2)

/-- An eviction that flushes was told to be complete. -/
def FlushNotified (s : Heartbeats) (tt : TaskToken) : Prop :=
  ∃ n ∈ s.stream.notified, s.evictions[n]? = some (tt, true)

/-- What the stream holds and what happened for one token. -/
@[ext] structure View where
  state : Option ActivityHeartbeatState
  waiting : Option Nat
  reports : List Details
  sleeps : Nat
  completed : List Details
  last : Option Details
  evicted : Bool
  flush : Prop
  notified : Prop

def view (s : Heartbeats) (tt : TaskToken) : View where
  state := s.stream.ttToState.lookup tt
  waiting := s.stream.ttNeedsFlush.lookup tt
  reports := detailsOf s.reports tt
  sleeps := s.sleeps.count tt
  completed := detailsOf s.completed tt
  last := (detailsOf s.recorded tt).getLast?
  evicted := s.isEvicted tt
  flush := (tt, true) ∈ s.evictions
  notified := s.FlushNotified tt

/-- The last details are pending, or were sent. -/
def Kept (last pending : Option Details) (sent : List Details) : Prop :=
  ∀ d ∈ last, pending = some d ∨ pending = none ∧ d ∈ sent

/-- The life of a token. There is at most one report at a time. -/
inductive Life (v : View) : Prop
  | untracked (hs : v.state = none) (hw : v.waiting = none) (hr : v.reports = []) (hsl : v.sleeps = 0)
      (he : v.evicted = false) (hl : Kept v.last none v.completed)
  | reporting (st : ActivityHeartbeatState) (d : Details) (hs : v.state = some st) (hf : st.isRecordInFlight = true)
      (hw : v.waiting = none) (hr : v.reports = [d]) (hsl : v.sleeps = 0) (he : v.evicted = false)
      (hl : Kept v.last st.lastRecordedDetails (d :: v.completed))
  | throttled (st : ActivityHeartbeatState) (hs : v.state = some st) (hf : st.isRecordInFlight = false)
      (hw : v.waiting = none) (hr : v.reports = []) (hsl : v.sleeps = 1) (he : v.evicted = false)
      (hl : Kept v.last st.lastRecordedDetails v.completed)
  | flushing (n : Nat) (d : Details) (hs : v.state = none) (hw : v.waiting = some n) (hr : v.reports = [d])
      (he : v.evicted = true) (hn : ¬ v.notified) (hl : v.flush → Kept v.last none (d :: v.completed))
  | gone (hs : v.state = none) (hw : v.waiting = none) (hr : v.reports = []) (he : v.evicted = true)
      (hl : v.flush → Kept v.last none v.completed)

@[simp]
theorem detailsOf_append (l l' : List (TaskToken × Details)) :
    detailsOf (l ++ l') a = detailsOf l a ++ detailsOf l' a := by
  simp [detailsOf]

@[simp]
theorem detailsOf_singleton_self : detailsOf [(a, d)] a = [d] := by
  simp [detailsOf]

theorem detailsOf_singleton_ne (h : b ≠ a) : detailsOf [(a, d)] b = [] := by
  simp [detailsOf, Ne.symm h]

theorem detailsOf_erase_self (l : List (TaskToken × Details)) :
    detailsOf (l.erase (a, d)) a = (detailsOf l a).erase d := by
  induction l with
  | nil => rfl
  | cons x xs ih =>
    obtain ⟨t, e⟩ := x
    by_cases ht : t = a
    · subst ht
      by_cases he : e = d
      · simp [detailsOf, he]
      · have hne : ¬ (t, e) = (t, d) := by simp [he]
        simp only [detailsOf, List.erase_cons, beq_iff_eq, hne, if_false] at ih ⊢
        simp [he, ih]
    · have hne : ¬ (t, e) = (a, d) := by simp [ht]
      simp only [detailsOf, List.erase_cons, beq_iff_eq, hne, if_false] at ih ⊢
      simp [ht, ih]

theorem detailsOf_erase_ne (l : List (TaskToken × Details)) (h : b ≠ a) :
    detailsOf (l.erase (a, d)) b = detailsOf l b := by
  unfold detailsOf
  rw [← List.erase_filter, List.erase_of_not_mem]
  simp [Ne.symm h]

theorem mem_detailsOf {l : List (TaskToken × Details)} : d ∈ detailsOf l a ↔ (a, d) ∈ l := by
  simp [detailsOf]

/-! ## The other tokens -/

/-- Notifications and waiting evictions are evictions of their token. -/
structure Named (s : Heartbeats) : Prop where
  notified : ∀ n ∈ s.stream.notified, n < s.evictions.length
  waiting : ∀ tt n, s.stream.ttNeedsFlush.lookup tt = some n → ∃ f, s.evictions[n]? = some (tt, f)

variable {f : Bool} {last : Option Details} {sent : List Details}

theorem getElem?_concat_ne {l : List (TaskToken × Bool)} (h : b ≠ a) {n : Nat} :
    (l ++ [(a, f)])[n]? = some (b, true) ↔ l[n]? = some (b, true) := by
  rw [List.getElem?_append]
  split
  · rfl
  · rw [List.getElem?_eq_none (by omega : l.length ≤ n)]
    cases n - l.length <;> simp [h.symm]

/-- A message changes only the view of its own token. -/
theorem view_process_ne (hn : Named s) (action : HeartbeatAction) (hb : b ≠ action.token) :
    view (process now s action) b = view s b := by
  cases action with
  | sendHeartbeat hb' =>
    simp only [process, record]
    split <;> simp_all [view, begin, HeartbeatAction.token, FlushNotified, isEvicted, detailsOf_singleton_ne]
  | evict token shouldFlush =>
    have hne : b ≠ token := hb
    simp only [process, evict]
    split
    · simp [view, begin, FlushNotified, isEvicted, getElem?_concat_ne hne, hne, hne.symm]
    · split
      · simp [view, begin, FlushNotified, isEvicted, getElem?_concat_ne hne, detailsOf_singleton_ne, hne, hne.symm]
      · split <;> simp [view, begin, FlushNotified, isEvicted, getElem?_concat_ne hne, hne, hne.symm]
  | completeReport token details =>
    have hne : b ≠ token := hb
    have hnot : ∀ n, s.stream.ttNeedsFlush.lookup token = some n → s.evictions[n]? ≠ some (b, true) := by
      intro n hw hc
      obtain ⟨f, hf⟩ := hn.waiting token n hw
      rw [hf] at hc
      simp [hne.symm] at hc
    simp only [process, handleReportCompleted]
    split <;> simp [view, begin, FlushNotified, isEvicted, detailsOf_singleton_ne, detailsOf_erase_ne, hne,
      hne.symm] <;>
      grind
  | completeThrottle token =>
    have hne : b ≠ token := hb
    simp only [process, handleThrottleCompleted]
    split
    · simp [view, begin, FlushNotified, isEvicted, hne]
    · split <;> simp [view, begin, FlushNotified, isEvicted, detailsOf_singleton_ne, hne]

/-- Messages keep the names. -/
theorem Named.process (hn : Named s) (action : HeartbeatAction) : Named (process now s action) := by
  obtain ⟨h1, h2⟩ := hn
  cases action with
  | sendHeartbeat hb' =>
    simp only [Heartbeats.process, record]
    split <;> exact ⟨by simpa [begin] using h1, by simpa [begin] using h2⟩
  | evict token shouldFlush =>
    have h1' : ∀ n ∈ s.stream.notified, n < s.evictions.length + 1 := fun n h => Nat.lt_succ_of_lt (h1 n h)
    have h2' : ∀ tt n, s.stream.ttNeedsFlush.lookup tt = some n →
        ∃ f, (s.evictions ++ [(token, shouldFlush)])[n]? = some (tt, f) := by
      intro tt n h
      obtain ⟨f, hf⟩ := h2 tt n h
      exact ⟨f, by rw [List.getElem?_append_left (List.getElem?_eq_some_iff.mp hf).1, hf]⟩
    have hins : ∀ tt n, (s.stream.ttNeedsFlush.insert token s.evictions.length).lookup tt = some n →
        ∃ f, (s.evictions ++ [(token, shouldFlush)])[n]? = some (tt, f) := by
      intro tt n h
      by_cases ht : tt = token
      · subst ht
        rw [AList.lookup_insert] at h
        cases h
        exact ⟨shouldFlush, by simp⟩
      · rw [AList.lookup_insert_ne ht] at h
        exact h2' tt n h
    simp only [Heartbeats.process, evict]
    split
    · exact ⟨by simp [begin]; grind, by simpa [begin] using h2'⟩
    · split
      · exact ⟨by simpa [begin] using h1', by simpa [begin] using hins⟩
      · split
        · exact ⟨by simpa [begin] using h1', by simpa [begin] using hins⟩
        · exact ⟨by simp [begin]; grind, by simpa [begin] using h2'⟩
  | completeReport token details =>
    have h1' : ∀ n, n ∈ s.stream.notified ∨ s.stream.ttNeedsFlush.lookup token = some n → n < s.evictions.length := by
      rintro n (h | h)
      · exact h1 n h
      · obtain ⟨f, hf⟩ := h2 token n h
        exact (List.getElem?_eq_some_iff.mp hf).1
    have h2' : ∀ tt n, (s.stream.ttNeedsFlush.erase token).lookup tt = some n →
        ∃ f, s.evictions[n]? = some (tt, f) := by
      intro tt n h
      by_cases ht : tt = token
      · subst ht
        simp at h
      · rw [AList.lookup_erase_ne ht] at h
        exact h2 tt n h
    simp only [Heartbeats.process, handleReportCompleted]
    split <;> exact ⟨by simpa [begin] using h1', by simpa [begin] using h2'⟩
  | completeThrottle token =>
    simp only [Heartbeats.process, handleThrottleCompleted]
    split
    · exact ⟨by simpa [begin] using h1, by simpa [begin] using h2⟩
    · split <;> exact ⟨by simpa [begin] using h1, by simpa [begin] using h2⟩

/-! ## A message for the token -/

theorem not_flushNotified (h : s.isEvicted a = false) : ¬ s.FlushNotified a := by
  rintro ⟨n, -, hn⟩
  have hm : s.isEvicted a = true := List.any_eq_true.mpr ⟨_, List.mem_of_getElem? hn, by simp⟩
  simp [h] at hm

/-- The state of a token after its first heartbeat. -/
def firstState (now : Nat) (hb : ValidActivityHeartbeat) : ActivityHeartbeatState where
  lastRecordedDetails := none
  isRecordInFlight := true
  lastSendRequested := now
  throttleInterval := hb.throttleInterval
  throttledCancellationToken := none
  timeoutResetter := hb.timeoutResetter

/-- A heartbeat keeps the life of its token. -/
theorem life_sendHeartbeat (hb : ValidActivityHeartbeat) (h : Life (view s hb.taskToken))
    (hdue : s.isDue (.sendHeartbeat hb) = true) :
    Life (view (process now s (.sendHeartbeat hb)) hb.taskToken) := by
  have hev : (view s hb.taskToken).evicted = false := by simpa [isDue, view] using hdue
  -- Later details only replace those that wait.
  have hnext : ∀ st, s.stream.ttToState.lookup hb.taskToken = some st →
      view (process now s (.sendHeartbeat hb)) hb.taskToken = { view s hb.taskToken with
        state := some { st with lastRecordedDetails := some hb.details, timeoutResetter := hb.timeoutResetter }
        last := some hb.details } := by
    intro st hs
    simp [process, record, hs, view, begin, isEvicted, FlushNotified]
  cases h with
  | untracked hs hw hr hsl he hl =>
    have hv : view (process now s (.sendHeartbeat hb)) hb.taskToken = { view s hb.taskToken with
        state := some (firstState now hb)
        reports := (view s hb.taskToken).reports ++ [hb.details]
        last := some hb.details } := by
      have hs : s.stream.ttToState.lookup hb.taskToken = none := hs
      simp [process, record, hs, view, begin, isEvicted, FlushNotified, firstState]
    rw [hv]
    exact .reporting _ hb.details rfl rfl hw (by simp [hr]) hsl he (by simp [Kept, firstState])
  | reporting st d hs hf hw hr hsl he hl =>
    rw [hnext st hs]
    exact .reporting _ d rfl hf hw hr hsl he (by simp [Kept])
  | throttled st hs hf hw hr hsl he hl =>
    rw [hnext st hs]
    exact .throttled _ rfl hf hw hr hsl he (by simp [Kept])
  | flushing n d hs hw hr he | gone hs hw hr he => simp [hev] at he

theorem not_notified_of_waits (hn : Named s) (hev : s.isEvicted a = false) :
    ¬ ∃ n ∈ s.stream.notified, (s.evictions ++ [(a, f)])[n]? = some (a, true) := by
  rintro ⟨n, hmem, hget⟩
  rw [List.getElem?_append_left (hn.notified n hmem)] at hget
  exact not_flushNotified hev ⟨n, hmem, hget⟩

theorem Kept.of_pending_none {pending : Option Details} (h : Kept last pending sent) (hp : pending = none) :
    Kept last none sent := by
  subst hp
  exact h

theorem Kept.send (h : Kept last (some d) sent) : Kept last none (d :: sent) := by
  intro x hx
  rcases h x hx with h | ⟨h, -⟩
  · cases h
    exact .inr ⟨rfl, List.mem_cons_self⟩
  · cases h

/-- An eviction that overtakes no report keeps the life of its token. -/
theorem life_evict (hn : Named s) (h : Life (view s a)) (hdue : s.isDue (.evict a f) = true)
    (hover : s.overtakes (.evict a f) = false) : Life (view (process now s (.evict a f)) a) := by
  have hev : s.isEvicted a = false := by simpa [isDue] using hdue
  have hflush : (a, true) ∉ s.evictions := by
    intro hm
    have : s.isEvicted a = true := List.any_eq_true.mpr ⟨_, hm, by simp⟩
    simp [hev] at this
  have hwaits := not_notified_of_waits hn hev (f := f)
  cases h with
  | untracked hs hw hr hsl he hl =>
    have hs' : s.stream.ttToState.lookup a = none := hs
    have hp : process now s (.evict a f) = { s with
        evictions := s.evictions ++ [(a, f)]
        stream := { s.stream with notified := s.stream.notified ++ [s.evictions.length] } } := by
      simp only [process, evict, hs', begin]
    rw [hp]
    exact .gone hs hw hr (by simp [view, isEvicted]) fun _ => hl
  | reporting st d hs hf hw hr hsl he hl =>
    have hs' : s.stream.ttToState.lookup a = some st := hs
    have hnone : f = true → st.lastRecordedDetails = none := by
      rintro rfl
      simpa [overtakes, hs', hf] using hover
    have hp : process now s (.evict a f) = { s with
        evictions := s.evictions ++ [(a, f)]
        stream := { s.stream with
          ttToState := s.stream.ttToState.erase a
          cancelled := s.stream.cancelled ++ st.throttledCancellationToken.toList
          ttNeedsFlush := s.stream.ttNeedsFlush.insert a s.evictions.length } } := by
      simp only [process, evict, hs', hf]
      cases f <;> simp_all [begin]
    rw [hp]
    refine .flushing s.evictions.length d (by simp [view]) (by simp [view]) hr (by simp [view, isEvicted]) hwaits
      fun hfl => ?_
    exact hl.of_pending_none (hnone (by simpa [view, hflush] using hfl))
  | throttled st hs hf hw hr hsl he hl =>
    have hs' : s.stream.ttToState.lookup a = some st := hs
    by_cases hd : f = true ∧ ∃ d, st.lastRecordedDetails = some d
    · obtain ⟨rfl, d, hd⟩ := hd
      have hp : process now s (.evict a true) = { s with
          evictions := s.evictions ++ [(a, true)], reports := s.reports ++ [(a, d)]
          stream := { s.stream with
            ttToState := s.stream.ttToState.erase a
            cancelled := s.stream.cancelled ++ st.throttledCancellationToken.toList
            ttNeedsFlush := s.stream.ttNeedsFlush.insert a s.evictions.length } } := by
        simp [process, evict, hs', hd, begin]
      rw [hp]
      have hr' : detailsOf s.reports a = [] := hr
      refine .flushing s.evictions.length d (by simp [view]) (by simp [view]) (by simp [view, hr'])
        (by simp [view, isEvicted]) hwaits fun _ => ?_
      exact Kept.send (hd ▸ hl)
    · have hp : process now s (.evict a f) = { s with
          evictions := s.evictions ++ [(a, f)]
          stream := { s.stream with
            ttToState := s.stream.ttToState.erase a
            cancelled := s.stream.cancelled ++ st.throttledCancellationToken.toList
            notified := s.stream.notified ++ [s.evictions.length] } } := by
        simp only [process, evict, hs', hf]
        split
        · next hd' => exact absurd ⟨rfl, _, hd'⟩ hd
        · simp [begin]
      rw [hp]
      refine .gone (by simp [view]) hw hr (by simp [view, isEvicted]) fun hfl => ?_
      have hfl : f = true := by simpa [view, hflush] using hfl
      exact hl.of_pending_none (Option.eq_none_iff_forall_ne_some.mpr fun d' hd' => hd ⟨hfl, d', hd'⟩)
  | flushing n d hs hw hr he | gone hs hw hr he => simp [view, hev] at he

/-- The end of a report keeps the life of its token. -/
theorem life_completeReport (h : Life (view s a)) (hdue : s.isDue (.completeReport a d) = true) :
    Life (view (process now s (.completeReport a d)) a) := by
  have hmem : d ∈ (view s a).reports := by simpa [isDue, view, mem_detailsOf] using hdue
  -- The report that is complete is the only one.
  have hone : ∀ d', (view s a).reports = [d'] → (detailsOf s.reports a).erase d = [] ∧ d' = d := by
    intro d' hr
    have hr' : detailsOf s.reports a = [d'] := hr
    rw [hr] at hmem
    simp only [List.mem_singleton] at hmem
    simp [hr', hmem]
  have hsent : ∀ {last pending}, Kept last pending (d :: detailsOf s.completed a) →
      Kept last pending (detailsOf (s.completed ++ [(a, d)]) a) := by
    intro last pending hl x hx
    simpa [or_comm] using hl x hx
  cases h with
  | reporting st d' hs hf hw hr hsl he hl =>
    have hs' : s.stream.ttToState.lookup a = some st := hs
    have hw' : s.stream.ttNeedsFlush.lookup a = none := hw
    have hsl' : s.sleeps.count a = 0 := hsl
    obtain ⟨hone, rfl⟩ := hone d' hr
    have hp : process now s (.completeReport a d') = { s with
        reports := s.reports.erase (a, d'), completed := s.completed ++ [(a, d')], sleeps := s.sleeps ++ [a]
        stream := { s.stream with
          ttNeedsFlush := s.stream.ttNeedsFlush.erase a
          ttToState := s.stream.ttToState.insert a
            { st with isRecordInFlight := false, throttledCancellationToken := some s.stream.childTokens }
          childTokens := s.stream.childTokens + 1
          resets := s.stream.resets ++ st.timeoutResetter.toList } } := by
      simp [process, handleReportCompleted, hs', hw', begin]
    rw [hp]
    exact .throttled _ (AList.lookup_insert _) rfl (by simp [view])
      (by simpa [view, detailsOf_erase_self] using hone) (by simp [view, hsl']) he (hsent hl)
  | flushing n d' hs hw hr he hnot hl =>
    have hs' : s.stream.ttToState.lookup a = none := hs
    have hw' : s.stream.ttNeedsFlush.lookup a = some n := hw
    obtain ⟨hone, rfl⟩ := hone d' hr
    have hp : process now s (.completeReport a d') = { s with
        reports := s.reports.erase (a, d'), completed := s.completed ++ [(a, d')]
        stream := { s.stream with
          notified := s.stream.notified ++ [n]
          ttNeedsFlush := s.stream.ttNeedsFlush.erase a } } := by
      simp [process, handleReportCompleted, hs', hw', begin]
    rw [hp]
    refine .gone hs (by simp [view]) (by simpa [view, detailsOf_erase_self] using hone) he fun hfl => ?_
    exact hsent (hl hfl)
  | untracked hs hw hr | throttled st hs hf hw hr | gone hs hw hr => simp [hr] at hmem

/-- The end of a throttle interval keeps the life of its token. -/
theorem life_completeThrottle (h : Life (view s a)) (hdue : s.isDue (.completeThrottle a) = true) :
    Life (view (process now s (.completeThrottle a)) a) := by
  have hmem : a ∈ s.sleeps := by simpa [isDue] using hdue
  have hsleeps : (view s a).sleeps ≠ 0 := by simpa [view, List.count_eq_zero] using hmem
  have hgone : s.stream.ttToState.lookup a = none →
      process now s (.completeThrottle a) = { s with sleeps := s.sleeps.erase a } := by
    intro hs
    simp only [process, handleThrottleCompleted, hs, begin]
  cases h with
  | throttled st hs hf hw hr hsl he hl =>
    have hs' : s.stream.ttToState.lookup a = some st := hs
    have hsl' : s.sleeps.count a = 1 := hsl
    have hr' : detailsOf s.reports a = [] := hr
    cases hd : st.lastRecordedDetails with
    | none =>
      have hp : process now s (.completeThrottle a) = { s with
          sleeps := s.sleeps.erase a
          stream := { s.stream with ttToState := s.stream.ttToState.erase a } } := by
        simp [process, handleThrottleCompleted, hs', hd, begin]
      rw [hp]
      exact .untracked (by simp [view]) hw hr (by simp [view, hsl']) he (hl.of_pending_none hd)
    | some d =>
      have hp : process now s (.completeThrottle a) = { s with
          sleeps := s.sleeps.erase a, reports := s.reports ++ [(a, d)]
          stream := { s.stream with
            ttToState := s.stream.ttToState.insert a { st with
              lastRecordedDetails := none, throttledCancellationToken := none, lastSendRequested := now
              isRecordInFlight := true } } } := by
        simp [process, handleThrottleCompleted, hs', hd, begin]
      rw [hp]
      exact .reporting _ d (AList.lookup_insert _) rfl hw (by simp [view, hr']) (by simp [view, hsl']) he
        (Kept.send (hd ▸ hl))
  | flushing n d hs hw hr he hnot hl =>
    rw [hgone hs]
    exact .flushing n d hs hw hr he hnot hl
  | gone hs hw hr he hl =>
    rw [hgone hs]
    exact .gone hs hw hr he hl
  | untracked hs hw hr hsl | reporting st d hs hf hw hr hsl => exact absurd hsl hsleeps

/-- A message keeps the lives of all tokens. -/
theorem life_process (hn : Named s) (h : ∀ tt, Life (view s tt)) {action : HeartbeatAction}
    (hdue : s.isDue action = true) (hover : s.overtakes action = false) (tt : TaskToken) :
    Life (view (process now s action) tt) := by
  by_cases ht : tt = action.token
  · subst ht
    cases action with
    | sendHeartbeat hb => exact life_sendHeartbeat hb (h _) hdue
    | evict token shouldFlush => exact life_evict hn (h _) hdue hover
    | completeReport token details => exact life_completeReport (h _) hdue
    | completeThrottle token => exact life_completeThrottle (h _) hdue
  · rw [view_process_ne hn action ht]
    exact h tt

/-! ## Every run -/

/-- The runs in which no eviction that flushes overtakes a report. -/
abbrev Calm : Heartbeats → Prop :=
  Reach Step (fun s action => s.isDue action = true ∧ s.overtakes action = false) (· = {})

/-- The tokens of a calm run live. -/
theorem Calm.life (h : Calm s) : Named s ∧ ∀ tt, Life (view s tt) := by
  refine Reach.invariant (I := fun s => Named s ∧ ∀ tt, Life (view s tt)) ?_ ?_ h
  · rintro s rfl
    refine ⟨⟨by simp, by simp⟩, fun tt => .untracked rfl rfl rfl rfl rfl ?_⟩
    simp [Kept, view, detailsOf]
  · rintro s action s' ⟨hn, hl⟩ ⟨hdue, hover⟩ ⟨now, rfl⟩
    exact ⟨hn.process action, life_process hn hl hdue hover⟩

/-- **An activity whose details are flushed waits for the flush.** When it is told that this is done, no report is under
way and its last details were reported. -/
theorem flush_notified_after_reports (h : Calm s) (tt : TaskToken) (hnot : s.FlushNotified tt) :
    (∀ d, (tt, d) ∉ s.reports) ∧
      ∀ d, (detailsOf s.recorded tt).getLast? = some d → (tt, d) ∈ s.completed := by
  have hev : s.isEvicted tt = true := by
    by_contra hc
    exact not_flushNotified (by simpa using hc) hnot
  have hflush : (view s tt).flush := by
    obtain ⟨n, -, hn⟩ := hnot
    exact List.mem_of_getElem? hn
  have hgone : (view s tt).reports = [] ∧ Kept (view s tt).last none (view s tt).completed := by
    cases h.life.2 tt with
    | gone hs hw hr he hl => exact ⟨hr, hl hflush⟩
    | flushing n d hs hw hr he hn => exact absurd hnot hn
    | untracked hs hw hr hsl he | reporting st d hs hf hw hr hsl he | throttled st hs hf hw hr hsl he =>
      simp [view, hev] at he
  constructor
  · intro d hd
    have hd' : d ∈ (view s tt).reports := mem_detailsOf.mpr hd
    simp [hgone.1] at hd'
  · intro d hd
    rcases hgone.2 d hd with hp | ⟨-, hp⟩
    · cases hp
    · exact mem_detailsOf.mp hp

def heartbeat (payload : Payload) : HeartbeatAction :=
  .sendHeartbeat { taskToken := 1, details := [payload], throttleInterval := 5, timeoutResetter := none }

/-- The eviction overtakes the first report, whose end is taken for that of the last one. -/
theorem flush_notified_before_report :
    ∃ s, Reach Step (fun s action => s.isDue action = true) (· = {}) s ∧ s.FlushNotified 1 ∧
      (detailsOf s.recorded 1).getLast? = some [20] ∧ (1, [20]) ∈ s.reports ∧ (1, [20]) ∉ s.completed := by
  obtain ⟨s, hs, hnot, ho⟩ : ∃ s, Reach Step (fun s action => s.isDue action = true) (· = {}) s ∧
      (0 ∈ s.stream.notified ∧ s.evictions[0]? = some (1, true)) ∧
      (detailsOf s.recorded 1).getLast? = some [20] ∧ (1, [20]) ∈ s.reports ∧ (1, [20]) ∉ s.completed :=
    Reach.exists_of_trace [heartbeat 10, heartbeat 20, .evict 1 true, .completeReport 1 [10]] (by decide +kernel)
      (fun s a s' h => ⟨0, Option.some.inj h⟩) (.start rfl)
  exact ⟨s, hs, ⟨0, hnot⟩, ho⟩

theorem flush_notified_after_reports_two :
    ∃ s, Calm s ∧ s.FlushNotified 1 ∧ (∀ d, (1, d) ∉ s.reports) ∧
      ∀ d, (detailsOf s.recorded 1).getLast? = some d → (1, d) ∈ s.completed := by
  obtain ⟨s, hcalm, hnot⟩ : ∃ s, Calm s ∧ 0 ∈ s.stream.notified ∧ s.evictions[0]? = some (1, true) :=
    Reach.exists_of_trace [heartbeat 10, heartbeat 20, .completeReport 1 [10], .evict 1 true, .completeReport 1 [20]]
      (by decide +kernel) (fun s a s' h => ⟨0, Option.some.inj h⟩) (.start rfl)
  have hnot : s.FlushNotified 1 := ⟨0, hnot⟩
  exact ⟨s, hcalm, hnot, flush_notified_after_reports hcalm 1 hnot⟩

end SdkCore.Heartbeats
