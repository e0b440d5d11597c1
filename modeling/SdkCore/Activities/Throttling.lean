import SdkCore.Activities.Flushing

/-!
# What throttling keeps of the details

Details that come while a token is throttled replace each other. Until it is evicted, a token is not tracked, has a
report in flight, or has a sleep (`Stage`). The result is `throttling_keeps_details`.
-/

namespace SdkCore.Heartbeats

open HeartbeatStreamState

/-- What a message makes the executor do. -/
def actionOf (now : Nat) (s : Heartbeats) : HeartbeatAction → Option HeartbeatExecutorAction
  | .sendHeartbeat hb => (s.stream.record now hb).1
  | .evict token shouldFlush => (s.stream.evict token s.evictions.length shouldFlush).1
  | .completeReport token _ => (s.stream.handleReportCompleted now token).1
  | .completeThrottle token => (s.stream.handleThrottleCompleted now token).1

def reportOf : Option HeartbeatExecutorAction → List (TaskToken × Details)
  | some (.report tt details) => [(tt, details)]
  | _ => []

def sleepOf : Option HeartbeatExecutorAction → List (TaskToken × Nat)
  | some (.sleep tt _ cancellationToken) => [(tt, cancellationToken)]
  | _ => []

/-- The stream with the reports issued so far and the sleeps under way. -/
structure Throttled where
  hb : Heartbeats := {}
  issued : List (TaskToken × Details) := []
  sleeping : List (TaskToken × Nat) := []

namespace Throttled

def process (now : Nat) (s : Throttled) (action : HeartbeatAction) : Throttled where
  hb := s.hb.process now action
  issued := s.issued ++ reportOf (actionOf now s.hb action)
  sleeping :=
    (match action with
      | .completeThrottle token => s.sleeping.eraseP (·.1 = token)
      | _ => s.sleeping) ++ sleepOf (actionOf now s.hb action)

/-- Messages complete what is under way. A token is evicted once and has no heartbeats afterwards. -/
abbrev Reachable : Throttled → Prop :=
  Reach (fun s action s' => ∃ now, process now s action = s') (fun s action => s.hb.isDue action = true) (· = {})

def sleepsOf (l : List (TaskToken × Nat)) (tt : TaskToken) : List Nat := (l.filter (·.1 = tt)).map (·.2)

/-- The sleeps of a token that are not cancelled, and its reports in flight. -/
def wakeups (s : Throttled) (tt : TaskToken) : Nat :=
  (detailsOf s.hb.reports tt).length + ((sleepsOf s.sleeping tt).filter (· ∉ s.hb.stream.cancelled)).length

/-- The details of a token that wait for the end of the throttle interval. -/
def stored (s : Throttled) (tt : TaskToken) : Option Details :=
  (s.hb.stream.ttToState.lookup tt).bind (·.lastRecordedDetails)

theorem begin_stream (x : Option HeartbeatExecutorAction × HeartbeatStreamState) (s : Heartbeats) :
    (s.begin x).stream = x.2 := by
  unfold begin
  split <;> rfl

theorem begin_evictions (x : Option HeartbeatExecutorAction × HeartbeatStreamState) (s : Heartbeats) :
    (s.begin x).evictions = s.evictions := by
  unfold begin
  split <;> rfl

theorem begin_recorded (x : Option HeartbeatExecutorAction × HeartbeatStreamState) (s : Heartbeats) :
    (s.begin x).recorded = s.recorded := by
  unfold begin
  split <;> rfl

/-! ## One token -/

/-- What the stream holds and what happened for one token. -/
structure TokenView where
  state : Option ActivityHeartbeatState
  reports : List Details
  sleeps : Nat
  sleeping : List Nat
  recorded : List Details
  issued : List Details

def tokenView (s : Throttled) (tt : TaskToken) : TokenView where
  state := s.hb.stream.ttToState.lookup tt
  reports := detailsOf s.hb.reports tt
  sleeps := s.hb.sleeps.count tt
  sleeping := sleepsOf s.sleeping tt
  recorded := detailsOf s.hb.recorded tt
  issued := detailsOf s.issued tt

variable {now : Nat} {s : Throttled} {a b : TaskToken} {action : HeartbeatAction}

@[simp]
theorem sleepsOf_append (l l' : List (TaskToken × Nat)) : sleepsOf (l ++ l') a = sleepsOf l a ++ sleepsOf l' a := by
  simp [sleepsOf]

@[simp]
theorem sleepsOf_singleton_self (n : Nat) : sleepsOf [(a, n)] a = [n] := by
  simp [sleepsOf]

theorem sleepsOf_singleton_ne {n : Nat} (h : b ≠ a) : sleepsOf [(a, n)] b = [] := by
  simp [sleepsOf, Ne.symm h]

theorem sleepsOf_eraseP_self (l : List (TaskToken × Nat)) :
    sleepsOf (l.eraseP (·.1 = a)) a = (sleepsOf l a).tail := by
  induction l with
  | nil => rfl
  | cons x l ih =>
    by_cases hx : x.1 = a
    · simp [sleepsOf, hx]
    · simpa [sleepsOf, hx] using ih

theorem sleepsOf_eraseP_ne (l : List (TaskToken × Nat)) (h : b ≠ a) :
    sleepsOf (l.eraseP (·.1 = a)) b = sleepsOf l b := by
  induction l with
  | nil => rfl
  | cons x l ih =>
    by_cases hx : x.1 = a
    · simp [sleepsOf, hx, h.symm]
    · simp only [sleepsOf, List.eraseP_cons, hx, decide_false, cond_false, List.filter_cons] at ih ⊢
      split <;> simp [ih]

/-- A message changes only the view of its own token. -/
theorem tokenView_process_ne (hb : b ≠ action.token) : tokenView (process now s action) b = tokenView s b := by
  cases action with
  | sendHeartbeat hb' =>
    have hne : b ≠ hb'.taskToken := hb
    cases hs : s.hb.stream.ttToState.lookup hb'.taskToken <;>
      simp [tokenView, process, Heartbeats.process, actionOf, record, hs, begin, reportOf, sleepOf,
        detailsOf_singleton_ne, hne]
  | evict token shouldFlush =>
    have hne : b ≠ token := hb
    simp only [tokenView, process, Heartbeats.process, actionOf, evict]
    split
    · simp [begin, reportOf, sleepOf]
    · split
      · simp [begin, reportOf, sleepOf, detailsOf_singleton_ne, hne]
      · split <;> simp [begin, reportOf, sleepOf, hne]
  | completeReport token details =>
    have hne : b ≠ token := hb
    cases hs : s.hb.stream.ttToState.lookup token <;>
      simp [tokenView, process, Heartbeats.process, actionOf, handleReportCompleted, hs, begin,
        reportOf, sleepOf, detailsOf_erase_ne, sleepsOf_singleton_ne, hne, hne.symm]
  | completeThrottle token =>
    have hne : b ≠ token := hb
    simp only [tokenView, process, Heartbeats.process, actionOf, handleThrottleCompleted]
    split
    · simp [begin, reportOf, sleepOf, sleepsOf_eraseP_ne, hne]
    · split <;> simp [begin, reportOf, sleepOf, sleepsOf_eraseP_ne, detailsOf_singleton_ne, hne]

/-! ## The details of one token -/

/-- Reports are recorded details, with the first. The latest are stored or were reported. -/
structure Flow (recorded issued : List Details) (stored : Option Details) : Prop where
  first : issued.head? = recorded.head?
  pending : ∀ d ∈ stored, ∃ pre, recorded = pre ++ [d] ∧ issued.Sublist pre
  all : stored = none → issued.Sublist recorded ∧ issued.getLast? = recorded.getLast?

section

variable {recorded issued : List Details} {stored : Option Details} {d : Details}

/-- Details are not reordered. -/
theorem Flow.sublist (h : Flow recorded issued stored) : issued.Sublist recorded := by
  cases stored with
  | none => exact (h.all rfl).1
  | some d =>
    obtain ⟨pre, rfl, hsub⟩ := h.pending d rfl
    exact hsub.trans (List.sublist_append_left _ _)

/-- New details replace those that are stored. -/
theorem Flow.store (h : Flow recorded issued stored) (hne : issued ≠ []) : Flow (recorded ++ [d]) issued (some d) := by
  refine ⟨?_, fun d' hd => ?_, fun hc => by cases hc⟩
  · have hrec : recorded ≠ [] := by
      rintro rfl
      exact hne (List.sublist_nil.mp h.sublist)
    rw [h.first, List.head?_append_of_ne_nil _ hrec]
  · cases hd
    exact ⟨recorded, rfl, h.sublist⟩

theorem Flow.report (h : Flow recorded issued none) : Flow (recorded ++ [d]) (issued ++ [d]) none := by
  refine ⟨?_, fun d' hd => (by cases hd), fun _ => ⟨h.sublist.append (.refl _), by simp⟩⟩
  rw [List.head?_append, List.head?_append, h.first]

theorem Flow.send (h : Flow recorded issued (some d)) : Flow recorded (issued ++ [d]) none := by
  obtain ⟨pre, rfl, hsub⟩ := h.pending d rfl
  refine ⟨?_, fun d' hd => (by cases hd), fun _ => ⟨hsub.append (.refl _), by simp⟩⟩
  cases issued with
  | nil =>
    have hfirst := h.first
    cases pre with
    | nil => rfl
    | cons x pre => cases hfirst
  | cons x issued => simpa using h.first

end

/-- The stages of a token that is not evicted. -/
inductive Stage (v : TokenView) : Prop
  | untracked (hs : v.state = none) (hr : v.reports = []) (hn : v.sleeps = 0) (hz : v.sleeping = [])
      (hf : Flow v.recorded v.issued none)
  | reporting (st : ActivityHeartbeatState) (d : Details) (hs : v.state = some st) (hr : v.reports = [d])
      (hn : v.sleeps = 0) (hz : v.sleeping = []) (hi : v.issued ≠ [])
      (hf : Flow v.recorded v.issued st.lastRecordedDetails)
  | throttled (st : ActivityHeartbeatState) (n : Nat) (hs : v.state = some st)
      (ht : st.throttledCancellationToken = some n) (hr : v.reports = []) (hn : v.sleeps = 1) (hz : v.sleeping = [n])
      (hi : v.issued ≠ []) (hf : Flow v.recorded v.issued st.lastRecordedDetails)

/-- A heartbeat keeps its token in a stage. -/
theorem stage_sendHeartbeat (hb : ValidActivityHeartbeat) (h : Stage (tokenView s hb.taskToken)) :
    Stage (tokenView (process now s (.sendHeartbeat hb)) hb.taskToken) := by
  -- Later details only replace those that are stored.
  have hlater : ∀ st, s.hb.stream.ttToState.lookup hb.taskToken = some st →
      tokenView (process now s (.sendHeartbeat hb)) hb.taskToken = { tokenView s hb.taskToken with
        state := some { st with lastRecordedDetails := some hb.details, timeoutResetter := hb.timeoutResetter }
        recorded := (tokenView s hb.taskToken).recorded ++ [hb.details] } := by
    intro st hs
    simp [tokenView, process, Heartbeats.process, actionOf, record, hs, begin, reportOf, sleepOf]
  cases h with
  | untracked hs hr hn hz hf =>
    have hfirst : tokenView (process now s (.sendHeartbeat hb)) hb.taskToken = { tokenView s hb.taskToken with
        state := some (firstState now hb)
        reports := (tokenView s hb.taskToken).reports ++ [hb.details]
        recorded := (tokenView s hb.taskToken).recorded ++ [hb.details]
        issued := (tokenView s hb.taskToken).issued ++ [hb.details] } := by
      have hs : s.hb.stream.ttToState.lookup hb.taskToken = none := hs
      simp [tokenView, process, Heartbeats.process, actionOf, record, hs, begin, reportOf, sleepOf,
        firstState]
    rw [hfirst]
    exact .reporting _ hb.details rfl (by simp [hr]) hn hz (by simp) hf.report
  | reporting st d hs hr hn hz hi hf =>
    rw [hlater st hs]
    exact .reporting _ d rfl hr hn hz hi (hf.store hi)
  | throttled st n hs ht hr hn hz hi hf =>
    rw [hlater st hs]
    exact .throttled _ n rfl ht hr hn hz hi (hf.store hi)

/-- The end of a report keeps its token in a stage. -/
theorem stage_completeReport {d : Details} (h : Stage (tokenView s a))
    (hdue : s.hb.isDue (.completeReport a d) = true) :
    Stage (tokenView (process now s (.completeReport a d)) a) := by
  have hmem : d ∈ (tokenView s a).reports := by simpa [isDue, tokenView, mem_detailsOf] using hdue
  cases h with
  | reporting st d' hs hr hn hz hi hf =>
    rw [hr, List.mem_singleton] at hmem
    subst hmem
    have hs' : s.hb.stream.ttToState.lookup a = some st := hs
    have hsleeps : tokenView (process now s (.completeReport a d)) a = { tokenView s a with
        state := some { st with
          isRecordInFlight := false, throttledCancellationToken := some s.hb.stream.childTokens }
        reports := (tokenView s a).reports.erase d
        sleeps := (tokenView s a).sleeps + 1
        sleeping := (tokenView s a).sleeping ++ [s.hb.stream.childTokens] } := by
      simp [tokenView, process, Heartbeats.process, actionOf, handleReportCompleted, hs', begin,
        reportOf, sleepOf, detailsOf_erase_self]
    rw [hsleeps]
    exact .throttled _ _ rfl rfl (by simp [hr]) (by simp [hn]) (by simp [hz]) hi hf
  | untracked hs hr | throttled st n hs ht hr => simp [hr] at hmem

/-- The end of a throttle interval keeps its token in a stage. -/
theorem stage_completeThrottle (h : Stage (tokenView s a)) (hdue : s.hb.isDue (.completeThrottle a) = true) :
    Stage (tokenView (process now s (.completeThrottle a)) a) := by
  have hmem : a ∈ s.hb.sleeps := by simpa [isDue] using hdue
  have hsleeps : (tokenView s a).sleeps ≠ 0 := by simpa [tokenView, List.count_eq_zero] using hmem
  cases h with
  | throttled st n hs ht hr hn hz hi hf =>
    have hs' : s.hb.stream.ttToState.lookup a = some st := hs
    cases hd : st.lastRecordedDetails with
    | none =>
      have hgone : tokenView (process now s (.completeThrottle a)) a = { tokenView s a with
          state := none, sleeps := (tokenView s a).sleeps - 1, sleeping := (tokenView s a).sleeping.tail } := by
        simp [tokenView, process, Heartbeats.process, actionOf, handleThrottleCompleted, hs', hd, begin,
          reportOf, sleepOf, sleepsOf_eraseP_self]
      rw [hgone]
      exact .untracked rfl hr (by simp [hn]) (by simp [hz]) (hd ▸ hf)
    | some d =>
      have hsent : tokenView (process now s (.completeThrottle a)) a = { tokenView s a with
          state := some { st with
            lastRecordedDetails := none, throttledCancellationToken := none, lastSendRequested := now
            isRecordInFlight := true }
          reports := (tokenView s a).reports ++ [d], sleeps := (tokenView s a).sleeps - 1
          sleeping := (tokenView s a).sleeping.tail, issued := (tokenView s a).issued ++ [d] } := by
        simp [tokenView, process, Heartbeats.process, actionOf, handleThrottleCompleted, hs', hd, begin,
          reportOf, sleepOf, sleepsOf_eraseP_self]
      rw [hsent]
      exact .reporting _ d rfl (by simp [hr]) (by simp [hn]) (by simp [hz]) (by simp) (Flow.send (hd ▸ hf))
  | untracked hs hr hn | reporting st d hs hr hn => exact absurd hn hsleeps

theorem isEvicted_process (h : (process now s action).hb.isEvicted a = false) :
    s.hb.isEvicted a = false ∧ ∀ shouldFlush, action ≠ .evict a shouldFlush := by
  cases action with
  | evict token shouldFlush =>
    simp only [process, Heartbeats.process, isEvicted, begin_evictions, List.any_append, Bool.or_eq_false_iff] at h
    refine ⟨h.1, ?_⟩
    rintro _ heq
    cases heq
    simp at h
  | sendHeartbeat | completeReport | completeThrottle =>
    simp only [process, Heartbeats.process, isEvicted, begin_evictions] at h
    exact ⟨h, by simp⟩

/-- A message keeps all tokens in their stages. -/
theorem stage_process (h : ∀ tt, s.hb.isEvicted tt = false → Stage (tokenView s tt)) (hdue : s.hb.isDue action = true) :
    ∀ tt, (process now s action).hb.isEvicted tt = false → Stage (tokenView (process now s action) tt) := by
  intro tt hev
  obtain ⟨hold, hnot⟩ := isEvicted_process hev
  by_cases ht : tt = action.token
  · subst ht
    cases action with
    | sendHeartbeat hb => exact stage_sendHeartbeat hb (h _ hold)
    | evict token shouldFlush => exact absurd rfl (hnot shouldFlush)
    | completeReport token details => exact stage_completeReport (h _ hold) hdue
    | completeThrottle token => exact stage_completeThrottle (h _ hold) hdue
  · rw [tokenView_process_ne ht]
    exact h tt hold

/-! ## Sleeps are not cancelled before the eviction -/

/-- The cancellation token of the sleep of a token. -/
def cancelsSleep (states : AList fun _ : TaskToken => ActivityHeartbeatState) (tt : TaskToken) : Option Nat :=
  (states.lookup tt).bind (·.throttledCancellationToken)

/-- Tokens for sleeps are not cancelled while they are kept, and differ. -/
structure Live (s : HeartbeatStreamState) : Prop where
  uncancelled : ∀ tt n, cancelsSleep s.ttToState tt = some n → n < s.childTokens ∧ n ∉ s.cancelled
  unique : ∀ tt tt' n, cancelsSleep s.ttToState tt = some n → cancelsSleep s.ttToState tt' = some n → tt = tt'
  old : ∀ n ∈ s.cancelled, n < s.childTokens

theorem Live.shrink {s s' : HeartbeatStreamState} (h : Live s) (hc : s'.childTokens = s.childTokens)
    (hx : s'.cancelled = s.cancelled) (hs : ∀ tt n, cancelsSleep s'.ttToState tt = some n →
      cancelsSleep s.ttToState tt = some n) :
    Live s' := by
  refine ⟨fun tt n hn => ?_, fun tt tt' n hn hn' => h.unique tt tt' n (hs tt n hn) (hs tt' n hn'), ?_⟩
  · rw [hc, hx]
    exact h.uncancelled tt n (hs tt n hn)
  · rw [hc, hx]
    exact h.old

/-- A token that is cancelled is not kept. -/
theorem Live.cancel {s s' : HeartbeatStreamState} (h : Live s) (hc : s'.childTokens = s.childTokens)
    (hx : s'.cancelled = s.cancelled ++ (cancelsSleep s.ttToState a).toList)
    (hs : ∀ tt n, cancelsSleep s'.ttToState tt = some n → tt ≠ a ∧ cancelsSleep s.ttToState tt = some n) : Live s' := by
  refine ⟨fun tt n hn => ?_, fun tt tt' n hn hn' => h.unique tt tt' n (hs tt n hn).2 (hs tt' n hn').2, fun n hn => ?_⟩
  · obtain ⟨hne, hn⟩ := hs tt n hn
    obtain ⟨hlt, hnot⟩ := h.uncancelled tt n hn
    rw [hc, hx, List.mem_append, Option.mem_toList]
    exact ⟨hlt, fun hm => hm.elim hnot fun ha => hne (h.unique tt a n hn ha)⟩
  · rw [hx, List.mem_append, Option.mem_toList] at hn
    rw [hc]
    exact hn.elim (h.old n) fun ha => (h.uncancelled a n ha).1

theorem Live.sleep {s s' : HeartbeatStreamState} (h : Live s) (hc : s'.childTokens = s.childTokens + 1)
    (hx : s'.cancelled = s.cancelled)
    (hs : ∀ tt n, cancelsSleep s'.ttToState tt = some n → tt = a ∧ n = s.childTokens ∨
      cancelsSleep s.ttToState tt = some n) : Live s' := by
  have hlt : ∀ tt n, cancelsSleep s.ttToState tt = some n → n ≠ s.childTokens :=
    fun tt n hn => Nat.ne_of_lt (h.uncancelled tt n hn).1
  refine ⟨fun tt n hn => ?_, fun tt tt' n hn hn' => ?_, fun n hn => ?_⟩
  · rw [hc, hx]
    rcases hs tt n hn with ⟨-, rfl⟩ | hn
    · exact ⟨Nat.lt_succ_self _, fun hm => Nat.lt_irrefl _ (h.old _ hm)⟩
    · exact ⟨Nat.lt_succ_of_lt (h.uncancelled tt n hn).1, (h.uncancelled tt n hn).2⟩
  · rcases hs tt n hn with ⟨rfl, rfl⟩ | hn
    · rcases hs tt' _ hn' with ⟨rfl, -⟩ | hn'
      · rfl
      · exact absurd rfl (hlt tt' _ hn')
    · rcases hs tt' n hn' with ⟨rfl, rfl⟩ | hn'
      · exact absurd rfl (hlt tt _ hn)
      · exact h.unique tt tt' n hn hn'
  · rw [hx] at hn
    rw [hc]
    exact Nat.lt_succ_of_lt (h.old n hn)

section

variable {states : AList fun _ : TaskToken => ActivityHeartbeatState}

theorem cancelsSleep_insert (st : ActivityHeartbeatState) (tt : TaskToken) :
    cancelsSleep (states.insert a st) tt = if tt = a then st.throttledCancellationToken
      else cancelsSleep states tt := by
  unfold cancelsSleep
  split
  · next h =>
    subst h
    simp
  · next h => simp [AList.lookup_insert_ne h]

theorem cancelsSleep_erase {tt : TaskToken} {n : Nat} (h : cancelsSleep (states.erase a) tt = some n) :
    tt ≠ a ∧ cancelsSleep states tt = some n := by
  unfold cancelsSleep at h ⊢
  by_cases ht : tt = a
  · subst ht
    simp at h
  · exact ⟨ht, by simpa [AList.lookup_erase_ne ht] using h⟩

end

section

variable {s : HeartbeatStreamState}

theorem Live.insert (h : Live s) {st st' : ActivityHeartbeatState} (hs : s.ttToState.lookup a = some st)
    (ht : ∀ n, st'.throttledCancellationToken = some n → st.throttledCancellationToken = some n) :
    Live { s with ttToState := s.ttToState.insert a st' } := by
  refine h.shrink rfl rfl fun tt n hn => ?_
  rw [cancelsSleep_insert] at hn
  split at hn
  · next he =>
    subst he
    simpa [cancelsSleep, hs] using ht n hn
  · exact hn

theorem live_record (h : Live s) (hb : ValidActivityHeartbeat) : Live (s.record now hb).2 := by
  unfold record
  split
  · refine h.shrink rfl rfl fun tt n hn => ?_
    rw [cancelsSleep_insert] at hn
    split at hn
    · cases hn
    · exact hn
  · next st hs => exact h.insert hs fun n hn => hn

theorem live_handleReportCompleted (h : Live s) : Live (s.handleReportCompleted now a).2 := by
  have hflush : Live { s with
      notified := s.notified ++ (s.ttNeedsFlush.lookup a).toList, ttNeedsFlush := s.ttNeedsFlush.erase a } :=
    h.shrink rfl rfl fun tt n hn => hn
  unfold handleReportCompleted
  simp only []
  split
  · exact hflush
  · refine hflush.sleep (a := a) rfl rfl fun tt n hn => ?_
    rw [cancelsSleep_insert] at hn
    split at hn
    · next ht =>
      cases hn
      exact .inl ⟨ht, rfl⟩
    · exact .inr hn

theorem live_handleThrottleCompleted (h : Live s) : Live (s.handleThrottleCompleted now a).2 := by
  unfold handleThrottleCompleted
  split
  · exact h
  · next st hs =>
    split
    · exact h.insert hs fun n hn => by cases hn
    · exact h.shrink rfl rfl fun tt n hn => (cancelsSleep_erase hn).2

theorem live_evict (h : Live s) {onComplete : Nat} {f : Bool} : Live (s.evict a onComplete f).2 := by
  unfold evict
  split
  · exact h.shrink rfl rfl fun tt n hn => hn
  · next st hs =>
    have htok : cancelsSleep s.ttToState a = st.throttledCancellationToken := by simp [cancelsSleep, hs]
    have hcancel : ∀ s' : HeartbeatStreamState, s'.childTokens = s.childTokens →
        s'.cancelled = s.cancelled ++ st.throttledCancellationToken.toList → s'.ttToState = s.ttToState.erase a →
          Live s' := by
      intro s' hc hx hs'
      rw [← htok] at hx
      refine h.cancel hc hx fun tt n hn => cancelsSleep_erase ?_
      rwa [hs'] at hn
    split
    · exact hcancel _ rfl rfl rfl
    · split <;> exact hcancel _ rfl rfl rfl

end

/-- Messages keep the sleeps alive. -/
theorem live_process {s : Throttled} (h : Live s.hb.stream) : Live (process now s action).hb.stream := by
  simp only [process]
  cases action with
  | sendHeartbeat hb =>
    simp only [Heartbeats.process, begin_stream]
    exact live_record h hb
  | evict token shouldFlush =>
    simp only [Heartbeats.process, begin_stream]
    exact live_evict h
  | completeReport token details =>
    simp only [Heartbeats.process, begin_stream]
    exact live_handleReportCompleted h
  | completeThrottle token =>
    simp only [Heartbeats.process, begin_stream]
    exact live_handleThrottleCompleted h

/-! ## Every run -/

theorem Reachable.stage (h : Reachable s) :
    Live s.hb.stream ∧ ∀ tt, s.hb.isEvicted tt = false → Stage (tokenView s tt) := by
  refine Reach.invariant
    (I := fun s => Live s.hb.stream ∧ ∀ tt, s.hb.isEvicted tt = false → Stage (tokenView s tt)) ?_ ?_ h
  · rintro s rfl
    refine ⟨⟨?_, ?_, ?_⟩, fun tt _ => .untracked rfl rfl rfl rfl ⟨rfl, ?_, ?_⟩⟩
    · simp [cancelsSleep]
    · simp [cancelsSleep]
    · simp
    · simp
    · exact fun _ => ⟨.refl _, rfl⟩
  · rintro s action s' ⟨hlive, hstage⟩ hdue ⟨now, rfl⟩
    exact ⟨live_process hlive, stage_process hstage hdue⟩

theorem Stage.flow (h : Stage (tokenView s a)) :
    Flow (detailsOf s.hb.recorded a) (detailsOf s.issued a) (s.stored a) := by
  have hstored : ∀ {state}, (tokenView s a).state = state → s.stored a = state.bind (·.lastRecordedDetails) := by
    rintro state rfl
    rfl
  cases h with
  | untracked hs hr hn hz hf | reporting st d hs hr hn hz hi hf | throttled st n hs ht hr hn hz hi hf =>
    rw [hstored hs]
    exact hf

/-- A token that is tracked has one wake-up. -/
theorem Stage.wakeups_eq (h : Stage (tokenView s a)) (hlive : Live s.hb.stream) :
    (detailsOf s.hb.reports a).length ≤ 1 ∧
      s.wakeups a = if (s.hb.stream.ttToState.lookup a).isSome then 1 else 0 := by
  have hview : s.wakeups a = (tokenView s a).reports.length +
      ((tokenView s a).sleeping.filter (· ∉ s.hb.stream.cancelled)).length := rfl
  have hreports : detailsOf s.hb.reports a = (tokenView s a).reports := rfl
  rw [hview, hreports]
  cases h with
  | untracked hs hr hn hz hf =>
    have hs' : s.hb.stream.ttToState.lookup a = none := hs
    simp [hr, hz, hs']
  | reporting st d hs hr hn hz hi hf =>
    have hs' : s.hb.stream.ttToState.lookup a = some st := hs
    simp [hr, hz, hs']
  | throttled st n hs ht hr hn hz hi hf =>
    have hs' : s.hb.stream.ttToState.lookup a = some st := hs
    have hn : n ∉ s.hb.stream.cancelled := (hlive.uncancelled a n (by simp [cancelsSleep, hs', ht])).2
    simp [hr, hz, hs', hn]

theorem actionOf_completeThrottle {d : Details} (h : s.stored a = some d) :
    actionOf now s.hb (.completeThrottle a) = some (.report a d) := by
  obtain ⟨st, hs, hd⟩ := Option.bind_eq_some_iff.mp h
  simp [actionOf, handleThrottleCompleted, hs, hd]

theorem reportOf_actionOf {d : Details} (h : reportOf (actionOf now s.hb action) = [(a, d)]) :
    detailsOf (process now s action).hb.recorded a = detailsOf s.hb.recorded a ++ [d] ∨
      detailsOf (process now s action).hb.recorded a = detailsOf s.hb.recorded a ∧ s.stored a = some d := by
  cases action with
  | sendHeartbeat hb =>
    simp only [actionOf, record] at h
    split at h
    · cases h
      simp [process, Heartbeats.process, begin_recorded]
    · cases h
  | evict token shouldFlush =>
    simp only [actionOf, evict] at h
    split at h
    · cases h
    · next st hs =>
      split at h
      · next hd =>
        cases h
        exact .inr ⟨by simp [process, Heartbeats.process, begin_recorded], by simp [stored, hs, hd]⟩
      · split at h <;> cases h
  | completeReport token details =>
    simp only [actionOf, handleReportCompleted] at h
    split at h <;> cases h
  | completeThrottle token =>
    simp only [actionOf, handleThrottleCompleted] at h
    split at h
    · cases h
    · next st hs =>
      split at h
      · next hd =>
        cases h
        exact .inr ⟨by simp [process, Heartbeats.process, begin_recorded], by simp [stored, hs, hd]⟩
      · cases h

/-- **Throttling neither loses nor reorders details.** Until a token is evicted, the details reported are some of those
recorded, in order and with the first. At most one report is in flight, and the latest details are stored for the end of
the interval or were reported. -/
theorem throttling_keeps_details (h : Reachable s) {tt : TaskToken} (hev : s.hb.isEvicted tt = false) :
    ((detailsOf s.issued tt).Sublist (detailsOf s.hb.recorded tt) ∧
      (detailsOf s.issued tt).head? = (detailsOf s.hb.recorded tt).head?) ∧
    ((detailsOf s.hb.reports tt).length ≤ 1 ∧
      s.wakeups tt = if (s.hb.stream.ttToState.lookup tt).isSome then 1 else 0) ∧
    (∀ d, (detailsOf s.hb.recorded tt).getLast? = some d →
      s.stored tt = some d ∧ (detailsOf s.issued tt).Sublist (detailsOf s.hb.recorded tt).dropLast ∧
          (∀ now, actionOf now s.hb (.completeThrottle tt) = some (.report tt d)) ∨
        s.stored tt = none ∧ (detailsOf s.issued tt).getLast? = some d) ∧
    ∀ now action d, reportOf (actionOf now s.hb action) = [(tt, d)] →
      (detailsOf (process now s action).hb.recorded tt).getLast? = some d := by
  obtain ⟨hlive, hstage⟩ := h.stage
  have hst := hstage tt hev
  have hflow := hst.flow
  refine ⟨⟨hflow.sublist, hflow.first⟩, hst.wakeups_eq hlive, fun d hd => ?_, fun now action d hr => ?_⟩
  · cases hs : s.stored tt with
    | none => exact .inr ⟨rfl, (hflow.all hs).2.trans hd⟩
    | some d' =>
      obtain ⟨pre, hpre, hsub⟩ := hflow.pending d' hs
      rw [hpre] at hd ⊢
      obtain rfl : d' = d := by simpa using hd
      exact .inl ⟨rfl, by simpa using hsub, fun now => actionOf_completeThrottle hs⟩
  · rcases reportOf_actionOf hr with hrec | ⟨hrec, hs⟩
    · simp [hrec]
    · obtain ⟨pre, hpre, -⟩ := hflow.pending d hs
      simp [hrec, hpre]

/-- Two heartbeats come during the first report. Only the latest is reported. -/
theorem throttled_latest_reported :
    ∃ s, Reachable s ∧ detailsOf s.hb.recorded 1 = [[10], [20], [30]] ∧ detailsOf s.issued 1 = [[10], [30]] ∧
      (detailsOf s.issued 1).Sublist (detailsOf s.hb.recorded 1) ∧ s.wakeups 1 = 1 := by
  obtain ⟨s, hs, hrec, hiss, hev, htracked⟩ : ∃ s, Reachable s ∧ detailsOf s.hb.recorded 1 = [[10], [20], [30]] ∧
      detailsOf s.issued 1 = [[10], [30]] ∧ s.hb.isEvicted 1 = false ∧ (s.hb.stream.ttToState.lookup 1).isSome = true :=
    Reach.exists_of_trace [heartbeat 10, heartbeat 20, heartbeat 30, .completeReport 1 [10], .completeThrottle 1]
      (by decide +kernel) (fun s a s' h => ⟨0, Option.some.inj h⟩) (.start rfl)
  obtain ⟨⟨hsub, -⟩, ⟨-, hwake⟩, -⟩ := throttling_keeps_details hs hev
  exact ⟨s, hs, hrec, hiss, hsub, by rw [hwake, htracked]; rfl⟩

end Throttled

end SdkCore.Heartbeats
