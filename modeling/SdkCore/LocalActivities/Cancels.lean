import SdkCore.LocalActivities.Starts

/-!
# Cancels on their way to lang

A cancel is queued until `nextPending` hands it to lang. When it goes away, the run is notified or gets a resolution
(`process_delivers`).
-/

namespace SdkCore

open Maps

namespace LocalActivityManager

/-- Lang was not told yet about the cancel of an attempt of the run. -/
def Undelivered (run : RunId) (s : LocalActivityManager) : Prop :=
  ∃ tt info, s.outstandingActivityTasks.lookup tt = some info ∧ info.laInfo.runId = run ∧ info.cancel = .queued

/-- What the run asks before its eviction. -/
theorem hasUndeliveredCancels_iff {run : RunId} {s : LocalActivityManager} :
    s.hasUndeliveredCancels run = true ↔ Undelivered run s := by
  simp only [hasUndeliveredCancels, List.any_eq_true, LocalInFlightActInfo.hasUndeliveredCancel, Bool.and_eq_true,
    decide_eq_true_eq, Undelivered]
  constructor
  · rintro ⟨info, hmem, hi⟩
    obtain ⟨tt, hl⟩ := mem_values.mp hmem
    exact ⟨tt, info, hl, hi⟩
  · rintro ⟨tt, info, hl, hi⟩
    exact ⟨info, mem_values.mpr ⟨tt, hl⟩, hi⟩

/-! ## Requests of runs -/

/-- Neither the attempts that lang holds nor the notifications change. -/
structure Untouched (s s' : LocalActivityManager) : Prop where
  outstanding : s'.outstandingActivityTasks = s.outstandingActivityTasks
  notifications : s'.workflowNotifications = s.workflowNotifications

theorem Untouched.undelivered {s s' : LocalActivityManager} (h : Untouched s s') (run : RunId) :
    Undelivered run s' ↔ Undelivered run s := by
  unfold Undelivered
  rw [h.outstanding]

theorem setShutdownCompleteIfReady_untouched (s : LocalActivityManager) : Untouched s s.setShutdownCompleteIfReady := by
  obtain ⟨b, h⟩ := setShutdownCompleteIfReady_eq s
  rw [h]
  exact ⟨rfl, rfl⟩

theorem enqueueNew_untouched (act : NewLocalAct) (s : LocalActivityManager) : Untouched s (s.enqueueNew act).2 := by
  unfold enqueueNew
  simp only [genNextToken]
  split
  · exact ⟨rfl, rfl⟩
  · split
    · next tb s' hb =>
      obtain ⟨timers, -, rfl⟩ := newTimeoutBag_bagged hb
      exact ⟨rfl, rfl⟩
    · exact ⟨rfl, rfl⟩

/-- A cancel queues a message for lang or leaves the attempts alone. -/
inductive CancelHeld (id : ExecutingLAId) (s s' : LocalActivityManager) : Prop
  | untouched (h : Untouched s s')
  | queued (lai : LocalActivityInfo) (info : LocalInFlightActInfo) (h : s.laInfo.lookup id = some lai)
      (hi : s.outstandingActivityTasks.lookup lai.taskToken = some info) (hc : info.cancel = .notRequested)
      (hs : s'.outstandingActivityTasks = s.outstandingActivityTasks.insert lai.taskToken
        { info with cancel := .queued })
      (hn : s'.workflowNotifications = s.workflowNotifications)

theorem cancelLa_held (id : ExecutingLAId) (s : LocalActivityManager) : CancelHeld id s (cancelLa id s).2.2 := by
  have h := cancelLa_cancelled id s
  generalize cancelLa id s = x at h
  cases h with
  | missing | again => exact .untouched ⟨rfl, rfl⟩
  | queued lai info h hb hi hc => exact .queued lai info h hi hc rfl rfl
  | removed lai h ho hr hn hs => exact .untouched ⟨congrArg Ledger.outstanding hs, hn⟩

section

variable {run : RunId} {id : ExecutingLAId} {s s' : LocalActivityManager}

theorem CancelHeld.notifications (h : CancelHeld id s s') : s'.workflowNotifications = s.workflowNotifications := by
  cases h with
  | untouched h => exact h.notifications
  | queued _ _ _ _ _ _ hn => exact hn

theorem CancelHeld.undelivered (h : CancelHeld id s s') (hu : Undelivered run s) : Undelivered run s' := by
  cases h with
  | untouched h => exact (h.undelivered run).mpr hu
  | queued lai info h hi hc hs hn =>
    obtain ⟨tt, info', hi', hrun, hq⟩ := hu
    refine ⟨tt, info', ?_, hrun, hq⟩
    rw [hs, lookup_insert_ite, if_neg]
    · exact hi'
    · rintro rfl
      rw [hi] at hi'
      cases hi'
      rw [hc] at hq
      cases hq

theorem CancelHeld.notUndelivered (h : CancelHeld id s s') (ht : Tracked s.ledger) (hid : id.runId ≠ run)
    (hu : Undelivered run s') : Undelivered run s := by
  cases h with
  | untouched h => exact (h.undelivered run).mp hu
  | queued lai info h hi hc hs hn =>
    obtain ⟨tt, info', hi', hrun, hq⟩ := hu
    rw [hs, lookup_insert_ite] at hi'
    split at hi'
    · cases hi'
      obtain ⟨lai', hl', htok⟩ := ht.entry _ info hi
      have heq : info.laInfo.id = id := ht.unique _ _ lai' lai hl' h htok
      exact absurd (heq ▸ hrun) hid
    · exact ⟨tt, info', hi', hrun, hq⟩

/-- Queued cancels of a run stay, and only its own requests add some. -/
structure Asks (run : RunId) (own : Prop) (s s' : LocalActivityManager) : Prop where
  notifications : s'.workflowNotifications = s.workflowNotifications
  kept : Undelivered run s → Undelivered run s'
  none : ¬ own → Undelivered run s' → Undelivered run s

variable {own : Prop} {t : LocalActivityManager}

theorem Asks.of_eq (ho : s'.outstandingActivityTasks = s.outstandingActivityTasks)
    (hn : s'.workflowNotifications = s.workflowNotifications) : Asks run own s s' := by
  have h : Untouched s s' := ⟨ho, hn⟩
  exact ⟨hn, (h.undelivered run).mpr, fun _ => (h.undelivered run).mp⟩

theorem Asks.trans (h : Asks run own s t) (h' : Asks run own t s') : Asks run own s s' :=
  ⟨h'.notifications.trans h.notifications, h'.kept ∘ h.kept, fun ho => h.none ho ∘ h'.none ho⟩

theorem cancelLa_asks (ht : Tracked s.ledger) (id : ExecutingLAId) :
    Asks run (id.runId = run) s (cancelLa id s).2.2 := by
  have h := cancelLa_held id s
  exact ⟨h.notifications, h.undelivered, h.notUndelivered ht⟩

theorem enqueueCancel_asks (ht : Tracked s.ledger) (id : ExecutingLAId) :
    Asks run (id.runId = run) s (s.enqueueCancel id).2 := by
  have h : Asks run _ s _ := cancelLa_asks ht id
  unfold enqueueCancel
  generalize cancelLa id s = x at h
  simp only
  split
  · refine h.trans (.of_eq ?_ ?_)
    · exact (setShutdownCompleteIfReady_untouched _).outstanding
    · exact (setShutdownCompleteIfReady_untouched _).notifications
  · exact h.trans (.of_eq rfl rfl)

theorem cancelAllInRun_asks (ht : Tracked s.ledger) (run' : RunId) :
    Asks run (run' = run) s (s.cancelAllInRun run') := by
  have hfold : ∀ (ids : List ExecutingLAId) (s : LocalActivityManager), (∀ id ∈ ids, id.runId = run') →
      Tracked s.ledger → Asks run (run' = run) s (ids.foldl (fun s id => (cancelLa id s).2.2) s) := by
    intro ids
    induction ids with
    | nil => exact fun s _ _ => .of_eq rfl rfl
    | cons id ids ih =>
      intro s hids ht
      have h : Asks run _ s _ := cancelLa_asks ht id
      rw [hids id List.mem_cons_self] at h
      exact h.trans (ih _ (fun id hid => hids id (List.mem_cons_of_mem _ hid)) ((cancelLa_moves id s).tracked ht))
  have h := hfold (s.laInfo.keys.filter (·.runId = run')) s (fun id hid => by simpa using (List.mem_filter.mp hid).2) ht
  unfold cancelAllInRun
  simp only []
  split
  · have hb := setShutdownCompleteIfReady_untouched
      ((s.laInfo.keys.filter (·.runId = run')).foldl (fun s id => (cancelLa id s).2.2) s)
    exact h.trans (.of_eq hb.outstanding hb.notifications)
  · exact h

theorem invalidateRun_asks {run' : RunId} (hne : run' ≠ run) : Asks run own s (s.invalidateRun run') := by
  have hu : Undelivered run (s.invalidateRun run') ↔ Undelivered run s := by
    refine ((setShutdownCompleteIfReady_untouched _).undelivered run).trans ?_
    simp only [Undelivered, abort, lookup_retain, Option.filter_eq_some_iff]
    constructor
    · rintro ⟨tt, info, ⟨hi, -⟩, hrun, hq⟩
      exact ⟨tt, info, hi, hrun, hq⟩
    · rintro ⟨tt, info, hi, rfl, hq⟩
      exact ⟨tt, info, ⟨hi, by simpa using hne.symm⟩, rfl, hq⟩
  exact ⟨(setShutdownCompleteIfReady_untouched _).notifications, hu.mpr, fun _ => hu.mp⟩

def LocalActRequest.runId : LocalActRequest → RunId
  | .new act => act.runId
  | .cancel id => id.runId
  | .cancelAllInRun runId => runId
  | .invalidateRun runId => runId
  | .startHeartbeatTimeout runId _ => runId
  | .indicateWorkflowTaskCompleted runId => runId

theorem enqueue_asks (ht : Tracked s.ledger) {req : LocalActRequest} (hreq : req ≠ .invalidateRun run) :
    Asks run (req.runId = run) s (s.enqueue [req]).2 := by
  simp only [enqueue, List.foldl_cons, List.foldl_nil]
  split
  · exact .of_eq rfl rfl
  · cases req with
    | new act => exact .of_eq (enqueueNew_untouched act s).outstanding (enqueueNew_untouched act s).notifications
    | cancel id => exact enqueueCancel_asks ht id
    | cancelAllInRun run' => exact cancelAllInRun_asks ht run'
    | invalidateRun run' => exact invalidateRun_asks fun h => hreq (h ▸ rfl)
    | startHeartbeatTimeout | indicateWorkflowTaskCompleted => exact .of_eq rfl rfl

end

/-! ## Everything else -/

end LocalActivityManager

/-- The resolutions for workflows. -/
def LACompleteAction.reports : LACompleteAction → List (RunId × LocalActivityResolution)
  | report runId resolution _ => [(runId, resolution)]
  | willBeRetried _ | untracked => []

def NextPendingLAAction.reports : NextPendingLAAction → List (RunId × LocalActivityResolution)
  | dispatch _ => []
  | autocomplete action => action.reports

namespace LocalActivityManager

/-- What an input reports to workflows. -/
def reports (s : LocalActivityManager) : Input → List (RunId × LocalActivityResolution)
  | .nextPending receive => (s.nextPending receive).1.elim [] NextPendingLAAction.reports
  | .complete taskToken status => (s.complete taskToken status).1.reports
  | _ => []

/-- If requests are `Fresh`, a cancel that is not queued any more was told to the run or is in a resolution. -/
structure Delivers (run : RunId) (reported : List (RunId × LocalActivityResolution)) (s s' : LocalActivityManager) :
    Prop where
  notifications : ∀ n ∈ s.workflowNotifications, n ∈ s'.workflowNotifications
  kept : Fresh s.ledger → Undelivered run s → Undelivered run s' ∨ .cancelProcessed run ∈ s'.workflowNotifications ∨
    ∃ res, (run, res) ∈ reported
  none : Undelivered run s' → Undelivered run s

section

variable {run : RunId} {own : Prop} {s s' : LocalActivityManager}

theorem Asks.delivers (h : Asks run own s s') (ho : ¬ own) (reported : List (RunId × LocalActivityResolution)) :
    Delivers run reported s s' :=
  ⟨fun _ hn => h.notifications ▸ hn, fun _ hu => .inl (h.kept hu), h.none ho⟩

theorem Delivers.of_eq {reported : List (RunId × LocalActivityResolution)}
    (ho : s'.outstandingActivityTasks = s.outstandingActivityTasks)
    (hn : s'.workflowNotifications = s.workflowNotifications) : Delivers run reported s s' := by
  have h : Asks run False s s' := .of_eq ho hn
  exact h.delivers id reported

/-- A result is reported when it ends a cancelled attempt. -/
theorem complete_delivers (tt : TaskToken) (status : LocalActivityExecutionResult) :
    Delivers run (s.complete tt status).1.reports s (s.complete tt status).2 := by
  cases hi : s.outstandingActivityTasks.lookup tt with
  | none =>
    simp only [complete, hi]
    exact .of_eq rfl rfl
  | some info =>
    obtain ⟨b, hb⟩ := dropOutstanding_eq s tt
    have herase : ∀ s', s'.outstandingActivityTasks = s.outstandingActivityTasks.erase tt →
        Undelivered run s' → Undelivered run s := by
      rintro s' hs ⟨tt', info', hi', hrun, hq⟩
      rw [hs, lookup_erase_ite] at hi'
      split at hi'
      · cases hi'
      · exact ⟨tt', info', hi', hrun, hq⟩
    have hkept : ∀ s', s'.outstandingActivityTasks = s.outstandingActivityTasks.erase tt → Undelivered run s →
        Undelivered run s' ∨ info.laInfo.runId = run ∧ info.cancel = .queued := by
      rintro s' hs ⟨tt', info', hi', hrun, hq⟩
      by_cases he : tt' = tt
      · rw [he, hi] at hi'
        cases hi'
        exact .inr ⟨hrun, hq⟩
      · refine .inl ⟨tt', info', ?_, hrun, hq⟩
        rw [hs, lookup_erase_ite, if_neg he]
        exact hi'
    simp only [complete, hi, hb]
    cases ho : outcome info status with
    | justReport =>
      refine ⟨fun _ hn => hn, fun _ hu => (hkept _ rfl hu).imp_right fun hc => .inr ?_, herase _ rfl⟩
      rw [← hc.1]
      exact ⟨_, List.mem_singleton_self _⟩
    | failurePath backoff =>
      have hne : info.cancel ≠ .queued := by
        rw [cancel_of_failurePath ho]
        decide
      cases backoff with
      | none =>
        exact ⟨fun _ hn => hn, fun _ hu => .inl ((hkept _ rfl hu).resolve_right fun hc => hne hc.2), herase _ rfl⟩
      | some backoff =>
        simp only []
        split
        · exact ⟨fun _ hn => hn, fun _ hu => .inl ((hkept _ rfl hu).resolve_right fun hc => hne hc.2), herase _ rfl⟩
        · exact ⟨fun _ hn => hn, fun _ hu => .inl ((hkept _ rfl hu).resolve_right fun hc => hne hc.2), herase _ rfl⟩

/-- The run is notified when lang gets the cancel. -/
theorem takeCancel_delivers (msg : CancelOrTimeout) :
    Delivers run ((s.takeCancel msg).1.elim [] NextPendingLAAction.reports) s (s.takeCancel msg).2 := by
  cases msg with
  | cancel tt =>
    cases hi : s.outstandingActivityTasks.lookup tt with
    | none =>
      simp only [takeCancel, hi]
      exact .of_eq rfl rfl
    | some info =>
      simp only [takeCancel, hi]
      refine ⟨fun n hn => List.mem_append_left _ hn, fun _ => ?_, ?_⟩
      · rintro ⟨tt', info', hi', rfl, hq⟩
        by_cases he : tt' = tt
        · rw [he, hi] at hi'
          cases hi'
          exact .inr (.inl (List.mem_append_right _ (List.mem_singleton_self _)))
        · exact .inl ⟨tt', info', by rw [lookup_insert_ite, if_neg he]; exact hi', rfl, hq⟩
      · rintro ⟨tt', info', hi', hrun, hq⟩
        rw [lookup_insert_ite] at hi'
        split at hi'
        · cases hi'
          cases hq
        · exact ⟨tt', info', hi', hrun, hq⟩
  | timeout runId resolution =>
    cases hl : s.laInfo.lookup ⟨runId, resolution.seq⟩ with
    | none =>
      simp only [takeCancel, hl]
      exact .of_eq rfl rfl
    | some lai =>
      simp only [takeCancel, hl]
      exact complete_delivers lai.taskToken resolution.result

theorem takeRequest_delivers {i : Nat} {q : Request} (hq : s.actReqs[i]? = some q)
    (reported : List (RunId × LocalActivityResolution)) :
    Delivers run reported s ({ s with actReqs := s.actReqs.eraseIdx i }.takeRequest q).2 := by
  cases h : s.laInfo.lookup q.what.la.id with
  | none =>
    simp only [takeRequest, h]
    exact .of_eq rfl rfl
  | some lai =>
    simp only [takeRequest, h]
    split
    · refine .of_eq ?_ ?_
      · exact (setShutdownCompleteIfReady_untouched _).outstanding
      · exact (setShutdownCompleteIfReady_untouched _).notifications
    · obtain ⟨timers, -, hs⟩ := markStarted_armed lai.timeoutBag { s with
        actReqs := s.actReqs.eraseIdx i
        laInfo := s.laInfo.insert q.what.la.id { lai with queuedForDispatch := false, backingOffTask := none } }
      rw [hs]
      refine ⟨fun _ hn => hn, fun hf => ?_, ?_⟩
      · have hmem : q ∈ s.ledger.requests := List.mem_append_left _ (List.mem_of_getElem? hq)
        have hnew : s.outstandingActivityTasks.lookup lai.taskToken = none := by
          by_contra hc
          obtain ⟨info, hi⟩ := Option.ne_none_iff_exists'.mp hc
          exact hf.unused q hmem (hf.own q hmem lai h ▸ hf.held _ info hi)
        rintro ⟨tt, info, hi, hrun, hc⟩
        refine .inl ⟨tt, info, ?_, hrun, hc⟩
        rw [lookup_insert_ite, if_neg (ne_of_lookup hnew hi).symm]
        exact hi
      · rintro ⟨tt, info, hi, hrun, hc⟩
        rw [lookup_insert_ite] at hi
        split at hi
        · cases hi
          cases hc
        · exact ⟨tt, info, hi, hrun, hc⟩

/-- **A queued cancel of a run goes away only if the run hears of it**, and comes from nobody else. -/
theorem process_delivers (hs : Tracked s.ledger) {i : Input}
    (hi : ∀ req, i = .enqueue req → req.runId ≠ run) : Delivers run (s.reports i) s (s.process i) := by
  cases i with
  | enqueue req =>
    have hne := hi req rfl
    exact (enqueue_asks hs fun h => hne (by rw [h]; rfl)).delivers hne _
  | nextPending receive =>
    simp only [reports, process, nextPending]
    split
    · exact .of_eq rfl rfl
    · cases receive with
      | cancel j =>
        cases hm : s.cancelsReqs[j]? with
        | none =>
          simp only [hm]
          exact .of_eq rfl rfl
        | some msg =>
          simp only [hm]
          have h : Delivers run _ { s with cancelsReqs := s.cancelsReqs.eraseIdx j } _ := takeCancel_delivers msg
          exact ⟨h.notifications, fun hf => h.kept { hf with }, h.none⟩
      | request j =>
        cases hq : s.actReqs[j]? with
        | none =>
          simp only [hq]
          exact .of_eq rfl rfl
        | some q =>
          simp only [hq]
          exact takeRequest_delivers hq _
  | complete tt status => exact complete_delivers tt status
  | workflowsHaveShutdown =>
    have hb := setShutdownCompleteIfReady_untouched { s with workflowsHaveShutDown := true }
    exact .of_eq hb.outstanding hb.notifications
  | shutdownInitiated =>
    have hb := setShutdownCompleteIfReady_untouched s
    exact .of_eq hb.outstanding hb.notifications
  | elapse duration => exact .of_eq rfl rfl
  | fire j =>
    simp only [process, fire]
    split
    · exact .of_eq rfl rfl
    · split
      · unfold wake
        split
        · exact .of_eq rfl rfl
        · exact .of_eq rfl rfl
        · exact .of_eq rfl rfl
        · exact ⟨fun n hn => List.mem_append_left _ hn, fun _ hu => .inl hu, fun hu => hu⟩
      · exact .of_eq rfl rfl

end

end LocalActivityManager

end SdkCore
