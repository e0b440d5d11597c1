import SdkCore.LocalActivities.Starts

/-!
# Timeouts of local activities

Timeouts are known by the id of their local activity, and end the attempt that lang holds. One from schedule to close
that finds none is lost (`schedule_to_close_resolves_iff`). The timer of a failed attempt goes on and may end the next
one (`start_to_close_elapsed`).
-/

namespace SdkCore

open Maps

namespace LocalActivityManager

/-! ## From schedule to close -/

def startsOf (log : List LAEvent) (id : ExecutingLAId) : List Started := (starts log).filter (·.id = id)

/-- There is no entry for the id, and no attempt was started since. -/
def Over (id : ExecutingLAId) (started : List Started) (s : Ledger) : Prop :=
  s.laInfo.lookup id = none ∧ startsOf s.log id = started

variable {s : LocalActivityManager} {t : Ledger} {l : Label} {id : ExecutingLAId} {lai : LocalActivityInfo}
  {handle : Nat}

/-- Without an entry nothing is started. -/
theorem Move.over {s : Ledger} {started : List Started} (h : Move s l t) (ho : Over id started s)
    (hl : l ≠ .create id) : Over id started t := by
  obtain ⟨hn, hst⟩ := ho
  have hlog : ∀ events, starts events = [] → startsOf (s.log ++ events) id = started := by
    intro events he
    rw [← hst, startsOf, starts_append, he, List.append_nil]
    rfl
  cases h with
  | idle | elapse | ignore | heartbeat | dropMessage | deliver | dropRequest | fire => exact ⟨hn, hst⟩
  | accept act bag timers h hb =>
    have hne : id ≠ act.id := fun he => hl (he ▸ rfl)
    exact ⟨by simpa [lookup_insert_ite, hne] using hn, hst⟩
  | tooLate act h =>
    have hne : id ≠ act.id := fun he => hl (he ▸ rfl)
    exact ⟨by simpa [lookup_insert_ite, hne] using hn, hlog _ rfl⟩
  | cancelHeld | cancelAgain => exact ⟨hn, hlog _ rfl⟩
  | remove id' lai resolved => exact ⟨by simp [lookup_erase_ite, hn], hlog _ (by cases resolved <;> rfl)⟩
  | invalidate => exact ⟨by simp [lookup_retain, hn], hst⟩
  | indicate => exact ⟨by simp [lookup_mapValues, hn], hst⟩
  | late i q lai hq h =>
    have hne : id ≠ q.id := ne_of_lookup hn h
    exact ⟨by simpa [lookup_insert_ite, hne] using hn, hlog _ rfl⟩
  | start i q lai bag timers hq h =>
    have hne : id ≠ q.id := ne_of_lookup hn h
    refine ⟨by simpa [lookup_insert_ite, hne] using hn, ?_⟩
    rw [← hst]
    simp [startsOf, starts, Ne.symm hne]
  | finish tt info lai hi h => exact ⟨by simp [lookup_erase_ite, hn], hlog _ rfl⟩
  | retry tt info lai backoff hi h =>
    have hne : id ≠ info.laInfo.id := ne_of_lookup hn h
    exact ⟨by simpa [lookup_insert_ite, lookup_erase_ite, hne] using hn, hst⟩

/-- The id stays free until it is enqueued again. -/
theorem Over.stays {s' : LocalActivityManager} (hs : Tracked s.ledger) (hn : s.laInfo.lookup id = none)
    (h : Reach Step (fun _ i => ∀ act, i = .enqueue (.new act) → act.id ≠ id) (· = s) s') :
    startsOf s'.log id = startsOf s.log id := by
  have hover : Over id (startsOf s.log id) s.ledger := ⟨hn, rfl⟩
  refine (Reach.ledger_invariant ⟨hs, hover⟩ (fun _ => by simp) ?_
    (fun s l t _ ho hl hm => hm.over ho hl) h).2.2
  rintro s i l hi hl rfl
  obtain ⟨act, rfl, hid⟩ := hl
  exact hi act rfl hid

/-- A timeout is processed as a result of the attempt. -/
theorem nextPending_timeout {j : Nat} {run : RunId} {res : LocalActivityResolution}
    (hopen : s.shutdownComplete = false ∧ s.rcvsDropped = false) (hm : s.cancelsReqs[j]? = some (.timeout run res))
    (hl : s.laInfo.lookup ⟨run, res.seq⟩ = some lai) :
    s.nextPending (.cancel j) =
      (some (.autocomplete ({ s with cancelsReqs := s.cancelsReqs.eraseIdx j }.complete lai.taskToken res.result).1),
        ({ s with cancelsReqs := s.cancelsReqs.eraseIdx j }.complete lai.taskToken res.result).2) := by
  simp [nextPending, hopen, hm, takeCancel, hl]

/-- A result that is reported ends the entry. -/
theorem complete_justReport {tt : TaskToken} {info : LocalInFlightActInfo} {status : LocalActivityExecutionResult}
    (hi : s.outstandingActivityTasks.lookup tt = some info) (ho : outcome info status = .justReport) :
    (∃ resolution task, (s.complete tt status).1 = .report info.laInfo.runId resolution task ∧
        resolution.seq = info.laInfo.scheduleCmd.seq ∧ resolution.result = status) ∧
      (s.complete tt status).2.laInfo = s.laInfo.erase info.laInfo.id ∧
      starts (s.complete tt status).2.log = starts s.log := by
  obtain ⟨b, hb⟩ := dropOutstanding_eq s tt
  simp only [complete, hi, ho, hb]
  cases s.laInfo.lookup info.laInfo.id <;> simp [notifyOne, dropBag, abort, record, starts]

/-- **A deadline is kept exactly if lang holds an attempt when it is processed.** No attempt is started afterwards. -/
theorem schedule_to_close_resolves_iff {s : LocalActivityManager} (h : Reach Step (fun _ _ => True) (· = {}) s)
    {j : Nat}
    {run : RunId} {res : LocalActivityResolution} {lai : LocalActivityInfo}
    (hopen : s.shutdownComplete = false ∧ s.rcvsDropped = false)
    (hm : s.cancelsReqs[j]? = some (.timeout run res)) (hres : res.result = .timeout .scheduleToClose)
    (hl : s.laInfo.lookup ⟨run, res.seq⟩ = some lai) :
    ((∃ resolution task, (s.nextPending (.cancel j)).1 = some (.autocomplete (.report run resolution task)) ∧
        resolution.seq = res.seq ∧ resolution.result = .timeout .scheduleToClose) ∧
      ∀ s', Reach Step (fun _ i => ∀ act, i = .enqueue (.new act) → act.id ≠ ⟨run, res.seq⟩)
          (· = (s.nextPending (.cancel j)).2) s' → startsOf s'.log ⟨run, res.seq⟩ = startsOf s.log ⟨run, res.seq⟩) ↔
      (s.outstandingActivityTasks.lookup lai.taskToken).isSome = true := by
  have hs := Reach.tracked h
  rw [nextPending_timeout hopen hm hl]
  constructor
  · rintro ⟨⟨resolution, task, ha, -⟩, -⟩
    by_contra hc
    have hc : s.outstandingActivityTasks.lookup lai.taskToken = none := by simpa using hc
    simp [complete, hc] at ha
  · intro ho
    obtain ⟨info, hi⟩ := Option.isSome_iff_exists.mp ho
    obtain ⟨lai', hl', ht⟩ := hs.entry _ info hi
    have hid : info.laInfo.id = ⟨run, res.seq⟩ := hs.unique _ _ lai' lai hl' hl ht
    have hrun : info.laInfo.runId = run := congrArg ExecutingLAId.runId hid
    have hseq : info.laInfo.scheduleCmd.seq = res.seq := congrArg ExecutingLAId.seqNum hid
    have hout : outcome info res.result = .justReport := by
      simp [hres, outcome, LocalActivityExecutionResult.timeout]
    have hs₁ : Tracked { s with cancelsReqs := s.cancelsReqs.eraseIdx j }.ledger := { hs with }
    obtain ⟨⟨resolution, task, ha, hrseq, hrres⟩, hla, hst⟩ :=
      complete_justReport (s := { s with cancelsReqs := s.cancelsReqs.eraseIdx j }) hi hout
    refine ⟨⟨resolution, task, by rw [ha, hrun], hrseq.trans hseq, hrres.trans hres⟩, fun s' h' => ?_⟩
    rw [Over.stays ((complete_move hs₁ _ _).tracked hs₁) (by rw [hla, ← hid, AList.lookup_erase]) h', startsOf, hst]
    rfl

def sampleDeadline : LocalActivityResolution where
  seq := 1
  result := .timeout .scheduleToClose
  runtime := 0
  attempt := 1
  backoff := none
  originalScheduleTime := none

def isReport : Option NextPendingLAAction → Bool
  | some (.autocomplete (.report _ _ _)) => true
  | _ => false

/-- The deadline passes while the request is queued. The attempt is started afterwards. -/
theorem schedule_to_close_lost :
    ∃ s, Reach Step (fun _ _ => True) (· = {}) s ∧ s.cancelsReqs[0]? = some (.timeout 1 sampleDeadline) ∧
      (s.laInfo.lookup ⟨1, 1⟩).any (·.queuedForDispatch) = true ∧ isReport (s.nextPending (.cancel 0)).1 = false ∧
      startsOf ((s.process (.nextPending (.cancel 0))).process (.nextPending (.request 0))).log ⟨1, 1⟩ ≠ [] := by
  exact exists_of_run [.enqueue (.new (sampleAct 1 1 (.scheduleOnly 100))), .elapse 100, .fire 0]
    (by decide +kernel)

theorem schedule_to_close_resolves_held :
    ∃ s resolution task, Reach Step (fun _ _ => True) (· = {}) s ∧
      (s.nextPending (.cancel 0)).1 = some (.autocomplete (.report 1 resolution task)) ∧
      resolution.result = .timeout .scheduleToClose := by
  obtain ⟨s, hreach, hopen, hm, hl⟩ : ∃ s, Reach Step (fun _ _ => True) (· = {}) s ∧
      (s.shutdownComplete = false ∧ s.rcvsDropped = false) ∧ s.cancelsReqs[0]? = some (.timeout 1 sampleDeadline) ∧
      (s.laInfo.lookup ⟨1, 1⟩).any (fun lai => (s.outstandingActivityTasks.lookup lai.taskToken).isSome) = true :=
    exists_of_run
      [.enqueue (.new (sampleAct 1 1 (.scheduleOnly 100))), .nextPending (.request 0), .elapse 100, .fire 0]
      (by decide +kernel)
  obtain ⟨lai, hlai, hheld⟩ := Option.any_eq_true _ _ |>.mp hl
  obtain ⟨⟨resolution, task, ha, -, hres⟩, -⟩ :=
    (schedule_to_close_resolves_iff hreach hopen hm rfl hlai).mpr hheld
  exact ⟨s, resolution, task, hreach, ha, hres⟩

/-! ## From start to close -/

def startToClose (lai : LocalActivityInfo) : Option Nat :=
  (lai.timeoutBag.bind (·.startToCloseDurAndDat)).map (·.1)

/-- The local activity that the timer of an attempt is for. -/
def timedId (lai : LocalActivityInfo) : Option ExecutingLAId :=
  (lai.timeoutBag.bind (·.startToCloseDurAndDat)).map fun dat => ⟨dat.2.1, dat.2.2.seq⟩

def startHandle (lai : LocalActivityInfo) : Option Nat := lai.timeoutBag.bind (·.startToCloseHandle)

theorem startHandle_mem (h : startHandle lai = some handle) : handle ∈ handlesOf lai := by
  unfold startHandle at h
  cases hb : lai.timeoutBag with
  | none => simp [hb] at h
  | some bag => simp_all [handlesOf, TimeoutBag.handles]

/-- Timers of attempts belong to entries, and what they sent is over time for the attempt held. -/
structure Timed (s : Ledger) : Prop where
  ids : ∀ id lai id', s.laInfo.lookup id = some lai → timedId lai = some id' → id' = id
  deadlines : ∀ task ∈ s.tasks, ∀ run res, task.wake = .scheduleToClose run res →
    res.result = .timedOut .scheduleToClose
  timers : ∀ task ∈ s.tasks, ∀ run res st, task.wake = .startToClose run res st →
    ∃ lai d, s.laInfo.lookup ⟨run, res.seq⟩ = some lai ∧ startHandle lai = some task.handle ∧
      startToClose lai = some d ∧ task.due = st + d ∧
      ∀ info, s.outstanding.lookup lai.taskToken = some info → info.dispatchTime = st
  messages : ∀ run res, .timeout run res ∈ s.cancelsReqs → res.result = .timedOut .startToClose →
    ∀ lai info, s.laInfo.lookup ⟨run, res.seq⟩ = some lai →
      s.outstanding.lookup lai.taskToken = some info →
      ∃ d, startToClose lai = some d ∧ info.dispatchTime + d ≤ s.now

/-- An entry of `t` has the timeouts and the attempt it has in `s`, or is new. -/
def Inherits (s t : Ledger) (id : ExecutingLAId) (lai' : LocalActivityInfo) : Prop :=
  (∃ lai, s.laInfo.lookup id = some lai ∧ lai'.timeoutBag = lai.timeoutBag ∧
    ∀ info', t.outstanding.lookup lai'.taskToken = some info' →
      ∃ info, s.outstanding.lookup lai.taskToken = some info ∧ info.dispatchTime = info'.dispatchTime) ∨
  s.laInfo.lookup id = none ∧ (∀ id', timedId lai' = some id' → id' = id) ∧
    t.outstanding.lookup lai'.taskToken = none

/-- What most moves do: no timer of an attempt and no timeout is new. -/
structure Carries (s t : Ledger) : Prop where
  entry : ∀ id lai', t.laInfo.lookup id = some lai' → Inherits s t id lai' := by
    exact fun _ lai h => .inl ⟨lai, h, rfl, fun info hi => ⟨info, hi, rfl⟩⟩
  kept : ∀ task ∈ t.tasks, ∀ id lai, s.laInfo.lookup id = some lai → startHandle lai = some task.handle →
    (t.laInfo.lookup id).isSome = true := by
      exact fun _ _ _ _ h _ => Option.isSome_of_mem h
  timers : ∀ task ∈ t.tasks, task ∈ s.tasks ∨ (∀ run res st, task.wake ≠ .startToClose run res st) ∧
    ∀ run res, task.wake = .scheduleToClose run res → res.result = .timedOut .scheduleToClose := by
      exact fun _ => .inl
  messages : ∀ run res, .timeout run res ∈ t.cancelsReqs → .timeout run res ∈ s.cancelsReqs := by
    exact fun _ _ h => h
  now : s.now ≤ t.now := by exact Nat.le_refl _

/-- Such moves keep the timers in step. -/
theorem Timed.carry {s : Ledger} (h : Timed s) (hc : Carries s t) : Timed t := by
  constructor
  · intro id lai' id' hla hid
    rcases hc.entry id lai' hla with ⟨lai, hl, hb, -⟩ | ⟨-, hids, -⟩
    · exact h.ids id lai id' hl (by rwa [timedId, ← hb])
    · exact hids id' hid
  · intro task hmem run res hw
    rcases hc.timers task hmem with hold | ⟨-, hnew⟩
    · exact h.deadlines task hold run res hw
    · exact hnew run res hw
  · intro task hmem run res st hw
    have hold : task ∈ s.tasks := (hc.timers task hmem).resolve_right fun hnew => hnew.1 run res st hw
    obtain ⟨lai, d, hl, hh, hd, hdue, ho⟩ := h.timers task hold run res st hw
    obtain ⟨lai', hl'⟩ := Option.isSome_iff_exists.mp (hc.kept task hmem _ lai hl hh)
    rcases hc.entry _ lai' hl' with ⟨lai₀, hl₀, hb, hheld⟩ | ⟨hnone, -⟩
    · cases hl₀.symm.trans hl
      refine ⟨lai', d, hl', by rwa [startHandle, hb], by rwa [startToClose, hb], hdue, fun info' hi' => ?_⟩
      obtain ⟨info, hi, he⟩ := hheld info' hi'
      exact he.symm.trans (ho info hi)
    · cases hnone.symm.trans hl
  · intro run res hmem hres lai' info' hla hi'
    rcases hc.entry _ lai' hla with ⟨lai, hl, hb, hheld⟩ | ⟨-, -, hnone⟩
    · obtain ⟨info, hi, he⟩ := hheld info' hi'
      obtain ⟨d, hd, hle⟩ := h.messages run res (hc.messages run res hmem) hres lai info hl hi
      exact ⟨d, by rwa [startToClose, hb], Nat.le_trans (he ▸ hle) hc.now⟩
    · cases hnone.symm.trans hi'

section

variable {s : Ledger}

theorem Inherits.create {id' : ExecutingLAId} {lai' : LocalActivityInfo} (hs : Tracked s)
    (h : s.laInfo.lookup id = none) (htok : lai.taskToken = s.nextTtNum + 1)
    (hid : ∀ id', timedId lai = some id' → id' = id)
    (ho : t.outstanding = s.outstanding)
    (h' : (s.laInfo.insert id lai).lookup id' = some lai') : Inherits s t id' lai' := by
  rw [lookup_insert_ite] at h'
  split at h'
  · next he =>
    subst he
    cases h'
    exact .inr ⟨h, hid, by rw [ho, htok, hs.fresh (Nat.lt_succ_self _)]⟩
  · exact .inl ⟨lai', h', rfl, fun info hi => ⟨info, ho ▸ hi, rfl⟩⟩

/-- A cancel does not change since when lang holds an attempt. -/
theorem Inherits.cancel {tt : TaskToken} {info : LocalInFlightActInfo} {cancel : CancelDelivery}
    (hi : s.outstanding.lookup tt = some info)
    (ho : t.outstanding = s.outstanding.insert tt { info with cancel })
    (hl : s.laInfo.lookup id = some lai) : Inherits s t id lai := by
  refine .inl ⟨lai, hl, rfl, fun info' hi' => ?_⟩
  rw [ho, lookup_insert_ite] at hi'
  split at hi'
  · next he =>
    cases hi'
    exact ⟨info, he ▸ hi, rfl⟩
  · exact ⟨info', hi', rfl⟩

theorem isSome_lookup_insert {id' : ExecutingLAId} {lai' : LocalActivityInfo} (h : s.laInfo.lookup id' = some lai') :
    ((s.laInfo.insert id lai).lookup id').isSome = true := by
  rw [lookup_insert_ite]
  split
  · rfl
  · exact Option.isSome_of_mem h

/-- With an entry, the timers of its attempts are gone. -/
theorem isSome_lookup_erase {task : SpawnedTask} {id' : ExecutingLAId} {lai' : LocalActivityInfo}
    (h : s.laInfo.lookup id = some lai) (h' : s.laInfo.lookup id' = some lai')
    (hmem : task ∈ s.tasks.filter (·.handle ∉ handlesOf lai)) (hh : startHandle lai' = some task.handle) :
    ((s.laInfo.erase id).lookup id').isSome = true := by
  rw [lookup_erase_ite]
  split
  · next he =>
    subst he
    cases h'.symm.trans h
    exact absurd (startHandle_mem hh) (by simpa using (List.mem_filter.mp hmem).2)
  · exact Option.isSome_of_mem h'

end

/-- What the new timer is for. -/
theorem Armed.timed {now : Nat} {bag bag' : Option TimeoutBag} {timers : List SpawnedTask}
    (h : Armed now handle bag bag' timers) :
    bag'.bind (·.startToCloseDurAndDat) = bag.bind (·.startToCloseDurAndDat) ∧
      ∀ task ∈ timers, ∃ d run res, bag.bind (·.startToCloseDurAndDat) = some (d, run, res) ∧
        task = ⟨handle, now + d, .startToClose run res now⟩ ∧ bag'.bind (·.startToCloseHandle) = some handle := by
  cases h with
  | none | without => simp
  | timer h => simp [h]

/-- No timer or timeout of an earlier attempt is left at a start. -/
def Untimed (s : Ledger) : Label → Prop
  | .start id => (∀ task ∈ s.tasks, ∀ run res st, task.wake = .startToClose run res st →
        (⟨run, res.seq⟩ : ExecutingLAId) ≠ id) ∧
      ∀ run res, .timeout run res ∈ s.cancelsReqs → res.result = .timedOut .startToClose →
        (⟨run, res.seq⟩ : ExecutingLAId) ≠ id
  | _ => True

section

variable {s : Ledger} {i : Nat}

/-- The attempt that is started gets a timer of its own, and there is no other for its entry. -/
theorem Timed.start {q : Request} {bag : Option TimeoutBag} {timers : List SpawnedTask} {reqs : List Request} {n : Nat}
    {log : List LAEvent} {info : LocalInFlightActInfo} (ht : Timed s) (hs : Tracked s) (hl : Untimed s (.start q.id))
    (h : s.laInfo.lookup q.id = some lai) (harm : Armed s.now s.nextHandle lai.timeoutBag bag timers)
    (hinfo : info.dispatchTime = s.now) :
    Timed { s with
      actReqs := reqs
      laInfo := s.laInfo.insert q.id { lai with queuedForDispatch := false, backingOffTask := none, timeoutBag := bag }
      outstanding := s.outstanding.insert lai.taskToken info
      tasks := s.tasks ++ timers
      nextHandle := n
      log := log } := by
  obtain ⟨hdat, hnew⟩ := harm.timed
  obtain ⟨hnt, hnm⟩ := hl
  -- the tokens of the other entries differ, so lang holds of them what it held
  have hother : ∀ id' lai', id' ≠ q.id → s.laInfo.lookup id' = some lai' → lai'.taskToken ≠ lai.taskToken :=
    fun id' lai' hne hl' he => hne (hs.unique _ _ lai' lai hl' h he)
  constructor <;> simp only [lookup_insert_ite, List.mem_append]
  · intro id' lai' id'' hla hid
    split at hla
    · next he =>
      cases hla
      rw [he]
      exact ht.ids q.id lai id'' h (by rwa [timedId, ← hdat])
    · exact ht.ids id' lai' id'' hla hid
  · rintro task (hmem | hmem) run res hw
    · exact ht.deadlines task hmem run res hw
    · obtain ⟨d, run', res', -, rfl, -⟩ := hnew task hmem
      cases hw
  · rintro task (hmem | hmem) run res st hw
    · obtain ⟨lai', d, hl', hh, hd', hdue, ho⟩ := ht.timers task hmem run res st hw
      have hne := hnt task hmem run res st hw
      exact ⟨lai', d, by simpa [hne] using hl', hh, hd', hdue, by simpa [hother _ lai' hne hl'] using ho⟩
    · obtain ⟨d, run', res', hb, rfl, hh⟩ := hnew task hmem
      cases hw
      have hq' : (⟨run, res.seq⟩ : ExecutingLAId) = q.id := ht.ids q.id lai _ h (by simp [timedId, hb])
      exact ⟨_, d, if_pos hq', hh, by simp [startToClose, hdat, hb], rfl, by simp [hinfo]⟩
  · intro run res hmem hres lai' info' hla ho
    have hne := hnm run res hmem hres
    rw [if_neg hne] at hla
    rw [if_neg (hother _ lai' hne hla)] at ho
    exact ht.messages run res hmem hres lai' info' hla ho

/-- The timer of an attempt sends a timeout when the attempt has had its time. -/
theorem Timed.fire {task : SpawnedTask} {reqs : List Request} (ht : Timed s) (htask : s.tasks[i]? = some task)
    (hdue : task.due ≤ s.now) :
    Timed { s with
      tasks := s.tasks.eraseIdx i
      actReqs := reqs
      cancelsReqs := s.cancelsReqs ++ task.wake.messages s.now } := by
  refine ⟨ht.ids, fun task' hmem => ht.deadlines task' (List.mem_of_mem_eraseIdx hmem),
    fun task' hmem => ht.timers task' (List.mem_of_mem_eraseIdx hmem), ?_⟩
  intro run res hmem hres lai info hla ho
  have hin := List.mem_of_getElem? htask
  rcases List.mem_append.mp hmem with hmem | hmem
  · exact ht.messages run res hmem hres lai info hla ho
  · cases hw : task.wake with
    | retry | heartbeatTimeout => simp [hw, Wake.messages] at hmem
    | scheduleToClose run' res' =>
      simp only [hw, Wake.messages, List.mem_singleton, CancelOrTimeout.timeout.injEq] at hmem
      obtain ⟨rfl, rfl⟩ := hmem
      rw [ht.deadlines task hin _ _ hw] at hres
      cases hres
    | startToClose run' res' st =>
      simp only [hw, Wake.messages, List.mem_singleton, CancelOrTimeout.timeout.injEq] at hmem
      obtain ⟨rfl, rfl⟩ := hmem
      obtain ⟨lai', d, hl', -, hd', hdue', ho'⟩ := ht.timers task hin _ _ _ hw
      cases hl'.symm.trans hla
      refine ⟨d, hd', ?_⟩
      rw [ho' info ho, ← hdue']
      exact hdue

end

/-- **Every move keeps the timers in step.** -/
theorem Move.timed {s : Ledger} (h : Move s l t) (hs : Tracked s) (ht : Timed s) (hl : Untimed s l) : Timed t := by
  cases h with
  | idle | ignore | cancelAgain | dropRequest => exact ht.carry {}
  | elapse duration => exact ht.carry { now := Nat.le_add_right _ _ }
  | dropMessage i => exact ht.carry { messages := fun _ _ => List.mem_of_mem_eraseIdx }
  | heartbeat deadline run =>
    refine ht.carry { timers := fun task hmem => (List.mem_append.mp hmem).imp_right fun hnew => ?_ }
    simp [List.mem_singleton.mp hnew]
  | accept act bag timers h hb =>
    refine ht.carry {
      entry := fun _ _ => .create hs h rfl ?_ rfl
      kept := fun _ _ _ _ h _ => isSome_lookup_insert h
      timers := fun task hmem => (List.mem_append.mp hmem).imp_right fun hnew => ?_ }
    · intro id' hid
      obtain ⟨dat, hdat, rfl⟩ := Option.map_eq_some_iff.mp hid
      exact hb.dat _ _ _ hdat
    · obtain ⟨run, res, hw, hres⟩ := hb.timers task hnew
      simp [hw, hres]
  | tooLate act h =>
    exact ht.carry {
      entry := fun _ _ => .create hs h rfl (by simp [timedId, newInfo]) rfl
      kept := fun _ _ _ _ h _ => isSome_lookup_insert h }
  | cancelHeld id lai info h hb hi => exact ht.carry { entry := fun _ _ => .cancel hi rfl, messages := by simp }
  | deliver tt info hi => exact ht.carry { entry := fun _ _ => .cancel hi rfl }
  | remove id lai resolved h =>
    exact ht.carry {
      entry := fun _ lai' h' => .inl ⟨lai', (lookup_of_erase h').2, rfl, fun info hi => ⟨info, hi, rfl⟩⟩
      kept := fun _ hmem _ _ h' => isSome_lookup_erase h h' hmem
      timers := fun _ hmem => .inl (List.mem_filter.mp hmem).1 }
  | finish tt info lai hi h =>
    exact ht.carry {
      entry := fun _ lai' h' =>
        .inl ⟨lai', (lookup_of_erase h').2, rfl, fun info' hi' => ⟨info', (lookup_of_erase hi').2, rfl⟩⟩
      kept := fun _ hmem _ _ h' => isSome_lookup_erase h h' hmem
      timers := fun _ hmem => .inl (List.mem_filter.mp hmem).1 }
  | invalidate run =>
    refine ht.carry {
      entry := fun id lai h => ?_
      kept := fun task hmem id lai h hh => ?_
      timers := fun _ hmem => .inl (List.mem_filter.mp hmem).1 }
    · simp only [lookup_retain, Option.filter_eq_some_iff] at h
      exact .inl ⟨lai, h.1, rfl, fun info hi => ⟨info, by grind [lookup_retain, Option.filter_eq_some_iff], rfl⟩⟩
    · have hr : id.runId ≠ run := by
        rintro rfl
        have hin : task.handle ∈ (s.laInfo.entries.filter (·.1.runId = id.runId)).flatMap fun e => handlesOf e.2 :=
          List.mem_flatMap.mpr ⟨⟨id, lai⟩, by simpa using lookup_eq_some_iff.mp h, startHandle_mem hh⟩
        simpa [hin] using (List.mem_filter.mp hmem).2
      simp [lookup_retain, h, hr]
  | indicate run =>
    refine ht.carry { entry := fun id lai h => ?_, kept := fun _ _ id lai h _ => by simp [lookup_mapValues, h] }
    rw [lookup_mapValues] at h
    obtain ⟨lai', hl', rfl⟩ := Option.map_eq_some_iff.mp h
    split <;> exact .inl ⟨lai', hl', rfl, fun info hi => ⟨info, hi, rfl⟩⟩
  | late i q lai hq h =>
    refine ht.carry { entry := fun id lai' h' => ?_, kept := fun _ _ _ _ h _ => isSome_lookup_insert h }
    rw [lookup_insert_ite] at h'
    split at h'
    · next he =>
      cases h'
      exact .inl ⟨lai, he ▸ h, rfl, fun info hi => ⟨info, hi, rfl⟩⟩
    · exact .inl ⟨lai', h', rfl, fun info hi => ⟨info, hi, rfl⟩⟩
  | start i q lai bag timers hq h harm => exact ht.start hs hl h harm rfl
  | retry tt info lai backoff hi h hc =>
    refine ht.carry { entry := fun id lai' h' => ?_, kept := fun _ _ id lai' h' _ => ?_, timers := fun task hmem => ?_ }
    · rw [lookup_insert_ite] at h'
      split at h'
      · next he =>
        cases h'
        refine .inl ⟨lai, he ▸ h, rfl, fun info' hi' => ?_⟩
        cases (hs.fresh (Nat.lt_succ_self _)).symm.trans (lookup_of_erase hi').2
      · exact .inl ⟨lai', (lookup_of_erase h').2, rfl, fun info' hi' => ⟨info', (lookup_of_erase hi').2, rfl⟩⟩
    · grind [lookup_insert_ite, lookup_erase_ite]
    · refine (List.mem_append.mp hmem).imp (fun hold => (List.mem_filter.mp hold).1) fun hnew => ?_
      simp [List.mem_singleton.mp hnew]
  | fire i task htask hdue => exact ht.fire htask hdue

/-- A timer of an attempt of a local activity. -/
def SpawnedTask.isStartToClose (id : ExecutingLAId) (task : SpawnedTask) : Bool :=
  match task.wake with
  | .startToClose run res _ => (⟨run, res.seq⟩ : ExecutingLAId) = id
  | _ => false

def isStartToClose (id : ExecutingLAId) : CancelOrTimeout → Bool
  | .timeout run res => (⟨run, res.seq⟩ : ExecutingLAId) = id && res.result = .timeout .startToClose
  | .cancel _ => false

/-- An attempt is started when no timer or timeout of an earlier one is left. -/
def isUntimed (s : LocalActivityManager) : Input → Bool
  | .nextPending (.request j) => s.actReqs[j]?.all fun q =>
      !s.tasks.any (SpawnedTask.isStartToClose q.id) && !s.cancelsReqs.any (isStartToClose q.id)
  | _ => true

theorem timed_of_reach (h : Reach Step (fun s i => s.isUntimed i = true) (· = {}) s) :
    Tracked s.ledger ∧ Timed s.ledger := by
  refine Reach.ledger_invariant ⟨tracked_init, ?_⟩ (fun _ => trivial) ?_ (fun s l t hs ht hl hm => hm.timed hs ht hl) h
  · constructor <;> simp [ledger]
  · intro s i l hi hl
    cases l with
    | create | other => trivial
    | start id =>
      obtain ⟨j, q, rfl, hq, rfl⟩ := hl
      simp only [isUntimed, hq, Option.all_some, Bool.and_eq_true, Bool.not_eq_true', List.any_eq_false] at hi
      refine ⟨fun task hmem run res st hw hid => hi.1 task hmem ?_, fun run res hmem hres hid => hi.2 _ hmem ?_⟩
      · simp [SpawnedTask.isStartToClose, hw, hid]
      · simp [isStartToClose, hid, hres, LocalActivityExecutionResult.timeout]

/-- **A timeout from start to close ends an attempt only after its full duration.** -/
theorem start_to_close_elapsed {s : LocalActivityManager}
    (h : Reach Step (fun s i => s.isUntimed i = true) (· = {}) s) {j : Nat} {run : RunId}
    {res : LocalActivityResolution}
    {lai : LocalActivityInfo} {info : LocalInFlightActInfo} (hm : s.cancelsReqs[j]? = some (.timeout run res))
    (hres : res.result = .timeout .startToClose) (hl : s.laInfo.lookup ⟨run, res.seq⟩ = some lai)
    (hi : s.outstandingActivityTasks.lookup lai.taskToken = some info) :
    ∃ d, startToClose lai = some d ∧ d ≤ s.now - info.dispatchTime := by
  obtain ⟨d, hd, hle⟩ := (timed_of_reach h).2.messages run res (List.mem_of_getElem? hm) hres lai info hl hi
  have hle : info.dispatchTime + d ≤ s.now := hle
  exact ⟨d, hd, by omega⟩

/-- The first attempt fails after two units of time. Its timer ends the second one, which was started one later, after
two units. -/
theorem start_to_close_too_early :
    ∃ s, Reach Step (fun _ _ => True) (· = {}) s ∧
      s.cancelsReqs[0]?.any (isStartToClose ⟨1, 1⟩) = true ∧
      ((s.laInfo.lookup ⟨1, 1⟩).any fun lai => startToClose lai = some 5 ∧
        (s.outstandingActivityTasks.lookup lai.taskToken).any (fun info => s.now - info.dispatchTime = 2)) = true ∧
      (s.process (.nextPending (.cancel 0))).outstandingActivityTasks.entries.isEmpty = true := by
  exact exists_of_run
    [.enqueue (.new (sampleAct 1 1 (.startOnly 5))), .nextPending (.request 0), .elapse 2, .complete 1 (.failed none),
      .elapse 1, .fire 1, .nextPending (.request 0), .elapse 2, .fire 0] (by decide +kernel)

/-- An attempt that takes its full time. -/
theorem start_to_close_elapsed_once :
    ∃ s lai info d, Reach Step (fun s i => s.isUntimed i = true) (· = {}) s ∧ s.laInfo.lookup ⟨1, 1⟩ = some lai ∧
      s.outstandingActivityTasks.lookup lai.taskToken = some info ∧ startToClose lai = some d ∧
      d ≤ s.now - info.dispatchTime := by
  obtain ⟨s, hs, hm, hl⟩ : ∃ s, Reach Step (fun s i => s.isUntimed i = true) (· = {}) s ∧
      s.cancelsReqs[0]? = some (.timeout 1 { sampleDeadline with result := .timeout .startToClose, runtime := 5 }) ∧
      ((s.laInfo.lookup ⟨1, 1⟩).any fun lai => (s.outstandingActivityTasks.lookup lai.taskToken).isSome) = true :=
    exists_of_run
      [.enqueue (.new (sampleAct 1 1 (.startOnly 5))), .nextPending (.request 0), .elapse 5, .fire 0]
      (by decide +kernel)
  obtain ⟨lai, hlai, hheld⟩ := Option.any_eq_true _ _ |>.mp hl
  obtain ⟨info, hi⟩ := Option.isSome_iff_exists.mp hheld
  obtain ⟨d, hd, hle⟩ := start_to_close_elapsed hs hm rfl hlai hi
  exact ⟨s, lai, info, d, hs, hlai, hi, hd, hle⟩

end LocalActivityManager

end SdkCore
