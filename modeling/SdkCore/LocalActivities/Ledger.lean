import SdkCore.Lib.Reach
import SdkCore.LocalActivities.Manager

/-!
# The moves of the manager

`Ledger` is the manager without its notifications and its shutdown. Every step is made of a few `Move`s (`Step.moves`),
for which invariants are proved.
-/

namespace SdkCore

open Maps

/-- Requests that a sleeping task will make. -/
def Wake.requests : Wake → List Request
  | .retry request => [request]
  | _ => []

/-- Timeouts that it will send. -/
def Wake.messages (now : Nat) : Wake → List CancelOrTimeout
  | .scheduleToClose runId resolution => [.timeout runId resolution]
  | .startToClose runId resolution startedT =>
    [.timeout runId { resolution with result := .timeout .startToClose, runtime := now - startedT }]
  | _ => []

namespace LocalActivityManager

/-- Entries, attempts, requests and timers. -/
structure Ledger where
  laInfo : Map ExecutingLAId LocalActivityInfo
  outstanding : Map TaskToken LocalInFlightActInfo
  nextTtNum : Nat
  actReqs : List Request
  cancelsReqs : List CancelOrTimeout
  now : Nat
  tasks : List SpawnedTask
  nextHandle : Nat
  log : List LAEvent

def ledger (s : LocalActivityManager) : Ledger where
  laInfo := s.laInfo
  outstanding := s.outstandingActivityTasks
  nextTtNum := s.nextTtNum
  actReqs := s.actReqs
  cancelsReqs := s.cancelsReqs
  now := s.now
  tasks := s.tasks
  nextHandle := s.nextHandle
  log := s.log

def newInfo (tt : TaskToken) (bag : Option TimeoutBag) : LocalActivityInfo where
  taskToken := tt
  queuedForDispatch := bag.isSome
  backingOffTask := none
  timeoutBag := bag
  firstWftHasEnded := false
  attemptsInWft := 0
  origin := tt

/-- The tasks that are aborted with an entry. -/
def handlesOf (lai : LocalActivityInfo) : List Nat :=
  lai.backingOffTask.toList ++ lai.timeoutBag.elim [] TimeoutBag.handles

/-- The timers of a new local activity. -/
structure Bagged (act : NewLocalAct) (bag : TimeoutBag) (timers : List SpawnedTask) : Prop where
  handle : bag.startToCloseHandle = none
  dat : ∀ d run res, bag.startToCloseDurAndDat = some (d, run, res) → (⟨run, res.seq⟩ : ExecutingLAId) = act.id
  timers : ∀ task ∈ timers, ∃ run res, task.wake = .scheduleToClose run res ∧ res.result = .timedOut .scheduleToClose

/-- The timer of an attempt that is started. -/
inductive Armed (now handle : Nat) : Option TimeoutBag → Option TimeoutBag → List SpawnedTask → Prop
  | none : Armed now handle none none []
  | without {bag} (h : bag.startToCloseDurAndDat = Option.none) : Armed now handle (some bag) (some bag) []
  | timer {bag d run res} (h : bag.startToCloseDurAndDat = some (d, run, res)) :
      Armed now handle (some bag) (some { bag with startToCloseHandle := some handle })
        [⟨handle, now + d, .startToClose run res now⟩]

/-- Moves that make an entry or start an attempt are told apart from the others. -/
inductive Label
  | create (id : ExecutingLAId)
  | start (id : ExecutingLAId)
  | other
  deriving DecidableEq

/-- What the manager can do to the ledger. -/
inductive Move (s : Ledger) : Label → Ledger → Prop
  | idle : Move s .other s
  | elapse (duration : Nat) : Move s .other { s with now := s.now + duration }
  | ignore : Move s .other { s with nextTtNum := s.nextTtNum + 1 }
  | accept (act : NewLocalAct) (bag : TimeoutBag) (timers : List SpawnedTask) (h : s.laInfo.lookup act.id = none)
      (hb : Bagged act bag timers) :
      Move s (.create act.id) { s with
        nextTtNum := s.nextTtNum + 1
        laInfo := s.laInfo.insert act.id (newInfo (s.nextTtNum + 1) (some bag))
        actReqs := s.actReqs ++ [⟨.new act, s.nextTtNum + 1⟩]
        tasks := s.tasks ++ timers
        nextHandle := s.nextHandle + 1 }
  | tooLate (act : NewLocalAct) (h : s.laInfo.lookup act.id = none) :
      Move s (.create act.id) { s with
        nextTtNum := s.nextTtNum + 1
        laInfo := s.laInfo.insert act.id (newInfo (s.nextTtNum + 1) none)
        log := s.log ++ [.resolved (s.nextTtNum + 1)] }
  | cancelHeld (id : ExecutingLAId) (lai : LocalActivityInfo) (info : LocalInFlightActInfo)
      (h : s.laInfo.lookup id = some lai) (hb : lai.backingOffTask = none)
      (hi : s.outstanding.lookup lai.taskToken = some info) (hc : info.cancel = .notRequested) :
      Move s .other { s with
        cancelsReqs := s.cancelsReqs ++ [.cancel lai.taskToken]
        outstanding := s.outstanding.insert lai.taskToken { info with cancel := .queued }
        log := s.log ++ [.cancelled lai.origin] }
  | cancelAgain (id : ExecutingLAId) (lai : LocalActivityInfo) (info : LocalInFlightActInfo)
      (h : s.laInfo.lookup id = some lai) (hb : lai.backingOffTask = none)
      (hi : s.outstanding.lookup lai.taskToken = some info) (hc : info.cancel ≠ .notRequested) :
      Move s .other { s with log := s.log ++ [.cancelled lai.origin] }
  | remove (id : ExecutingLAId) (lai : LocalActivityInfo) (resolved : Bool)
      (h : s.laInfo.lookup id = some lai)
      (ho : lai.backingOffTask.isSome = true ∨ s.outstanding.lookup lai.taskToken = none)
      (hr : resolved = true → lai.backingOffTask.isSome = true ∨ lai.queuedForDispatch = true) :
      Move s .other { s with
        laInfo := s.laInfo.erase id
        tasks := s.tasks.filter (·.handle ∉ handlesOf lai)
        log := s.log ++ .cancelled lai.origin :: if resolved then [.resolved lai.origin] else [] }
  | invalidate (run : RunId) :
      Move s .other { s with
        outstanding := retain (fun _ info => info.laInfo.runId ≠ run) s.outstanding
        laInfo := retain (fun id _ => id.runId ≠ run) s.laInfo
        tasks := s.tasks.filter
          (·.handle ∉ (s.laInfo.entries.filter (·.1.runId = run)).flatMap fun e => handlesOf e.2) }
  | indicate (run : RunId) :
      Move s .other { s with
        laInfo := s.laInfo |> mapValues fun id lai =>
          if id.runId = run then { lai with firstWftHasEnded := true, attemptsInWft := 0 } else lai }
  | heartbeat (deadline : Nat) (run : RunId) :
      Move s .other { s with
        tasks := s.tasks ++ [⟨s.nextHandle, deadline, .heartbeatTimeout run⟩], nextHandle := s.nextHandle + 1 }
  | dropMessage (i : Nat) : Move s .other { s with cancelsReqs := s.cancelsReqs.eraseIdx i }
  | deliver (tt : TaskToken) (info : LocalInFlightActInfo) (hi : s.outstanding.lookup tt = some info) :
      Move s .other { s with
        outstanding := s.outstanding.insert tt { info with cancel := .delivered } }
  | dropRequest (i : Nat) : Move s .other { s with actReqs := s.actReqs.eraseIdx i }
  | late (i : Nat) (q : Request) (lai : LocalActivityInfo) (hq : s.actReqs[i]? = some q)
      (h : s.laInfo.lookup q.id = some lai) :
      Move s .other { s with
        actReqs := s.actReqs.eraseIdx i
        laInfo := s.laInfo.insert q.id { lai with queuedForDispatch := false, backingOffTask := none }
        log := s.log ++ [.resolved lai.origin] }
  | start (i : Nat) (q : Request) (lai : LocalActivityInfo) (bag : Option TimeoutBag) (timers : List SpawnedTask)
      (hq : s.actReqs[i]? = some q) (h : s.laInfo.lookup q.id = some lai)
      (hb : Armed s.now s.nextHandle lai.timeoutBag bag timers) :
      Move s (.start q.id) { s with
        actReqs := s.actReqs.eraseIdx i
        laInfo := s.laInfo.insert q.id
          { lai with queuedForDispatch := false, backingOffTask := none, timeoutBag := bag }
        outstanding := s.outstanding.insert lai.taskToken
          { laInfo := q.what.la, dispatchTime := s.now, attempt := q.what.attempt, cancel := .notRequested }
        tasks := s.tasks ++ timers
        nextHandle := s.nextHandle + timers.length
        log := s.log ++ [.started ⟨lai.taskToken, q.token, q.id, lai.origin⟩] }
  | finish (tt : TaskToken) (info : LocalInFlightActInfo) (lai : LocalActivityInfo)
      (hi : s.outstanding.lookup tt = some info) (h : s.laInfo.lookup info.laInfo.id = some lai) :
      Move s .other { s with
        outstanding := s.outstanding.erase tt
        laInfo := s.laInfo.erase info.laInfo.id
        tasks := s.tasks.filter (·.handle ∉ handlesOf lai)
        log := s.log ++ [.resolved lai.origin] }
  | retry (tt : TaskToken) (info : LocalInFlightActInfo) (lai : LocalActivityInfo) (backoff : Nat)
      (hi : s.outstanding.lookup tt = some info) (h : s.laInfo.lookup info.laInfo.id = some lai)
      (hc : info.cancel = .notRequested) :
      Move s .other { s with
        outstanding := s.outstanding.erase tt
        nextTtNum := s.nextTtNum + 1
        laInfo := (s.laInfo.erase info.laInfo.id).insert info.laInfo.id
          (retryInfo (some lai) (s.nextTtNum + 1) s.nextHandle)
        tasks := s.tasks.filter (·.handle ∉ lai.backingOffTask.toList) ++
          [⟨s.nextHandle, s.now + backoff, .retry ⟨.retry info.laInfo (info.attempt + 1), s.nextTtNum + 1⟩⟩]
        nextHandle := s.nextHandle + 1 }
  | fire (i : Nat) (task : SpawnedTask) (ht : s.tasks[i]? = some task) (hd : task.due ≤ s.now) :
      Move s .other { s with
        tasks := s.tasks.eraseIdx i
        actReqs := s.actReqs ++ task.wake.requests
        cancelsReqs := s.cancelsReqs ++ task.wake.messages s.now }

/-! ## Attempts and entries -/

/-- An attempt that lang holds is the one of an entry. An entry that backs off has none. -/
structure Tracked (s : Ledger) : Prop where
  entry : ∀ tt info, s.outstanding.lookup tt = some info →
    ∃ lai, s.laInfo.lookup info.laInfo.id = some lai ∧ lai.taskToken = tt
  bounded : ∀ id lai, s.laInfo.lookup id = some lai → lai.taskToken ≤ s.nextTtNum
  unique : ∀ id id' lai lai', s.laInfo.lookup id = some lai → s.laInfo.lookup id' = some lai' →
    lai.taskToken = lai'.taskToken → id = id'
  backsOff : ∀ id lai, s.laInfo.lookup id = some lai → lai.backingOffTask.isSome = true →
    s.outstanding.lookup lai.taskToken = none

/-- Lang holds nothing under a token to come. -/
theorem Tracked.fresh {s : Ledger} (h : Tracked s) {tt : TaskToken} (htt : s.nextTtNum < tt) :
    s.outstanding.lookup tt = none := by
  by_contra hc
  obtain ⟨info, hi⟩ := Option.ne_none_iff_exists'.mp hc
  obtain ⟨lai, hl, rfl⟩ := h.entry tt info hi
  exact Nat.not_le.mpr htt (h.bounded _ lai hl)

section

variable {s : Ledger} {id : ExecutingLAId} {lai : LocalActivityInfo}

theorem Tracked.create (hs : Tracked s) (h : s.laInfo.lookup id = none) (hlai : lai.taskToken = s.nextTtNum + 1) :
    Tracked { s with nextTtNum := s.nextTtNum + 1, laInfo := s.laInfo.insert id lai } := by
  have hnew : ∀ id' lai', s.laInfo.lookup id' = some lai' → lai'.taskToken ≠ lai.taskToken := by
    intro id' lai' h' heq
    have hle := hs.bounded id' lai' h'
    rw [heq, hlai] at hle
    exact Nat.not_succ_le_self _ hle
  constructor
  · intro tt info hi
    obtain ⟨lai', hl, htt⟩ := hs.entry tt info hi
    exact ⟨lai', (AList.lookup_insert_ne (ne_of_lookup h hl).symm).trans hl, htt⟩
  · intro id' lai' h'
    rw [lookup_insert_ite] at h'
    split at h'
    · cases h'
      exact Nat.le_of_eq hlai
    · exact Nat.le_succ_of_le (hs.bounded id' lai' h')
  · intro id₁ id₂ lai₁ lai₂ h₁ h₂ heq
    rw [lookup_insert_ite] at h₁ h₂
    split at h₁ <;> split at h₂
    · next e₁ e₂ => rw [e₁, e₂]
    · cases h₁
      exact absurd heq.symm (hnew id₂ lai₂ h₂)
    · cases h₂
      exact absurd heq (hnew id₁ lai₁ h₁)
    · exact hs.unique id₁ id₂ lai₁ lai₂ h₁ h₂ heq
  · intro id' lai' h' hback
    rw [lookup_insert_ite] at h'
    split at h'
    · cases h'
      exact hs.fresh (hlai ▸ Nat.lt_succ_self _)
    · exact hs.backsOff id' lai' h' hback

variable {las : Map ExecutingLAId LocalActivityInfo} {tt : TaskToken} {info : LocalInFlightActInfo}

theorem Tracked.adjust (hs : Tracked s) (hthere : ∀ id lai, s.laInfo.lookup id = some lai →
      ∃ lai', las.lookup id = some lai' ∧ lai'.taskToken = lai.taskToken) (hold : ∀ id lai', las.lookup id = some lai' →
      ∃ lai, s.laInfo.lookup id = some lai ∧ lai'.taskToken = lai.taskToken ∧
        (lai'.backingOffTask.isSome = true → lai.backingOffTask.isSome = true)) : Tracked { s with laInfo := las } := by
  constructor
  · intro tt info hi
    obtain ⟨lai, h, rfl⟩ := hs.entry tt info hi
    exact hthere info.laInfo.id lai h
  · intro id lai' h'
    obtain ⟨lai, h, htt, -⟩ := hold id lai' h'
    exact htt ▸ hs.bounded id lai h
  · intro id₁ id₂ lai₁ lai₂ h₁ h₂ heq
    obtain ⟨lai₃, h₃, e₃, -⟩ := hold id₁ lai₁ h₁
    obtain ⟨lai₄, h₄, e₄, -⟩ := hold id₂ lai₂ h₂
    exact hs.unique id₁ id₂ lai₃ lai₄ h₃ h₄ (by rw [← e₃, ← e₄, heq])
  · intro id lai' h' hback
    obtain ⟨lai, h, htt, hb⟩ := hold id lai' h'
    exact htt ▸ hs.backsOff id lai h (hb hback)

theorem Tracked.replace (hs : Tracked s) (lai' : LocalActivityInfo) (h : s.laInfo.lookup id = some lai)
    (htt : lai'.taskToken = lai.taskToken) (hback : lai'.backingOffTask = none) :
    Tracked { s with laInfo := s.laInfo.insert id lai' } := by
  refine hs.adjust ?_ ?_
  · intro id₁ lai₁ h₁
    by_cases e : id₁ = id
    · subst e
      cases h₁.symm.trans h
      exact ⟨lai', AList.lookup_insert _, htt⟩
    · exact ⟨lai₁, (AList.lookup_insert_ne e).trans h₁, rfl⟩
  · intro id₁ lai₁ h₁
    rw [lookup_insert_ite] at h₁
    split at h₁
    · next e =>
      cases h₁
      exact ⟨lai, e ▸ h, htt, fun hb => by rw [hback] at hb; cases hb⟩
    · exact ⟨lai₁, h₁, rfl, fun hb => hb⟩

theorem Tracked.hold (hs : Tracked s) (info : LocalInFlightActInfo) (h : s.laInfo.lookup info.laInfo.id = some lai)
    (hback : lai.backingOffTask = none) :
    Tracked { s with outstanding := s.outstanding.insert lai.taskToken info } := by
  refine ⟨?_, hs.bounded, hs.unique, ?_⟩
  · intro tt info' hi
    rw [lookup_insert_ite] at hi
    split at hi
    · next e =>
      cases hi
      exact ⟨lai, h, e.symm⟩
    · exact hs.entry tt info' hi
  · intro id' lai' h' hb
    have hne : lai'.taskToken ≠ lai.taskToken := by
      intro heq
      cases hs.unique _ _ lai' lai h' h heq
      cases h'.symm.trans h
      rw [hback] at hb
      cases hb
    exact (AList.lookup_insert_ne hne).trans (hs.backsOff id' lai' h' hb)

theorem Tracked.setCancel (hs : Tracked s) (hi : s.outstanding.lookup tt = some info)
    (cancel : CancelDelivery) : Tracked { s with outstanding := s.outstanding.insert tt { info with cancel } } := by
  obtain ⟨lai, h, rfl⟩ := hs.entry tt info hi
  refine hs.hold { info with cancel } h ?_
  by_contra hback
  rw [hs.backsOff _ lai h (Option.isSome_iff_ne_none.mpr hback)] at hi
  cases hi

theorem Tracked.shrink (hs : Tracked s) {tasks : Map TaskToken LocalInFlightActInfo}
    (hl : ∀ id lai, las.lookup id = some lai → s.laInfo.lookup id = some lai)
    (ho : ∀ tt info, tasks.lookup tt = some info → s.outstanding.lookup tt = some info ∧
      las.lookup info.laInfo.id = s.laInfo.lookup info.laInfo.id) :
        Tracked { s with outstanding := tasks, laInfo := las } := by
  constructor
  · intro tt info hi
    obtain ⟨hi, hsame⟩ := ho tt info hi
    obtain ⟨lai, h, htt⟩ := hs.entry tt info hi
    exact ⟨lai, hsame.trans h, htt⟩
  · intro id lai h
    exact hs.bounded id lai (hl id lai h)
  · intro id₁ id₂ lai₁ lai₂ h₁ h₂
    exact hs.unique id₁ id₂ lai₁ lai₂ (hl id₁ lai₁ h₁) (hl id₂ lai₂ h₂)
  · intro id lai h hback
    refine Option.eq_none_iff_forall_ne_some.mpr fun info hi => ?_
    have hnone := hs.backsOff id lai (hl id lai h) hback
    cases hnone.symm.trans (ho lai.taskToken info hi).1

theorem Tracked.remove (hs : Tracked s) (h : s.laInfo.lookup id = some lai)
    (ho : s.outstanding.lookup lai.taskToken = none) : Tracked { s with laInfo := s.laInfo.erase id } := by
  refine hs.shrink (fun id' lai' h' => (lookup_of_erase h').2) fun tt info hi => ⟨hi, AList.lookup_erase_ne ?_⟩
  rintro rfl
  obtain ⟨lai', h', rfl⟩ := hs.entry tt info hi
  cases h'.symm.trans h
  cases ho.symm.trans hi

/-- An attempt and its entry end together. -/
theorem Tracked.finish (hs : Tracked s) (hi : s.outstanding.lookup tt = some info) :
    Tracked { s with
      outstanding := s.outstanding.erase tt, laInfo := s.laInfo.erase info.laInfo.id } := by
  refine hs.shrink (fun id' lai' h' => (lookup_of_erase h').2) fun tt' info' hi' => ?_
  obtain ⟨hne, hheld⟩ := lookup_of_erase hi'
  refine ⟨hheld, AList.lookup_erase_ne fun e => hne ?_⟩
  obtain ⟨lai, h, htt⟩ := hs.entry tt info hi
  obtain ⟨lai', h', htt'⟩ := hs.entry tt' info' hheld
  rw [e, h] at h'
  cases h'
  exact htt'.symm.trans htt

theorem Tracked.invalidate (hs : Tracked s) (run : RunId) :
    Tracked { s with
      outstanding := retain (fun _ info => info.laInfo.runId ≠ run) s.outstanding
      laInfo := retain (fun id _ => id.runId ≠ run) s.laInfo } := by
  refine hs.shrink ?_ ?_
  · intro id lai h
    rw [lookup_retain, Option.filter_eq_some_iff] at h
    exact h.1
  · intro tt info hi
    rw [lookup_retain, Option.filter_eq_some_iff] at hi
    obtain ⟨lai, h, -⟩ := hs.entry tt info hi.1
    refine ⟨hi.1, ?_⟩
    rw [lookup_retain, h]
    exact Option.filter_eq_some_iff.mpr ⟨rfl, hi.2⟩

end

/-- **Every move keeps attempts and entries in step.** -/
theorem Move.tracked {s t : Ledger} {l : Label} (h : Move s l t) (hs : Tracked s) : Tracked t := by
  cases h with
  | idle => exact hs
  | elapse | cancelAgain | heartbeat | dropMessage | dropRequest | fire => exact { hs with }
  | ignore => exact ⟨hs.entry, fun id lai h => Nat.le_succ_of_le (hs.bounded id lai h), hs.unique, hs.backsOff⟩
  | accept act bag timers h | tooLate act h => exact { hs.create h rfl with }
  | cancelHeld id lai info h hback hi hc => exact { hs.setCancel hi .queued with }
  | remove id lai resolved h ho hr =>
    have hnone : s.outstanding.lookup lai.taskToken = none := ho.elim (hs.backsOff id lai h) fun h => h
    exact { hs.remove h hnone with }
  | invalidate run => exact { hs.invalidate run with }
  | indicate run =>
    refine hs.adjust ?_ ?_
    · intro id lai h
      refine ⟨_, by rw [lookup_mapValues, h]; rfl, ?_⟩
      split <;> rfl
    · intro id lai' h'
      rw [lookup_mapValues, Option.map_eq_some_iff] at h'
      obtain ⟨lai, h, rfl⟩ := h'
      refine ⟨lai, h, ?_⟩
      split <;> exact ⟨rfl, fun hb => hb⟩
  | deliver tt info hi => exact hs.setCancel hi .delivered
  | late i q lai hq h =>
    let lai' := { lai with queuedForDispatch := false, backingOffTask := none }
    exact { hs.replace lai' h rfl rfl with }
  | start i q lai bag timers hq h harm =>
    let lai' := { lai with queuedForDispatch := false, backingOffTask := none, timeoutBag := bag }
    have hnow : (s.laInfo.insert q.id lai').lookup q.what.la.id = some lai' := AList.lookup_insert _
    exact { (hs.replace lai' h rfl rfl).hold ⟨q.what.la, s.now, q.what.attempt, .notRequested⟩ hnow rfl with }
  | finish tt info lai hi h => exact { hs.finish hi with }
  | retry tt info lai backoff hi h hc => exact { (hs.finish hi).create (AList.lookup_erase _ _) rfl with }

/-! ## Every step is made of moves -/

@[simp]
theorem ledger_notifyOne (s : LocalActivityManager) : s.notifyOne.ledger = s.ledger := rfl

@[simp]
theorem ledger_setShutdownCompleteIfReady (s : LocalActivityManager) :
    s.setShutdownCompleteIfReady.ledger = s.ledger := by
  unfold setShutdownCompleteIfReady
  split <;> rfl

/-- Moves that neither make an entry for a new local activity nor hand an attempt to lang. -/
abbrev Moves : Ledger → Ledger → Prop := Relation.ReflTransGen fun s t => Move s .other t

def Label.from (s : LocalActivityManager) (i : Input) : Label → Prop
  | .create id => ∃ act, i = .enqueue (.new act) ∧ act.id = id
  | .start id => ∃ j q, i = .nextPending (.request j) ∧ s.actReqs[j]? = some q ∧ q.id = id
  | .other => True

variable {s s' : LocalActivityManager}

theorem newTimeoutBag_bagged {act : NewLocalAct} {bag : TimeoutBag} (h : newTimeoutBag act s = .ok (bag, s')) :
    ∃ timers, Bagged act bag timers ∧
      s' = { s with tasks := s.tasks ++ timers, nextHandle := s.nextHandle + 1 } := by
  rcases hc : act.scheduleCmd.closeTimeouts.intoSchedAndStart with ⟨scheduleToClose, startToClose⟩
  simp only [newTimeoutBag, hc] at h
  have hdat : ∀ (res : LocalActivityResolution), res.seq = act.scheduleCmd.seq → ∀ d run res',
      (startToClose.map fun d => (d, act.runId, res)) = some (d, run, res') →
      (⟨run, res'.seq⟩ : ExecutingLAId) = act.id := by
    intro res hres d run res' h
    obtain ⟨_, -, h⟩ := Option.map_eq_some_iff.mp h
    cases h
    simp [NewLocalAct.id, hres]
  split at h
  · cases h
  · cases h
    refine ⟨[_], ⟨rfl, hdat _ rfl, fun task ht => ?_⟩, rfl⟩
    cases List.mem_singleton.mp ht
    exact ⟨_, _, rfl, rfl⟩
  · cases h
    exact ⟨[], ⟨rfl, hdat _ rfl, by simp⟩, by simp⟩

/-- A local activity that is too late already is resolved at once. -/
theorem enqueueNew_move (act : NewLocalAct) (s : LocalActivityManager) :
    Move s.ledger .other (s.enqueueNew act).2.ledger ∨
      Move s.ledger (.create act.id) (s.enqueueNew act).2.ledger := by
  unfold enqueueNew
  simp only [genNextToken]
  split
  · exact .inl .ignore
  · next h =>
    split
    · next tb s' hb =>
      obtain ⟨timers, hbag, rfl⟩ := newTimeoutBag_bagged hb
      exact .inr (.accept act tb timers h hbag)
    · exact .inr (.tooLate act h)

def removed (s : Ledger) (id : ExecutingLAId) (lai : LocalActivityInfo) (resolved : Bool) : Ledger :=
  { s with
    laInfo := s.laInfo.erase id
    tasks := s.tasks.filter (·.handle ∉ handlesOf lai)
    log := s.log ++ .cancelled lai.origin :: if resolved then [.resolved lai.origin] else [] }

/-- A cancel keeps the entry and resolves nothing, or removes it. -/
inductive Cancelled (id : ExecutingLAId) (s : LocalActivityManager) :
    Bool × Option LocalActivityResolution × LocalActivityManager → Prop
  | missing : Cancelled id s (false, none, s)
  | queued (lai : LocalActivityInfo) (info : LocalInFlightActInfo) (h : s.laInfo.lookup id = some lai)
      (hb : lai.backingOffTask = none) (hi : s.outstandingActivityTasks.lookup lai.taskToken = some info)
      (hc : info.cancel = .notRequested) : Cancelled id s (false, none, record [.cancelled lai.origin] { s with
        cancelsReqs := s.cancelsReqs ++ [.cancel lai.taskToken]
        outstandingActivityTasks := s.outstandingActivityTasks.insert lai.taskToken { info with cancel := .queued } })
  | again (lai : LocalActivityInfo) (info : LocalInFlightActInfo) (h : s.laInfo.lookup id = some lai)
      (hb : lai.backingOffTask = none) (hi : s.outstandingActivityTasks.lookup lai.taskToken = some info)
      (hc : info.cancel ≠ .notRequested) : Cancelled id s (false, none, s.record [.cancelled lai.origin])
  | removed {res s'} (lai : LocalActivityInfo) (h : s.laInfo.lookup id = some lai)
      (ho : lai.backingOffTask.isSome = true ∨ s.outstandingActivityTasks.lookup lai.taskToken = none)
      (hr : res.isSome = true → lai.backingOffTask.isSome = true ∨ lai.queuedForDispatch = true)
      (hn : s'.workflowNotifications = s.workflowNotifications) (hs : s'.ledger = removed s.ledger id lai false) :
      Cancelled id s (true, res, s')

theorem cancelLa_cancelled (id : ExecutingLAId) (s : LocalActivityManager) : Cancelled id s (cancelLa id s) := by
  cases h : s.laInfo.lookup id with
  | none =>
    simp only [cancelLa, h]
    exact .missing
  | some lai =>
    cases hb : lai.backingOffTask with
    | some t =>
      simp only [cancelLa, h, cancelOneLa, hb]
      refine .removed lai h (.inl (by simp [hb])) (fun _ => .inl (by simp [hb])) rfl ?_
      simp [ledger, LocalActivityManager.removed, record, abort, dropBag, handlesOf, hb, Bool.and_comm]
    | none =>
      cases hi : s.outstandingActivityTasks.lookup lai.taskToken with
      | some info =>
        by_cases hc : info.cancel = .notRequested
        · simp only [cancelLa, h, cancelOneLa, hb, hi, hc, if_true]
          exact .queued lai info h hb hi hc
        · simp only [cancelLa, h, cancelOneLa, hb, hi, hc, if_false]
          exact .again lai info h hb hi hc
      | none =>
        by_cases hq : lai.queuedForDispatch = true
        · simp only [cancelLa, h, cancelOneLa, hb, hi, hq, if_true]
          refine .removed lai h (.inr hi) (fun _ => .inr hq) rfl ?_
          simp [ledger, LocalActivityManager.removed, record, abort, dropBag, handlesOf, hb]
        · simp only [cancelLa, h, cancelOneLa, hb, hi, hq]
          refine .removed lai h (.inr hi) (by simp) rfl ?_
          simp [ledger, LocalActivityManager.removed, record, abort, dropBag, handlesOf, hb]

theorem cancelLa_moves (id : ExecutingLAId) (s : LocalActivityManager) :
    Move s.ledger .other (cancelLa id s).2.2.ledger := by
  have h := cancelLa_cancelled id s
  generalize cancelLa id s = x at h
  cases h with
  | missing => exact .idle
  | queued lai info h hb hi hc => exact .cancelHeld id lai info h hb hi hc
  | again lai info h hb hi hc => exact .cancelAgain id lai info h hb hi hc
  | removed lai h ho hr hn hs =>
    rw [hs]
    exact .remove id lai false h ho (by simp)

theorem enqueueCancel_move (id : ExecutingLAId) (s : LocalActivityManager) :
    Move s.ledger .other (s.enqueueCancel id).2.ledger := by
  have h := cancelLa_cancelled id s
  have hmoves := cancelLa_moves id s
  unfold enqueueCancel
  generalize cancelLa id s = x at h hmoves
  cases h with
  | missing | queued | again => simpa [record] using hmoves
  | @removed res s' lai h ho hr hn hs =>
    have hmove := Move.remove (s := s.ledger) id lai res.isSome h ho hr
    have hl : ∀ events, (s'.record events).ledger = { s'.ledger with log := s'.ledger.log ++ events } := fun _ => rfl
    simp only [h, if_true, ledger_notifyOne, ledger_setShutdownCompleteIfReady, hl, hs]
    cases res <;> simpa [LocalActivityManager.removed] using hmove

theorem cancelAllInRun_moves (runId : RunId) (s : LocalActivityManager) :
    Moves s.ledger (s.cancelAllInRun runId).ledger := by
  have hfold : ∀ (ids : List ExecutingLAId) (s : LocalActivityManager),
      Moves s.ledger (ids.foldl (fun s id => (cancelLa id s).2.2) s).ledger := by
    intro ids
    induction ids with
    | nil => exact fun s => .refl
    | cons id ids ih => exact fun s => .head (cancelLa_moves id s) (ih _)
  unfold cancelAllInRun
  simp only []
  split
  · simpa using hfold _ s
  · exact hfold _ s

theorem setShutdownCompleteIfReady_eq (s : LocalActivityManager) :
    ∃ b, s.setShutdownCompleteIfReady = { s with shutdownComplete := b } := by
  unfold setShutdownCompleteIfReady
  split
  · exact ⟨true, rfl⟩
  · exact ⟨s.shutdownComplete, rfl⟩

theorem dropOutstanding_eq (s : LocalActivityManager) (tt : TaskToken) :
    ∃ b, (if s.workflowsHaveShutDown then
        setShutdownCompleteIfReady { s with outstandingActivityTasks := s.outstandingActivityTasks.erase tt }
        else { s with outstandingActivityTasks := s.outstandingActivityTasks.erase tt }) =
        { s with outstandingActivityTasks := s.outstandingActivityTasks.erase tt, shutdownComplete := b } := by
  split
  · exact setShutdownCompleteIfReady_eq _
  · exact ⟨s.shutdownComplete, rfl⟩

theorem cancel_of_failurePath {info : LocalInFlightActInfo} {status : LocalActivityExecutionResult}
    {backoff : Option Nat} (h : outcome info status = .failurePath backoff) : info.cancel = .notRequested := by
  unfold outcome at h
  cases status <;> simp at h <;> grind

/-- A result ends the entry, or the local activity backs off. -/
theorem complete_move (hs : Tracked s.ledger) (tt : TaskToken) (status : LocalActivityExecutionResult) :
    Move s.ledger .other (s.complete tt status).2.ledger := by
  cases hi : s.outstandingActivityTasks.lookup tt with
  | none =>
    simp only [complete, hi]
    exact .idle
  | some info =>
    obtain ⟨lai, hl, -⟩ := hs.entry tt info hi
    have hl : s.laInfo.lookup info.laInfo.id = some lai := hl
    obtain ⟨b, hb⟩ := dropOutstanding_eq s tt
    have hfinish : Move s.ledger .other _ := .finish tt info lai hi hl
    simp only [complete, hi, hb, hl]
    cases ho : outcome info status with
    | justReport =>
      simpa [ledger, record, abort, dropBag, handlesOf, notifyOne, Bool.and_comm] using hfinish
    | failurePath backoff =>
      cases backoff with
      | none => simpa [ledger, record, abort, dropBag, handlesOf, Bool.and_comm] using hfinish
      | some backoff =>
        have hretry : Move s.ledger .other _ := .retry tt info lai backoff hi hl (cancel_of_failurePath ho)
        by_cases hlong : backoff > info.laInfo.scheduleCmd.localRetryThreshold
        · simpa [hlong, ledger, record, abort, dropBag, handlesOf, Bool.and_comm] using hfinish
        · simpa [hlong, ledger, abort, spawn, genNextToken] using hretry

theorem takeCancel_move (hs : Tracked s.ledger) (msg : CancelOrTimeout) :
    Move s.ledger .other (s.takeCancel msg).2.ledger := by
  unfold takeCancel
  split
  · next tt =>
    split
    · exact .idle
    · next info hi => exact .deliver tt info hi
  · split
    · exact .idle
    · exact complete_move hs _ _

theorem markStarted_armed (bag : Option TimeoutBag) (s : LocalActivityManager) :
    ∃ timers, Armed s.now s.nextHandle bag (s.markStarted bag).1 timers ∧
      (s.markStarted bag).2 =
        { s with tasks := s.tasks ++ timers, nextHandle := s.nextHandle + timers.length } := by
  cases bag with
  | none => exact ⟨[], .none, by simp [markStarted]⟩
  | some bag =>
    cases hd : bag.startToCloseDurAndDat with
    | none =>
      simp only [markStarted, hd]
      exact ⟨[], .without hd, by simp⟩
    | some dat =>
      have harm : Armed s.now s.nextHandle (some bag) _ _ := .timer hd
      rw [hd] at harm
      simp only [markStarted, hd]
      exact ⟨_, harm, rfl⟩

/-- A request starts an attempt, or it came too late. -/
theorem takeRequest_move {i : Nat} {q : Request} (hq : s.actReqs[i]? = some q) :
    Move s.ledger .other ({ s with actReqs := s.actReqs.eraseIdx i }.takeRequest q).2.ledger ∨
      Move s.ledger (.start q.id) ({ s with actReqs := s.actReqs.eraseIdx i }.takeRequest q).2.ledger := by
  cases h : s.laInfo.lookup q.id with
  | none =>
    have h' : s.laInfo.lookup q.what.la.id = none := h
    simp only [takeRequest, h']
    exact .inl (.dropRequest i)
  | some lai =>
    have h' : s.laInfo.lookup q.what.la.id = some lai := h
    simp only [takeRequest, h']
    split
    · rw [ledger_notifyOne, ledger_setShutdownCompleteIfReady]
      exact .inl (.late i q lai hq h)
    · refine .inr ?_
      obtain ⟨timers, harm, hs⟩ := markStarted_armed lai.timeoutBag { s with
        actReqs := s.actReqs.eraseIdx i
        laInfo := s.laInfo.insert q.what.la.id { lai with queuedForDispatch := false, backingOffTask := none } }
      rw [hs]
      simp only [AList.insert_insert]
      exact .start i q lai _ timers hq h harm

theorem fire_move (i : Nat) (s : LocalActivityManager) : Move s.ledger .other (s.fire i).ledger := by
  unfold LocalActivityManager.fire
  split
  · exact .idle
  · next task ht =>
    split
    · next hd =>
      have hfire : Move s.ledger .other _ := .fire i task ht hd
      unfold wake
      split <;> simp_all [ledger, Wake.requests, Wake.messages]
    · exact .idle

theorem invalidateRun_move (run : RunId) (s : LocalActivityManager) :
    Move s.ledger .other (s.invalidateRun run).ledger := by
  unfold invalidateRun
  rw [ledger_notifyOne, ledger_setShutdownCompleteIfReady]
  exact .invalidate run

/-- **Every step is made of moves.** -/
theorem Step.moves {i : Input} (h : Step s i s') (hs : Tracked s.ledger) :
    (∃ l, l.from s i ∧ Move s.ledger l s'.ledger) ∨ Moves s.ledger s'.ledger := by
  subst h
  have hmove : ∀ {t}, Move s.ledger .other t → (∃ l, l.from s i ∧ Move s.ledger l t) ∨ Moves s.ledger t :=
    fun h => .inr (.single h)
  cases i with
  | enqueue req =>
    simp only [process, enqueue, List.foldl_cons, List.foldl_nil]
    split
    · exact hmove .idle
    · cases req with
      | new act =>
        rcases enqueueNew_move act s with h | h
        · exact hmove h
        · exact .inl ⟨.create act.id, ⟨act, rfl, rfl⟩, h⟩
      | cancel id => exact hmove (enqueueCancel_move id s)
      | cancelAllInRun run => exact .inr (cancelAllInRun_moves run s)
      | invalidateRun run => exact hmove (invalidateRun_move run s)
      | startHeartbeatTimeout run deadline => exact hmove (.heartbeat deadline run)
      | indicateWorkflowTaskCompleted run => exact hmove (.indicate run)
  | nextPending receive =>
    simp only [process, nextPending]
    split
    · exact hmove .idle
    · cases receive with
      | cancel j =>
        cases hm : s.cancelsReqs[j]? with
        | none =>
          simp only [hm]
          exact hmove .idle
        | some msg =>
          simp only [hm]
          have hs' : Tracked { s with cancelsReqs := s.cancelsReqs.eraseIdx j }.ledger := { hs with }
          exact .inr (.head (.dropMessage j) (.single (takeCancel_move hs' msg)))
      | request j =>
        cases hq : s.actReqs[j]? with
        | none =>
          simp only [hq]
          exact hmove .idle
        | some q =>
          simp only [hq]
          rcases takeRequest_move hq with h | h
          · exact hmove h
          · exact .inl ⟨.start q.id, ⟨j, q, rfl, hq, rfl⟩, h⟩
  | complete tt status => exact hmove (complete_move hs tt status)
  | workflowsHaveShutdown =>
    simp only [process, workflowsHaveShutdown, ledger_setShutdownCompleteIfReady]
    exact hmove .idle
  | shutdownInitiated =>
    simp only [process, shutdownInitiated, ledger_setShutdownCompleteIfReady]
    exact hmove .idle
  | elapse duration => exact hmove (.elapse duration)
  | fire j => exact hmove (fire_move j s)

theorem tracked_init : Tracked (ledger {}) := by
  constructor <;> simp [ledger]

/-- What every move keeps holds in every run. -/
theorem Reach.ledger_invariant {ok : LocalActivityManager → Input → Prop} {R : Ledger → Label → Prop}
    {I : Ledger → Prop} {s₀ : LocalActivityManager} (hinit : Tracked s₀.ledger ∧ I s₀.ledger) (hother : ∀ s, R s .other)
    (hok : ∀ s i l, ok s i → l.from s i → R s.ledger l) (hmove : ∀ s l t, Tracked s → I s → R s l → Move s l t → I t)
    (h : Reach Step ok (· = s₀) s) : Tracked s.ledger ∧ I s.ledger := by
  refine Reach.invariant (I := fun s => Tracked s.ledger ∧ I s.ledger) ?_ ?_ h
  · rintro s rfl
    exact hinit
  · rintro s i s' ⟨hs, hI⟩ hi hstep
    rcases hstep.moves hs with ⟨l, hl, hm⟩ | hm
    · exact ⟨hm.tracked hs, hmove _ l _ hs hI (hok s i l hi hl) hm⟩
    · generalize s'.ledger = t at hm
      induction hm with
      | refl => exact ⟨hs, hI⟩
      | tail _ hm ih => exact ⟨hm.tracked ih.1, hmove _ .other _ ih.1 ih.2 (hother _) hm⟩

/-- Every step keeps attempts and entries in step. -/
theorem Step.tracked {i : Input} (h : Step s i s') (hs : Tracked s.ledger) : Tracked s'.ledger := by
  have hr : Reach Step (fun _ _ => True) (· = s) s' := .step (.start rfl) trivial h
  exact (Reach.ledger_invariant (R := fun _ _ => True) ⟨hs, trivial⟩ (fun _ => trivial)
    (fun _ _ _ _ _ => trivial) (fun _ _ _ _ _ _ _ => trivial) hr).1

theorem Reach.tracked {ok : LocalActivityManager → Input → Prop} (h : Reach Step ok (· = {}) s) : Tracked s.ledger :=
  Reach.invariant (I := fun s => Tracked s.ledger) (fun _ h => h ▸ tracked_init) (fun _ _ _ hs _ h => h.tracked hs) h

/-- **An attempt that lang holds is the last one of its local activity, which does not back off.** -/
theorem attempts_tracked (inputs : List Input) : Tracked (inputs.foldl process {}).ledger :=
  List.foldlRecOn (motive := fun s => Tracked s.ledger) inputs process tracked_init fun _ hs _ _ => Step.tracked rfl hs

end LocalActivityManager

end SdkCore
