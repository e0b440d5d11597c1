import SdkCore.Nexus.WorkerCommands

/-!
# The worker that receives commands

One task polls for commands of the server until the token is cancelled, and then shuts the worker down, which waits
until a poll returns the end of the stream. A task that cannot be read keeps its slot (`commands_answered`), and nobody
polls after the loop was left through the token (`shutdown_not_stuck`).
-/

namespace SdkCore.CommandLoop

open Maps NexusCompletion WorkerCommands

/-- `max_outstanding_nexus_tasks`. -/
def slots : Nat := 5

inductive Loop
  /-- In the `select!`. -/
  | selecting
  | handling (resp : PollNexusTaskQueueResponse)
  | sending (tt : TaskToken)
  | left
  /-- In `shutdown`: the `ShutdownWorker` call, the end of the polls and the return of the slots. -/
  | awaitingRpc
  | awaitingNexus
  | awaitingPermits
  | stopped
  deriving DecidableEq

/-- The worker, its loop and its callbacks. -/
structure State where
  tasks : NexusManager.Tasks
  /-- What `complete_task` reads of the outstanding tasks. Each of them has a slot. -/
  inFlight : Map TaskToken NexusInFlightTask
  everPolled : Bool
  pollReturnedShutdownToken : Bool
  shared : SharedNamespaceWorker
  loop : Loop
  received : List TaskToken
  submitted : List (TaskToken × NexusCompletion.Status)
  calls : List NexusCompletion.Call

def new : State where
  tasks := NexusManager.new none
  inFlight := ∅
  everPolled := false
  pollReturnedShutdownToken := false
  shared := .new
  loop := .selecting
  received := []
  submitted := []
  calls := []

/-! ## Steps -/

inductive Input
  | pollPending
  | poll (resp : PollNexusTaskQueueResponse) (timeout : Bool)
  | pollFailed
  /-- The poll returns a cancel, which the handler ignores. -/
  | pollCancel
  | pollShutDown
  | cancelled
  | handle (views : Nat → View) (client : NexusCompletion.Client)
  | sent
  /-- Something happens in the stream that the loop does not see. -/
  | sourceComplete
  | timerFires (tt : TaskToken)
  | timerAborted (tt : TaskToken)
  | waiter
  | registerCallback (key : Uuid) (callbacks : WorkerCallbacks)
  | unregisterCallback (key : Uuid)
  | initiateShutdown
  | rpcDone
  | shutdownSeen
  | permitsReleased

def polled (s : State) (tasks : NexusManager.Tasks) : State := { s with tasks := tasks, everPolled := true }

def receive (s : State) (resp : PollNexusTaskQueueResponse) (tasks : NexusManager.Tasks) : State :=
  { polled s tasks with
    inFlight := s.inFlight.insert resp.taskToken resp.inFlightTask
    loop := .handling resp
    received := s.received ++ [resp.taskToken] }

section

variable (decode : List UInt8 → Option (List WorkerCommand)) (encode : List WorkerCommandResult → List UInt8)
variable (toJson : NexusCompletion.Failure → Except String (List UInt8))

/-- A task is handled and its slot is free, if it is completed. -/
def handleTask (s : State) (resp : PollNexusTaskQueueResponse) (views : Nat → View)
    (client : NexusCompletion.Client) : State :=
  match (handleWorkerCommandTask decode encode views (.task resp)).1 with
  | none => { s with loop := .selecting }
  | some (tt, status) =>
    let (inFlight, sent) := completeTask toJson client s.inFlight tt status
    { s with
      tasks := NexusManager.completeTask s.tasks tt
      inFlight := inFlight
      loop := .sending tt
      submitted := s.submitted ++ [(tt, status)]
      calls := s.calls ++ sent.calls }

def step (s : State) : Input → Option State
  | .pollPending => if s.loop = .selecting then some (polled s s.tasks) else none
  | .poll resp timeout =>
    if s.loop = .selecting then
      match resp.validate with
      | .error _ => (NexusManager.step s.tasks .pollFailed).map (polled s)
      | .ok _ =>
        -- the poller has a slot before it polls
        if s.inFlight.entries.length < slots then
          (NexusManager.step s.tasks (.poll resp.taskToken timeout)).map (receive s resp)
        else none
    else none
  | .pollFailed => if s.loop = .selecting then (NexusManager.step s.tasks .pollFailed).map (polled s) else none
  | .pollCancel => if s.loop = .selecting then (NexusManager.step s.tasks .takeCancel).map (polled s) else none
  | .pollShutDown =>
    if s.loop = .selecting then
      (NexusManager.step s.tasks .shutDown).map fun tasks =>
        { polled s tasks with pollReturnedShutdownToken := true, loop := .left }
    else none
  | .cancelled => if s.loop = .selecting ∧ s.shared.cancelled = true then some { s with loop := .left } else none
  | .handle views client =>
    match s.loop with
    | .handling resp => some (handleTask decode encode toJson s resp views client)
    | _ => none
  | .sent =>
    match s.loop with
    | .sending tt =>
      (NexusManager.step s.tasks (.reported tt)).map fun tasks => { s with tasks := tasks, loop := .selecting }
    | _ => none
  | .sourceComplete => (NexusManager.step s.tasks .sourceComplete).map fun tasks => { s with tasks := tasks }
  | .timerFires tt => (NexusManager.step s.tasks (.timerFires tt)).map fun tasks => { s with tasks := tasks }
  | .timerAborted tt => (NexusManager.step s.tasks (.timerAborted tt)).map fun tasks => { s with tasks := tasks }
  | .waiter => (NexusManager.step s.tasks .waiter).map fun tasks => { s with tasks := tasks }
  | .registerCallback key callbacks => some { s with shared := s.shared.registerCallback key callbacks }
  | .unregisterCallback key => some { s with shared := (s.shared.unregisterCallback key).2 }
  | .initiateShutdown => if s.loop = .left then some { s with loop := .awaitingRpc } else none
  | .rpcDone =>
    -- `NexusManager::shutdown` returns at once if nobody has polled
    if s.loop = .awaitingRpc then
      some { s with loop := if s.everPolled then .awaitingNexus else .awaitingPermits }
    else none
  | .shutdownSeen =>
    if s.loop = .awaitingNexus ∧ s.pollReturnedShutdownToken = true then some { s with loop := .awaitingPermits }
      else none
  | .permitsReleased => if s.loop = .awaitingPermits then some { s with loop := .stopped } else none

abbrev Reachable (ok : State → Input → Prop) : State → Prop :=
  Reach (fun s i s' => step decode encode toJson s i = some s') ok (· = new)

/-! ## What a step does -/

/-- What a step does, case by case. -/
inductive Effect (s : State) : Input → State → Prop
  /-- A poll that returns no task, or nothing yet. -/
  | polled {i tasks} (h : s.loop = .selecting)
      (ho : tasks.outstandingTaskMap = s.tasks.outstandingTaskMap) : Effect s i (polled s tasks)
  | received {resp timeout} (h : s.loop = .selecting) (hv : resp.validate = .ok ()) :
      Effect s (.poll resp timeout) (receive s resp (NexusManager.handOut s.tasks resp.taskToken timeout))
  | shutDown {tasks} (h : s.loop = .selecting) (ho : tasks.outstandingTaskMap = s.tasks.outstandingTaskMap) :
      Effect s .pollShutDown { CommandLoop.polled s tasks with pollReturnedShutdownToken := true, loop := .left }
  | cancelled (h : s.loop = .selecting) : Effect s .cancelled { s with loop := .left }
  | handled {resp views client} (h : s.loop = .handling resp) :
      Effect s (.handle views client) (handleTask decode encode toJson s resp views client)
  | sent {tt} (h : s.loop = .sending tt) :
      Effect s .sent { s with tasks := NexusManager.taskCompleted s.tasks tt, loop := .selecting }
  | stream {i tasks} (ho : tasks.outstandingTaskMap = s.tasks.outstandingTaskMap) : Effect s i { s with tasks := tasks }
  | callbacks {i shared} : Effect s i { s with shared := shared }
  | initiateShutdown (h : s.loop = .left) : Effect s .initiateShutdown { s with loop := .awaitingRpc }
  | rpcDone (h : s.loop = .awaitingRpc) :
      Effect s .rpcDone { s with loop := if s.everPolled then .awaitingNexus else .awaitingPermits }
  | shutdownSeen (h : s.loop = .awaitingNexus) (ht : s.pollReturnedShutdownToken = true) :
      Effect s .shutdownSeen { s with loop := .awaitingPermits }
  | permitsReleased (h : s.loop = .awaitingPermits) : Effect s .permitsReleased { s with loop := .stopped }

variable {decode encode toJson} {s s' : State} {i : Input}

theorem waiterStep_outstanding {t t' : NexusManager.Tasks} (h : NexusManager.waiterStep t = some t') :
    t'.outstandingTaskMap = t.outstandingTaskMap := by
  obtain ⟨-, -, g, rfl⟩ | ⟨n, -, -, rfl⟩ | ⟨n, -, -, rfl⟩ | ⟨n, -, -, rfl⟩ := NexusManager.waiterStep_cases h <;> rfl

variable {resp : PollNexusTaskQueueResponse}

theorem poll_effect {timeout : Bool} (h : step decode encode toJson s (.poll resp timeout) = some s') :
    Effect decode encode toJson s (.poll resp timeout) s' := by
  simp only [step] at h
  split at h
  · next hl =>
    cases hv : resp.validate with
    | error e =>
      simp only [hv] at h
      obtain ⟨tasks, ht, rfl⟩ := Option.map_eq_some_iff.mp h
      cases NexusManager.step_effect ht
      exact .polled hl rfl
    | ok u =>
      simp only [hv] at h
      split at h
      · obtain ⟨tasks, ht, rfl⟩ := Option.map_eq_some_iff.mp h
        cases NexusManager.step_effect ht
        exact .received hl hv
      · cases h
  · cases h

/-- Every step has one of these effects. -/
theorem step_effect (h : step decode encode toJson s i = some s') : Effect decode encode toJson s i s' := by
  cases i with
  | poll resp timeout => exact poll_effect h
  | pollPending =>
    obtain ⟨hl, ⟨⟩⟩ := Option.ite_none_right_eq_some.mp h
    exact .polled hl rfl
  | pollFailed | pollCancel =>
    obtain ⟨hl, h⟩ := Option.ite_none_right_eq_some.mp h
    obtain ⟨tasks, ht, rfl⟩ := Option.map_eq_some_iff.mp h
    cases NexusManager.step_effect ht
    exact .polled hl rfl
  | pollShutDown =>
    obtain ⟨hl, h⟩ := Option.ite_none_right_eq_some.mp h
    obtain ⟨tasks, ht, rfl⟩ := Option.map_eq_some_iff.mp h
    cases NexusManager.step_effect ht
    exact .shutDown hl rfl
  | cancelled =>
    obtain ⟨hl, ⟨⟩⟩ := Option.ite_none_right_eq_some.mp h
    exact .cancelled hl.1
  | handle views client =>
    simp only [step] at h
    split at h
    · next resp hl => cases h; exact .handled hl
    · cases h
  | sent =>
    simp only [step] at h
    split at h
    · next tt hl =>
      obtain ⟨tasks, ht, rfl⟩ := Option.map_eq_some_iff.mp h
      cases NexusManager.step_effect ht
      exact .sent hl
    · cases h
  | sourceComplete =>
    cases h
    exact .stream rfl
  | timerFires | timerAborted =>
    obtain ⟨tasks, ht, rfl⟩ := Option.map_eq_some_iff.mp (by simpa only [step] using h)
    cases NexusManager.step_effect ht
    exact .stream rfl
  | waiter =>
    obtain ⟨tasks, ht, rfl⟩ := Option.map_eq_some_iff.mp (by simpa only [step] using h)
    exact .stream (waiterStep_outstanding ht)
  | registerCallback | unregisterCallback =>
    cases h
    exact .callbacks
  | initiateShutdown | rpcDone | permitsReleased =>
    obtain ⟨hl, ⟨⟩⟩ := Option.ite_none_right_eq_some.mp h
    constructor
    exact hl
  | shutdownSeen =>
    obtain ⟨hl, ⟨⟩⟩ := Option.ite_none_right_eq_some.mp h
    exact .shutdownSeen hl.1 hl.2

/-- The shutdown waits for the end of the stream, and nobody polls. -/
def Stuck (s : State) : Prop := s.loop = .awaitingNexus ∧ s.pollReturnedShutdownToken = false

/-- The loop is left through the token only if it has never polled. -/
def unpolled (s : State) : Input → Bool
  | .cancelled => !s.everPolled
  | _ => true

abbrev Unpolled (s : State) (i : Input) : Prop := unpolled s i = true

/-- Once the loop was left, the stream has ended or nobody has polled. -/
def Ended (s : State) : Prop :=
  match s.loop with
  | .left | .awaitingRpc => s.everPolled = true → s.pollReturnedShutdownToken = true
  | .awaitingNexus => s.pollReturnedShutdownToken = true
  | _ => True

theorem ended_step (h : Ended s) (hok : unpolled s i = true) (hs : step decode encode toJson s i = some s') :
    Ended s' := by
  cases step_effect hs with
  | polled hl => simp [Ended, polled, hl]
  | received | sent | shutdownSeen | permitsReleased => trivial
  | shutDown => exact fun _ => rfl
  | cancelled hl =>
    intro hp
    simp [unpolled, show s.everPolled = true from hp] at hok
  | handled =>
    rw [handleTask]
    split <;> trivial
  | stream | callbacks => exact h
  | initiateShutdown hl =>
    simp only [Ended, hl] at h
    exact h
  | rpcDone hl =>
    simp only [Ended, hl] at h
    cases hp : s.everPolled with
    | true => simpa [Ended, hp] using h hp
    | false => simp [Ended]

/-- **The shutdown is not stuck, if the token ends the loop only before it has polled.** -/
theorem shutdown_not_stuck (h : Reachable decode encode toJson Unpolled s) : ¬ Stuck s := by
  have he : Ended s := by
    refine h.invariant ?_ fun _ _ _ hi hok hs => ended_step hi hok hs
    rintro _ rfl
    trivial
  rintro ⟨hl, ht⟩
  simp only [Ended, hl] at he
  cases ht.symm.trans he

/-! ## The commands -/

def pending (s : State) : List TaskToken :=
  match s.loop with
  | .handling resp => [resp.taskToken]
  | _ => []

/-- The commands of a task can be read. -/
def readable (decode : List UInt8 → Option (List WorkerCommand)) : Input → Bool
  | .poll resp _ => !resp.validate.isOk || (resp.commands decode).isSome
  | _ => true

abbrev Readable (decode : List UInt8 → Option (List WorkerCommand)) (_ : State) (i : Input) : Prop :=
  readable decode i = true

/-- Only the task being handled has a slot, and the others were completed. -/
structure Answering (decode : List UInt8 → Option (List WorkerCommand)) (s : State) : Prop where
  tracks : Tracks s.inFlight s.tasks
  readable : ∀ resp, s.loop = .handling resp → (resp.commands decode).isSome = true
  held : ∀ tt, (s.inFlight.lookup tt).isSome = true → tt ∈ pending s
  received : s.received = s.submitted.map (·.1) ++ pending s

theorem Answering.of_same (h : Answering decode s) (hm : s'.tasks.outstandingTaskMap = s.tasks.outstandingTaskMap)
    (hi : s'.inFlight = s.inFlight) (hr : s'.received = s.received) (hs : s'.submitted = s.submitted)
    (hp : pending s' = pending s) (hl : ∀ resp, s'.loop = .handling resp → s.loop = .handling resp) :
    Answering decode s' where
  tracks tt := by
    rw [hi, hm]
    exact h.tracks tt
  readable resp hresp := h.readable resp (hl resp hresp)
  held := by
    rw [hi, hp]
    exact h.held
  received := by
    rw [hr, hs, hp]
    exact h.received

theorem answering_received (h : Answering decode s) (hl : s.loop = .selecting)
    (hc : (resp.commands decode).isSome = true) (timeout : Bool) :
    Answering decode (receive s resp (NexusManager.handOut s.tasks resp.taskToken timeout)) where
  tracks tt := by
    simp only [receive, polled, NexusManager.handOut, lookup_insert_ite]
    split
    · rfl
    · exact h.tracks tt
  readable r hr := by
    cases hr
    exact hc
  held tt ht := by
    simp only [receive, lookup_insert_ite] at ht
    split at ht
    · next he => simp [pending, receive, he]
    · simpa [pending, hl] using h.held tt ht
  received := by
    simpa [pending, receive, polled, hl] using h.received

theorem answering_handled (h : Answering decode s) (hl : s.loop = .handling resp) (views : Nat → View)
    (client : NexusCompletion.Client) : Answering decode (handleTask decode encode toJson s resp views client) := by
  obtain ⟨commands, hc⟩ := Option.isSome_iff_exists.mp (h.readable resp hl)
  rw [handleTask, handle_of_commands hc]
  refine ⟨completeTask_tracks h.tracks _, ?_, fun tt ht => ?_, ?_⟩
  · intro r hr
    cases hr
  · simp only [lookup_completeTask] at ht
    split at ht
    · cases ht
    · next hne =>
      have hp := h.held tt ht
      simp only [pending, hl, List.mem_singleton] at hp
      exact absurd hp hne
  · simpa [pending, hl] using h.received

theorem answering_step (h : Answering decode s) (hok : readable decode i = true)
    (hs : step decode encode toJson s i = some s') : Answering decode s' := by
  cases step_effect hs with
  | polled hl ho | stream ho => exact h.of_same ho rfl rfl rfl rfl fun _ hr => hr
  | received hl hv =>
    simp only [readable, hv] at hok
    exact answering_received h hl hok _
  | shutDown hl ho =>
    exact h.of_same ho rfl rfl rfl (by simp [pending, hl]) fun _ hr => by cases hr
  | cancelled hl | sent hl | initiateShutdown hl | shutdownSeen hl | permitsReleased hl =>
    exact h.of_same rfl rfl rfl rfl (by simp [pending, hl]) fun _ hr => by cases hr
  | handled hl => exact answering_handled h hl _ _
  | callbacks => exact h.of_same rfl rfl rfl rfl rfl fun _ hr => hr
  | rpcDone hl =>
    cases s.everPolled with
    | true | false => exact h.of_same rfl rfl rfl rfl (by simp [pending, hl]) fun _ hr => by cases hr

/-- **A task is completed exactly if its commands can be read, with one result for each in order; a cancel is offered
until a worker accepts it. If all tasks can be read, every one received is completed or about to be, and no other has a
slot.** -/
theorem commands_answered (decode : List UInt8 → Option (List WorkerCommand))
    (encode : List WorkerCommandResult → List UInt8) (toJson : NexusCompletion.Failure → Except String (List UInt8)) :
    (∀ views resp, (handleWorkerCommandTask decode encode views (.task resp)).1.map (·.1) = some resp.taskToken ↔
      (resp.commands decode).isSome = true) ∧
    (∀ views resp commands, resp.commands decode = some commands →
      handleWorkerCommandTask decode encode views (.task resp) =
        (some (resp.taskToken, successStatus encode commands),
          commands.mapIdx fun n command => (command.execute (views n)).2) ∧
      (successStatus encode commands).wellFormed toJson resp.inFlightTask = true) ∧
    (∀ (view : View) tt workers, view.offerCancel tt workers =
      (workers.takeWhile (!view.cancels · tt)).map (⟨·, tt, false⟩) ++
        ((workers.find? (view.cancels · tt)).map (⟨·, tt, true⟩)).toList) ∧
    ∀ s, Reachable decode encode toJson (Readable decode) s →
      s.received = s.submitted.map (·.1) ++ pending s ∧
      ∀ tt, (s.tasks.outstandingTaskMap.lookup tt).isSome = true → tt ∈ pending s := by
  refine ⟨fun _ _ => handle_completion_iff, fun _ _ _ h => ⟨handle_of_commands h, wellFormed_of_commands toJson h⟩,
    offerCancel_eq, fun s h => ?_⟩
  have ha : Answering decode s := by
    refine h.invariant ?_ fun _ _ _ hi hok hs => answering_step hi hok hs
    rintro _ rfl
    exact ⟨fun _ => rfl, nofun, nofun, rfl⟩
  exact ⟨ha.received, fun tt ht => ha.held tt (ha.tracks tt ▸ ht)⟩

end

/-! ## Runs -/

section

/-- Every byte is a cancel of the activity it names. -/
def byteCommands (bytes : List UInt8) : Option (List WorkerCommand) := some (bytes.map fun b => ⟨some b.toNat⟩)

def byteResults (results : List WorkerCommandResult) : List UInt8 :=
  results.map fun result => if result.type.isSome then 1 else 0

abbrev ByteReachable (ok : State → Input → Prop) : State → Prop :=
  Reachable byteCommands byteResults (fun _ => .ok []) ok

abbrev byteStep : State → Input → Option State := step byteCommands byteResults (fun _ => .ok [])

def noView : Nat → View := fun _ => ⟨∅, fun _ _ => false⟩

def startTask (tt : TaskToken) : PollNexusTaskQueueResponse := ⟨tt, some ⟨some (.startOperation (some [3, 4])), none⟩⟩

def cancelTask (tt : TaskToken) : PollNexusTaskQueueResponse := ⟨tt, some ⟨some .cancelOperation, none⟩⟩

def handleInputs (resp : PollNexusTaskQueueResponse) : List Input := [.poll resp false, .handle noView fun _ => .ok]

/-- A task with two commands is answered, and holds no slot any more. -/
theorem readable_task_answered :
    ∃ s, ByteReachable (Readable byteCommands) s ∧ s.received = [7] ∧ s.submitted.map (·.1) = [7] ∧
      ∀ tt, s.tasks.outstandingTaskMap.lookup tt = none := by
  obtain ⟨s, hs, hr, hp⟩ : ∃ s, ByteReachable (Readable byteCommands) s ∧ s.received = [7] ∧ pending s = [] :=
    Reach.exists_of_trace (handleInputs (startTask 7)) (by decide) (fun _ _ _ h => h) (.start rfl)
  obtain ⟨hsub, hheld⟩ := (commands_answered byteCommands byteResults fun _ => .ok []).2.2.2 s hs
  rw [hr, hp, List.append_nil] at hsub
  refine ⟨s, hs, hr, hsub.symm, fun tt => ?_⟩
  simpa [hp] using hheld tt

/-- Tasks that cannot be read take all slots, and no command is received any more. -/
theorem unreadable_tasks_block :
    ∃ s, ByteReachable (fun _ _ => True) s ∧ s.loop = .selecting ∧ s.received = [1, 2, 3, 4, 5] ∧ s.submitted = [] ∧
      ∀ resp timeout, resp.validate = .ok () → byteStep s (.poll resp timeout) = none := by
  obtain ⟨s, hs, hl, hr, hsub, hlen⟩ : ∃ s, ByteReachable (fun _ _ => True) s ∧ s.loop = .selecting ∧
      s.received = [1, 2, 3, 4, 5] ∧ s.submitted = [] ∧ s.inFlight.entries.length = 5 :=
    Reach.exists_of_trace ([1, 2, 3, 4, 5].flatMap fun tt => handleInputs (cancelTask tt)) (by decide)
      (fun _ _ _ h => h) (.start rfl)
  refine ⟨s, hs, hl, hr, hsub, fun resp timeout hv => ?_⟩
  simp [byteStep, step, hl, hv, hlen, slots]

def leaveInputs : List Input :=
  [.registerCallback 1 ⟨true⟩, .pollPending, .unregisterCallback 1, .cancelled, .initiateShutdown, .rpcDone]

def leaveAtOnceInputs : List Input :=
  [.registerCallback 1 ⟨true⟩, .unregisterCallback 1, .cancelled, .initiateShutdown, .rpcDone]

theorem loop_left_at_once_not_stuck : ∃ s, ByteReachable Unpolled s ∧ s.loop = .awaitingPermits ∧ ¬ Stuck s := by
  obtain ⟨s, hs, hl⟩ : ∃ s, ByteReachable Unpolled s ∧ s.loop = .awaitingPermits :=
    Reach.exists_of_trace leaveAtOnceInputs (by decide) (fun _ _ _ h => h) (.start rfl)
  exact ⟨s, hs, hl, shutdown_not_stuck hs⟩

/-- The loop that was left through the token never sees the end of the stream. -/
theorem cancelled_loop_stuck : ∃ s, ByteReachable (fun _ _ => True) s ∧ Stuck s := by
  obtain ⟨s, hs, hl⟩ : ∃ s, ByteReachable (fun _ _ => True) s ∧ s.loop = .awaitingNexus ∧
      s.pollReturnedShutdownToken = false :=
    Reach.exists_of_trace leaveInputs (by decide) (fun _ _ _ h => h) (.start rfl)
  exact ⟨s, hs, hl⟩

end

end SdkCore.CommandLoop
