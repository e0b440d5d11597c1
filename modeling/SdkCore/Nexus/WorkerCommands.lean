import SdkCore.Client.WorkerSet
import SdkCore.Nexus.Completion

/-!
# Commands to the workers of a namespace

Each cancel of an activity is offered to the workers until one knows it, and the task is completed with one result for
each command. A task that cannot be read is dropped (`handle_completion_iff`). `decode` and `encode` stand for protobuf.
-/

namespace SdkCore.WorkerCommands

open Maps NexusCompletion

inductive RequestVariant
  | startOperation (payload : Option (List UInt8))
  | cancelOperation
  deriving DecidableEq

structure Request where
  variant : Option RequestVariant
  capabilities : Option Bool
  deriving DecidableEq

structure PollNexusTaskQueueResponse where
  taskToken : TaskToken
  request : Option Request
  deriving DecidableEq

/-- `validate` of the poller. Zero stands for the empty token. -/
def PollNexusTaskQueueResponse.validate (resp : PollNexusTaskQueueResponse) : Except String Unit :=
  if resp.taskToken = 0 then .error "missing task token"
  else
    match resp.request with
    | none => .error "missing request field"
    | some request =>
      match request.variant with
      | none => .error "missing request variant"
      | some _ => .ok ()

def PollNexusTaskQueueResponse.inFlightTask (resp : PollNexusTaskQueueResponse) : NexusInFlightTask where
  requestKind :=
    match resp.request.bind (·.variant) with
    | some (.startOperation _) => .start
    | some .cancelOperation => .cancel
    | none => default
  capabilities := resp.request.bind (·.capabilities)

inductive NexusTask
  | task (resp : PollNexusTaskQueueResponse)
  | cancelTask (cancel : NexusManager.CancelNexusTask)
  deriving DecidableEq

structure WorkerCommand where
  type : Option TaskToken
  deriving DecidableEq

inductive WorkerCommandResultType
  | cancelActivity
  deriving DecidableEq

structure WorkerCommandResult where
  type : Option WorkerCommandResultType
  deriving DecidableEq

/-- The callbacks, and which workers know an activity. -/
structure View where
  callbacksMap : Map Uuid WorkerCallbacks
  cancels : Uuid → TaskToken → Bool

structure Offer where
  worker : Uuid
  taskToken : TaskToken
  accepted : Bool
  deriving DecidableEq

def View.cancelCallbacks (view : View) : List Uuid :=
  (view.callbacksMap.entries.filter (·.2.cancelActivity)).map (·.1)

/-- Offer a cancel until it is accepted. -/
def View.offerCancel (view : View) (tt : TaskToken) : List Uuid → List Offer
  | [] => []
  | worker :: rest =>
    if view.cancels worker tt then [⟨worker, tt, true⟩] else ⟨worker, tt, false⟩ :: view.offerCancel tt rest

def WorkerCommand.execute (command : WorkerCommand) (view : View) : WorkerCommandResult × List Offer :=
  match command.type with
  | some tt => (⟨some .cancelActivity⟩, view.offerCancel tt view.cancelCallbacks)
  | none => (⟨none⟩, [])

/-! ## Handling a task -/

section

variable (decode : List UInt8 → Option (List WorkerCommand)) (encode : List WorkerCommandResult → List UInt8)
variable (views : Nat → View)

/-- The completion that is submitted, and the offers. -/
def handleWorkerCommandTask : NexusTask → Option (TaskToken × NexusCompletion.Status) × List (List Offer)
  | .cancelTask _ => (none, [])
  | .task resp =>
    match resp.request with
    | none => (none, [])
    | some request =>
      match request.variant with
      | some (.startOperation payload) =>
        match decode (payload.getD []) with
        | none => (none, [])
        | some commands =>
          let done := commands.mapIdx fun n command => command.execute (views n)
          (some (resp.taskToken, .completed (some (.startOperation (some (.syncSuccess (encode (done.map (·.1)))))))),
            done.map (·.2))
      | _ => (none, [])

def PollNexusTaskQueueResponse.commands (resp : PollNexusTaskQueueResponse) : Option (List WorkerCommand) :=
  match resp.request.bind (·.variant) with
  | some (.startOperation payload) => decode (payload.getD [])
  | _ => none

def successStatus (commands : List WorkerCommand) : NexusCompletion.Status :=
  .completed (some (.startOperation (some (.syncSuccess
    (encode (commands.map fun command => ⟨command.type.map fun _ => .cancelActivity⟩))))))

variable {decode encode views} {resp : PollNexusTaskQueueResponse}

theorem execute_result (command : WorkerCommand) (view : View) :
    (command.execute view).1 = ⟨command.type.map fun _ => .cancelActivity⟩ := by
  rw [WorkerCommand.execute]
  cases command.type <;> rfl

/-- All workers up to the first that knows the activity. -/
theorem offerCancel_eq (view : View) (tt : TaskToken) (workers : List Uuid) :
    view.offerCancel tt workers =
      (workers.takeWhile (!view.cancels · tt)).map (⟨·, tt, false⟩) ++
        ((workers.find? (view.cancels · tt)).map (⟨·, tt, true⟩)).toList := by
  induction workers with
  | nil => rfl
  | cons worker rest ih =>
    rw [View.offerCancel, List.takeWhile_cons, List.find?_cons]
    cases view.cancels worker tt with
    | true => rfl
    | false => simp [ih]

theorem handle_of_commands {commands : List WorkerCommand} (h : resp.commands decode = some commands) :
    handleWorkerCommandTask decode encode views (.task resp) =
      (some (resp.taskToken, successStatus encode commands),
        commands.mapIdx fun n command => (command.execute (views n)).2) := by
  obtain ⟨tt, request⟩ := resp
  rcases request with _ | ⟨_ | payload | _, capabilities⟩
  · cases h
  · cases h
  · have hd : decode (payload.getD []) = some commands := h
    have hr : (commands.mapIdx fun n command => command.execute (views n)).map (·.1) =
        commands.map fun command => ⟨command.type.map fun _ => .cancelActivity⟩ := by
      apply List.ext_getElem?
      simp [Function.comp_def, execute_result]
    have ho : (commands.mapIdx fun n command => command.execute (views n)).map (·.2) =
        commands.mapIdx fun n command => (command.execute (views n)).2 := by
      apply List.ext_getElem?
      simp [Function.comp_def]
    simp only [handleWorkerCommandTask, hd, successStatus, hr, ho]
  · cases h

theorem handle_of_not_commands (h : resp.commands decode = none) :
    handleWorkerCommandTask decode encode views (.task resp) = (none, []) := by
  obtain ⟨tt, request⟩ := resp
  rcases request with _ | ⟨_ | payload | _, capabilities⟩
  · rfl
  · rfl
  · have hd : decode (payload.getD []) = none := h
    simp only [handleWorkerCommandTask, hd]
  · rfl

/-- A task is completed iff its commands can be read. -/
theorem handle_completion_iff :
    (handleWorkerCommandTask decode encode views (.task resp)).1.map (·.1) = some resp.taskToken ↔
      (resp.commands decode).isSome = true := by
  cases h : resp.commands decode with
  | none => simp [handle_of_not_commands h]
  | some commands => simp [handle_of_commands h]

theorem wellFormed_of_commands (toJson : NexusCompletion.Failure → Except String (List UInt8))
    {commands : List WorkerCommand}
    (h : resp.commands decode = some commands) :
    (successStatus encode commands).wellFormed toJson resp.inFlightTask = true := by
  rw [PollNexusTaskQueueResponse.commands] at h
  split at h
  · next payload hv =>
    simp [successStatus, Status.wellFormed, startWellFormed, PollNexusTaskQueueResponse.inFlightTask, hv]
  · cases h

end

end SdkCore.WorkerCommands
