import SdkCore.Lib.Maps
import SdkCore.Machines.Failure
import SdkCore.Machines.InternalFlags

/-!
# Patches

`patched` and `deprecate_patch` make a `PatchMachine` with the command for its marker, and the upsert of a search
attribute. On replay `handle_command_event` walks over events and commands at once: the event or the command is skipped,
or the machine in front has the event.
-/

namespace SdkCore

def versionSearchAttrKey : String := "TemporalChangeVersion"

def maxSearchAttrPayloadSize : Nat := 2048

/-! ## The machines of a patch and of an upsert -/

inductive PatchMachineEvents
  | schedule
  | commandRecordMarker
  | markerRecorded (id : String)
  deriving DecidableEq

inductive PatchMachineState
  | executing
  | replaying
  | markerCommandCreated
  | markerCommandCreatedReplaying
  | notified
  | markerCommandRecorded
  deriving DecidableEq

structure PatchMachine where
  state : PatchMachineState
  patchId : String
  deriving DecidableEq

namespace PatchMachine

def onEvent (m : PatchMachine) (event : PatchMachineEvents) : Except TransitionError PatchMachine :=
  match m.state, event with
  | .executing, .schedule => .ok { m with state := .markerCommandCreated }
  | .replaying, .schedule => .ok { m with state := .markerCommandCreatedReplaying }
  | .markerCommandCreated, .commandRecordMarker => .ok { m with state := .notified }
  | .markerCommandCreatedReplaying, .commandRecordMarker => .ok { m with state := .notified }
  | .notified, .markerRecorded id =>
    if id ≠ m.patchId then
      .error (.nondeterminism ("Change id " ++ id ++ " does not match expected id " ++ m.patchId))
    else .ok { m with state := .markerCommandRecorded }
  | _, _ => .error .invalidTransition

def matchesPatch (m : PatchMachine) (id : String) : Bool := m.patchId = id

end PatchMachine

/-- An upsert, whether lang asked for it or core. -/
inductive UpsertSearchAttributesState
  | created
  | commandIssued
  | done
  deriving DecidableEq

namespace UpsertSearchAttributesState

def commandScheduled : UpsertSearchAttributesState → Except TransitionError UpsertSearchAttributesState
  | .created => .ok .commandIssued
  | _ => .error .invalidTransition

def commandRecorded : UpsertSearchAttributesState → Except TransitionError UpsertSearchAttributesState
  | .commandIssued => .ok .done
  | _ => .error .invalidTransition

end UpsertSearchAttributesState

section

variable {α β : Type}

/-- All other machines. `special` are markers of local activities, taken without regard to the order of commands. -/
structure OtherMachines (α β : Type) where
  handleEvent : α → β → Except TransitionError α
  wasCancelledBeforeSentToServer : α → Bool
  special : β → Bool

inductive CommandMachine (α : Type)
  | patchMachine (m : PatchMachine)
  | upsertSearchAttributesMachine (state : UpsertSearchAttributesState)
  | other (m : α)
  deriving DecidableEq

/-- What patches read of an event; search attributes are their keys. -/
inductive CommandEventAttributes (β : Type)
  | patchMarker (id : String) (deprecated : Bool)
  | upsertWorkflowSearchAttributes (searchAttributes : Option (List String))
  | other (attributes : β)
  deriving DecidableEq

structure CommandEvent (β : Type) where
  eventId : Nat
  attributes : CommandEventAttributes β
  deriving DecidableEq

structure PatchReplay.CommandAndMachine (α : Type) where
  machineKey : Nat
  machine : CommandMachine α
  deriving DecidableEq

variable (A : OtherMachines α β)

/-- Other machines are taken as they stand after that. -/
def CommandMachine.handleCommand : CommandMachine α → Except TransitionError (CommandMachine α)
  | .patchMachine m => (m.onEvent .commandRecordMarker).map .patchMachine
  | .upsertSearchAttributesMachine state => state.commandScheduled.map .upsertSearchAttributesMachine
  | .other m => .ok (.other m)

def CommandMachine.handleEvent : CommandMachine α → CommandEventAttributes β → Except TransitionError (CommandMachine α)
  | .patchMachine m, .patchMarker id _ => (m.onEvent (.markerRecorded id)).map .patchMachine
  | .patchMachine _, _ => .error (.nondeterminism "Change machine cannot handle this event")
  | .upsertSearchAttributesMachine state, .upsertWorkflowSearchAttributes _ =>
    state.commandRecorded.map .upsertSearchAttributesMachine
  | .upsertSearchAttributesMachine _, _ =>
    .error (.nondeterminism "UpsertWorkflowSearchAttributesMachine does not handle the event")
  | .other m, .other attributes => (A.handleEvent m attributes).map .other
  | .other _, _ => .error (.nondeterminism "The machine does not handle the event")

def CommandMachine.wasCancelledBeforeSentToServer : CommandMachine α → Bool
  | .other m => A.wasCancelledBeforeSentToServer m
  | _ => false

/-! ## Events against commands -/

inductive EventHandlingOutcome
  | skipEvent (skipNextEvent : Bool)
  | skipCommand
  | normal
  deriving DecidableEq

def CommandEventAttributes.upsertsVersion : CommandEventAttributes β → Bool
  | .upsertWorkflowSearchAttributes (some searchAttributes) => searchAttributes.contains versionSearchAttrKey
  | _ => false

/-- Also ignore the subsequent upsert. -/
def skipOneOrTwoEvents (nextEvent : Option (CommandEventAttributes β)) : EventHandlingOutcome :=
  .skipEvent (nextEvent.any CommandEventAttributes.upsertsVersion)

/-- A marker against the command in front. -/
def patchMarkerHandling (event : CommandEventAttributes β) (mach : Option (CommandMachine α))
    (nextEvent : Option (CommandEventAttributes β)) : Except TransitionError EventHandlingOutcome :=
  match event, mach with
  | .patchMarker patchName deprecated, some (.patchMachine pm) =>
    -- a deprecated marker may also stand before the call for another patch
    if !pm.matchesPatch patchName && deprecated then .ok (skipOneOrTwoEvents nextEvent) else .ok .normal
  | .patchMarker patchName deprecated, _ =>
    if deprecated then .ok (skipOneOrTwoEvents nextEvent)
    else .error (.nondeterminism ("Non-deprecated patch marker encountered for change " ++ patchName ++
      ", but there is no corresponding change command!"))
  | _, some (.patchMachine _) => .ok .skipCommand
  | _, _ => .ok .normal

/-- The outcome, the machine that got the event, and the commands left. -/
structure CommandEventHandled (α : Type) where
  outcome : EventHandlingOutcome
  consumed : Option Nat
  commands : List (PatchReplay.CommandAndMachine α)

def consumeCommand (event : CommandEventAttributes β) (nextEvent : Option (CommandEventAttributes β)) :
    List (PatchReplay.CommandAndMachine α) → Except TransitionError (CommandEventHandled α)
  | [] => do
    match ← patchMarkerHandling event (none : Option (CommandMachine α)) nextEvent with
    | .skipEvent skipNext => return ⟨.skipEvent skipNext, none, []⟩
    -- without a machine in front no command is skipped
    | _ => throw (.nondeterminism "No command scheduled for event")
  | c :: commands => do
    match ← patchMarkerHandling event (some c.machine) nextEvent with
    | .skipCommand => consumeCommand event nextEvent commands
    | .skipEvent skipNext => return ⟨.skipEvent skipNext, none, c :: commands⟩
    | .normal =>
      if c.machine.wasCancelledBeforeSentToServer A then consumeCommand event nextEvent commands
      else
        let _ ← c.machine.handleEvent A event
        return ⟨.normal, some c.machineKey, commands⟩

def CommandEventAttributes.special : CommandEventAttributes β → Bool
  | .other attributes => A.special attributes
  | _ => false

def handleCommandEvent (event : CommandEventAttributes β) (nextEvent : Option (CommandEventAttributes β))
    (commands : List (PatchReplay.CommandAndMachine α)) : Except TransitionError (CommandEventHandled α) :=
  if event.special A then .ok ⟨.normal, none, commands⟩ else consumeCommand A event nextEvent commands

/-- What is paired, and the commands left. `doHandleEvent` is false for an event skipped with the one before it. -/
def handleCommandEvents (doHandleEvent : Bool) :
    List (CommandEvent β) → List (PatchReplay.CommandAndMachine α) →
      Except TransitionError (List (Nat × Nat) × List (PatchReplay.CommandAndMachine α))
  | [], commands => .ok ([], commands)
  | event :: events, commands =>
    if doHandleEvent then do
      let eho ← handleCommandEvent A event.attributes (events.head?.map (·.attributes)) commands
      let (pairs, commands) ← handleCommandEvents (eho.outcome ≠ .skipEvent true) events eho.commands
      return ((eho.consumed.map (event.eventId, ·)).toList ++ pairs, commands)
    else handleCommandEvents true events commands

end

/-- The length of the JSON list of ids. -/
def serializedLen (jsonLen : String → Nat) (ids : List String) : Nat := ids.foldl (fun n id => n + (jsonLen id + 1)) 1

/-- The machine with the command for its marker, and the upsert. -/
structure HasChange where
  machine : PatchMachine
  deprecated : Bool
  upsert : Option (List String)
  deriving DecidableEq

def hasChange (jsonLen : String → Nat) (patchId : String) (replayingWhenInvoked deprecated seenInPeekahead : Bool)
    (existingPatchIds : List String) (flags : InternalFlags) : HasChange × InternalFlags :=
  let machine : PatchMachine :=
    ⟨if replayingWhenInvoked then .markerCommandCreatedReplaying else .markerCommandCreated, patchId⟩
  let replayingAndNotInHistory := replayingWhenInvoked && !seenInPeekahead
  let (canUseFlag, flags) := flags.tryUse .upsertSearchAttributeOnPatch (!replayingWhenInvoked)
  let upsert :=
    if replayingAndNotInHistory || !canUseFlag then none
    else
      let allIds := existingPatchIds.insert patchId
      if maxSearchAttrPayloadSize ≤ serializedLen jsonLen allIds then none else some allIds
  (⟨machine, deprecated, upsert⟩, flags)

/-- Patches seen in the history, with whether a command was made. -/
structure PatchCalls where
  replaying : Bool
  flags : InternalFlags
  encounteredPatchMarkers : Maps.Map String Bool

namespace PatchCalls

def existingPatchIds (s : PatchCalls) : List String :=
  (s.encounteredPatchMarkers.entries.filter fun e => e.2).map (·.1)

def setPatchMarker {α : Type} (jsonLen : String → Nat) (s : PatchCalls) (patchId : String) (deprecated : Bool) :
    List (CommandMachine α) × PatchCalls :=
  let encounteredEntry := s.encounteredPatchMarkers.lookup patchId
  if encounteredEntry = some true then ([], s)
  else
    let (change, flags) :=
      hasChange jsonLen patchId s.replaying deprecated encounteredEntry.isSome s.existingPatchIds s.flags
    (.patchMachine change.machine :: (change.upsert.map fun _ => .upsertSearchAttributesMachine .created).toList,
      { s with flags, encounteredPatchMarkers := s.encounteredPatchMarkers.insert patchId true })

end PatchCalls

end SdkCore
