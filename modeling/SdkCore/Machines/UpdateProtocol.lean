import SdkCore.Lib.Feed
import SdkCore.Machines.Update

/-!
# The protocol of an update

`Session` is the machine of an update with the commands to be prepared. Lang responds, commands are prepared, and
acceptance and outcome are recorded (`update_wellFormed_iff`).
-/

namespace SdkCore.UpdateMachine

/-! ## Sessions -/

structure Session where
  machine : UpdateMachine
  /-- The ids in the commands that wait for being prepared. -/
  pending : List String
  deriving DecidableEq

inductive Input
  | respond (response : UpdateLangResponse)
  | prepare
  | accepted
  | completed

def commands (responses : List UpdateMachineResponse) : List String :=
  responses.filterMap fun
    | .issueNewCommand messageId => some messageId
    | .issueNewMessage _ => none

def messages (responses : List UpdateMachineResponse) : List ProtocolMessage :=
  responses.filterMap fun
    | .issueNewCommand _ => none
    | .issueNewMessage message => some message

/-- The machine has no responses to that. -/
def prepareCommands (m : UpdateMachine) : List String → Except TransitionError UpdateMachine
  | [] => .ok m
  | _ :: pending => do
    let (_, m) ← handle m .commandProtocolMessage
    prepareCommands m pending

def Session.take (s : Session) : Input → Except TransitionError (List UpdateMachineResponse × Session)
  | .respond response => do
    let (out, m) ← s.machine.handleResponse (some response)
    return (out, ⟨m, s.pending ++ commands out⟩)
  | .prepare => do return ([], ⟨← prepareCommands s.machine s.pending, []⟩)
  | .accepted => do
    let (out, m) ← handle s.machine .workflowExecutionUpdateAccepted
    return (out, { s with machine := m })
  | .completed => do
    let (out, m) ← handle s.machine .workflowExecutionUpdateCompleted
    return (out, { s with machine := m })

/-- How far the protocol has come. -/
inductive Phase
  | requested
  | rejected
  | accepted
  /-- Lang has accepted and completed, and no command is prepared. -/
  | completedAtOnce
  | acceptPrepared
  /-- The command for the acceptance is prepared, and lang has completed. -/
  | completedEarly
  | bothPrepared
  | acceptRecorded
  /-- The acceptance is recorded, and lang has completed. -/
  | completed
  | completePrepared
  | finished
  deriving DecidableEq

/-- Responses that complete an accepted update. -/
def isOutcome : UpdateLangResponse → Bool
  | .rejected _ | .completed _ => true
  | .accepted => false

def Phase.next : Phase → Input → Option Phase
  | .requested, .respond .accepted => some .accepted
  | .requested, .respond (.rejected _) => some .rejected
  | .accepted, .respond response => if isOutcome response then some .completedAtOnce else none
  | .acceptPrepared, .respond response => if isOutcome response then some .completedEarly else none
  | .acceptRecorded, .respond response => if isOutcome response then some .completed else none
  | .accepted, .prepare => some .acceptPrepared
  | .completedAtOnce, .prepare => some .bothPrepared
  | .completedEarly, .prepare => some .bothPrepared
  | .completed, .prepare => some .completePrepared
  | phase, .prepare => some phase
  | .acceptPrepared, .accepted => some .acceptRecorded
  | .completedEarly, .accepted => some .completed
  | .bothPrepared, .accepted => some .completePrepared
  | .completePrepared, .completed => some .finished
  | _, _ => none

/-- The acceptance comes too late for the machine. -/
def Phase.wrong : Phase → Input → Bool
  | .completedEarly, .accepted => true
  | _, _ => false

def isAnswer (message : ProtocolMessage) : Bool :=
  match message.body with
  | .accept .. | .reject .. => true
  | .response .. => false

def isReject (message : ProtocolMessage) : Bool :=
  match message.body with
  | .reject .. => true
  | _ => false

def isResponse (message : ProtocolMessage) : Bool :=
  match message.body with
  | .response .. => true
  | _ => false

/-- Every command follows the message it points to. -/
def Paired : List UpdateMachineResponse → Prop
  | .issueNewMessage message :: .issueNewCommand messageId :: rest => message.id = messageId ∧ Paired rest
  | .issueNewMessage _ :: rest => Paired rest
  | .issueNewCommand _ :: _ => False
  | [] => True

/-- What the server expects. -/
structure WellFormed (ss : UpdateSharedState) (responded : Bool) (out : List UpdateMachineResponse) : Prop where
  one_answer : (messages out).countP isAnswer = if responded then 1 else 0
  one_completion : (messages out).countP isResponse ≤ 1
  rejected_only : (messages out).any isReject = true → (messages out).any isResponse = false
  paired : Paired out
  accept_first : commands out <+: [acceptId ss, completeId ss]

def Phase.responded : Phase → Bool
  | .requested => false
  | _ => true

section

variable (ss : UpdateSharedState) (request : UpdateRequest)

def rejection (failure : Failure) : List UpdateMachineResponse :=
  [buildMsg ss (rejectId ss) (.reject ss.messageId ss.eventSeqId request failure)]

def acceptance : List UpdateMachineResponse :=
  buildCommandMsg ss (acceptId ss) (.accept ss.messageId ss.eventSeqId request)

def completion (outcome : UpdateOutcome) : List UpdateMachineResponse :=
  buildCommandMsg ss (completeId ss) (.response ss.updateId outcome)

/-! ## The machine along the protocol -/

/-- The machine and what was sent, in each phase. -/
inductive Tracks : Phase → Session → List UpdateMachineResponse → Prop
  | requested : Tracks .requested ⟨⟨.requestInitiated request, ss⟩, []⟩ []
  | rejected (failure : Failure) : Tracks .rejected ⟨⟨.rejected, ss⟩, []⟩ (rejection ss request failure)
  | accepted : Tracks .accepted ⟨⟨.accepted, ss⟩, [acceptId ss]⟩ (acceptance ss request)
  | completedAtOnce (outcome : UpdateOutcome) :
    Tracks .completedAtOnce ⟨⟨.completedImmediately, ss⟩, [acceptId ss, completeId ss]⟩
      (acceptance ss request ++ completion ss outcome)
  | acceptPrepared : Tracks .acceptPrepared ⟨⟨.acceptCommandCreated, ss⟩, []⟩ (acceptance ss request)
  | completedEarly (outcome : UpdateOutcome) :
    Tracks .completedEarly ⟨⟨.completedImmediatelyAcceptCreated, ss⟩, [completeId ss]⟩
      (acceptance ss request ++ completion ss outcome)
  | bothPrepared (outcome : UpdateOutcome) :
    Tracks .bothPrepared ⟨⟨.completedImmediatelyCompleteCreated, ss⟩, []⟩
      (acceptance ss request ++ completion ss outcome)
  | acceptRecorded : Tracks .acceptRecorded ⟨⟨.acceptCommandRecorded, ss⟩, []⟩ (acceptance ss request)
  | completed (outcome : UpdateOutcome) :
    Tracks .completed ⟨⟨.completed, ss⟩, [completeId ss]⟩ (acceptance ss request ++ completion ss outcome)
  | completePrepared (outcome : UpdateOutcome) :
    Tracks .completePrepared ⟨⟨.completedCommandCreated, ss⟩, []⟩ (acceptance ss request ++ completion ss outcome)
  | finished (outcome : UpdateOutcome) :
    Tracks .finished ⟨⟨.completedCommandRecorded, ss⟩, []⟩ (acceptance ss request ++ completion ss outcome)

end

variable {ss : UpdateSharedState} {request : UpdateRequest} {phase phase' : Phase} {s : Session}
  {out : List UpdateMachineResponse} {input : Input}

theorem Tracks.wellFormed (h : Tracks ss request phase s out) : WellFormed ss phase.responded out := by
  cases h with
  | requested => exact ⟨rfl, Nat.zero_le _, nofun, trivial, List.nil_prefix⟩
  | rejected failure => exact ⟨rfl, Nat.zero_le _, fun _ => rfl, trivial, List.nil_prefix⟩
  | accepted | acceptPrepared | acceptRecorded =>
    exact ⟨rfl, Nat.zero_le _, nofun, ⟨rfl, trivial⟩, ⟨[completeId ss], rfl⟩⟩
  | completedAtOnce outcome | completedEarly outcome | bothPrepared outcome | completed outcome
  | completePrepared outcome | finished outcome =>
    exact ⟨rfl, Nat.le_refl _, nofun, ⟨rfl, rfl, trivial⟩, List.prefix_rfl⟩

theorem Tracks.silent {t : Session} (h : s.take input = .ok ([], t)) (ht : Tracks ss request phase' t out) :
    Advances Session.take (Tracks ss request phase') s input out :=
  ⟨[], t, h, by rwa [List.append_nil]⟩

/-- A step that does not go wrong. -/
theorem Session.take_tracks (h : Tracks ss request phase s out) (hn : phase.next input = some phase')
    (hw : phase.wrong input = false) : Advances Session.take (Tracks ss request phase') s input out := by
  cases input with
  | respond response =>
    cases response with
    | accepted =>
      cases h with
      | requested =>
        cases hn
        exact ⟨_, _, rfl, .accepted⟩
      | _ => cases hn
    | rejected failure =>
      cases h with
      | requested =>
        cases hn
        exact ⟨_, _, rfl, .rejected failure⟩
      | accepted | acceptPrepared | acceptRecorded =>
        cases hn
        refine ⟨_, _, rfl, ?_⟩
        constructor
      | _ => cases hn
    | completed payload =>
      cases h with
      | accepted | acceptPrepared | acceptRecorded =>
        cases hn
        refine ⟨_, _, rfl, ?_⟩
        constructor
      | _ => cases hn
  | prepare =>
    -- in every phase the commands that wait are prepared, and there is nothing to say
    cases h with
    | _ =>
      cases hn
      refine Tracks.silent rfl ?_
      constructor
  | accepted =>
    cases h with
    | acceptPrepared =>
      cases hn
      exact Tracks.silent rfl .acceptRecorded
    | completedEarly => cases hw
    | bothPrepared outcome =>
      cases hn
      exact Tracks.silent rfl (.completePrepared outcome)
    | _ => cases hn
  | completed =>
    cases h with
    | completePrepared outcome =>
      cases hn
      exact Tracks.silent rfl (.finished outcome)
    | _ => cases hn

theorem Session.take_wrong {t : Session} {o : List UpdateMachineResponse} (h : Tracks ss request phase s out)
    (hw : phase.wrong input = true) : s.take input ≠ .ok (o, t) := by
  cases h with
  | completedEarly outcome =>
    cases input with
    | accepted => exact nofun
    | _ => cases hw
  | _ => cases input <;> cases hw

/-- **The server is told what it expects, and no step is rejected, exactly if the acceptance is not recorded between the
completion by lang and its command.** -/
theorem update_wellFormed_iff (messageId instanceId : String) (eventSeqId : Int) (request : UpdateRequest)
    (replaying : Bool) (script : List Input) (phase : Phase) (h : script.foldlM Phase.next .requested = some phase) :
    (∃ out s, feed Session.take ⟨(init messageId instanceId eventSeqId request replaying).1, []⟩ script = .ok (out, s) ∧
        WellFormed ⟨messageId, instanceId, eventSeqId, request.updateId⟩ phase.responded out) ↔
      avoids Phase.next Phase.wrong .requested script = true := by
  let ss : UpdateSharedState := ⟨messageId, instanceId, eventSeqId, request.updateId⟩
  have hstep : ∀ k k' s out input, Tracks ss request k s out → Phase.next k input = some k' →
      Phase.wrong k input = false → Advances Session.take (Tracks ss request k') s input out :=
    fun _ _ _ _ _ h hn hw => Session.take_tracks h hn hw
  have hinit : Tracks ss request .requested ⟨(init messageId instanceId eventSeqId request replaying).1, []⟩ [] :=
    .requested
  constructor
  · rintro ⟨out, s, hfeed, -⟩
    exact avoids_of_feed (fun _ _ _ => trivial) hstep
      (fun _ _ _ _ _ h _ hw _ _ ht => absurd ht (Session.take_wrong h hw)) script .requested _ s [] out hinit
      (follows_iff.mpr ⟨phase, h⟩) hfeed trivial
  · intro ha
    obtain ⟨out, s, hfeed, ht⟩ := feed_of_avoids hstep script .requested phase _ [] hinit h ha
    exact ⟨out, s, hfeed, ht.wellFormed⟩

def aRequest : UpdateRequest := { updateId := "id", name := "update", input := [] }

/-- Lang has completed the update before its acceptance is recorded. -/
theorem accepted_before_completion_prepared :
    [Input.respond .accepted, .prepare, .respond (.completed 7), .accepted].foldlM Phase.next .requested =
        some .completed ∧
      ¬ ∃ out s, feed Session.take ⟨(init "m" "i" 3 aRequest false).1, []⟩
        [.respond .accepted, .prepare, .respond (.completed 7), .accepted] = .ok (out, s) := by
  refine ⟨by decide +kernel, ?_⟩
  rintro ⟨out, s, hfeed⟩
  cases hfeed

theorem update_wellFormed_at_once : ∃ out s,
    feed Session.take ⟨(init "m" "i" 3 aRequest false).1, []⟩
      [.respond .accepted, .respond (.completed 7), .prepare, .accepted, .completed] = .ok (out, s) ∧
      WellFormed ⟨"m", "i", 3, "id"⟩ Phase.finished.responded out :=
  (update_wellFormed_iff "m" "i" 3 aRequest false _ .finished (by decide +kernel)).mpr (by decide +kernel)

end SdkCore.UpdateMachine
