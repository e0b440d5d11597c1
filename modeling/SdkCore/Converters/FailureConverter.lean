import SdkCore.Lib.Feed

/-!
# Failures and errors

`toError` turns failures of the server into errors, and `toFailure` errors of workflow code into failures. Message and
stack trace of every level can be moved into encoded attributes. An error keeps its failure with its own message
restored, but with the causes as they came, so these lose their attributes when it is encoded again
(`reencode_keeps_iff`).
-/

namespace SdkCore.FailureConverter

variable {π : Type}

abbrev PayloadConversionError := String

/-- The attributes of a failure that can be moved into a payload. -/
structure CommonAttributes where
  message : String
  stackTrace : String
  deriving DecidableEq

structure PayloadConverter (π : Type) where
  toPayload : CommonAttributes → Except PayloadConversionError π
  fromPayload : π → Except PayloadConversionError CommonAttributes

structure ApplicationFailureInfo (π : Type) where
  typeName : String
  nonRetryable : Bool
  details : Option (List π)
  nextRetryDelay : Option Nat
  benign : Bool
  deriving DecidableEq

def ApplicationFailureInfo.default : ApplicationFailureInfo π := ⟨"", false, none, none, false⟩

/-- What kind of failure it is. Only what application failures and cancellations hold is used. -/
inductive FailureInfo (π : Type)
  | application (info : ApplicationFailureInfo π)
  | timeout
  | canceled (details : Option (List π))
  | terminated
  | server
  | resetWorkflow
  | activity
  | childWorkflowExecution
  | nexusOperationExecution
  | nexusHandler
  deriving DecidableEq

/-- A failure of the server, with its cause. -/
inductive Failure (π : Type)
  | mk (message stackTrace : String) (encodedAttributes : Option π) (failureInfo : Option (FailureInfo π))
      (cause : Option (Failure π))

namespace Failure

def applicationFailure (message : String) (nonRetryable : Bool) : Failure π :=
  .mk message "" none (some (.application { ApplicationFailureInfo.default with nonRetryable := nonRetryable })) none

/-- The attributes of each level: those of the failure that it keeps. -/
def levels : Failure π → List CommonAttributes
  | .mk message stackTrace _ _ none => [⟨message, stackTrace⟩]
  | .mk message stackTrace _ _ (some cause) => ⟨message, stackTrace⟩ :: levels cause

end Failure

/-- Message and stack trace of every level go into a payload. -/
def encodeCommonAttributes (conv : PayloadConverter π) : Failure π → Except PayloadConversionError (Failure π)
  | .mk message stackTrace _ failureInfo none => do
    let encoded ← conv.toPayload ⟨message, stackTrace⟩
    return .mk "Encoded failure" "" (some encoded) failureInfo none
  | .mk message stackTrace _ failureInfo (some cause) => do
    let cause ← encodeCommonAttributes conv cause
    let encoded ← conv.toPayload ⟨message, stackTrace⟩
    return .mk "Encoded failure" "" (some encoded) failureInfo (some cause)

/-! ## Errors that come in -/

inductive IncomingKind
  | application
  | timeout
  | cancelled
  | terminated
  | server
  | resetWorkflow
  | activity
  | childWorkflowExecution
  | nexusOperationExecution
  | nexusHandler
  deriving DecidableEq

/-- An error with the failure that it keeps and its decoded cause. -/
inductive IncomingError (π : Type)
  | mk (kind : IncomingKind) (failure : Failure π) (cause : Option (IncomingError π))

namespace IncomingError

def failure : IncomingError π → Failure π
  | .mk _ failure _ => failure

/-- The attributes of each level of the error, which are those of the failure that the level keeps. -/
def levels : IncomingError π → List CommonAttributes
  | .mk _ (.mk message stackTrace _ _ _) none => [⟨message, stackTrace⟩]
  | .mk _ (.mk message stackTrace _ _ _) (some cause) => ⟨message, stackTrace⟩ :: levels cause

end IncomingError

/-- The kind of error that a failure becomes. -/
def kindOf : Option (FailureInfo π) → IncomingKind
  | some (.application _) | none => .application
  | some .timeout => .timeout
  | some (.canceled _) => .cancelled
  | some .terminated => .terminated
  | some .server => .server
  | some .resetWorkflow => .resetWorkflow
  | some .activity => .activity
  | some .childWorkflowExecution => .childWorkflowExecution
  | some .nexusOperationExecution => .nexusOperationExecution
  | some .nexusHandler => .nexusHandler

/-- The attributes of a level after decoding. A payload that cannot be decoded is ignored. -/
def decodeAttributes (conv : PayloadConverter π) (attributes : CommonAttributes) (encodedAttributes : Option π) :
    CommonAttributes :=
  match encodedAttributes with
  | none => attributes
  | some encoded =>
    match conv.fromPayload encoded with
    | .ok decoded => decoded
    | .error _ => attributes

/-- Attributes are restored in the failure that a level keeps, but not in the causes of that failure. -/
def decodeFailure (conv : PayloadConverter π) : Failure π → IncomingError π
  | .mk message stackTrace encoded failureInfo none =>
    let attributes := decodeAttributes conv ⟨message, stackTrace⟩ encoded
    .mk (kindOf failureInfo) (.mk attributes.message attributes.stackTrace encoded failureInfo none) none
  | .mk message stackTrace encoded failureInfo (some cause) =>
    let attributes := decodeAttributes conv ⟨message, stackTrace⟩ encoded
    .mk (kindOf failureInfo) (.mk attributes.message attributes.stackTrace encoded failureInfo (some cause))
      (some (decodeFailure conv cause))

def toError (conv : PayloadConverter π) (failure : Failure π) : IncomingError π := decodeFailure conv failure

/-- An error of something else, with what it displays and the error behind it. -/
inductive GenericError
  | mk (text : String) (source : Option GenericError)

/-- A caller-facing error that keeps the failure it was made from. -/
structure FailureError (π : Type) where
  failure : Failure π
  cause : Option (IncomingError π)

inductive ActivityExecutionError (π : Type)
  | failed (error : FailureError π)
  | cancelled (error : FailureError π)
  | serialization (error : GenericError)

inductive ChildWorkflowExecutionError (π : Type)
  | failed (error : FailureError π)
  | serialization (error : GenericError)

inductive ChildWorkflowStartError (π : Type)
  | cancelled (error : FailureError π)
  | startFailed (error : GenericError)
  | serialization (error : GenericError)

inductive WorkflowSignalError (π : Type)
  | notFound (error : FailureError π)
  | failed (error : FailureError π)
  | serialization (error : GenericError)

inductive CancelExternalWorkflowError (π : Type)
  | notFound (error : FailureError π)
  | failed (error : FailureError π)
  | serialization (error : GenericError)

/-- A cancelled activity whose failure is a cancellation in an activity failure is reported as the former. -/
def ActivityExecutionError.adapt (isCancelled : Bool) : IncomingError π → ActivityExecutionError π
  | .mk .activity failure (some (.mk .cancelled inner cause)) =>
    if isCancelled then .cancelled ⟨inner, cause⟩ else .failed ⟨failure, some (.mk .cancelled inner cause)⟩
  | .mk .activity failure cause => .failed ⟨failure, cause⟩
  | .mk .cancelled failure cause => if isCancelled then .cancelled ⟨failure, cause⟩ else .failed ⟨failure, none⟩
  | .mk _ failure _ => .failed ⟨failure, none⟩

def ChildWorkflowExecutionError.adapt : IncomingError π → ChildWorkflowExecutionError π
  | .mk .childWorkflowExecution failure cause => .failed ⟨failure, cause⟩
  | .mk _ failure _ => .failed ⟨failure, none⟩

def ChildWorkflowStartError.adapt : IncomingError π → ChildWorkflowStartError π
  | .mk .cancelled failure cause => .cancelled ⟨failure, cause⟩
  | .mk _ failure _ => .cancelled ⟨failure, none⟩

def WorkflowSignalError.adapt (isNotFound : Bool) : IncomingError π → WorkflowSignalError π
  | .mk _ failure cause => if isNotFound then .notFound ⟨failure, cause⟩ else .failed ⟨failure, cause⟩

def CancelExternalWorkflowError.adapt (isNotFound : Bool) : IncomingError π → CancelExternalWorkflowError π
  | .mk _ failure cause => if isNotFound then .notFound ⟨failure, cause⟩ else .failed ⟨failure, cause⟩

/-! ## Errors that go out -/

/-- What an application failure says about itself. -/
structure ApplicationAttributes (δ : Type) where
  typeName : Option String
  nonRetryable : Bool
  nextRetryDelay : Option Nat
  benign : Bool
  details : Option δ

def ApplicationAttributes.info {δ : Type} (app : ApplicationAttributes δ) (details : Option (List π)) : FailureInfo π :=
  .application ⟨app.typeName.getD "", app.nonRetryable, details, app.nextRetryDelay, app.benign⟩

/-- An error that workflow code may return. -/
inductive SourceError (π : Type)
  | activityExecution (error : ActivityExecutionError π)
  | childWorkflowExecution (error : ChildWorkflowExecutionError π)
  | childWorkflowStart (error : ChildWorkflowStartError π)
  | workflowSignal (error : WorkflowSignalError π)
  | cancelExternalWorkflow (error : CancelExternalWorkflowError π)
  /-- An application failure, made from `source`, with details that can be encoded or not. -/
  | application (text : String) (app : ApplicationAttributes (Except PayloadConversionError (List π)))
      (cause : Option (IncomingError π)) (source behind : SourceError π)
  /-- Any other error, with what it displays and the error behind it. -/
  | generic (text : String) (source : Option (SourceError π))

/-- An application failure with what it was made from. -/
structure ApplicationFailure (π : Type) where
  source : SourceError π
  text : String
  typeName : Option String
  nonRetryable : Bool
  nextRetryDelay : Option Nat
  benign : Bool
  details : Option (Except PayloadConversionError (List π))
  cause : Option (IncomingError π)

/-- What a workflow fails with. -/
inductive OutgoingWorkflowError (π : Type)
  | application (app : ApplicationFailure π)
  | payloadConversion (error : GenericError)
  | activityExecution (error : ActivityExecutionError π)
  | childWorkflowExecution (error : ChildWorkflowExecutionError π)
  | childWorkflowStart (error : ChildWorkflowStartError π)
  | workflowSignal (error : WorkflowSignalError π)
  | cancelExternalWorkflow (error : CancelExternalWorkflowError π)

/-- The errors that a workflow can return as they are. -/
def SourceError.outgoing (text : String) : SourceError π → OutgoingWorkflowError π
  | .activityExecution (.serialization error) => .payloadConversion error
  | .activityExecution error => .activityExecution error
  | .childWorkflowExecution (.serialization error) => .payloadConversion error
  | .childWorkflowExecution error => .childWorkflowExecution error
  | .childWorkflowStart (.serialization error) => .payloadConversion error
  | .childWorkflowStart error => .childWorkflowStart error
  | .workflowSignal (.serialization error) => .payloadConversion error
  | .workflowSignal error => .workflowSignal error
  | .cancelExternalWorkflow (.serialization error) => .payloadConversion error
  | .cancelExternalWorkflow error => .cancelExternalWorkflow error
  | .application text app cause source _ =>
    .application ⟨source, text, app.typeName, app.nonRetryable, app.nextRetryDelay, app.benign, app.details, cause⟩
  | .generic text' source => .application ⟨.generic text' source, text, none, false, none, false, none, none⟩

def genericApplicationFailure (text : String) (cause : Option (Failure π)) : Failure π :=
  .mk text "" none (some (.application .default)) cause

def encodeGenericApplicationFailure : GenericError → Failure π
  | .mk text none => genericApplicationFailure text none
  | .mk text (some source) => genericApplicationFailure text (some (encodeGenericApplicationFailure source))

/-- An error of a child workflow is encoded itself, with the conversion error behind it. -/
def encodeChildSerialization : GenericError → Failure π
  | .mk text source =>
    genericApplicationFailure ("Payload conversion failed: " ++ text)
      (some (encodeGenericApplicationFailure (.mk text source)))

def ActivityExecutionError.encodeFailure : ActivityExecutionError π → Failure π
  | .failed error | .cancelled error => error.failure
  | .serialization error => encodeGenericApplicationFailure error

def ChildWorkflowExecutionError.encodeFailure : ChildWorkflowExecutionError π → Failure π
  | .failed error => error.failure
  | .serialization error => encodeChildSerialization error

def ChildWorkflowStartError.encodeFailure : ChildWorkflowStartError π → Failure π
  | .cancelled error => error.failure
  | .startFailed error => encodeGenericApplicationFailure error
  | .serialization error => encodeChildSerialization error

def WorkflowSignalError.encodeFailure : WorkflowSignalError π → Failure π
  | .notFound error | .failed error => error.failure
  | .serialization error => encodeGenericApplicationFailure error

def CancelExternalWorkflowError.encodeFailure : CancelExternalWorkflowError π → Failure π
  | .notFound error | .failed error => error.failure
  | .serialization error => encodeGenericApplicationFailure error

def failedErrorConversionMessage (originalError converterError : String) : String :=
  "Failed converting error to failure: " ++ converterError ++ ", original error message: " ++ originalError

mutual

def encodeErrorAsFailure : SourceError π → Failure π
  | .activityExecution error => error.encodeFailure
  | .childWorkflowExecution error => error.encodeFailure
  | .childWorkflowStart error => error.encodeFailure
  | .workflowSignal error => error.encodeFailure
  | .cancelExternalWorkflow error => error.encodeFailure
  | .application text app cause source behind =>
    match app.details.mapM id with
    | .ok details =>
      .mk text "" none (some (app.info details)) ((cause.map (·.failure)).or (encodeApplicationFailureCause source))
    | .error e => genericApplicationFailure (failedErrorConversionMessage text e) (some (encodeErrorAsFailure behind))
  | .generic text none => genericApplicationFailure text none
  | .generic text (some source) => genericApplicationFailure text (some (encodeErrorAsFailure source))

/-- The failure displays an application failure or generic source, so its cause is what is behind this. -/
def encodeApplicationFailureCause : SourceError π → Option (Failure π)
  | .activityExecution error => some error.encodeFailure
  | .childWorkflowExecution error => some error.encodeFailure
  | .childWorkflowStart error => some error.encodeFailure
  | .workflowSignal error => some error.encodeFailure
  | .cancelExternalWorkflow error => some error.encodeFailure
  | .application _ _ _ _ behind => some (encodeErrorAsFailure behind)
  | .generic _ none => none
  | .generic _ (some source) => some (encodeErrorAsFailure source)

end

/-- The cause, or else what is behind the source. -/
def ApplicationFailure.encodeCause (app : ApplicationFailure π) : Option (Failure π) :=
  match app.cause with
  | some cause => some cause.failure
  | none => encodeApplicationFailureCause app.source

def ApplicationFailure.encodeFailure (app : ApplicationFailure π) : Except PayloadConversionError (Failure π) := do
  let details ← app.details.mapM id
  return .mk app.text "" none (some (.application ⟨app.typeName.getD "", app.nonRetryable, details, app.nextRetryDelay,
    app.benign⟩)) app.encodeCause

def OutgoingWorkflowError.encodeFailure : OutgoingWorkflowError π → Except PayloadConversionError (Failure π)
  | .application app => app.encodeFailure
  | .payloadConversion error => .ok (encodeGenericApplicationFailure error)
  | .activityExecution error => .ok error.encodeFailure
  | .childWorkflowExecution error => .ok error.encodeFailure
  | .childWorkflowStart error => .ok error.encodeFailure
  | .workflowSignal error => .ok error.encodeFailure
  | .cancelExternalWorkflow error => .ok error.encodeFailure

/-- `DefaultFailureConverter::to_failure` for a workflow error that displays `originalError`. -/
def toFailure (isEncoding : Bool) (conv : PayloadConverter π) (originalError : String)
    (error : OutgoingWorkflowError π) :
    Failure π :=
  let failure :=
    match error.encodeFailure with
    | .ok failure => failure
    | .error converterError => .applicationFailure (failedErrorConversionMessage originalError converterError) false
  if isEncoding then
    match encodeCommonAttributes conv failure with
    | .ok encoded => encoded
    | .error _ => .applicationFailure "Failed encoding failure attributes" false
  else failure

/-! ## Levels -/

/-- What is left in clear text. -/
def placeholder : CommonAttributes := ⟨"Encoded failure", ""⟩

/-- The converter decodes what it encodes. -/
def RoundTrips (conv : PayloadConverter π) : Prop :=
  ∀ attributes encoded, conv.toPayload attributes = .ok encoded → conv.fromPayload encoded = .ok attributes

section Encoding

variable {conv : PayloadConverter π} {failure encoded : Failure π}
  {message stackTrace : String} {old : Option π} {info : Option (FailureInfo π)}

theorem encodeCommonAttributes_root
    (h : encodeCommonAttributes conv (.mk message stackTrace old info none) = .ok encoded) :
    ∃ p, conv.toPayload ⟨message, stackTrace⟩ = .ok p ∧ encoded = .mk "Encoded failure" "" (some p) info none := by
  obtain ⟨p, hp, h⟩ := bind_eq_ok.mp h
  exact ⟨p, hp, (Except.ok.inj h).symm⟩

theorem encodeCommonAttributes_caused {cause : Failure π}
    (h : encodeCommonAttributes conv (.mk message stackTrace old info (some cause)) = .ok encoded) :
    ∃ p c, conv.toPayload ⟨message, stackTrace⟩ = .ok p ∧ encodeCommonAttributes conv cause = .ok c ∧
      encoded = .mk "Encoded failure" "" (some p) info (some c) := by
  obtain ⟨c, hc, h⟩ := bind_eq_ok.mp h
  obtain ⟨p, hp, h⟩ := bind_eq_ok.mp h
  exact ⟨p, c, hp, hc, (Except.ok.inj h).symm⟩

/-- What was encoded is decoded at every level. -/
theorem levels_decodeFailure (hconv : RoundTrips conv) : ∀ {failure encoded : Failure π},
    encodeCommonAttributes conv failure = .ok encoded → (decodeFailure conv encoded).levels = failure.levels
  | .mk message stackTrace old info none, _, h => by
    obtain ⟨p, hp, rfl⟩ := encodeCommonAttributes_root h
    simp [decodeFailure, decodeAttributes, hconv _ _ hp, IncomingError.levels, Failure.levels]
  | .mk message stackTrace old info (some cause), _, h => by
    obtain ⟨p, c, hp, hc, rfl⟩ := encodeCommonAttributes_caused h
    simp [decodeFailure, decodeAttributes, hconv _ _ hp, IncomingError.levels, Failure.levels,
      levels_decodeFailure hconv hc]

/-- Nothing is left in clear text. -/
theorem levels_encodeCommonAttributes : ∀ {failure encoded : Failure π},
    encodeCommonAttributes conv failure = .ok encoded →
      encoded.levels = List.replicate failure.levels.length placeholder
  | .mk message stackTrace old info none, _, h => by
    obtain ⟨p, -, rfl⟩ := encodeCommonAttributes_root h
    rfl
  | .mk message stackTrace old info (some cause), _, h => by
    obtain ⟨p, c, -, hc, rfl⟩ := encodeCommonAttributes_caused h
    simp [Failure.levels, levels_encodeCommonAttributes hc, List.replicate_succ, placeholder]

/-- The failure kept is restored at its first level only. -/
theorem levels_failure_decodeFailure (conv : PayloadConverter π) (failure : Failure π) :
    (decodeFailure conv failure).failure.levels =
      (decodeFailure conv failure).levels.take 1 ++ failure.levels.tail := by
  cases failure with
  | mk message stackTrace old info cause =>
    cases cause <;> simp [decodeFailure, IncomingError.failure, IncomingError.levels, Failure.levels]

end Encoding

/-! ## Handing an error on -/

/-- The error of something that the workflow has called, made from `e`. -/
inductive MadeFrom (e : IncomingError π) : SourceError π → Prop
  | activity (isCancelled : Bool) {error : FailureError π}
      (h : ActivityExecutionError.adapt isCancelled e = .failed error) : MadeFrom e (.activityExecution (.failed error))
  | childWorkflow : MadeFrom e (.childWorkflowExecution (.adapt e))
  | childWorkflowStart : MadeFrom e (.childWorkflowStart (.adapt e))
  | signal (isNotFound : Bool) : MadeFrom e (.workflowSignal (.adapt isNotFound e))
  | cancelExternal (isNotFound : Bool) : MadeFrom e (.cancelExternalWorkflow (.adapt isNotFound e))

/-- How a workflow can fail with `e`, and how many levels this puts on top: it returns the error of a call, an
application failure with `e` as cause, or one made from such an error or from one with text around it. -/
inductive HandedOn (e : IncomingError π) : OutgoingWorkflowError π → Nat → Prop
  | returned (text : String) {source : SourceError π} (h : MadeFrom e source) : HandedOn e (source.outgoing text) 0
  | cause {app} (h : app.cause = some e) : HandedOn e (.application app) 1
  | source {app source} (hc : app.cause = none) (h : MadeFrom e source)
      (hs : app.source = source ∨ ∃ text, app.source = .generic text (some source)) : HandedOn e (.application app) 1

section Handing

variable {e : IncomingError π} {source : SourceError π} {error : OutgoingWorkflowError π} {added : Nat}

theorem adapt_failed {isCancelled : Bool} {e' : FailureError π}
    (h : ActivityExecutionError.adapt isCancelled e = .failed e') : e'.failure = e.failure := by
  unfold ActivityExecutionError.adapt at h
  split at h
  · split at h
    · cases h
    · cases h
      rfl
  · cases h
    rfl
  · split at h
    · cases h
    · cases h
      rfl
  · cases h
    rfl

/-- Such an error is encoded as the failure that it keeps. -/
theorem MadeFrom.encodeErrorAsFailure (h : MadeFrom e source) : encodeErrorAsFailure source = e.failure := by
  cases h with
  | activity _ h => exact adapt_failed h
  | childWorkflow | childWorkflowStart =>
    obtain ⟨kind, failure, cause⟩ := e
    cases kind <;> rfl
  | signal isNotFound | cancelExternal isNotFound =>
    obtain ⟨kind, failure, cause⟩ := e
    cases isNotFound <;> rfl

theorem MadeFrom.encode_outgoing (h : MadeFrom e source) (text : String) :
    (source.outgoing text).encodeFailure = .ok e.failure := by
  rw [← h.encodeErrorAsFailure]
  cases h with
  | activity => rfl
  | childWorkflow | childWorkflowStart =>
    obtain ⟨kind, failure, cause⟩ := e
    cases kind <;> rfl
  | signal isNotFound | cancelExternal isNotFound =>
    obtain ⟨kind, failure, cause⟩ := e
    cases isNotFound <;> rfl

theorem encodeApplicationFailureCause_eq (h : MadeFrom e source) {s : SourceError π}
    (hs : s = source ∨ ∃ text, s = .generic text (some source)) : encodeApplicationFailureCause s = some e.failure := by
  rcases hs with rfl | ⟨text, rfl⟩
  · have hne : encodeApplicationFailureCause s = some (encodeErrorAsFailure s) := by
      cases h <;> rfl
    rw [hne, h.encodeErrorAsFailure]
  · rw [encodeApplicationFailureCause, h.encodeErrorAsFailure]

theorem levels_encodeFailure_application {app : ApplicationFailure π} {failure cause : Failure π}
    (hc : app.encodeCause = some cause) (h : app.encodeFailure = .ok failure) :
      failure.levels = ⟨app.text, ""⟩ :: cause.levels := by
  obtain ⟨details, -, h⟩ := bind_eq_ok.mp h
  cases h
  simp only [hc, Failure.levels]

/-- Below what is put on top are the levels of the failure kept. -/
theorem HandedOn.levels_encodeFailure (h : HandedOn e error added) {failure : Failure π}
    (hf : error.encodeFailure = .ok failure) : failure.levels.drop added = e.failure.levels := by
  cases h with
  | returned _ h =>
    rw [h.encode_outgoing] at hf
    cases hf
    rfl
  | cause h =>
    rw [levels_encodeFailure_application (by rw [ApplicationFailure.encodeCause, h]) hf]
    rfl
  | source hc h hs =>
    have hcause := encodeApplicationFailureCause_eq h hs
    rw [levels_encodeFailure_application (by rw [ApplicationFailure.encodeCause, hc, hcause]) hf]
    rfl

end Handing

/-! ## Encoding an error again -/

/-- The failure of an error is encoded again, unless the converter refuses something. -/
def reencode (conv : PayloadConverter π) (error : OutgoingWorkflowError π) :
    Except PayloadConversionError (Failure π) := do
  let failure ← error.encodeFailure
  encodeCommonAttributes conv failure

section Again

variable {conv : PayloadConverter π} {original encoded again : Failure π} {error : OutgoingWorkflowError π}
    {added : Nat}

theorem toFailure_of_reencode (text : String) (h : reencode conv error = .ok again) :
    toFailure true conv text error = again := by
  obtain ⟨failure, hf, ha⟩ := bind_eq_ok.mp h
  simp only [toFailure, hf, ha, if_true]

theorem levels_ne_nil (failure : Failure π) : failure.levels ≠ [] := by
  obtain ⟨message, stackTrace, encoded, info, cause⟩ := failure
  cases cause <;> simp [Failure.levels]

/-- An error keeps one level, and placeholders. -/
theorem levels_kept (hconv : RoundTrips conv) (henc : encodeCommonAttributes conv original = .ok encoded) :
    (toError conv encoded).failure.levels =
      original.levels.take 1 ++ List.replicate (original.levels.length - 1) placeholder := by
  rw [toError, levels_failure_decodeFailure, levels_decodeFailure hconv henc, levels_encodeCommonAttributes henc,
    List.tail_replicate]

theorem take_append_placeholders {l : List CommonAttributes} (hl : l ≠ []) :
    l.take 1 ++ List.replicate (l.length - 1) placeholder = l ↔ ∀ a ∈ l.tail, a = placeholder := by
  obtain ⟨x, xs, rfl⟩ := List.exists_cons_of_ne_nil hl
  simp only [List.take_succ_cons, List.take_zero, List.length_cons, Nat.add_sub_cancel, List.cons_append,
    List.nil_append, List.cons.injEq, true_and, List.tail_cons]
  rw [eq_comm, List.eq_replicate_iff]
  exact ⟨fun h => h.2, fun h => ⟨rfl, h⟩⟩

/-- **A failure that is encoded again keeps its attributes iff those below its first level were placeholders.** The
workflow fails with the decoded error, which is encoded and decoded: the original levels come back iff all but the first
have the message `Encoded failure` and no stack trace. -/
theorem reencode_keeps_iff (hconv : RoundTrips conv) (henc : encodeCommonAttributes conv original = .ok encoded)
    (hand : HandedOn (toError conv encoded) error added) (hagain : reencode conv error = .ok again) (text : String) :
    (toError conv (toFailure true conv text error)).levels.drop added = original.levels ↔
      ∀ a ∈ original.levels.tail, a = placeholder := by
  obtain ⟨failure, hf, ha⟩ := bind_eq_ok.mp hagain
  rw [toFailure_of_reencode text hagain, toError, levels_decodeFailure hconv ha, hand.levels_encodeFailure hf,
    levels_kept hconv henc]
  exact take_append_placeholders (levels_ne_nil original)

end Again

def plainConverter : PayloadConverter CommonAttributes := ⟨.ok, .ok⟩

theorem roundTrips_plain : RoundTrips plainConverter := by
  intro attributes encoded h
  exact congrArg Except.ok (Except.ok.inj h).symm

def activityFailure (cause : Option (Failure CommonAttributes)) : Failure CommonAttributes :=
  .mk "activity failed" "main.rs:1" none (some .activity) cause

def encodedActivityFailure (cause : Option (Failure CommonAttributes)) : Failure CommonAttributes :=
  .mk "Encoded failure" "" (some ⟨"activity failed", "main.rs:1"⟩) (some .activity) cause

def diskFull : Failure CommonAttributes := .mk "disk full" "disk.rs:7" none (some (.application .default)) none

def encodedDiskFull : Failure CommonAttributes :=
  .mk "Encoded failure" "" (some ⟨"disk full", "disk.rs:7"⟩) (some (.application .default)) none

/-- The cause of an activity failure is lost when the workflow fails with it. -/
theorem reencode_loses_cause :
    encodeCommonAttributes plainConverter (activityFailure (some diskFull)) =
        .ok (encodedActivityFailure (some encodedDiskFull)) ∧
      ∃ error, HandedOn (toError plainConverter (encodedActivityFailure (some encodedDiskFull))) error 0 ∧
        (activityFailure (some diskFull)).levels = [⟨"activity failed", "main.rs:1"⟩, ⟨"disk full", "disk.rs:7"⟩] ∧
        (toError plainConverter (toFailure true plainConverter "" error)).levels =
          [⟨"activity failed", "main.rs:1"⟩, ⟨"Encoded failure", ""⟩] :=
  ⟨rfl, _, .returned "" (.activity false rfl), rfl, rfl⟩

/-- A cause that was encoded before, by a converter whose payload is gone. -/
def hidden : Failure CommonAttributes := .mk "Encoded failure" "" none (some (.application .default)) none

def encodedHidden : Failure CommonAttributes :=
  .mk "Encoded failure" "" (some placeholder) (some (.application .default)) none

/-- Both levels are kept when the error of the activity is the cause of an application failure. -/
theorem reencode_keeps_plain :
    ∃ error, HandedOn (toError plainConverter (encodedActivityFailure (some encodedHidden))) error 1 ∧
      (toError plainConverter (toFailure true plainConverter "" error)).levels.drop 1 =
        [⟨"activity failed", "main.rs:1"⟩, placeholder] := by
  have hand : HandedOn (toError plainConverter (encodedActivityFailure (some encodedHidden)))
      (.application ⟨.generic "oops" none, "oops", none, false, none, false, none,
        some (toError plainConverter (encodedActivityFailure (some encodedHidden)))⟩) 1 :=
    .cause rfl
  have henc : encodeCommonAttributes plainConverter (activityFailure (some hidden)) =
      .ok (encodedActivityFailure (some encodedHidden)) := rfl
  refine ⟨_, hand, (reencode_keeps_iff roundTrips_plain henc hand rfl "").mpr ?_⟩
  simp [activityFailure, hidden, placeholder, Failure.levels]

end SdkCore.FailureConverter
