import SdkCore.Converters.FailureConverter

/-!
# What a failure shows in clear text

`AnyError` is any error that a workflow or an activity can fail with. With encoded attributes nothing of a message or a
stack trace is left in clear text (`toFailure_hides_text`).
-/

namespace SdkCore.FailureConverter

/-- Any error, by its class. `caused` is an application failure with a decoded cause. `serialization` keeps no failure;
its text and source are those of the error that is encoded for it. -/
inductive AnyError (π δ : Type)
  | application (text : String) (app : ApplicationAttributes δ) (source : AnyError π δ)
  | caused (text : String) (app : ApplicationAttributes δ) (failure : Failure π) (cause : AnyError π δ)
      (source : AnyError π δ)
  | kept (failure : Failure π)
  | serialization (text : String) (source : Option (AnyError π δ))
  | generic (text : String) (source : Option (AnyError π δ))

variable {π δ : Type}

namespace AnyError

/-- `default` encodes details with the default converter. -/
abbrev DetailsEncoder (π δ : Type) := δ → Except PayloadConversionError (List π)

mutual

def encode (default : DetailsEncoder π δ) : AnyError π δ → Failure π
  | .application text app source =>
    match app.details.mapM default with
    | .ok details => .mk text "" none (some (app.info details)) (encodeApplicationFailureCause default source)
    | .error e => genericApplicationFailure (failedErrorConversionMessage text e) (some (encode default source))
  | .caused text app failure cause _ =>
    match app.details.mapM default with
    | .ok details => .mk text "" none (some (app.info details)) (some failure)
    | .error e => genericApplicationFailure (failedErrorConversionMessage text e) (some (encode default cause))
  | .kept failure => failure
  | .serialization text none | .generic text none => genericApplicationFailure text none
  | .serialization text (some source) | .generic text (some source) =>
    genericApplicationFailure text (some (encode default source))

/-- What is behind an application failure or another error, or any other source itself. -/
def encodeApplicationFailureCause (default : DetailsEncoder π δ) : AnyError π δ → Option (Failure π)
  | .application _ _ source => some (encode default source)
  | .caused _ _ _ cause _ => some (encode default cause)
  | .generic _ none => none
  | .generic _ (some source) => some (encode default source)
  | .kept failure => some failure
  | .serialization text none => some (genericApplicationFailure text none)
  | .serialization text (some source) => some (genericApplicationFailure text (some (encode default source)))

end

end AnyError

/-- An error of an activity or a workflow. `other` is not an application failure. -/
inductive OutgoingError (π δ : Type)
  | application (text : String) (app : ApplicationAttributes δ) (cause : Option (Failure π)) (source : AnyError π δ)
  | cancelled (details : Option δ)
  | other (error : AnyError π δ)

/-- For attributes, for details, and the default one for what is behind an error. -/
structure Converters (π δ : Type) where
  attributes : PayloadConverter π
  details : AnyError.DetailsEncoder π δ
  default : AnyError.DetailsEncoder π δ

/-- The failure before its attributes are encoded. -/
def OutgoingError.encode (conv : Converters π δ) : OutgoingError π δ → Except PayloadConversionError (Failure π)
  | .application text app cause source => do
    let details ← app.details.mapM conv.details
    return .mk text "" none (some (app.info details)) (cause.or (source.encodeApplicationFailureCause conv.default))
  | .cancelled details => do
    let details ← details.mapM conv.details
    return .mk "Activity cancelled" "" none (some (.canceled details)) none
  | .other error => .ok (error.encode conv.default)

/-- `to_failure` of `DefaultFailureConverter::new(true)`. -/
def OutgoingError.toFailure (conv : Converters π δ) (originalError : String) (error : OutgoingError π δ) : Failure π :=
  let failure :=
    match error.encode conv with
    | .ok failure => failure
    | .error e => .applicationFailure (failedErrorConversionMessage originalError e) false
  match encodeCommonAttributes conv.attributes failure with
  | .ok encoded => encoded
  | .error _ => .applicationFailure "Failed encoding failure attributes" false

/-! ## Shapes -/

/-- The failure without its encoded attributes. -/
def Failure.eraseEncoded : Failure π → Failure π
  | .mk message stackTrace _ info none => .mk message stackTrace none info none
  | .mk message stackTrace _ info (some cause) => .mk message stackTrace none info (some cause.eraseEncoded)

/-- The failure without its messages and stack traces. -/
def Failure.shape : Failure π → Failure π
  | .mk _ _ _ info none => .mk "Encoded failure" "" none info none
  | .mk _ _ _ info (some cause) => .mk "Encoded failure" "" none info (some cause.shape)

def AnyError.shape : AnyError π δ → AnyError π δ
  | .application _ app source => .application "" app source.shape
  | .caused _ app failure cause source => .caused "" app failure.shape cause.shape source.shape
  | .kept failure => .kept failure.shape
  | .serialization _ none => .serialization "" none
  | .serialization _ (some source) => .serialization "" (some source.shape)
  | .generic _ none => .generic "" none
  | .generic _ (some source) => .generic "" (some source.shape)

def OutgoingError.shape : OutgoingError π δ → OutgoingError π δ
  | .application _ app cause source => .application "" app (cause.map (·.shape)) source.shape
  | .cancelled details => .cancelled details
  | .other error => .other error.shape

@[simp] theorem Failure.shape_mk (message stackTrace : String) (encoded : Option π) (info : Option (FailureInfo π))
    (cause : Option (Failure π)) :
    (Failure.mk message stackTrace encoded info cause).shape =
      .mk "Encoded failure" "" none info (cause.map (·.shape)) := by
  cases cause <;> rfl

@[simp] theorem Failure.shape_shape : ∀ failure : Failure π, failure.shape.shape = failure.shape
  | .mk _ _ _ _ none => rfl
  | .mk _ _ _ _ (some cause) => by simp [shape_shape cause]

namespace AnyError

mutual

theorem shape_encode (default : DetailsEncoder π δ) : ∀ e : AnyError π δ,
    (e.shape.encode default).shape = (e.encode default).shape
  | .application text app source => by
    simp only [shape, encode]
    split <;> simp [genericApplicationFailure, shape_cause default source, shape_encode default source]
  | .caused text app failure cause source => by
    simp only [shape, encode]
    split <;> simp [genericApplicationFailure, shape_encode default cause]
  | .kept failure => by simp [shape, encode]
  | .serialization text none | .generic text none => by simp [shape, encode, genericApplicationFailure]
  | .serialization text (some source) | .generic text (some source) => by
    simp [shape, encode, genericApplicationFailure, shape_encode default source]

theorem shape_cause (default : DetailsEncoder π δ) : ∀ e : AnyError π δ,
    (e.shape.encodeApplicationFailureCause default).map (·.shape) =
      (e.encodeApplicationFailureCause default).map (·.shape)
  | .application text app source => by simp [shape, encodeApplicationFailureCause, shape_encode default source]
  | .caused text app failure cause source => by simp [shape, encodeApplicationFailureCause, shape_encode default cause]
  | .kept failure => by simp [shape, encodeApplicationFailureCause]
  | .generic text none => rfl
  | .serialization text none => by simp [shape, encodeApplicationFailureCause, genericApplicationFailure]
  | .generic text (some source) => by simp [shape, encodeApplicationFailureCause, shape_encode default source]
  | .serialization text (some source) => by
    simp [shape, encodeApplicationFailureCause, genericApplicationFailure, shape_encode default source]

end

end AnyError

/-! ## Encoding -/

variable {conv : PayloadConverter π}

/-- The converter refuses no attributes. -/
def EncodesAll (conv : PayloadConverter π) : Prop := ∀ attributes, ∃ p, conv.toPayload attributes = .ok p

/-- Encoding leaves the shape of a failure. -/
theorem encodeCommonAttributes_shape (h : EncodesAll conv) : ∀ failure : Failure π,
    ∃ encoded, encodeCommonAttributes conv failure = .ok encoded ∧ encoded.eraseEncoded = failure.shape
  | .mk message stackTrace _ info none => by
    obtain ⟨p, hp⟩ := h ⟨message, stackTrace⟩
    exact ⟨.mk "Encoded failure" "" (some p) info none, by rw [encodeCommonAttributes, hp]; rfl, rfl⟩
  | .mk message stackTrace _ info (some cause) => by
    obtain ⟨p, hp⟩ := h ⟨message, stackTrace⟩
    obtain ⟨c, hc, hs⟩ := encodeCommonAttributes_shape h cause
    refine ⟨.mk "Encoded failure" "" (some p) info (some c), by rw [encodeCommonAttributes, hc, hp]; rfl, ?_⟩
    simp [Failure.eraseEncoded, hs]

/-- The shape of the failure depends on the shape of the error only. -/
theorem OutgoingError.shape_encode (conv : Converters π δ) (e : OutgoingError π δ) :
    (e.shape.encode conv).map (·.shape) = (e.encode conv).map (·.shape) := by
  cases e with
  | application text app cause source =>
    simp only [shape, encode]
    cases app.details.mapM conv.details with
    | error e => rfl
    | ok details =>
      have hs := source.shape_cause conv.default
      cases cause <;> simp [Except.map, hs, bind, Except.bind, pure, Except.pure]
  | cancelled details => rfl
  | other error => simp [shape, encode, Except.map, error.shape_encode]

theorem eraseEncoded_toFailure {conv : Converters π δ} (h : EncodesAll conv.attributes) (e : OutgoingError π δ)
    (text : String) : (e.toFailure conv text).eraseEncoded =
      ((e.encode conv).map (·.shape)).toOption.getD (Failure.applicationFailure "" false).shape := by
  have hcoded : ∀ failure : Failure π, ∃ encoded, encodeCommonAttributes conv.attributes failure = .ok encoded ∧
    encoded.eraseEncoded = failure.shape := encodeCommonAttributes_shape h
  unfold OutgoingError.toFailure
  cases e.encode conv with
  | ok failure =>
    obtain ⟨encoded, he, hs⟩ := hcoded failure
    simp only [he]
    exact hs
  | error err =>
    obtain ⟨encoded, he, hs⟩ := hcoded (.applicationFailure (failedErrorConversionMessage text err) false)
    simp only [he]
    exact hs

/-- **Errors that differ in messages and stack traces only give failures that differ in encoded attributes only.** -/
theorem toFailure_hides_text {conv : Converters π δ} (h : EncodesAll conv.attributes) {e e' : OutgoingError π δ}
    (hs : e.shape = e'.shape) (text text' : String) :
    (e.toFailure conv text).eraseEncoded = (e'.toFailure conv text').eraseEncoded := by
  rw [eraseEncoded_toFailure h, eraseEncoded_toFailure h, ← e.shape_encode conv, hs, e'.shape_encode conv]

theorem toFailure_hides_text_password :
    let conv : Converters CommonAttributes Unit := ⟨plainConverter, fun _ => .ok [], fun _ => .error "no"⟩
    let error (text : String) : OutgoingError CommonAttributes Unit := .other (.generic text (some (.kept
      (.mk text "main.rs:1" none (some .activity) none))))
    ((error "password 1").toFailure conv "").eraseEncoded = ((error "password 2").toFailure conv "").eraseEncoded :=
  toFailure_hides_text (fun attributes => ⟨attributes, rfl⟩) rfl "" ""

end SdkCore.FailureConverter
