import Mathlib.Data.List.Basic

/-!
# History events

Event types, what the history code asks of them, and contiguous lists (`Contig`). The type and the attributes are
separate fields of the proto, and the code reads either.
-/

namespace SdkCore

inductive EventType
  | unspecified
  | workflowExecutionStarted
  | workflowExecutionCompleted
  | workflowExecutionFailed
  | workflowExecutionTimedOut
  | workflowTaskScheduled
  | workflowTaskStarted
  | workflowTaskCompleted
  | workflowTaskTimedOut
  | workflowTaskFailed
  | activityTaskScheduled
  | activityTaskStarted
  | activityTaskCompleted
  | activityTaskFailed
  | activityTaskTimedOut
  | activityTaskCancelRequested
  | activityTaskCanceled
  | timerStarted
  | timerFired
  | timerCanceled
  | workflowExecutionCancelRequested
  | workflowExecutionCanceled
  | requestCancelExternalWorkflowExecutionInitiated
  | requestCancelExternalWorkflowExecutionFailed
  | externalWorkflowExecutionCancelRequested
  | markerRecorded
  | workflowExecutionSignaled
  | workflowExecutionTerminated
  | workflowExecutionContinuedAsNew
  | startChildWorkflowExecutionInitiated
  | startChildWorkflowExecutionFailed
  | childWorkflowExecutionStarted
  | childWorkflowExecutionCompleted
  | childWorkflowExecutionFailed
  | childWorkflowExecutionCanceled
  | childWorkflowExecutionTimedOut
  | childWorkflowExecutionTerminated
  | signalExternalWorkflowExecutionInitiated
  | signalExternalWorkflowExecutionFailed
  | externalWorkflowExecutionSignaled
  | upsertWorkflowSearchAttributes
  | workflowExecutionUpdateAdmitted
  | workflowExecutionUpdateAccepted
  | workflowExecutionUpdateRejected
  | workflowExecutionUpdateCompleted
  | workflowPropertiesModifiedExternally
  | activityPropertiesModifiedExternally
  | workflowPropertiesModified
  | nexusOperationScheduled
  | nexusOperationStarted
  | nexusOperationCompleted
  | nexusOperationFailed
  | nexusOperationCanceled
  | nexusOperationTimedOut
  | nexusOperationCancelRequested
  | workflowExecutionOptionsUpdated
  | nexusOperationCancelRequestCompleted
  | nexusOperationCancelRequestFailed
  | workflowExecutionPaused
  | workflowExecutionUnpaused
  | workflowExecutionTimeSkippingTransitioned
  deriving DecidableEq

/-- The causes that the machine of the task tells apart. -/
inductive WftFailedCause
  | resetWorkflow
  | workflowPauseRequestedBeforeTaskStarted
  | other
  deriving DecidableEq

/-- The attributes that the history code reads. -/
inductive Attributes
  | workflowExecutionUpdateAccepted (acceptedRequestSequencingEventId : Int)
  | workflowTaskStarted (scheduledEventId : Int)
  | workflowTaskCompleted (scheduledEventId : Int)
  | workflowTaskFailed (scheduledEventId : Int) (cause : WftFailedCause)
  | workflowTaskTimedOut (scheduledEventId : Int)
  | other
  deriving DecidableEq

structure HistoryEvent where
  eventId : Int
  eventType : EventType
  attributes : Option Attributes := none
  deriving DecidableEq

namespace HistoryEvent

variable (e : HistoryEvent)

def isCommandEvent : Bool :=
  match e.eventType with
  | .activityTaskScheduled
  | .activityTaskCancelRequested
  | .markerRecorded
  | .requestCancelExternalWorkflowExecutionInitiated
  | .signalExternalWorkflowExecutionInitiated
  | .startChildWorkflowExecutionInitiated
  | .timerCanceled
  | .timerStarted
  | .upsertWorkflowSearchAttributes
  | .workflowPropertiesModified
  | .nexusOperationScheduled
  | .nexusOperationCancelRequested
  | .workflowExecutionCanceled
  | .workflowExecutionCompleted
  | .workflowExecutionContinuedAsNew
  | .workflowExecutionFailed
  | .workflowExecutionUpdateAccepted
  | .workflowExecutionUpdateRejected
  | .workflowExecutionUpdateCompleted => true
  | _ => false

def isFinalWfExecutionEvent : Bool :=
  match e.eventType with
  | .workflowExecutionCompleted
  | .workflowExecutionCanceled
  | .workflowExecutionFailed
  | .workflowExecutionTimedOut
  | .workflowExecutionContinuedAsNew
  | .workflowExecutionTerminated => true
  | _ => false

def isWftStarted : Bool := e.eventType = .workflowTaskStarted

/-- A task followed by this has not concluded a sequence. -/
def abandonsWft : Bool :=
  match e.eventType with
  | .workflowTaskFailed
  | .workflowTaskTimedOut
  | .workflowExecutionTimedOut
  | .workflowExecutionTerminated
  | .workflowExecutionCanceled => true
  | _ => false

/-- Where an accepted update was sequenced. -/
def acceptedSequencingId : Option Int :=
  match e.attributes with
  | some (.workflowExecutionUpdateAccepted sid) => some sid
  | _ => none

end HistoryEvent

/-- The events have the ids `a + 1, a + 2, …`. -/
def Contig : Int → List HistoryEvent → Prop
  | _, [] => True
  | a, e :: l => e.eventId = a + 1 ∧ Contig (a + 1) l

instance Contig.decidable : ∀ (a : Int) (l : List HistoryEvent), Decidable (Contig a l)
  | _, [] => isTrue trivial
  | a, _ :: l => @instDecidableAnd _ _ _ (Contig.decidable (a + 1) l)

theorem contig_append : ∀ {a : Int} {l r : List HistoryEvent},
    Contig a (l ++ r) ↔ Contig a l ∧ Contig (a + l.length) r
  | a, [], r => by simp [Contig]
  | a, e :: l, r => by
    have h : a + 1 + (l.length : Int) = a + ((e :: l).length : Nat) := by simp; omega
    simp only [List.cons_append, Contig, contig_append, and_assoc, h]

theorem Contig.lt : ∀ {a : Int} {l : List HistoryEvent}, Contig a l → ∀ e ∈ l, a < e.eventId
  | _, [], _, _, h => by cases h
  | a, e :: l, ⟨h1, h2⟩, x, hx => by
    rcases List.mem_cons.mp hx with rfl | hx
    · omega
    · have := Contig.lt h2 x hx; omega

theorem Contig.last {a : Int} {l : List HistoryEvent} {e : HistoryEvent} (h : Contig a (l ++ [e])) :
    e.eventId = a + (l ++ [e]).length := by
  have := (contig_append.mp h).2.1
  simp only [List.length_append, List.length_singleton]
  omega

theorem Contig.le : ∀ {a : Int} {l : List HistoryEvent}, Contig a l → ∀ e ∈ l, e.eventId ≤ a + l.length
  | _, [], _, _, h => by cases h
  | a, e :: l, ⟨h1, h2⟩, x, hx => by
    simp only [List.length_cons]
    rcases List.mem_cons.mp hx with rfl | hx
    · omega
    · have := Contig.le h2 x hx; omega

end SdkCore
