import SdkCore.History.Event

/-!
# History updates

`HistoryUpdate` holds the events of workflow task sequences, which are taken from its front. `findEndIndexOfNextWftSeq`
says where the next one ends.
-/

namespace SdkCore

/-! ## The end of the next sequence -/

/-- Where the next sequence ends, or the last index if it does not. -/
inductive NextWFTSeqEndIndex
  | complete (ix : Nat)
  | incomplete (ix : Nat)
  deriving DecidableEq

namespace NextWFTSeqEndIndex

def index : NextWFTSeqEndIndex → Nat
  | complete ix => ix
  | incomplete ix => ix

def add (val : Nat) : NextWFTSeqEndIndex → NextWFTSeqEndIndex
  | complete ix => complete (ix + val)
  | incomplete ix => incomplete (ix + val)

end NextWFTSeqEndIndex

structure SeqScan where
  sawCommandOrStarted : Bool := false
  sawCommand : Bool := false
  /-- The started tasks that were not skipped, with their index, the newest first. -/
  wftStartedEventIdToIndex : List (Int × Nat) := []
  deriving DecidableEq

namespace SeqScan

/-- Note commands and the start of the execution. -/
def see (s : SeqScan) (e : HistoryEvent) : SeqScan :=
  { s with
    sawCommand := s.sawCommand || e.isCommandEvent
    sawCommandOrStarted := s.sawCommandOrStarted || e.isCommandEvent || e.eventType = .workflowExecutionStarted }

def push (s : SeqScan) (e : HistoryEvent) (ix : Nat) : SeqScan :=
  { s with wftStartedEventIdToIndex := (e.eventId, ix) :: s.wftStartedEventIdToIndex }

/-- The end of a sequence whose task completed: the last task before the sequencing id of the update it accepts, or the
task at hand. -/
def concludeAt (s : SeqScan) (nextNext : HistoryEvent) (ix : Nat) : Nat :=
  match nextNext.acceptedSequencingId with
  | some sid =>
    match s.wftStartedEventIdToIndex.find? (fun p => p.1 < sid) with
    | some p => p.2
    | none => ix
  | none => ix

end SeqScan

inductive ScanStep
  | finish (ix : Nat)
  | more (s : SeqScan)
  deriving DecidableEq

/-- A round, with the event at `ix` and the two after it. -/
def scanStep (fromEventId : Int) (hasLastWft : Bool) (ix : Nat) (s : SeqScan) (e : HistoryEvent)
    (next nextNext : Option HistoryEvent) : ScanStep :=
  if e.eventId ≤ fromEventId then .more s
  else
    let s := s.see e
    if e.isFinalWfExecutionEvent then .finish ix
    else if e.isWftStarted then
      let pushed := s.push e ix
      let orElse := if s.sawCommandOrStarted then .finish ix else .more pushed
      match next with
      | some next =>
        if next.abandonsWft then .more s
        else if next.eventType = .workflowTaskCompleted then
          match nextNext with
          | some nextNext =>
            -- a completion right before another scheduled task is a heartbeat
            if !s.sawCommand && nextNext.eventType = .workflowTaskScheduled then .more pushed
            else .finish (pushed.concludeAt nextNext ix)
          | none => if !hasLastWft && !s.sawCommandOrStarted then .more pushed else orElse
        else orElse
      | none => if !hasLastWft && !s.sawCommandOrStarted then .more pushed else orElse
    else .more s

def scan (fromEventId : Int) (hasLastWft : Bool) : Nat → SeqScan → List HistoryEvent → NextWFTSeqEndIndex
  | ix, _, [] => .incomplete (ix - 1)
  | ix, s, e :: rest =>
    match scanStep fromEventId hasLastWft ix s e rest[0]? rest[1]? with
    | .finish i => .complete i
    | .more s => scan fromEventId hasLastWft (ix + 1) s rest

def findEndIndexOfNextWftSeq (events : List HistoryEvent) (fromEventId : Int) (hasLastWft : Bool) :
    NextWFTSeqEndIndex :=
  scan fromEventId hasLastWft 0 {} events

/-! ## Updates -/

structure HistoryUpdate where
  events : List HistoryEvent
  previousWftStartedId : Int
  wftStartedId : Int
  /-- Whether the update contains the final task of the history. -/
  hasLastWft : Bool
  wftCount : Nat
  deriving DecidableEq

/-- `panicked` is the panic on an update that ends in the middle of a sequence. -/
inductive NextWFT
  | replayOver
  | wft (events : List HistoryEvent) (isLast : Bool)
  | needFetch
  | panicked
  deriving DecidableEq

namespace HistoryUpdate

def dummy : HistoryUpdate :=
  { events := [], previousWftStartedId := -1, wftStartedId := -1, hasLastWft := false, wftCount := 0 }

variable (u : HistoryUpdate)

def isReal : Bool := u.previousWftStartedId ≥ 0

def firstEventId : Option Int := u.events.head?.map (·.eventId)

/-- The end of the last complete sequence and the number of sequences. -/
def fromEventsLoop (allEvents : List HistoryEvent) (hasLastWft : Bool) : Nat → Nat → Nat → Nat × Nat
  | 0, lastEnd, wftCount => (lastEnd, wftCount)
  | fuel + 1, lastEnd, wftCount =>
    let nextEndEid := (allEvents[lastEnd]?.map (·.eventId)).getD 0
    match (findEndIndexOfNextWftSeq (allEvents.drop lastEnd) nextEndEid hasLastWft).add lastEnd with
    | .incomplete _ => (lastEnd, wftCount + 1)
    | .complete nextEnd => fromEventsLoop allEvents hasLastWft fuel nextEnd (wftCount + 1)

/-- An update of the complete sequences, and the events after them. -/
def fromEvents (allEvents : List HistoryEvent) (previousWftStartedId wftStartedId : Int) (hasLastWft : Bool) :
    HistoryUpdate × List HistoryEvent :=
  let update (events : List HistoryEvent) (wftCount : Nat) : HistoryUpdate :=
    { events, previousWftStartedId, wftStartedId, hasLastWft, wftCount }
  match findEndIndexOfNextWftSeq allEvents previousWftStartedId hasLastWft with
  | .incomplete _ => if hasLastWft then (update allEvents 1, []) else (update [] 0, allEvents)
  | .complete firstEnd =>
    let (lastEnd, wftCount) := fromEventsLoop allEvents hasLastWft allEvents.length firstEnd 0
    -- with the last task at hand, whatever remains belongs to the last sequence
    if allEvents.isEmpty || hasLastWft then (update allEvents wftCount, [])
    else (update (allEvents.take (lastEnd + 1)) wftCount, allEvents.drop (lastEnd + 1))

def startingIndexAfterSkipping (fromWftStartedId : Int) : Option Nat :=
  u.events.findIdx? (fun e => e.eventId > fromWftStartedId)

/-- The events up to an index are taken. -/
def buildNextWft (drainThisMuch : Nat) : NextWFT × HistoryUpdate :=
  let rest := u.events.drop (drainThisMuch + 1)
  (.wft (u.events.take (drainThisMuch + 1)) (rest.isEmpty && u.hasLastWft), { u with events := rest })

/-- Drop the events up to a task, unless there are no others. -/
def skipTo (fromWftStartedId : Int) : HistoryUpdate :=
  match u.startingIndexAfterSkipping fromWftStartedId with
  | some ix => { u with events := u.events.drop ix }
  | none => u

def takeNextWftSequence (fromWftStartedId : Int) : NextWFT × HistoryUpdate :=
  let u := u.skipTo fromWftStartedId
  match findEndIndexOfNextWftSeq u.events fromWftStartedId u.hasLastWft with
  | .incomplete siz =>
    if u.hasLastWft then if siz = 0 then (.replayOver, u) else u.buildNextWft siz
    else if siz ≠ 0 then (.panicked, u) else (.needFetch, u)
  | .complete ix => u.buildNextWft ix

/-- The next sequence, left where it is. -/
def peekNextWftSequence (fromWftStartedId : Int) : List HistoryEvent :=
  let relevant := u.events.drop ((u.startingIndexAfterSkipping fromWftStartedId).getD 0)
  if relevant.isEmpty then relevant
  else relevant.take ((findEndIndexOfNextWftSeq relevant fromWftStartedId u.hasLastWft).index + 1)

/-- The next sequence is complete, or the last. -/
def canTakeNextWftSequence (fromWftStartedId : Int) : Bool :=
  match findEndIndexOfNextWftSeq u.events fromWftStartedId u.hasLastWft with
  | .incomplete _ => u.hasLastWft
  | .complete _ => true

end HistoryUpdate

end SdkCore
