import SdkCore.History.Paginator

/-!
# Fetching a history from its start

Without a cached run, `fromFetchreq` fetches the history from the start with a paginator that takes over what the old
one recorded as handed out, and with it the test for the end of the history (`fromFetchreq_from_start_iff`).
-/

namespace SdkCore

open HistoryPaginator

abbrev TaskToken := Nat

/-- Queries in the old form share one id. -/
inductive QueryId
  | legacy
  | id (n : Nat)
  deriving DecidableEq

structure PreparedWFT where
  taskToken : TaskToken
  attempt : Nat
  runId : RunId
  legacyQuery : Bool
  queryRequests : List QueryId
  update : HistoryUpdate
  /-- The ids of the protocol messages that came with the task. -/
  messages : List Nat := []
  deriving DecidableEq

namespace PreparedWFT

/-- The history does not start at event 1. -/
def isIncremental (w : PreparedWFT) : Bool :=
  let startEventId := w.update.firstEventId
  (startEventId.map (decide <| · > 1)).getD false || startEventId.isNone

def isQueryOnly (w : PreparedWFT) : Bool := w.update.wftStartedId = 0 && w.legacyQuery

end PreparedWFT

/-- A task that has a slot, and its paginator. -/
structure PermittedWFT where
  work : PreparedWFT
  paginator : HistoryPaginator
  deriving DecidableEq

namespace HistoryPaginator

/-- The paginator for the whole history. -/
def forFetchreq (originalWft : PermittedWFT) : HistoryPaginator where
  runId := originalWft.work.runId
  previousWftStartedId := originalWft.work.update.previousWftStartedId
  wftStartedEventId := originalWft.work.update.wftStartedId
  idOfLastEventInLastExtractedUpdate := originalWft.paginator.idOfLastEventInLastExtractedUpdate
  eventQueue := []
  nextPageToken := .fetchFromStart
  finalEvents := originalWft.work.update.events

/-- The task with its history from the start. -/
def fromFetchreq (originalWft : PermittedWFT) (client : Client) : Except Status PermittedWFT :=
  match extractNextUpdate client (forFetchreq originalWft) with
  | (.ok firstUpdate, paginator, _) =>
    .ok { work := { originalWft.work with update := firstUpdate }, paginator }
  | (.error err, _, _) => .error err

def extractions : Nat → Client → HistoryPaginator → List (Except Status HistoryUpdate)
  | 0, _, _ => []
  | n + 1, client, p =>
    let (result, p, client) := extractNextUpdate client p
    result :: extractions n client p

end HistoryPaginator

/-- An update is empty only if the events before it reach the task. -/
def EmptyOnlyAtEnd (started : Int) : Option Int → List (Except Status HistoryUpdate) → Prop
  | _, [] => True
  | last, .error _ :: results => EmptyOnlyAtEnd started last results
  | last, .ok u :: results =>
    (u.events = [] → started ≤ last.getD 0) ∧
      EmptyOnlyAtEnd started (if u.events = [] then last else u.events.getLast?.map (·.eventId)) results

/-- An extraction is empty only when a recorded event reaches the task. -/
theorem emptyOnlyAtEnd_extractions : ∀ (n : Nat) (client : Client) (p : HistoryPaginator),
    EmptyOnlyAtEnd p.wftStartedEventId p.idOfLastEventInLastExtractedUpdate (extractions n client p)
  | 0, _, _ => trivial
  | n + 1, client, p => by
    have h := extractNextUpdate_extractSpec client p
    unfold extractions
    revert h
    generalize extractNextUpdate client p = r
    intro h
    cases h with
    | @failed err p' client' _ h2 h3 =>
      rw [← h2, ← h3]; exact emptyOnlyAtEnd_extractions n client' p'
    | @empty u p' client' h1 h2 hu hs =>
      refine ⟨fun _ => hs, ?_⟩
      rw [if_pos hu, ← h1, ← h2]; exact emptyOnlyAtEnd_extractions n client' p'
    | @update u p' client' h1 h2 hu _ =>
      refine ⟨fun h => absurd h hu, ?_⟩
      rw [if_neg hu, ← h1, ← h2]; exact emptyOnlyAtEnd_extractions n client' p'

/-! ## Fetching from the start -/

def Blank : Client → Prop
  | .ok r :: client => r.history.getD [] = [] ∧ (NextPageToken.ofBytes r.nextPageToken = .done ∨ Blank client)
  | _ => False

/-- What the server sends starts at event 1. -/
def SendsFromStart : Client → Prop
  | .ok r :: client =>
    (∀ e ∈ (r.history.getD []).head?, e.eventId = 1) ∧
      (r.history.getD [] = [] → NextPageToken.ofBytes r.nextPageToken ≠ .done → SendsFromStart client)
  | _ => True

/-- The first page, unless the answer is blank. -/
theorem fetchPage_from_start {token : NextPageToken} (ht : token ≠ .done) : ∀ {client : Client},
    SendsFromStart client →
    (¬ Blank client ∧ ∃ code client', fetchPage client token = (.error (.server code), .done, client')) ∨
    (Blank client ∧ ∃ history client', fetchPage client token = (.ok history, .done, client') ∧ history.getD [] = []) ∨
    (¬ Blank client ∧ ∃ history token' client' e page, fetchPage client token = (.ok history, token', client') ∧
      client'.length < client.length ∧ history.getD [] = e :: page ∧ e.eventId = 1)
  | [], _ => Or.inl ⟨id, 0, [], by cases token <;> first | rfl | exact absurd rfl ht⟩
  | .error code :: client, _ => Or.inl ⟨id, code, client, by cases token <;> first | rfl | exact absurd rfl ht⟩
  | .ok r :: client, h => by
    have hempty : (r.history.map (·.isEmpty)).getD true = true ↔ r.history.getD [] = [] := by
      cases r.history <;> simp
    rw [fetchPage_ok ht]
    by_cases hp : r.history.getD [] = []
    · by_cases htok : NextPageToken.ofBytes r.nextPageToken = .done
      · rw [if_neg (fun h => h.2 htok), htok]
        exact Or.inr (Or.inl ⟨⟨hp, Or.inl htok⟩, _, client, rfl, hp⟩)
      · have hblank : Blank (.ok r :: client) ↔ Blank client := by simp [Blank, hp, htok]
        rw [if_pos ⟨hempty.mpr hp, htok⟩, hblank]
        rcases fetchPage_from_start htok (h.2 hp htok) with h | h | ⟨hb, history, t, c, e, page, h1, h2, h3⟩
        · exact Or.inl h
        · exact Or.inr (Or.inl h)
        · exact Or.inr (Or.inr ⟨hb, history, t, c, e, page, h1, by simp only [List.length_cons]; omega, h3⟩)
    · obtain ⟨e, page, hep⟩ := List.exists_cons_of_ne_nil hp
      rw [if_neg (fun h => hp (hempty.mp h.1))]
      exact Or.inr (Or.inr ⟨fun hb => hp hb.1, _, _, client, e, page, rfl, by simp, hep, h.1 e (by rw [hep]; rfl)⟩)

theorem firstEventId_of_getNextPage {client client' : Client} {p p' : HistoryPaginator} {k : Int}
    (hget : getNextPage client p = (.ok (decide (p'.nextPageToken ≠ .done)), p', client'))
    (hlt : client'.length < client.length) (hk : p'.eventQueue.head?.map (·.eventId) = some k) {u : HistoryUpdate}
    (hu : (extractNextUpdate client p).1 = .ok u) : u.firstEventId = some k := by
  have hneg : (!decide (p'.nextPageToken ≠ .done)) = decide (p'.nextPageToken = .done) := by
    by_cases h : p'.nextPageToken = .done <;> simp [h]
  have hround := extractRound_spec p'
  unfold extractNextUpdate extractLoop at hu
  rw [hget] at hu
  simp only [hneg] at hu
  revert hround hu
  generalize extractRound (decide (p'.nextPageToken = .done)) p' = round
  intro hround hu
  cases hround with
  | @again queue ht hq hhead =>
    have ih := @extractLoop_extractSpec client.length client' { p' with eventQueue := queue } (fun _ => hlt) (by omega)
    have hne : queue ≠ [] := by
      rintro rfl
      rw [hk] at hhead; cases hhead
    simp only at hu
    revert hu ih
    generalize extractLoop client.length client' _ = r
    intro hu ih
    cases ih with
    | failed => cases hu
    | empty _ _ _ _ h => exact absurd h hne
    | update _ _ _ h =>
      cases hu
      rw [h hne, hhead, hk]
  | failed => cases hu
  | empty hq => rw [hq] at hk; cases hk
  | update _ hhead =>
    cases hu
    rw [HistoryUpdate.firstEventId, hhead, hk]

theorem getNextPage_cons {p : HistoryPaginator} {client client' : Client} {history : Option (List HistoryEvent)}
    {token : NextPageToken} {e : HistoryEvent} {page : List HistoryEvent} (hq : p.eventQueue = [])
    (hf : fetchPage client p.nextPageToken = (.ok history, token, client')) (hh : history.getD [] = e :: page)
    (he : 0 < e.eventId) : ∃ p', getNextPage client p = (.ok (decide (token ≠ .done)), p', client') ∧
      p'.nextPageToken = token ∧ p'.eventQueue.head? = some e := by
  have hpos : ¬ e.eventId ≤ backId [] := by
    rw [show backId [] = 0 from rfl]; omega
  have hdrop : (e :: page).dropWhile (fun x => x.eventId ≤ backId []) = e :: page := by
    rw [List.dropWhile_cons, if_neg (by rw [decide_eq_true_eq]; exact hpos)]
  unfold getNextPage extendQueue
  rw [hf]
  simp only [hh, hdrop, hq, List.nil_append]
  split
  · split <;> exact ⟨_, rfl, rfl, rfl⟩
  · exact ⟨_, rfl, rfl, rfl⟩

theorem extractNextUpdate_forFetchreq (w : PermittedWFT) {client : Client} (hserver : SendsFromStart client) :
    (∀ u, (extractNextUpdate client (forFetchreq w)).1 = .ok u → u.firstEventId = some 1) ↔
      ¬ (Blank client ∧
        w.work.update.wftStartedId ≤ w.paginator.idOfLastEventInLastExtractedUpdate.getD 0) := by
  rcases fetchPage_from_start (show NextPageToken.fetchFromStart ≠ .done by simp) hserver with
    ⟨hb, code, client', hf⟩ | ⟨hb, history, client', hf, hh⟩ | ⟨hb, history, token, client', e, page, hf, hlt, hh, he⟩
  · have hres : (extractNextUpdate client (forFetchreq w)).1 = .error (.server code) := by
      simp [extractNextUpdate, extractLoop, getNextPage, forFetchreq, hf]
    simp [hres, hb]
  · -- the server has nothing: what the old paginator recorded decides
    have hget : getNextPage client (forFetchreq w) =
        (.ok false, { forFetchreq w with nextPageToken := .done }, client') := by
      simp [getNextPage, forFetchreq, hf, hh, extendQueue]
    simp only [extractNextUpdate, extractLoop, hget, hb, true_and]
    by_cases hs : w.work.update.wftStartedId ≤ w.paginator.idOfLastEventInLastExtractedUpdate.getD 0
    · simp [extractRound, forFetchreq, hs, HistoryUpdate.firstEventId, fromEvents_events_of_last]
    · simp [extractRound, forFetchreq, hs]
  · obtain ⟨p', hget, rfl, hhead⟩ := getNextPage_cons (p := forFetchreq w) rfl hf hh (by omega)
    simp only [hb, false_and, not_false_eq_true, iff_true]
    intro u hu
    exact firstEventId_of_getNextPage hget hlt (by rw [hhead, Option.map_some, he]) hu

/-- **A fetch after a cache miss** gives history from event 1, and an empty paginator only at its end, exactly if the
answer is not blank or the task is not covered by what was recorded. -/
theorem fromFetchreq_from_start_iff (w : PermittedWFT) {client : Client} (hserver : SendsFromStart client) :
    ((∀ w', fromFetchreq w client = .ok w' → w'.work.update.firstEventId = some 1 ∧
        ∀ n client', EmptyOnlyAtEnd w.work.update.wftStartedId none
          (.ok w'.work.update :: extractions n client' w'.paginator)) ∧
      ∀ events prev started runId token n client', EmptyOnlyAtEnd started none
        (extractions n client' (.new events prev started runId token))) ↔
      ¬ (Blank client ∧
        w.work.update.wftStartedId ≤ w.paginator.idOfLastEventInLastExtractedUpdate.getD 0) := by
  have hnew : ∀ events prev started runId token n client', EmptyOnlyAtEnd started none
      (extractions n client' (.new events prev started runId token)) := by
    intro events prev started runId token n client'
    have h := emptyOnlyAtEnd_extractions n client' (.new events prev started runId token)
    cases token <;> exact h
  rw [← extractNextUpdate_forFetchreq w hserver]
  have hspec := extractNextUpdate_extractSpec client (forFetchreq w)
  unfold fromFetchreq
  revert hspec
  generalize extractNextUpdate client (forFetchreq w) = r
  intro hspec
  cases hspec with
  | failed => simpa using hnew
  | @empty u p' client' _ _ hu _ _ =>
    have hfirst : u.firstEventId ≠ some 1 := by simp [HistoryUpdate.firstEventId, hu]
    constructor
    · intro h
      exact absurd (h.1 _ rfl).1 hfirst
    · intro h
      exact absurd (h u rfl) hfirst
  | @update u p' client' h1 h2 hu _ =>
    constructor
    · intro h u' hu'
      cases hu'
      exact (h.1 _ rfl).1
    · intro h
      refine ⟨fun w' hw' => ?_, hnew⟩
      cases hw'
      refine ⟨h u rfl, fun n c => ⟨fun h0 => absurd h0 hu, ?_⟩⟩
      rw [if_neg hu, ← h2, ← show p'.wftStartedEventId = w.work.update.wftStartedId from h1]
      exact emptyOnlyAtEnd_extractions n c p'

/-- A task for a run that is gone, with all its events handed out. -/
def stickyTask : PermittedWFT where
  work :=
    { taskToken := 0, attempt := 1, runId := 0, legacyQuery := false, queryRequests := []
      update := { events := [⟨4, .workflowTaskCompleted, none⟩, ⟨5, .workflowExecutionSignaled, none⟩,
                    ⟨6, .workflowTaskScheduled, none⟩, ⟨7, .workflowTaskStarted, none⟩]
                  previousWftStartedId := 3, wftStartedId := 7, hasLastWft := true, wftCount := 1 } }
  paginator :=
    { runId := 0, previousWftStartedId := 3, wftStartedEventId := 7
      idOfLastEventInLastExtractedUpdate := some 7, nextPageToken := .done }

/-- A blank answer is taken for the end of the history. -/
theorem fromFetchreq_blank_ok :
    ∃ w', fromFetchreq stickyTask [.ok ⟨some [], []⟩] = .ok w' ∧ w'.work.update.events = [] :=
  ⟨_, rfl, rfl⟩

def headClient : Client :=
  [.ok ⟨some [⟨1, .workflowExecutionStarted, none⟩, ⟨2, .workflowTaskScheduled, none⟩,
    ⟨3, .workflowTaskStarted, none⟩], []⟩]

theorem fromFetchreq_from_start_sticky :
    ∃ w', fromFetchreq stickyTask headClient = .ok w' ∧ w'.work.update.firstEventId = some 1 :=
  ⟨_, rfl, (((fromFetchreq_from_start_iff stickyTask (show SendsFromStart headClient from ⟨by simp, by simp⟩)).mpr
    (by simp [Blank, headClient])).1 _ rfl).1⟩

end SdkCore
