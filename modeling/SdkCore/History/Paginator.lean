import SdkCore.History.Update

/-!
# The history paginator

`HistoryPaginator` fetches pages of a history and cuts them into updates. The client is the list of the server's
answers; a request beyond it fails.
-/

namespace SdkCore

open HistoryUpdate

/-- The errors of a fetch. `outOfFuel` marks a loop of the model cut short. -/
inductive Status
  | emptyFetchErr
  /-- "Received an empty workflow task with no queries or history" -/
  | emptyTaskErr
  | server (code : Nat)
  | outOfFuel
  deriving DecidableEq

inductive NextPageToken
  /-- There is no token, the history must be fetched from the beginning. -/
  | fetchFromStart
  | next (token : List UInt8)
  | done
  deriving DecidableEq

/-- An empty token says that there are no more pages. -/
def NextPageToken.ofBytes (pageToken : List UInt8) : NextPageToken :=
  if pageToken.isEmpty then .done else .next pageToken

structure GetHistoryResponse where
  history : Option (List HistoryEvent)
  nextPageToken : List UInt8
  deriving DecidableEq

/-- The answers to the coming requests. -/
abbrev Client := List (Except Nat GetHistoryResponse)

/-- Runs are told apart by their ids only. -/
abbrev RunId := Nat

/-- What is fetched but not handed out, and where to go on. -/
structure HistoryPaginator where
  runId : RunId
  previousWftStartedId : Int
  wftStartedEventId : Int
  idOfLastEventInLastExtractedUpdate : Option Int := none
  eventQueue : List HistoryEvent := []
  nextPageToken : NextPageToken
  /-- The events to return once all pages are fetched: those of the task, after a cache miss. -/
  finalEvents : List HistoryEvent := []
  deriving DecidableEq

namespace HistoryPaginator

def new (initialHistory : List HistoryEvent) (previousWftStartedId wftStartedEventId : Int) (runId : RunId)
    (nextPageToken : NextPageToken) : HistoryPaginator :=
  match nextPageToken with
  | .fetchFromStart =>
    { runId, previousWftStartedId, wftStartedEventId, nextPageToken, finalEvents := initialHistory }
  | _ => { runId, previousWftStartedId, wftStartedEventId, nextPageToken, eventQueue := initialHistory }

/-- The fetch loop of `getNextPage`. A failed request leaves the token at `done`. -/
def fetchPage : Client → NextPageToken → Except Status (Option (List HistoryEvent)) × NextPageToken × Client
  | client, .done => (.ok none, .done, client)
  | [], _ => (.error (.server 0), .done, [])
  | .error code :: client, _ => (.error (.server code), .done, client)
  | .ok fetchRes :: client, _ =>
    let npt := NextPageToken.ofBytes fetchRes.nextPageToken
    let historyIsEmpty := (fetchRes.history.map (·.isEmpty)).getD true
    -- an empty page with a token: go straight on to the next one
    if historyIsEmpty ∧ npt ≠ .done then fetchPage client npt
    else (.ok fetchRes.history, npt, client)

theorem fetchPage_ok {token : NextPageToken} (h : token ≠ .done) (fetchRes : GetHistoryResponse) (client : Client) :
    fetchPage (.ok fetchRes :: client) token =
      if (fetchRes.history.map (·.isEmpty)).getD true ∧ NextPageToken.ofBytes fetchRes.nextPageToken ≠ .done then
        fetchPage client (.ofBytes fetchRes.nextPageToken)
      else (.ok fetchRes.history, .ofBytes fetchRes.nextPageToken, client) := by
  cases token with
  | done => exact absurd rfl h
  | fetchFromStart | next => rfl

def backId (events : List HistoryEvent) : Int := (events.getLast?.map (·.eventId)).getD 0

/-- Adds the events of a page that are not in the queue and, after the last page, the final events. -/
def extendQueue (p : HistoryPaginator) (page : List HistoryEvent) : HistoryPaginator :=
  let queue := p.eventQueue ++ page.dropWhile (fun e => e.eventId ≤ backId p.eventQueue)
  if p.nextPageToken = .done then
    match queue.getLast? with
    | some last =>
      { p with
        eventQueue := queue ++ p.finalEvents.dropWhile (fun e => e.eventId ≤ last.eventId)
        finalEvents := [] }
    | none => { p with eventQueue := queue }
  else { p with eventQueue := queue }

/-- Fetch a page, and say whether there are more. -/
def getNextPage (client : Client) (p : HistoryPaginator) : Except Status Bool × HistoryPaginator × Client :=
  match fetchPage client p.nextPageToken with
  | (.error err, npt, client) => (.error err, { p with nextPageToken := npt }, client)
  | (.ok history, npt, client) =>
    let p := extendQueue { p with nextPageToken := npt } (history.getD [])
    (.ok (npt ≠ .done), p, client)

inductive Round
  | again (p : HistoryPaginator)
  | done (result : Except Status HistoryUpdate) (p : HistoryPaginator)

/-- A round, after the next page was fetched. -/
def extractRound (noNextPage : Bool) (p : HistoryPaginator) : Round :=
  let currentEvents := p.eventQueue
  let p := { p with eventQueue := [] }
  let seenEnoughEvents := decide (backId currentEvents ≥ p.wftStartedEventId)
  -- the server may send a token along with a page that ends the history; it then points to an empty page
  let alreadySentUpdateWithEnoughEvents :=
    decide (p.idOfLastEventInLastExtractedUpdate.getD 0 ≥ p.wftStartedEventId)
  if currentEvents.isEmpty && noNextPage && alreadySentUpdateWithEnoughEvents then
    .done (.ok (fromEvents [] p.previousWftStartedId p.wftStartedEventId true).1) p
  else if currentEvents.isEmpty || (noNextPage && !seenEnoughEvents) then .done (.error .emptyFetchErr) p
  else
    let noMore := decide (p.nextPageToken = .done) && seenEnoughEvents
    let (update, extra) :=
      fromEvents currentEvents p.previousWftStartedId p.wftStartedEventId noMore
    if p.nextPageToken ≠ .done ∧ update.wftCount < 2 then
      .again { p with eventQueue := update.events ++ extra }
    else
      let extraEidSame := extra.head?.map (·.eventId) = currentEvents.head?.map (·.eventId)
      let p := { p with eventQueue := extra }
      if !noMore && !extra.isEmpty && extraEidSame then .again p
      else
        .done (.ok update) { p with idOfLastEventInLastExtractedUpdate := update.events.getLast?.map (·.eventId) }

def extractLoop : Nat → Client → HistoryPaginator → Except Status HistoryUpdate × HistoryPaginator × Client
  | 0, client, p => (.error .outOfFuel, p, client)
  | fuel + 1, client, p =>
    match getNextPage client p with
    | (.error err, p, client) => (.error err, p, client)
    | (.ok hasNextPage, p, client) =>
      match extractRound (!hasNextPage) p with
      | .again p => extractLoop fuel client p
      | .done result p => (result, p, client)

/-- At least two sequences, unless the history ends. -/
def extractNextUpdate (client : Client) (p : HistoryPaginator) :
    Except Status HistoryUpdate × HistoryPaginator × Client :=
  extractLoop (client.length + 1) client p

end HistoryPaginator

open HistoryPaginator

/-! ## What an extraction does, whatever the server answers -/

/-- An update and the rest are all events. -/
theorem fromEvents_events (b : List HistoryEvent) (prev started : Int) (hasLast : Bool) :
    (fromEvents b prev started hasLast).1.events ++
      (fromEvents b prev started hasLast).2 = b := by
  unfold fromEvents
  split
  · split <;> simp
  · simp only
    split <;> simp

theorem fromEvents_events_of_last (b : List HistoryEvent) (prev started : Int) :
    (fromEvents b prev started true).1.events = b := by
  unfold fromEvents
  split <;> simp

theorem fromEvents_ne_nil {b : List HistoryEvent} {prev started : Int} {hasLast : Bool} (hb : b ≠ [])
    (h : (fromEvents b prev started hasLast).1.wftCount ≠ 0) :
    (fromEvents b prev started hasLast).1.events ≠ [] := by
  unfold fromEvents at h ⊢
  split
  · split <;> simp_all
  · simp only
    split
    · exact hb
    · cases b with
      | nil => exact absurd rfl hb
      | cons e b => simp

inductive RoundSpec (p : HistoryPaginator) : Round → Prop
  | again {queue} : p.nextPageToken ≠ .done → p.eventQueue ≠ [] →
      queue.head?.map (·.eventId) = p.eventQueue.head?.map (·.eventId) →
      RoundSpec p (.again { p with eventQueue := queue })
  | failed : RoundSpec p (.done (.error .emptyFetchErr) { p with eventQueue := [] })
  | empty {u} : p.eventQueue = [] → p.nextPageToken = .done →
      p.wftStartedEventId ≤ p.idOfLastEventInLastExtractedUpdate.getD 0 → u.events = [] →
      RoundSpec p (.done (.ok u) { p with eventQueue := [] })
  | update {u queue} : u.events ≠ [] → u.events.head? = p.eventQueue.head? → RoundSpec p (.done (.ok u)
        { p with eventQueue := queue, idOfLastEventInLastExtractedUpdate := u.events.getLast?.map (·.eventId) })

theorem head?_of_append {α : Type} {l r : List α} (hl : l ≠ []) : l.head? = (l ++ r).head? := by
  cases l with
  | nil => exact absurd rfl hl
  | cons a l => rfl

theorem extractRound_spec (p : HistoryPaginator) :
    RoundSpec p (extractRound (decide (p.nextPageToken = .done)) p) := by
  unfold extractRound
  simp only
  split
  · rename_i h
    simp only [Bool.and_eq_true, List.isEmpty_iff, decide_eq_true_eq] at h
    exact .empty h.1.1 h.1.2 h.2 (fromEvents_events_of_last ..)
  split
  · exact .failed
  rename_i hfail
  simp only [Bool.or_eq_true, List.isEmpty_iff, Bool.and_eq_true, decide_eq_true_eq, Bool.not_eq_true', not_or,
    not_and, decide_eq_false_iff_not] at hfail
  obtain ⟨hq, hseen⟩ := hfail
  have happ := fromEvents_events p.eventQueue p.previousWftStartedId p.wftStartedEventId
  split
  · rename_i h
    exact .again h.1 hq (by rw [happ])
  rename_i hcount
  split
  · rename_i h
    simp only [Bool.and_eq_true, decide_eq_true_eq, Bool.not_eq_true', Bool.and_eq_false_iff,
      decide_eq_false_iff_not] at h
    refine .again (fun hd => ?_) hq h.2
    rcases h.1.1 with h | h
    · exact h hd
    · exact hseen hd (by omega)
  · have hne : (fromEvents p.eventQueue p.previousWftStartedId p.wftStartedEventId
        (decide (p.nextPageToken = .done) && decide (backId p.eventQueue ≥ p.wftStartedEventId))).1.events ≠ [] := by
      by_cases hd : p.nextPageToken = .done
      · have hback : backId p.eventQueue ≥ p.wftStartedEventId := by have := hseen hd; omega
        simp only [hd, hback, decide_true, Bool.and_self, fromEvents_events_of_last]
        exact hq
      · exact fromEvents_ne_nil hq (fun h0 => hcount ⟨hd, by rw [h0]; decide⟩)
    exact .update hne (by rw [head?_of_append hne, happ])

theorem fetchPage_cases {token : NextPageToken} (ht : token ≠ .done) : ∀ client : Client,
    (∃ code client', fetchPage client token = (.error (.server code), .done, client')) ∨
      ∃ history token' client', fetchPage client token = (.ok history, token', client') ∧
        client'.length < client.length
  | [] => Or.inl ⟨0, [], by cases token <;> first | rfl | exact absurd rfl ht⟩
  | .error code :: client => Or.inl ⟨code, client, by cases token <;> first | rfl | exact absurd rfl ht⟩
  | .ok fetchRes :: client => by
    rw [fetchPage_ok ht]
    split
    · rename_i h
      rcases fetchPage_cases h.2 client with h | ⟨history, token', client', h, hlt⟩
      · exact Or.inl h
      · exact Or.inr ⟨history, token', client', h, by simp only [List.length_cons]; omega⟩
    · exact Or.inr ⟨_, _, client, rfl, by simp⟩

theorem extendQueue_eq_append (p : HistoryPaginator) (page : List HistoryEvent) : ∃ added final,
    extendQueue p page = { p with eventQueue := p.eventQueue ++ added, finalEvents := final } := by
  unfold extendQueue
  simp only
  split
  · split
    · exact ⟨_, _, by rw [List.append_assoc]⟩
    · exact ⟨_, p.finalEvents, rfl⟩
  · exact ⟨_, p.finalEvents, rfl⟩

inductive PageSpec (p : HistoryPaginator) (client : Client) : Except Status Bool × HistoryPaginator × Client → Prop
  | failed {code client'} : PageSpec p client (.error (.server code), { p with nextPageToken := .done }, client')
  | page {token added final client'} :
      (p.nextPageToken ≠ .done → client'.length < client.length) → (p.nextPageToken = .done → token = .done) →
      PageSpec p client (.ok (decide (token ≠ .done)),
        { p with nextPageToken := token, eventQueue := p.eventQueue ++ added, finalEvents := final }, client')

theorem getNextPage_pageSpec (client : Client) (p : HistoryPaginator) : PageSpec p client (getNextPage client p) := by
  have hpage : ∀ (token : NextPageToken) (page : List HistoryEvent), ∃ added final,
      extendQueue { p with nextPageToken := token } page =
        { p with nextPageToken := token, eventQueue := p.eventQueue ++ added, finalEvents := final } :=
    fun token page => extendQueue_eq_append { p with nextPageToken := token } page
  unfold getNextPage
  by_cases ht : p.nextPageToken = .done
  · have hf : fetchPage client p.nextPageToken = (.ok none, .done, client) := by rw [ht]; cases client <;> rfl
    obtain ⟨added, final, h⟩ := hpage .done []
    rw [hf]
    simp only [Option.getD_none, h]
    exact .page (fun h => absurd ht h) (fun _ => rfl)
  · rcases fetchPage_cases ht client with ⟨code, client', hf⟩ | ⟨history, token, client', hf, hlt⟩
    · rw [hf]; exact .failed
    · obtain ⟨added, final, h⟩ := hpage token (history.getD [])
      rw [hf]
      simp only [h]
      exact .page (fun _ => hlt) (fun h => absurd h ht)

inductive ExtractSpec (p : HistoryPaginator) : Except Status HistoryUpdate × HistoryPaginator × Client → Prop
  | failed {err p' client} : err ≠ .outOfFuel → p'.wftStartedEventId = p.wftStartedEventId →
      p'.idOfLastEventInLastExtractedUpdate = p.idOfLastEventInLastExtractedUpdate →
      ExtractSpec p (.error err, p', client)
  | empty {u p' client} : p'.wftStartedEventId = p.wftStartedEventId →
      p'.idOfLastEventInLastExtractedUpdate = p.idOfLastEventInLastExtractedUpdate → u.events = [] →
      p.wftStartedEventId ≤ p.idOfLastEventInLastExtractedUpdate.getD 0 → p.eventQueue = [] →
      ExtractSpec p (.ok u, p', client)
  | update {u p' client} : p'.wftStartedEventId = p.wftStartedEventId →
      p'.idOfLastEventInLastExtractedUpdate = u.events.getLast?.map (·.eventId) → u.events ≠ [] →
      (p.eventQueue ≠ [] → u.firstEventId = p.eventQueue.head?.map (·.eventId)) → ExtractSpec p (.ok u, p', client)

theorem extractLoop_extractSpec : ∀ {fuel : Nat} {client : Client} {p : HistoryPaginator},
    (p.nextPageToken ≠ .done → client.length < fuel) → 0 < fuel → ExtractSpec p (extractLoop fuel client p)
  | 0, _, _, _, h0 => absurd h0 (by omega)
  | fuel + 1, client, p, hf, _ => by
    unfold extractLoop
    have hpage := getNextPage_pageSpec client p
    revert hpage
    generalize getNextPage client p = r
    intro hpage
    cases hpage with
    | failed => exact .failed (by simp) rfl rfl
    | @page token added final client' hlt hdone =>
      simp only
      have hround := extractRound_spec
        { p with nextPageToken := token, eventQueue := p.eventQueue ++ added, finalEvents := final }
      have hneg : (!decide (token ≠ .done)) = decide (token = .done) := by by_cases h : token = .done <;> simp [h]
      rw [hneg]
      revert hround
      simp only
      generalize extractRound (decide (token = .done)) _ = round
      intro hround
      cases hround with
      | @again queue ht hq hhead =>
        -- the queue still starts where it started, and an answer has been used up
        have hne : queue ≠ [] := by
          rintro rfl
          exact hq (by simpa using hhead.symm)
        have hlt := hlt (fun h => ht (hdone h))
        have hfuel := hf (fun h => ht (hdone h))
        have ih := @extractLoop_extractSpec fuel client'
          { p with nextPageToken := token, eventQueue := queue, finalEvents := final } (fun _ => by omega) (by omega)
        simp only
        revert ih
        generalize extractLoop fuel client' _ = r
        intro ih
        cases ih with
        | failed h1 h2 h3 => exact .failed h1 h2 h3
        | empty _ _ _ _ h => exact absurd h hne
        | update h1 h2 h3 h4 =>
          refine .update h1 h2 h3 (fun hq => ?_)
          rw [h4 hne, hhead, ← head?_of_append hq]
      | failed => exact .failed (by simp) rfl rfl
      | empty hq ht hs hu => exact .empty rfl rfl hu hs (List.append_eq_nil_iff.mp hq).1
      | update hu hhead =>
        refine .update rfl rfl hu (fun hq => ?_)
        rw [firstEventId, hhead, ← head?_of_append hq]

theorem extractNextUpdate_extractSpec (client : Client) (p : HistoryPaginator) :
    ExtractSpec p (extractNextUpdate client p) :=
  extractLoop_extractSpec (fun _ => Nat.lt_succ_self _) (Nat.succ_pos _)

end SdkCore
