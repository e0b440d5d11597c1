import Mathlib.Data.List.TakeWhile
import SdkCore.History.Chunking
import SdkCore.History.Paginator

/-!
# Where pagination cuts a history

A server serves a contiguous history page by page (`Serves`). An update ends with the last of two or more complete
sequences; the last update takes all that remains (`extractNextUpdate_spec`).
-/

namespace SdkCore

open Chunks HistoryPaginator HistoryUpdate

/-! ## Updates from contiguous events -/

variable {prev a : Int} {l : List HistoryEvent} {client : Client} {pages : List (List HistoryEvent)}

theorem Contig.lt_dropWhile : ∀ {a : Int} {l : List HistoryEvent}, Contig a l →
    ∀ e ∈ l.dropWhile (fun e => e.eventId ≤ prev), prev < e.eventId
  | _, [], _, _, h => by cases h
  | a, e :: l, h, x, hx => by
    rw [List.dropWhile_cons] at hx
    split at hx
    · exact Contig.lt_dropWhile h.2 x hx
    · rename_i he
      have h1 := h.1
      have h2 := Contig.lt h x hx
      simp only [decide_eq_true_eq] at he
      omega

theorem le_of_mem_takeWhile : ∀ e ∈ l.takeWhile (fun e => e.eventId ≤ prev), e.eventId ≤ prev := fun e he => by
  simpa using List.mem_takeWhile_imp he

theorem exists_split {α : Type} {l : List α} {i : Nat} (hi : i < l.length) :
    ∃ f x, l = f ++ x :: l.drop (i + 1) ∧ f.length = i ∧ l.take (i + 1) = f ++ [x] := by
  refine ⟨l.take i, l[i], ?_, by simp; omega, by simp⟩
  rw [List.getElem_cons_drop, List.take_append_drop]

theorem fromEventsLoop_eq (hasLastWft : Bool) (l : List HistoryEvent) : ∀ (f : List HistoryEvent)
    (x : HistoryEvent) (fuel wftCount : Nat), Contig a (f ++ x :: l) → l.length < fuel →
    fromEventsLoop (f ++ x :: l) hasLastWft fuel f.length wftCount =
      (f.length + (chunks seqEnd l).1.flatten.length, wftCount + (chunks seqEnd l).1.length + 1) := by
  have hend : ∀ {f : List HistoryEvent} {x : HistoryEvent} (l : List HistoryEvent), Contig a (f ++ x :: l) →
      (findEndIndexOfNextWftSeq ((f ++ x :: l).drop f.length)
        (((f ++ x :: l)[f.length]?.map (·.eventId)).getD 0) hasLastWft) = seqEndIndex 1 l := by
    intro f x l hc
    have hc := (contig_append.mp hc).2
    rw [List.drop_left]
    simp only [List.getElem?_append_right (Nat.le_refl _), Nat.sub_self, List.getElem?_cons_zero, Option.map_some,
      Option.getD_some]
    refine findEndIndexOfNextWftSeq_append hasLastWft [x] l ?_ ?_
    · intro e he
      exact Int.le_of_eq (by rw [List.mem_singleton.mp he])
    · intro e he
      have := Contig.lt hc.2 e he
      have := hc.1
      omega
  induction l using chunk_induction seqEnd_lt with
  | none l hn =>
    intro f x fuel wftCount hc hf
    obtain ⟨fuel, rfl⟩ : ∃ k, fuel = k + 1 := ⟨fuel - 1, by omega⟩
    simp only [fromEventsLoop, hend l hc, seqEndIndex_of_none hn, NextWFTSeqEndIndex.add,
      chunks_of_none hn]
    rfl
  | some l i hs ih =>
    intro f x fuel wftCount hc hf
    obtain ⟨fuel, rfl⟩ : ∃ k, fuel = k + 1 := ⟨fuel - 1, by omega⟩
    obtain ⟨f', x', hl, hlen, htake⟩ := exists_split (seqEnd_lt l i hs)
    have hi := seqEnd_lt l i hs
    have hall : f ++ x :: l = (f ++ x :: f') ++ x' :: l.drop (i + 1) := by
      conv_lhs => rw [hl]
      simp
    have hstep := ih (f ++ x :: f') x' fuel (wftCount + 1) (hall ▸ hc) (by rw [List.length_drop]; omega)
    have hfl : (f ++ x :: f').length = 1 + i + f.length := by simp [hlen]; omega
    simp only [fromEventsLoop, hend l hc, seqEndIndex_of_some hs, NextWFTSeqEndIndex.add,
      chunks_of_some seqEnd_lt hs]
    rw [hall, ← hfl, hstep, htake]
    simp only [List.flatten_cons, List.length_append, List.length_cons, List.length_nil, Prod.mk.injEq]
    omega

section

variable {a prev started : Int} {b : List HistoryEvent}

/-- The last update takes everything. -/
theorem fromEvents_last (b : List HistoryEvent) : ∃ n, fromEvents b prev started true =
    ({ events := b, previousWftStartedId := prev, wftStartedId := started, hasLastWft := true, wftCount := n },
      []) := by
  unfold fromEvents
  split
  · exact ⟨1, rfl⟩
  · exact ⟨_, by simp only [Bool.or_true, if_true]; rfl⟩

/-- The chunks after the previous task. -/
def newChunks (prev : Int) (b : List HistoryEvent) : List (List HistoryEvent) × List HistoryEvent :=
  chunks seqEnd (b.dropWhile (fun e => e.eventId ≤ prev))

/-- Other updates take the complete chunks. -/
theorem fromEvents_not_last (hb : Contig a b) :
    fromEvents b prev started false =
      ({ events := if (newChunks prev b).1 = [] then [] else
          b.takeWhile (fun e => e.eventId ≤ prev) ++ (newChunks prev b).1.flatten
         previousWftStartedId := prev, wftStartedId := started, hasLastWft := false
         wftCount := (newChunks prev b).1.length },
        if (newChunks prev b).1 = [] then b else (newChunks prev b).2) := by
  have hsplit : b.takeWhile (fun e => e.eventId ≤ prev) ++ b.dropWhile (fun e => e.eventId ≤ prev) = b :=
    List.takeWhile_append_dropWhile
  have hfind := findEndIndexOfNextWftSeq_append false (b.takeWhile (fun e => e.eventId ≤ prev))
    (b.dropWhile (fun e => e.eventId ≤ prev)) le_of_mem_takeWhile hb.lt_dropWhile
  rw [hsplit] at hfind
  unfold fromEvents newChunks
  generalize b.takeWhile (fun e => decide (e.eventId ≤ prev)) = tw,
    b.dropWhile (fun e => decide (e.eventId ≤ prev)) = dw at hsplit hfind
  rw [hfind]
  cases hs : seqEnd dw with
  | none => simp [seqEndIndex_of_none hs, chunks_of_none hs]
  | some i =>
    rw [seqEndIndex_of_some hs]
    obtain ⟨f, x, hl, hlen, htake⟩ := exists_split (seqEnd_lt dw i hs)
    have hfl := chunks_flatten seqEnd_lt (dw.drop (i + 1))
    have hall : b = (tw ++ f) ++ x :: dw.drop (i + 1) := by
      rw [← hsplit]
      conv_lhs => rw [hl]
      simp
    have hloop := fromEventsLoop_eq false (dw.drop (i + 1)) (tw ++ f) x b.length 0 (hall ▸ hb)
      (by rw [hall]; simp only [List.length_append, List.length_cons]; omega)
    rw [← hall, List.length_append, hlen] at hloop
    have hb' : b = (tw ++ (dw.take (i + 1) ++ (chunks seqEnd (dw.drop (i + 1))).1.flatten)) ++
        (chunks seqEnd (dw.drop (i + 1))).2 := by
      rw [List.append_assoc, List.append_assoc, hfl, List.take_append_drop, hsplit]
    have hlen' : tw.length + i + (chunks seqEnd (dw.drop (i + 1))).1.flatten.length + 1 =
        (tw ++ (dw.take (i + 1) ++ (chunks seqEnd (dw.drop (i + 1))).1.flatten)).length := by
      simp only [List.length_append, htake, hlen, List.length_singleton]; omega
    have hne : b.isEmpty = false := by rw [hall]; simp
    simp only [hloop, chunks_of_some seqEnd_lt hs, hne, Bool.or_self, reduceCtorEq, if_false, hlen',
      List.flatten_cons, Bool.false_eq_true, List.length_cons]
    rw [hb', List.take_left, List.drop_left, Nat.zero_add]

theorem takeWhile_newChunks (prev : Int) (b : List HistoryEvent) :
    b.takeWhile (fun e => e.eventId ≤ prev) ++ (newChunks prev b).1.flatten ++ (newChunks prev b).2 = b := by
  rw [List.append_assoc, newChunks, chunks_flatten seqEnd_lt, List.takeWhile_append_dropWhile]

end

/-! ## A server of pages -/

/-- The answers from a token on are these pages. -/
inductive Serves : NextPageToken → Client → List (List HistoryEvent) → Prop
  | done (client : Client) : Serves .done client []
  | page {token client pages bytes}
      (history : Option (List HistoryEvent)) : token ≠ .done → Serves (.ofBytes bytes) client pages →
      Serves token (.ok { history, nextPageToken := bytes } :: client) (history.getD [] :: pages)

/-- The next page that is not empty, or the last one. -/
def firstPage : List (List HistoryEvent) → List HistoryEvent × List (List HistoryEvent)
  | [] => ([], [])
  | page :: pages => if page = [] ∧ pages ≠ [] then firstPage pages else (page, pages)

theorem Serves.eq_nil_iff {token : NextPageToken} (h : Serves token client pages) : pages = [] ↔ token = .done := by
  cases h with
  | done => simp
  | page history ht _ => simp [ht]

theorem firstPage_flatten : ∀ pages : List (List HistoryEvent),
    (firstPage pages).1 ++ (firstPage pages).2.flatten = pages.flatten
  | [] => rfl
  | page :: pages => by
    rw [firstPage]
    split
    · rename_i h
      rw [firstPage_flatten pages, h.1]; rfl
    · rfl

theorem firstPage_length_lt : ∀ {pages : List (List HistoryEvent)}, pages ≠ [] →
    (firstPage pages).2.length < pages.length
  | [], h => absurd rfl h
  | page :: pages, _ => by
    rw [firstPage]
    split
    · rename_i h
      have := firstPage_length_lt h.2
      simp only [List.length_cons]; omega
    · simp

theorem firstPage_ne_nil : ∀ {pages : List (List HistoryEvent)}, (firstPage pages).2 ≠ [] → (firstPage pages).1 ≠ []
  | [], h => absurd rfl h
  | page :: pages, h => by
    rw [firstPage] at h ⊢
    split at h
    · rename_i hp
      rw [if_pos hp]; exact firstPage_ne_nil h
    · rename_i hp
      rw [if_neg hp]
      exact fun h' => hp ⟨h', h⟩

theorem fetchPage_spec {token : NextPageToken} (h : Serves token client pages) : ∃ history token' client',
    fetchPage client token = (.ok history, token', client') ∧ history.getD [] = (firstPage pages).1 ∧
      Serves token' client' (firstPage pages).2 := by
  induction h with
  | done client => exact ⟨none, .done, client, by cases client <;> rfl, rfl, .done client⟩
  | @page token client pages bytes history ht hs ih =>
    have hnil := hs.eq_nil_iff
    have hempty : (history.map (·.isEmpty)).getD true = true ↔ history.getD [] = [] := by
      cases history <;> simp
    by_cases hp : history.getD [] = [] ∧ pages ≠ []
    · obtain ⟨history', token', client', h1, h2, h3⟩ := ih
      refine ⟨history', token', client', ?_, ?_, ?_⟩
      · rw [fetchPage_ok ht, if_pos ⟨hempty.mpr hp.1, fun h => hp.2 (hnil.mpr h)⟩, h1]
      · rw [firstPage, if_pos hp, h2]
      · rw [firstPage, if_pos hp]; exact h3
    · refine ⟨history, .ofBytes bytes, client, ?_, ?_, ?_⟩
      · rw [fetchPage_ok ht, if_neg]
        exact fun h => hp ⟨hempty.mp h.1, fun h' => h.2 (hnil.mp h')⟩
      · rw [firstPage, if_neg hp]
      · rw [firstPage, if_neg hp]; exact hs

/-! ## The updates of a paginated history -/

/-- The update and the rest, if two sequences are complete after the previous task. -/
def cutOff (prev : Int) (b : List HistoryEvent) : Option (List HistoryEvent × List HistoryEvent) :=
  if 2 ≤ (newChunks prev b).1.length then
    some (b.takeWhile (fun e => e.eventId ≤ prev) ++ (newChunks prev b).1.flatten, (newChunks prev b).2)
  else none

/-- All updates but the last, and the last. -/
def updates (prev : Int) : List HistoryEvent → List (List HistoryEvent) → List (List HistoryEvent) × List HistoryEvent
  | queue, [] => ([], queue)
  | queue, page :: pages =>
    if pages = [] then ([], queue ++ page)
    else if page = [] then updates prev queue pages
    else
      match cutOff prev (queue ++ page) with
      | none => updates prev (queue ++ page) pages
      | some (update, extra) => (update :: (updates prev extra pages).1, (updates prev extra pages).2)

theorem cutOff_append {b u x : List HistoryEvent} (h : cutOff prev b = some (u, x)) : u ++ x = b := by
  unfold cutOff at h
  split at h
  · cases h; exact takeWhile_newChunks prev b
  · cases h

/-- Updates lose nothing. -/
theorem updates_flatten (prev : Int) : ∀ (pages : List (List HistoryEvent)) (queue : List HistoryEvent),
    (updates prev queue pages).1.flatten ++ (updates prev queue pages).2 = queue ++ pages.flatten
  | [], queue => by simp [updates]
  | page :: pages, queue => by
    rw [updates]
    split
    · rename_i h; simp [h]
    · split
      · rename_i h; rw [updates_flatten prev pages queue, h]; rfl
      · split
        · rw [updates_flatten prev pages]; simp
        · rename_i u x hc
          rw [List.flatten_cons, List.append_assoc, updates_flatten prev pages, ← List.append_assoc, cutOff_append hc]
          simp

theorem updates_firstPage (prev : Int) (queue : List HistoryEvent) : ∀ pages : List (List HistoryEvent),
    updates prev queue pages =
      if (firstPage pages).2 = [] then ([], queue ++ (firstPage pages).1)
      else
        match cutOff prev (queue ++ (firstPage pages).1) with
        | none => updates prev (queue ++ (firstPage pages).1) (firstPage pages).2
        | some (u, x) =>
          (u :: (updates prev x (firstPage pages).2).1, (updates prev x (firstPage pages).2).2)
  | [] => by simp [updates, firstPage]
  | page :: pages => by
    by_cases hps : pages = []
    · simp [updates, firstPage, hps]
    · by_cases hp : page = []
      · have hf : firstPage (page :: pages) = firstPage pages := by rw [firstPage, if_pos ⟨hp, hps⟩]
        rw [updates, if_neg hps, if_pos hp, hf]
        exact updates_firstPage prev queue pages
      · have hf : firstPage (page :: pages) = (page, pages) := by rw [firstPage, if_neg (fun h => hp h.1)]
        rw [updates, if_neg hps, if_neg hp, hf]
        simp only [if_neg hps]

/-- In a contiguous history up to `started`, events up to `a` are handed out, `queue` is fetched and `pages` are to
come. -/
structure Extracting (prev started a : Int) (queue : List HistoryEvent) (pages : List (List HistoryEvent))
    (p : HistoryPaginator) (client : Client) : Prop where
  queue_eq : p.eventQueue = queue
  final_eq : p.finalEvents = []
  prev_eq : p.previousWftStartedId = prev
  started_eq : p.wftStartedEventId = started
  serves : Serves p.nextPageToken client pages
  base_nonneg : 0 ≤ a
  contig : Contig a (queue ++ pages.flatten)
  ends : a + (queue ++ pages.flatten).length = started
  sent : p.idOfLastEventInLastExtractedUpdate.getD 0 = a ∨ queue ++ pages.flatten ≠ []

theorem Contig.backId (h : Contig a l) (hne : l ≠ []) : backId l = a + l.length := by
  obtain ⟨l', e, rfl⟩ := l.eq_nil_or_concat'.resolve_left hne
  rw [HistoryPaginator.backId]
  simpa using h.last

theorem Contig.backId_le (h : Contig a l) (ha : 0 ≤ a) : HistoryPaginator.backId l ≤ a + l.length := by
  by_cases hne : l = []
  · subst hne; simpa [HistoryPaginator.backId] using ha
  · exact Int.le_of_eq (h.backId hne)

theorem extendQueue_eq {p : HistoryPaginator} {page : List HistoryEvent} (hf : p.finalEvents = []) (ha : 0 ≤ a)
    (hc : Contig a (p.eventQueue ++ page)) : extendQueue p page = { p with eventQueue := p.eventQueue ++ page } := by
  have hdrop : page.dropWhile (fun e => e.eventId ≤ HistoryPaginator.backId p.eventQueue) = page := by
    have hc := contig_append.mp hc
    have hle := hc.1.backId_le ha
    cases page with
    | nil => rfl
    | cons e page =>
      have he := Contig.lt hc.2 e List.mem_cons_self
      rw [List.dropWhile_cons, if_neg (by simp only [decide_eq_true_eq]; omega)]
  unfold extendQueue
  simp only [hdrop, hf, List.dropWhile_nil, List.append_nil]
  split
  · split <;> simp [← hf]
  · rfl

theorem getNextPage_spec {started : Int} {queue : List HistoryEvent} {p : HistoryPaginator}
    (h : Extracting prev started a queue pages p client) :
    ∃ p' client', getNextPage client p = (.ok (decide ((firstPage pages).2 ≠ [])), p', client') ∧
      Extracting prev started a (queue ++ (firstPage pages).1) (firstPage pages).2 p' client' := by
  obtain rfl := h.queue_eq
  obtain ⟨history, token', client', hfetch, hpage, hserves⟩ := fetchPage_spec h.serves
  have hflat := firstPage_flatten pages
  have hcontig := h.contig
  rw [← hflat, ← List.append_assoc] at hcontig
  refine ⟨{ p with nextPageToken := token', eventQueue := p.eventQueue ++ (firstPage pages).1 }, client', ?_, ?_⟩
  · have hext := extendQueue_eq (p := { p with nextPageToken := token' }) h.final_eq h.base_nonneg
      (contig_append.mp hcontig).1
    simp only [getNextPage, hfetch, hpage, hext, ne_eq, hserves.eq_nil_iff]
  · exact ⟨rfl, h.final_eq, h.prev_eq, h.started_eq, hserves, h.base_nonneg, hcontig,
      by rw [List.append_assoc, hflat]; exact h.ends, by rw [List.append_assoc, hflat]; exact h.sent⟩

section

variable {prev started a : Int} {queue : List HistoryEvent} {pages : List (List HistoryEvent)} {p : HistoryPaginator}
  {client : Client}

theorem extractRound_last (h : Extracting prev started a queue [] p client) :
    ∃ n p', extractRound true p = .done (.ok ⟨queue, prev, started, true, n⟩) p' := by
  obtain rfl := h.queue_eq
  obtain rfl := h.prev_eq
  obtain rfl := h.started_eq
  have hdone := h.serves.eq_nil_iff.mp rfl
  have hends := h.ends
  simp only [List.flatten_nil, List.append_nil] at hends
  unfold extractRound
  by_cases hq : p.eventQueue = []
  · -- everything has been handed out already
    obtain ⟨n, hn⟩ := @fromEvents_last p.previousWftStartedId p.wftStartedEventId []
    have hsent : p.idOfLastEventInLastExtractedUpdate.getD 0 ≥ p.wftStartedEventId := by
      rw [h.sent.resolve_right (by simp [hq]), ← hends, hq]; simp
    simp only [hq, List.isEmpty_nil, Bool.true_and, hsent, decide_true, if_true, hn]
    exact ⟨n, _, rfl⟩
  · obtain ⟨n, hn⟩ := @fromEvents_last p.previousWftStartedId p.wftStartedEventId p.eventQueue
    have hback : HistoryPaginator.backId p.eventQueue ≥ p.wftStartedEventId := by
      have hc := h.contig
      simp only [List.flatten_nil, List.append_nil] at hc
      rw [hc.backId hq]; omega
    have hempty : p.eventQueue.isEmpty = false := by simpa using hq
    simp only [hempty, hback, hdone, decide_true, Bool.and_self, hn]
    exact ⟨n, _, rfl⟩

theorem head?_ne_of_contig {u x : List HistoryEvent} (hc : Contig a (u ++ x)) (hu : u ≠ []) (hx : x ≠ []) :
    x.head?.map (·.eventId) ≠ (u ++ x).head?.map (·.eventId) := by
  obtain ⟨e, u, rfl⟩ := List.exists_cons_of_ne_nil hu
  obtain ⟨e', x, rfl⟩ := List.exists_cons_of_ne_nil hx
  have h1 := hc.1
  have h2 := (contig_append.mp hc).2.1
  simp only [List.head?_cons, List.cons_append, Option.map_some, ne_eq, Option.some.injEq]
  simp only [List.length_cons] at h2
  omega

theorem extractRound_more (h : Extracting prev started a queue pages p client) (hp : pages ≠ []) (hq : queue ≠ []) :
    match cutOff prev queue with
    | none => extractRound false p = .again p
    | some (u, x) => u ≠ [] ∧ ∃ n, extractRound false p = .done (.ok ⟨u, prev, started, false, n⟩)
        { p with eventQueue := x, idOfLastEventInLastExtractedUpdate := u.getLast?.map (·.eventId) } := by
  obtain rfl := h.queue_eq
  obtain rfl := h.prev_eq
  obtain rfl := h.started_eq
  have hnd : p.nextPageToken ≠ .done := fun hd => hp (h.serves.eq_nil_iff.mpr hd)
  have hempty : p.eventQueue.isEmpty = false := by simpa using hq
  have hc := (contig_append.mp h.contig).1
  have happ := takeWhile_newChunks p.previousWftStartedId p.eventQueue
  unfold extractRound
  simp only [hempty, hnd, decide_false, Bool.false_and, Bool.or_self, if_false, Bool.false_eq_true,
    fromEvents_not_last hc, ne_eq, not_false_eq_true, true_and]
  unfold cutOff
  by_cases hlen : 2 ≤ (newChunks p.previousWftStartedId p.eventQueue).1.length
  · have hne : (newChunks p.previousWftStartedId p.eventQueue).1 ≠ [] := by
      intro h0; rw [h0] at hlen; simp at hlen
    have hu : p.eventQueue.takeWhile (fun e => e.eventId ≤ p.previousWftStartedId) ++
        (newChunks p.previousWftStartedId p.eventQueue).1.flatten ≠ [] :=
      List.append_ne_nil_of_right_ne_nil _ (chunks_flatten_ne_nil seqEnd_lt hne)
    have hhead : (newChunks p.previousWftStartedId p.eventQueue).2 ≠ [] →
        (newChunks p.previousWftStartedId p.eventQueue).2.head?.map (·.eventId) ≠
          p.eventQueue.head?.map (·.eventId) := by
      intro hx
      rw [← happ] at hc
      have := head?_ne_of_contig hc hu hx
      rwa [happ] at this
    simp only [hlen, if_true, Nat.not_lt.mpr hlen, hne, if_false]
    refine ⟨hu, (newChunks p.previousWftStartedId p.eventQueue).1.length, ?_⟩
    simpa using hhead
  · rw [if_neg hlen, if_pos (by omega)]
    by_cases hne : (newChunks p.previousWftStartedId p.eventQueue).1 = []
    · simp [hne]
    · simp [hne, happ]

/-- The last update, or the first of those left and the paginator for the next. -/
inductive Extracted (prev started a : Int) (queue : List HistoryEvent) (pages : List (List HistoryEvent))
    (u : HistoryUpdate) (p : HistoryPaginator) (client : Client) : Prop
  | last : u.hasLastWft = true → updates prev queue pages = ([], u.events) → Extracted ..
  | more {queue' pages'} : u.hasLastWft = false → u.events ≠ [] → pages' ≠ [] → pages'.length < pages.length →
      updates prev queue pages = (u.events :: (updates prev queue' pages').1, (updates prev queue' pages').2) →
      Extracting prev started (a + u.events.length) queue' pages' p client → Extracted ..

/-- Rounds until there is an update. -/
theorem extractLoop_spec : ∀ {fuel : Nat} {queue : List HistoryEvent} {pages : List (List HistoryEvent)}
    {p : HistoryPaginator} {client : Client}, Extracting prev started a queue pages p client → pages.length < fuel →
    ∃ u p' client', extractLoop fuel client p = (.ok u, p', client') ∧ u.previousWftStartedId = prev ∧
      u.wftStartedId = started ∧ Extracted prev started a queue pages u p' client'
  | 0, _, _, _, _, _, hf => by omega
  | fuel + 1, queue, pages, p, client, h, hf => by
    obtain ⟨p', client', hget, h'⟩ := getNextPage_spec h
    have hupd := updates_firstPage prev queue pages
    unfold extractLoop
    rw [hget]
    by_cases hps : (firstPage pages).2 = []
    · rw [hps] at h'
      obtain ⟨n, p'', hround⟩ := extractRound_last h'
      rw [if_pos hps] at hupd
      simp only [hps, ne_eq, not_true_eq_false, decide_false, Bool.not_false, hround]
      exact ⟨_, p'', client', rfl, rfl, rfl, .last rfl hupd⟩
    · have hpages : pages ≠ [] := by rintro rfl; exact hps rfl
      have hlt := firstPage_length_lt hpages
      have hq : queue ++ (firstPage pages).1 ≠ [] := List.append_ne_nil_of_right_ne_nil _ (firstPage_ne_nil hps)
      have hround := extractRound_more h' hps hq
      rw [if_neg hps] at hupd
      simp only [hps, ne_eq, not_false_eq_true, decide_true, Bool.not_true]
      cases hcut : cutOff prev (queue ++ (firstPage pages).1) with
      | none =>
        rw [hcut] at hround hupd
        rw [hround]
        obtain ⟨u, p2, c2, h1, h2, h3, h4⟩ := @extractLoop_spec fuel _ _ _ _ h' (by omega)
        refine ⟨u, p2, c2, h1, h2, h3, ?_⟩
        simp only at hupd
        cases h4 with
        | last h5 h6 => exact .last h5 (hupd.trans h6)
        | more h5 h6 h7 h8 h9 h10 => exact .more h5 h6 h7 (by omega) (hupd.trans h9) h10
      | some ux =>
        obtain ⟨u, x⟩ := ux
        rw [hcut] at hround hupd
        obtain ⟨hne, n, hround⟩ := hround
        rw [hround]
        have happ := cutOff_append hcut
        refine ⟨_, _, client', rfl, rfl, rfl, .more rfl hne hps hlt hupd ?_⟩
        have hc := h'.contig
        have he := h'.ends
        rw [← happ, List.append_assoc] at hc he
        have hc := contig_append.mp hc
        refine ⟨rfl, h'.final_eq, h'.prev_eq, h'.started_eq, h'.serves, ?_, hc.2, ?_, ?_⟩
        · have := h.base_nonneg
          omega
        · simp only [List.length_append] at he ⊢; omega
        · exact Or.inl (hc.1.backId hne)

theorem Serves.length_le {token : NextPageToken} (h : Serves token client pages) : pages.length ≤ client.length := by
  induction h with
  | done => simp
  | page _ _ _ ih => simpa using ih

/-- **An extraction hands out the next of the updates.** -/
theorem extractNextUpdate_spec (h : Extracting prev started a queue pages p client) :
    ∃ u p' client', extractNextUpdate client p = (.ok u, p', client') ∧ u.previousWftStartedId = prev ∧
      u.wftStartedId = started ∧ Extracted prev started a queue pages u p' client' :=
  extractLoop_spec h (by have := h.serves.length_le; omega)

theorem exists_cutOff_of_mem_updates (prev : Int) : ∀ (pages : List (List HistoryEvent)) (queue : List HistoryEvent),
    ∀ t ∈ (updates prev queue pages).1, ∃ b x, cutOff prev b = some (t, x)
  | [], queue, t, ht => by cases ht
  | page :: pages, queue, t, ht => by
    rw [updates] at ht
    split at ht
    · cases ht
    · split at ht
      · exact exists_cutOff_of_mem_updates prev pages queue t ht
      · split at ht
        · exact exists_cutOff_of_mem_updates prev pages _ t ht
        · rename_i u x hc
          rcases List.mem_cons.mp ht with rfl | ht
          · exact ⟨_, x, hc⟩
          · exact exists_cutOff_of_mem_updates prev pages x t ht

/-- Updates end in tasks and final events. -/
theorem updates_ends {prev : Int} {pages : List (List HistoryEvent)} {queue t : List HistoryEvent}
    (ht : t ∈ (updates prev queue pages).1) : ∃ t' e, t = t' ++ [e] ∧ e.endsSequence = true := by
  obtain ⟨b, x, hc⟩ := exists_cutOff_of_mem_updates prev pages queue t ht
  unfold cutOff at hc
  split at hc
  · rename_i hlen
    cases hc
    obtain ⟨t', e, he, hends⟩ := chunks_seqEnd_flatten_ends (b.dropWhile (fun e => e.eventId ≤ prev)) (by
      intro h0
      rw [newChunks, h0] at hlen
      simp at hlen)
    exact ⟨_ ++ t', e, by rw [List.append_assoc, ← he]; rfl, hends⟩
  · cases hc

theorem updates_two_le {prev : Int} {pages : List (List HistoryEvent)} {queue t : List HistoryEvent}
    (ht : t ∈ (updates prev queue pages).1) : 2 ≤ t.length := by
  obtain ⟨b, x, hc⟩ := exists_cutOff_of_mem_updates prev pages queue t ht
  unfold cutOff at hc
  split at hc
  · rename_i hlen
    cases hc
    have := chunks_length_le seqEnd_lt (b.dropWhile (fun e => e.eventId ≤ prev))
    rw [List.length_append]
    unfold newChunks at hlen ⊢
    omega
  · cases hc

end

end SdkCore
