import SdkCore.History.Cuts

/-!
# Consuming a paginated history

A run takes sequences from the update at hand while it can, and then gets the next one with what is left (`consume`). A
task may be cut off from its completion, and is then dropped (`pagination_loses_events`).
-/

namespace SdkCore

open Chunks HistoryPaginator HistoryUpdate

inductive Stop
  | replayOver
  | tookLast
  | needFetch
  | panicked
  | failed (err : Status)
  | outOfFuel
  deriving DecidableEq

/-- Take sequences after `cur`, from one update after the other, until replay is over. -/
def consume (started : Int) : Nat → Client → HistoryPaginator → HistoryUpdate → Int → List (List HistoryEvent) × Stop
  | 0, _, _, _, _ => ([], .outOfFuel)
  | fuel + 1, client, p, u, cur =>
    if u.canTakeNextWftSequence cur then
      match u.takeNextWftSequence cur with
      | (.replayOver, _) => ([], .replayOver)
      | (.needFetch, _) => ([], .needFetch)
      | (.panicked, _) => ([], .panicked)
      | (.wft events _, u) =>
        if events.any (·.eventId = started) then ([events], .tookLast)
        else
          let r := consume started fuel client p u (backId events)
          (events :: r.1, r.2)
    else
      match extractNextUpdate client p with
      | (.error err, _, _) => ([], .failed err)
      | (.ok u, p, client) => consume started fuel client p u cur

/-- From the start of a history. -/
def consumeHistory (fuel : Nat) (client : Client) (p : HistoryPaginator) : List (List HistoryEvent) × Stop :=
  consume p.wftStartedEventId fuel client p .dummy 0

section

variable {a cur : Int} {u : HistoryUpdate} (hc : Contig a u.events) (hcur : cur ≤ a)
include hc hcur

theorem findEnd_contig : findEndIndexOfNextWftSeq u.events cur u.hasLastWft = seqEndIndex 0 u.events :=
  findEndIndexOfNextWftSeq_append u.hasLastWft [] u.events (by simp)
    (fun e he => Int.lt_of_le_of_lt hcur (hc.lt e he))

theorem canTake_contig :
    u.canTakeNextWftSequence cur = ((seqEnd u.events).isSome || u.hasLastWft) := by
  unfold canTakeNextWftSequence
  rw [findEnd_contig hc hcur]
  cases hs : seqEnd u.events with
  | some i => rw [seqEndIndex_of_some hs]; rfl
  | none => rw [seqEndIndex_of_none hs]; rfl

theorem skipTo_contig : u.skipTo cur = u := by
  unfold skipTo startingIndexAfterSkipping
  cases hl : u.events with
  | nil => rfl
  | cons e l =>
    have := hc.lt e (by simp [hl])
    rw [List.findIdx?_cons, if_pos (by simpa using Int.lt_of_le_of_lt hcur this), ← hl]
    rfl

theorem take_of_some {i : Nat} (hs : seqEnd u.events = some i) : u.takeNextWftSequence cur = u.buildNextWft i := by
  unfold takeNextWftSequence
  simp only [skipTo_contig hc hcur, findEnd_contig hc hcur, seqEndIndex_of_some hs, Nat.zero_add]

theorem take_of_none (hn : seqEnd u.events = none) (hl : u.hasLastWft = true) : u.takeNextWftSequence cur =
    if u.events.length ≤ 1 then (.replayOver, u) else u.buildNextWft (u.events.length - 1) := by
  unfold takeNextWftSequence
  simp only [skipTo_contig hc hcur, findEnd_contig hc hcur, seqEndIndex_of_none hn, Nat.zero_add]
  rw [if_pos hl]
  by_cases h1 : u.events.length ≤ 1
  · rw [if_pos (Nat.sub_eq_zero_of_le h1), if_pos h1]
  · rw [if_neg (by omega), if_neg h1]

theorem take_of_none_of_not_last (hn : seqEnd u.events = none) (hl : u.hasLastWft = false) :
    u.takeNextWftSequence cur = (if u.events.length ≤ 1 then .needFetch else .panicked, u) := by
  unfold takeNextWftSequence
  simp only [skipTo_contig hc hcur, findEnd_contig hc hcur, seqEndIndex_of_none hn, Nat.zero_add]
  rw [if_neg (by simp [hl])]
  by_cases h1 : u.events.length ≤ 1
  · rw [if_neg (by omega), if_pos h1]
  · rw [if_pos (by omega), if_neg h1]

end

/-! ## What the consumer takes -/

theorem deliver_eq_nil {pieces : List (List HistoryEvent)} {last : List HistoryEvent}
    (h : pieces.flatten ++ last = []) : deliver seqEnd pieces last = [] := by
  obtain ⟨hp, rfl⟩ := List.append_eq_nil_iff.mp h
  have hnil : (chunks seqEnd []).1 = [] := by rw [chunks_of_none (cut_nil seqEnd_lt)]
  rw [deliver, whole_nil seqEnd_lt, List.append_nil, List.flatMap_eq_nil_iff]
  intro t ht
  rw [List.flatten_eq_nil_iff.mp hp t ht, hnil]

/-- The last task is in the last piece. -/
theorem any_started_iff {a started : Int} {l r : List HistoryEvent} (hc : Contig a (l ++ r))
    (hends : a + (l ++ r).length = started) (hl : l ≠ []) : l.any (·.eventId = started) = true ↔ r = [] := by
  constructor
  · intro h
    obtain ⟨e, he, hid⟩ := List.any_eq_true.mp h
    have := (contig_append.mp hc).1.le e he
    rw [decide_eq_true_eq] at hid
    simp only [List.length_append] at hends
    exact List.length_eq_zero_iff.mp (by omega)
  · rintro rfl
    rw [List.append_nil] at hc hends
    obtain ⟨l', e, rfl⟩ := l.eq_nil_or_concat'.resolve_left hl
    rw [List.any_eq_true]
    exact ⟨e, by simp, by rw [decide_eq_true_eq, hc.last]; exact hends⟩

section

variable {started : Int} {client : Client} {p : HistoryPaginator}

theorem consume_take {fuel : Nat} {u : HistoryUpdate} {a cur : Int} {i : Nat} {r : List HistoryEvent}
    (hc : Contig a (u.events ++ r)) (hcur : cur ≤ a) (hends : a + (u.events ++ r).length = started)
    (hs : seqEnd u.events = some i) :
    consume started (fuel + 1) client p u cur =
      if u.events.drop (i + 1) ++ r = [] then ([u.events.take (i + 1)], .tookLast)
      else (u.events.take (i + 1) ::
          (consume started fuel client p { u with events := u.events.drop (i + 1) } (a + (i + 1))).1,
        (consume started fuel client p { u with events := u.events.drop (i + 1) } (a + (i + 1))).2) := by
  have hcu := (contig_append.mp hc).1
  have hi := seqEnd_lt _ _ hs
  have hlen : (u.events.take (i + 1)).length = i + 1 := by rw [List.length_take]; omega
  have hne : u.events.take (i + 1) ≠ [] := List.ne_nil_of_length_pos (by omega)
  have hsplit : u.events ++ r = u.events.take (i + 1) ++ (u.events.drop (i + 1) ++ r) := by
    rw [← List.append_assoc, List.take_append_drop]
  rw [hsplit] at hc hends
  have hany := any_started_iff hc hends hne
  have hback : HistoryPaginator.backId (u.events.take (i + 1)) = a + (i + 1) := by
    rw [(contig_append.mp hc).1.backId hne, hlen]; rfl
  simp only [consume, canTake_contig hcu hcur, hs, Option.isSome_some, Bool.true_or, if_true,
    take_of_some hcu hcur hs, buildNextWft, hback]
  by_cases hr : u.events.drop (i + 1) ++ r = []
  · rw [if_pos (hany.mpr hr), if_pos hr]
  · rw [if_neg (fun h => hr (hany.mp h)), if_neg hr]

def Stop.IsEnd (stop : Stop) : Prop := stop = .replayOver ∨ stop = .tookLast

instance (stop : Stop) : Decidable stop.IsEnd := inferInstanceAs (Decidable (_ ∨ _))

theorem consume_last (l : List HistoryEvent) : ∀ {fuel : Nat} {u : HistoryUpdate} {a cur : Int}, u.events = l →
    Contig a l → cur ≤ a → u.hasLastWft = true → a + l.length = started → l.length < fuel →
    ∃ stop, consume started fuel client p u cur = (whole seqEnd l, stop) ∧ stop.IsEnd := by
  induction l using chunk_induction seqEnd_lt with
  | none l hn =>
    rintro fuel u a cur rfl hc hcur hlast hends hf
    obtain ⟨fuel, rfl⟩ : ∃ k, fuel = k + 1 := ⟨fuel - 1, by omega⟩
    simp only [consume, canTake_contig hc hcur, hlast, Bool.or_true, if_true, take_of_none hc hcur hn hlast,
      whole_of_none hn]
    by_cases h1 : u.events.length ≤ 1
    · simp only [h1, if_true]
      exact ⟨.replayOver, rfl, Or.inl rfl⟩
    · have hlen : u.events.length - 1 + 1 = u.events.length := by omega
      have hall : u.events.any (·.eventId = started) = true := by
        refine (any_started_iff (a := a) ?_ ?_ ?_).mpr rfl
        · rwa [List.append_nil]
        · rwa [List.append_nil]
        · intro h; simp [h] at h1
      simp only [h1, if_false, buildNextWft, hlen, List.take_length, hall, if_true]
      exact ⟨.tookLast, rfl, Or.inr rfl⟩
  | some l i hs ih =>
    rintro fuel u a cur rfl hc hcur hlast hends hf
    obtain ⟨fuel, rfl⟩ : ∃ k, fuel = k + 1 := ⟨fuel - 1, by omega⟩
    have hi := seqEnd_lt _ _ hs
    have hlen : (u.events.take (i + 1)).length = i + 1 := by rw [List.length_take]; omega
    have hc' := hc
    rw [← List.take_append_drop (i + 1) u.events, contig_append, hlen] at hc'
    rw [consume_take (by rwa [List.append_nil]) hcur (by rwa [List.append_nil]) hs,
      whole_of_some seqEnd_lt hs, List.append_nil]
    by_cases hd : u.events.drop (i + 1) = []
    · rw [hd, whole_nil seqEnd_lt]
      exact ⟨.tookLast, rfl, Or.inr rfl⟩
    · obtain ⟨stop, hstop, hend⟩ := @ih fuel { u with events := u.events.drop (i + 1) } _ _ rfl hc'.2
        (Int.le_refl _) hlast (by rw [List.length_drop]; omega) (by rw [List.length_drop]; omega)
      rw [if_neg hd]
      exact ⟨stop, by rw [show (a + (i + 1) : Int) = a + ((i + 1 : Nat) : Int) from rfl, hstop], hend⟩

theorem consume_more {prev : Int} : ∀ {fuel : Nat} {client : Client} {p : HistoryPaginator} {u : HistoryUpdate}
    {a cur : Int} {queue : List HistoryEvent} {pages : List (List HistoryEvent)}, u.hasLastWft = false →
    Contig a u.events → cur ≤ a → Extracting prev started (a + u.events.length) queue pages p client →
    u.events.length + (queue ++ pages.flatten).length + pages.length + 1 < fuel →
    ∃ stop, consume started fuel client p u cur =
      (deliver seqEnd (u.events :: (updates prev queue pages).1) (updates prev queue pages).2, stop) ∧ stop.IsEnd
  | 0, _, _, _, _, _, _, _, _, _, _, _, hf => by omega
  | fuel + 1, client, p, u, a, cur, queue, pages, hl, hc, hcur, hx, hf => by
    have hdel : ∀ t ts last, deliver seqEnd (t :: ts) last = (chunks seqEnd t).1 ++ deliver seqEnd ts last := by
      intro t ts last; simp [deliver]
    have hflat := updates_flatten prev pages queue
    rw [hdel]
    cases hs : seqEnd u.events with
    | some i =>
      have hi := seqEnd_lt _ _ hs
      have hlen : (u.events.take (i + 1)).length = i + 1 := by rw [List.length_take]; omega
      have hc' := hc
      rw [← List.take_append_drop (i + 1) u.events, contig_append, hlen] at hc'
      have hends := hx.ends
      rw [consume_take (r := queue ++ pages.flatten) (contig_append.mpr ⟨hc, hx.contig⟩) hcur
        (by rw [← hends]; simp only [List.length_append]; omega) hs, chunks_of_some seqEnd_lt hs]
      by_cases hd : u.events.drop (i + 1) ++ (queue ++ pages.flatten) = []
      · -- the final task was taken, so all that is left is empty
        obtain ⟨hd1, hd2⟩ := List.append_eq_nil_iff.mp hd
        rw [if_pos hd, deliver_eq_nil (hflat.trans hd2), hd1, chunks_of_none (cut_nil seqEnd_lt)]
        exact ⟨.tookLast, rfl, Or.inr rfl⟩
      · rw [if_neg hd]
        have hx' : Extracting prev started
            (a + ((i + 1 : Nat) : Int) + (u.events.drop (i + 1)).length) queue pages p client := by
          rw [show a + ((i + 1 : Nat) : Int) + (u.events.drop (i + 1)).length = a + u.events.length by
            rw [List.length_drop]; omega]
          exact hx
        obtain ⟨stop, hstop, hend⟩ := @consume_more prev fuel client p { u with events := u.events.drop (i + 1) } _ _
          queue pages hl hc'.2 (Int.le_refl _) hx' (by
            have : (u.events.drop (i + 1)).length + (i + 1) = u.events.length := by rw [List.length_drop]; omega
            dsimp only; omega)
        refine ⟨stop, ?_, hend⟩
        rw [show (a + (i + 1) : Int) = a + ((i + 1 : Nat) : Int) from rfl, hstop, hdel]
        rfl
    | none =>
      obtain ⟨u', p', client', hext, -, -, hE⟩ := extractNextUpdate_spec hx
      have hcur' : cur ≤ a + u.events.length := by omega
      have hlen := congrArg List.length hflat
      have hcon := hx.contig
      have hends := hx.ends
      rw [← hflat] at hcon
      simp only [consume, canTake_contig hc hcur, hs, hl, Option.isSome_none, Bool.or_self, Bool.false_eq_true,
        if_false, hext, chunks_of_none hs, List.nil_append]
      cases hE with
      | last hl' hupd =>
        rw [hupd] at hcon hlen ⊢
        simp only [List.flatten_nil, List.nil_append] at hcon hlen
        exact consume_last u'.events rfl hcon hcur' hl' (by omega) (by omega)
      | more hl' _ _ hlt hupd hx' =>
        rw [hupd] at hcon hlen ⊢
        simp only [List.flatten_cons, List.append_assoc] at hcon hlen
        rw [updates_flatten] at hlen
        rw [List.length_append] at hlen
        exact consume_more hl' (contig_append.mp hcon).1 hcur' hx' (by omega)

/-- What is taken from a history in pages. -/
theorem consumeHistory_eq {prev : Int} {fuel : Nat} {queue : List HistoryEvent} {pages : List (List HistoryEvent)}
    (hx : Extracting prev started 0 queue pages p client)
    (hf : (queue ++ pages.flatten).length + pages.length + 1 < fuel) :
    ∃ stop, consumeHistory fuel client p =
      (deliver seqEnd (updates prev queue pages).1 (updates prev queue pages).2, stop) ∧ stop.IsEnd := by
  obtain ⟨stop, h, hend⟩ := @consume_more started prev fuel client p .dummy 0 0 queue pages rfl trivial (Int.le_refl _)
    (by simpa [dummy] using hx) (by simpa [dummy] using hf)
  have hnil : (chunks seqEnd dummy.events).1 = [] := by
    rw [dummy, chunks_of_none (cut_nil seqEnd_lt)]
  refine ⟨stop, ?_, hend⟩
  rw [consumeHistory, hx.started_eq, h]
  simp [deliver, hnil]

end

/-! ## Pagination -/

/-- The history comes out complete, in order and in the sequences it has without pagination. -/
def DeliveredFaithfully (fuel : Nat) (runId : RunId) (prev started : Int) (firstPage : List HistoryEvent)
    (token : List UInt8) (client : Client) (history : List HistoryEvent) : Prop :=
  let taken := consumeHistory fuel client (.new firstPage prev started runId (.ofBytes token))
  let unpaginated := consumeHistory fuel [] (.new history prev started runId .done)
  taken.2.IsEnd ∧ taken.1.flatten = history ∧ taken.1 = unpaginated.1

instance (fuel : Nat) (runId : RunId) (prev started : Int) (firstPage : List HistoryEvent) (token : List UInt8)
    (client : Client) (history : List HistoryEvent) :
    Decidable (DeliveredFaithfully fuel runId prev started firstPage token client history) :=
  inferInstanceAs (Decidable (_ ∧ _ ∧ _))

/-- Every update before the last page ends where a sequence ends, both in it and in the history, whose last sequence has
several events. -/
def CutsHold (prev : Int) (firstPage : List HistoryEvent) (pages : List (List HistoryEvent)) : Prop :=
  PiecesAlike seqEnd (updates prev firstPage pages).1 (updates prev firstPage pages).2 ∧
    (chunks seqEnd (firstPage ++ pages.flatten)).2.length ≠ 1

instance (prev : Int) (firstPage : List HistoryEvent) (pages : List (List HistoryEvent)) :
    Decidable (CutsHold prev firstPage pages) :=
  inferInstanceAs (Decidable (_ ∧ _))

theorem extracting_new {prev started a : Int} {runId : RunId} {token : NextPageToken} {client : Client}
    {firstPage : List HistoryEvent} {pages : List (List HistoryEvent)} (ha : 0 ≤ a)
    (hc : Contig a (firstPage ++ pages.flatten)) (hends : a + (firstPage ++ pages.flatten).length = started)
    (ht : token ≠ .fetchFromStart) (hs : Serves token client pages) (hsent : a = 0 ∨ firstPage ≠ []) :
    Extracting prev started a firstPage pages (.new firstPage prev started runId token) client := by
  have hsent : (0 : Int) = a ∨ firstPage ++ pages.flatten ≠ [] :=
    hsent.imp Eq.symm (fun h => List.append_ne_nil_of_left_ne_nil h _)
  cases token with
  | fetchFromStart => exact absurd rfl ht
  | next | done => exact ⟨rfl, rfl, rfl, rfl, hs, ha, hc, hends, hsent⟩

theorem NextPageToken.ofBytes_ne_fetchFromStart (token : List UInt8) : ofBytes token ≠ .fetchFromStart := by
  unfold ofBytes; split <;> simp

/-- **Pagination is faithful exactly if its cuts hold**, for any contiguous history in pages. -/
theorem pagination_faithful_iff {prev started : Int} {runId : RunId} {token : List UInt8} {client : Client}
    {fuel : Nat} {firstPage : List HistoryEvent} {pages : List (List HistoryEvent)}
    (hc : Contig 0 (firstPage ++ pages.flatten)) (hends : (firstPage ++ pages.flatten).length = started)
    (hs : Serves (.ofBytes token) client pages)
    (hf : (firstPage ++ pages.flatten).length + pages.length + 1 < fuel) :
    DeliveredFaithfully fuel runId prev started firstPage token client (firstPage ++ pages.flatten) ↔
      CutsHold prev firstPage pages := by
  have ht := NextPageToken.ofBytes_ne_fetchFromStart token
  have hx1 : Extracting prev started 0 (firstPage ++ pages.flatten) []
      (.new (firstPage ++ pages.flatten) prev started runId .done) [] :=
    extracting_new (Int.le_refl _) (by simpa using hc) (by simpa using hends) (by simp) (.done []) (Or.inl rfl)
  obtain ⟨stop, h, hend⟩ := consumeHistory_eq
    (extracting_new (Int.le_refl _) hc (by simpa using hends) ht hs (Or.inl rfl)) hf
  obtain ⟨stop1, h1, -⟩ := @consumeHistory_eq _ _ _ _ fuel _ _ hx1 (by
    simp only [List.flatten_nil, List.append_nil, List.length_nil]; omega)
  have hiff := @deliver_eq_whole_iff _ _ seqEnd_lt (updates prev firstPage pages).1 (updates prev firstPage pages).2
    (fun t ht => by
      obtain ⟨t', e, rfl, he⟩ := updates_ends ht
      exact ⟨t', e, rfl, localAt_seqEnd he⟩)
  rw [updates_flatten prev pages firstPage] at hiff
  unfold DeliveredFaithfully CutsHold
  rw [← hiff, h, h1]
  simp only [hend, true_and, updates, deliver, List.flatMap_nil, List.nil_append, and_comm]

def signalledHistory : List HistoryEvent :=
  [⟨1, .workflowExecutionStarted, none⟩, ⟨2, .workflowTaskScheduled, none⟩, ⟨3, .workflowTaskStarted, none⟩,
    ⟨4, .workflowTaskCompleted, none⟩, ⟨5, .workflowExecutionSignaled, none⟩, ⟨6, .workflowTaskScheduled, none⟩,
    ⟨7, .workflowTaskStarted, none⟩, ⟨8, .workflowTaskCompleted, none⟩, ⟨9, .workflowExecutionSignaled, none⟩,
    ⟨10, .workflowTaskScheduled, none⟩, ⟨11, .workflowTaskStarted, none⟩]

/-- A server that sends two more pages. -/
def signalledClient : Client :=
  [.ok ⟨some ((signalledHistory.drop 8).take 2), [1]⟩, .ok ⟨some (signalledHistory.drop 10), []⟩]

/-- The second task is cut off from its completion, and is dropped with the signal before it. -/
theorem pagination_loses_events : Contig 0 signalledHistory ∧
    ¬ DeliveredFaithfully 20 0 0 11 (signalledHistory.take 8) [1] signalledClient signalledHistory := by
  decide

def timerHistory : List HistoryEvent :=
  signalledHistory.set 4 ⟨5, .timerStarted, none⟩

theorem pagination_faithful_timer :
    DeliveredFaithfully 20 0 0 11 (timerHistory.take 8) [1]
      [.ok ⟨some ((timerHistory.drop 8).take 2), [1]⟩, .ok ⟨some (timerHistory.drop 10), []⟩]
      (timerHistory.take 8 ++ [(timerHistory.drop 8).take 2, timerHistory.drop 10].flatten) :=
  (pagination_faithful_iff (by decide) (by decide)
    (.page (some ((timerHistory.drop 8).take 2)) (by decide)
      (@Serves.page _ _ _ [] (some (timerHistory.drop 10)) (by decide) (.done _))) (by decide)).mpr (by decide)

end SdkCore
