import SdkCore.Machines.Fetching

/-!
# When replay ends

The machines replay until the first event of the last task that was not produced by this side. They know the last task
by the update it comes with, so the flag depends on how the history is cut (`live_activation_replaying`).
-/

namespace SdkCore

open Op Chunks HistoryPaginator

theorem HistoryEvent.of_isWftStarted {e : HistoryEvent} (h : e.isWftStarted = true) :
    e.isFinalWfExecutionEvent = false ∧ e.isCommandEvent = false ∧ e.eventType ≠ .workflowTaskCompleted := by
  simp only [HistoryEvent.isWftStarted, decide_eq_true_eq] at h
  simp [HistoryEvent.isFinalWfExecutionEvent, HistoryEvent.isCommandEvent, h]

namespace WorkflowMachines

variable {σ : Type} {B : Behaviour σ}

/-- No legacy query, and the history ends with the started event, after a completed task. -/
structure Live (t : TaskHistory) : Prop where
  legacy : t.legacy = false
  nonempty : t.firstPage ≠ []
  prev_lt : t.prev < t.started
  started : ∀ e ∈ t.history, e.eventId = t.started → e.isWftStarted = true

/-- What is known of replay in the middle of a task. -/
structure Replays (t : TaskHistory) (rest : List HistoryEvent) (m : WorkflowMachines σ) : Prop where
  started : ∀ e ∈ rest, e.eventId = t.started → e.isWftStarted = true
  more : m.lastHistoryFromServer.hasLastWft = false → m.haveSeenTerminalEvent = false →
    m.replaying = decide (0 < t.prev)
  terminal : m.haveSeenTerminalEvent = true → m.lastProcessedEvent ≠ t.started

/-- The flag at the end of the task. -/
def LiveAt (t : TaskHistory) (m : WorkflowMachines σ) : Prop :=
  m.lastProcessedEvent = t.started →
    m.replaying = (decide (0 < t.prev) && !m.lastHistoryFromServer.hasLastWft)

section

variable {t : TaskHistory} {p : HistoryPaginator} {client : Client} {b : Int} {pieces : List (List HistoryEvent)}
  {last : List HistoryEvent} {m m' : WorkflowMachines σ}

theorem any_endsReplay_false (m : WorkflowMachines σ) (c : List HistoryEvent) : c.any (m.endsReplay false) = false := by
  simp [endsReplay]

theorem any_endsReplay_true {c : List HistoryEvent} {e : HistoryEvent} (hl : m.preparingLegacyQuery = false)
    (hp : m.lastHistoryFromServer.previousWftStartedId < e.eventId) (he : e.isWftStarted = true) (hmem : e ∈ c) :
    c.any (m.endsReplay true) = true := by
  obtain ⟨-, hcmd, htype⟩ := HistoryEvent.of_isWftStarted he
  refine List.any_eq_true.mpr ⟨e, hmem, ?_⟩
  simp [endsReplay, hl, hp, hcmd, htype]

/-- The last task is in the last sequence. -/
theorem final_of_any {l c rest : List HistoryEvent} {x : HistoryEvent} (hsplit : l = (c ++ [x]) ++ rest)
    (hseq : seqEnd l = some c.length ∨ seqEnd l = none)
    (hany : (c ++ [x]).any (·.isFinalWfExecutionEvent) = true) : x.isFinalWfExecutionEvent = true := by
  obtain ⟨e, he, hfin⟩ := List.any_eq_true.mp hany
  obtain ⟨j, hj, rfl⟩ := List.getElem_of_mem he
  have hjl : l[j]? = some (c ++ [x])[j] := by
    rw [hsplit, List.getElem?_append_left hj, List.getElem?_eq_getElem hj]
  obtain ⟨i, hi, hij⟩ := seqEnd_le_of_final hjl hfin
  rcases hseq with h | h
  · cases hi.symm.trans h
    have hjc : j = c.length := by simp at hj; omega
    subst hjc
    simpa using hfin
  · cases hi.symm.trans h

/-- **Applying a sequence sets the flag right.** -/
theorem Replays.apply (hlive : Live t) (hf : Feeds t p client b pieces last m)
    (hr : Replays t (pieces.flatten ++ last) m) :
    Post (fun _ m' => (∃ b pieces last, Feeds t p client b pieces last m' ∧ Replays t (pieces.flatten ++ last) m') ∧
        LiveAt t m') (fun _ _ => True) (exec (applyNextWftFromHistory B) m) := by
  refine hf.apply_spec.imp (fun n m' ho => ?_) (fun _ _ _ => trivial)
  cases ho with
  | idle hidle ha =>
    have hhist : m'.lastHistoryFromServer = m.lastHistoryFromServer := ha.history
    have hterm : m'.haveSeenTerminalEvent = m.haveSeenTerminalEvent := by simpa using ha.terminal
    have hlast : m'.lastProcessedEvent = m.lastProcessedEvent := by simpa using ha.lastProcessed
    have hrep : m'.replaying = false := by
      have := ha.replaying
      simpa [hf.legacy, hlive.legacy] using this
    refine ⟨⟨b, pieces, last, hf.idle ha, hr.started, fun hl ht => ?_, fun ht => ?_⟩, fun hN => ?_⟩
    · rw [hhist] at hl
      rw [hterm] at ht
      rcases hidle with h | h
      · cases ht.symm.trans h
      · cases hl.symm.trans h
    · rw [hlast]
      exact hr.terminal (hterm ▸ ht)
    · rw [hrep, hhist]
      rcases hidle with h | h
      · exact absurd (hlast ▸ hN) (hr.terminal h)
      · simp [h]
  | @took c rest hterm hne hsplit hseq ha =>
    obtain ⟨hlast, hf'⟩ := hf.took hne hsplit ha
    have hhist : m'.lastHistoryFromServer = { m.lastHistoryFromServer with events := rest } := ha.history
    have htaken := hf.holding.taken hsplit
    obtain ⟨c, x, rfl⟩ := c.eq_nil_or_concat'.resolve_left hne
    -- the last event of the sequence, which is the final task if everything was applied
    have hx : m'.lastProcessedEvent = t.started → x.isWftStarted = true := by
      intro hN
      refine hr.started x (by rw [htaken]; simp) ?_
      have hcontig := hf.contig_events
      rw [hsplit] at hcontig
      rw [(contig_append.mp hcontig).1.last, ← hN, hlast]
    have hrep : m'.replaying = (m.replaying &&
        !(c ++ [x]).any (m.endsReplay (rest.isEmpty && m.lastHistoryFromServer.hasLastWft))) := ha.replaying
    have hseq' : seqEnd m.lastHistoryFromServer.events = some c.length ∨
      seqEnd m.lastHistoryFromServer.events = none := by
      simpa using hseq.imp_right (fun h => h.2.1)
    have hmore : m'.lastHistoryFromServer.hasLastWft = false → m'.replaying = decide (0 < t.prev) := by
      intro hl
      rw [hhist] at hl
      rw [hl, Bool.and_false, any_endsReplay_false] at hrep
      rw [hrep]
      simpa using hr.more hl hterm
    refine ⟨⟨_, _, _, hf', fun e he => hr.started e (htaken ▸ List.mem_append_right _ he), fun hl _ => hmore hl,
      fun ht hN => ?_⟩, fun hN => ?_⟩
    · have hany := ha.terminal
      rw [ht, hterm] at hany
      have := final_of_any hsplit hseq' hany.symm
      rw [(HistoryEvent.of_isWftStarted (hx hN)).1] at this
      cases this
    · cases hl : m'.lastHistoryFromServer.hasLastWft with
      | false => simpa using hmore hl
      | true =>
        rw [hhist] at hl
        have hrest : rest = [] := by
          have hends := hf'.ends hlive.nonempty
          cases hf.holding with
          | more hl' _ _ => cases hl.symm.trans hl'
          | last _ =>
            simp only [afterTaking, List.flatten_nil, List.nil_append] at hends
            exact List.length_eq_zero_iff.mp (by omega)
        have hid : m.lastHistoryFromServer.previousWftStartedId < x.eventId := by
          have hcontig := hf.contig_events
          rw [hsplit] at hcontig
          rw [(contig_append.mp hcontig).1.last, hf.prev]
          have := hlive.prev_lt
          omega
        rw [hl, hrest, List.isEmpty_nil, Bool.and_self,
          any_endsReplay_true (hf.legacy.trans hlive.legacy) hid (hx hN) (List.mem_append_right _ List.mem_cons_self)]
          at hrep
        simpa using hrep

end

/-- The flag is right in the middle of a task. -/
def FeedsReplay (t : TaskHistory) (p : HistoryPaginator) (client : Client) (m : WorkflowMachines σ) : Prop :=
  (∃ b pieces last, Feeds t p client b pieces last m ∧ Replays t (pieces.flatten ++ last) m) ∧ LiveAt t m

theorem Replays.quiet {t : TaskHistory} {rest : List HistoryEvent} {m m' : WorkflowMachines σ} (h : Replays t rest m)
    (hq : Quiet m m') : Replays t rest m' := by
  refine ⟨h.started, ?_, ?_⟩
  · rw [hq.history, hq.terminal, hq.replaying]; exact h.more
  · rw [hq.terminal, hq.lastProcessed]; exact h.terminal

theorem feedsReplay_carried : Feeding.Carried B Quiet Live FeedsReplay (fun _ => True) (fun _ => True) where
  kept hlive _ _ :=
    { reacts := movesOn_quiet
      quiet := id
      keep := fun hq ⟨⟨b, pieces, last, hf, hr⟩, hN⟩ => by
        refine ⟨⟨b, pieces, last, hf.quiet hq, hr.quiet hq⟩, ?_⟩
        unfold LiveAt
        rw [hq.history, hq.lastProcessed, hq.replaying]
        exact hN
      keepC := fun _ _ => trivial
      drain := fun ⟨⟨b, pieces, last, hf, hr⟩, hN⟩ =>
        ⟨⟨b, pieces, last, hf.drain, hr.started, hr.more, hr.terminal⟩, hN⟩
      drainC := fun _ => trivial
      errors := fun _ => trivial
      apply := fun ⟨⟨_, _, _, hf, hr⟩, _⟩ _ =>
        (hr.apply hlive hf).imp (fun _ _ h => ⟨h, fun _ => trivial⟩) fun _ _ h => h }
  below := fun ⟨⟨_, _, _, hf, _⟩, _⟩ => hf.below
  ready _ _ := trivial
  page := by
    rintro t p client m u p' client' hlive ⟨⟨b, pieces, last, hf, hr⟩, -⟩ hready hext
    obtain ⟨hf', -⟩ := hf.page (hf.not_last_of_not_ready hready) hext
      (m.preparingLegacyQuery || u.previousWftStartedId > 0)
    have hrest : ∀ e ∈ pieces.tail.flatten ++ last, e ∈ pieces.flatten ++ last := by
      intro e he
      rcases List.mem_append.mp he with he | he
      · obtain ⟨piece, hpiece, he⟩ := List.mem_flatten.mp he
        exact List.mem_append_left _ (List.mem_flatten.mpr ⟨piece, List.mem_of_mem_tail hpiece, he⟩)
      · exact List.mem_append_right _ he
    have hr' : Replays t (pieces.tail.flatten ++ last) { m with
        lastHistoryFromServer := u, replaying := m.preparingLegacyQuery || u.previousWftStartedId > 0 } := by
      refine ⟨fun e he => hr.started e (hrest e he), fun _ _ => ?_, hr.terminal⟩
      have hprev : u.previousWftStartedId = t.prev := hf'.prev
      simp [hf.legacy, hlive.legacy, hprev]
    exact (hr'.apply hlive hf').bind fun _ _ h => ⟨h, fun _ => trivial⟩
  start := by
    rintro t m u p client hlive hcont hb hext
    have hf := Feeds.start (B := B) hcont hb hext
    refine (Replays.apply hlive hf ⟨?_, fun _ _ => ?_, fun _ => ?_⟩).bind fun _ _ h => ⟨h, fun _ => trivial⟩
    · rw [updates_flatten]
      exact hlive.started
    · have hprev : u.previousWftStartedId = t.prev := hf.prev
      simp [begun, hlive.legacy, hprev]
    · -- the history of the task has events that were not processed yet
      have hlen : 0 < t.history.length :=
        List.length_pos_of_ne_nil (List.append_ne_nil_of_left_ne_nil hlive.nonempty _)
      have := hcont.ends hlive.nonempty
      dsimp only [begun]
      omega

end WorkflowMachines

namespace Feeding

open WorkflowMachines

variable {σ : Type} {B : Behaviour σ}

/-- **The activations of the final task.** Once its started event was processed, an activation with a job other than a
query is marked as replaying exactly if a task was completed before, all events came before the last update, and this
was not fetched yet. -/
theorem live_activation_replaying {s s' : Feeding σ} {input : RunInput} {act : WorkflowActivation} {t : TaskHistory}
    (h : Reaches B Live s) (had : Admits Live s input) (hstep : s.step B input = some (.ok (some act), s'))
    (ht : s'.task = some t) (hN : act.historyLength = t.started) (hjob : ∃ j ∈ act.jobs, j.isQuery = false) :
    act.isReplaying = true ↔ 0 < t.prev ∧ (updates t.prev t.firstPage t.pages).2 = [] ∧
      s'.wfm.machines.lastHistoryFromServer.hasLastWft = false := by
  obtain ⟨-, hact⟩ := step_goes feedsReplay_carried (h.inv feedsReplay_carried) had hstep
  obtain ⟨t', m, ht', hlive', ⟨⟨b, pieces, last, hf, -⟩, hlive⟩, hm⟩ := hact act rfl
  cases ht.symm.trans ht'
  have hact : m.getWfActivation.1 = act := congrArg Prod.fst hm
  have hm' : m.getWfActivation.2 = s'.wfm.machines := congrArg Prod.snd hm
  subst hact
  have hrep : m.getWfActivation.1.isReplaying = m.replaying := by
    obtain ⟨j, hj, hq⟩ := hjob
    have hall : m.jobs.all (·.isQuery) = false := by
      rw [List.all_eq_false]
      exact ⟨j, hj, by simp [hq]⟩
    simp [WorkflowMachines.getWfActivation, hall]
  have hhist : s'.wfm.machines.lastHistoryFromServer = m.lastHistoryFromServer := by rw [← hm']; rfl
  rw [hrep, hlive hN, hhist, Bool.and_eq_true, decide_eq_true_eq, Bool.not_eq_true']
  constructor
  · rintro ⟨h1, h2⟩
    refine ⟨h1, ?_, h2⟩
    -- everything was processed, so nothing is left for the last update
    have hends := hf.ends hlive'.nonempty
    have hle := hf.le
    have hN : m.lastProcessedEvent = t.started := hN
    rw [List.length_append] at hends
    cases hf.holding with
    | last hl => cases h2.symm.trans hl
    | more _ _ hfin =>
      rw [← hfin]
      exact List.length_eq_zero_iff.mp (by omega)
  · rintro ⟨h1, -, h2⟩
    exact ⟨h1, h2⟩

theorem fourTasksTask_live (between : EventType) (n : Nat) : Live (fourTasksTask between n) where
  legacy := rfl
  nonempty := nofun
  prev_lt := by simp [fourTasksTask]
  started := by
    rw [fourTasksTask_history]
    simp [fourTasks, fourTasksTask, HistoryEvent.isWftStarted]

/-- All four sequences come before an empty last page, so the last activation is marked as replaying. -/
theorem live_activation_marked : ∃ (s : Feeding Unit) (input : RunInput) (s' : Feeding Unit) (act : WorkflowActivation),
    Reaches .signals Live s ∧ Admits Live s input ∧ s.step .signals input = some (.ok (some act), s') ∧
      s'.task = some (fourTasksTask .markerRecorded 15) ∧ act.historyLength = 18 ∧ act.jobs = [.other] ∧
      act.isReplaying = true := by
  obtain ⟨s, input, s', hr, had, hstep, ht⟩ := exists_step_of_mem_task_outputs (B := .signals)
    (fourTasksTask .markerRecorded 15) (fourTasksTask_live _ _) (fourTasksTask_continues _ _) ()
    [.completion [], .activation] (by decide)
    (by decide +kernel : .ok (some { isReplaying := true, historyLength := 18, jobs := [.other] }) ∈ _)
  exact ⟨s, input, s', _, hr, had, hstep, ht, rfl, rfl, rfl⟩

theorem live_activation_replaying_paged : ∃ (s : Feeding Unit) (input : RunInput) (s' : Feeding Unit)
    (act : WorkflowActivation), s.step .signals input = some (.ok (some act), s') ∧ act.historyLength = 18 ∧
      act.isReplaying = false := by
  obtain ⟨s, input, s', hr, had, hstep, ht⟩ := exists_step_of_mem_task_outputs (B := .signals)
    (fourTasksTask .workflowExecutionSignaled 12) (fourTasksTask_live _ _) (fourTasksTask_continues _ _) ()
    [.completion [], .activation, .completion [], .activation, .completion [], .activation] (by decide)
    (by decide +kernel : .ok (some { isReplaying := false, historyLength := 18, jobs := [.other] }) ∈ _)
  refine ⟨s, input, s', _, hstep, rfl, ?_⟩
  have hlast : (updates 3 (fourTasksTask .workflowExecutionSignaled 12).firstPage
      (fourTasksTask .workflowExecutionSignaled 12).pages).2 ≠ [] := by decide
  have hiff := live_activation_replaying hr had hstep ht rfl ⟨.other, by simp, rfl⟩
  exact Bool.eq_false_iff.mpr (fun hrep => hlast (hiff.mp hrep).2.1)

end Feeding

end SdkCore
