import SdkCore.Machines.Drive

/-!
# Fetching history ahead of time

A completion fetches the next update if the one at hand does not have the next sequence, but may apply several sequences
(`need_fetch_unreachable`). `Feeds` are machines in the middle of a task.
-/

namespace SdkCore

open Op Chunks HistoryPaginator

namespace WorkflowMachines

variable {σ : Type} {B : Behaviour σ}

/-! ## Machines in the middle of a task -/

/-- The update at hand, after event `b`, and those to come: it and others before the last one, and the last one. -/
inductive Holding (t : TaskHistory) (p : HistoryPaginator) (client : Client) (b : Int) (u : HistoryUpdate) :
    List (List HistoryEvent) → List HistoryEvent → Prop
  | last : u.hasLastWft = true → Holding t p client b u [] u.events
  | more {queue pages} : u.hasLastWft = false → Extracting t.prev t.started (b + u.events.length) queue pages p client →
      (updates t.prev queue pages).2 = (updates t.prev t.firstPage t.pages).2 →
      Holding t p client b u (u.events :: (updates t.prev queue pages).1) (updates t.prev queue pages).2

/-- Machines that have the events up to `b`, with `pieces` and `last` left. -/
structure Feeds (t : TaskHistory) (p : HistoryPaginator) (client : Client) (b : Int)
    (pieces : List (List HistoryEvent)) (last : List HistoryEvent) (m : WorkflowMachines σ) : Prop where
  below : Below m.lastProcessedEvent m
  le : m.lastProcessedEvent ≤ b
  contig : Contig b (pieces.flatten ++ last)
  ends : t.firstPage ≠ [] → b + (pieces.flatten ++ last).length = t.started
  prev : m.lastHistoryFromServer.previousWftStartedId = t.prev
  legacy : m.preparingLegacyQuery = t.legacy
  holding : Holding t p client b m.lastHistoryFromServer pieces last

section

variable {t : TaskHistory} {p : HistoryPaginator} {client : Client} {b : Int} {pieces : List (List HistoryEvent)}
  {last : List HistoryEvent} {m m' : WorkflowMachines σ}

section

variable (h : Feeds t p client b pieces last m)
include h

theorem Feeds.of_eq (hh : m'.lastHistoryFromServer = m.lastHistoryFromServer)
    (hl : m'.preparingLegacyQuery = m.preparingLegacyQuery) (hp : m'.lastProcessedEvent = m.lastProcessedEvent)
    (hb : Below m'.lastProcessedEvent m') : Feeds t p client b pieces last m' :=
  ⟨hb, hp ▸ h.le, h.contig, h.ends, hh ▸ h.prev, hl ▸ h.legacy, hh ▸ h.holding⟩

theorem Feeds.quiet (hq : Quiet m m') : Feeds t p client b pieces last m' :=
  h.of_eq hq.history hq.legacy hq.lastProcessed (hq.lastProcessed ▸ h.below.of_eq hq.current hq.tasks)

theorem Feeds.drain : Feeds t p client b pieces last m.getWfActivation.2 :=
  h.of_eq rfl rfl rfl { h.below with }

theorem Feeds.contig_events : Contig b m.lastHistoryFromServer.events := by
  have hc := h.contig
  cases h.holding with
  | last _ => simpa using hc
  | more _ _ _ =>
    rw [List.flatten_cons, List.append_assoc] at hc
    exact (contig_append.mp hc).1

theorem Feeds.current_le : m.currentStartedEventId ≤ b :=
  Int.le_trans h.below.current h.le

/-- The next sequence is applied, unless the update is exhausted. -/
theorem Feeds.apply_spec :
    Post (fun n m' => Outcome B m m' n) (fun err _ => err = .fatal .needFetch → Exhausted m)
      (exec (applyNextWftFromHistory B) m) :=
  applyNextWftFromHistory_spec h.current_le h.le h.contig_events

theorem Feeds.idle {r : Bool} (ha : Applied B true [] { m with replaying := r } m') :
    Feeds t p client b pieces last m' := by
  refine h.of_eq ha.history ha.legacy ?_ (ha.below { h.below with })
  simpa using ha.lastProcessed

/-- The updates that are left then. -/
def afterTaking (rest : List HistoryEvent) :
    List (List HistoryEvent) → List HistoryEvent → List (List HistoryEvent) × List HistoryEvent
  | [], _ => ([], rest)
  | _ :: pieces, last => (rest :: pieces, last)

variable {u : HistoryUpdate} {c rest : List HistoryEvent} {p' : HistoryPaginator} {client' : Client} {a : Int}

omit h in
theorem Holding.taken (h : Holding t p client b u pieces last) (hsplit : u.events = c ++ rest) :
    pieces.flatten ++ last = c ++ ((afterTaking rest pieces last).1.flatten ++ (afterTaking rest pieces last).2) := by
  cases h with
  | last _ => simpa [afterTaking] using hsplit
  | more _ _ _ => simp [afterTaking, hsplit]

theorem Feeds.took {fin : Bool} (hne : c ≠ []) (hsplit : m.lastHistoryFromServer.events = c ++ rest)
    (ha : Applied B fin c { m with lastHistoryFromServer := { m.lastHistoryFromServer with events := rest } } m') :
    m'.lastProcessedEvent = b + c.length ∧
      Feeds t p client (b + c.length) (afterTaking rest pieces last).1 (afterTaking rest pieces last).2 m' := by
  -- the events of the sequence follow both `b` and the last event that was processed
  have hb : m.lastProcessedEvent = b := by
    obtain ⟨e, c', rfl⟩ := List.exists_cons_of_ne_nil hne
    have h1 := ha.contig.1
    have h2 := h.contig_events
    rw [hsplit] at h2
    have h2 := h2.1
    dsimp only at h1
    omega
  have hlast : m'.lastProcessedEvent = b + c.length := by
    have := ha.lastProcessed
    dsimp only at this
    omega
  have hhist := ha.history
  have hcontig := h.contig
  have hends := h.ends
  rw [h.holding.taken hsplit] at hcontig hends
  refine ⟨hlast, ha.below { h.below with }, Int.le_of_eq hlast, (contig_append.mp hcontig).2, ?_, ?_,
    ha.legacy.trans h.legacy, ?_⟩
  · intro hne
    have hends := hends hne
    rw [List.length_append] at hends
    omega
  · rw [hhist]; exact h.prev
  · rw [hhist]
    cases h.holding with
    | last hl => exact .last hl
    | more hl hx hu =>
      refine .more hl ?_ hu
      rw [hsplit, List.length_append] at hx
      rw [show b + (c.length : Int) + (rest.length : Int) = b + ((c.length + rest.length : Nat) : Int) by omega]
      exact hx

omit h in
theorem Holding.of_extracted {queue : List HistoryEvent} {pages : List (List HistoryEvent)}
    (h : Extracted t.prev t.started a queue pages u p' client')
    (hfin : (updates t.prev queue pages).2 = (updates t.prev t.firstPage t.pages).2) :
    Holding t p' client' a u (updates t.prev queue pages).1 (updates t.prev queue pages).2 := by
  cases h with
  | last hl hupd => rw [hupd]; exact .last hl
  | more hl _ _ _ hupd hx =>
    rw [hupd] at hfin ⊢
    exact .more hl hx hfin

theorem Feeds.page (hl : m.lastHistoryFromServer.hasLastWft = false)
    (hext : extractNextUpdate client p = (.ok u, p', client')) (r : Bool) :
    Feeds t p' client' (b + m.lastHistoryFromServer.events.length) pieces.tail last
        { m with lastHistoryFromServer := u, replaying := r } ∧
      ∃ queue pages, pieces.tail = (updates t.prev queue pages).1 := by
  have hcontig := h.contig
  have hends := h.ends
  have hle := h.le
  cases h.holding with
  | last hl' => rw [hl] at hl'; cases hl'
  | @more queue pages _ hx hfin =>
    obtain ⟨u', p'', client'', hext', hprev, -, hE⟩ := extractNextUpdate_spec hx
    rw [hext] at hext'
    cases hext'
    rw [List.flatten_cons, List.append_assoc] at hcontig
    refine ⟨⟨{ h.below with }, by dsimp only; omega, (contig_append.mp hcontig).2, ?_, hprev, h.legacy,
      .of_extracted hE hfin⟩, queue, pages, rfl⟩
    intro hne
    have hends := hends hne
    rw [List.flatten_cons, List.append_assoc, List.length_append] at hends
    rw [List.tail_cons]
    omega

/-- The machines with a new task, before anything of it is applied. -/
def begun (B : Behaviour σ) (t : TaskHistory) (u : HistoryUpdate) (m : WorkflowMachines σ) : WorkflowMachines σ :=
  { m with
    inner := B.receiveMessages m.inner t.messages, preparingLegacyQuery := t.legacy, updateOnlyTask := false
    lastHistoryFromServer := u, replaying := t.legacy || u.previousWftStartedId > 0 }

omit h in
theorem Feeds.start (hcont : t.Continues m.lastProcessedEvent) (hb : Below m.lastProcessedEvent m)
    (hext : t.firstUpdate = (.ok u, p, client)) :
    Feeds t p client m.lastProcessedEvent (updates t.prev t.firstPage t.pages).1
      (updates t.prev t.firstPage t.pages).2 (begun B t u m) := by
  obtain ⟨hprev, hold⟩ : u.previousWftStartedId = t.prev ∧ Holding t p client m.lastProcessedEvent u
      (updates t.prev t.firstPage t.pages).1 (updates t.prev t.firstPage t.pages).2 := by
    unfold TaskHistory.firstUpdate at hext
    split at hext
    · next hempty =>
      have hpage : t.firstPage = [] := List.isEmpty_iff.mp hempty
      cases hext
      rw [hpage, hcont.pages hpage]
      exact ⟨rfl, .last rfl⟩
    · next hne =>
      obtain ⟨u', p', client', hext', hprev, -, hE⟩ := extractNextUpdate_spec (hcont.extracting (by simpa using hne))
      rw [hext] at hext'
      cases hext'
      exact ⟨hprev, .of_extracted hE rfl⟩
  have hflat : (updates t.prev t.firstPage t.pages).1.flatten ++ (updates t.prev t.firstPage t.pages).2 = t.history :=
    updates_flatten t.prev t.pages t.firstPage
  exact ⟨{ hb with }, Int.le_refl _, hflat ▸ hcont.contig, hflat ▸ hcont.ends, hprev, rfl, hold⟩

/-- Updates of the paginator have a sequence. -/
theorem Feeds.not_exhausted (hp : ∃ queue pages, pieces = (updates t.prev queue pages).1) : ¬ Exhausted m := by
  rintro ⟨hl, -, h1⟩
  obtain ⟨queue, pages, hp⟩ := hp
  cases h.holding with
  | last hl' => rw [hl] at hl'; cases hl'
  | more _ _ _ =>
    have := updates_two_le (hp ▸ List.mem_cons_self)
    omega

theorem Feeds.not_exhausted_of_ready (hr : m.readyToApplyNextWft = true) : ¬ Exhausted m := by
  rintro ⟨hl, hs, -⟩
  rw [WorkflowMachines.readyToApplyNextWft, canTake_contig h.contig_events h.current_le, hl, hs] at hr
  cases hr

theorem Feeds.not_last_of_not_ready (hr : m.readyToApplyNextWft = false) :
    m.lastHistoryFromServer.hasLastWft = false := by
  rw [WorkflowMachines.readyToApplyNextWft, canTake_contig h.contig_events h.current_le, Bool.or_eq_false_iff] at hr
  exact hr.2

end

end

/-! ## Updates that end in a job -/

/-- The last complete sequence has an event with a job, or an error. -/
def EndsInJob (B : Behaviour σ) (events : List HistoryEvent) : Prop :=
  ∀ c, (chunks seqEnd events).1.getLast? = some c → ∃ e ∈ c, B.Produces e

theorem EndsInJob.cases {c rest : List HistoryEvent} (h : EndsInJob B (c ++ rest)) (hne : c ≠ [])
    (hs : seqEnd (c ++ rest) = some (c.length - 1)) :
    EndsInJob B rest ∧ ((∃ e ∈ c, B.Produces e) ∨ seqEnd rest ≠ none) := by
  have hlen : c.length - 1 + 1 = c.length := Nat.sub_add_cancel (List.length_pos_iff.mpr hne)
  have hchunks := chunks_of_some seqEnd_lt hs
  rw [hlen, List.take_left, List.drop_left] at hchunks
  unfold EndsInJob at h ⊢
  rw [hchunks] at h
  cases hr : seqEnd rest with
  | none =>
    rw [chunks_of_none hr] at h ⊢
    exact ⟨by simp, Or.inl (h c rfl)⟩
  | some i =>
    refine ⟨fun d hd => h d ?_, Or.inr (by simp)⟩
    rw [List.getLast?_cons, hd]
    rfl

/-- **The condition**: every update before the last ends in a sequence with a job. -/
def JobsAtCuts (B : Behaviour σ) (t : TaskHistory) : Prop :=
  ∀ piece ∈ (updates t.prev t.firstPage t.pages).1, EndsInJob B piece

/-- The updates that are left end in jobs. -/
def FeedsJobs (B : Behaviour σ) (t : TaskHistory) (p : HistoryPaginator) (client : Client) (m : WorkflowMachines σ) :
    Prop :=
  ∃ b pieces last, Feeds t p client b pieces last m ∧ ∀ piece ∈ pieces, EndsInJob B piece

/-- A sequence is applied. -/
theorem FeedsJobs.apply {t : TaskHistory} {p : HistoryPaginator} {client : Client} {m : WorkflowMachines σ}
    (h : FeedsJobs B t p client m) (hx : ¬ Exhausted m) :
    Post (fun _ m' => Calm (FeedsJobs B t p client) (fun m => ¬ Exhausted m) m') (fun err _ => err.NotFetch)
      (exec (applyNextWftFromHistory B) m) := by
  obtain ⟨b, pieces, last, hf, hjobs⟩ := h
  refine hf.apply_spec.imp (fun n m' ho => ?_) (fun err _ he h' => hx (he h'))
  cases ho with
  | idle _ ha =>
    exact ⟨⟨b, pieces, last, hf.idle ha, hjobs⟩, fun _ hex => hx (hex.of_eq ha.history)⟩
  | @took c rest _ hne hsplit hseq ha =>
    obtain ⟨-, hf'⟩ := hf.took hne hsplit ha
    have hhist := ha.history
    cases hf.holding with
    | last hl =>
      refine ⟨⟨_, _, _, hf', nofun⟩, fun _ hex => ?_⟩
      have := hex.1
      rw [hhist] at this
      cases hl.symm.trans this
    | more hl _ _ =>
      have hend := hjobs _ List.mem_cons_self
      have hseq := hseq.resolve_right (fun h => by rw [hl] at h; cases h.1)
      rw [hsplit] at hend hseq
      obtain ⟨hrest, hc⟩ := hend.cases hne hseq
      refine ⟨⟨_, _, _, hf', ?_⟩, fun hj hex => ?_⟩
      · intro piece hpiece
        rcases List.mem_cons.mp hpiece with rfl | hpiece
        · exact hrest
        · exact hjobs piece (List.mem_cons_of_mem _ hpiece)
      · rcases hc with hprod | hnext
        · exact ha.produced hprod hj
        · have := hex.2.1
          rw [hhist] at this
          exact hnext this

theorem feedsJobs_carried : Feeding.Carried B Quiet (JobsAtCuts B) (FeedsJobs B) (fun m => ¬ Exhausted m)
    WFMachinesError.NotFetch where
  kept _ _ _ :=
    { reacts := movesOn_quiet
      quiet := id
      keep := fun hq ⟨b, pieces, last, hf, hjobs⟩ => ⟨b, pieces, last, hf.quiet hq, hjobs⟩
      keepC := fun hq hC hex => hC (hex.of_eq hq.history)
      drain := fun ⟨b, pieces, last, hf, hjobs⟩ => ⟨b, pieces, last, hf.drain, hjobs⟩
      drainC := fun hC => hC
      errors := id
      apply := fun h hC => h.apply hC }
  below := fun ⟨_, _, _, hf, _⟩ => hf.below
  ready := fun ⟨_, _, _, hf, _⟩ hr => hf.not_exhausted_of_ready hr
  page := by
    rintro t p client m u p' client' _ ⟨b, pieces, last, hf, hjobs⟩ hr hext
    obtain ⟨hf', hp⟩ := hf.page (hf.not_last_of_not_ready hr) hext (m.preparingLegacyQuery ||
      u.previousWftStartedId > 0)
    have h : FeedsJobs B t p' client' _ := ⟨_, _, _, hf', fun piece hpiece => hjobs piece (List.mem_of_mem_tail hpiece)⟩
    exact (h.apply (hf'.not_exhausted hp)).bind fun _ _ h' => h'
  start := by
    rintro t m u p client hP hcont hb hext
    have hf := Feeds.start (B := B) hcont hb hext
    have h : FeedsJobs B t p client _ := ⟨_, _, _, hf, hP⟩
    exact (h.apply (hf.not_exhausted ⟨_, _, rfl⟩)).bind fun _ _ h' => h'

end WorkflowMachines

/-! ## Runs -/

namespace Feeding

open WorkflowMachines

variable {σ : Type} {B : Behaviour σ}

/-- **History is never missing**, if every update before the last one of a task ends in a job. -/
theorem need_fetch_unreachable {s s' : Feeding σ} {input : RunInput}
    {r : Except WFMachinesError (Option WorkflowActivation)} (h : Reaches B (JobsAtCuts B) s)
    (had : Admits (JobsAtCuts B) s input) (hstep : s.step B input = some (r, s')) : r ≠ .error (.fatal .needFetch) := by
  rintro rfl
  exact step_goes feedsJobs_carried (h.inv feedsJobs_carried) had hstep rfl

/-- A timer and an event of the type `between` before the second and third task. -/
def fourTasks (between : EventType) : List HistoryEvent :=
  [⟨1, .workflowExecutionStarted, some .other⟩, ⟨2, .workflowTaskScheduled, some .other⟩,
    ⟨3, .workflowTaskStarted, some (.workflowTaskStarted 2)⟩,
      ⟨4, .workflowTaskCompleted, some (.workflowTaskCompleted 2)⟩,
    ⟨5, .timerStarted, some .other⟩, ⟨6, between, some .other⟩, ⟨7, .workflowTaskScheduled, some .other⟩,
    ⟨8, .workflowTaskStarted, some (.workflowTaskStarted 7)⟩,
      ⟨9, .workflowTaskCompleted, some (.workflowTaskCompleted 7)⟩,
    ⟨10, .timerStarted, some .other⟩, ⟨11, between, some .other⟩, ⟨12, .workflowTaskScheduled, some .other⟩,
    ⟨13, .workflowTaskStarted, some (.workflowTaskStarted 12)⟩,
    ⟨14, .workflowTaskCompleted, some (.workflowTaskCompleted 12)⟩, ⟨15, .timerStarted, some .other⟩,
    ⟨16, .workflowExecutionSignaled, some .other⟩, ⟨17, .workflowTaskScheduled, some .other⟩,
    ⟨18, .workflowTaskStarted, some (.workflowTaskStarted 17)⟩]

/-- In three pages: the first sequence, the next `n` events, and the rest. -/
def fourTasksTask (between : EventType) (n : Nat) : TaskHistory :=
  { prev := 3, started := 18, firstPage := (fourTasks between).take 3, token := [1],
    client := [.ok ⟨some (((fourTasks between).drop 3).take n), [1]⟩,
      .ok ⟨some (((fourTasks between).drop 3).drop n), []⟩],
    pages := [((fourTasks between).drop 3).take n, ((fourTasks between).drop 3).drop n] }

theorem fourTasksTask_history (between : EventType) (n : Nat) :
    (fourTasksTask between n).history = fourTasks between := by
  simp only [TaskHistory.history, fourTasksTask, List.flatten_cons, List.flatten_nil, List.append_nil,
    List.take_append_drop]

theorem fourTasksTask_continues (between : EventType) (n : Nat) : (fourTasksTask between n).Continues 0 where
  nonneg := Int.le_refl _
  contig := by rw [fourTasksTask_history]; simp [fourTasks, Contig]
  ends _ := by rw [fourTasksTask_history]; rfl
  serves := .page (some _) nofun (.page (some _) nofun (.done _))
  pages := nofun

/-- The second and third task record markers, which make no job. Replay goes through them, and needs more history. -/
theorem need_fetch_reached : ∃ (s : Feeding Unit) (input : RunInput) (s' : Feeding Unit),
    Reaches .signals (fun _ => True) s ∧ Admits (fun _ => True) s input ∧
      s.step .signals input = some (.error (.fatal .needFetch), s') := by
  obtain ⟨s, input, s', hr, had, hstep, -⟩ := exists_step_of_mem_task_outputs (B := .signals)
    (P := fun _ => True) (fourTasksTask .markerRecorded 12) trivial (fourTasksTask_continues _ _) ()
    [.completion []] (by decide)
    (by decide +kernel : .error (.fatal .needFetch) ∈ _)
  exact ⟨s, input, s', hr, had, hstep⟩

theorem signals_produces {e : HistoryEvent} (h : e.eventType = .workflowExecutionSignaled) :
    Behaviour.signals.Produces e :=
  ⟨by simp [HistoryEvent.isWftEvent, h], fun _ _ _ _ => Or.inl (by simp [Behaviour.signals, h])⟩

theorem fourTasksTask_jobsAtCuts : JobsAtCuts .signals (fourTasksTask .workflowExecutionSignaled 12) := by
  have hsignal : ∀ piece ∈ (updates 3 (fourTasksTask .workflowExecutionSignaled 12).firstPage
      (fourTasksTask .workflowExecutionSignaled 12).pages).1, ∀ c, (chunks seqEnd piece).1.getLast? = some c →
      ∃ e ∈ c, e.eventType = .workflowExecutionSignaled := by
    decide +kernel
  intro piece hpiece c hc
  obtain ⟨e, he, htype⟩ := hsignal piece hpiece c hc
  exact ⟨e, he, signals_produces htype⟩

theorem need_fetch_unreachable_signalled : ∃ (s : Feeding Unit) (input : RunInput) (s' : Feeding Unit),
    Reaches .signals (JobsAtCuts .signals) s ∧ s.step .signals input = some (.ok none, s') ∧
      (.ok none : Except WFMachinesError (Option WorkflowActivation)) ≠ .error (.fatal .needFetch) := by
  obtain ⟨s, input, s', hr, had, hstep, -⟩ := exists_step_of_mem_task_outputs (B := .signals)
    (fourTasksTask .workflowExecutionSignaled 12) fourTasksTask_jobsAtCuts (fourTasksTask_continues _ _) ()
    [.completion []] (by decide) (by decide +kernel : .ok none ∈ _)
  exact ⟨s, input, s', hr, hstep, need_fetch_unreachable hr had hstep⟩

end Feeding

end SdkCore
