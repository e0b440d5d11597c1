import SdkCore.Machines.Fetching
import SdkCore.History.Boundaries

/-!
# Looking ahead

After a sequence was applied, the machines look at what the update at hand has of the next one, which may be nothing.
`Behaviour.scanning` records what they were shown (`next_sequence_scanned`).
-/

namespace SdkCore

open Op Chunks HistoryPaginator

/-! ## Machines that record what they were shown -/

section

variable {σ : Type}

/-- A reaction, with a record beside the state. -/
def Reaction.recorded (r : Reaction σ) (shown : List (List HistoryEvent)) :
    Reaction (σ × List (List HistoryEvent)) where
  inner := (r.inner, shown)
  jobs := r.jobs
  commands := r.commands
  taken := r.taken
  error := r.error

/-- The same machines, with a record of what they were shown. -/
def Behaviour.scanning (B : Behaviour σ) : Behaviour (σ × List (List HistoryEvent)) where
  receiveMessages s messages := (B.receiveMessages s.1 messages, s.2)
  wftApplied s events := (B.wftApplied s.1 events, s.2)
  processMessages s e replaying := (B.processMessages s.1 e replaying).recorded s.2
  handleEvent s e replaying lastTask next := (B.handleEvent s.1 e replaying lastTask next).recorded s.2
  peekEvents s events := ((B.peekEvents s.1 events).1.recorded (s.2 ++ [events]), (B.peekEvents s.1 events).2)
  handleProtocolMessage s n := (B.handleProtocolMessage s.1 n).recorded s.2
  willAcceptResolveMarker s seq := B.willAcceptResolveMarker s.1 seq
  hasLocalActivity s seq := B.hasLocalActivity s.1 seq
  tryResolveWithDat s seq := (B.tryResolveWithDat s.1 seq).recorded s.2
  localResolution s res := (B.localResolution s.1 res).recorded s.2
  encounteredNonReplayWft s := (B.encounteredNonReplayWft s.1).recorded s.2
  handleDrivenResult s c := (B.handleDrivenResult s.1 c).recorded s.2
  addTerminalCommand s c := (B.addTerminalCommand s.1 c, s.2)
  handleCommand s n := (((B.handleCommand s.1 n).1, s.2), (B.handleCommand s.1 n).2)
  resetLastStartedId s id := (B.resetLastStartedId s.1 id, s.2)
  takeAllReqs s := ((B.takeAllReqs s.1).1, (B.takeAllReqs s.1).2, s.2)
  outstandingLaCount s := B.outstandingLaCount s.1
  hasCommands s := B.hasCommands s.1
  hasMessages s := B.hasMessages s.1
  hasTaskTimeout s := B.hasTaskTimeout s.1
  useMoveTerminalCommands s := B.useMoveTerminalCommands s.1

def KeepsRecord (s s' : σ × List (List HistoryEvent)) : Prop := s.2 ⊆ s'.2

instance : Std.Refl (KeepsRecord (σ := σ)) := ⟨fun _ => List.Subset.refl _⟩

instance : IsTrans (σ × List (List HistoryEvent)) KeepsRecord := ⟨fun _ _ _ => List.Subset.trans⟩

theorem Behaviour.scanning_respects (B : Behaviour σ) : B.scanning.Respects KeepsRecord where
  answers hf s := by
    cases hf with
    | peekEvents events => exact List.subset_append_left _ _
    | _ => exact List.Subset.refl _
  receiveMessages _ _ := List.Subset.refl _
  wftApplied _ _ := List.Subset.refl _
  addTerminalCommand _ _ := List.Subset.refl _
  handleCommand _ _ := List.Subset.refl _
  takeAllReqs _ := List.Subset.refl _

end

namespace WorkflowMachines

variable {σ : Type} {B : Behaviour σ}

/-! ## The inner state while history is applied -/

def InnerBy (r : σ → σ → Prop) (m m' : WorkflowMachines σ) : Prop := r m.inner m'.inner

instance {r : σ → σ → Prop} [Std.Refl r] : Std.Refl (InnerBy r) := ⟨fun m => refl m.inner⟩

instance {r : σ → σ → Prop} [IsTrans σ r] : IsTrans (WorkflowMachines σ) (InnerBy r) :=
  ⟨fun _ _ _ h h' => IsTrans.trans (r := r) _ _ _ h h'⟩

theorem movesFreely_innerBy {r : σ → σ → Prop} [Std.Refl r] (hr : B.Respects r) : MovesFreely B (InnerBy r) :=
  ⟨fun hf m => hr.answers hf m.inner, fun hs _ => hr.updates hs, fun m _ _ _ => refl (r := r) m.inner⟩

/-- What is looked at is recorded. -/
theorem lookAhead_scans (lastHandled : Int) (m : WorkflowMachines (σ × List (List HistoryEvent))) :
    Post (fun _ m' => m'.lastHistoryFromServer.peekNextWftSequence lastHandled ∈ m'.inner.2) (fun _ _ => True)
      (exec (lookAhead B.scanning lastHandled) m) := by
  unfold lookAhead
  rw [exec_get_bind, exec_bind, exec_react]
  cases herr : (B.scanning.peekEvents m.inner (m.lastHistoryFromServer.peekNextWftSequence lastHandled)).1.error with
  | some err => trivial
  | none =>
    refine ((afterPeek_by (movesOn_quietBy B.scanning_respects) _).post _).imp ?_ (fun _ _ _ => trivial)
    rintro _ m' ⟨hq, hrec⟩
    rw [hq.history]
    exact hrec (List.mem_append_right _ List.mem_cons_self)

theorem applyTaken_scans (events : List HistoryEvent) (hasFinalEvent : Bool) (lastHandled : Int)
    (m : WorkflowMachines (σ × List (List HistoryEvent))) :
    Post (fun _ m' => m'.lastHistoryFromServer.peekNextWftSequence lastHandled ∈ m'.inner.2) (fun _ _ => True)
      (exec (applyTaken B.scanning events hasFinalEvent lastHandled) m) := by
  unfold applyTaken
  rw [exec_modify_bind]
  refine ((applyEvents_spec hasFinalEvent events _).imp (fun _ _ h => h) (fun _ _ _ => trivial)).bind fun _ m₁ _ => ?_
  exact (lookAhead_scans lastHandled m₁).bind fun _ _ h => h

theorem applyNextWftFromHistory_scans {m : WorkflowMachines (σ × List (List HistoryEvent))}
    (hterm : m.haveSeenTerminalEvent = false) :
    Post (fun _ m' => m'.lastHistoryFromServer.peekNextWftSequence m.currentStartedEventId ∈ m'.inner.2)
      (fun _ _ => True) (exec (applyNextWftFromHistory B.scanning) m) := by
  unfold applyNextWftFromHistory
  rw [exec_get_bind, if_neg (by simp [hterm])]
  simp only [exec_bind, exec_modify, andThen_ok]
  unfold applyWft
  split
  · exact applyTaken_scans _ _ _ _
  · exact applyTaken_scans _ _ _ _
  · trivial
  · trivial

/-! ## Tasks that come in one update -/

/-- **The condition**: the first update has all events of the task. -/
def InOneUpdate (t : TaskHistory) : Prop :=
  ((updates t.prev t.firstPage t.pages).1 ++ [(updates t.prev t.firstPage t.pages).2]).head? = some t.history

instance (t : TaskHistory) : Decidable (InOneUpdate t) := inferInstanceAs (Decidable (_ = _))

/-- The rest of the history is, or was, at hand, and its first sequence was shown. -/
structure Ahead (t : TaskHistory) (p : HistoryPaginator) (client : Client)
    (m : WorkflowMachines (σ × List (List HistoryEvent))) : Prop where
  feeds : ∃ b pieces last, Feeds t p client b pieces last m ∧ pieces.flatten ++ last = m.lastHistoryFromServer.events
  rest : ∃ done rest, t.history = done ++ rest ∧ Contig (m.lastProcessedEvent - done.length) t.history ∧
    (m.lastHistoryFromServer.events = rest ∨ m.lastHistoryFromServer.events = []) ∧
    (done ≠ [] → ∀ c cs, whole seqEnd rest = c :: cs → c ∈ m.inner.2)

theorem peek_of_whole {u : HistoryUpdate} {a cur : Int} (hc : Contig a u.events) (hcur : cur ≤ a)
    {c : List HistoryEvent} {cs : List (List HistoryEvent)} (h : whole seqEnd u.events = c :: cs) :
    u.peekNextWftSequence cur = c := by
  have hne : u.events ≠ [] := by
    intro h0
    rw [h0] at h
    cases h
  have hskip : (u.startingIndexAfterSkipping cur).getD 0 = 0 := by
    obtain ⟨e, l, hl⟩ := List.exists_cons_of_ne_nil hne
    have := hc.lt e (by simp [hl])
    rw [HistoryUpdate.startingIndexAfterSkipping, hl, List.findIdx?_cons,
      if_pos (by simpa using Int.lt_of_le_of_lt hcur this)]
    rfl
  unfold HistoryUpdate.peekNextWftSequence
  simp only [hskip, List.drop_zero, List.isEmpty_iff, hne, if_false, findEnd_contig hc hcur]
  cases hs : seqEnd u.events with
  | some i =>
    rw [whole_of_some seqEnd_lt hs] at h
    rw [seqEndIndex_of_some hs, Nat.zero_add]
    exact (List.cons.inj h).1
  | none =>
    rw [whole_of_none hs] at h
    split at h
    · cases h
    · rw [seqEndIndex_of_none hs, NextWFTSeqEndIndex.index, ← (List.cons.inj h).1]
      exact List.take_of_length_le (by omega)

section

variable {t : TaskHistory} {p : HistoryPaginator} {client : Client}
  {m m' : WorkflowMachines (σ × List (List HistoryEvent))}

theorem Ahead.quietBy (h : Ahead t p client m) (hq : QuietBy KeepsRecord m m') : Ahead t p client m' := by
  obtain ⟨hq, hrec⟩ := hq
  obtain ⟨b, pieces, last, hf, hall⟩ := h.feeds
  obtain ⟨done, rest, hsplit, hcontig, hat, hshown⟩ := h.rest
  refine ⟨⟨b, pieces, last, hf.quiet hq, by rw [hq.history]; exact hall⟩, done, rest, hsplit, ?_, ?_, ?_⟩
  · rw [hq.lastProcessed]; exact hcontig
  · rw [hq.history]; exact hat
  · exact fun hne c cs hw => hrec (hshown hne c cs hw)

theorem Ahead.drain (h : Ahead t p client m) : Ahead t p client m.getWfActivation.2 := by
  obtain ⟨b, pieces, last, hf, hall⟩ := h.feeds
  exact ⟨⟨b, pieces, last, hf.drain, hall⟩, h.rest⟩

theorem Ahead.idle (h : Ahead t p client m) {r : Bool} (ha : Applied B.scanning true [] { m with replaying := r } m')
    (hrec : InnerBy KeepsRecord m m') : Ahead t p client m' := by
  obtain ⟨b, pieces, last, hf, hall⟩ := h.feeds
  obtain ⟨done, rest, hsplit, hcontig, hat, hshown⟩ := h.rest
  have hhist : m'.lastHistoryFromServer = m.lastHistoryFromServer := ha.history
  have hlast : m'.lastProcessedEvent = m.lastProcessedEvent := by simpa using ha.lastProcessed
  refine ⟨⟨b, pieces, last, hf.idle ha, by rw [hhist]; exact hall⟩, done, rest, hsplit, ?_, ?_, ?_⟩
  · rw [hlast]; exact hcontig
  · rw [hhist]; exact hat
  · exact fun hne c cs hw => hrec (hshown hne c cs hw)

/-- **Applying a sequence shows the next one.** -/
theorem Ahead.apply (h : Ahead t p client m) :
    Post (fun _ m' => Calm (Ahead t p client) (fun _ => True) m') (fun _ _ => True)
      (exec (applyNextWftFromHistory B.scanning) m) := by
  obtain ⟨b, pieces, last, hf, hall⟩ := h.feeds
  have hscan : Post (fun _ m' => m.haveSeenTerminalEvent = false →
      m'.lastHistoryFromServer.peekNextWftSequence m.currentStartedEventId ∈ m'.inner.2) (fun _ _ => True)
      (exec (applyNextWftFromHistory B.scanning) m) := by
    by_cases hterm : m.haveSeenTerminalEvent = false
    · exact (applyNextWftFromHistory_scans hterm).imp (fun _ _ h _ => h) (fun _ _ h => h)
    · generalize exec (applyNextWftFromHistory B.scanning) m = r
      match r with
      | (.ok _, _) => exact fun h => absurd h hterm
      | (.error _, _) => trivial
  refine ((hf.apply_spec.and hscan).and ((applyNextWftFromHistory_moves
    (movesFreely_innerBy B.scanning_respects)).post m)).imp ?_
    (fun _ _ _ => trivial)
  rintro n m' ⟨⟨ho, hscan⟩, hrec⟩
  refine ⟨?_, fun _ => trivial⟩
  cases ho with
  | idle _ ha => exact h.idle ha hrec
  | @took c rest' hterm hne hsplit' _ ha =>
    obtain ⟨hlast, hf'⟩ := hf.took hne hsplit' ha
    have hhist : m'.lastHistoryFromServer = { m.lastHistoryFromServer with events := rest' } := ha.history
    have hproc : m'.lastProcessedEvent = m.lastProcessedEvent + c.length := ha.lastProcessed
    obtain ⟨done, rest, hsplit, hcontig, hat, -⟩ := h.rest
    have hrest : rest = c ++ rest' := by
      rcases hat with hat | hat
      · rw [← hat, hsplit']
      · rw [hsplit'] at hat
        exact absurd (List.append_eq_nil_iff.mp hat).1 hne
    have htaken := hf.holding.taken hsplit'
    refine ⟨⟨_, _, _, hf', ?_⟩, done ++ c, rest', ?_, ?_, Or.inl (by rw [hhist]), fun _ d cs hw => ?_⟩
    · rw [hall, hsplit'] at htaken
      rw [hhist]
      exact (List.append_cancel_left htaken).symm
    · rw [hsplit, hrest, List.append_assoc]
    · rw [hproc, List.length_append]
      rwa [show m.lastProcessedEvent + (c.length : Int) - ((done.length + c.length : Nat) : Int) =
        m.lastProcessedEvent - done.length by omega]
    · have hc := hf'.contig_events
      have hcur := hf.current_le
      have hshown := hscan hterm
      rwa [peek_of_whole hc (by omega) (by rw [hhist]; exact hw)] at hshown

theorem Ahead.page {u : HistoryUpdate} {p' : HistoryPaginator} {client' : Client} (h : Ahead t p client m)
    (hready : m.readyToApplyNextWft = false) (hext : extractNextUpdate client p = (.ok u, p', client')) (r : Bool) :
    Ahead t p' client' { m with lastHistoryFromServer := u, replaying := r } := by
  obtain ⟨b, pieces, last, hf, hall⟩ := h.feeds
  obtain ⟨done, rest, hsplit, hcontig, -, hshown⟩ := h.rest
  have hl := hf.not_last_of_not_ready hready
  obtain ⟨hf', -⟩ := hf.page hl hext r
  have hnone : pieces.tail.flatten ++ last = [] := by
    cases hf.holding with
    | last hl' => cases hl.symm.trans hl'
    | more _ _ _ =>
      rw [List.flatten_cons, List.append_assoc] at hall
      exact List.append_right_eq_self.mp hall
  have hu : u.events = [] := by
    have htaken := hf'.holding.taken (List.append_nil u.events).symm
    rw [hnone] at htaken
    exact (List.append_eq_nil_iff.mp htaken.symm).1
  exact ⟨⟨_, _, _, hf', hnone.trans hu.symm⟩, done, rest, hsplit, hcontig, Or.inr hu, hshown⟩

theorem Ahead.start {u : HistoryUpdate} (hone : InOneUpdate t) (hcont : t.Continues m.lastProcessedEvent)
    (hb : Below m.lastProcessedEvent m) (hext : t.firstUpdate = (.ok u, p, client)) :
    Ahead t p client (begun B.scanning t u m) := by
  have hf := Feeds.start (B := B.scanning) hcont hb hext
  have hflat := updates_flatten t.prev t.pages t.firstPage
  have hall : u.events = t.history := by
    have hhold := hf.holding
    unfold InOneUpdate at hone
    generalize (updates t.prev t.firstPage t.pages).1 = pieces,
      (updates t.prev t.firstPage t.pages).2 = last at hhold hone
    cases hhold with
    | last | more => exact Option.some.inj hone
  refine ⟨⟨_, _, _, hf, hflat.trans hall.symm⟩, [], t.history, rfl, ?_, Or.inl hall, fun h => absurd rfl h⟩
  simpa [begun] using hcont.contig

end

theorem ahead_carried : Feeding.Carried B.scanning (QuietBy KeepsRecord) InOneUpdate (Ahead (σ := σ)) (fun _ => True)
    (fun _ => True) where
  kept _ _ _ :=
    { reacts := movesOn_quietBy B.scanning_respects
      quiet := And.left
      keep := fun hq h => h.quietBy hq
      keepC := fun _ _ => trivial
      drain := Ahead.drain
      drainC := fun _ => trivial
      errors := fun _ => trivial
      apply := fun h _ => h.apply }
  below h := by
    obtain ⟨_, _, _, hf, -⟩ := h.feeds
    exact hf.below
  ready _ _ := trivial
  page _ h hready hext := (h.page hready hext _).apply.bind fun _ _ h' => h'
  start hone hcont hb hext := (Ahead.start hone hcont hb hext).apply.bind fun _ _ h' => h'

end WorkflowMachines

/-! ## Runs -/

namespace Feeding

open WorkflowMachines

variable {σ : Type} {B : Behaviour σ} {P : TaskHistory → Prop} {t : TaskHistory}

/-- **The next sequence was shown**, in every run whose tasks come in one update. -/
theorem next_sequence_scanned {s : Feeding (σ × List (List HistoryEvent))} {t : TaskHistory}
    (h : Reaches B.scanning InOneUpdate s) (ht : s.task = some t) {pre post : List (List HistoryEvent)}
    {d c : List HistoryEvent} (hseqs : whole seqEnd t.history = pre ++ d :: c :: post)
    (hd : d.getLast?.map (·.eventId) = some s.wfm.machines.lastProcessedEvent) : c ∈ s.wfm.machines.inner.2 := by
  obtain ⟨done, rest, hsplit, hcontig, -, hshown⟩ := ((h.inv ahead_carried).held t ht).2.rest
  obtain ⟨e, he, hlast⟩ := Option.map_eq_some_iff.mp hd
  obtain ⟨d', hd'⟩ := List.getLast?_eq_some_iff.mp he
  -- the sequences up to `d` are the events that were processed
  have hseqs' : whole seqEnd t.history = (pre ++ [d]) ++ c :: post := by simpa using hseqs
  obtain ⟨trailing, hall, -⟩ := whole_concat
  have hlen : (pre ++ [d]).flatten.length = done.length := by
    rw [hseqs', List.flatten_append, List.append_assoc] at hall
    have hc := hcontig
    rw [← hall] at hc
    have hends := (contig_append.mp hc).1
    rw [List.flatten_append, List.flatten_singleton, hd', ← List.append_assoc] at hends
    have hid := hends.last
    rw [List.append_assoc, ← hd'] at hid
    simp only [List.flatten_append, List.flatten_singleton]
    omega
  have hrest := whole_drop seqEnd_lt hseqs'
  rw [hlen, hsplit, List.drop_left] at hrest
  refine hshown ?_ c post hrest
  rintro rfl
  simp [hd'] at hlen

/-! ## A marker after the end of an update -/

def after (B : Behaviour σ) : Feeding σ → List RunInput → Option (Feeding σ)
  | s, [] => some s
  | s, input :: inputs =>
    match s.step B input with
    | some (.ok _, s') => after B s' inputs
    | _ => none

theorem Reaches.after : ∀ {inputs : List RunInput} {s s' : Feeding σ}, Reaches B P s →
    s.task ≠ none → (∀ i ∈ inputs, i.changesTask = false) → s.after B inputs = some s' → Reaches B P s' ∧
      s'.task = s.task
  | [], _, _, h, _, _, hs => by
    cases hs
    exact ⟨h, rfl⟩
  | input :: inputs, s, s', h, ht, hi, hs => by
    have hin := hi input List.mem_cons_self
    unfold Feeding.after at hs
    split at hs
    · rename_i out s₁ hstep
      have htask : s₁.task = s.task := task_of_step hin hstep
      obtain ⟨hr, hs'⟩ := Reaches.after (.step h (admits_of_task hin ht) hstep) (htask ▸ ht)
        (fun i h => hi i (List.mem_cons_of_mem _ h)) hs
      exact ⟨hr, hs'.trans htask⟩
    · cases hs

theorem reaches_after_task (hP : P t) (hc : t.Continues 0) {inner : σ} {inputs : List RunInput}
    (hi : ∀ i ∈ inputs, i.changesTask = false) {s : Feeding σ}
    (hs : (fresh inner).after B (.task t :: inputs) = some s) :
    Reaches B P s ∧ s.task = some t := by
  unfold Feeding.after at hs
  split at hs
  · rename_i out s₁ hstep
    have htask : s₁.task = some t := by
      have h := hstep
      unfold Feeding.step at h
      simp only at h
      split at h
      · exact congrArg Feeding.task (Prod.mk.inj (Option.some.inj h)).2.symm
      · cases h
    have had : Admits P (fresh inner) (.task t) := ⟨hP, hc⟩
    obtain ⟨hr, ht⟩ := Reaches.after (.step (.start inner) had hstep) (by simp [htask]) hi hs
    exact ⟨hr, ht.trans htask⟩
  · cases hs

/-- A signal before each of four tasks. The third records a marker. -/
def markedTasks : List HistoryEvent :=
  (fourTasks .workflowExecutionSignaled).set 14 ⟨15, .markerRecorded, some .other⟩

/-- In three pages. The first two have three sequences and the beginning of the last. -/
def markedTask : TaskHistory :=
  { prev := 3, started := 18, firstPage := markedTasks.take 3, token := [1],
    client := [.ok ⟨some ((markedTasks.drop 3).take 12), [1]⟩, .ok ⟨some (markedTasks.drop 15), []⟩],
    pages := [(markedTasks.drop 3).take 12, markedTasks.drop 15] }

def markedTaskAtOnce : TaskHistory :=
  { prev := 3, started := 18, firstPage := markedTasks, token := [], client := [], pages := [] }

theorem markedTask_continues : markedTask.Continues 0 where
  nonneg := Int.le_refl _
  contig := by decide
  ends _ := by decide
  serves := .page (some _) nofun (.page (some _) nofun (.done _))
  pages := nofun

theorem markedTaskAtOnce_continues : markedTaskAtOnce.Continues 0 where
  nonneg := Int.le_refl _
  contig := by decide
  ends _ := by decide
  serves := .done _
  pages := nofun

theorem markedTasks_sequences : whole seqEnd markedTasks =
    [markedTasks.take 3, (markedTasks.drop 3).take 5] ++ (markedTasks.drop 8).take 5 :: markedTasks.drop 13 :: [] := by
  decide +kernel

/-- Lang gets an activation for the third sequence, and the fourth was not shown. -/
theorem next_sequence_not_scanned : ∃ (s s' : Feeding (Unit × List (List HistoryEvent))) (act : WorkflowActivation)
    (pre post : List (List HistoryEvent)) (d c : List HistoryEvent),
    Reaches Behaviour.signals.scanning (fun _ => True) s ∧ Admits (fun _ => True) s .activation ∧
      s.step Behaviour.signals.scanning .activation = some (.ok (some act), s') ∧ s'.task = some markedTask ∧
      act.isReplaying = true ∧ whole seqEnd markedTask.history = pre ++ d :: c :: post ∧
      d.getLast?.map (·.eventId) = some s'.wfm.machines.lastProcessedEvent ∧
      c.any (·.eventType = .markerRecorded) = true ∧ c ∉ s'.wfm.machines.inner.2 := by
  have hrun : ((fresh ((), [])).after Behaviour.signals.scanning
      [.task markedTask, .completion [], .activation, .completion []]).any (fun s =>
        (s.step Behaviour.signals.scanning .activation).any fun r =>
          r.1 = .ok (some { isReplaying := true, historyLength := 13, jobs := [.other] }) &&
            r.2.wfm.machines.lastProcessedEvent = 13 && !r.2.wfm.machines.inner.2.contains (markedTasks.drop 13)) =
              true := by
    decide +kernel
  obtain ⟨s, hs, hrun⟩ := Option.any_eq_true _ _ |>.mp hrun
  obtain ⟨r, hstep, hr⟩ := Option.any_eq_true _ _ |>.mp hrun
  simp only [Bool.and_eq_true, decide_eq_true_eq, Bool.not_eq_true', List.contains_eq_mem,
    decide_eq_false_iff_not] at hr
  obtain ⟨⟨hact, hlast⟩, hnot⟩ := hr
  obtain ⟨hreach, htask⟩ := reaches_after_task (P := fun _ => True) trivial markedTask_continues (by decide) hs
  refine ⟨s, r.2, { isReplaying := true, historyLength := 13, jobs := [.other] }, _, _, _, _, hreach,
    by simp [Admits, htask], by rw [hstep, ← hact], (task_of_step rfl hstep).trans htask, rfl,
    markedTasks_sequences, ?_, by decide, hnot⟩
  rw [hlast]
  decide

theorem next_sequence_scanned_at_once : ∃ (s : Feeding (Unit × List (List HistoryEvent))) (c : List HistoryEvent),
    Reaches Behaviour.signals.scanning InOneUpdate s ∧ s.wfm.machines.lastProcessedEvent = 13 ∧
      c.any (·.eventType = .markerRecorded) = true ∧ c ∈ s.wfm.machines.inner.2 := by
  have hrun : ((fresh ((), [])).after Behaviour.signals.scanning
      [.task markedTaskAtOnce, .completion [], .activation, .completion [], .activation]).any (fun s =>
        s.wfm.machines.lastProcessedEvent = 13) = true := by
    decide +kernel
  obtain ⟨s, hs, hrun⟩ := Option.any_eq_true _ _ |>.mp hrun
  have hlast : s.wfm.machines.lastProcessedEvent = 13 := of_decide_eq_true hrun
  have hone : InOneUpdate markedTaskAtOnce := by decide +kernel
  obtain ⟨hreach, htask⟩ := reaches_after_task hone markedTaskAtOnce_continues (by decide) hs
  refine ⟨s, markedTasks.drop 13, hreach, hlast, by decide, ?_⟩
  refine next_sequence_scanned hreach htask markedTasks_sequences ?_
  rw [hlast]
  decide

end Feeding

end SdkCore
