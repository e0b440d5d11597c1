import SdkCore.Lib.Largest

/-!
# The workflow tasks that failed and the one that completed

Tasks are noted as their events are read, and pages may be read again. `History` is as the server writes it: ids without
gaps, and the events of a task before the next is scheduled (`noteWftEvents_exact`).
-/

namespace SdkCore.WftNotes

inductive Attributes
  | workflowTaskScheduled (attempt : Int)
  | workflowTaskStarted (scheduledEventId : Int) (eventTime : Option Int)
  | workflowTaskCompleted (scheduledEventId : Int)
  | workflowTaskFailed (scheduledEventId : Int)
  | workflowTaskTimedOut (scheduledEventId : Int)
  | other
  deriving DecidableEq

structure Event where
  eventId : Int
  attributes : Attributes
  deriving DecidableEq

structure WftAttempt where
  scheduledEventId : Int := 0
  startedEventId : Int := 0
  attempt : Nat := 0
  startedTime : Option Int := none
  deriving DecidableEq

def maxFailedWfts : Nat := 100

/-- What `WorkflowMachines` keeps of tasks. -/
structure Notes where
  failedWftStartedIds : Finset Int := ∅
  lastWft : WftAttempt := {}
  completedWft : Option WftAttempt := none

/-- A failed task is noted, of those the newest. -/
def noteFailedWft (w : Notes) (scheduledEventId : Int) : Notes :=
  if w.lastWft.scheduledEventId ≠ scheduledEventId ∨ w.lastWft.startedEventId = 0 then w
  else
    { w with
      failedWftStartedIds := insertCapped maxFailedWfts w.failedWftStartedIds w.lastWft.startedEventId }

def noteWftEvent (w : Notes) (e : Event) : Notes :=
  match e.attributes with
  | .workflowTaskScheduled attempt =>
    { w with lastWft := { scheduledEventId := e.eventId, attempt := attempt.toNat } }
  | .workflowTaskStarted s eventTime =>
    if s = w.lastWft.scheduledEventId then
      { w with lastWft := { w.lastWft with startedEventId := e.eventId, startedTime := eventTime } }
    else w
  | .workflowTaskCompleted s =>
    if s = w.lastWft.scheduledEventId ∧ 0 < w.lastWft.startedEventId ∧
        w.completedWft.all (·.startedEventId < w.lastWft.startedEventId) then
      { w with completedWft := some w.lastWft }
    else w
  | .workflowTaskFailed s | .workflowTaskTimedOut s => noteFailedWft w s
  | .other => w

def noteWftEvents (w : Notes) (events : List Event) : Notes := events.foldl noteWftEvent w

/-! ## Histories -/

namespace Attributes

def fails : Attributes → Option Int
  | workflowTaskFailed s | workflowTaskTimedOut s => some s
  | _ => none

def completes : Attributes → Option Int
  | workflowTaskCompleted s => some s
  | _ => none

def ends (a : Attributes) : Option Int := a.fails.or a.completes

def starts : Attributes → Option Int
  | workflowTaskStarted s _ => some s
  | _ => none

def isScheduled : Attributes → Bool
  | workflowTaskScheduled _ => true
  | _ => false

end Attributes

open SdkCore.WftNotes.Attributes

/-- The last scheduled event before `e` is at `k`. -/
def Latest (events : List Attributes) (e k : Nat) (attempt : Int) : Prop :=
  k < e ∧ events[k]? = some (.workflowTaskScheduled attempt) ∧
    ∀ m < e, k < m → ∀ a, events[m]? = some a → a.isScheduled = false

/-- Events whose ids follow `first`. -/
structure History where
  first : Nat
  events : List Attributes
  /-- The events of a task come between its scheduled event and the next one. -/
  named : ∀ (j : Nat) a s, events[j]? = some a → (a.starts = some s ∨ a.ends = some s) →
    ∃ k attempt, Latest events j k attempt ∧ s = first + k + 1
  once : ∀ (i j : Nat) a b s, events[i]? = some a → events[j]? = some b → a.starts = some s → b.starts = some s → i = j
  startsFirst : ∀ (i j : Nat) a b s, events[i]? = some a → events[j]? = some b → a.starts = some s → b.ends = some s →
    i < j

namespace History

variable (h : History)

def id (i : Nat) : Int := h.first + i + 1

def all : List Event := h.events.mapIdx fun i a => ⟨h.id i, a⟩

inductive Started : WftAttempt → Prop
  | intro {k i attempt time} (hk : h.events[k]? = some (.workflowTaskScheduled attempt))
      (hi : h.events[i]? = some (.workflowTaskStarted (h.id k) time)) : Started ⟨h.id k, h.id i, attempt.toNat, time⟩

/-- Those that ended in the way `f` before `p`. -/
def ended (f : Attributes → Option Int) (p : Nat) : Set WftAttempt :=
  {l | h.Started l ∧ ∃ j < p, ∃ b, h.events[j]? = some b ∧ f b = some l.scheduledEventId}

end History

/-- The newest of some tasks. -/
def Newest (c : Option WftAttempt) (s : Set WftAttempt) : Prop :=
  (∀ w, c = some w → w ∈ s) ∧ ∀ w ∈ s, ∃ w', c = some w' ∧ w.startedEventId ≤ w'.startedEventId

/-- Chunks, each read from where the last one ended or from earlier, up to the second position. -/
inductive Reads (l : List Event) : Nat → Nat → List (List Event) → Nat → Prop
  | done {i p} : Reads l i p [] p
  | read {i p q j chunk chunks} (hj : j ≤ i) (hc : chunk <+: l.drop j)
      (hr : Reads l (j + chunk.length) (max p (j + chunk.length)) chunks q) : Reads l i p (chunk :: chunks) q

/-! ## Reading -/

section

variable {events : List Attributes} {i k m e : Nat} {a : Attributes} {attempt attempt' : Int}

theorem Latest.unique (hk : Latest events e k attempt) (hm : Latest events e m attempt') :
    k = m := by
  rcases Nat.lt_trichotomy k m with hlt | heq | hlt
  · cases hk.2.2 m hm.1 hlt _ hm.2.1
  · exact heq
  · cases hm.2.2 k hk.1 hlt _ hk.2.1

theorem latest_succ (ha : events[i]? = some a) (hs : a.isScheduled = false) :
    Latest events (i + 1) k attempt ↔ Latest events i k attempt := by
  constructor
  · rintro ⟨hk, hat, hl⟩
    refine ⟨lt_of_le_of_ne (Nat.lt_succ_iff.mp hk) ?_, hat, fun m hm => hl m (Nat.lt_succ_of_lt hm)⟩
    rintro rfl
    cases ha.symm.trans hat
    cases hs
  · rintro ⟨hk, hat, hl⟩
    refine ⟨Nat.lt_succ_of_lt hk, hat, fun m hm hkm b hb => ?_⟩
    rcases Nat.lt_succ_iff_lt_or_eq.mp hm with hm | rfl
    · exact hl m hm hkm b hb
    · cases ha.symm.trans hb
      exact hs

end

namespace History

variable {h : History} {i j k m p e : Nat} {a b : Attributes} {s : Int} {w : Notes} {l : WftAttempt}
  {f : Attributes → Option Int}

theorem id_inj (he : h.id i = h.id j) : i = j := by
  unfold id at he
  omega

theorem id_pos (h : History) (i : Nat) : 0 < h.id i := by
  unfold id
  omega

/-- The newest task before `e`. -/
inductive Task (h : History) (e : Nat) : WftAttempt → Prop
  | none (hn : ∀ k attempt, ¬ Latest h.events e k attempt) : Task h e {}
  | scheduled {k attempt} (hl : Latest h.events e k attempt)
      (hn : ∀ m < e, ∀ b, h.events[m]? = some b → b.starts ≠ some (h.id k)) :
      Task h e ⟨h.id k, 0, attempt.toNat, Option.none⟩
  | started {k i attempt time} (hl : Latest h.events e k attempt) (hi : i < e)
      (hs : h.events[i]? = some (.workflowTaskStarted (h.id k) time)) : Task h e ⟨h.id k, h.id i, attempt.toNat, time⟩

theorem Task.scheduled_of_names (ht : Task h i l) (ha : h.events[i]? = some a)
    (hs : a.starts = some s ∨ a.ends = some s) :
    s = l.scheduledEventId := by
  obtain ⟨k, attempt, hk, rfl⟩ := h.named i a s ha hs
  cases ht with
  | none hn => exact absurd hk (hn k attempt)
  | scheduled hl | started hl => rw [hk.unique hl]; rfl

theorem Task.succ (ht : Task h i l) (ha : h.events[i]? = some a) (hn : a.isScheduled = false)
    (hs : a.starts = Option.none) : Task h (i + 1) l := by
  cases ht with
  | none hno => exact .none fun k attempt hl => hno k attempt ((latest_succ ha hn).mp hl)
  | scheduled hl hno =>
    refine .scheduled ((latest_succ ha hn).mpr hl) fun m hm b hb => ?_
    rcases Nat.lt_succ_iff_lt_or_eq.mp hm with hm | rfl
    · exact hno m hm b hb
    · cases ha.symm.trans hb
      simp [hs]
  | started hl hi hat => exact .started ((latest_succ ha hn).mpr hl) (Nat.lt_succ_of_lt hi) hat

/-- The last task is the newest of some events read, also if they are read again from `i` on. -/
def Knows (h : History) (i p : Nat) (l : WftAttempt) : Prop := ∃ e, i ≤ e ∧ e ≤ p ∧ Task h e l

/-- One event is read. -/
theorem Knows.read (hk : Knows h i p w.lastWft) (ha : h.events[i]? = some a) :
    Knows h (i + 1) (max p (i + 1)) (noteWftEvent w ⟨h.id i, a⟩).lastWft := by
  obtain ⟨e, hie, hep, ht⟩ := hk
  have hkeep : a.isScheduled = false → (i = e → a.starts = none) → Knows h (i + 1) (max p (i + 1)) w.lastWft := by
    intro hn hs
    rcases Nat.lt_or_eq_of_le hie with hlt | rfl
    · exact ⟨e, hlt, hep.trans (Nat.le_max_left ..), ht⟩
    · exact ⟨i + 1, Nat.le_refl _, Nat.le_max_right .., ht.succ ha hn (hs rfl)⟩
  cases a with
  | workflowTaskScheduled attempt =>
    refine ⟨i + 1, Nat.le_refl _, Nat.le_max_right .., .scheduled ⟨Nat.lt_succ_self i, ha, ?_⟩ ?_⟩
    · exact fun m hm him => absurd him (Nat.not_lt.mpr (Nat.lt_succ_iff.mp hm))
    · intro m hm b hb hs
      obtain ⟨k, _, hl, he⟩ := h.named m b _ hb (.inl hs)
      have := hl.1
      unfold id at he
      omega
  | workflowTaskStarted s time =>
    simp only [noteWftEvent]
    split
    · next hs =>
      generalize w.lastWft = l at ht hs
      subst hs
      cases ht with
      | none =>
        obtain ⟨k, _, -, he⟩ := h.named i _ _ ha (.inl rfl)
        have : (0 : Int) = h.first + k + 1 := he
        omega
      | scheduled hl hn =>
        rcases Nat.lt_or_eq_of_le hie with hlt | rfl
        · exact absurd rfl (hn i hlt _ ha)
        · exact ⟨i + 1, Nat.le_refl _, Nat.le_max_right ..,
            .started ((latest_succ ha rfl).mpr hl) (Nat.lt_succ_self i) ha⟩
      | started hl hi hs =>
        -- the event was read before
        obtain rfl := h.once _ _ _ _ _ ha hs rfl rfl
        cases ha.symm.trans hs
        exact ⟨e, hi, hep.trans (Nat.le_max_left ..), .started hl hi hs⟩
    · next hs => exact hkeep rfl fun he => absurd (he ▸ ht |>.scheduled_of_names ha (.inl rfl)) hs
  | workflowTaskCompleted s =>
    simp only [noteWftEvent]
    split <;> exact hkeep rfl fun _ => rfl
  | workflowTaskFailed s | workflowTaskTimedOut s =>
    simp only [noteWftEvent, noteFailedWft]
    split <;> exact hkeep rfl fun _ => rfl
  | other => exact hkeep rfl fun _ => rfl

theorem Task.eq_of_ends {t : WftAttempt} (ht : Task h j l) (hb : h.events[j]? = some b) (hs : h.Started t)
    (he : b.ends = some t.scheduledEventId) : t = l := by
  have hn := ht.scheduled_of_names hb (.inr he)
  cases hs with
  | @intro k i _ _ hk hi =>
    cases ht with
    | none => exact absurd hn (id_pos h k).ne'
    | scheduled hl hno =>
      cases id_inj hn
      exact absurd rfl (hno i (h.startsFirst i j _ b _ hi hb rfl he) _ hi)
    | started hl _ hi' =>
      cases id_inj hn
      cases h.once _ _ _ _ _ hi hi' rfl rfl
      cases hi.symm.trans hi'
      cases hk.symm.trans hl.2.1
      rfl

theorem Started.pos (hl : h.Started l) : 0 < l.startedEventId := by
  cases hl
  exact id_pos h _

theorem Task.started_iff (ht : Task h e l) : l.startedEventId ≠ 0 ↔ h.Started l := by
  refine ⟨fun hne => ?_, fun hl => hl.pos.ne'⟩
  cases ht with
  | none | scheduled => exact absurd rfl hne
  | started hl _ hs => exact .intro hl.2.1 hs

/-- An event can only add the last task to those that ended. -/
theorem Knows.ended_read (hf : ∀ b s, f b = some s → b.ends = some s) (hk : Knows h i p l)
    (ha : h.events[i]? = some a) : h.ended f (max p (i + 1)) =
      {t | t ∈ h.ended f p ∨ t = l ∧ f a = some l.scheduledEventId ∧ l.startedEventId ≠ 0} := by
  obtain ⟨e, hie, hep, ht⟩ := hk
  ext t
  constructor
  · rintro ⟨hs, j, hj, b, hb, hfb⟩
    by_cases hjp : j < p
    · exact .inl ⟨hs, j, hjp, b, hb, hfb⟩
    · obtain ⟨rfl, rfl⟩ : j = i ∧ e = i := by omega
      cases ha.symm.trans hb
      obtain rfl := ht.eq_of_ends hb hs (hf _ _ hfb)
      exact .inr ⟨rfl, hfb, hs.pos.ne'⟩
  · rintro (⟨hs, j, hj, hb⟩ | ⟨rfl, hfa, hl⟩)
    · exact ⟨hs, j, lt_max_of_lt_left hj, hb⟩
    · exact ⟨ht.started_iff.mp hl, i, lt_max_of_lt_right (Nat.lt_succ_self i), a, ha, hfa⟩

/-- What is noted is exact for the first `p` events, and reading may go on at `i`. -/
structure Reading (h : History) (i p : Nat) (w : Notes) : Prop where
  knows : Knows h i p w.lastWft
  failed : Largest maxFailedWfts w.failedWftStartedIds {n | ∃ t ∈ h.ended fails p, t.startedEventId = n}
  completed : Newest w.completedWft (h.ended completes p)

theorem noteWftEvent_failed (w : Notes) (n : Int) (a : Attributes) :
    (noteWftEvent w ⟨n, a⟩).failedWftStartedIds =
      if a.fails = some w.lastWft.scheduledEventId ∧ w.lastWft.startedEventId ≠ 0 then
        insertCapped maxFailedWfts w.failedWftStartedIds w.lastWft.startedEventId
      else w.failedWftStartedIds := by
  cases a with
  | workflowTaskFailed s | workflowTaskTimedOut s =>
    simp only [noteWftEvent, noteFailedWft, fails, Option.some.injEq]
    split <;> split <;> grind
  | workflowTaskStarted | workflowTaskCompleted =>
    simp only [noteWftEvent, fails]
    split <;> rfl
  | _ => rfl

theorem noteWftEvent_completed (w : Notes) (n : Int) (a : Attributes) (hw : 0 ≤ w.lastWft.startedEventId) :
    (noteWftEvent w ⟨n, a⟩).completedWft =
      if a.completes = some w.lastWft.scheduledEventId ∧ w.lastWft.startedEventId ≠ 0 ∧
          w.completedWft.all (·.startedEventId < w.lastWft.startedEventId) then some w.lastWft
      else w.completedWft := by
  cases a with
  | workflowTaskCompleted s =>
    simp only [noteWftEvent, completes, Option.some.injEq, hw.lt_iff_ne', ne_eq]
    split <;> rfl
  | workflowTaskFailed s | workflowTaskTimedOut s | workflowTaskStarted =>
    simp only [noteWftEvent, noteFailedWft, completes]
    split <;> rfl
  | _ => rfl

theorem Reading.read_failed (hr : Reading h i p w) (ha : h.events[i]? = some a) :
    Largest maxFailedWfts (noteWftEvent w ⟨h.id i, a⟩).failedWftStartedIds
      {n | ∃ t ∈ h.ended fails (max p (i + 1)), t.startedEventId = n} := by
  rw [noteWftEvent_failed, hr.knows.ended_read (fun b s hb => by unfold ends; rw [hb]; rfl) ha]
  split
  · next hc =>
    convert hr.failed.insertCapped using 1
    ext n
    constructor
    · rintro ⟨t, ht | ⟨rfl, -⟩, rfl⟩
      · exact .inr ⟨t, ht, rfl⟩
      · exact .inl rfl
    · rintro (rfl | ⟨t, ht, rfl⟩)
      · exact ⟨_, .inr ⟨rfl, hc⟩, rfl⟩
      · exact ⟨t, .inl ht, rfl⟩
  · next hc => simpa [hc] using hr.failed

theorem Reading.read_completed (hr : Reading h i p w) (ha : h.events[i]? = some a) :
    Newest (noteWftEvent w ⟨h.id i, a⟩).completedWft (h.ended completes (max p (i + 1))) := by
  obtain ⟨e, -, -, ht⟩ := hr.knows
  have hw : 0 ≤ w.lastWft.startedEventId := by
    by_cases hz : w.lastWft.startedEventId = 0
    · exact hz.ge
    · exact (ht.started_iff.mp hz).pos.le
  rw [noteWftEvent_completed w _ a hw, hr.knows.ended_read (fun b s hb => by cases b <;> cases hb; rfl) ha]
  split
  · next hc =>
    refine ⟨?_, ?_⟩
    · rintro _ ⟨⟩
      exact .inr ⟨rfl, hc.1, hc.2.1⟩
    · rintro t (ht | ⟨rfl, -⟩)
      · obtain ⟨t', hc', hle⟩ := hr.completed.2 t ht
        have hlt : t'.startedEventId < w.lastWft.startedEventId := by simpa [hc'] using hc.2.2
        exact ⟨_, rfl, hle.trans hlt.le⟩
      · exact ⟨_, rfl, le_refl _⟩
  · next hc =>
    refine ⟨fun t ht => .inl (hr.completed.1 t ht), ?_⟩
    rintro t (ht | ⟨rfl, hn⟩)
    · exact hr.completed.2 t ht
    · cases hcw : w.completedWft with
      | none => exact absurd ⟨hn.1, hn.2, by rw [hcw]; rfl⟩ hc
      | some t' =>
        refine ⟨t', rfl, not_lt.mp fun hlt => hc ⟨hn.1, hn.2, ?_⟩⟩
        simpa [hcw] using hlt

theorem Reading.read (hr : Reading h i p w) (ha : h.events[i]? = some a) :
    Reading h (i + 1) (max p (i + 1)) (noteWftEvent w ⟨h.id i, a⟩) :=
  ⟨hr.knows.read ha, hr.read_failed ha, hr.read_completed ha⟩

/-- Many events are read. -/
theorem Reading.chunk (hr : Reading h j p w) {chunk : List Event} (hc : chunk <+: h.all.drop j) :
    Reading h (j + chunk.length) (max p (j + chunk.length)) (noteWftEvents w chunk) := by
  induction chunk generalizing j p w with
  | nil =>
    obtain ⟨e, hj, hp, -⟩ := hr.knows
    rwa [List.length_nil, Nat.add_zero, max_eq_left (hj.trans hp)]
  | cons x xs ih =>
    obtain ⟨rest, hx⟩ := hc
    have hat : h.all[j]? = some x := by
      rw [← Nat.add_zero j, ← List.getElem?_drop, ← hx]
      rfl
    obtain ⟨a, ha, rfl⟩ : ∃ a, h.events[j]? = some a ∧ ⟨h.id j, a⟩ = x := by
      simpa [all, List.getElem?_mapIdx] using hat
    have := ih (hr.read ha) ⟨rest, by rw [← List.drop_drop, ← hx]; rfl⟩
    rwa [max_assoc, max_eq_right (Nat.le_add_right (j + 1) xs.length), Nat.add_assoc, Nat.add_comm 1] at this

theorem Reading.reads {chunks : List (List Event)} {q : Nat} (hc : Reads h.all i p chunks q) (hr : Reading h i p w) :
    ∃ i, Reading h i q (chunks.foldl noteWftEvents w) := by
  induction hc generalizing w with
  | done => exact ⟨_, hr⟩
  | read hj hc _ ih =>
    obtain ⟨⟨e, hi, hp, ht⟩, hfailed, hcompleted⟩ := hr
    exact ih (chunk ⟨⟨e, hj.trans hi, hp, ht⟩, hfailed, hcompleted⟩ hc)

theorem Reading.start : Reading h 0 0 {} := by
  have hno : ∀ f t, t ∉ h.ended f 0 := by
    rintro f t ⟨-, j, hj, -⟩
    exact absurd hj (Nat.not_lt_zero j)
  refine ⟨⟨0, Nat.le_refl 0, Nat.le_refl 0, .none fun k _ hl => absurd hl.1 (Nat.not_lt_zero k)⟩, ?_, ?_⟩
  · refine ⟨fun y hy => absurd hy (Finset.notMem_empty y), Nat.zero_le _, ?_⟩
    rintro y ⟨t, ht, -⟩
    exact absurd ht (hno _ t)
  · exact ⟨fun t ht => (Option.some_ne_none t ht.symm).elim, fun t ht => absurd ht (hno _ t)⟩

theorem Started.unique {t t' : WftAttempt} (ht : h.Started t) (ht' : h.Started t')
    (he : t.startedEventId = t'.startedEventId) : t = t' := by
  obtain ⟨hk, hi⟩ := ht
  obtain ⟨hk', hi'⟩ := ht'
  cases id_inj he
  have hs := hi.symm.trans hi'
  rw [Option.some.injEq, workflowTaskStarted.injEq] at hs
  obtain ⟨hs, rfl⟩ := hs
  cases id_inj hs
  cases hk.symm.trans hk'
  rfl

theorem newest_subset {c c' : Option WftAttempt} {t : WftAttempt} (hc : Newest c (h.ended f p))
    (hc' : Newest c' (h.ended f p)) (ht : c = some t) : c' = some t := by
  obtain ⟨t', rfl, hle⟩ := hc'.2 t (hc.1 t ht)
  obtain ⟨_, ht', hge⟩ := hc.2 t' (hc'.1 t' rfl)
  cases ht.symm.trans ht'
  rw [(hc.1 t ht).1.unique (hc'.1 t' rfl).1 (le_antisymm hle hge)]

/-- **Whatever is read again, the last failed tasks and the newest completed one are noted.** -/
theorem noteWftEvents_exact (h : History) (chunks : List (List Event)) (hr : Reads h.all 0 0 chunks h.all.length) :
    let w := chunks.foldl noteWftEvents {}
    Largest 100 w.failedWftStartedIds {n | ∃ t ∈ h.ended fails h.events.length, t.startedEventId = n} ∧
      Newest w.completedWft (h.ended completes h.events.length) ∧
      w.failedWftStartedIds = (noteWftEvents {} h.all).failedWftStartedIds ∧
      w.completedWft = (noteWftEvents {} h.all).completedWft := by
  have hlen : h.all.length = h.events.length := List.length_mapIdx
  obtain ⟨_, hw⟩ := Reading.start.reads hr
  have hone : Reading h _ _ (noteWftEvents {} h.all) := Reading.start.chunk (by simp)
  rw [hlen] at hw
  simp only [hlen, Nat.zero_add, Nat.zero_max] at hone
  refine ⟨hw.failed, hw.completed, hw.failed.unique hone.failed, Option.ext fun t => ?_⟩
  exact ⟨newest_subset hw.completed hone.completed, newest_subset hone.completed hw.completed⟩

def failing : History where
  first := 0
  events := [.workflowTaskScheduled 1, .workflowTaskStarted 1 none, .workflowTaskFailed 1]
  named := by
    rintro (_ | _ | _ | j) a s ha hs <;> cases ha <;> rcases hs with hs | hs <;> cases hs
    · exact ⟨0, 1, ⟨by decide, rfl, fun m hm h0 => by omega⟩, rfl⟩
    · refine ⟨0, 1, ⟨by decide, rfl, ?_⟩, rfl⟩
      intro m hm h0 a ha
      obtain rfl : m = 1 := by omega
      cases ha
      rfl
  once := by
    rintro (_ | _ | _ | i) (_ | _ | _ | j) a b s ha hb hs hs' <;> cases ha <;> cases hb <;> cases hs <;> cases hs'
    rfl
  startsFirst := by
    rintro (_ | _ | _ | i) (_ | _ | _ | j) a b s ha hb hs hs' <;> cases ha <;> cases hb <;> cases hs <;> cases hs'
    decide

theorem noteWftEvents_exact_overlapping :
    let w := [failing.all, failing.all.drop 1].foldl noteWftEvents {}
    Largest 100 w.failedWftStartedIds {n | ∃ t ∈ failing.ended fails 3, t.startedEventId = n} ∧
      w.failedWftStartedIds = {2} :=
  have hr : Reads failing.all 0 0 [failing.all, failing.all.drop 1] 3 :=
    .read (Nat.le_refl 0) (by decide) (.read (j := 1) (by decide) (by decide) .done)
  ⟨(noteWftEvents_exact failing _ hr).1, by decide⟩

end History

end SdkCore.WftNotes
