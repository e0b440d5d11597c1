import SdkCore.Activities.TaskStream

/-!
# Activities that the server does not know

A cancel can say that the server does not know an activity any more. The stream looks at this only when it hands a
cancel to lang, which it does once, so what a later cancel says is lost (`not_found_not_reported`).
-/

namespace SdkCore.WorkerActivityTasks

open Maps

inductive Status
  | willCompleteAsync
  | completed
  | failed
  | cancelled
  deriving DecidableEq

/-- `complete` calls the server, once it has asked the map for the task. -/
def Completion.callsServer (status : Status) : Completion → Bool
  | .counted _ | .removed _ none => false
  | .removed _ (some actInfo) => !actInfo.knownNotFound && status ≠ .willCompleteAsync

/-- The cancel says that the task is gone. -/
def PendingActivityCancel.saysNotFound (cancel : PendingActivityCancel) : Bool :=
  cancel.reason = .notFound || cancel.isNotFound

/-- The manager with the outstanding tasks that a cancel has said to be gone. -/
structure Recorded where
  tasks : Tasks
  gone : List TaskToken

/-- Such a cancel counts if it was taken while the task was outstanding. -/
def record (s : Tasks) (gone : List TaskToken) : Input → List TaskToken
  | .start tt => gone.filter (· ≠ tt)
  | .takeCancel =>
    match s.cancels with
    | [] => gone
    | nextPc :: _ =>
      if nextPc.saysNotFound && (s.outstandingActivityTasks.lookup nextPc.taskToken).isSome then
        nextPc.taskToken :: gone
      else gone
  | _ => gone

def Recorded.next (x : Recorded) (i : Input) : Option Recorded :=
  (step x.tasks i).map fun s => ⟨s, record x.tasks x.gone i⟩

/-- No cancel says that a task is gone after another one was handed to lang. -/
def InTime (x : Recorded) : Input → Prop
  | .takeCancel => ∀ nextPc ∈ x.tasks.cancels.head?, nextPc.saysNotFound = true →
    ∀ details ∈ x.tasks.outstandingActivityTasks.lookup nextPc.taskToken,
      details.issuedCancelToLang.isSome = true → details.knownNotFound = true
  | _ => True

/-- The event ends the time in which lang may get a cancel. -/
def Event.closes (tt : TaskToken) : Event → Bool
  | .cancel t _ | .completed t => t = tt
  | _ => false

/-- The task was handed to lang, and neither cancelled nor completed since. -/
def Open (log : List Event) (tt : TaskToken) : Prop :=
  ∃ after before, log = after ++ .start tt :: before ∧ ∀ e ∈ after, e.closes tt = false

theorem Open.start (log : List Event) (tt : TaskToken) : Open (.start tt :: log) tt := ⟨[], log, rfl, by simp⟩

theorem Open.cons {log : List Event} {tt : TaskToken} {e : Event} (h : Open log tt) (he : e.closes tt = false) :
    Open (e :: log) tt := by
  obtain ⟨after, before, rfl, hafter⟩ := h
  exact ⟨e :: after, before, rfl, List.forall_mem_cons.mpr ⟨he, hafter⟩⟩

/-- Lang gets cancels for open tasks only. -/
abbrev CancelsOpen (log : List Event) : Prop :=
  Each (fun before e => ∀ tt reason, e = .cancel tt reason → Open before tt) log

/-- Tasks without a cancel are open, and those that are gone are known to be. -/
structure Known (x : Recorded) : Prop where
  cancels : CancelsOpen x.tasks.log
  fresh : ∀ tt info, x.tasks.outstandingActivityTasks.lookup tt = some info → info.issuedCancelToLang = none →
    Open x.tasks.log tt
  gone : ∀ tt ∈ x.gone, ∀ info, x.tasks.outstandingActivityTasks.lookup tt = some info → info.knownNotFound = true

variable {s : Tasks} {x y : Recorded} {i : Input}

/-- What leaves tasks and log alone keeps what is known. -/
theorem Known.of_same (h : Known x) (ho : y.tasks.outstandingActivityTasks = x.tasks.outstandingActivityTasks)
    (hl : y.tasks.log = x.tasks.log) (hg : y.gone = x.gone) : Known y := by
  obtain ⟨hcancels, hfresh, hgone⟩ := h
  constructor <;> grind

theorem Known.note (h : Known x) {e : Event} (he : e = .error ∨ e = .shutDown)
    (ho : y.tasks.outstandingActivityTasks = x.tasks.outstandingActivityTasks) (hl : y.tasks.log = e :: x.tasks.log)
    (hg : y.gone = x.gone) : Known y := by
  obtain ⟨hcancels, hfresh, hgone⟩ := h
  constructor <;> simp only [hl, ho, hg, Each] <;> grind [Open.cons, Event.closes]

theorem waiterStep_same {s' : Tasks} (h : waiterStep s = some s') :
    s'.outstandingActivityTasks = s.outstandingActivityTasks ∧ s'.log = s.log := by
  unfold waiterStep at h
  grind

variable {gone : List TaskToken}

theorem Known.startTask (h : Known ⟨s, gone⟩) (tt : TaskToken) :
    Known ⟨WorkerActivityTasks.startTask s tt, gone.filter (· ≠ tt)⟩ := by
  obtain ⟨hcancels, hfresh, hgone⟩ := h
  constructor <;> simp only [WorkerActivityTasks.startTask, lookup_insert_ite, Each, List.mem_filter] <;>
    grind [Open.cons, Open.start, Event.closes]

theorem Known.removeTask (h : Known ⟨s, gone⟩) (i : Nat) (tt : TaskToken) :
    Known ⟨WorkerActivityTasks.removeTask s i tt, gone⟩ := by
  obtain ⟨hcancels, hfresh, hgone⟩ := h
  constructor <;> simp only [WorkerActivityTasks.removeTask, lookup_erase_ite] <;> grind [Open.cons, Each, Event.closes]

theorem Known.issueCancel {rest : List PendingActivityCancel} {nextPc : PendingActivityCancel}
    (h : Known ⟨s, gone⟩) (hc : s.cancels = nextPc :: rest) (hok : InTime ⟨s, gone⟩ .takeCancel) :
    Known ⟨WorkerActivityTasks.issueCancel { s with cancels := rest } nextPc, record s gone .takeCancel⟩ := by
  simp only [InTime, hc, List.head?_cons, Option.mem_def, Option.some.injEq, forall_eq'] at hok
  unfold WorkerActivityTasks.issueCancel
  simp only [record, hc]
  obtain ⟨hcancels, hfresh, hgone⟩ := h
  cases hd : s.outstandingActivityTasks.lookup nextPc.taskToken with
  | none => constructor <;> grind
  | some details =>
    simp only [Option.isSome_some]
    split
    · constructor <;> grind
    · next hi =>
      have hopen : Open s.log nextPc.taskToken := hfresh _ details hd (by simpa using hi)
      refine ⟨⟨fun tt reason he => ?_, hcancels⟩, ?_, ?_⟩
      · cases he
        exact hopen
      · simp only [lookup_insert_ite]
        grind [Open.cons, Event.closes]
      · simp only [lookup_insert_ite]
        grind [PendingActivityCancel.saysNotFound]

theorem Known.next (h : Known x) (hok : InTime x i) (hn : x.next i = some y) : Known y := by
  obtain ⟨s, gone⟩ := x
  obtain ⟨s', hs, rfl⟩ := Option.map_eq_some_iff.mp hn
  cases i with
  | start tt =>
    obtain ⟨-, ⟨⟩⟩ := Option.ite_none_left_eq_some.mp hs
    exact h.startTask tt
  | startFailed =>
    obtain ⟨-, ⟨⟩⟩ := Option.ite_none_left_eq_some.mp hs
    exact h.note (.inl rfl) rfl rfl rfl
  | startsEnded | sendCancel cancel | complete tt =>
    cases hs
    exact { h with }
  | takeCancel =>
    simp only [step] at hs
    split at hs
    · cases hs
    · next hc =>
      obtain ⟨-, ⟨⟩⟩ := Option.ite_none_left_eq_some.mp hs
      exact h.issueCancel hc hok
  | graceElapsed =>
    obtain ⟨-, ⟨⟩⟩ := Option.ite_none_right_eq_some.mp hs
    exact { h with }
  | remove i =>
    simp only [step] at hs
    split at hs
    · cases hs
      exact h.removeTask i _
    · cases hs
  | reported i =>
    simp only [step] at hs
    split at hs
    · cases hs
      exact { h with }
    · cases hs
  | waiter => exact h.of_same (waiterStep_same hs).1 (waiterStep_same hs).2 rfl
  | shutDown =>
    obtain ⟨-, ⟨⟩⟩ := Option.ite_none_right_eq_some.mp hs
    exact h.note (.inr rfl) rfl rfl rfl

abbrev ReachableInTime : Recorded → Prop :=
  Reach (fun x i y => x.next i = some y) InTime fun x => ∃ gracefulShutdown, x = ⟨new gracefulShutdown, []⟩

/-- **Lang gets at most one cancel, for a task that it holds, and a task said to be gone is not reported**, if no cancel
says so after another one was handed out. -/
theorem not_found_not_reported (h : ReachableInTime x) :
    (∀ after tt reason before, x.tasks.log = after ++ .cancel tt reason :: before → Open before tt) ∧
      ∀ tt ∈ x.gone, ∀ i status, x.tasks.completions[i]? = some (.counted tt) →
        ∃ y c, x.next (.remove i) = some y ∧ y.tasks.completions[i]? = some c ∧ c.callsServer status = false := by
  have hk : Known x := by
    refine h.invariant ?_ fun _ _ _ hk hok hn => hk.next hok hn
    rintro _ ⟨g, rfl⟩
    exact ⟨trivial, (fun _ _ hi => by cases hi), fun _ hm => by cases hm⟩
  refine ⟨fun after tt reason before hl => each_iff.mp hk.cancels after _ before hl tt reason rfl, ?_⟩
  intro tt ht i status hi
  have hlt := (List.getElem?_eq_some_iff.mp hi).1
  refine ⟨⟨removeTask x.tasks i tt, x.gone⟩, .removed tt (x.tasks.outstandingActivityTasks.lookup tt), ?_, ?_, ?_⟩
  · simp [Recorded.next, step, hi, record]
  · simp [removeTask, hlt]
  · cases hl : x.tasks.outstandingActivityTasks.lookup tt with
    | none => rfl
    | some info => simp [Completion.callsServer, hk.gone tt ht info hl]

instance (x : Recorded) (i : Input) : Decidable (InTime x i) := by
  unfold InTime
  split <;> infer_instance

theorem not_found_not_reported_heartbeat : ∃ x, ReachableInTime x ∧ 1 ∈ x.gone ∧
    ∃ y c, x.next (.remove 0) = some y ∧ y.tasks.completions[0]? = some c ∧ c.callsServer .completed = false := by
  obtain ⟨x, hx, hg, hc⟩ : ∃ x, ReachableInTime x ∧ 1 ∈ x.gone ∧ x.tasks.completions[0]? = some (.counted 1) :=
    Reach.exists_of_trace [.start 1, .sendCancel ⟨1, .notFound, true⟩, .takeCancel, .complete 1] (by decide)
      (fun _ _ _ h => h) (.start ⟨none, rfl⟩)
  exact ⟨x, hx, hg, (not_found_not_reported hx).2 1 hg 0 .completed hc⟩

/-- A heartbeat finds an activity gone that the server has cancelled. Its completion is reported. -/
theorem reported_although_not_found :
    ∃ x, Reach (fun x i y => Recorded.next x i = some y) (fun _ _ => True) (· = ⟨new none, []⟩) x ∧
      1 ∈ x.gone ∧ x.tasks.completions[0]? = some (.counted 1) ∧
      ∃ y c, x.next (.remove 0) = some y ∧ y.tasks.completions[0]? = some c ∧ c.callsServer .completed = true := by
  obtain ⟨x, hx, hg, hc, ha⟩ : ∃ x, Reach (fun x i y => Recorded.next x i = some y) (fun _ _ => True)
      (· = ⟨new none, []⟩) x ∧ 1 ∈ x.gone ∧ x.tasks.completions[0]? = some (.counted 1) ∧
      ((x.next (.remove 0)).bind (·.tasks.completions[0]?)).any (·.callsServer .completed) = true :=
    Reach.exists_of_trace [.start 1, .sendCancel ⟨1, .cancelled, false⟩, .takeCancel, .sendCancel ⟨1, .notFound, true⟩,
      .takeCancel, .complete 1] (by decide) (fun _ _ _ h => h) (.start rfl)
  obtain ⟨c, hy, hcalls⟩ := Option.any_eq_true _ _ |>.mp ha
  obtain ⟨y, hy, hyc⟩ := Option.bind_eq_some_iff.mp hy
  exact ⟨x, hx, hg, hc, y, c, hy, hyc, hcalls⟩

end SdkCore.WorkerActivityTasks
