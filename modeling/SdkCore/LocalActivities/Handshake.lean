import SdkCore.LocalActivities.Cancels
import SdkCore.Run.Calls
import SdkCore.Run.Managers

/-!
# A run and the manager of its local activities

A run that is to be evicted cancels its local activities first, and waits until lang has the cancels
(`handshake_sound`). `Handshake` is a run, the manager, and what is on its way between them.
-/

namespace SdkCore

open WorkflowManager

/-- The manager keeps `J`, if runs are invalidated only when no cancel waits. -/
structure LocalActivities.Upholds {τ : Type} (L : LocalActivities τ) (J : τ → Prop) : Prop where
  sink : ∀ reqs t, J t → .invalidateRun ∉ reqs → J (L.sinkReqs reqs t).2
  invalidate : ∀ t, J t → L.hasUndeliveredCancels t = false → J (L.sinkReqs [.invalidateRun] t).2
  indicate : ∀ t, L.hasUndeliveredCancels (L.sinkReqs [.indicateWorkflowTaskCompleted] t).2 = L.hasUndeliveredCancels t

namespace Managers

open ManagedRun

variable {σ τ : Type}

/-- No job of the machines evicts the run, and `J` holds of the manager. -/
def Keep (J : τ → Prop) (m : Managers σ τ) : Prop := m.wfm.Stays ∧ J m.las

theorem onWfm_keep {α : Type} {J : τ → Prop} {x : WorkflowManager.WOp σ α} (hx : Op.Keeps WorkflowManager.Stays x)
    {m : Managers σ τ} (h : Keep J m) : Keep J (onWfm x m).2 :=
  ⟨(hx m.wfm).1 h.1, h.2⟩

theorem onWfm_activates {J : τ → Prop} {x : WorkflowManager.WOp σ WorkflowActivation} {m : Managers σ τ}
    (hx : WorkflowManager.Activates (x.exec m.wfm)) (h : Keep J m) :
    Keep J (onWfm x m).2 ∧ ∀ act, (onWfm x m).1 = .ok act → act.evicts = false := by
  unfold onWfm
  generalize x.exec m.wfm = r at hx
  obtain ⟨e | act, w⟩ := r
  · exact ⟨⟨hx, h.2⟩, nofun⟩
  · refine ⟨⟨hx.1, h.2⟩, fun a ha => ?_⟩
    cases ha
    exact hx.2

section

variable (B : LawfulBehaviour σ) {L : LocalActivities τ} {start : RunId → Nat → σ × τ} {J : τ → Prop} (hL : L.Upholds J)
include hL

/-- **The managers of a run keep what their parts keep.** -/
theorem upholds : (Managers.ops B.toBehaviour L start).Upholds (Keep J) where
  newWorkFromServer update messages legacyQuery _ hm :=
    onWfm_activates (newWorkFromServer_stays B update messages legacyQuery hm.1) hm
  getNextActivation _ hm := onWfm_activates (getNextActivation_stays B hm.1) hm
  getWfActivation _ hm :=
    have h := getWfActivation_stays hm.1
    ⟨⟨h.1, hm.2⟩, h.2⟩
  applyCompletion commands page amBroken _ hm :=
    onWfm_keep (applyCompletion_stays B commands page amBroken) hm
  notifyOfLocalResult res _ hm := onWfm_keep (notifyOfLocalResult_stays B res) hm
  drain _ hm :=
    have h := drainQueuedLocalActivities_stays B hm.1
    ⟨⟨h.1, hm.2⟩, h.2⟩
  sink reqs m hm hr := ⟨hm.1, hL.sink reqs m.las hm.2 hr⟩
  invalidate m hm hu := ⟨hm.1, hL.invalidate m.las hm.2 hu⟩
  indicate m := hL.indicate m.las
  reported _ hm := ⟨hm, rfl⟩
  reset _ _ hm := ⟨hm, rfl⟩

theorem upholds_asks (w : WorkflowManager σ) : (Managers.ops B.toBehaviour L start).Upholds
    fun m => Keep J m ∧ Relation.ReflTransGen (WorkflowManager.Asks B.toBehaviour) w m.wfm :=
  have hup : (Managers.ops B.toBehaviour L start).Upholds (Keep J) := upholds B hL
  { newWorkFromServer update messages legacyQuery m hm :=
      have h := hup.newWorkFromServer update messages legacyQuery m hm.1
      ⟨⟨h.1, hm.2.tail (.work update messages legacyQuery)⟩, h.2⟩
    getNextActivation m hm :=
      have h := hup.getNextActivation m hm.1
      ⟨⟨h.1, hm.2.tail .activation⟩, h.2⟩
    getWfActivation m hm :=
      have h := hup.getWfActivation m hm.1
      ⟨⟨h.1, hm.2.tail .queries⟩, h.2⟩
    applyCompletion commands page amBroken m hm :=
      ⟨hup.applyCompletion commands page amBroken m hm.1,
        hm.2.tail (.completion commands page amBroken)⟩
    notifyOfLocalResult res m hm :=
      ⟨hup.notifyOfLocalResult res m hm.1, hm.2.tail (.localResult res)⟩
    drain m hm :=
      have h := hup.drain m hm.1
      ⟨⟨h.1, hm.2.tail .drain⟩, h.2⟩
    sink reqs m hm hr := ⟨hup.sink reqs m hm.1 hr, hm.2⟩
    invalidate m hm hu := ⟨hup.invalidate m hm.1 hu, hm.2⟩
    indicate m := hL.indicate m.las
    reported _ hm := ⟨⟨hm.1, hm.2.tail .reported⟩, rfl⟩
    reset id _ hm := ⟨⟨hm.1, hm.2.tail (.reset id)⟩, rfl⟩ }

/-- **A call to a run asks its workflow manager for things**, and changes it in no other way. -/
theorem call_asks {cfg : WorkerConfig} {fuel : Nat} {i : ManagedRun.RunInput} {asked : Bool} {reply : Reply}
    {r r' : ManagedRun (Managers σ τ)} (h : (call (ops B.toBehaviour L start) cfg fuel i).exec r = (.ok reply, r'))
    (hc : conforms asked r i = true) (hr : Guarded (ops B.toBehaviour L start) (Keep J) r)
    (hask : asked = true → Awaits r) :
    Relation.ReflTransGen (WorkflowManager.Asks B.toBehaviour) r.mgr.wfm r'.mgr.wfm :=
  (call_guarded (upholds_asks B hL r.mgr.wfm) h hc ⟨⟨hr.mgr, .refl⟩, hr.eviction⟩ hask).1.mgr.2

end

end Managers

/-! ## The manager as a run sees it -/

/-- What machines leave to others: commands of local activities, and when a heartbeat is due. -/
structure Scheduling where
  cmd : Nat → Nat → ValidScheduleLA
  deadline : Nat → Nat

/-- The manager of local activities, which a run reaches under its id. -/
structure Host where
  runId : RunId
  lam : LocalActivityManager := {}
  /-- A local activity was enqueued while a request for its id was on its way. -/
  stale : Bool := false
  /-- The run was invalidated while a cancel of it was queued. -/
  lost : Bool := false

namespace Host

open LocalActivityManager

variable (D : Scheduling)

/-- A request of the run, under its id. -/
def request (h : Host) : SdkCore.LocalActRequest → LocalActivityManager.LocalActRequest
  | .new seq =>
    .new { scheduleCmd := { D.cmd h.lam.nextTtNum seq with seq }, runId := h.runId, scheduleTime := h.lam.now }
  | .cancel seq => .cancel ⟨h.runId, seq⟩
  | .cancelAllInRun => .cancelAllInRun h.runId
  | .invalidateRun => .invalidateRun h.runId
  | .indicateWorkflowTaskCompleted => .indicateWorkflowTaskCompleted h.runId
  | .startHeartbeatTimeout => .startHeartbeatTimeout h.runId (D.deadline h.lam.nextHandle)

def process (i : Input) (h : Host) : Host :=
  { h with lam := h.lam.process i, stale := h.stale || !h.lam.isFresh i }

def sinkReq (req : SdkCore.LocalActRequest) (h : Host) : List LocalResolution × Host :=
  ((h.lam.enqueue [h.request D req]).1.map fun res => ⟨res.seq⟩,
    { h.process (.enqueue (h.request D req)) with
      lost := h.lost || (req = .invalidateRun && h.lam.hasUndeliveredCancels h.runId) })

def sinkReqs : List SdkCore.LocalActRequest → Host → List LocalResolution × Host
  | [], h => ([], h)
  | req :: reqs, h =>
    ((h.sinkReq D req).1 ++ (sinkReqs reqs (h.sinkReq D req).2).1, (sinkReqs reqs (h.sinkReq D req).2).2)

/-- The manager as a run uses it. -/
def localActivities : LocalActivities Host where
  sinkReqs := sinkReqs D
  hasUndeliveredCancels h := h.lam.hasUndeliveredCancels h.runId

/-- What holds of the manager at all times. -/
structure Ok (run : RunId) (h : Host) : Prop where
  runId : h.runId = run
  tracked : Tracked h.lam.ledger
  fresh : h.stale = false → Fresh h.lam.ledger
  lost : h.lost = false

variable {run : RunId} {h : Host}

/-- The manager does something on its own. -/
theorem Ok.process (hok : Ok run h) (i : Input) : Ok run (h.process i) := by
  refine ⟨hok.runId, Step.tracked rfl hok.tracked, fun hs => ?_, hok.lost⟩
  obtain ⟨hstale, hfresh⟩ : h.stale = false ∧ h.lam.isFresh i = true := by simpa [Host.process] using hs
  exact Step.fresh rfl hok.tracked (hok.fresh hstale) hfresh

theorem Ok.sinkReq (hok : Ok run h) {req : SdkCore.LocalActRequest}
    (hreq : req = .invalidateRun → h.lam.hasUndeliveredCancels run = false) : Ok run (h.sinkReq D req).2 := by
  have hp := hok.process (.enqueue (h.request D req))
  refine ⟨hp.runId, hp.tracked, hp.fresh, ?_⟩
  have hr : (decide (req = .invalidateRun) && h.lam.hasUndeliveredCancels h.runId) = false := by
    rw [hok.runId, Bool.and_eq_false_imp]
    exact fun h => hreq (of_decide_eq_true h)
  simp only [Host.sinkReq, hok.lost, hr, Bool.or_self]

theorem upholds {K : Host → Prop}
    (hsink : ∀ req h, Ok run h → K h → req ≠ .invalidateRun → K (h.sinkReq D req).2)
    (hinv : ∀ h, Ok run h → K h → h.lam.hasUndeliveredCancels run = false → K (h.sinkReq D .invalidateRun).2) :
    (localActivities D).Upholds fun h => Ok run h ∧ K h where
  sink reqs h hh hreqs := by
    induction reqs generalizing h with
    | nil => exact hh
    | cons req reqs ih =>
      rw [List.mem_cons, not_or] at hreqs
      obtain ⟨hne, hreqs⟩ := hreqs
      exact ih _ ⟨hh.1.sinkReq D fun he => absurd he.symm hne, hsink req h hh.1 hh.2 (Ne.symm hne)⟩ hreqs
  invalidate h hh hu := by
    have hu : h.lam.hasUndeliveredCancels run = false := hh.1.runId ▸ hu
    exact ⟨hh.1.sinkReq D fun _ => hu, hinv h hh.1 hh.2 hu⟩
  indicate h := by
    show (h.lam.enqueue [.indicateWorkflowTaskCompleted h.runId]).2.hasUndeliveredCancels h.runId = _
    unfold enqueue
    split <;> rfl

theorem upholds_ok : (localActivities D).Upholds (Ok run) := by
  have h : (localActivities D).Upholds fun h => Ok run h ∧ True :=
    upholds D (fun _ _ _ _ _ => trivial) fun _ _ _ _ => trivial
  simpa using h

theorem Ok.asks (hok : Ok run h) {req : SdkCore.LocalActRequest} (hreq : req ≠ .invalidateRun) :
    Asks run ((h.request D req).runId = run) h.lam (h.sinkReq D req).2.lam := by
  refine enqueue_asks hok.tracked ?_
  cases req <;> simp_all [request]

/-- Requests of the run leave its cancels queued. -/
theorem upholds_undelivered : (localActivities D).Upholds fun h => Ok run h ∧ Undelivered run h.lam := by
  refine upholds D (fun req h hok hu hreq => (hok.asks D hreq).kept hu) fun h _ hu hn => ?_
  rw [hasUndeliveredCancels_iff.mpr hu] at hn
  cases hn

/-- Requests of the run notify nobody. -/
theorem upholds_notifications (l : List LocalActivityNotification) :
    (localActivities D).Upholds fun h => Ok run h ∧ h.lam.workflowNotifications = l := by
  refine upholds D (fun req h hok hl hreq => (hok.asks D hreq).notifications.trans hl) fun h hok hl _ => ?_
  show (h.lam.enqueue [.invalidateRun h.runId]).2.workflowNotifications = l
  unfold enqueue
  split
  · exact hl
  · exact (setShutdownCompleteIfReady_untouched _).notifications.trans hl

theorem upholds_stale : (localActivities D).Upholds fun h => Ok run h ∧ h.stale = true := by
  refine upholds D (fun req h _ hs _ => ?_) fun h _ hs _ => ?_
  · simp [sinkReq, Host.process, hs]
  · simp [sinkReq, Host.process, hs]

end Host

/-! ## The run and the manager together -/

/-- A run, whether it is in the cache, and what is on its way to it. -/
structure Handshake (σ : Type) where
  run : ManagedRun (Managers σ Host)
  live : Bool := false
  resolutions : List LocalResolution := []
  /-- The completion that waits for a page of history is one of the outstanding activation, and asked for it. -/
  asked : Bool := false
  /-- The run withholds its eviction, and nothing but a cancel that is queued was the reason. -/
  withheld : Bool := false

namespace Handshake

open LocalActivityManager ManagedRun

inductive Input
  | call (i : ManagedRun.RunInput)
  /-- The manager of local activities does something that the run did not ask for. -/
  | manager (i : LocalActivityManager.Input)
  | notify (j : Nat)
  | resolve (j : Nat)
  /-- A task makes a new run, whose machines are the `n`th to be made. -/
  | create (n : Nat) (p : PermittedWFT)

variable {σ : Type} (B : LawfulBehaviour σ) (D : Scheduling) (start : RunId → Nat → σ) (cfg : WorkerConfig)

abbrev ops : ManagerOps (Managers σ Host) :=
  Managers.ops B.toBehaviour (Host.localActivities D) fun k n => (start k n, { runId := k })

def host (s : Handshake σ) : Host := s.run.mgr.las

def onHost (f : Host → Host) (s : Handshake σ) : Handshake σ :=
  { s with run := { s.run with mgr := { s.run.mgr with las := f s.run.mgr.las } } }

/-- The run withholds its eviction, until it gives something to the stream. -/
def withholds (before : Bool) (reply : Reply) (r : ManagedRun (Managers σ Host)) : Bool :=
  wantsEviction (ops B D start) r &&
    ((ops B D start).hasUndeliveredCancels r.mgr || (before && reply.toOption = some none))

/-- A run leaves the cache when its eviction is done. -/
def afterCall (s : Handshake σ) (reply : Reply) (r : ManagedRun (Managers σ Host)) : Handshake σ :=
  { s with
    run := r
    live := !(s.run.activationIsEviction && r.activation.isNone)
    asked := stillAsked s.asked reply r
    withheld := withholds B D start s.withheld reply r }

/-- A call of a run that is not in the cache is dropped. -/
def callRun (fuel : Nat) (i : ManagedRun.RunInput) (s : Handshake σ) : Option (Handshake σ) :=
  if s.live then
    match (call (ops B D start) cfg fuel i).exec s.run with
    | (.ok reply, r) => some (s.afterCall B D start reply r)
    | (.error _, _) => none
  else some s

/-- The manager does something, and its resolutions are on their way. -/
def manage (i : LocalActivityManager.Input) (s : Handshake σ) : Handshake σ :=
  { s.onHost (·.process i) with
    resolutions := s.resolutions ++
      ((s.host.lam.reports i).filter (·.1 = s.host.runId)).map fun res => ⟨res.2.seq⟩ }

def takeNotification (j : Nat) (s : Handshake σ) : Handshake σ :=
  s.onHost fun h => { h with lam := { h.lam with workflowNotifications := h.lam.workflowNotifications.eraseIdx j } }

def notify (fuel : Nat) (j : Nat) (s : Handshake σ) : Option (Handshake σ) :=
  match s.host.lam.workflowNotifications[j]? with
  | none => none
  | some (.cancelProcessed runId) =>
    if runId = s.host.runId then (s.takeNotification j).callRun B D start cfg fuel .checkMoreActivations
    else some (s.takeNotification j)
  | some (.heartbeatTimeout runId) =>
    if runId = s.host.runId then (s.takeNotification j).callRun B D start cfg fuel .heartbeatTimeout
    else some (s.takeNotification j)

def resolve (fuel : Nat) (j : Nat) (s : Handshake σ) : Option (Handshake σ) :=
  match s.resolutions[j]? with
  | none => none
  | some res => { s with resolutions := s.resolutions.eraseIdx j }.callRun B D start cfg fuel (.localResolution res)

/-- A run before its first task. The manager of local activities is the one there is. -/
def newRun (n : Nat) (s : Handshake σ) : ManagedRun (Managers σ Host) :=
  let k := s.host.runId
  { blank (ops B D start) k n with mgr := { (ops B D start).new k n with las := s.host } }

/-- A task for a run that is not in the cache creates it. -/
def create (n : Nat) (p : PermittedWFT) (s : Handshake σ) : Option (Handshake σ) :=
  if s.live then none
  else
    match (incomingWft (ops B D start) p).exec (s.newRun B D start n) with
    | (.ok act, r) =>
      some { s with run := r, live := true, asked := false, withheld := withholds B D start false (.ok act) r }
    | (.error _, _) => none

def step? (fuel : Nat) (s : Handshake σ) : Input → Option (Handshake σ)
  | .call i => s.callRun B D start cfg fuel i
  | .manager i => some (s.manage i)
  | .notify j => s.notify B D start cfg fuel j
  | .resolve j => s.resolve B D start cfg fuel j
  | .create n p => s.create B D start n p

def Step (s : Handshake σ) (i : Input) (s' : Handshake σ) : Prop :=
  ∃ fuel, s.step? B D start cfg fuel i = some s'

/-- The requests of the run are made by the run itself. -/
def isForeign (run : RunId) : LocalActivityManager.Input → Bool
  | .enqueue req => req.runId ≠ run
  | _ => true

/-- Pages come when they were asked for, and what is enqueued otherwise is for other runs. -/
def admits (s : Handshake σ) : Input → Bool
  | .call i => conforms s.asked s.run i
  | .manager i => isForeign s.host.runId i
  | _ => true

def init (run : RunId) : Handshake σ := { run := blank (ops B D start) run 0 }

/-! ## What holds in every state -/

/-- A cancel of the run is still queued, or a notification or a result is on its way. -/
def Hears (run : RunId) (s : Handshake σ) : Prop :=
  Undelivered run s.host.lam ∨ .cancelProcessed run ∈ s.host.lam.workflowNotifications ∨ s.resolutions ≠ []

/-- No cancel is queued for a run that was invalidated. -/
structure Steady (run : RunId) (s : Handshake σ) : Prop where
  guarded : Guarded (ops B D start) (Managers.Keep (Host.Ok run)) s.run
  asked : s.asked = true → Awaits s.run
  wants : s.withheld = true → wantsEviction (ops B D start) s.run = true

/-- And a run that withholds its eviction will hear from the manager. -/
structure Sound (run : RunId) (s : Handshake σ) : Prop extends Steady B D start run s where
  hears : s.host.stale = false → s.live = true → s.withheld = true → s.Hears run

variable {B D start cfg} {run : RunId} {s : Handshake σ}

theorem Steady.ok (h : Steady B D start run s) : Host.Ok run s.host := h.guarded.mgr.2

variable {fuel j : Nat} {i : ManagedRun.RunInput} {s' : Handshake σ}

/-- A call keeps what the requests of the run keep. -/
theorem Steady.call_keeps (h : Steady B D start run s) {K : Host → Prop}
    (hK : (Host.localActivities D).Upholds fun h => Host.Ok run h ∧ K h) {reply : Reply}
    {r : ManagedRun (Managers σ Host)} (hcall : (call (ops B D start) cfg fuel i).exec s.run = (.ok reply, r))
    (hc : conforms s.asked s.run i = true) (hk : K s.host) : K r.mgr.las :=
  (call_guarded (Managers.upholds B hK) hcall hc ⟨⟨h.guarded.mgr.1, h.guarded.mgr.2, hk⟩, h.guarded.eviction⟩
    h.asked).1.mgr.2.2

theorem Steady.afterCall (h : Steady B D start run s) {reply : Reply} {r : ManagedRun (Managers σ Host)}
    (hcall : (call (ops B D start) cfg fuel i).exec s.run = (.ok reply, r)) (hc : conforms s.asked s.run i = true)
    (hhears : s.host.stale = false → s.withheld = true → s.Hears run ∨
      (reply = .ok none → (ops B D start).hasUndeliveredCancels r.mgr = true)) :
    Sound B D start run (s.afterCall B D start reply r) := by
  have hg := call_guarded (Managers.upholds B (Host.upholds_ok D)) hcall hc h.guarded h.asked
  have hrun : r.mgr.las.runId = run := hg.1.mgr.2.runId
  have hfound : (ops B D start).hasUndeliveredCancels r.mgr = true → (s.afterCall B D start reply r).Hears run :=
    fun hu => .inl (hasUndeliveredCancels_iff.mp (hrun ▸ hu))
  refine ⟨⟨hg.1, hg.2, fun hw => ?_⟩, fun hstale _ hw => ?_⟩
  · exact (Bool.and_eq_true _ _ ▸ hw : _ ∧ _).1
  · have hw : withholds B D start s.withheld reply r = true := hw
    simp only [withholds, Bool.and_eq_true, Bool.or_eq_true, decide_eq_true_eq] at hw
    rcases hw.2 with hu | ⟨hbefore, hreply⟩
    · exact hfound hu
    have hreply : reply = .ok none := by
      cases reply with
      | ok act => exact congrArg Except.ok (Option.some.inj hreply)
      | error => cases hreply
    have hfresh : s.host.stale = false := by
      by_contra hne
      have hs : r.mgr.las.stale = true := h.call_keeps (Host.upholds_stale D) hcall hc (by simpa using hne)
      have hstale : r.mgr.las.stale = false := hstale
      rw [hs] at hstale
      cases hstale
    rcases hhears hfresh hbefore with (hu | hn | hr) | hlooks
    · exact .inl (h.call_keeps (Host.upholds_undelivered D) hcall hc hu)
    · have hl : r.mgr.las.lam.workflowNotifications = s.host.lam.workflowNotifications :=
        h.call_keeps (Host.upholds_notifications D _) hcall hc rfl
      exact .inr (.inl (hl ▸ hn))
    · exact .inr (.inr hr)
    · exact hfound (hlooks hreply)

theorem Steady.onHost (h : Steady B D start run s) {f : Host → Host} (hok : Host.Ok run (f s.host))
    (hu : Undelivered run (f s.host).lam → Undelivered run s.host.lam) : Steady B D start run (s.onHost f) := by
  refine ⟨⟨⟨h.guarded.mgr.1, hok⟩, fun he => ?_⟩, h.asked, h.wants⟩
  have hn := h.guarded.eviction he
  by_contra hne
  have hq : (f s.host).lam.hasUndeliveredCancels (f s.host).runId = true := (Bool.not_eq_false _).mp hne
  rw [hok.runId, hasUndeliveredCancels_iff] at hq
  have hq' : s.host.lam.hasUndeliveredCancels s.host.runId = true := by
    rw [h.ok.runId, hasUndeliveredCancels_iff]
    exact hu hq
  have hn : s.host.lam.hasUndeliveredCancels s.host.runId = false := hn
  rw [hq'] at hn
  cases hn

theorem Sound.callRun (h : Sound B D start run s) (hc : conforms s.asked s.run i = true)
    (hs : s.callRun B D start cfg fuel i = some s') : Sound B D start run s' := by
  unfold Handshake.callRun at hs
  split at hs
  · next hlive =>
    split at hs
    · next reply r hcall =>
      cases hs
      exact h.toSteady.afterCall hcall hc fun hf hw => .inl (h.hears hf hlive hw)
    · cases hs
  · cases hs
    exact h

/-- A call that looks again whether the run can be evicted. -/
theorem Steady.callLooking (h : Steady B D start run s) (hc : conforms s.asked s.run i = true)
    (hlook : ∀ r, wantsEviction (ops B D start) s.run = true →
      (call (ops B D start) cfg fuel i).exec s.run = (.ok (.ok none), r) →
      (ops B D start).hasUndeliveredCancels r.mgr = true) (hs : s.callRun B D start cfg fuel i = some s') :
    Sound B D start run s' := by
  unfold Handshake.callRun at hs
  split at hs
  · split at hs
    · next reply r hcall =>
      cases hs
      refine h.afterCall hcall hc fun _ hw => .inr ?_
      rintro rfl
      exact hlook r (h.wants hw) hcall
    · cases hs
  · next hlive =>
    cases hs
    exact ⟨h, fun _ hl => absurd hl hlive⟩

theorem Sound.manage (h : Sound B D start run s) {i : LocalActivityManager.Input}
    (hi : isForeign s.host.runId i = true) :
    Sound B D start run (s.manage i) := by
  have hd : Delivers run (s.host.lam.reports i) s.host.lam (s.host.lam.process i) := by
    refine process_delivers h.ok.tracked ?_
    rintro req rfl
    simpa [isForeign, h.ok.runId] using hi
  have hs := h.toSteady.onHost (h.ok.process i) hd.none
  refine ⟨⟨hs.guarded, hs.asked, hs.wants⟩, fun hstale hlive hw => ?_⟩
  have hstale : (s.host.process i).stale = false := hstale
  have hfresh : s.host.stale = false := by
    simp only [Host.process, Bool.or_eq_false_iff] at hstale
    exact hstale.1
  rcases h.hears hfresh hlive hw with hu | hn | hr
  · rcases hd.kept (h.ok.fresh hfresh) hu with hu | hn | ⟨res, hres⟩
    · exact .inl hu
    · exact .inr (.inl hn)
    · refine .inr (.inr (List.append_ne_nil_of_right_ne_nil _ ?_))
      refine List.ne_nil_of_mem (List.mem_map_of_mem (List.mem_filter.mpr ⟨hres, ?_⟩))
      simp [h.ok.runId]
  · exact .inr (.inl (hd.notifications _ hn))
  · exact .inr (.inr (List.append_ne_nil_of_left_ne_nil hr _))

theorem Steady.takeNotification (h : Steady B D start run s) (j : Nat) : Steady B D start run (s.takeNotification j) :=
  h.onHost ⟨h.ok.runId, h.ok.tracked, h.ok.fresh, h.ok.lost⟩ id

theorem Sound.takeNotification (h : Sound B D start run s) {n : LocalActivityNotification}
    (hj : s.host.lam.workflowNotifications[j]? = some n) (hn : n ≠ .cancelProcessed run) :
    Sound B D start run (s.takeNotification j) := by
  refine ⟨h.toSteady.takeNotification j, fun hf hl hw => (h.hears hf hl hw).imp_right (.imp_left fun hmem => ?_)⟩
  rcases List.mem_cons.mp ((perm_cons_eraseIdx hj).subset hmem) with he | he
  · exact absurd he.symm hn
  · exact he

theorem Sound.notify (h : Sound B D start run s) (hs : s.notify B D start cfg fuel j = some s') :
    Sound B D start run s' := by
  unfold Handshake.notify at hs
  split at hs
  · cases hs
  · next runId hj =>
    split at hs
    · refine (h.toSteady.takeNotification j).callLooking rfl (fun r hw hcall => ?_) hs
      obtain ⟨act, r', hcall, he⟩ := Op.exec_bind_ok hcall
      cases he
      exact checkMoreActivations_withholds hw hcall
    · next hne =>
      cases hs
      refine h.takeNotification hj fun he => hne ?_
      cases he
      exact h.ok.runId.symm
  · next runId hj =>
    have ht := h.takeNotification hj nofun
    split at hs
    · exact ht.callRun rfl hs
    · cases hs
      exact ht

theorem Sound.resolve (h : Sound B D start run s) (hs : s.resolve B D start cfg fuel j = some s') :
    Sound B D start run s' := by
  unfold Handshake.resolve at hs
  split at hs
  · cases hs
  · have ht : Steady B D start run { s with resolutions := s.resolutions.eraseIdx j } := ⟨h.guarded, h.asked, h.wants⟩
    refine ht.callLooking rfl (fun r hw hcall => ?_) hs
    obtain ⟨act, r', hcall, he⟩ := Op.exec_bind_ok hcall
    cases he
    exact localResolution_withholds hw hcall

theorem Sound.create (h : Sound B D start run s) {n : Nat} {p : PermittedWFT} (hs : s.create B D start n p = some s') :
    Sound B D start run s' := by
  have hnew : Guarded (ops B D start) (Managers.Keep (Host.Ok run)) (s.newRun B D start n) :=
    ⟨⟨nofun, h.ok⟩, nofun⟩
  unfold Handshake.create at hs
  split at hs
  · cases hs
  · split at hs
    · next act r hcall =>
      have hg := (incomingWft_guards (Managers.upholds B (Host.upholds_ok D)) p rfl hnew).1
      rw [hcall] at hg
      cases hs
      refine ⟨⟨hg, nofun, fun hw => (Bool.and_eq_true _ _ ▸ hw : _ ∧ _).1⟩, fun _ _ hw => .inl ?_⟩
      have hrun : r.mgr.las.runId = run := hg.mgr.2.runId
      simp only [withholds, Bool.and_eq_true, Bool.or_eq_true, Bool.false_and, Bool.false_eq_true, or_false] at hw
      exact hasUndeliveredCancels_iff.mp (hrun ▸ hw.2)
    · cases hs

theorem Step.sound {i : Input} (hs : Step B D start cfg s i s') (h : Sound B D start run s) (hi : s.admits i = true) :
    Sound B D start run s' := by
  obtain ⟨fuel, hs⟩ := hs
  cases i with
  | call i => exact h.callRun hi hs
  | manager i =>
    cases hs
    exact h.manage hi
  | notify j => exact h.notify hs
  | resolve j => exact h.resolve hs
  | create n p => exact h.create hs

theorem init_sound : Sound B D start run (init B D start run) :=
  ⟨⟨⟨⟨nofun, rfl, tracked_init, fun _ => fresh_init, rfl⟩, nofun⟩, nofun, nofun⟩, nofun⟩

/-- **A run is never invalidated while a cancel of it is queued, and hears from the manager of local activities when it
withholds its eviction.** -/
theorem handshake_sound (h : Reach (Step B D start cfg) (fun s i => s.admits i = true) (· = init B D start run) s) :
    s.host.lost = false ∧ (s.host.stale = false → s.live = true → s.withheld = true → s.Hears run) := by
  have hs : Sound B D start run s := Reach.invariant (fun _ h => h ▸ init_sound) (fun _ _ _ h hi hs => hs.sound h hi) h
  exact ⟨hs.ok.lost, hs.hears⟩

/-! ## A workflow with local activities -/

/-- The local activities that lang scheduled, and those the manager was not told about. -/
structure Locals where
  queue : List Nat := []
  running : List Nat := []

/-- Machines with a job at the start and for each resolution. Every command schedules a local activity. -/
def locals : LawfulBehaviour Locals where
  receiveMessages s _ := s
  wftApplied s _ := s
  processMessages s _ _ := { inner := s }
  handleEvent s e _ _ _ := { inner := s, jobs := if e.eventType = .workflowExecutionStarted then [.other] else [] }
  peekEvents s _ := ({ inner := s }, [])
  handleProtocolMessage s _ := { inner := s }
  willAcceptResolveMarker _ _ := false
  hasLocalActivity s seq := s.running.contains seq
  tryResolveWithDat s _ := { inner := s }
  localResolution s res := { inner := { s with running := s.running.erase res.seq }, jobs := [.other] }
  encounteredNonReplayWft s := { inner := s }
  handleDrivenResult s c :=
    { inner := match c with
      | .other n => { queue := s.queue ++ [n], running := s.running ++ [n] }
      | _ => s }
  addTerminalCommand s _ := s
  handleCommand s _ := (s, none)
  resetLastStartedId s _ := s
  takeAllReqs s := (s.queue.map .new, { s with queue := [] })
  outstandingLaCount s := s.running.length
  hasCommands _ := false
  hasMessages _ := false
  hasTaskTimeout _ := true
  useMoveTerminalCommands _ := true
  jobs ρ h job hjob := by
    cases h with
    | handleEvent s e =>
      simp only at hjob
      split at hjob
      · cases List.mem_singleton.mp hjob
        rfl
      · cases hjob
    | localResolution =>
      cases List.mem_singleton.mp hjob
      rfl
    | _ => cases hjob
  requests s req hreq := by
    obtain ⟨seq, -, rfl⟩ := List.mem_map.mp hreq
    exact .new seq

def sampleScheduling : Scheduling where
  cmd _ seq := (sampleAct 1 seq (.scheduleOnly 100)).scheduleCmd
  deadline _ := 80

abbrev Sample : Handshake Locals → Prop :=
  Reach (Step locals sampleScheduling (fun _ _ => {}) {}) (fun s i => s.admits i = true)
    (· = init locals sampleScheduling (fun _ _ => {}) 1)

def schedules (n : Nat) : List Input :=
  [.create n (.ofStart 1 7 []), .call (.success [.other 1] none), .call (.postActivation .notReported false)]

def evicts : Input := .call (.requestEviction { reason := .cacheFull })

/-- The run is evicted while a request is queued, and asks again in the replay. The old request starts the attempt,
which is cancelled for another eviction, and the new one starts it again. It fails, is retried, and nobody tells the
run. -/
theorem eviction_withheld_unheard :
    ∃ s, Sample s ∧ s.live = true ∧ s.withheld = true ∧ ¬ s.Hears 1 ∧ s.host.lam.cancelsReqs = [] := by
  obtain ⟨s, hs, hlive, hw, hu, hn, hr, hc⟩ : ∃ s, Sample s ∧ s.live = true ∧ s.withheld = true ∧
      s.host.lam.hasUndeliveredCancels 1 = false ∧ s.host.lam.workflowNotifications = [] ∧ s.resolutions = [] ∧
      s.host.lam.cancelsReqs = [] :=
    Reach.exists_of_trace (schedules 0 ++ [evicts, .call (.success [] none), .call (.postActivation .dropWft false)] ++
      schedules 1 ++ [.manager (.nextPending (.request 0)), evicts, .manager (.nextPending (.request 0)),
        .manager (.complete 2 (.failed none)), .manager (.nextPending (.cancel 0))]) (by decide +kernel)
      (fun _ _ _ h => ⟨1, h⟩) (.start rfl)
  refine ⟨s, hs, hlive, hw, ?_, hc⟩
  rintro (h | h | h)
  · rw [hasUndeliveredCancels_iff.mpr h] at hu
    cases hu
  · rw [hn] at h
    cases h
  · exact h hr

/-- The run hears of a cancel that lang has. -/
theorem handshake_sound_delivered :
    ∃ s, Sample s ∧ s.host.stale = false ∧ s.live = true ∧ s.withheld = true ∧ s.Hears 1 := by
  obtain ⟨s, hs, hstale, hlive, hw⟩ : ∃ s, Sample s ∧ s.host.stale = false ∧ s.live = true ∧ s.withheld = true :=
    Reach.exists_of_trace (schedules 0 ++ [.manager (.nextPending (.request 0)), evicts,
      .manager (.nextPending (.cancel 0))])
      (by decide +kernel) (fun _ _ _ h => ⟨1, h⟩) (.start rfl)
  exact ⟨s, hs, hstale, hlive, hw, (handshake_sound hs).2 hstale hlive hw⟩

end Handshake

end SdkCore
