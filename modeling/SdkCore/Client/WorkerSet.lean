import SdkCore.Lib.Maps
import SdkCore.Lib.Op
import SdkCore.Lib.Reach
import Mathlib.Data.List.Perm.Basic

/-!
# The workers of a client

`slot_providers` lists the workers that may be given workflow tasks at once, by namespace and task queue, `all_workers`
has every worker until the end of its shutdown, and `shared_worker` the worker of a namespace that sends the heartbeats
of the others.
-/

namespace SdkCore

abbrev Uuid := Nat

/-- What a worker polls for. -/
structure WorkerTaskTypes where
  enableWorkflows : Bool
  enableLocalActivities : Bool
  enableRemoteActivities : Bool
  enableNexus : Bool
  deriving DecidableEq

namespace WorkerTaskTypes

def overlapsWith (a b : WorkerTaskTypes) : Bool :=
  (a.enableWorkflows && b.enableWorkflows) || (a.enableLocalActivities && b.enableLocalActivities) ||
    (a.enableRemoteActivities && b.enableRemoteActivities) || (a.enableNexus && b.enableNexus)

/-- As the source prints it for debugging. -/
def debug (t : WorkerTaskTypes) : String :=
  "WorkerTaskTypes \x7b enable_workflows: " ++ toString t.enableWorkflows ++ ", enable_local_activities: " ++
    toString t.enableLocalActivities ++ ", enable_remote_activities: " ++ toString t.enableRemoteActivities ++
    ", enable_nexus: " ++ toString t.enableNexus ++ " \x7d"

theorem overlapsWith_comm (a b : WorkerTaskTypes) : a.overlapsWith b = b.overlapsWith a := by
  simp only [overlapsWith, Bool.and_comm]

end WorkerTaskTypes

/-- The callbacks of one worker. The one for heartbeats is always there. -/
structure WorkerCallbacks where
  cancelActivity : Bool
  deriving DecidableEq

/-- The worker that sends heartbeats for a namespace. -/
structure SharedNamespaceWorker where
  callbacksMap : Maps.Map Uuid WorkerCallbacks
  cancelled : Bool

namespace SharedNamespaceWorker

def new : SharedNamespaceWorker := ⟨∅, false⟩

def registerCallback (w : SharedNamespaceWorker) (key : Uuid) (callbacks : WorkerCallbacks) : SharedNamespaceWorker :=
  { w with callbacksMap := w.callbacksMap.insert key callbacks }

/-- The callbacks that were removed, whether none are left, and the worker afterwards. -/
def unregisterCallback (w : SharedNamespaceWorker) (key : Uuid) :
    (Option WorkerCallbacks × Bool) × SharedNamespaceWorker :=
  let callbacksMap := w.callbacksMap.erase key
  ((w.callbacksMap.lookup key, callbacksMap.entries.isEmpty),
    ⟨callbacksMap, w.cancelled || callbacksMap.entries.isEmpty⟩)

end SharedNamespaceWorker

/-! ## The maps -/

structure SlotKey where
  namespaceName : String
  taskQueue : String
  deriving DecidableEq

def SlotKey.debug (k : SlotKey) : String :=
  "SlotKey \x7b namespace: " ++ k.namespaceName.quote ++ ", task_queue: " ++ k.taskQueue.quote ++ " \x7d"

structure RegisteredWorkerInfo where
  workerId : Uuid
  buildId : Option String
  taskTypes : WorkerTaskTypes
  deriving DecidableEq

/-- What a client reads of a worker. -/
structure ClientWorker where
  namespaceName : String
  taskQueue : String
  buildId : Option String
  workerTaskTypes : WorkerTaskTypes
  heartbeatEnabled : Bool
  heartbeatCallback : Bool
  cancelActivityCallback : Bool
  deriving DecidableEq

namespace ClientWorker

def slotKey (w : ClientWorker) : SlotKey := ⟨w.namespaceName, w.taskQueue⟩

def info (w : ClientWorker) (key : Uuid) : RegisteredWorkerInfo := ⟨key, w.buildId, w.workerTaskTypes⟩

def heartbeatsIn (w : ClientWorker) (ns : String) : Bool :=
  w.heartbeatEnabled && w.heartbeatCallback && w.namespaceName == ns

end ClientWorker

structure ClientWorkerSetImpl where
  slotProviders : Maps.Map SlotKey (List RegisteredWorkerInfo)
  allWorkers : Maps.Map Uuid ClientWorker
  sharedWorker : Maps.Map String SharedNamespaceWorker

structure SlotReservation where
  slot : Uuid
  deploymentOptions : Option String
  deriving DecidableEq

namespace ClientWorkerSetImpl

open Maps Op

def new : ClientWorkerSetImpl := ⟨∅, ∅, ∅⟩

def providers (s : ClientWorkerSetImpl) (key : SlotKey) : List RegisteredWorkerInfo :=
  (s.slotProviders.lookup key).getD []

/-- A slot of a worker that is listed for workflow tasks, in the order that `shuffle` gives. -/
def tryReserveWftSlot (shuffle : List RegisteredWorkerInfo → List RegisteredWorkerInfo) (grants : Uuid → Bool)
    (s : ClientWorkerSetImpl) (ns taskQueue : String) : Option SlotReservation :=
  (shuffle ((s.providers ⟨ns, taskQueue⟩).filter (·.taskTypes.enableWorkflows))).findSome? fun info =>
    match s.allWorkers.lookup info.workerId with
    | some worker => if grants info.workerId then some ⟨info.workerId, worker.buildId⟩ else none
    | none => none

def bailIf (b : Bool) (reason : String) : Op ClientWorkerSetImpl String Unit := if b then throw reason else pure ()

/-- A worker of the queue with the same build does the same. -/
def overlapping (s : ClientWorkerSetImpl) (worker : ClientWorker) : Bool :=
  (s.providers worker.slotKey).any fun existing =>
    existing.buildId == worker.buildId && worker.workerTaskTypes.overlapsWith existing.taskTypes

/-- The source prints the existing task types as the key, and the key as these. -/
def overlapMessage (key : Uuid) (worker : ClientWorker) (s : ClientWorkerSetImpl) : String :=
  let existing := (s.providers worker.slotKey).find? fun existing =>
    existing.buildId == worker.buildId && worker.workerTaskTypes.overlapsWith existing.taskTypes
  "Registration of multiple workers with overlapping worker task types on the same namespace, task queue, and " ++
    "deployment build ID not allowed: " ++ worker.slotKey.debug ++ ", worker_instance_key: " ++
    existing.elim "" (·.taskTypes.debug) ++ " build_id: " ++
    worker.buildId.elim "None" (fun id => "Some(" ++ id.quote ++ ")") ++ ", new task types: " ++
    worker.workerTaskTypes.debug ++ ", existing task types: " ++ toString key ++ "."

/-- The shared worker of the namespace, which is made if there is none. -/
def getSharedWorker (worker : ClientWorker) (newFails : Bool) :
    Op ClientWorkerSetImpl String SharedNamespaceWorker := do
  match (← get).sharedWorker.lookup worker.namespaceName with
  | some shared => pure shared
  | none =>
    if newFails then throw "Shared namespace worker creation failed"
    else
      modify fun s => { s with sharedWorker := s.sharedWorker.insert worker.namespaceName .new }
      pure .new

/-- The callbacks of a worker with heartbeats. -/
def registerCallbacks (key : Uuid) (worker : ClientWorker) (newFails : Bool) : Op ClientWorkerSetImpl String Unit :=
  if worker.heartbeatEnabled && worker.heartbeatCallback then do
    let shared ← getSharedWorker worker newFails
    modify fun s => { s with
      sharedWorker := s.sharedWorker.insert worker.namespaceName
        (shared.registerCallback key ⟨worker.cancelActivityCallback⟩) }
  else pure ()

def list (key : Uuid) (worker : ClientWorker) (s : ClientWorkerSetImpl) : ClientWorkerSetImpl :=
  { s with
    slotProviders := s.slotProviders.insert worker.slotKey (s.providers worker.slotKey ++ [worker.info key])
    allWorkers := s.allWorkers.insert key worker }

/-- Registers a worker; `newFails` says that a shared worker could not be made. -/
def register (key : Uuid) (worker : ClientWorker) (skipClientWorkerSetCheck newFails : Bool) :
    Op ClientWorkerSetImpl String Unit := do
  let types := worker.workerTaskTypes
  bailIf (!types.enableWorkflows && !types.enableLocalActivities && !types.enableRemoteActivities && !types.enableNexus)
    "Worker must have at least one capability enabled (workflows, activities, or nexus)"
  bailIf (!types.enableWorkflows && types.enableLocalActivities) "Local activities cannot be enabled without workflows"
  let s ← get
  bailIf (!skipClientWorkerSetCheck && s.overlapping worker) (overlapMessage key worker s)
  registerCallbacks key worker newFails
  modify (list key worker)

/-- The list without the worker, and no list if it is empty. -/
def unlist (key : Uuid) (worker : ClientWorker) (s : ClientWorkerSetImpl) : ClientWorkerSetImpl :=
  match s.slotProviders.lookup worker.slotKey with
  | none => s
  | some infos =>
    let rest := infos.filter (·.workerId != key)
    { s with
      slotProviders :=
        if rest.isEmpty then s.slotProviders.erase worker.slotKey else s.slotProviders.insert worker.slotKey rest }

def unregisterSlotProvider (key : Uuid) : Op ClientWorkerSetImpl String Unit := do
  match (← get).allWorkers.lookup key with
  | none => throw "Worker not in all_workers during slot provider unregister"
  | some worker => modify (unlist key worker)

/-- The callbacks of the worker go, and its shared worker with the last of them. -/
def dropCallbacks (key : Uuid) (worker : ClientWorker) (s : ClientWorkerSetImpl) : ClientWorkerSetImpl :=
  match s.sharedWorker.lookup worker.namespaceName with
  | none => s
  | some shared =>
    let ((callback, isEmpty), shared) := shared.unregisterCallback key
    { s with
      sharedWorker :=
        if callback.isSome && isEmpty then s.sharedWorker.erase worker.namespaceName
        else s.sharedWorker.insert worker.namespaceName shared }

def finalizeUnregister (key : Uuid) : Op ClientWorkerSetImpl String ClientWorker := do
  let s ← get
  match s.allWorkers.lookup key with
  | none => throw "Worker not found in all_workers"
  | some worker =>
    if (s.providers worker.slotKey).any (·.workerId == key) then throw "Worker still in slot_providers during finalize"
    else
      modify fun s => dropCallbacks key worker { s with allWorkers := s.allWorkers.erase key }
      pure worker

/-! ## What the calls do -/

section

variable {key : Uuid} {worker : ClientWorker} {newFails : Bool} {s s' : ClientWorkerSetImpl}

/-- What registering the callbacks leaves. -/
def withCallbacks (key : Uuid) (worker : ClientWorker) (s : ClientWorkerSetImpl) : ClientWorkerSetImpl :=
  if worker.heartbeatEnabled && worker.heartbeatCallback then
    { s with
      sharedWorker := s.sharedWorker.insert worker.namespaceName
        (((s.sharedWorker.lookup worker.namespaceName).getD .new).registerCallback key
          ⟨worker.cancelActivityCallback⟩) }
  else s

theorem exec_bailIf_bind {α : Type} (b : Bool) (reason : String) (f : Unit → Op ClientWorkerSetImpl String α)
    (s : ClientWorkerSetImpl) :
    exec (bailIf b reason >>= f) s = if b then (.error reason, s) else exec (f ()) s := by
  cases b <;> rfl

theorem exec_getSharedWorker (worker : ClientWorker) (newFails : Bool) (s : ClientWorkerSetImpl) :
    (∃ e, exec (getSharedWorker worker newFails) s = (.error e, s)) ∨
    ∃ s', exec (getSharedWorker worker newFails) s =
      (.ok ((s.sharedWorker.lookup worker.namespaceName).getD .new), s') ∧
      ∀ shared, { s' with sharedWorker := s'.sharedWorker.insert worker.namespaceName shared } =
        { s with sharedWorker := s.sharedWorker.insert worker.namespaceName shared } := by
  rw [getSharedWorker, exec_get_bind]
  cases s.sharedWorker.lookup worker.namespaceName with
  | some shared => exact .inr ⟨s, rfl, fun _ => rfl⟩
  | none =>
    cases newFails with
    | true => exact .inl ⟨_, rfl⟩
    | false =>
      refine .inr ⟨_, rfl, fun shared => ?_⟩
      simp

theorem exec_registerCallbacks (key : Uuid) (worker : ClientWorker) (newFails : Bool) (s : ClientWorkerSetImpl) :
    (∃ e, exec (registerCallbacks key worker newFails) s = (.error e, s)) ∨
    exec (registerCallbacks key worker newFails) s = (.ok (), withCallbacks key worker s) := by
  rw [registerCallbacks, withCallbacks]
  split
  · rw [exec_bind]
    obtain ⟨e, he⟩ | ⟨s', hs', hi⟩ := exec_getSharedWorker worker newFails s
    · exact .inl ⟨e, by rw [he]; rfl⟩
    · rw [hs', andThen_ok, exec_modify, hi]
      exact .inr rfl
  · exact .inr rfl

/-- The worker can do something and no other does the same where this is checked, or nothing happens. -/
theorem exec_register (key : Uuid) (worker : ClientWorker) (skip newFails : Bool) (s : ClientWorkerSetImpl) :
    (∃ e, exec (register key worker skip newFails) s = (.error e, s)) ∨
    (worker.workerTaskTypes.overlapsWith worker.workerTaskTypes = true ∧ (skip = false → s.overlapping worker = false) ∧
      exec (register key worker skip newFails) s = (.ok (), list key worker (withCallbacks key worker s))) := by
  simp only [register, exec_bailIf_bind]
  split
  · exact .inl ⟨_, rfl⟩
  next hcap =>
  split
  · exact .inl ⟨_, rfl⟩
  rw [exec_get_bind, exec_bailIf_bind]
  split
  · exact .inl ⟨_, rfl⟩
  next hov =>
  rw [exec_bind]
  obtain ⟨e, he⟩ | hok := exec_registerCallbacks key worker newFails s
  · exact .inl ⟨e, by rw [he]; rfl⟩
  · rw [hok, andThen_ok]
    refine .inr ⟨?_, ?_, rfl⟩
    · simpa [WorkerTaskTypes.overlapsWith, imp_iff_not_or, or_assoc] using hcap
    · simpa using hov

/-- A worker that is known is unlisted. -/
theorem exec_unregisterSlotProvider (key : Uuid) (s : ClientWorkerSetImpl) :
    (s.allWorkers.lookup key = none ∧ ∃ e, exec (unregisterSlotProvider key) s = (.error e, s)) ∨
    ∃ worker, s.allWorkers.lookup key = some worker ∧
      exec (unregisterSlotProvider key) s = (.ok (), unlist key worker s) := by
  rw [unregisterSlotProvider, exec_get_bind]
  cases s.allWorkers.lookup key with
  | none => exact .inl ⟨rfl, _, rfl⟩
  | some worker => exact .inr ⟨worker, rfl, rfl⟩

/-- A worker that is not listed is forgotten, with its callbacks. -/
theorem exec_finalizeUnregister (key : Uuid) (s : ClientWorkerSetImpl) :
    (∃ e, exec (finalizeUnregister key) s = (.error e, s)) ∨
    ∃ worker, s.allWorkers.lookup key = some worker ∧ (∀ info ∈ s.providers worker.slotKey, info.workerId ≠ key) ∧
      exec (finalizeUnregister key) s =
        (.ok worker, dropCallbacks key worker { s with allWorkers := s.allWorkers.erase key }) := by
  rw [finalizeUnregister, exec_get_bind]
  cases s.allWorkers.lookup key with
  | none => exact .inl ⟨_, rfl⟩
  | some worker =>
    cases h : (s.providers worker.slotKey).any (·.workerId == key) with
    | true => exact .inl ⟨_, by simp only [h]; rfl⟩
    | false => exact .inr ⟨worker, rfl, by simpa using h, by simp only [h]; rfl⟩

/-- A slot comes from a worker that is listed. -/
theorem tryReserveWftSlot_listed {shuffle : List RegisteredWorkerInfo → List RegisteredWorkerInfo}
    (hsh : ∀ l, (shuffle l).Perm l) {grants : Uuid → Bool} {ns taskQueue : String} {r : SlotReservation}
    (h : s.tryReserveWftSlot shuffle grants ns taskQueue = some r) :
    ∃ info ∈ s.providers ⟨ns, taskQueue⟩, info.taskTypes.enableWorkflows = true ∧ grants info.workerId = true ∧
      info.workerId = r.slot := by
  obtain ⟨info, hi, hr⟩ := List.exists_of_findSome?_eq_some h
  obtain ⟨hmem, hwf⟩ := List.mem_filter.mp ((hsh _).mem_iff.mp hi)
  refine ⟨info, hmem, hwf, ?_⟩
  split at hr
  · split at hr
    · next hg =>
      cases hr
      exact ⟨hg, rfl⟩
    · cases hr
  · cases hr

/-! ## What is in the maps afterwards -/

theorem providers_list (key : Uuid) (worker : ClientWorker) (s : ClientWorkerSetImpl) (k : SlotKey) :
    (list key worker s).providers k =
      if k = worker.slotKey then s.providers k ++ [worker.info key] else s.providers k := by
  simp only [list, providers, lookup_insert_ite]
  split
  · next h => rw [h]; rfl
  · rfl

theorem lookup_list_ne_nil (h : ∀ k, s.slotProviders.lookup k ≠ some []) (k : SlotKey) :
    (list key worker s).slotProviders.lookup k ≠ some [] := by
  simp only [list, lookup_insert_ite]
  split
  · simp
  · exact h k

/-- A list that gets empty is removed. -/
theorem lookup_unlist (key : Uuid) (worker : ClientWorker) (s : ClientWorkerSetImpl) (k : SlotKey) :
    (unlist key worker s).slotProviders.lookup k =
      if k = worker.slotKey then
        ((s.slotProviders.lookup k).map (List.filter (·.workerId != key))).filter (!·.isEmpty)
      else s.slotProviders.lookup k := by
  unfold unlist
  cases h : s.slotProviders.lookup worker.slotKey with
  | none =>
    simp only
    split
    · next hk =>
      subst hk
      simp [h]
    · rfl
  | some infos =>
    cases hr : (infos.filter (·.workerId != key)).isEmpty with
    | true =>
      simp only [hr, if_true, lookup_erase_ite]
      split
      · next hk => rw [hk, h, Option.map_some, Option.filter_some_neg (by simp [hr])]
      · rfl
    | false =>
      simp only [hr, Bool.false_eq_true, if_false, lookup_insert_ite]
      split
      · next hk => rw [hk, h, Option.map_some, Option.filter_some_pos (by simp [hr])]
      · rfl

theorem providers_unlist (key : Uuid) (worker : ClientWorker) (s : ClientWorkerSetImpl) (k : SlotKey) :
    (unlist key worker s).providers k =
      if k = worker.slotKey then (s.providers k).filter (·.workerId != key) else s.providers k := by
  simp only [providers, lookup_unlist]
  split
  · cases s.slotProviders.lookup k with
    | none => rfl
    | some infos =>
      rw [Option.map_some, Option.filter_some]
      split
      · rfl
      · next h => simpa using h
  · rfl

theorem lookup_unlist_ne_nil (h : ∀ k, s.slotProviders.lookup k ≠ some []) (k : SlotKey) :
    (unlist key worker s).slotProviders.lookup k ≠ some [] := by
  rw [lookup_unlist]
  split
  · simp
  · exact h k

/-- The shared worker has callbacks of the worker. -/
def hears (s : ClientWorkerSetImpl) (ns : String) (key : Uuid) : Bool :=
  match s.sharedWorker.lookup ns with
  | some shared => (shared.callbacksMap.lookup key).isSome
  | none => false

/-- A shared worker runs as long as it is in the map, and has someone to run for. -/
def Serving (s : ClientWorkerSetImpl) : Prop :=
  ∀ ns shared, s.sharedWorker.lookup ns = some shared →
    shared.cancelled = false ∧ ∃ key, (shared.callbacksMap.lookup key).isSome = true

/-- Who is heard with one more worker. -/
theorem hears_withCallbacks (key : Uuid) (worker : ClientWorker) (s : ClientWorkerSetImpl) (ns : String) (k : Uuid) :
    (withCallbacks key worker s).hears ns k = (s.hears ns k || (k == key && worker.heartbeatsIn ns)) := by
  rw [withCallbacks, ClientWorker.heartbeatsIn]
  cases worker.heartbeatEnabled && worker.heartbeatCallback with
  | false => simp
  | true =>
    simp only [if_true, hears, lookup_insert_ite]
    by_cases hns : ns = worker.namespaceName
    · subst hns
      simp only [if_true, SharedNamespaceWorker.registerCallback, lookup_insert_ite]
      by_cases hk : k = key
      · simp [hk]
      · cases s.sharedWorker.lookup worker.namespaceName with
        | none => simp [hk, SharedNamespaceWorker.new]
        | some shared => simp [hk]
    · simp [hns, Ne.symm hns]

theorem serving_withCallbacks (h : Serving s) : Serving (withCallbacks key worker s) := by
  rw [withCallbacks]
  split
  · intro ns shared hs
    rw [lookup_insert_ite] at hs
    split at hs
    · cases hs
      refine ⟨?_, key, by simp [SharedNamespaceWorker.registerCallback]⟩
      cases hl : s.sharedWorker.lookup worker.namespaceName with
      | none => rfl
      | some old => exact (h _ _ hl).1
    · exact h ns shared hs
  · exact h

/-- The shared worker without a worker's callbacks. -/
def remaining (key : Uuid) (shared : SharedNamespaceWorker) : Option SharedNamespaceWorker :=
  if (shared.unregisterCallback key).1.1.isSome && (shared.unregisterCallback key).1.2 then none
  else some (shared.unregisterCallback key).2

theorem lookup_dropCallbacks (key : Uuid) (worker : ClientWorker) (s : ClientWorkerSetImpl) (ns : String) :
    (dropCallbacks key worker s).sharedWorker.lookup ns =
      if ns = worker.namespaceName then (s.sharedWorker.lookup ns).bind (remaining key)
      else s.sharedWorker.lookup ns := by
  unfold dropCallbacks
  cases h : s.sharedWorker.lookup worker.namespaceName with
  | none =>
    simp only
    split
    · next hns =>
      subst hns
      simp [h]
    · rfl
  | some shared =>
    simp only
    cases hr : (shared.unregisterCallback key).1.1.isSome && (shared.unregisterCallback key).1.2 with
    | true =>
      by_cases hns : ns = worker.namespaceName
      · subst hns
        simp [h, remaining, hr]
      · simp [hns, AList.lookup_erase_ne hns]
    | false =>
      by_cases hns : ns = worker.namespaceName
      · subst hns
        simp [h, remaining, hr]
      · simp [hns, AList.lookup_insert_ne hns]

theorem remaining_eq (key : Uuid) {shared : SharedNamespaceWorker}
    (h : ∃ k, (shared.callbacksMap.lookup k).isSome = true) :
    remaining key shared =
      if (shared.callbacksMap.erase key).entries.isEmpty then none
      else some ⟨shared.callbacksMap.erase key, shared.cancelled⟩ := by
  rw [remaining, SharedNamespaceWorker.unregisterCallback]
  cases he : (shared.callbacksMap.erase key).entries.isEmpty with
  | false => simp
  | true =>
    -- none are left, so the callbacks that there were are those of the worker
    obtain ⟨k, hk⟩ := h
    have hno := Maps.isEmpty_iff.mp he k
    rw [lookup_erase_ite] at hno
    split at hno
    · next hkk =>
      subst hkk
      simp [hk]
    · simp [hno] at hk

theorem hears_dropCallbacks (hs : Serving s) (key : Uuid) (worker : ClientWorker) (ns : String) (k : Uuid) :
    (dropCallbacks key worker s).hears ns k = (s.hears ns k && !(k == key && worker.namespaceName == ns)) := by
  rw [hears, hears, lookup_dropCallbacks]
  by_cases hns : ns = worker.namespaceName
  · cases hl : s.sharedWorker.lookup ns with
    | none => simp
    | some shared =>
      rw [if_pos hns, Option.bind_some, remaining_eq key (hs _ _ hl).2]
      cases he : (shared.callbacksMap.erase key).entries.isEmpty with
      | false =>
        simp only [Bool.false_eq_true, if_false, lookup_erase_ite]
        by_cases hk : k = key <;> simp [hk, hns]
      | true =>
        have hno := Maps.isEmpty_iff.mp he k
        by_cases hk : k = key
        · simp [hk, hns]
        · rw [AList.lookup_erase_ne hk] at hno
          simp [hno]
  · simp [hns, Ne.symm hns]

theorem serving_dropCallbacks (h : Serving s) : Serving (dropCallbacks key worker s) := by
  intro ns shared hl
  rw [lookup_dropCallbacks] at hl
  split at hl
  · obtain ⟨old, ho, hr⟩ := Option.bind_eq_some_iff.mp hl
    rw [remaining_eq key (h _ _ ho).2] at hr
    split at hr
    · cases hr
    · next he =>
      cases hr
      rw [Maps.isEmpty_iff, not_forall] at he
      obtain ⟨k, hk⟩ := he
      exact ⟨(h _ _ ho).1, k, Option.isSome_iff_ne_none.mpr hk⟩
  · exact h ns shared hl

@[simp] theorem slotProviders_withCallbacks : (withCallbacks key worker s).slotProviders = s.slotProviders := by
  rw [withCallbacks]
  split <;> rfl

@[simp] theorem allWorkers_withCallbacks : (withCallbacks key worker s).allWorkers = s.allWorkers := by
  rw [withCallbacks]
  split <;> rfl

@[simp] theorem providers_withCallbacks (k : SlotKey) : (withCallbacks key worker s).providers k = s.providers k := by
  rw [providers, slotProviders_withCallbacks, providers]

@[simp] theorem allWorkers_unlist : (unlist key worker s).allWorkers = s.allWorkers := by
  rw [unlist]
  split <;> rfl

@[simp] theorem sharedWorker_unlist : (unlist key worker s).sharedWorker = s.sharedWorker := by
  rw [unlist]
  split <;> rfl

@[simp] theorem slotProviders_dropCallbacks : (dropCallbacks key worker s).slotProviders = s.slotProviders := by
  rw [dropCallbacks]
  split <;> rfl

@[simp] theorem providers_dropCallbacks (k : SlotKey) : (dropCallbacks key worker s).providers k = s.providers k := by
  rw [providers, slotProviders_dropCallbacks, providers]

@[simp] theorem allWorkers_dropCallbacks : (dropCallbacks key worker s).allWorkers = s.allWorkers := by
  rw [dropCallbacks]
  split <;> rfl

end

end ClientWorkerSetImpl

end SdkCore
