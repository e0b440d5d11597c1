import SdkCore.Client.WorkerSet

/-!
# The registry of workers stays consistent

Workers are registered, give up their slots and are finalized in any order, and calls may fail (`registry_consistent`).
`log` records what succeeded.
-/

namespace SdkCore.ClientWorkerSet

open Maps Op ClientWorkerSetImpl

/-! ## Calls -/

inductive Call
  | register (key : Uuid) (newFails : Bool)
  | unregisterSlotProvider (key : Uuid)
  | finalizeUnregister (key : Uuid)
  deriving DecidableEq

inductive Event
  | registered (key : Uuid)
  | finalized (key : Uuid)
  deriving DecidableEq

/-- The worker was registered, and has not been finalized since. -/
def notFinalized : List Event → Uuid → Bool
  | [], _ => false
  | .registered k :: log, key => key == k || notFinalized log key
  | .finalized k :: log, key => key != k && notFinalized log key

structure Registry where
  maps : ClientWorkerSetImpl
  log : List Event

def Registry.new : Registry := ⟨.new, []⟩

section

variable (workers : Uuid → ClientWorker)

def Call.run : Call → Op ClientWorkerSetImpl String Unit
  | .register key newFails => ClientWorkerSetImpl.register key (workers key) false newFails
  | .unregisterSlotProvider key => ClientWorkerSetImpl.unregisterSlotProvider key
  | .finalizeUnregister key => do let _ ← ClientWorkerSetImpl.finalizeUnregister key

def Call.events : Call → List Event
  | .register key _ => [.registered key]
  | .unregisterSlotProvider _ => []
  | .finalizeUnregister key => [.finalized key]

/-- One call. A call that fails is not recorded. -/
def call (s : Registry) (c : Call) : Registry :=
  match exec (c.run workers) s.maps with
  | (.ok _, maps) => ⟨maps, c.events ++ s.log⟩
  | (.error _, maps) => ⟨maps, s.log⟩

abbrev Reachable : Registry → Prop :=
  Reach (fun s c s' => s' = call workers s c) (fun _ _ => True) (· = .new)

/-- Two workers of one queue do not do the same. -/
def Compatible (a b : RegisteredWorkerInfo) : Prop :=
  a.buildId = b.buildId → a.taskTypes.overlapsWith b.taskTypes = false

/-- The maps agree with the record. -/
structure Inv (s : Registry) : Prop where
  known : ∀ key worker, s.maps.allWorkers.lookup key = some worker → worker = workers key
  live : ∀ key, (s.maps.allWorkers.lookup key).isSome = notFinalized s.log key
  nonempty : ∀ k, s.maps.slotProviders.lookup k ≠ some []
  listed : ∀ k, ∀ info ∈ s.maps.providers k, notFinalized s.log info.workerId = true ∧
    k = (workers info.workerId).slotKey ∧ info = (workers info.workerId).info info.workerId
  compatible : ∀ k, (s.maps.providers k).Pairwise Compatible
  hears : ∀ ns key, s.maps.hears ns key = (notFinalized s.log key && (workers key).heartbeatsIn ns)
  serving : s.maps.Serving

variable {workers} {s : Registry}

theorem inv_new : Inv workers .new where
  known _ _ h := by cases h
  live _ := rfl
  nonempty _ h := by cases h
  listed _ _ h := by cases h
  compatible _ := .nil
  hears _ _ := rfl
  serving _ _ h := by cases h

/-- A worker that overlaps with no other may be registered. -/
theorem inv_register (h : Inv workers s) (key : Uuid) (ho : s.maps.overlapping (workers key) = false) :
    Inv workers ⟨list key (workers key) (withCallbacks key (workers key) s.maps), .registered key :: s.log⟩ where
  known k w hk := by
    simp only [list, allWorkers_withCallbacks, lookup_insert_ite] at hk
    split at hk
    · next hkk => cases hk; rw [hkk]
    · exact h.known k w hk
  live k := by
    simp only [list, allWorkers_withCallbacks, lookup_insert_ite, notFinalized, ← h.live]
    by_cases hk : k = key <;> simp [hk]
  nonempty := lookup_list_ne_nil (by simpa using h.nonempty)
  listed k info hi := by
    have hold : info ∈ s.maps.providers k → _ := h.listed k info
    rw [providers_list, providers_withCallbacks] at hi
    split at hi
    · next hk =>
      rcases List.mem_append.mp hi with hi | hi
      · simpa [notFinalized] using ⟨.inr (hold hi).1, (hold hi).2⟩
      · cases List.mem_singleton.mp hi
        exact ⟨by simp [notFinalized, ClientWorker.info], hk, rfl⟩
    · simpa [notFinalized] using ⟨.inr (hold hi).1, (hold hi).2⟩
  compatible k := by
    rw [providers_list, providers_withCallbacks]
    split
    · next hk =>
      refine List.pairwise_append.mpr ⟨h.compatible k, List.pairwise_singleton _ _, ?_⟩
      intro a ha b hb
      cases List.mem_singleton.mp hb
      rw [overlapping, ← hk, List.any_eq_false] at ho
      intro hbuild
      rw [WorkerTaskTypes.overlapsWith_comm]
      show (workers key).workerTaskTypes.overlapsWith a.taskTypes = false
      simpa [show a.buildId = (workers key).buildId from hbuild] using ho a ha
    · exact h.compatible k
  hears ns k := by
    show (withCallbacks key (workers key) s.maps).hears ns k = _
    rw [hears_withCallbacks, h.hears, notFinalized]
    by_cases hk : k = key
    · subst hk
      cases (workers k).heartbeatsIn ns <;> simp
    · rw [beq_eq_false_iff_ne.mpr hk, Bool.false_and, Bool.or_false, Bool.false_or]
  serving := serving_withCallbacks h.serving

/-- A worker may give up its slots at any time. -/
theorem inv_unregisterSlotProvider (h : Inv workers s) (key : Uuid) (worker : ClientWorker) :
    Inv workers ⟨unlist key worker s.maps, s.log⟩ where
  known := by simpa using h.known
  live := by simpa using h.live
  nonempty := lookup_unlist_ne_nil h.nonempty
  listed k info hi := by
    rw [providers_unlist] at hi
    split at hi
    · exact h.listed k info (List.mem_filter.mp hi).1
    · exact h.listed k info hi
  compatible k := by
    rw [providers_unlist]
    split
    · exact (h.compatible k).filter _
    · exact h.compatible k
  hears ns k := by simpa [ClientWorkerSetImpl.hears] using h.hears ns k
  serving := by simpa [Serving] using h.serving

/-- A worker that is not listed any more may go. -/
theorem inv_finalizeUnregister (h : Inv workers s) (key : Uuid)
    (hl : ∀ info ∈ s.maps.providers (workers key).slotKey, info.workerId ≠ key) :
    Inv workers
      ⟨dropCallbacks key (workers key) { s.maps with allWorkers := s.maps.allWorkers.erase key },
        .finalized key :: s.log⟩ where
  known k w hk := by
    rw [allWorkers_dropCallbacks] at hk
    exact h.known k w (lookup_of_erase hk).2
  live k := by
    simp only [allWorkers_dropCallbacks, lookup_erase_ite, notFinalized, ← h.live]
    by_cases hk : k = key <;> simp [hk]
  nonempty := by simpa using h.nonempty
  listed k info hi := by
    rw [providers_dropCallbacks] at hi
    obtain ⟨hlive, hk, hinfo⟩ := h.listed k info hi
    have hne : info.workerId ≠ key := by
      intro he
      rw [he] at hk
      exact hl info (hk ▸ hi) he
    exact ⟨by simp [notFinalized, hne, hlive], hk, hinfo⟩
  compatible k := by
    rw [providers_dropCallbacks]
    exact h.compatible k
  hears ns k := by
    refine (hears_dropCallbacks (s := { s.maps with allWorkers := s.maps.allWorkers.erase key }) h.serving key
      (workers key) ns k).trans ?_
    show (s.maps.hears ns k && _) = _
    rw [h.hears, notFinalized]
    by_cases hk : k = key
    · subst hk
      simp [ClientWorker.heartbeatsIn]
    · rw [bne, beq_eq_false_iff_ne.mpr hk, Bool.false_and, Bool.not_false, Bool.and_true, Bool.true_and]
  serving := serving_dropCallbacks h.serving

/-- A call keeps the invariant, and changes nothing if it fails. -/
theorem call_spec (h : Inv workers s) (c : Call) :
    Inv workers (call workers s c) ∧ ∀ e maps, exec (c.run workers) s.maps = (.error e, maps) → maps = s.maps := by
  cases c with
  | register key newFails =>
    rw [call, Call.run]
    obtain ⟨e, he⟩ | ⟨-, ho, hok⟩ := exec_register key (workers key) false newFails s.maps
    · rw [he]
      exact ⟨h, fun _ _ h' => by cases h'; rfl⟩
    · rw [hok]
      exact ⟨inv_register h key (ho rfl), fun _ _ h' => by cases h'⟩
  | unregisterSlotProvider key =>
    rw [call, Call.run]
    obtain ⟨-, e, he⟩ | ⟨worker, -, hok⟩ := exec_unregisterSlotProvider key s.maps
    · rw [he]
      exact ⟨h, fun _ _ h' => by cases h'; rfl⟩
    · rw [hok]
      exact ⟨inv_unregisterSlotProvider h key worker, fun _ _ h' => by cases h'⟩
  | finalizeUnregister key =>
    rw [call, Call.run, exec_bind]
    obtain ⟨e, he⟩ | ⟨worker, hw, hl, hok⟩ := exec_finalizeUnregister key s.maps
    · rw [he]
      exact ⟨h, fun _ _ h' => by cases h'; rfl⟩
    · rw [hok]
      cases h.known key worker hw
      exact ⟨inv_finalizeUnregister h key hl, fun _ _ h' => by cases h'⟩

theorem reachable_calls (cs : List Call) {s : Registry} (h : Reachable workers s) :
    Reachable workers (cs.foldl (call workers) s) := by
  induction cs generalizing s with
  | nil => exact h
  | cons c cs ih => exact ih (.step h trivial rfl)

theorem reachable_inv (h : Reachable workers s) : Inv workers s :=
  h.invariant (fun _ hs => hs ▸ inv_new) fun _ c _ hi _ hs => hs ▸ (call_spec hi c).1

/-! ## What holds of the registry -/

/-- Eager workflow start finds a slot iff a worker listed for workflow tasks grants one. -/
theorem tryReserveWftSlot_isSome_iff (h : Inv workers s)
    {shuffle : List RegisteredWorkerInfo → List RegisteredWorkerInfo} (hsh : ∀ l, (shuffle l).Perm l)
    (grants : Uuid → Bool) (ns taskQueue : String) :
    (s.maps.tryReserveWftSlot shuffle grants ns taskQueue).isSome = true ↔
      ∃ info ∈ s.maps.providers ⟨ns, taskQueue⟩, info.taskTypes.enableWorkflows = true ∧
        grants info.workerId = true := by
  constructor
  · intro hs
    obtain ⟨r, hr⟩ := Option.isSome_iff_exists.mp hs
    obtain ⟨info, hi, hwf, hg, -⟩ := tryReserveWftSlot_listed hsh hr
    exact ⟨info, hi, hwf, hg⟩
  · rintro ⟨info, hi, hwf, hg⟩
    rw [tryReserveWftSlot, List.findSome?_isSome_iff]
    refine ⟨info, (hsh _).mem_iff.mpr (List.mem_filter.mpr ⟨hi, hwf⟩), ?_⟩
    have hlive := (h.listed _ info hi).1
    rw [← h.live] at hlive
    obtain ⟨worker, hw⟩ := Option.isSome_iff_exists.mp hlive
    simp [hw, hg]

/-- The maps agree with each other and with what was called. -/
structure Consistent (workers : Uuid → ClientWorker) (s : Registry) : Prop where
  /-- Who is listed is registered and belongs there, and no list is empty. -/
  listed : ∀ k infos, s.maps.slotProviders.lookup k = some infos →
    infos ≠ [] ∧ ∀ info ∈ infos, ∃ worker, s.maps.allWorkers.lookup info.workerId = some worker ∧ worker.slotKey = k
  /-- Workers that are listed together and have the same build id have no task type in common. -/
  compatible : ∀ k infos, s.maps.slotProviders.lookup k = some infos → infos.Pairwise Compatible
  /-- A namespace has a shared worker while a worker with heartbeats has not been finalized. -/
  shared : ∀ ns, (s.maps.sharedWorker.lookup ns).isSome = true ↔
    ∃ key, notFinalized s.log key = true ∧ (workers key).heartbeatsIn ns = true
  running : ∀ ns shared, s.maps.sharedWorker.lookup ns = some shared → shared.cancelled = false
  failing : ∀ (c : Call) e maps, exec (c.run workers) s.maps = (.error e, maps) → maps = s.maps
  reserving : ∀ shuffle : List RegisteredWorkerInfo → List RegisteredWorkerInfo, (∀ l, (shuffle l).Perm l) →
    ∀ grants ns taskQueue, (s.maps.tryReserveWftSlot shuffle grants ns taskQueue).isSome = true ↔
      ∃ info ∈ s.maps.providers ⟨ns, taskQueue⟩, info.taskTypes.enableWorkflows = true ∧ grants info.workerId = true

/-- A namespace has a shared worker iff a worker there has heartbeats. -/
theorem Inv.shared_iff (h : Inv workers s) (ns : String) :
    (s.maps.sharedWorker.lookup ns).isSome = true ↔
      ∃ key, notFinalized s.log key = true ∧ (workers key).heartbeatsIn ns = true := by
  constructor
  · intro hs
    obtain ⟨shared, hl⟩ := Option.isSome_iff_exists.mp hs
    obtain ⟨key, hk⟩ := (h.serving ns shared hl).2
    have hh := h.hears ns key
    rw [ClientWorkerSetImpl.hears, hl] at hh
    exact ⟨key, by simpa using hh.symm.trans hk⟩
  · rintro ⟨key, hn, hb⟩
    have hh := h.hears ns key
    rw [hn, hb, ClientWorkerSetImpl.hears] at hh
    split at hh
    · next hl => rw [hl]; rfl
    · cases hh

/-- **Whatever is called, the maps of a client stay consistent.** -/
theorem registry_consistent (h : Reachable workers s) : Consistent workers s where
  listed k infos hl := by
    have hi := reachable_inv h
    have hp : s.maps.providers k = infos := by rw [providers, hl, Option.getD_some]
    refine ⟨fun he => hi.nonempty k (he ▸ hl), fun info hmem => ?_⟩
    obtain ⟨hlive, hk, -⟩ := hi.listed k info (hp ▸ hmem)
    rw [← hi.live] at hlive
    obtain ⟨worker, hw⟩ := Option.isSome_iff_exists.mp hlive
    exact ⟨worker, hw, by rw [hi.known _ _ hw, hk]⟩
  compatible k infos hl := by
    have hc := (reachable_inv h).compatible k
    rwa [providers, hl] at hc
  shared := (reachable_inv h).shared_iff
  running ns shared hl := ((reachable_inv h).serving ns shared hl).1
  failing c := (call_spec (reachable_inv h) c).2
  reserving _ hsh := tryReserveWftSlot_isSome_iff (reachable_inv h) hsh

end

/-- Three workers of one queue with heartbeats. The second one does what the first does. -/
def queueWorkers (key : Uuid) : ClientWorker :=
  ⟨"n", "q", none, if key = 3 then ⟨false, false, false, true⟩ else ⟨true, true, true, false⟩, true, true, true⟩

/-- The second worker is refused and the first one leaves. -/
def threeWorkers : Registry :=
  [Call.register 1 false, .register 2 false, .register 3 false, .unregisterSlotProvider 1, .finalizeUnregister 1].foldl
    (call queueWorkers) .new

theorem threeWorkers_consistent :
    Consistent queueWorkers threeWorkers ∧
      threeWorkers.maps.providers ⟨"n", "q"⟩ = [(queueWorkers 3).info 3] ∧
      (threeWorkers.maps.sharedWorker.lookup "n").map (·.callbacksMap.keys) = some [3] :=
  ⟨registry_consistent (reachable_calls _ (.start rfl)), by decide, by decide⟩

end SdkCore.ClientWorkerSet
