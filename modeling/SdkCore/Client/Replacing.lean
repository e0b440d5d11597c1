import SdkCore.Client.WorkerSet

/-!
# Workers that move between clients

A worker gives up its slots when its shutdown begins. It may be moved to another client at any time, which does not look
at the shutdown (`moved_worker_listed`, `shutdown_gives_no_slots`).
-/

namespace SdkCore.ClientReplacing

open Maps Op ClientWorkerSetImpl

structure Config where
  registrator : ClientWorker
  skipClientWorkerSetCheck : Bool
  sharedNamespaceWorker : Bool
  deriving DecidableEq

structure Worker where
  client : Nat
  shutdownToken : Bool
  deriving DecidableEq

/-- The registries of all clients, and the workers. -/
structure System where
  sets : Nat → ClientWorkerSetImpl
  workers : Map Uuid Worker

def System.new : System := ⟨fun _ => .new, ∅⟩

def onSet {α : Type} (client : Nat) (x : Op ClientWorkerSetImpl String α) : Op System String α :=
  zoom (·.sets client) (fun s set => { s with sets := Function.update s.sets client set }) x

section

variable (config : Uuid → Config)

/-- `new_with_pollers`. There is no worker if it cannot be registered. -/
def create (key : Uuid) (client : Nat) (newFails : Bool) : Op System String Unit := do
  if (config key).sharedNamespaceWorker then pure ()
  else onSet client (register key (config key).registrator (config key).skipClientWorkerSetCheck newFails)
  modify fun s => { s with workers := s.workers.insert key ⟨client, false⟩ }

def initiateShutdown (key : Uuid) (worker : Worker) : Op System String Unit := do
  modify fun s => { s with workers := s.workers.insert key { worker with shutdownToken := true } }
  if (config key).sharedNamespaceWorker then pure ()
  else
    let _ ← attempt (onSet worker.client (unregisterSlotProvider key))

def replaceClient (key : Uuid) (worker : Worker) (newConnection : Nat) (newFails : Bool) : Op System String Unit := do
  onSet worker.client (unregisterSlotProvider key)
  let clientWorker ← onSet worker.client (finalizeUnregister key)
  modify fun s => { s with workers := s.workers.insert key { worker with client := newConnection } }
  onSet newConnection (register key clientWorker (config key).skipClientWorkerSetCheck newFails)

inductive Input
  | create (key : Uuid) (client : Nat) (newFails : Bool)
  | initiateShutdown (key : Uuid)
  | replaceClient (key : Uuid) (newConnection : Nat) (newFails : Bool)
  deriving DecidableEq

/-- One call, whatever it returns. Instance keys are not used again. -/
def step (s : System) : Input → Option System
  | .create key client newFails =>
    if (s.workers.lookup key).isSome then none else some (exec (create config key client newFails) s).2
  | .initiateShutdown key => (s.workers.lookup key).map fun worker => (exec (initiateShutdown config key worker) s).2
  | .replaceClient key newConnection newFails =>
    (s.workers.lookup key).map fun worker => (exec (replaceClient config key worker newConnection newFails) s).2

abbrev Reachable (ok : System → Input → Prop) : System → Prop :=
  Reach (fun s i s' => step config s i = some s') ok (· = .new)

/-- No worker is moved when its shutdown has begun. -/
def Unmoved (s : System) : Input → Prop
  | .replaceClient key _ _ => ∀ worker, s.workers.lookup key = some worker → worker.shutdownToken = false
  | _ => True

/-! ## One registry -/

def Lists (m : ClientWorkerSetImpl) (key : Uuid) : Prop := ∃ k, ∃ info ∈ m.providers k, info.workerId = key

/-- Who is listed is registered and belongs there. -/
structure Sound (m : ClientWorkerSetImpl) : Prop where
  known : ∀ key worker, m.allWorkers.lookup key = some worker →
    worker = (config key).registrator ∧ (config key).sharedNamespaceWorker = false
  listed : ∀ k, ∀ info ∈ m.providers k,
    k = (config info.workerId).registrator.slotKey ∧ (m.allWorkers.lookup info.workerId).isSome = true

variable {config}

section

variable {m : ClientWorkerSetImpl} {key : Uuid}

/-- Nobody is listed in a worker's place. -/
theorem sound_unregister (h : Sound config m) (key : Uuid) :
    Sound config (exec (unregisterSlotProvider key) m).2 ∧
      ∀ k, Lists (exec (unregisterSlotProvider key) m).2 k → Lists m k ∧ k ≠ key := by
  obtain ⟨hno, e, he⟩ | ⟨worker, hw, hok⟩ := exec_unregisterSlotProvider key m
  · rw [he]
    refine ⟨h, fun k hl => ⟨hl, ?_⟩⟩
    rintro rfl
    obtain ⟨sk, info, hi, rfl⟩ := hl
    simpa [hno] using (h.listed sk info hi).2
  · rw [hok]
    have hmem : ∀ sk, ∀ info ∈ (unlist key worker m).providers sk, info ∈ m.providers sk ∧ info.workerId ≠ key := by
      intro sk info hi
      rw [providers_unlist] at hi
      split at hi
      · simpa using hi
      · next hsk =>
        refine ⟨hi, ?_⟩
        rintro rfl
        exact hsk ((h.known _ _ hw).1 ▸ (h.listed sk info hi).1)
    refine ⟨⟨by simpa using h.known, fun sk info hi => ?_⟩, ?_⟩
    · simpa using h.listed sk info (hmem sk info hi).1
    · rintro k ⟨sk, info, hi, rfl⟩
      exact ⟨⟨sk, info, (hmem sk info hi).1, rfl⟩, (hmem sk info hi).2⟩

theorem sound_finalize (h : Sound config m) (key : Uuid) :
    Sound config (exec (finalizeUnregister key) m).2 ∧
      (∀ k, Lists (exec (finalizeUnregister key) m).2 k → Lists m k) ∧
      ∀ worker, (exec (finalizeUnregister key) m).1 = .ok worker →
        worker = (config key).registrator ∧ (config key).sharedNamespaceWorker = false := by
  obtain ⟨e, he⟩ | ⟨worker, hw, hl, hok⟩ := exec_finalizeUnregister key m
  · rw [he]
    exact ⟨h, fun _ hk => hk, fun _ hc => by cases hc⟩
  · rw [hok]
    have hp : ∀ sk, (dropCallbacks key worker { m with allWorkers := m.allWorkers.erase key }).providers sk =
        m.providers sk := fun sk => providers_dropCallbacks sk
    refine ⟨⟨fun k w hk => ?_, fun sk info hi => ?_⟩, fun k hk => ?_, fun w hc => ?_⟩
    · rw [allWorkers_dropCallbacks] at hk
      exact h.known k w (lookup_of_erase hk).2
    · rw [hp] at hi
      obtain ⟨hsk, hs⟩ := h.listed sk info hi
      refine ⟨hsk, ?_⟩
      rw [allWorkers_dropCallbacks, AList.lookup_erase_ne]
      · exact hs
      · rintro rfl
        exact hl info ((h.known _ _ hw).1 ▸ hsk ▸ hi) rfl
    · obtain ⟨sk, info, hi, rfl⟩ := hk
      exact ⟨sk, info, hp sk ▸ hi, rfl⟩
    · cases hc
      exact h.known key worker hw

/-- Nobody else is listed with a worker. -/
theorem sound_register (h : Sound config m) (hk : (config key).sharedNamespaceWorker = false) (skip newFails : Bool) :
    Sound config (exec (register key (config key).registrator skip newFails) m).2 ∧
      ∀ k, Lists (exec (register key (config key).registrator skip newFails) m).2 k → Lists m k ∨ k = key := by
  obtain ⟨e, he⟩ | ⟨-, -, hok⟩ := exec_register key (config key).registrator skip newFails m
  · rw [he]
    exact ⟨h, fun _ hl => .inl hl⟩
  · rw [hok]
    have hmem : ∀ sk, ∀ info ∈ (list key (config key).registrator
      (withCallbacks key (config key).registrator m)).providers sk,
        info ∈ m.providers sk ∨ (sk = (config key).registrator.slotKey ∧ info.workerId = key) := by
      intro sk info hi
      rw [providers_list, providers_withCallbacks] at hi
      split at hi
      · next hsk =>
        rcases List.mem_append.mp hi with hi | hi
        · exact .inl hi
        · cases List.mem_singleton.mp hi
          exact .inr ⟨hsk, rfl⟩
      · exact .inl hi
    refine ⟨⟨fun k w hkw => ?_, fun sk info hi => ?_⟩, fun k hl => ?_⟩
    · simp only [list, allWorkers_withCallbacks, lookup_insert_ite] at hkw
      split at hkw
      · next hkk =>
        cases hkw
        subst hkk
        exact ⟨rfl, hk⟩
      · exact h.known k w hkw
    · simp only [list, allWorkers_withCallbacks, lookup_insert_ite]
      rcases hmem sk info hi with ho | ⟨hsk, rfl⟩
      · refine ⟨(h.listed sk info ho).1, ?_⟩
        split
        · rfl
        · exact (h.listed sk info ho).2
      · exact ⟨hsk, by simp⟩
    · obtain ⟨sk, info, hi, rfl⟩ := hl
      rcases hmem sk info hi with ho | ⟨-, hid⟩
      · exact .inl ⟨sk, info, ho, rfl⟩
      · exact .inr hid

end

/-! ## All registries -/

/-- A worker is listed by its client only, and only while it works. -/
structure Inv (config : Uuid → Config) (s : System) : Prop where
  sound : ∀ c, Sound config (s.sets c)
  home : ∀ c key, Lists (s.sets c) key →
    ∃ worker, s.workers.lookup key = some worker ∧ worker.client = c ∧ worker.shutdownToken = false

/-- No client lists the worker. -/
def Hidden (s : System) (key : Uuid) : Prop := ∀ c, ¬ Lists (s.sets c) key

variable {s s' : System} {key : Uuid} {c : Nat}

theorem exec_onSet {α : Type} (c : Nat) (x : Op ClientWorkerSetImpl String α) (s : System) :
    exec (onSet c x) s =
      ((exec x (s.sets c)).1, { s with sets := Function.update s.sets c (exec x (s.sets c)).2 }) := rfl

variable {m : ClientWorkerSetImpl} {worker : Worker}

theorem lists_update {c' : Nat} (h : Lists (Function.update s.sets c m c') key) :
    (c' = c ∧ Lists m key) ∨ (c' ≠ c ∧ Lists (s.sets c') key) := by
  by_cases hc : c' = c
  · subst hc
    rw [Function.update_self] at h
    exact .inl ⟨rfl, h⟩
  · rw [Function.update_of_ne hc] at h
    exact .inr ⟨hc, h⟩

theorem sound_update (h : Inv config s) (hm : Sound config m) (c' : Nat) :
    Sound config (Function.update s.sets c m c') := by
  by_cases hc : c' = c
  · rw [hc, Function.update_self]
    exact hm
  · rw [Function.update_of_ne hc]
    exact h.sound c'

theorem inv_update (h : Inv config s) (hm : Sound config m) (hl : ∀ k, Lists m k → Lists (s.sets c) k) :
    Inv config { s with sets := Function.update s.sets c m } where
  sound := sound_update h hm
  home c' k hk := by
    rcases lists_update hk with ⟨rfl, hm⟩ | ⟨-, ho⟩
    · exact h.home c' k (hl k hm)
    · exact h.home c' k ho

theorem Hidden.update (h : Hidden s key) (hl : Lists m key → Lists (s.sets c) key) :
    Hidden { s with sets := Function.update s.sets c m } key := by
  intro c' hk
  rcases lists_update hk with ⟨rfl, hm⟩ | ⟨-, ho⟩
  · exact h c' (hl hm)
  · exact h c' ho

/-- A worker that nobody lists may change. -/
theorem inv_worker (h : Inv config s) (hh : Hidden s key) (worker : Worker) :
    Inv config { s with workers := s.workers.insert key worker } where
  sound := h.sound
  home c k hk := by
    have hne : k ≠ key := by
      rintro rfl
      exact hh c hk
    rw [AList.lookup_insert_ne hne]
    exact h.home c k hk

theorem inv_unregister (h : Inv config s) (hw : s.workers.lookup key = some worker) :
    Inv config (exec (onSet worker.client (unregisterSlotProvider key)) s).2 ∧
      Hidden (exec (onSet worker.client (unregisterSlotProvider key)) s).2 key := by
  obtain ⟨hs, hl⟩ := sound_unregister (h.sound worker.client) key
  refine ⟨inv_update h hs fun k hk => (hl k hk).1, fun c hk => ?_⟩
  rcases lists_update hk with ⟨-, hk⟩ | ⟨hc, hk⟩
  · exact (hl key hk).2 rfl
  · obtain ⟨w, hw', rfl, -⟩ := h.home c key hk
    rw [hw] at hw'
    cases hw'
    exact hc rfl

/-- A worker that works may be listed by its client. -/
theorem inv_registered (worker : Worker) (h : Inv config s) (hw : s.workers.lookup key = some worker)
    (hrun : worker.shutdownToken = false) (hk : (config key).sharedNamespaceWorker = false) (skip newFails : Bool) :
    Inv config (exec (onSet worker.client (register key (config key).registrator skip newFails)) s).2 := by
  obtain ⟨hs, hl⟩ := sound_register (h.sound worker.client) hk skip newFails
  refine ⟨sound_update h hs, fun c k hlk => ?_⟩
  rcases lists_update hlk with ⟨rfl, hm⟩ | ⟨-, ho⟩
  · rcases hl k hm with hold | rfl
    · exact h.home worker.client k hold
    · exact ⟨worker, hw, rfl, hrun⟩
  · exact h.home c k ho

/-! ## Calls -/

theorem inv_create (h : Inv config s) (hk : s.workers.lookup key = none) (c : Nat) (newFails : Bool) :
    Inv config (exec (create config key c newFails) s).2 := by
  have hi := inv_worker h (fun c hl => by simpa [hk] using h.home c key hl) ⟨c, false⟩
  rw [create]
  cases hsh : (config key).sharedNamespaceWorker with
  | true => exact hi
  | false =>
    have hreg := inv_registered ⟨c, false⟩ hi (AList.lookup_insert _) rfl hsh
      (config key).skipClientWorkerSetCheck newFails
    simp only [Bool.false_eq_true, if_false, exec_bind, exec_onSet] at hreg ⊢
    obtain ⟨e, he⟩ | ⟨-, -, hok⟩ := exec_register key (config key).registrator (config key).skipClientWorkerSetCheck
      newFails (s.sets c)
    · rw [he]
      exact inv_update h (h.sound c) fun _ hl => hl
    · simp only [hok, andThen_ok, exec_modify] at hreg ⊢
      exact hreg

theorem hidden_of_shared (h : Inv config s) (hk : (config key).sharedNamespaceWorker = true) : Hidden s key := by
  rintro c ⟨sk, info, hi, rfl⟩
  obtain ⟨worker, hw⟩ := Option.isSome_iff_exists.mp ((h.sound c).listed sk info hi).2
  rw [((h.sound c).known _ worker hw).2] at hk
  cases hk

theorem inv_initiateShutdown (h : Inv config s) (hw : s.workers.lookup key = some worker) :
    Inv config (exec (initiateShutdown config key worker) s).2 := by
  rw [initiateShutdown]
  cases hsh : (config key).sharedNamespaceWorker with
  | true => exact inv_worker h (hidden_of_shared h hsh) _
  | false =>
    obtain ⟨hi, hh⟩ := inv_unregister h hw
    exact inv_worker hi hh { worker with shutdownToken := true }

/-- A worker that works may be moved. -/
theorem inv_replaceClient (h : Inv config s) (hw : s.workers.lookup key = some worker)
    (hrun : worker.shutdownToken = false) (c : Nat) (newFails : Bool) :
    Inv config (exec (replaceClient config key worker c newFails) s).2 := by
  rw [replaceClient, exec_bind]
  have hun := inv_unregister h hw
  generalize exec (onSet worker.client (unregisterSlotProvider key)) s = r at hun
  obtain ⟨e | u, s₁⟩ := r
  · exact hun.1
  obtain ⟨h₁, hh₁⟩ := hun
  obtain ⟨hs, hl, hret⟩ := sound_finalize (h₁.sound worker.client) key
  rw [andThen_ok, exec_bind, exec_onSet]
  have h₂ := inv_update h₁ hs hl
  have hh₂ := hh₁.update (hl key)
  cases hf : (exec (finalizeUnregister key) (s₁.sets worker.client)).1 with
  | error e => exact h₂
  | ok clientWorker =>
    obtain ⟨rfl, hsh⟩ := hret clientWorker hf
    exact inv_registered { worker with client := c } (inv_worker h₂ hh₂ _) (AList.lookup_insert _) hrun hsh _ newFails

theorem reachable_inv (h : Reachable config Unmoved s) : Inv config s := by
  refine h.invariant ?_ ?_
  · rintro _ rfl
    refine ⟨fun c => ⟨?_, ?_⟩, ?_⟩
    · intro key worker hk
      cases hk
    · intro k info hi
      cases hi
    · rintro c key ⟨k, info, hi, -⟩
      cases hi
  · intro s i s' hi hok hs
    cases i with
    | create key c newFails =>
      rw [step] at hs
      split at hs
      · cases hs
      · next hk =>
        cases hs
        exact inv_create hi (by simpa using hk) c newFails
    | initiateShutdown key =>
      obtain ⟨worker, hw, rfl⟩ := Option.map_eq_some_iff.mp hs
      exact inv_initiateShutdown hi hw
    | replaceClient key c newFails =>
      obtain ⟨worker, hw, rfl⟩ := Option.map_eq_some_iff.mp hs
      exact inv_replaceClient hi hw (hok worker hw) c newFails

/-- **If no worker is moved during its shutdown, no client lists a worker after its shutdown has begun, and it gives no
slot to eager workflow starts.** -/
theorem shutdown_gives_no_slots (h : Reachable config Unmoved s) (worker : Worker)
    (hw : s.workers.lookup key = some worker)
    (hs : worker.shutdownToken = true) :
    (∀ c k, ∀ info ∈ (s.sets c).providers k, info.workerId ≠ key) ∧
    ∀ shuffle : List RegisteredWorkerInfo → List RegisteredWorkerInfo, (∀ l, (shuffle l).Perm l) →
      ∀ grants c ns taskQueue r, (s.sets c).tryReserveWftSlot shuffle grants ns taskQueue = some r → r.slot ≠ key := by
  have hno : ∀ c k, ∀ info ∈ (s.sets c).providers k, info.workerId ≠ key := by
    rintro c k info hi rfl
    obtain ⟨w, hw', -, hrun⟩ := (reachable_inv h).home c _ ⟨k, info, hi, rfl⟩
    rw [hw] at hw'
    cases hw'
    rw [hs] at hrun
    cases hrun
  refine ⟨hno, fun shuffle hsh grants c ns taskQueue r hr => ?_⟩
  obtain ⟨info, hi, -, -, hslot⟩ := tryReserveWftSlot_listed hsh hr
  exact hslot ▸ hno c _ info hi

end

def eagerConfig : Uuid → Config :=
  fun _ => ⟨⟨"n", "q", none, ⟨true, false, false, false⟩, false, false, false⟩, false, false⟩

def eagerSlot (client : Nat) (s : System) : Option Bool × Option Uuid :=
  ((s.workers.lookup 1).map (·.shutdownToken),
    ((s.sets client).tryReserveWftSlot id (fun _ => true) "n" "q").map (·.slot))

theorem stopped_worker_gives_no_slots :
    ∃ s, Reachable eagerConfig Unmoved s ∧ (s.workers.lookup 1 = some ⟨0, true⟩) ∧
      ∀ c k, ∀ info ∈ (s.sets c).providers k, info.workerId ≠ 1 := by
  obtain ⟨s, hs, hw⟩ : ∃ s, Reachable eagerConfig Unmoved s ∧ s.workers.lookup 1 = some ⟨0, true⟩ :=
    ⟨_, .step (i := .initiateShutdown 1) (.step (i := .create 1 0 false) (.start rfl) trivial rfl) trivial rfl, rfl⟩
  exact ⟨s, hs, hw, (shutdown_gives_no_slots hs _ hw rfl).1⟩

/-- A worker that is moved during its shutdown gives slots again. -/
theorem moved_worker_listed :
    ∃ s, Reachable eagerConfig (fun _ _ => True) s ∧ eagerSlot 1 s = (some true, some 1) :=
  Reach.exists_of_trace [.create 1 0 false, .initiateShutdown 1, .replaceClient 1 1 false] (by decide)
    (fun _ _ _ h => h) (.start rfl)

end SdkCore.ClientReplacing
