import SdkCore.Stream.Flow

/-!
# The end of an activation

When a report comes in, the activation ends, and the slot of a run that is done goes to tasks that wait. `Turn` lists
what happens to the run `k` and to tasks on their way, with the task `w` of the report.
-/

namespace SdkCore

open Op

namespace ManagedRun

variable {μ : Type} {M : ManagerOps μ} {cfg : WorkerConfig}

/-- The report ends the task of the run. -/
def freesPermit (M : ManagerOps μ) (r : ManagedRun μ) (status : WFTReportStatus) : Bool :=
  r.wft.isSome && !(!M.haveSeenTerminalEvent r.mgr && status = .notReported) && !r.hasPendingQueries

theorem freesPermit_of_completeWft {r r' : ManagedRun μ} {status : WFTReportStatus} {t : OutstandingTask}
    (h : (completeWft M status).exec r = (.ok (some t), r')) : r.freesPermit M status := by
  unfold completeWft at h
  rw [exec_get_bind] at h
  split at h
  · cases h
  · next hc =>
    simp only [Bool.or_eq_true, not_or, Bool.not_eq_true] at hc
    have hres : ((markWftComplete M status).exec r).1 = .ok r.wft := by cases status <;> rfl
    have hw : r.wft = some t := by
      rw [h] at hres
      exact (Except.ok.inj hres).symm
    simp only [freesPermit, hw, Option.isSome_some, Bool.true_and, Bool.and_eq_true, Bool.not_eq_true']
    exact ⟨by simpa using hc.1, hc.2⟩

end ManagedRun

namespace WFStream

open Relation ManagedRun

variable {μ : Type} {M : ManagerOps μ} {cfg : WorkerConfig}

def dropRun (s : WFStream μ) (r : ManagedRun μ) (m : μ) : WFStream μ :=
  removeRun r.runId (s.putRun { r with activation := none, answer := none, taskBuffer := .empty, mgr := m })

/-- What the end of an activation does. Only with `lossy` a task may disappear. -/
inductive Turn (M : ManagerOps μ) (cfg : WorkerConfig) (lossy : Prop) (k : RunId) (w : Option PermittedWFT) :
    List PermittedWFT × WFStream μ → List PermittedWFT × WFStream μ → Prop
  | place {x y} (h : Place M cfg x y) : Turn M cfg lossy k w x y
  | evolve {l s r r'} (h : s.findRun k = some r) (he : Evolves r r') : Turn M cfg lossy k w (l, s) (l, s.putRun r')
  | endTask {l s r} (h : s.findRun k = some r) (m : μ) :
    Turn M cfg lossy k w (l, s) (l, s.putRun { r with wft := none, mgr := m })
  | endActivation {l s r} (h : s.findRun k = some r)
    (a : Option OutstandingActivation) (ha : a = none ∨ a = r.activation) :
    Turn M cfg lossy k w (l, s) (l, s.putRun { r with activation := a, answer := none })
  | enter {l s} (ps : List PermittedWFT) (hp : ∀ p ∈ ps, w = some p) :
    Turn M cfg lossy k w (l, s) (ps ++ l, { s with entered := s.entered ++ ps })
  | pop {l s group groups} (h : s.bufferedPollsNeedCacheSlot = group :: groups) :
    Turn M cfg lossy k w (l, s) (group ++ l, { s with bufferedPollsNeedCacheSlot := groups })
  | remove {l s r} (h : s.findRun k = some r) (he : r.activation = some .eviction) (m : μ) :
    Turn M cfg lossy k w (l, s) (r.taskBuffer.intoBufferOrder ++ l, s.dropRun r m)
  | reorder {l l' s} (h : l.Perm l') : Turn M cfg lossy k w (l, s) (l', s)
  | lose {l l' s} (h : lossy) : Turn M cfg lossy k w (l ++ l', s) (l', s)

abbrev Turns (M : ManagerOps μ) (cfg : WorkerConfig) (lossy : Prop) (k : RunId) (w : Option PermittedWFT) :
    List PermittedWFT × WFStream μ → List PermittedWFT × WFStream μ → Prop := ReflTransGen (Turn M cfg lossy k w)

/-- Returns after some turns, or stops in them. -/
abbrev TurnsTo (M : ManagerOps μ) (cfg : WorkerConfig) (lossy : Prop) (k : RunId) (w : Option PermittedWFT)
    (start : List PermittedWFT × WFStream μ) (l : List PermittedWFT) {α : Type}
    (x : Except Limit α × WFStream μ) : Prop :=
  Post (fun _ s' => Turns M cfg lossy k w start (l, s')) (fun _ s' => ∃ l', Turns M cfg lossy k w start (l', s')) x

section

variable {lossy : Prop} {k : RunId} {v : Option PermittedWFT} {start : List PermittedWFT × WFStream μ}
  {l : List PermittedWFT} {s : WFStream μ}

theorem Places.turns {x y : List PermittedWFT × WFStream μ} (h : Places M cfg x y) : Turns M cfg lossy k v x y :=
  h.lift id fun _ _ => .place

variable {evict : Bool} {buffered : BufferedTasks} {w : Option PermittedWFT} {status : WFTReportStatus}

theorem takeReady_turns (hloss : buffered.getNextWft.isSome → w.isSome → lossy)
    (hx : Turns M cfg lossy k v start (w.toList ++ buffered.intoBufferOrder ++ l, s)) :
    Post (fun ready s' => Turns M cfg lossy k v start (ready.1 ++ ready.2.intoBufferOrder ++ l, s'))
      (fun _ s' => ∃ l', Turns M cfg lossy k v start (l', s')) ((takeReady evict buffered w).exec s) := by
  unfold takeReady
  split
  · next p rest hn =>
    have hperm := BufferedTasks.getNextWft_perm hn
    have hl : Turns M cfg lossy k v start (buffered.intoBufferOrder ++ l, s) := by
      cases w with
      | none => exact hx
      | some q =>
        rw [List.append_assoc] at hx
        exact hx.tail (.lose (hloss (by simp [hn]) rfl))
    exact hl.tail (.reorder (hperm.append_right l))
  · next hn =>
    have hb := BufferedTasks.getNextWft_eq_none hn
    rw [hb] at hx
    split
    · simp only [exec_pure, Post, hb]
      exact hx
    · rw [exec_get_bind]
      split
      · next hp =>
        split
        · simp only [exec_bind, exec_modify, andThen_ok, exec_pure, Post, hb, List.append_nil]
          exact hx.tail (.pop hp)
        · simp only [exec_pure, Post, hb]
          exact hx
      · simp only [exec_pure, Post, hb]
        exact hx

theorem afterFinish_turns (hloss : buffered.getNextWft.isSome → w.isSome → lossy)
    (hx : Turns M cfg lossy k v start (w.toList ++ buffered.intoBufferOrder ++ l, if evict then s.removeRun k else s)) :
    TurnsTo M cfg lossy k v start l ((afterFinish M cfg k evict buffered w).exec s) := by
  unfold afterFinish
  rw [exec_modify_bind]
  refine Post.bind (takeReady_turns hloss hx) fun ready s₁ h => ?_
  have h : Turns M cfg lossy k v start (startOrder ready.1 ++ ready.2.intoBufferOrder ++ l, s₁) :=
    h.tail (.reorder (((startOrder_perm ready.1).symm.append_right _).append_right l))
  exact Post.imp (instantiateAll_places _ s₁) (fun _ _ h' => h.trans h'.turns) fun _ _ ⟨l', h'⟩ =>
    ⟨l', h.trans h'.turns⟩

/-- The task that came with an eviction's completion is lost if another waits for the run. -/
def losesTask (M : ManagerOps μ) (s : WFStream μ) : WFStreamInput → Bool
  | .postActivation k status (some _) false =>
    (s.findRun k).any fun r => r.activationIsEviction && r.freesPermit M status && r.taskBuffer.getNextWft.isSome
  | _ => false

theorem completeWft_turn {r r' : ManagedRun μ} {y : Except Limit (Option OutstandingTask)} (hr : s.findRun k = some r)
    (h : (completeWft M status).exec r = (y, r')) :
    Turn M cfg lossy k v (l, s) (l, s.putRun r') ∧ r'.runId = r.runId ∧ r'.activation = r.activation ∧
      r'.taskBuffer = r.taskBuffer := by
  have hs := completeWft_spec (M := M) r status
  rw [h] at hs
  rcases hs with ⟨hs, -⟩ | ⟨m, hs⟩
  · have hs : r' = r := hs
    rw [hs]
    exact ⟨.evolve hr .refl, rfl, rfl, rfl⟩
  · have hs : r' = { r with wft := none, mgr := m } := hs
    rw [hs]
    exact ⟨.endTask hr m, rfl, rfl, rfl⟩

theorem goOn_turns (hloss : buffered.getNextWft.isSome → w.isSome → lossy)
    (hx : Turns M cfg lossy k v start (w.toList ++ buffered.intoBufferOrder ++ l, if evict then s.removeRun k else s)) :
    TurnsTo M cfg lossy k v start l ((goOn M cfg k status evict buffered w).exec s) := by
  refine Post.bind (afterFinish_turns hloss hx) fun act s₁ h => ?_
  split
  · exact h
  · refine Post.bind (onRun_post (fun _ => h) (fun r a r' hr hex => ?_) fun r e r' hr hex => ⟨l, ?_⟩) fun _ _ h => h
    all_goals
      have he := afterPostActivation_evolves (M := M) r status
      rw [hex] at he
      exact h.tail (.evolve hr he)

theorem finish_turns {r : ManagedRun μ} {auto : Bool} (hr : s.findRun k = some r)
    (hloss : r.activation = some .eviction → auto = false → r.taskBuffer.getNextWft.isSome → w.isSome → lossy)
    (hx : Turns M cfg lossy k v start (w.toList ++ l, s)) :
    TurnsTo M cfg lossy k v start l ((finish M cfg k status w auto).exec s) := by
  have hk := runId_of_findRun hr
  refine Post.bind (Q := fun a s₁ => ∃ evict buffered, a = some (evict, buffered) ∧
    (buffered.getNextWft.isSome → w.isSome → lossy) ∧
    Turns M cfg lossy k v start (w.toList ++ buffered.intoBufferOrder ++ l, if evict then s₁.removeRun k else s₁)) ?_ ?_
  · have hspec := finishActivation_spec (M := M) r (endsActivation auto)
    refine onRun_post (fun hn => ?_) (fun r₁ a r' hr₁ hex => ?_) fun r₁ e r' hr₁ hex => ?_
    · rw [hr] at hn
      cases hn
    all_goals
      rw [hr] at hr₁
      cases hr₁
    -- the activation always ends
    swap
    · rcases hspec with ⟨_, -, hf⟩ | ⟨-, -, _, hf⟩
      · rw [hf] at hex
        cases hex
      · rw [hf] at hex
        cases hex
    rcases hspec with ⟨act, hact, hf⟩ | ⟨hev, hp, m, hf⟩
    · rw [hf] at hex
      cases hex
      refine ⟨false, .empty, rfl, fun h => ?_, ?_⟩
      · cases h
      · refine hx.trans (.head (.endActivation hr act hact) (.single (.reorder ?_)))
        exact .of_eq (by simp [BufferedTasks.intoBufferOrder, BufferedTasks.empty])
    · rw [hf] at hex
      cases hex
      refine ⟨true, r.taskBuffer, rfl, hloss hev (by simpa [endsActivation] using hp), ?_⟩
      subst hk
      refine (hx.tail (.remove hr hev m)).tail (.reorder ?_)
      rw [← List.append_assoc]
      exact List.perm_append_comm.append_right l
  · rintro _ s₁ ⟨evict, buffered, rfl, hl, h⟩
    exact goOn_turns hl h

/-- **A report is a sequence of turns, after which no task is on its way.** -/
theorem processPostActivation_turns (k : RunId) (status : WFTReportStatus) (w : Option PermittedWFT) (auto : Bool)
    (hloss : s.losesTask M (.postActivation k status w auto) → lossy) :
    TurnsTo M cfg lossy k w (l, s) l ((processPostActivation M cfg k status w auto).exec s) := by
  unfold processPostActivation
  cases hr : s.findRun k with
  | none =>
    have hr' : ({ s with entered := s.entered ++ [] } : WFStream μ).findRun k = none := hr
    simp only [exec_bind, exec_onRun_none _ hr, andThen_ok, exec_modify, Option.join_none, Option.bind_none,
      Option.toList_none]
    rw [finish, exec_bind, exec_onRun_none _ hr']
    exact .single (.enter [] fun p hp => absurd hp List.not_mem_nil)
  | some r =>
    refine Post.bind (Q := fun a s₁ => ∃ r' a', a = some a' ∧ (completeWft M status).exec r = (.ok a', r') ∧
      s₁ = s.putRun r') (onRun_post (fun hn => ?_) (fun r₁ a r' hr₁ hex => ?_) fun r₁ e r' hr₁ hex => ?_) ?_
    · rw [hr] at hn
      cases hn
    · rw [hr] at hr₁
      cases hr₁
      exact ⟨r', a, rfl, hex, rfl⟩
    · exact ⟨l, .single (completeWft_turn hr₁ hex).1⟩
    · rintro _ _ ⟨r', a, rfl, hex, rfl⟩
      obtain ⟨ht, hk', hact, hbuf⟩ := completeWft_turn hr hex
      have hk' : r'.runId = k := hk'.trans (runId_of_findRun hr)
      have hfind : ({ s.putRun r' with
          entered := (s.putRun r').entered ++ (a.bind fun _ => w).toList } : WFStream μ).findRun k = some r' :=
        hk' ▸ findRun_putRun s r'
      refine finish_turns hfind ?_ (.head ht (.single (.enter _ fun p hp => ?_)))
      · intro hev hauto hnext hsome
        obtain ⟨p, hp⟩ := Option.isSome_iff_exists.mp hsome
        obtain ⟨t, rfl, rfl⟩ := Option.bind_eq_some_iff.mp hp
        refine hloss ?_
        rw [hact] at hev
        rw [hbuf] at hnext
        subst hauto
        simp only [losesTask, hr, Option.any_some, Bool.and_eq_true]
        exact ⟨⟨by simp [activationIsEviction, hev], freesPermit_of_completeWft hex⟩, hnext⟩
      · obtain ⟨-, -, hp⟩ := Option.bind_eq_some_iff.mp (Option.mem_toList.mp hp)
        exact hp

end

end WFStream

end SdkCore
