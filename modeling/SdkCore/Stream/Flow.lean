import SdkCore.Stream.WFStream

/-!
# How tasks flow through the stream

Between the ends of activations, tasks find their places and runs go on without answering. `Place` and `Flow` list what
can happen, with the tasks on their way.
-/

namespace SdkCore.WFStream

open Relation ManagedRun Op

variable {μ : Type} {M : ManagerOps μ} {cfg : WorkerConfig}

/-! ## Using a run -/

section

variable {s : WFStream μ} {k : RunId} {r : ManagedRun μ}

theorem mem_of_findRun (h : s.findRun k = some r) : r ∈ s.runs := List.mem_of_find?_eq_some h

theorem runId_of_findRun (h : s.findRun k = some r) : r.runId = k := by
  simpa [findRun] using List.find?_some h

theorem exec_onRun_none {α : Type} (x : ROp μ α) (h : s.findRun k = none) : (onRun k x).exec s = (.ok none, s) := by
  simp [onRun, exec_bind, h]

/-- What an operation on one run does. -/
theorem onRun_post {α : Type} {x : ROp μ α} {Q : Option α → WFStream μ → Prop} {E : Limit → WFStream μ → Prop}
    (hnone : s.findRun k = none → Q none s)
    (hsome : ∀ r a r', s.findRun k = some r → x.exec r = (.ok a, r') → Q (some a) (s.putRun r'))
    (herr : ∀ r e r', s.findRun k = some r → x.exec r = (.error e, r') → E e (s.putRun r')) :
    Post Q E ((onRun k x).exec s) := by
  cases h : s.findRun k with
  | none =>
    rw [exec_onRun_none x h]
    exact hnone h
  | some r =>
    have hsome := hsome r
    have herr := herr r
    unfold onRun
    simp only [exec_bind, exec_get, andThen_ok, h, exec_modify]
    generalize x.exec r = y at hsome herr
    obtain ⟨e | a, r'⟩ := y
    · exact herr e r' h rfl
    · exact hsome a r' h rfl

theorem findRun_putRun (s : WFStream μ) (r : ManagedRun μ) : (s.putRun r).findRun r.runId = some r := by
  unfold findRun putRun
  rw [List.find?_append, List.find?_eq_none.mpr]
  · simp
  · intro r' hr'
    simpa using (List.mem_filter.mp hr').2

theorem touch_spec (k : RunId) (s : WFStream μ) :
    ∃ s₁, (touch k).exec s = (.ok (), s₁) ∧ s₁.findRun k = s.findRun k ∧
      (s₁ = s ∨ ∃ r, s.findRun k = some r ∧ s₁ = s.putRun r) := by
  unfold touch
  cases h : s.findRun k with
  | none => exact ⟨s, by rw [exec_bind, exec_onRun_none _ h]; rfl, h, .inl rfl⟩
  | some r =>
    have hk := runId_of_findRun h
    refine ⟨s.putRun r, ?_, hk ▸ findRun_putRun s r, .inr ⟨r, rfl, rfl⟩⟩
    simp [onRun, exec_bind, h]

theorem putRun_runs_ne_nil (s : WFStream μ) (r : ManagedRun μ) : (s.putRun r).runs ≠ [] := by
  simp [putRun]

end

theorem complete_completes (fuel : Nat) (tx : Option RespChan) (c : ValidatedCompletion) (r : ManagedRun μ) :
    Completes cfg tx none (fun a p => a = .error p) r ((complete M cfg fuel tx c).exec r) := by
  cases c with
  | success commands => exact successfulCompletion_completes fuel commands tx r
  | fail cause auto =>
    exact Post.bind (failedCompletion_completes fuel _ _ auto tx r) fun _ _ h => h.imp fun _ => False.elim

/-! ## The flow -/

inductive Place (M : ManagerOps μ) (cfg : WorkerConfig) :
    List PermittedWFT × WFStream μ → List PermittedWFT × WFStream μ → Prop
  | offer {p l s r} (h : s.findRun p.work.runId = some r) :
    Place M cfg (p :: l, s) (l, s.putRun ((offerWft M p).exec r).2)
  | new {p l s} (h : s.findRun p.work.runId = none) : Place M cfg (p :: l, s)
      (l, { s.putRun ((incomingWft M p).exec (blank M p.work.runId s.created)).2 with created := s.created + 1 })
  | poll {p l s} (hf : s.isFull cfg) : Place M cfg (p :: l, s) (l, s.bufferRespOnFullCache p)
  | fetch {p l s} : Place M cfg (p :: l, s) (l, { s.requestFetch (.full p) with emitted := s.emitted ++ [p] })

abbrev Places (M : ManagerOps μ) (cfg : WorkerConfig) :
    List PermittedWFT × WFStream μ → List PermittedWFT × WFStream μ → Prop := ReflTransGen (Place M cfg)

/-- A step, with the tasks on their way. -/
inductive Flow (M : ManagerOps μ) (cfg : WorkerConfig) :
    List PermittedWFT × WFStream μ → List PermittedWFT × WFStream μ → Prop
  | place {x y} (h : Place M cfg x y) : Flow M cfg x y
  | run {l s r r'} (h : s.findRun r.runId = some r) (hr : Tends r r') : Flow M cfg (l, s) (l, s.putRun r')

abbrev Flows (M : ManagerOps μ) (cfg : WorkerConfig) :
    List PermittedWFT × WFStream μ → List PermittedWFT × WFStream μ → Prop := ReflTransGen (Flow M cfg)

/-- Returns after some flow, or stops in it. -/
abbrev FlowsTo (M : ManagerOps μ) (cfg : WorkerConfig) (start : List PermittedWFT × WFStream μ) (l : List PermittedWFT)
    {α : Type} (x : Except Limit α × WFStream μ) : Prop :=
  Post (fun _ s' => Flows M cfg start (l, s')) (fun _ s' => ∃ l', Flows M cfg start (l', s')) x

section

variable {l : List PermittedWFT} {s : WFStream μ}

theorem onRun_flows {α : Type} {k : RunId} {x : ROp μ α} (hx : ∀ r, Tends r (x.exec r).2) :
    FlowsTo M cfg (l, s) l ((onRun k x).exec s) := by
  have hrun : ∀ r y r', s.findRun k = some r → x.exec r = (y, r') → Flow M cfg (l, s) (l, s.putRun r') := by
    intro r y r' hr hx'
    have ht := hx r
    rw [hx'] at ht
    exact .run (runId_of_findRun hr ▸ hr) ht
  exact onRun_post (fun _ => .refl) (fun r a r' hr hx' => .single (hrun r _ r' hr hx'))
    fun r e r' hr hx' => ⟨l, .single (hrun r _ r' hr hx')⟩

theorem actOnRun_flows {k : RunId} {x : ROp μ (Option ActivationOrAuto)} (hx : ∀ r, Tends r (x.exec r).2) :
    FlowsTo M cfg (l, s) l ((actOnRun k x).exec s) :=
  Post.bind (onRun_flows hx) fun _ _ h => h

theorem requestEviction_flows (fuel : Nat) (k : RunId) {info : RequestEvictMsg}
    (hi : info.reason ≠ .paginationOrHistoryFetch) :
    FlowsTo M cfg (l, s) l ((requestEviction M cfg fuel k info).exec s) := by
  refine Post.bind (onRun_flows fun r => ?_) fun _ _ h => h
  rw [requestEviction_marks (.inr hi)]
  exact markForEviction_tends r info

theorem requestEvictionOfLruRun_flows (fuel : Nat) :
    FlowsTo M cfg (l, s) l ((requestEvictionOfLruRun M cfg fuel).exec s) := by
  unfold requestEvictionOfLruRun
  rw [exec_get_bind]
  split
  · exact .refl
  · exact requestEviction_flows fuel _ (by decide)

theorem requestEvictions_flows (fuel : Nat) : ∀ (ks : List RunId) (s : WFStream μ),
    FlowsTo M cfg (l, s) l ((requestEvictions M cfg fuel ks).exec s)
  | [], _ => .refl
  | k :: ks, s => by
    refine Post.bind (requestEviction_flows (l := l) fuel k (by decide)) fun _ s₁ h => ?_
    refine Post.bind (Q := fun _ s' => Flows M cfg (l, s) (l, s')) ?_ fun _ _ h => h
    exact (requestEvictions_flows fuel ks s₁).imp (fun _ _ h' => h.trans h') fun _ _ ⟨l', h'⟩ => ⟨l', h.trans h'⟩

theorem reconcileBuffered_flows (fuel : Nat) (s : WFStream μ) :
    FlowsTo M cfg (l, s) l ((reconcileBuffered M cfg fuel).exec s) :=
  requestEvictions_flows fuel _ s

theorem evictAfterCompletion_flows (fuel : Nat) (k : RunId) (acts : List ActivationOrAuto) (s : WFStream μ) :
    FlowsTo M cfg (l, s) l ((evictAfterCompletion M cfg fuel k acts).exec s) := by
  unfold evictAfterCompletion
  rw [exec_get_bind]
  split
  · exact Post.bind (requestEvictionOfLruRun_flows fuel) fun _ _ h => h
  · exact .refl

/-- A task goes to its run, waits or asks for history. -/
theorem instantiateOrUpdate_place (p : PermittedWFT) (s : WFStream μ) :
    Place M cfg (p :: l, s) (l, ((instantiateOrUpdate M cfg p).exec s).2) := by
  unfold instantiateOrUpdate
  rw [exec_get_bind]
  split
  · next h =>
    obtain ⟨r, hr⟩ := Option.isSome_iff_exists.mp h
    have hf : Place M cfg (p :: l, s) (l, s.putRun ((offerWft M p).exec r).2) := .offer hr
    unfold actOnRun onRun
    simp only [exec_bind, exec_get, andThen_ok, hr, exec_modify]
    generalize (offerWft M p).exec r = y at hf
    obtain ⟨e | a, r'⟩ := y <;> exact hf
  · next h =>
    have h : s.findRun p.work.runId = none := by simpa [hasRun] using h
    split
    · next hf => exact .poll hf
    split
    · exact .fetch
    · unfold newRun
      have hn : Place M cfg (p :: l, s) (l, _) := .new h
      simp only [exec_bind, exec_get, andThen_ok, exec_modify]
      generalize (incomingWft M p).exec (blank M p.work.runId s.created) = y at hn
      obtain ⟨e | act, r'⟩ := y <;> exact hn

theorem instantiateAll_places : ∀ (ps : List PermittedWFT) (s : WFStream μ),
    Post (fun _ s' => Places M cfg (ps ++ l, s) (l, s')) (fun _ s' => ∃ l', Places M cfg (ps ++ l, s) (l', s'))
      ((instantiateAll M cfg ps).exec s)
  | [], _ => .refl
  | p :: ps, s => by
    have h : Place M cfg _ _ := instantiateOrUpdate_place (l := ps ++ l) p s
    unfold instantiateAll
    rw [exec_bind]
    generalize (instantiateOrUpdate M cfg p).exec s = y at h ⊢
    obtain ⟨e | act, s₁⟩ := y
    · exact ⟨ps ++ l, .single h⟩
    · refine Post.bind (Q := fun _ s' => Places M cfg (p :: ps ++ l, s) (l, s')) ?_ fun _ _ h => h
      exact (instantiateAll_places ps s₁).imp (fun _ _ h' => .head h h') fun _ _ ⟨l', h'⟩ => ⟨l', .head h h'⟩

theorem startOrder_perm : ∀ group : List PermittedWFT, (startOrder group).Perm group
  | [] => .refl _
  | p :: ps => by
    have h : (p :: ps).dropLast ++ [(p :: ps).getLast (by simp)] = p :: ps := List.dropLast_append_getLast _
    have hl : startOrder (p :: ps) = [(p :: ps).getLast (by simp)] ++ (p :: ps).dropLast := by
      simp [startOrder, List.getLast?_eq_some_getLast]
    exact List.perm_append_comm.trans (.of_eq h)

end

end SdkCore.WFStream
