import SdkCore.Stream.Turns

/-!
# What an input does to the stream

`Move` lists what happens while an input is processed, with the tasks on their way. An input is a sequence of moves,
after which none is (`process_moves`). Only with `losesTask` a task disappears.
-/

namespace SdkCore.WFStream

open Relation ManagedRun Op

variable {μ : Type} {M : ManagerOps μ} {cfg : WorkerConfig}

/-! ## The moves -/

/-- What can happen. Only with `lossy` a task may disappear. -/
inductive Move (M : ManagerOps μ) (cfg : WorkerConfig) (lossy : Prop) :
    List PermittedWFT × WFStream μ → List PermittedWFT × WFStream μ → Prop
  | flow {x y} (h : Flow M cfg x y) : Move M cfg lossy x y
  | acts {l s r r'} (h : s.findRun r.runId = some r) (hr : Acts r r') : Move M cfg lossy (l, s) (l, s.putRun r')
  | record {l s} (fetches : List (Nat × HistoryFetchReq)) (nextFetch : Nat)
    (received : List Nat) : Move M cfg lossy (l, s) (l, { s with fetches, nextFetch, received })
  | enter {l s} (ps : List PermittedWFT) : Move M cfg lossy (l, s) (ps ++ l, { s with entered := s.entered ++ ps })
  | pop {l s group groups} (h : s.bufferedPollsNeedCacheSlot = group :: groups) :
    Move M cfg lossy (l, s) (group ++ l, { s with bufferedPollsNeedCacheSlot := groups })
  | remove {l s r} (h : s.findRun r.runId = some r) (m : μ) :
    Move M cfg lossy (l, s) (r.taskBuffer.intoBufferOrder ++ l, s.dropRun r m)
  | reorder {l l' s} (h : l.Perm l') : Move M cfg lossy (l, s) (l', s)
  | lose {l l' s} (h : lossy) : Move M cfg lossy (l ++ l', s) (l', s)

abbrev Moves (M : ManagerOps μ) (cfg : WorkerConfig) (lossy : Prop) :
    List PermittedWFT × WFStream μ → List PermittedWFT × WFStream μ → Prop := ReflTransGen (Move M cfg lossy)

/-- Returns after some moves, or stops in them. -/
abbrev MovesTo (M : ManagerOps μ) (cfg : WorkerConfig) (lossy : Prop) (start : List PermittedWFT × WFStream μ)
    (l : List PermittedWFT) {α : Type} (x : Except Limit α × WFStream μ) : Prop :=
  Post (fun _ s' => Moves M cfg lossy start (l, s')) (fun _ s' => ∃ l', Moves M cfg lossy start (l', s')) x

section

variable {lossy : Prop} {start x : List PermittedWFT × WFStream μ} {l : List PermittedWFT} {s : WFStream μ}
  {y : List PermittedWFT × WFStream μ} {α : Type} {k : RunId} {w : Option PermittedWFT}

theorem Flows.moves (h : Flows M cfg x y) : Moves M cfg lossy x y :=
  h.lift id fun _ _ => .flow

theorem FlowsTo.moves {y : Except Limit α × WFStream μ} (h : FlowsTo M cfg x l y) (hx : Moves M cfg lossy start x) :
    MovesTo M cfg lossy start l y :=
  Post.imp h (fun _ _ h => hx.trans h.moves) fun _ _ ⟨l', h⟩ => ⟨l', hx.trans h.moves⟩

theorem MovesTo.of_place {y : Except Limit α × WFStream μ} (hx : Moves M cfg lossy start x)
    (h : Place M cfg x (l, y.2)) : MovesTo M cfg lossy start l y := by
  obtain ⟨e | a, s'⟩ := y
  · exact ⟨l, hx.tail (.flow (.place h))⟩
  · exact hx.tail (.flow (.place h))

/-- A turn is made of moves. -/
theorem Turn.moves (h : Turn M cfg lossy k w x y) : Moves M cfg lossy x y := by
  cases h with
  | place h => exact .single (.flow (.place h))
  | evolve h he => exact .single (.acts (runId_of_findRun h ▸ h) he.acts)
  | @endTask l s r h m => exact .single (.acts (runId_of_findRun h ▸ h) (.single (.endTask r m)))
  | @endActivation l s r h a ha => exact .single (.acts (runId_of_findRun h ▸ h) (.single (.endActivation r a ha)))
  | enter ps => exact .single (.enter ps)
  | pop h => exact .single (.pop h)
  | remove h _ m => exact .single (.remove (runId_of_findRun h ▸ h) m)
  | reorder h => exact .single (.reorder h)
  | lose h => exact .single (.lose h)

theorem Turns.moves (h : Turns M cfg lossy k w x y) : Moves M cfg lossy x y := by
  induction h with
  | refl => exact .refl
  | tail _ h ih => exact ih.trans h.moves

theorem onRun_moves {op : ROp μ α} (hop : ∀ r, Acts r (op.exec r).2) (hx : Moves M cfg lossy start (l, s)) :
    MovesTo M cfg lossy start l ((onRun k op).exec s) := by
  have hrun : ∀ r y r', s.findRun k = some r → op.exec r = (y, r') → Moves M cfg lossy start (l, s.putRun r') := by
    intro r y r' hr hex
    have h := hop r
    rw [hex] at h
    exact hx.tail (.acts (runId_of_findRun hr ▸ hr) h)
  exact onRun_post (fun _ => hx) (fun r a r' => hrun r _ r') fun r e r' hr hex => ⟨l, hrun r _ r' hr hex⟩

theorem TurnsTo.moves {y : Except Limit α × WFStream μ} (h : TurnsTo M cfg lossy k w x l y)
    (hx : Moves M cfg lossy start x) : MovesTo M cfg lossy start l y :=
  Post.imp h (fun _ _ h => hx.trans h.moves) fun _ _ ⟨l', h⟩ => ⟨l', hx.trans h.moves⟩

theorem processCompletion_moves (fuel : Nat) (k : RunId) (c : ValidatedCompletion) (tx : Option RespChan)
    (hx : Moves M cfg lossy start (l, s)) :
    MovesTo M cfg lossy start l ((processCompletion M cfg fuel k c tx).exec s) := by
  refine Post.bind (onRun_moves (fun r => (complete_completes fuel tx c r).acts) hx) fun a s₁ h => ?_
  match a with
  | none => exact h
  | some (.ok act) => exact (evictAfterCompletion_flows fuel k _ s₁).moves h
  | some (.error paginator) =>
    refine (evictAfterCompletion_flows fuel k _ _).moves ?_
    exact h.tail (.record _ _ s₁.received)

theorem processFetchedPage_moves (fuel : Nat) (paginator : HistoryPaginator) (update : HistoryUpdate)
    (hx : Moves M cfg lossy start (l, s)) :
    MovesTo M cfg lossy start l ((processFetchedPage M cfg fuel paginator update).exec s) := by
  refine Post.bind (onRun_moves (fun r => fetchedPageCompletion_acts r fuel update paginator) hx) fun a s₁ h => ?_
  match a with
  | none => exact h
  | some act => exact (evictAfterCompletion_flows fuel _ _ s₁).moves h

theorem requestEviction_moves (fuel : Nat) (k : RunId) (info : RequestEvictMsg)
    (hx : Moves M cfg lossy start (l, s)) :
    MovesTo M cfg lossy start l ((requestEviction M cfg fuel k info).exec s) :=
  Post.bind (onRun_moves (fun r => requestEviction_acts r fuel info) hx) fun _ _ h => h

theorem touch_moves (k : RunId) {f : SOp μ α} (hx : Moves M cfg lossy start (l, s))
    (hf : ∀ s₁, s₁.findRun k = s.findRun k → Moves M cfg lossy start (l, s₁) →
      MovesTo M cfg lossy start [] (f.exec s₁)) :
    MovesTo M cfg lossy start [] ((touch k >>= fun _ => f).exec s) := by
  obtain ⟨s₁, htouch, hfind, hs₁⟩ := touch_spec k s
  rw [exec_bind, htouch]
  refine hf s₁ hfind ?_
  rcases hs₁ with rfl | ⟨r, hr, rfl⟩
  · exact hx
  · exact hx.tail (.acts (runId_of_findRun hr ▸ hr) .refl)

theorem processFailedFetch_moves (fuel : Nat) (k : RunId) (info : Option UnstoredWftFailInfo)
    (hx : Moves M cfg lossy start (l, s)) :
    MovesTo M cfg lossy start l ((processFailedFetch M cfg fuel k info).exec s) := by
  unfold processFailedFetch
  rw [exec_get_bind]
  split
  · exact hx
  · exact Post.bind (requestEviction_moves fuel k _ hx) fun _ _ h => h

/-! ## Inputs -/

theorem local_moves (k : RunId) {op : ROp μ (Option ActivationOrAuto)} (hop : ∀ r, Evolves r (op.exec r).2) :
    MovesTo M cfg lossy ([], s) []
      ((do touch k; return (← actOnRun k op).toList.map .activation : SOp μ (List WorkflowStreamAction)).exec s) := by
  refine touch_moves k .refl fun s₁ _ h => ?_
  exact Post.bind ((actOnRun_flows fun r => (hop r).tends).moves h) fun _ _ h => h

/-- The handling of every input is made of moves. -/
theorem handle_moves (fuel : Nat) (input : WFStreamInput) :
    MovesTo M cfg (s.losesTask M input) ([], s) [] ((handle M cfg fuel input).exec s) := by
  cases input with
  | newWft p fetch =>
    unfold handle
    rw [exec_modify_bind]
    refine Post.bind (MovesTo.of_place ?_ (instantiateOrUpdate_place p _)) fun _ _ h => h
    exact .head (.record (s.returned fetch).fetches s.nextFetch s.received) (.single (.enter [p]))
  | completion k c tx =>
    refine touch_moves k .refl fun s₁ _ h => ?_
    rw [exec_modify_bind]
    refine Post.bind (processCompletion_moves fuel k c tx ?_) fun _ _ h => h
    exact h.tail (.record s₁.fetches s₁.nextFetch _)
  | fetchedPageCompletion paginator update fetch =>
    unfold handle
    refine touch_moves paginator.runId (.single (.record _ s.nextFetch s.received)) fun s₁ _ h => ?_
    exact Post.bind (processFetchedPage_moves fuel paginator update h) fun _ _ h => h
  | postActivation k status w auto =>
    refine touch_moves k .refl fun s₁ hfind h => ?_
    refine Post.bind ((processPostActivation_turns k status w auto fun hl => ?_).moves h) fun _ _ h => h
    cases w with
    | none => cases hl
    | some p =>
      cases auto with
      | true => cases hl
      | false =>
        simp only [losesTask, hfind] at hl
        exact hl
  | localResolution k res => exact local_moves k fun r => localResolution_evolves res r
  | heartbeatTimeout k => exact local_moves k fun r => heartbeatTimeout_evolves r
  | localActivityCancelProcessed k => exact local_moves k fun r => checkMoreActivations_evolves r
  | requestEviction k info =>
    refine touch_moves k .refl fun s₁ _ h => ?_
    exact Post.bind (requestEviction_moves fuel k info h) fun _ _ h => h
  | failedFetch k info fetch =>
    unfold handle
    exact processFailedFetch_moves fuel k info (.single (.record _ s.nextFetch s.received))
  | bumpStream => exact .refl

end

/-- **An input is a sequence of moves, after which no task is on its way.** -/
theorem process_moves (fuel : Nat) (input : WFStreamInput) (s : WFStream μ) :
    MovesTo M cfg (s.losesTask M input) ([], s) [] ((process M cfg fuel input).exec s) := by
  refine Post.bind (handle_moves fuel input) fun _ s₁ h => ?_
  exact Post.bind ((reconcileBuffered_flows fuel s₁).moves h) fun _ _ h => h

theorem Step.moves {s s' : WFStream μ} {input : WFStreamInput} (h : Step M cfg s input s') :
    Moves M cfg (s.losesTask M input) ([], s) ([], s') := by
  obtain ⟨fuel, actions, h⟩ := h
  have hm : MovesTo M cfg _ _ _ _ := process_moves fuel input s
  rwa [h] at hm

end SdkCore.WFStream
