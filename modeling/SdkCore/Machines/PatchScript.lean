import SdkCore.Machines.Patch

/-!
# Patch markers and calls

The command events of a task and the calls replayed against them, as one list of items: a marker with its upsert and
perhaps its call, another command with its event, and a `deprecate_patch` without marker.
-/

namespace SdkCore.PatchReplay

variable {α β : Type} (A : OtherMachines α β) (jsonLen : String → Nat)

/-! ## What is recorded and what is called -/

/-- Its machine as made and as prepared, and the event in the history. -/
structure OtherCommand where
  machine : CommandMachine α
  prepared : CommandMachine α
  event : CommandEventAttributes β
  prepares : machine.handleCommand = .ok prepared
  handles : ∃ m, prepared.handleEvent A event = .ok m
  not_marker : ∀ id deprecated, event ≠ .patchMarker id deprecated
  not_special : event.special A = false
  not_cancelled : prepared.wasCancelledBeforeSentToServer A = false

/-- A place of the history and of the code. -/
inductive Item
  /-- A patch marker, with whether its upsert follows. The call is `patched` (`some false`), `deprecate_patch`
  (`some true`), or missing, if the marker is deprecated. -/
  | marker (id : String) (deprecated upsert : Bool) (call : Option Bool) (h : call = none → deprecated = true)
  | other (c : OtherCommand A)
  /-- A marker of a local activity, which is no command on replay. -/
  | special (attributes : β) (h : A.special attributes = true)
  /-- `deprecate_patch` for a patch without marker. -/
  | extra (id : String)

variable {A}

/-- The item at index `n` has the event ids `2 n` and `2 n + 1`. -/
def Item.events (n : Nat) : Item A → List (CommandEvent β)
  | .marker id deprecated upsert _ _ =>
    ⟨2 * n, .patchMarker id deprecated⟩ ::
      if upsert then [⟨2 * n + 1, .upsertWorkflowSearchAttributes (some [versionSearchAttrKey])⟩] else []
  | .other c => [⟨2 * n, c.event⟩]
  | .special attributes _ => [⟨2 * n, .other attributes⟩]
  | .extra _ => []

def events : Nat → List (Item A) → List (CommandEvent β)
  | _, [] => []
  | n, item :: items => item.events n ++ events (n + 1) items

variable (s : PatchCalls)

def Item.issue : Item A → List (CommandMachine α) × PatchCalls
  | .marker id _ _ (some deprecated) _ => s.setPatchMarker jsonLen id deprecated
  | .marker _ _ _ none _ => ([], s)
  | .other c => ([c.machine], s)
  | .special _ _ => ([], s)
  | .extra id => s.setPatchMarker jsonLen id true

/-- The keys are those of the events. -/
def prepare (n : Nat) : List (CommandMachine α) → Except TransitionError (List (CommandAndMachine α))
  | [] => .ok []
  | m :: ms => do
    let m' ← m.handleCommand
    return ⟨n, m'⟩ :: (← prepare (n + 1) ms)

def commands : PatchCalls → Nat → List (Item A) → Except TransitionError (List (CommandAndMachine α))
  | _, _, [] => .ok []
  | s, n, item :: items => do
    let (machines, s') := item.issue jsonLen s
    let prepared ← prepare (2 * n) machines
    return prepared ++ (← commands s' (n + 1) items)

/-- Events went to their own command, and those of other commands did. -/
def Matched (n : Nat) (items : List (Item A)) (pairs : List (Nat × Nat)) : Prop :=
  (∀ p ∈ pairs, p.1 = p.2) ∧ ∀ k c, items[k]? = some (.other c) → (2 * (n + k), 2 * (n + k)) ∈ pairs

/-- All events are paired with their commands. -/
def Replays (items : List (Item A)) : Prop :=
  ∃ cmds pairs rest, commands jsonLen s 0 items = .ok cmds ∧
    handleCommandEvents A true (events 0 items) cmds = .ok (pairs, rest) ∧ Matched 0 items pairs

def Item.markerId? : Item A → Option String
  | .marker id _ _ _ _ => some id
  | _ => none

def Item.extraId? : Item A → Option String
  | .extra id => some id
  | _ => none

/-- The look-ahead saw every marker, which has no command yet, and no other patch. -/
structure WellFormed (s : PatchCalls) (items : List (Item A)) : Prop where
  replaying : s.replaying = true
  nodup : (items.filterMap Item.markerId?).Nodup
  marked : ∀ id ∈ items.filterMap Item.markerId?, s.encounteredPatchMarkers.lookup id = some false
  unmarked : ∀ id ∈ items.filterMap Item.extraId?, s.encounteredPatchMarkers.lookup id ≠ some false

/-- The flag is known and the list of patches is not too long. -/
def makesUpsert (id : String) : Bool :=
  s.flags.core.contains .upsertSearchAttributeOnPatch &&
    decide (serializedLen jsonLen (s.existingPatchIds.insert id) < maxSearchAttrPayloadSize)

/-- Neither another command nor a plain marker. -/
def Item.quiet : Item A → Bool
  | .marker _ deprecated _ _ _ => deprecated
  | .other _ => false
  | _ => true

/-- The next event is an upsert of the patches' attribute by lang. -/
def nextUpsertsVersion : List (Item A) → Bool
  | .extra _ :: items => nextUpsertsVersion items
  | .other c :: _ => c.event.upsertsVersion
  | _ => false

/-- A command without an event is in front after the item. -/
def Item.leaves (left : Bool) : Item A → Bool
  | .marker id _ upsert call _ => left || (call.isSome && makesUpsert jsonLen s id && !upsert)
  | .other _ => false
  | .special _ _ => left
  | .extra id => left || s.encounteredPatchMarkers.lookup id ≠ some true

/-- What is asked of an item in front of `rest`. -/
def Item.Allowed (left : Bool) (rest : List (Item A)) : Item A → Prop
  | .marker id deprecated upsert call _ =>
    (deprecated = false → left = false) ∧
    (call.isSome → left = false → upsert = true → makesUpsert jsonLen s id = true) ∧
    (call.isSome → makesUpsert jsonLen s id = true → (left = true ∨ upsert = false) → rest.all Item.quiet = true) ∧
    (deprecated = true → upsert = false → (call = none ∨ left = true) → nextUpsertsVersion rest = false)
  | _ => True

instance (s : PatchCalls) (left : Bool) (rest : List (Item A)) (item : Item A) :
    Decidable (item.Allowed jsonLen s left rest) := by
  cases item <;> dsimp only [Item.Allowed] <;> infer_instance

def Admissible : PatchCalls → Bool → List (Item A) → Prop
  | _, _, [] => True
  | s, left, item :: items =>
    item.Allowed jsonLen s left items ∧ Admissible (item.issue jsonLen s).2 (item.leaves jsonLen s left) items

instance decidableAdmissible : ∀ (s : PatchCalls) (left : Bool) (items : List (Item A)),
    Decidable (Admissible jsonLen s left items)
  | _, _, [] => .isTrue trivial
  | s, left, item :: items =>
    have := decidableAdmissible (item.issue jsonLen s).2 (item.leaves jsonLen s left) items
    inferInstanceAs (Decidable (_ ∧ _))

/-! ## Commands of a replay -/

def patchId? : CommandMachine α → Option String
  | .patchMachine m => some m.patchId
  | _ => none

def patchCommand (key : Nat) (id : String) : CommandAndMachine α := ⟨key, .patchMachine ⟨.notified, id⟩⟩

def upsertCommand (key : Nat) : CommandAndMachine α := ⟨key, .upsertSearchAttributesMachine .commandIssued⟩

def Item.queue (n : Nat) : Item A → List (CommandAndMachine α)
  | .marker id _ _ call _ =>
    if call.isSome then
      patchCommand (2 * n) id :: if makesUpsert jsonLen s id then [upsertCommand (2 * n + 1)] else []
    else []
  | .other c => [⟨2 * n, c.prepared⟩]
  | .special _ _ => []
  | .extra id => if s.encounteredPatchMarkers.lookup id = some true then [] else [patchCommand (2 * n) id]

/-- The commands that the items make. -/
def queue : PatchCalls → Nat → List (Item A) → List (CommandAndMachine α)
  | _, _, [] => []
  | s, n, item :: items => item.queue jsonLen s n ++ queue (item.issue jsonLen s).2 (n + 1) items

section

variable {jsonLen} {s : PatchCalls} {item : Item A} {items : List (Item A)} {id : String} {n : Nat}

theorem setPatchMarker_of_marked (hr : s.replaying = true) (h : s.encounteredPatchMarkers.lookup id = some false)
    (deprecated : Bool) :
    s.setPatchMarker (α := α) jsonLen id deprecated =
      (.patchMachine ⟨.markerCommandCreatedReplaying, id⟩ ::
          if makesUpsert jsonLen s id then [.upsertSearchAttributesMachine .created] else [],
        { s with encounteredPatchMarkers := s.encounteredPatchMarkers.insert id true }) := by
  have hflag : s.flags.tryUse .upsertSearchAttributeOnPatch false =
      (s.flags.core.contains .upsertSearchAttributeOnPatch, s.flags) := rfl
  by_cases hflag' : CoreInternalFlags.upsertSearchAttributeOnPatch ∈ s.flags.core
  · by_cases hlen : serializedLen jsonLen (s.existingPatchIds.insert id) < maxSearchAttrPayloadSize
    · simp [PatchCalls.setPatchMarker, h, hasChange, hr, hflag, makesUpsert, hflag', hlen, Nat.not_le.mpr hlen]
    · simp [PatchCalls.setPatchMarker, h, hasChange, hr, hflag, makesUpsert, hflag', hlen, Nat.le_of_not_lt hlen]
  · simp [PatchCalls.setPatchMarker, h, hasChange, hr, hflag, makesUpsert, hflag']

theorem setPatchMarker_of_unmarked (hr : s.replaying = true) (h : s.encounteredPatchMarkers.lookup id = none)
    (deprecated : Bool) :
    s.setPatchMarker (α := α) jsonLen id deprecated =
      ([.patchMachine ⟨.markerCommandCreatedReplaying, id⟩],
        { s with encounteredPatchMarkers := s.encounteredPatchMarkers.insert id true }) := by
  have hflag : s.flags.tryUse .upsertSearchAttributeOnPatch false =
      (s.flags.core.contains .upsertSearchAttributeOnPatch, s.flags) := rfl
  simp [PatchCalls.setPatchMarker, h, hasChange, hr, hflag]

theorem setPatchMarker_of_created (h : s.encounteredPatchMarkers.lookup id = some true) (deprecated : Bool) :
    s.setPatchMarker (α := α) jsonLen id deprecated = ([], s) := by
  simp [PatchCalls.setPatchMarker, h]

/-- What a call queues, and that at most its patch is created. -/
theorem issue_spec (jsonLen : String → Nat) (n : Nat) (h : WellFormed s (item :: items)) :
    prepare (2 * n) (item.issue jsonLen s).1 = .ok (item.queue jsonLen s n) ∧
      ((item.issue jsonLen s).2 = s ∨
        ∃ id, (item.markerId? = some id ∨ item.extraId? = some id) ∧
          (item.issue jsonLen s).2 =
            { s with encounteredPatchMarkers := s.encounteredPatchMarkers.insert id true }) := by
  cases item with
  | marker id deprecated upsert call hcall =>
    cases call with
    | none => exact ⟨rfl, .inl rfl⟩
    | some d =>
      have hm := h.marked id (by simp [Item.markerId?])
      rw [Item.issue, setPatchMarker_of_marked h.replaying hm, Item.queue]
      refine ⟨?_, .inr ⟨id, .inl rfl, rfl⟩⟩
      cases makesUpsert jsonLen s id with
      | true | false => rfl
  | other c =>
    rw [Item.issue, prepare, c.prepares]
    exact ⟨rfl, .inl rfl⟩
  | special attributes hs => exact ⟨rfl, .inl rfl⟩
  | extra id =>
    have hm := h.unmarked id (by simp [Item.extraId?])
    rw [Item.issue, Item.queue]
    cases hl : s.encounteredPatchMarkers.lookup id with
    | none =>
      rw [setPatchMarker_of_unmarked h.replaying hl]
      exact ⟨rfl, .inr ⟨id, .inr rfl, rfl⟩⟩
    | some created =>
      cases created with
      | false => exact absurd hl hm
      | true => rw [setPatchMarker_of_created hl]; exact ⟨rfl, .inl rfl⟩

theorem WellFormed.markerId_ne (h : WellFormed s (item :: items))
    (hid : item.markerId? = some id ∨ item.extraId? = some id)
    {id' : String} (hmem : id' ∈ items.filterMap Item.markerId?) : id' ≠ id := by
  rintro rfl
  rcases hid with hid | hid
  · have hnodup := h.nodup
    rw [List.filterMap_cons_some hid, List.nodup_cons] at hnodup
    exact hnodup.1 hmem
  · refine h.unmarked id' ?_ (h.marked id' ?_)
    · rw [List.filterMap_cons_some hid]; exact List.mem_cons_self
    · exact (List.sublist_cons_self item items).filterMap _ |>.subset hmem

theorem WellFormed.tail (jsonLen : String → Nat) (h : WellFormed s (item :: items)) :
    WellFormed (item.issue jsonLen s).2 items := by
  have hsub := List.sublist_cons_self item items
  have hmarked : ∀ id ∈ items.filterMap Item.markerId?, s.encounteredPatchMarkers.lookup id = some false :=
    fun id hid => h.marked id ((hsub.filterMap _).subset hid)
  have hunmarked : ∀ id ∈ items.filterMap Item.extraId?, s.encounteredPatchMarkers.lookup id ≠ some false :=
    fun id hid => h.unmarked id ((hsub.filterMap _).subset hid)
  have hnodup := h.nodup.sublist (hsub.filterMap _)
  rcases (issue_spec jsonLen 0 h).2 with hs | ⟨id, hid, hs⟩
  · rw [hs]
    exact ⟨h.replaying, hnodup, hmarked, hunmarked⟩
  · rw [hs]
    refine ⟨h.replaying, hnodup, fun id' hid' => ?_, fun id' hid' => ?_⟩
    · rw [Maps.lookup_insert_ite, if_neg (h.markerId_ne hid hid')]
      exact hmarked id' hid'
    · rw [Maps.lookup_insert_ite]
      split
      · nofun
      · exact hunmarked id' hid'

theorem commands_eq (h : WellFormed s items) : commands jsonLen s n items = .ok (queue jsonLen s n items) := by
  induction items generalizing s n with
  | nil => rfl
  | cons item items ih =>
    simp only [commands, (issue_spec jsonLen n h).1, ih (h.tail jsonLen)]
    rfl

theorem OtherCommand.not_patch (c : OtherCommand A) : patchId? c.prepared = none := by
  obtain ⟨m, hm⟩ := c.handles
  have hmarker := c.not_marker
  generalize c.prepared = prepared, c.event = event at hm hmarker
  cases prepared with
  | patchMachine pm =>
    cases event with
    | patchMarker id deprecated => exact absurd rfl (hmarker id deprecated)
    | _ => cases hm
  | _ => rfl

theorem mem_item_queue {c : CommandAndMachine α} (hc : c ∈ item.queue jsonLen s n) :
    2 * n ≤ c.machineKey ∧
      ∀ id, patchId? c.machine = some id → item.markerId? = some id ∨ item.extraId? = some id := by
  cases item with
  | marker id deprecated upsert call hcall =>
    rw [Item.queue] at hc
    split at hc
    · rcases List.mem_cons.mp hc with rfl | hc
      · exact ⟨le_rfl, fun _ h => .inl h⟩
      · split at hc
        · cases List.mem_singleton.mp hc
          exact ⟨Nat.le_succ _, nofun⟩
        · cases hc
    · cases hc
  | other c' =>
    cases List.mem_singleton.mp hc
    refine ⟨le_rfl, fun id hid => ?_⟩
    cases c'.not_patch.symm.trans hid
  | special attributes hs => cases hc
  | extra id =>
    rw [Item.queue] at hc
    split at hc
    · cases hc
    · cases List.mem_singleton.mp hc
      exact ⟨le_rfl, fun _ h => .inr h⟩

end

end SdkCore.PatchReplay
