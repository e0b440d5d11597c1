import SdkCore.Machines.PatchWalk

/-!
# Replaying patch calls

Calls for patches without marker are passed over by other commands but not by markers, and an upsert by nothing. The
walk pairs events and commands iff the items are `Admissible` (`replays_iff`).
-/

namespace SdkCore.PatchReplay

variable {α β : Type} {A : OtherMachines α β} (jsonLen : String → Nat)

/-! ## The walk over all items -/

/-- Only calls for patches. -/
def Patches (q : List (CommandAndMachine α)) : Prop := ∀ c ∈ q, (patchId? c.machine).isSome

/-- No command is for a patch among the items. -/
def Foreign (q : List (CommandAndMachine α)) (items : List (Item A)) : Prop :=
  ∀ c ∈ q, ∀ id ∈ items.filterMap Item.markerId?, patchId? c.machine ≠ some id

section

variable {jsonLen} {s : PatchCalls} {n : Nat} {q : List (CommandAndMachine α)} {items : List (Item A)} {item : Item A}
  {id : String} {upsert : Bool} {call : Option Bool}

theorem Foreign.tail (h : Foreign q (item :: items)) : Foreign q items :=
  fun c hc id hid => h c hc id (((List.sublist_cons_self item items).filterMap _).subset hid)

theorem Foreign.append {q' : List (CommandAndMachine α)} (h : Foreign q items) (h' : Foreign q' items) :
    Foreign (q ++ q') items := by
  intro c hc
  rcases List.mem_append.mp hc with hc | hc
  · exact h c hc
  · exact h' c hc

theorem Patches.append_patch (h : Patches q) (key : Nat) (id : String) : Patches (q ++ [patchCommand key id]) := by
  intro c hc
  rcases List.mem_append.mp hc with hc | hc
  · exact h c hc
  · cases List.mem_singleton.mp hc
    rfl

theorem WellFormed.foreign_queue (jsonLen : String → Nat) (n : Nat) (h : WellFormed s (item :: items)) :
    Foreign (item.queue jsonLen s n) items :=
  fun _ hc _ hid hpatch => h.markerId_ne ((mem_item_queue hc).2 _ hpatch) hid rfl

theorem mem_queue_patch {c : CommandAndMachine α} (hc : c ∈ queue jsonLen s n items)
    (hid : patchId? c.machine = some id) :
    id ∈ items.filterMap Item.markerId? ∨ id ∈ items.filterMap Item.extraId? := by
  induction items generalizing s n with
  | nil => cases hc
  | cons item items ih =>
    have hsub := List.sublist_cons_self item items
    rcases List.mem_append.mp hc with hc | hc
    · rcases (mem_item_queue hc).2 id hid with h | h
      · rw [List.filterMap_cons_some h]
        exact .inl List.mem_cons_self
      · rw [List.filterMap_cons_some h]
        exact .inr List.mem_cons_self
    · exact (ih hc).imp (fun h => (hsub.filterMap _).subset h) fun h => (hsub.filterMap _).subset h

/-- What is left is not for the next marker. -/
theorem notInFront_of_left (hq : q ≠ []) (h : Foreign q (item :: items)) (hid : item.markerId? = some id)
    (cs : List (CommandAndMachine α)) : NotInFront id (q ++ cs) := by
  cases q with
  | nil => exact absurd rfl hq
  | cons c q =>
    intro c' hc'
    cases hc'
    refine h c List.mem_cons_self id ?_
    rw [List.filterMap_cons_some hid]
    exact List.mem_cons_self

variable {deprecated : Bool} {hcall : call = none → deprecated = true}

theorem notInFront_of_uncalled (jsonLen : String → Nat) (n : Nat) {hcall : none = none → deprecated = true}
    (h : WellFormed s (.marker (A := A) id deprecated upsert none hcall :: items)) :
    NotInFront id ([] ++ queue jsonLen s n (.marker (A := A) id deprecated upsert none hcall :: items)) := by
  intro c hc hpatch
  have hmem : c ∈ queue jsonLen s (n + 1) items := List.mem_of_mem_head? hc
  rcases mem_queue_patch hmem hpatch with hid | hid
  · exact h.markerId_ne (.inl rfl) hid rfl
  · refine h.unmarked id ?_ (h.marked id ?_)
    · exact ((List.sublist_cons_self _ items).filterMap _).subset hid
    · exact List.mem_cons_self

theorem nextUpsertsVersion_of_quiet (h : items.all Item.quiet = true) : nextUpsertsVersion items = false := by
  induction items with
  | nil => rfl
  | cons item items ih =>
    rw [List.all_cons, Bool.and_eq_true] at h
    cases item with
    | extra id => exact ih h.2
    | other c => cases h.1
    | _ => rfl

theorem admissible_of_quiet (h : items.all Item.quiet = true) : Admissible jsonLen s true items := by
  induction items generalizing s with
  | nil => trivial
  | cons item items ih =>
    rw [List.all_cons, Bool.and_eq_true] at h
    cases item with
    | marker id deprecated upsert call hcall =>
      have hd : deprecated = true := h.1
      subst hd
      exact ⟨⟨nofun, nofun, fun _ _ _ => h.2, fun _ _ _ => nextUpsertsVersion_of_quiet h.2⟩, ih h.2⟩
    | other c => cases h.1
    | special | extra => exact ⟨trivial, ih h.2⟩

/-- An upsert that is left stays. -/
theorem good_stuck (h : WellFormed s items) {ps rest : List (CommandAndMachine α)} {m : Nat} (hps : Patches ps)
    (hforeign : Foreign (ps ++ upsertCommand (2 * m + 1) :: rest) items) :
    Good jsonLen s n (ps ++ upsertCommand (2 * m + 1) :: rest) items ↔ items.all Item.quiet = true := by
  induction items generalizing s n rest with
  | nil => exact iff_of_true ⟨[], _, rfl, matched_nil⟩ rfl
  | cons item items ih =>
    have hne : ps ++ upsertCommand (2 * m + 1) :: rest ≠ [] := by simp
    -- whatever the item leaves goes to the end
    have hforeign' : ∀ cs, Foreign cs items → Foreign (ps ++ upsertCommand (2 * m + 1) :: (rest ++ cs)) items := by
      intro cs hcs
      have := hforeign.tail.append hcs
      rwa [List.append_assoc] at this
    cases item with
    | marker id deprecated upsert call hcall =>
      have hfront := notInFront_of_left hne hforeign rfl
        (queue jsonLen s n (.marker id deprecated upsert call hcall :: items))
      cases deprecated with
      | false => exact iff_of_false (not_good_mismatch hfront) (by simp [Item.quiet])
      | true =>
        by_cases hup : upsert = true ∨ nextUpsertsVersion items = false
        · rw [good_skip hfront hup, List.append_assoc]
          exact ih (h.tail jsonLen) (hforeign' _ (h.foreign_queue jsonLen n))
        · obtain ⟨hup, hver⟩ := not_or.mp hup
          obtain rfl : upsert = false := by simpa using hup
          refine iff_of_false (not_good_skip hfront (by simpa using hver)) fun hquiet => ?_
          exact hver (nextUpsertsVersion_of_quiet hquiet)
    | other c => exact iff_of_false (not_good_other hps) (by simp [Item.quiet])
    | special attributes hs =>
      rw [good_special]
      exact ih (h.tail jsonLen) hforeign.tail
    | extra id =>
      by_cases hc : s.encounteredPatchMarkers.lookup id = some true
      · have htail := h.tail jsonLen
        rw [Item.issue, setPatchMarker_of_created hc] at htail
        rw [good_extra_created hc]
        exact ih htail hforeign.tail
      · have hqueue := h.foreign_queue jsonLen n
        rw [Item.queue, if_neg hc] at hqueue
        rw [good_extra_new hc, List.append_assoc]
        exact ih (h.tail jsonLen) (hforeign' _ hqueue)

/-- A marker, with nothing in front. -/
theorem good_marker_clean (h : WellFormed s (.marker (A := A) id deprecated upsert call hcall :: items))
    (ih : ∀ s' : PatchCalls, WellFormed s' items →
      (Good jsonLen s' (n + 1) [] items ↔ Admissible jsonLen s' false items)) :
    Good jsonLen s n [] (.marker id deprecated upsert call hcall :: items) ↔
      Admissible jsonLen s false (.marker id deprecated upsert call hcall :: items) := by
  have htail := h.tail jsonLen
  cases call with
  | some d =>
    cases upsert with
    | true =>
      cases hmade : makesUpsert jsonLen s id with
      | true =>
        rw [good_own_upsert hmade, ih _ htail]
        simp [Admissible, Item.Allowed, Item.leaves, hmade]
      | false =>
        refine iff_of_false (not_good_own hmade) fun hadm => ?_
        have := hadm.1.2.1 rfl rfl rfl
        rw [hmade] at this
        cases this
    | false =>
      rw [good_own_plain]
      cases hmade : makesUpsert jsonLen s id with
      | true =>
        have hforeign : Foreign ([] ++ [upsertCommand (2 * n + 1)]) items := by
          intro c hc
          cases List.mem_singleton.mp hc
          simp [upsertCommand, patchId?]
        have hstuck : Good jsonLen _ (n + 1) ([] ++ [upsertCommand (2 * n + 1)]) items ↔ items.all Item.quiet = true :=
          good_stuck htail (List.forall_mem_nil _) hforeign
        refine hstuck.trans ⟨fun hquiet => ⟨⟨fun _ => rfl, by simp, fun _ _ _ => hquiet, ?_⟩, ?_⟩, fun hadm => ?_⟩
        · rintro - - (hnone | hleft)
          · cases hnone
          · cases hleft
        · rw [Item.leaves, hmade]
          exact admissible_of_quiet hquiet
        · exact hadm.1.2.2.1 rfl hmade (.inr rfl)
      | false =>
        rw [if_neg (by decide), ih _ htail]
        simp [Admissible, Item.Allowed, Item.leaves, hmade]
  | none =>
    obtain rfl : deprecated = true := hcall rfl
    have hfront := notInFront_of_uncalled jsonLen n h
    by_cases hup : upsert = true ∨ nextUpsertsVersion items = false
    · rw [good_skip hfront hup]
      refine (ih _ htail).trans ⟨fun hadm => ⟨⟨by simp, by simp, by simp, fun _ hu _ => ?_⟩, ?_⟩, fun hadm => ?_⟩
      · exact hup.resolve_left (by simp [hu])
      · simpa [Item.leaves] using hadm
      · simpa [Item.leaves] using hadm.2
    · obtain ⟨hup, hver⟩ := not_or.mp hup
      obtain rfl : upsert = false := by simpa using hup
      exact iff_of_false (not_good_skip hfront (by simpa using hver)) fun hadm => hver (hadm.1.2.2.2 rfl rfl (.inl rfl))

/-- A marker, with calls in front. -/
theorem good_marker_left (h : WellFormed s (.marker (A := A) id deprecated upsert call hcall :: items)) (hq : q ≠ [])
    (hpatches : Patches q) (hforeign : Foreign q (.marker (A := A) id deprecated upsert call hcall :: items))
    (ih : ∀ (s' : PatchCalls) (q' : List (CommandAndMachine α)), WellFormed s' items → Patches q' → Foreign q' items →
      (Good jsonLen s' (n + 1) q' items ↔ Admissible jsonLen s' (!q'.isEmpty) items)) :
    Good jsonLen s n q (.marker id deprecated upsert call hcall :: items) ↔
      Admissible jsonLen s true (.marker id deprecated upsert call hcall :: items) := by
  have htail := h.tail jsonLen
  have hfront := notInFront_of_left hq hforeign rfl
    (queue jsonLen s n (.marker id deprecated upsert call hcall :: items))
  have hforeign' := hforeign.tail.append (h.foreign_queue jsonLen n)
  cases deprecated with
  | false =>
    refine iff_of_false (not_good_mismatch hfront) fun hadm => ?_
    cases hadm.1.1 rfl
  | true =>
    by_cases hup : upsert = true ∨ nextUpsertsVersion items = false
    · rw [good_skip hfront hup]
      have hver : upsert = false → nextUpsertsVersion items = false := fun hu => hup.resolve_left (by simp [hu])
      by_cases hstuck : call.isSome = true ∧ makesUpsert jsonLen s id = true
      · -- the call and its upsert are left
        rw [Item.queue, if_pos hstuck.1, if_pos hstuck.2, List.append_cons] at hforeign' ⊢
        rw [good_stuck htail (hpatches.append_patch _ _) hforeign']
        constructor
        · intro hquiet
          exact ⟨⟨by simp, by simp, fun _ _ _ => hquiet, fun _ hu _ => hver hu⟩, admissible_of_quiet hquiet⟩
        · exact fun hadm => hadm.1.2.2.1 hstuck.1 hstuck.2 (.inl rfl)
      · -- at most the call is left
        rw [ih _ _ htail ?_ hforeign', show (!(q ++ _).isEmpty) = true by simp [hq]]
        · constructor
          · intro hadm
            exact ⟨⟨by simp, by simp, fun hc hm _ => absurd ⟨hc, hm⟩ hstuck, fun _ hu _ => hver hu⟩, hadm⟩
          · exact fun hadm => hadm.2
        · rw [Item.queue]
          split
          · next hc =>
            rw [if_neg fun hm => hstuck ⟨hc, hm⟩]
            exact hpatches.append_patch _ _
          · rwa [List.append_nil]
    · obtain ⟨hup, hver⟩ := not_or.mp hup
      obtain rfl : upsert = false := by simpa using hup
      exact iff_of_false (not_good_skip hfront (by simpa using hver)) fun hadm => hver (hadm.1.2.2.2 rfl rfl (.inr rfl))

/-- With only calls in front, the walk pairs up what is left iff the items are admissible. -/
theorem good_iff (h : WellFormed s items) (hpatches : Patches q) (hforeign : Foreign q items) :
    Good jsonLen s n q items ↔ Admissible jsonLen s (!q.isEmpty) items := by
  induction items generalizing s n q with
  | nil => exact iff_of_true ⟨[], _, rfl, matched_nil⟩ trivial
  | cons item items ih =>
    have hnil : Patches ([] : List (CommandAndMachine α)) := List.forall_mem_nil _
    cases item with
    | marker id deprecated upsert call hcall =>
      cases q with
      | nil => exact good_marker_clean h fun s' hs' => ih hs' hnil (List.forall_mem_nil _)
      | cons c q => exact good_marker_left h (List.cons_ne_nil c q) hpatches hforeign fun s' q' => ih
    | other c =>
      have htail : WellFormed s items := h.tail jsonLen
      rw [good_other hpatches, ih htail hnil (List.forall_mem_nil _)]
      exact ⟨fun hadm => ⟨trivial, hadm⟩, fun hadm => hadm.2⟩
    | special attributes hs =>
      have htail : WellFormed s items := h.tail jsonLen
      rw [good_special, ih htail hpatches hforeign.tail]
      exact ⟨fun hadm => ⟨trivial, hadm⟩, fun hadm => hadm.2⟩
    | extra id =>
      have htail := h.tail jsonLen
      by_cases hc : s.encounteredPatchMarkers.lookup id = some true
      · have hissue : ((Item.extra (A := A) id).issue jsonLen s).2 = s := by
          rw [Item.issue, setPatchMarker_of_created hc]
        rw [hissue] at htail
        rw [good_extra_created hc, ih htail hpatches hforeign.tail, Admissible, hissue, Item.leaves, hc]
        simp [Item.Allowed]
      · have hqueue := h.foreign_queue jsonLen n
        rw [Item.queue, if_neg hc] at hqueue
        have hleft : (!(q ++ [patchCommand (2 * n) id]).isEmpty) = true := by simp
        rw [good_extra_new hc, ih htail (hpatches.append_patch _ _) (hforeign.tail.append hqueue), hleft, Admissible,
          Item.leaves]
        simp [Item.Allowed, hc]

end

/-- **On replay the walk consumes all command events of a task and pairs each with its command iff the items are
admissible.** -/
theorem replays_iff (A : OtherMachines α β) (jsonLen : String → Nat) (s : PatchCalls) (items : List (Item A))
    (h : WellFormed s items) : Replays jsonLen s items ↔ Admissible jsonLen s false items := by
  refine Iff.trans ?_ (good_iff (n := 0) h (List.forall_mem_nil _) (List.forall_mem_nil _))
  constructor
  · rintro ⟨cmds, pairs, rest, hcmds, hwalk, hmatched⟩
    cases (commands_eq h).symm.trans hcmds
    exact ⟨pairs, rest, hwalk, hmatched⟩
  · rintro ⟨pairs, rest, hwalk, hmatched⟩
    exact ⟨_, pairs, rest, commands_eq h, hwalk, hmatched⟩

def alike : OtherMachines Unit Unit := ⟨fun _ _ => .ok (), fun _ => false, fun _ => false⟩

def alikeCommand : OtherCommand alike :=
  ⟨.other (), .other (), .other (), rfl, ⟨_, rfl⟩, nofun, rfl, rfl⟩

/-- With the flag for upserts, and the patches `ids` seen. -/
def replayOf (ids : List String) : PatchCalls where
  replaying := true
  flags := { InternalFlags.new true "core" "1" with core := [.upsertSearchAttributeOnPatch] }
  encounteredPatchMarkers := ids.foldl (fun m id => m.insert id false) ∅

/-- `deprecate_patch` without marker, another command, a deprecated marker without call, and a marker with call. -/
theorem replays_mixed :
    Replays (fun id => id.length + 2) (replayOf ["a", "c"])
      [.extra "b", .other alikeCommand, .marker "c" true true none (fun _ => rfl),
        .marker "a" false true (some false) nofun] := by
  refine (replays_iff alike _ _ _ ⟨rfl, by decide, by decide, by decide⟩).mpr ?_
  decide

/-- After `deprecate_patch` for `b`, without marker, comes `patched` for `a`: the marker of `a` is given to the machine
of `b`. -/
theorem deprecate_patch_before_marker :
    ∃ items : List (Item alike),
      items = [.extra "b", .marker "a" false true (some false) nofun] ∧ WellFormed (replayOf ["a"]) items ∧
      ∃ cmds, commands (fun id => id.length + 2) (replayOf ["a"]) 0 items = .ok cmds ∧
        handleCommandEvents alike true (events 0 items) cmds =
          .error (.nondeterminism "Change id a does not match expected id b") := by
  exact ⟨_, rfl, ⟨rfl, by decide, by decide, by decide⟩, _, rfl, rfl⟩

end SdkCore.PatchReplay
