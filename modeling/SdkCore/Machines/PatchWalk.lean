import SdkCore.Lib.Feed
import SdkCore.Machines.PatchScript

/-!
# The walk over an item

What `handle_command_event` does with one event, and what that makes of the replay of items (`Good`): the commands that
an item leaves stand in front of the rest.
-/

namespace SdkCore.PatchReplay

variable {α β : Type} {A : OtherMachines α β} (jsonLen : String → Nat)

/-! ## One event against the commands -/

section

variable {event : CommandEventAttributes β} {next : Option (CommandEventAttributes β)} {r : CommandEventHandled α}
  {c : CommandAndMachine α} {q cs : List (CommandAndMachine α)} {id : String} {key : Nat}

section

variable (he : ∀ id deprecated, event ≠ .patchMarker id deprecated)
include he

/-- An event that is no marker passes over patches and unsent commands. -/
theorem consume_cons :
    consumeCommand A event next (c :: cs) =
      if (patchId? c.machine).isSome || c.machine.wasCancelledBeforeSentToServer A then consumeCommand A event next cs
      else (c.machine.handleEvent A event).map fun _ => ⟨.normal, some c.machineKey, cs⟩ := by
  obtain ⟨key, machine⟩ := c
  cases event with
  | patchMarker id deprecated => exact absurd rfl (he id deprecated)
  | upsertWorkflowSearchAttributes | other =>
    cases machine with
    | other m => rw [consumeCommand]; rfl
    | _ => rfl

theorem consume_patches (hq : ∀ c ∈ q, (patchId? c.machine).isSome) :
    consumeCommand A event next (q ++ cs) = consumeCommand A event next cs := by
  induction q with
  | nil => rfl
  | cons c q ih =>
    rw [List.cons_append, consume_cons he, if_pos (by simp [hq c List.mem_cons_self])]
    exact ih fun c hc => hq c (List.mem_cons_of_mem _ hc)

theorem consume_front (hc : patchId? c.machine = none) (hcancel : c.machine.wasCancelledBeforeSentToServer A = false) :
    consumeCommand A event next (c :: cs) =
      (c.machine.handleEvent A event).map fun _ => ⟨.normal, some c.machineKey, cs⟩ := by
  rw [consume_cons he, if_neg (by simp [hc, hcancel])]

theorem consume_key (h : consumeCommand A event next q = .ok r) : ∃ c ∈ q, r.consumed = some c.machineKey := by
  induction q with
  | nil =>
    cases event with
    | patchMarker id deprecated => exact absurd rfl (he id deprecated)
    | _ => cases h
  | cons c q ih =>
    rw [consume_cons he] at h
    split at h
    · obtain ⟨c', hc', hk⟩ := ih h
      exact ⟨c', List.mem_cons_of_mem _ hc', hk⟩
    · cases hm : c.machine.handleEvent A event with
      | error e => rw [hm] at h; cases h
      | ok m =>
        rw [hm] at h
        cases h
        exact ⟨c, List.mem_cons_self, rfl⟩

end

/-- A deprecated marker without a command is skipped. -/
theorem consume_deprecated (next : Option (CommandEventAttributes β))
    (hq : ∀ c ∈ q.head?, patchId? c.machine ≠ some id) :
    consumeCommand A (.patchMarker id true) next q = .ok ⟨skipOneOrTwoEvents next, none, q⟩ := by
  cases q with
  | nil => rfl
  | cons c q =>
    obtain ⟨key, machine⟩ := c
    cases machine with
    | patchMachine m =>
      have hm : m.matchesPatch id = false := by simpa [PatchMachine.matchesPatch, patchId?] using hq
      rw [consumeCommand, patchMarkerHandling, hm]
      rfl
    | _ => rfl

/-- Another one is rejected. -/
theorem consume_mismatch (hq : ∀ c ∈ q.head?, patchId? c.machine ≠ some id) :
    consumeCommand A (.patchMarker id false) next q ≠ .ok r := by
  cases q with
  | nil => nofun
  | cons c q =>
    obtain ⟨key, machine⟩ := c
    cases machine with
    | patchMachine m =>
      have hm : id ≠ m.patchId := by simpa [patchId?, eq_comm] using hq
      have herror : ∃ e, m.onEvent (.markerRecorded id) = .error e := by
        obtain ⟨state, patchId⟩ := m
        cases state with
        | notified => exact ⟨_, if_pos hm⟩
        | _ => exact ⟨_, rfl⟩
      obtain ⟨e, herror⟩ := herror
      simp [consumeCommand, patchMarkerHandling, CommandMachine.wasCancelledBeforeSentToServer,
        CommandMachine.handleEvent, herror, bind, Except.bind, Except.map]
    | _ => nofun

/-- A marker for the patch in front. -/
theorem consume_own {deprecated : Bool} :
    consumeCommand A (.patchMarker id deprecated) next (patchCommand key id :: cs) = .ok ⟨.normal, some key, cs⟩ := by
  simp [consumeCommand, patchCommand, patchMarkerHandling, PatchMachine.matchesPatch, PatchMachine.onEvent,
    CommandMachine.wasCancelledBeforeSentToServer, CommandMachine.handleEvent, bind, Except.bind, Except.map, pure,
    Except.pure]

end

/-! ## The walk over an item -/

variable (A) in
/-- The walk goes through, and `M` holds of what it pairs. -/
def Ends (doHandleEvent : Bool) (es : List (CommandEvent β)) (q : List (CommandAndMachine α))
    (M : List (Nat × Nat) → Prop) : Prop :=
  ∃ pairs rest, handleCommandEvents A doHandleEvent es q = .ok (pairs, rest) ∧ M pairs

/-- Items, with commands in front that earlier ones left. -/
def Good (s : PatchCalls) (n : Nat) (q : List (CommandAndMachine α)) (items : List (Item A)) : Prop :=
  Ends A true (events n items) (q ++ queue jsonLen s n items) (Matched n items)

section

variable {e : CommandEvent β} {es : List (CommandEvent β)} {q : List (CommandAndMachine α)}
  {M : List (Nat × Nat) → Prop} {items : List (Item A)} {item : Item A} {n key : Nat} {pairs : List (Nat × Nat)}

theorem ends_cons : Ends A true (e :: es) q M ↔
    ∃ r, handleCommandEvent A e.attributes (es.head?.map (·.attributes)) q = .ok r ∧
      Ends A (r.outcome ≠ .skipEvent true) es r.commands
        fun pairs => M ((r.consumed.map (e.eventId, ·)).toList ++ pairs) := by
  constructor
  · rintro ⟨pairs, rest, h, hM⟩
    obtain ⟨r, hr, h⟩ := bind_eq_ok.mp h
    obtain ⟨⟨pairs', rest'⟩, hrest, h⟩ := bind_eq_ok.mp h
    cases h
    exact ⟨r, hr, pairs', _, hrest, hM⟩
  · rintro ⟨r, hr, pairs, rest, hrest, hM⟩
    refine ⟨_, rest, ?_, hM⟩
    rw [handleCommandEvents, hr]
    show (handleCommandEvents A _ es r.commands >>= _) = _
    rw [hrest]
    rfl

theorem ends_of_ok {r : CommandEventHandled α}
    (h : handleCommandEvent A e.attributes (es.head?.map (·.attributes)) q = .ok r) :
    Ends A true (e :: es) q M ↔ Ends A (r.outcome ≠ .skipEvent true) es r.commands
      fun pairs => M ((r.consumed.map (e.eventId, ·)).toList ++ pairs) := by
  rw [ends_cons]
  constructor
  · rintro ⟨r', hr', hends⟩
    cases h.symm.trans hr'
    exact hends
  · exact fun hends => ⟨r, h, hends⟩

theorem ends_of_consume {r : CommandEventHandled α} (eventId : Nat) {attributes : CommandEventAttributes β}
    (hs : attributes.special A = false)
    (h : consumeCommand A attributes (es.head?.map (·.attributes)) q = .ok r) :
    Ends A true (⟨eventId, attributes⟩ :: es) q M ↔ Ends A (r.outcome ≠ .skipEvent true) es r.commands
      fun pairs => M ((r.consumed.map (eventId, ·)).toList ++ pairs) :=
  ends_of_ok ((if_neg (by simp [hs])).trans h)

theorem ends_skip : Ends A false (e :: es) q M ↔ Ends A true es q M := by
  rfl

theorem mem_eventIds {doHandleEvent : Bool} {rest : List (CommandAndMachine α)} {p : Nat × Nat}
    (h : handleCommandEvents A doHandleEvent es q = .ok (pairs, rest)) (hp : p ∈ pairs) : p.1 ∈ es.map (·.eventId) := by
  induction es generalizing doHandleEvent q pairs with
  | nil =>
    cases h
    cases hp
  | cons e es ih =>
    cases doHandleEvent with
    | false =>
      exact List.mem_cons_of_mem _ (ih h hp)
    | true =>
      obtain ⟨r, hr, h⟩ := bind_eq_ok.mp h
      obtain ⟨⟨pairs', rest'⟩, hrest, h⟩ := bind_eq_ok.mp h
      cases h
      rcases List.mem_append.mp hp with hp | hp
      · obtain ⟨k, -, rfl⟩ := Option.map_eq_some_iff.mp (Option.mem_toList.mp hp)
        exact List.mem_cons_self
      · exact List.mem_cons_of_mem _ (ih hrest hp)

theorem le_of_mem_events (h : e ∈ events n items) : 2 * n ≤ e.eventId := by
  induction items generalizing n with
  | nil => cases h
  | cons item items ih =>
    rcases List.mem_append.mp h with h | h
    · cases item with
      | marker id deprecated upsert call hcall =>
        cases upsert with
        | false => simp only [Item.events, Bool.false_eq_true, if_false, List.mem_singleton] at h; subst h; exact le_rfl
        | true =>
          simp only [Item.events, if_true, List.mem_cons, List.not_mem_nil, or_false] at h
          rcases h with rfl | rfl
          · exact le_rfl
          · exact Nat.le_succ _
      | other | special => cases List.mem_singleton.mp h; exact le_rfl
      | extra id => cases h
    · have := ih h
      omega

theorem le_of_mem_queue {s : PatchCalls} {c : CommandAndMachine α} (h : c ∈ queue jsonLen s n items) :
    2 * n ≤ c.machineKey := by
  induction items generalizing s n with
  | nil => cases h
  | cons item items ih =>
    rcases List.mem_append.mp h with h | h
    · exact (mem_item_queue h).1
    · have := ih h
      omega

theorem matched_nil : Matched n ([] : List (Item A)) [] :=
  ⟨List.forall_mem_nil _, fun k c hk => by simp at hk⟩

theorem matched_cons (hitem : ∀ c, item = .other c → (2 * n, 2 * n) ∈ pairs) :
    Matched n (item :: items) pairs ↔ Matched (n + 1) items pairs := by
  refine and_congr_right fun _ => ⟨fun h k c hk => ?_, fun h k c hk => ?_⟩
  · have := h (k + 1) c (by simpa using hk)
    rwa [show n + (k + 1) = n + 1 + k by omega] at this
  · cases k with
    | zero => exact hitem c (Option.some.inj hk)
    | succ k =>
      have := h k c (by simpa using hk)
      rwa [show n + 1 + k = n + (k + 1) by omega] at this

theorem matched_pair (hkey : key < 2 * n) : Matched n items ((key, key) :: pairs) ↔ Matched n items pairs := by
  constructor
  · rintro ⟨hpairs, hothers⟩
    refine ⟨fun p hp => hpairs p (List.mem_cons_of_mem _ hp), fun k c hk => ?_⟩
    rcases List.mem_cons.mp (hothers k c hk) with h | h
    · have := congrArg Prod.fst h
      omega
    · exact h
  · rintro ⟨hpairs, hothers⟩
    refine ⟨fun p hp => ?_, fun k c hk => List.mem_cons_of_mem _ (hothers k c hk)⟩
    rcases List.mem_cons.mp hp with rfl | hp
    · rfl
    · exact hpairs p hp

end

/-! ### Items -/

section

variable {jsonLen} {s : PatchCalls} {n : Nat} {q : List (CommandAndMachine α)} {items : List (Item A)} {id : String}
  {deprecated upsert : Bool} {call : Option Bool} {hcall : call = none → deprecated = true}

theorem ends_congr {b : Bool} {es : List (CommandEvent β)} {M M' : List (Nat × Nat) → Prop}
    (h : ∀ pairs, M pairs ↔ M' pairs) : Ends A b es q M ↔ Ends A b es q M' :=
  exists_congr fun pairs => exists_congr fun _ => and_congr_right fun _ => h pairs

theorem good_special {attributes : β} {h : A.special attributes = true} :
    Good jsonLen s n q (.special attributes h :: items) ↔ Good jsonLen s (n + 1) q items := by
  have hstep : handleCommandEvent A (.other attributes) ((events (n + 1) items).head?.map (·.attributes))
      (q ++ queue jsonLen s (n + 1) items) = .ok ⟨.normal, none, q ++ queue jsonLen s (n + 1) items⟩ := if_pos h
  refine (ends_of_ok hstep).trans (ends_congr fun pairs => ?_)
  exact matched_cons (by intro c h; cases h)

theorem good_extra_created (h : s.encounteredPatchMarkers.lookup id = some true) :
    Good jsonLen s n q (.extra id :: items) ↔ Good jsonLen s (n + 1) q items := by
  have hqueue : queue jsonLen s n (.extra id :: items) = queue jsonLen s (n + 1) items := by
    rw [queue, Item.queue, if_pos h, Item.issue, setPatchMarker_of_created h]
    rfl
  rw [Good, hqueue]
  exact ends_congr fun pairs => matched_cons (by intro c h; cases h)

theorem good_extra_new (h : s.encounteredPatchMarkers.lookup id ≠ some true) :
    Good jsonLen s n q (.extra id :: items) ↔
      Good jsonLen ((Item.extra (A := A) id).issue jsonLen s).2 (n + 1) (q ++ [patchCommand (2 * n) id]) items := by
  rw [Good, queue, Item.queue, if_neg h, ← List.append_assoc]
  exact ends_congr fun pairs => matched_cons (by intro c h; cases h)

theorem good_other {c : OtherCommand A} (hq : ∀ c ∈ q, (patchId? c.machine).isSome) :
    Good jsonLen s n q (.other c :: items) ↔ Good jsonLen s (n + 1) [] items := by
  obtain ⟨m, hm⟩ := c.handles
  have hstep : consumeCommand A c.event ((events (n + 1) items).head?.map (·.attributes))
      (q ++ (⟨2 * n, c.prepared⟩ :: queue jsonLen s (n + 1) items)) =
      .ok ⟨.normal, some (2 * n), queue jsonLen s (n + 1) items⟩ := by
    rw [consume_patches c.not_marker hq, consume_front c.not_marker c.not_patch c.not_cancelled]
    rw [hm]
    rfl
  refine (ends_of_consume (2 * n) c.not_special hstep).trans (ends_congr fun pairs => ?_)
  exact (matched_cons fun _ _ => List.mem_cons_self).trans (matched_pair (by omega))

theorem not_good_other {c : OtherCommand A} {ps rest : List (CommandAndMachine α)} {m : Nat}
    (hps : ∀ c ∈ ps, (patchId? c.machine).isSome) :
    ¬ Good jsonLen s n (ps ++ upsertCommand (2 * m + 1) :: rest) (.other c :: items) := by
  intro h
  obtain ⟨r, hr, pairs, rest', -, hM, -⟩ := ends_cons.mp h
  rw [handleCommandEvent, if_neg (by simp [c.not_special]), List.append_assoc, consume_patches c.not_marker hps,
    List.cons_append, consume_front c.not_marker rfl rfl] at hr
  cases hu : (upsertCommand (2 * m + 1)).machine.handleEvent A c.event with
  | error e => rw [hu] at hr; cases hr
  | ok m' =>
    rw [hu] at hr
    cases hr
    have := hM (2 * n, 2 * m + 1) List.mem_cons_self
    omega

/-! ### Markers that are skipped -/

theorem any_head_events : ((events n items).head?.map (·.attributes)).any CommandEventAttributes.upsertsVersion =
    nextUpsertsVersion items := by
  induction items generalizing n with
  | nil => rfl
  | cons item items ih =>
    cases item with
    | extra id => exact ih
    | _ => rfl

theorem events_of_nextUpsertsVersion (h : nextUpsertsVersion items = true) :
    ∃ k c es, items[k]? = some (.other c) ∧ events n items = ⟨2 * (n + k), c.event⟩ :: es ∧
      ∀ e ∈ es, 2 * (n + k) < e.eventId := by
  induction items generalizing n with
  | nil => cases h
  | cons item items ih =>
    cases item with
    | marker | special => cases h
    | other c =>
      refine ⟨0, c, events (n + 1) items, rfl, rfl, fun e he => ?_⟩
      have := le_of_mem_events he
      omega
    | extra id =>
      obtain ⟨k, c, es, hk, hes, hlt⟩ := ih h
      refine ⟨k + 1, c, es, by simpa using hk, ?_, fun e he => ?_⟩
      · show events (n + 1) items = _
        rw [hes, show n + 1 + k = n + (k + 1) by omega]
      · have := hlt e he
        omega

def NotInFront (id : String) (q : List (CommandAndMachine α)) : Prop := ∀ c ∈ q.head?, patchId? c.machine ≠ some id

/-- A deprecated marker for another patch is skipped with its upsert. Its commands stay. -/
theorem good_skip {h : call = none → true = true}
    (hfront : NotInFront id (q ++ queue jsonLen s n (.marker id true upsert call h :: items)))
    (hnext : upsert = true ∨ nextUpsertsVersion items = false) :
    Good jsonLen s n q (.marker id true upsert call h :: items) ↔
      Good jsonLen ((Item.marker (A := A) id true upsert call h).issue jsonLen s).2 (n + 1)
        (q ++ (Item.marker (A := A) id true upsert call h).queue jsonLen s n) items := by
  have hmatched : ∀ pairs, Matched n (.marker id true upsert call h :: items) pairs ↔ Matched (n + 1) items pairs :=
    fun pairs => matched_cons (by intro c h; cases h)
  rw [Good, Good, List.append_assoc]
  cases upsert with
  | true =>
    let upsertEvent : CommandEvent β := ⟨2 * n + 1, .upsertWorkflowSearchAttributes (some [versionSearchAttrKey])⟩
    have hstep := consume_deprecated (A := A) ((upsertEvent :: events (n + 1) items).head?.map (·.attributes)) hfront
    exact (ends_of_consume (2 * n) rfl hstep).trans (ends_skip.trans (ends_congr hmatched))
  | false =>
    have hstep := consume_deprecated (A := A) ((events (n + 1) items).head?.map (·.attributes)) hfront
    rw [skipOneOrTwoEvents, any_head_events, hnext.resolve_left (by decide)] at hstep
    exact (ends_of_consume (2 * n) rfl hstep).trans (ends_congr hmatched)

theorem not_good_skip {h : call = none → true = true}
    (hfront : NotInFront id (q ++ queue jsonLen s n (.marker id true false call h :: items)))
    (hnext : nextUpsertsVersion items = true) : ¬ Good jsonLen s n q (.marker id true false call h :: items) := by
  intro hgood
  have hstep := consume_deprecated (A := A) ((events (n + 1) items).head?.map (·.attributes)) hfront
  rw [skipOneOrTwoEvents, any_head_events, hnext] at hstep
  obtain ⟨k, c, es, hk, hes, hlt⟩ := events_of_nextUpsertsVersion hnext
  have hends := (ends_of_consume (2 * n) rfl hstep).mp hgood
  rw [hes] at hends
  obtain ⟨pairs, rest, hwalk, -, hothers⟩ := ends_skip.mp hends
  -- the event was passed over, so it is in no pair
  have hmem := mem_eventIds hwalk (hothers (k + 1) c (by simpa using hk))
  obtain ⟨e, he, heq⟩ := List.mem_map.mp hmem
  have := hlt e he
  omega

theorem not_good_mismatch {h : call = none → false = true}
    (hfront : NotInFront id (q ++ queue jsonLen s n (.marker id false upsert call h :: items))) :
    ¬ Good jsonLen s n q (.marker id false upsert call h :: items) := by
  intro hgood
  obtain ⟨r, hr, -⟩ := ends_cons.mp hgood
  exact consume_mismatch hfront hr

variable {d : Bool} {h : some d = none → deprecated = true}

/-- A marker for the patch in front. -/
theorem good_own :
    Good jsonLen s n [] (.marker id deprecated upsert (some d) h :: items) ↔
      Ends A true ((if upsert then [⟨2 * n + 1, .upsertWorkflowSearchAttributes (some [versionSearchAttrKey])⟩]
        else []) ++
          events (n + 1) items)
        ((if makesUpsert jsonLen s id then [upsertCommand (2 * n + 1)] else []) ++
          queue jsonLen ((Item.marker (A := A) id deprecated upsert (some d) h).issue jsonLen s).2 (n + 1) items)
        (Matched (n + 1) items) := by
  refine (ends_of_consume (2 * n) rfl consume_own).trans (ends_congr fun pairs => ?_)
  exact (matched_cons (by intro c h; cases h)).trans (matched_pair (by omega))

theorem good_own_upsert (hmade : makesUpsert jsonLen s id = true) :
    Good jsonLen s n [] (.marker id deprecated true (some d) h :: items) ↔
      Good jsonLen ((Item.marker (A := A) id deprecated true (some d) h).issue jsonLen s).2 (n + 1) [] items := by
  rw [good_own, hmade]
  have hstep : ∀ cs, consumeCommand A (.upsertWorkflowSearchAttributes (some [versionSearchAttrKey]))
      ((events (n + 1) items).head?.map (·.attributes)) (upsertCommand (2 * n + 1) :: cs) =
      .ok ⟨.normal, some (2 * n + 1), cs⟩ := fun cs => consume_front (by nofun) rfl rfl
  have hlt : 2 * n + 1 < 2 * (n + 1) := by omega
  exact (ends_of_consume (2 * n + 1) rfl (hstep _)).trans (ends_congr fun pairs => matched_pair hlt)

theorem not_good_own (hmade : makesUpsert jsonLen s id = false) :
    ¬ Good jsonLen s n [] (.marker id deprecated true (some d) h :: items) := by
  rw [good_own, hmade]
  intro hgood
  obtain ⟨r, hr, pairs, rest, -, hM, -⟩ := ends_cons.mp hgood
  obtain ⟨c, hc, hkey⟩ := consume_key (by nofun) hr
  have hle := le_of_mem_queue jsonLen hc
  have := hM (2 * n + 1, c.machineKey) (by simp [hkey])
  omega

theorem good_own_plain :
    Good jsonLen s n [] (.marker id deprecated false (some d) h :: items) ↔
      Good jsonLen ((Item.marker (A := A) id deprecated false (some d) h).issue jsonLen s).2 (n + 1)
        (if makesUpsert jsonLen s id then [upsertCommand (2 * n + 1)] else []) items :=
  good_own

end

end SdkCore.PatchReplay
