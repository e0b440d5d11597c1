import Mathlib.Data.List.TakeWhile
import SdkCore.Lib.Arrivals
import SdkCore.Run.Types

/-!
# The discipline of buffered tasks

The three fields of `BufferedTasks` stand for one queue. A task that advances history discards the one that waits and
the queries held for it. Queries are returned first, then the task (`run_represents`, `queue_discipline`).
-/

namespace SdkCore

open Arrivals

namespace BufferedTasks

inductive Call
  | buffer (task : PermittedWFT)
  | getNextWft

/-- The buffer after a call, and the tasks returned so far. -/
def step (x : BufferedTasks × List PermittedWFT) : Call → BufferedTasks × List PermittedWFT
  | .buffer task => (x.1.buffer task, x.2)
  | .getNextWft =>
    match x.1.getNextWft with
    | none => x
    | some (task, b) => (b, x.2 ++ [task])

def run (calls : List Call) : BufferedTasks × List PermittedWFT := calls.foldl step (empty, [])

/-- The tasks that came in. -/
def bufferedBy (calls : List Call) : List PermittedWFT :=
  calls.filterMap fun
    | .buffer task => some task
    | .getNextWft => none

def isQuery (task : PermittedWFT) : Bool := task.work.isQueryOnly

namespace Queue

/-- A task that advances history discards the one that waits. -/
def buffer (log : List (Entry PermittedWFT)) (task : PermittedWFT) : List (Entry PermittedWFT) :=
  (if isQuery task then log else discardFrom (!isQuery ·) log) ++ [⟨task, .held⟩]

/-- The first query held, or else the task. -/
def getNextWft (log : List (Entry PermittedWFT)) : Option (PermittedWFT × List (Entry PermittedWFT)) :=
  (takeFirst isQuery log).or (takeFirst (!isQuery ·) log)

def step (log : List (Entry PermittedWFT)) : Call → List (Entry PermittedWFT)
  | .buffer task => buffer log task
  | .getNextWft => ((getNextWft log).map (·.2)).getD log

/-- The log of the queue. -/
def account (calls : List Call) : List (Entry PermittedWFT) := calls.foldl step []

end Queue

theorem intoBufferOrder_buffer (b : BufferedTasks) (task : PermittedWFT) :
    (b.buffer task).intoBufferOrder =
      (if isQuery task then b.intoBufferOrder else b.queryOnlyTasks) ++ [task] := by
  unfold buffer intoBufferOrder isQuery
  split
  · split
    · next h => simp [h, b.forBuffered h]
    · simp
  · simp

/-- Only queries are among the queries. -/
def AllQueries (b : BufferedTasks) : Prop := ∀ q ∈ b.queryOnlyTasks, isQuery q = true

variable {b : BufferedTasks}

theorem AllQueries.buffer (hb : AllQueries b) (task : PermittedWFT) : AllQueries (b.buffer task) := by
  unfold BufferedTasks.buffer
  split
  · split
    · intro q hm
      rcases List.mem_append.mp hm with hm | hm
      · exact hb q hm
      · rwa [List.mem_singleton.mp hm]
    · exact hb
  · exact hb

inductive Next (b : BufferedTasks) : Option (PermittedWFT × BufferedTasks) → Prop
  | none (h : b.intoBufferOrder = []) : Next b none
  | query {q b'} (pre post : List PermittedWFT) (hq : isQuery q = true)
      (h : b.intoBufferOrder = pre ++ q :: post) (hpre : ∀ x ∈ pre, isQuery x = false)
      (h' : b'.intoBufferOrder = pre ++ post) (hall : b'.queryOnlyTasks.Sublist b.queryOnlyTasks) :
        Next b (some (q, b'))
  | task {t} (ht : isQuery t = false) (h : b.intoBufferOrder = [t]) : Next b (some (t, empty))

theorem getNextWft_next (hb : AllQueries b) : Next b b.getNextWft := by
  unfold getNextWft
  split
  · next q rest hq =>
    refine .query [] (rest ++ b.wft.toList ++ b.queryOnlyTasksForBuffered) (hb q (by simp [hq])) ?_ (by simp) ?_ ?_
    · simp [intoBufferOrder, hq]
    · rfl
    · rw [hq]
      exact List.sublist_cons_self q rest
  · next hq =>
    split
    · next h => exact .none (by simp [intoBufferOrder, hq, h, b.forBuffered h])
    · next t h =>
      have ht : isQuery t = false := b.advances t h
      split
      · next q rest hf =>
        refine .query [t] rest (b.queries q (by simp [hf])) ?_ (by simpa using ht) ?_ (List.Sublist.refl _)
        · simp [intoBufferOrder, hq, h, hf]
        · simp [intoBufferOrder, hq, h]
      · next hf => exact .task ht (by simp [intoBufferOrder, hq, h, hf])

theorem takeWhile_intoBufferOrder (hb : AllQueries b) : b.intoBufferOrder.takeWhile isQuery = b.queryOnlyTasks := by
  unfold intoBufferOrder
  rw [List.append_assoc, List.takeWhile_append_of_pos hb]
  cases h : b.wft with
  | none => simp [b.forBuffered h]
  | some t =>
    have ht : isQuery t = false := b.advances t h
    simp [ht]

/-! ## The buffer and the queue -/

/-- The buffer holds what the queue holds. -/
structure Represents (x : BufferedTasks × List PermittedWFT) (log : List (Entry PermittedWFT)) : Prop where
  held : items .held log = x.1.intoBufferOrder
  returned : x.2.Perm (items .returned log)
  allQueries : AllQueries x.1
  newest : ∀ t ∈ x.1.intoBufferOrder, isQuery t = false →
    ((log.map Entry.item).filter (!isQuery ·)).getLast? = some t

variable {x : BufferedTasks × List PermittedWFT} {log : List (Entry PermittedWFT)}

theorem Represents.buffer (h : Represents x log) (task : PermittedWFT) :
    Represents (x.1.buffer task, x.2) (Queue.buffer log task) := by
  obtain ⟨hheld, hret, hall, hnew⟩ := h
  obtain ⟨hheld', hret', hitems⟩ := items_discardFrom (!isQuery ·) log
  have hwhile : (items .held log).takeWhile isQuery = x.1.queryOnlyTasks := by
    rw [hheld, takeWhile_intoBufferOrder hall]
  cases hq : isQuery task with
  | true =>
    refine ⟨?_, ?_, hall.buffer task, fun t ht hreal => ?_⟩
    · simp [Queue.buffer, hq, intoBufferOrder_buffer, items_append, hheld, items_cons]
    · simpa [Queue.buffer, hq, items_append, items_cons] using hret
    · simp only [intoBufferOrder_buffer, hq, if_true, List.mem_append, List.mem_singleton] at ht
      rcases ht with ht | rfl
      · simpa [Queue.buffer, hq] using hnew t ht hreal
      · rw [hq] at hreal
        cases hreal
  | false =>
    refine ⟨?_, ?_, hall.buffer task, fun t ht hreal => ?_⟩
    · simp [Queue.buffer, hq, intoBufferOrder_buffer, items_append, hheld', items_cons, hwhile]
    · simpa [Queue.buffer, hq, items_append, items_cons, hret'] using hret
    · simp only [intoBufferOrder_buffer, hq, List.mem_append, List.mem_singleton] at ht
      rcases ht with ht | rfl
      · rw [hall t ht] at hreal
        cases hreal
      · simp [Queue.buffer, hq]

theorem Represents.getNextWft (h : Represents x log) :
    Represents (BufferedTasks.step x .getNextWft) (Queue.step log .getNextWft) := by
  obtain ⟨hheld, hret, hall, hnew⟩ := h
  have hnext := getNextWft_next hall
  simp only [BufferedTasks.step, Queue.step, Queue.getNextWft]
  generalize x.1.getNextWft = r at hnext
  cases hnext with
  | none h =>
    rw [h] at hheld
    rw [takeFirst_eq_none (by simp [hheld]), takeFirst_eq_none (by simp [hheld])]
    exact ⟨hheld.trans h.symm, hret, hall, hnew⟩
  | @query q b' pre post hq h hpre h' hsub =>
    obtain ⟨log', ht, hheld', hret'⟩ := takeFirst_of_held hq (hheld.trans h) hpre
    rw [ht]
    refine ⟨hheld'.trans h'.symm, ?_, fun q' hq' => hall q' (hsub.subset hq'), fun t hm hreal => ?_⟩
    · exact List.perm_append_comm.trans ((hret.cons q).trans hret'.symm)
    · have hm' : t ∈ x.1.intoBufferOrder := by
        rw [h', List.mem_append] at hm
        rw [h]
        exact List.mem_append.mpr (hm.imp_right (List.mem_cons_of_mem _))
      have hnew' := hnew t hm' hreal
      rwa [← takeFirst_items ht] at hnew'
  | @task t hreal h =>
    have hone : items .held log = [] ++ t :: [] := hheld.trans h
    obtain ⟨log', ht, hheld', hret'⟩ := takeFirst_of_held (p := (!isQuery ·)) (by simp [hreal]) hone (by simp)
    rw [takeFirst_eq_none (by simp [hone, hreal]), ht]
    refine ⟨hheld', ?_, by simp [AllQueries, empty], by simp [intoBufferOrder, empty]⟩
    exact List.perm_append_comm.trans ((hret.cons t).trans hret'.symm)

/-- **A buffer does what the queue does.** -/
theorem run_represents (calls : List Call) : Represents (run calls) (Queue.account calls) := by
  have hfold : ∀ (calls : List Call) {x : BufferedTasks × List PermittedWFT} {log : List (Entry PermittedWFT)},
      Represents x log → Represents (calls.foldl step x) (calls.foldl Queue.step log) := by
    intro calls
    induction calls with
    | nil => exact fun h => h
    | cons call calls ih =>
      intro x log h
      cases call with
      | buffer task => exact ih (h.buffer task)
      | getNextWft => exact ih h.getNextWft
  exact hfold calls ⟨rfl, .nil, by simp [AllQueries, empty], by simp [intoBufferOrder, empty]⟩

theorem items_getNextWft {task : PermittedWFT} {log' : List (Entry PermittedWFT)}
    (h : Queue.getNextWft log = some (task, log')) : log'.map Entry.item = log.map Entry.item := by
  rcases Option.or_eq_some_iff.mp h with h | ⟨-, h⟩ <;> exact takeFirst_items h

theorem account_items (calls : List Call) : (Queue.account calls).map Entry.item = bufferedBy calls := by
  have hfold : ∀ (calls : List Call) (log : List (Entry PermittedWFT)),
      (calls.foldl Queue.step log).map Entry.item = log.map Entry.item ++ bufferedBy calls := by
    intro calls
    induction calls with
    | nil => simp [bufferedBy]
    | cons call calls ih =>
      intro log
      rw [List.foldl_cons, ih]
      cases call with
      | buffer task =>
        have hitems := (items_discardFrom (!isQuery ·) log).2.2
        simp only [Queue.step, Queue.buffer]
        split <;> simp [bufferedBy, hitems]
      | getNextWft =>
        simp only [Queue.step]
        cases h : Queue.getNextWft log with
        | none => rfl
        | some x => simp [items_getNextWft h, bufferedBy]
  exact hfold calls []

/-! ## Buffering again -/

theorem eq_of_intoBufferOrder {b' : BufferedTasks} (hb : AllQueries b) (hb' : AllQueries b')
    (h : b.intoBufferOrder = b'.intoBufferOrder) : b = b' := by
  have hqs : b.queryOnlyTasks = b'.queryOnlyTasks := by
    rw [← takeWhile_intoBufferOrder hb, h, takeWhile_intoBufferOrder hb']
  have hrest : b.wft.toList ++ b.queryOnlyTasksForBuffered = b'.wft.toList ++ b'.queryOnlyTasksForBuffered := by
    unfold intoBufferOrder at h
    rw [hqs, List.append_assoc, List.append_assoc] at h
    exact List.append_cancel_left h
  obtain ⟨wft, qs, fs, hf, ha, hq⟩ := b
  obtain ⟨wft', qs', fs', hf', ha', hq'⟩ := b'
  cases hqs
  cases wft with
  | none =>
    cases hf rfl
    cases wft' with
    | none =>
      cases hf' rfl
      rfl
    | some t => cases hrest
  | some t =>
    cases wft' with
    | none =>
      cases hf' rfl
      cases hrest
    | some t' =>
      cases hrest
      rfl

/-- Queries are put back in order. -/
theorem intoBufferOrder_foldl {queries : List PermittedWFT} (hq : ∀ q ∈ queries, isQuery q = true) :
    ∀ {b : BufferedTasks}, AllQueries b → AllQueries (queries.foldl buffer b) ∧
      (queries.foldl buffer b).intoBufferOrder = b.intoBufferOrder ++ queries := by
  induction queries with
  | nil => exact fun hb => ⟨hb, by simp⟩
  | cons q queries ih =>
    intro b hb
    obtain ⟨hall, horder⟩ := ih (fun q hm => hq q (List.mem_cons_of_mem _ hm)) (hb.buffer q)
    refine ⟨hall, horder.trans ?_⟩
    rw [intoBufferOrder_buffer, if_pos (hq q List.mem_cons_self), List.append_assoc]
    rfl

theorem filter_intoBufferOrder (hb : AllQueries b) : b.intoBufferOrder.filter (!isQuery ·) = b.wft.toList := by
  have hqs : b.queryOnlyTasks.filter (!isQuery ·) = [] := by simpa [AllQueries] using hb
  have hfs : b.queryOnlyTasksForBuffered.filter (!isQuery ·) = [] := by simpa [isQuery] using b.queries
  unfold intoBufferOrder
  rw [List.filter_append, List.filter_append, hqs, hfs]
  cases h : b.wft with
  | none => rfl
  | some t =>
    have ht : isQuery t = false := b.advances t h
    simp [ht]

theorem hasTasks_eq (b : BufferedTasks) : b.hasTasks = b.getNextWft.isSome := by
  unfold hasTasks getNextWft
  split
  · next h => simp [h]
  · next h =>
    split
    · next hw => simp [h, hw]
    · next t hw => split <;> simp [hw]

/-- Buffering all tasks again gives the same buffer. -/
theorem foldl_intoBufferOrder (hb : AllQueries b) : b.intoBufferOrder.foldl buffer empty = b := by
  have hempty : AllQueries empty := fun q hq => by cases hq
  obtain ⟨hall, horder⟩ := intoBufferOrder_foldl hb hempty
  simp only [intoBufferOrder, List.foldl_append]
  cases h : b.wft with
  | none =>
    refine eq_of_intoBufferOrder ?_ hb ?_ <;> rw [b.forBuffered h]
    · exact hall
    · exact horder.trans (by simp [intoBufferOrder, empty, h, b.forBuffered h])
  | some t =>
    obtain ⟨hall', horder'⟩ := intoBufferOrder_foldl b.queries (hall.buffer t)
    refine eq_of_intoBufferOrder hall' hb (horder'.trans ?_)
    have ht : isQuery t = false := b.advances t h
    have hqs : (b.queryOnlyTasks.foldl buffer empty).queryOnlyTasks = b.queryOnlyTasks := by
      rw [← takeWhile_intoBufferOrder hall, horder]
      exact List.takeWhile_eq_self_iff.mpr hb
    rw [intoBufferOrder_buffer, ht, hqs]
    simp [intoBufferOrder, h]

/-! ## The discipline -/

/-- **The queue discipline.** The tasks returned or held are those buffered and not discarded. Of those that advance
history only the newest is held. Queries come in order and before it. A buffer has tasks exactly when it returns one,
and buffering its tasks again gives it back. -/
theorem queue_discipline (calls : List Call) :
    (((run calls).2 ++ (run calls).1.intoBufferOrder).Perm (kept (Queue.account calls)) ∧
      (Queue.account calls).map Entry.item = bufferedBy calls) ∧
    (((run calls).1.intoBufferOrder.filter (!isQuery ·)).length ≤ 1 ∧
      ∀ t ∈ (run calls).1.intoBufferOrder, isQuery t = false →
        ((bufferedBy calls).filter (!isQuery ·)).getLast? = some t) ∧
    (∀ t b', (run calls).1.getNextWft = some (t, b') → ∃ pre post,
      items .held (Queue.account calls) = pre ++ t :: post ∧
      b'.intoBufferOrder = pre ++ post ∧ (∀ x ∈ pre, isQuery x = false) ∧ (isQuery t = false → pre ++ post = [])) ∧
    (run calls).1.hasTasks = (run calls).1.getNextWft.isSome ∧
    (run calls).1.intoBufferOrder.foldl buffer empty = (run calls).1 := by
  obtain ⟨hheld, hret, hall, hnew⟩ := run_represents calls
  have hitems := account_items calls
  refine ⟨⟨?_, hitems⟩, ⟨?_, ?_⟩, ?_, ?_, foldl_intoBufferOrder hall⟩
  · rw [← hheld]
    exact (hret.append_right _).trans (returned_append_held _)
  · rw [filter_intoBufferOrder hall]
    exact Option.length_toList_le
  · rwa [hitems] at hnew
  · intro t b' hnext
    have hcase := getNextWft_next hall
    rw [hnext] at hcase
    rw [hheld]
    cases hcase with
    | query pre post hq h hpre h' hsub => exact ⟨pre, post, h, h', hpre, by simp [hq]⟩
    | task ht h => exact ⟨[], [], h, rfl, by simp, by simp⟩
  · exact hasTasks_eq _

def sampleTask (taskToken : TaskToken) (query : Bool) : PermittedWFT where
  work :=
    { taskToken, attempt := 1, runId := 1, legacyQuery := query, queryRequests := []
      update := ⟨[], 0, if query then 0 else 3, true, 1⟩ }
  paginator := { runId := 1, previousWftStartedId := 0, wftStartedEventId := 3, nextPageToken := .done }

example :
    ((run [.buffer (sampleTask 1 true), .buffer (sampleTask 2 false), .buffer (sampleTask 3 true), .getNextWft,
      .getNextWft, .getNextWft]).2.map (·.work.taskToken)) = [1, 3, 2] := by decide

/-- The log without replaced tasks and the queries for them. -/
def withoutReplaced (skipping : Bool) : List (Entry PermittedWFT) → List PermittedWFT
  | [] => []
  | e :: log =>
    if isQuery e.item then (if skipping then [] else [e.item]) ++ withoutReplaced skipping log
    else (if e.fate = .discarded then [] else [e.item]) ++ withoutReplaced (decide (e.fate = .discarded)) log

/-- A query for the task that waits is returned before the task is replaced. -/
theorem query_of_replaced_returned :
    ∃ calls, ¬ ((run calls).2 ++ (run calls).1.intoBufferOrder).Perm (withoutReplaced false (Queue.account calls)) := by
  refine ⟨[.buffer (sampleTask 1 false), .buffer (sampleTask 2 true), .getNextWft, .buffer (sampleTask 3 false)], ?_⟩
  intro h
  have hlen := h.length_eq
  revert hlen
  decide

end BufferedTasks

end SdkCore
