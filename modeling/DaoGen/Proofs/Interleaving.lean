import DaoGen.Proofs.Verdict
import DaoGen.Workers
import Mathlib.Algebra.GroupWithZero.Nat
import Mathlib.Data.List.Induction

/-!
# Interleavings

A pass whose targets are worked on at the same time gives what the sequential pass gives. Whose turn
it is decides only in which order reports are received: whatever the order, every worker comes to
the emission of its target, and the mark tells whether a report that was begun is an error.

## Main definitions

* `Interleaves`: a trace has the items of some lists, those of each list in order.
* `Worker.Turn`: what a turn of a worker does.
* `Workers.Reached`: what workers and the trace of their reports have in common after any turns.

## Main results

* `Workers.Reached.step`, `Workers.Reached.run`: one turn, and the turns of a schedule.
* `Workers.exists_schedule`: every interleaving of the reports comes about.
* `runConcurrently_agrees`: concurrent passes against the sequential one.
-/
namespace DaoGen

/-! ## Traces -/

section Interleaves

variable {α : Type}

/-- What a trace has from one origin. -/
def itemsOf (i : Nat) (trace : List (Nat × α)) : List α := (trace.filter (·.1 == i)).map (·.2)

/-- A trace has the items of each list in order, and nothing else. Every item has the number of the
list that it is from. -/
def Interleaves (lists : List (List α)) (trace : List (Nat × α)) : Prop :=
  ∀ i, itemsOf i trace = lists[i]?.getD []

@[simp] theorem itemsOf_nil (i : Nat) : itemsOf i ([] : List (Nat × α)) = [] := rfl

@[simp] theorem itemsOf_append (i : Nat) (trace trace' : List (Nat × α)) :
    itemsOf i (trace ++ trace') = itemsOf i trace ++ itemsOf i trace' := by
  simp [itemsOf]

theorem itemsOf_map (i j : Nat) (items : List α) :
    itemsOf j (items.map (i, ·)) = if i = j then items else [] := by
  unfold itemsOf
  split
  · next h => simp [h, List.filter_map, Function.comp_def]
  · next h => simp [h, List.filter_map, Function.comp_def]

theorem mem_itemsOf {i : Nat} {a : α} {trace : List (Nat × α)} :
    a ∈ itemsOf i trace ↔ (i, a) ∈ trace := by
  simp [itemsOf]

namespace Interleaves

variable {lists : List (List α)} {trace : List (Nat × α)}

/-- Items of one list come after those that it had. -/
theorem append {i : Nat} {items : List α} (more : List α) (h : Interleaves lists trace)
    (hi : lists[i]? = some items) :
    Interleaves (lists.set i (items ++ more)) (trace ++ more.map (i, ·)) := by
  intro j
  obtain ⟨hlt, rfl⟩ := List.getElem?_eq_some_iff.mp hi
  rw [itemsOf_append, itemsOf_map, h j, List.getElem?_set]
  by_cases hj : i = j
  · subst hj
    simp [hlt]
  · simp [hj]

/-- The first item is the first one of a list. -/
theorem of_cons {i : Nat} {a : α} (h : Interleaves lists ((i, a) :: trace)) :
    ∃ items, lists[i]? = some (a :: items) ∧ Interleaves (lists.set i items) trace := by
  have hitems (j : Nat) : itemsOf j ((i, a) :: trace) =
      (if i = j then [a] else []) ++ itemsOf j trace := by
    rw [← itemsOf_map i j [a], ← itemsOf_append]
    rfl
  have hi := h i
  rw [hitems, if_pos rfl, List.singleton_append] at hi
  cases hlist : lists[i]? with
  | none => simp [hlist] at hi
  | some items =>
    rw [hlist, Option.getD_some] at hi
    refine ⟨itemsOf i trace, by rw [hi], fun j => ?_⟩
    have hlt : i < lists.length := (List.getElem?_eq_some_iff.mp hlist).1
    rw [List.getElem?_set]
    by_cases hj : i = j
    · subst hj
      simp [hlt]
    · simpa [hitems, hj] using h j

/-- Lists can be taken one after another. -/
theorem exists_trace (lists : List (List α)) : ∃ trace, Interleaves lists trace := by
  induction lists using List.reverseRecOn with
  | nil => exact ⟨[], fun i => by simp⟩
  | append_singleton lists items ih =>
    obtain ⟨trace, htrace⟩ := ih
    refine ⟨trace ++ items.map (lists.length, ·), fun i => ?_⟩
    rw [itemsOf_append, itemsOf_map, htrace i]
    by_cases hi : lists.length = i
    · subst hi
      simp
    · rw [if_neg hi, List.append_nil, List.getElem?_append]
      split
      · rfl
      · next hlt =>
        rw [List.getElem?_eq_none (by omega), List.getElem?_eq_none (by simp; omega)]

/-- Nothing is left of lists that a trace without items has. -/
theorem eq_nil_of_nil (h : Interleaves lists []) {i : Nat} {items : List α}
    (hi : lists[i]? = some items) : items = [] := by
  simpa [hi] using (h i).symm

/-- A trace has all items. The induction is on the lists: without the items of the first one it is a
trace of the others, whose numbers are less by one. -/
theorem perm (h : Interleaves lists trace) : (trace.map (·.2)).Perm lists.flatten := by
  induction lists generalizing trace with
  | nil =>
    have hnone : trace = [] := by
      refine List.eq_nil_iff_forall_not_mem.mpr fun x hx => ?_
      have hmem := mem_itemsOf.mpr hx
      rw [h x.1] at hmem
      simp at hmem
    rw [hnone]
    rfl
  | cons items lists ih =>
    have hfirst : (trace.filter (·.1 == 0)).map (·.2) = items := h 0
    have hothers : Interleaves lists
        ((trace.filter (!·.1 == 0)).map fun x => (x.1 - 1, x.2)) := by
      intro i
      have hi := h (i + 1)
      rw [List.getElem?_cons_succ] at hi
      rw [← hi]
      simp only [itemsOf, List.filter_map, List.map_map, List.filter_filter, Function.comp_def]
      congr 2
      funext x
      rw [Bool.eq_iff_iff]
      simp
      omega
    have hperm := ih hothers
    rw [List.map_map, Function.comp_def] at hperm
    calc trace.map (·.2)
      _ |>.Perm ((trace.filter (·.1 == 0) ++ trace.filter (!·.1 == 0)).map (·.2)) :=
        ((List.filter_append_perm _ _).symm.map _)
      _ = items ++ (trace.filter (!·.1 == 0)).map (·.2) := by rw [List.map_append, hfirst]
      _ |>.Perm (items ++ lists.flatten) := hperm.append_left items

end Interleaves

end Interleaves

/-! ## Workers -/

namespace Worker

/-- The reports that a worker has begun. -/
def begun (w : Worker) : List Diagnostic :=
  w.emission.diagnostics ++ w.sending.toList.map (·.2)

/-- What a worker has once the report that it is making has ended. -/
def settled (w : Worker) : TargetEmission where
  units := w.emission.units
  errors := w.emission.errors ++ w.sending.toList.map (·.1)
  diagnostics := w.begun

/-- How many turns a worker needs at most: an attempt is one turn, and to end its report another. -/
def turnsLeft (w : Worker) : Nat := 2 * w.todo.length + w.sending.toList.length

theorem isDone_iff {w : Worker} : w.isDone = true ↔ w.todo = [] ∧ w.sending = none := by
  simp [isDone]

theorem settled_of_isDone {w : Worker} (h : w.isDone = true) : w.settled = w.emission := by
  simp [settled, begun, (isDone_iff.mp h).2]

variable (model : Model) (runtime : String)

/-- What a worker has in the end. -/
def result (w : Worker) : TargetEmission :=
  w.todo.foldl (TargetEmission.take model runtime) w.settled

theorem result_of_isDone {w : Worker} (h : w.isDone = true) :
    w.result model runtime = w.emission := by
  rw [result, (isDone_iff.mp h).1, List.foldl_nil, settled_of_isDone h]

/-- In the end the worker of a target has the emission of the target. -/
theorem result_ofTarget (emitters : List Emitter) (target : Target) :
    (ofTarget emitters model target).result model runtime =
      TargetEmission.ofModel emitters model target runtime :=
  rfl

/-- The reports of a worker that are still to be kept. -/
def pending (w : Worker) : List Diagnostic :=
  w.sending.toList.map (·.2) ++ w.todo.filterMap fun a =>
    (a.run model runtime).error?.map (TargetEmission.errorDiagnostic model a)

theorem diagnostics_result (w : Worker) :
    (w.result model runtime).diagnostics =
      w.emission.diagnostics ++ w.pending model runtime := by
  rw [result, TargetEmission.foldl_take]
  simp [settled, begun, pending]

theorem pending_of_isDone {w : Worker} (h : w.isDone = true) : w.pending model runtime = [] := by
  simp [pending, isDone_iff.mp h]

/-- What a turn of a worker does. The reports that it begins set the mark, and those that it ends
are kept; neither changes what the worker has in the end. -/
structure Turn (tracker : Tracker) (w : Worker) (tracker' : Tracker) (w' : Worker)
    (latched kept : List Diagnostic) : Prop where
  tracker : tracker' =
    ⟨tracker.kept ++ kept, tracker.failed || latched.any Diagnostic.isError⟩
  begun : w'.begun = w.begun ++ latched
  diagnostics : w'.emission.diagnostics = w.emission.diagnostics ++ kept
  result : w'.result model runtime = w.result model runtime
  single : kept.length ≤ 1
  turnsLeft : w.isDone = false → w'.turnsLeft < w.turnsLeft

/-- A turn begins a report, ends one, or does neither. -/
theorem turn_step (tracker : Tracker) (w : Worker) :
    ∃ latched kept, Turn model runtime tracker w (w.step model runtime tracker).1
      (w.step model runtime tracker).2 latched kept := by
  obtain ⟨todo, sending, emission⟩ := w
  cases sending with
  | some report =>
    obtain ⟨e, d⟩ := report
    refine ⟨[], [d], ?_⟩
    constructor <;> simp [step, Tracker.keep, begun, result, settled, turnsLeft]
  | none =>
    cases todo with
    | nil =>
      refine ⟨[], [], ?_⟩
      constructor <;> simp [step, begun, result, settled, turnsLeft, isDone]
    | cons a todo =>
      cases hrun : a.run model runtime with
      | ok u =>
        refine ⟨[], [], ?_⟩
        constructor <;>
          simp [step, hrun, begun, result, settled, turnsLeft, TargetEmission.take]
      | error e =>
        refine ⟨[TargetEmission.errorDiagnostic model a e], [], ?_⟩
        constructor <;>
          simp [step, hrun, Tracker.latch, begun, result, settled, turnsLeft, TargetEmission.take]
        omega

variable {model runtime}

/-- What a turn keeps is the first of what was to be kept. -/
theorem Turn.pending {tracker tracker' : Tracker} {w w' : Worker} {latched kept : List Diagnostic}
    (h : Turn model runtime tracker w tracker' w' latched kept) :
    w.pending model runtime = kept ++ w'.pending model runtime := by
  have hresult := diagnostics_result model runtime w'
  rw [h.result, diagnostics_result, h.diagnostics, List.append_assoc] at hresult
  exact List.append_cancel_left hresult

end Worker

/-- The items before and after a place do not change if the item there does. -/
theorem exists_append_of_getElem? {α : Type} {l : List α} {i : Nat} {a : α} (h : l[i]? = some a) :
    ∃ before after, l = before ++ a :: after ∧ ∀ b, l.set i b = before ++ b :: after := by
  obtain ⟨hlt, rfl⟩ := List.getElem?_eq_some_iff.mp h
  refine ⟨l.take i, l.drop (i + 1), by simp, fun b => ?_⟩
  rw [List.set_eq_take_append_cons_drop, if_pos hlt]

namespace Workers

section Run

variable (model : Model) (runtime : String)

theorem step_of_none {s : Workers} {i : Nat} (h : s.workers[i]? = none) :
    s.step model runtime i = s := by
  rw [step, h]

theorem step_of_some {s : Workers} {i : Nat} {w : Worker} (h : s.workers[i]? = some w) :
    s.step model runtime i =
      ⟨(w.step model runtime s.tracker).1,
        s.workers.set i (w.step model runtime s.tracker).2⟩ := by
  rw [step, h]

/-- What workers and the trace of the reports that were kept have in common, if the workers started
with a tracker and come to the given results. -/
structure Reached (tracker : Tracker) (results : List TargetEmission) (s : Workers)
    (trace : List (Nat × Diagnostic)) : Prop where
  kept : s.tracker.kept = tracker.kept ++ trace.map (·.2)
  failed : s.tracker.failed =
    (tracker.failed || (s.workers.flatMap Worker.begun).any Diagnostic.isError)
  trace : Interleaves (s.workers.map (·.emission.diagnostics)) trace
  results : s.workers.map (Worker.result model runtime) = results

variable {model runtime} {tracker : Tracker} {results : List TargetEmission} {s : Workers}
  {trace : List (Nat × Diagnostic)}

/-- A turn of a worker keeps what workers have in common with their trace. -/
theorem Reached.turn (h : Reached model runtime tracker results s trace) {i : Nat} {w w' : Worker}
    (hi : s.workers[i]? = some w) {tracker' : Tracker} {latched kept : List Diagnostic}
    (hturn : Worker.Turn model runtime s.tracker w tracker' w' latched kept) :
    Reached model runtime tracker results ⟨tracker', s.workers.set i w'⟩
      (trace ++ kept.map (i, ·)) := by
  obtain ⟨before, after, hworkers, hset⟩ := exists_append_of_getElem? hi
  constructor
  case kept => simp [hturn.tracker, h.kept, Function.comp_def]
  case failed =>
    have hfailed := h.failed
    rw [hworkers] at hfailed
    rw [hset, hturn.tracker, hfailed]
    simp only [List.flatMap_append, List.flatMap_cons, List.any_append, hturn.begun]
    ac_rfl
  case trace =>
    rw [List.map_set, hturn.diagnostics]
    exact h.trace.append kept (by simp [hi])
  case results =>
    rw [← h.results, hset, hworkers]
    simp [hturn.result]

theorem Reached.step (h : Reached model runtime tracker results s trace) (i : Nat) :
    ∃ kept : List Diagnostic, Reached model runtime tracker results (s.step model runtime i)
      (trace ++ kept.map (i, ·)) := by
  cases hi : s.workers[i]? with
  | none =>
    refine ⟨[], ?_⟩
    rwa [step_of_none model runtime hi, List.map_nil, List.append_nil]
  | some w =>
    obtain ⟨latched, kept, hturn⟩ := Worker.turn_step model runtime s.tracker w
    rw [step_of_some model runtime hi]
    exact ⟨kept, h.turn hi hturn⟩

/-- The turns of a schedule keep what workers have in common with their trace, which gets longer. -/
theorem Reached.run (h : Reached model runtime tracker results s trace) (schedule : List Nat) :
    ∃ more, Reached model runtime tracker results (s.run model runtime schedule)
      (trace ++ more) := by
  induction schedule generalizing s trace with
  | nil => exact ⟨[], by rwa [List.append_nil]⟩
  | cons i schedule ih =>
    obtain ⟨kept, hstep⟩ := h.step i
    obtain ⟨more, hrun⟩ := ih hstep
    exact ⟨kept.map (i, ·) ++ more, by rwa [← List.append_assoc]⟩

/-- Workers that are done have the results, and their trace has the reports of each. -/
theorem Reached.of_isDone (h : Reached model runtime tracker results s trace)
    (hdone : s.isDone = true) :
    s.workers.map (·.emission) = results ∧ Interleaves (results.map (·.diagnostics)) trace ∧
      s.tracker.failed =
        (tracker.failed || (results.flatMap (·.diagnostics)).any Diagnostic.isError) := by
  have hworkers : ∀ w ∈ s.workers, w.isDone = true := List.all_eq_true.mp hdone
  have hemissions : s.workers.map (·.emission) = results := by
    rw [← h.results]
    exact List.map_congr_left fun w hw =>
      (Worker.result_of_isDone model runtime (hworkers w hw)).symm
  have hbegun : s.workers.flatMap Worker.begun = results.flatMap (·.diagnostics) := by
    rw [← hemissions, List.flatMap_map]
    refine List.flatMap_congr fun w hw => ?_
    rw [← Worker.settled_of_isDone (hworkers w hw)]
    rfl
  refine ⟨hemissions, ?_, by rw [h.failed, hbegun]⟩
  rw [← hemissions, List.map_map]
  exact h.trace

/-! ### Schedules -/

/-- How many turns there are at most until all workers are done. -/
def turnsLeft (s : Workers) : Nat := (s.workers.map Worker.turnsLeft).sum

/-- What is still to be kept after a turn, and how many turns are left. -/
theorem pending_turn {i : Nat} {w w' : Worker} (hi : s.workers[i]? = some w) {tracker' : Tracker}
    {latched kept : List Diagnostic}
    (hturn : Worker.Turn model runtime s.tracker w tracker' w' latched kept)
    (hw : w.isDone = false) :
    (s.workers.set i w').map (Worker.pending model runtime) =
        (s.workers.map (Worker.pending model runtime)).set i (w'.pending model runtime) ∧
      turnsLeft ⟨tracker', s.workers.set i w'⟩ < s.turnsLeft := by
  obtain ⟨before, after, hworkers, hset⟩ := exists_append_of_getElem? hi
  have hless := hturn.turnsLeft hw
  refine ⟨List.map_set, ?_⟩
  simp only [turnsLeft]
  rw [hset, hworkers]
  simp
  omega

/-- Unless all workers are done there is one of them whose turn keeps the next item of a trace, or
nothing. -/
theorem exists_turn (h : Interleaves (s.workers.map (Worker.pending model runtime)) trace)
    (hdone : s.isDone = false) :
    ∃ i trace',
      Interleaves ((s.step model runtime i).workers.map (Worker.pending model runtime)) trace' ∧
      (s.step model runtime i).tracker.kept ++ trace'.map (·.2) =
        s.tracker.kept ++ trace.map (·.2) ∧
      (s.step model runtime i).turnsLeft < s.turnsLeft := by
  -- the worker whose report is next, or anyone who is not done if no report is left
  obtain ⟨i, w, hi, hw, hnext⟩ : ∃ (i : Nat) (w : Worker), s.workers[i]? = some w ∧
      w.isDone = false ∧ ∀ d rest, w.pending model runtime = d :: rest →
        ∃ trace', trace = (i, d) :: trace' ∧
          Interleaves ((s.workers.map (Worker.pending model runtime)).set i rest) trace' := by
    cases trace with
    | nil =>
      obtain ⟨w, hmem, hw⟩ := List.all_eq_false.mp hdone
      obtain ⟨i, hi⟩ := List.mem_iff_getElem?.mp hmem
      have hnone : w.pending model runtime = [] := h.eq_nil_of_nil (i := i) (by simp [hi])
      exact ⟨i, w, hi, by simpa using hw, fun d rest hpending => by simp [hnone] at hpending⟩
    | cons x trace =>
      obtain ⟨i, d⟩ := x
      obtain ⟨items, hitems, htrace⟩ := h.of_cons
      rw [List.getElem?_map, Option.map_eq_some_iff] at hitems
      obtain ⟨w, hi, hpending⟩ := hitems
      refine ⟨i, w, hi, ?_, fun d' rest hd' => ?_⟩
      · rw [Bool.eq_false_iff]
        intro hw
        simp [Worker.pending_of_isDone model runtime hw] at hpending
      · obtain ⟨rfl, rfl⟩ := List.cons.inj (hpending.symm.trans hd')
        exact ⟨trace, rfl, htrace⟩
  obtain ⟨latched, kept, hturn⟩ := Worker.turn_step model runtime s.tracker w
  have hpending := hturn.pending
  obtain ⟨hlists, hless⟩ := pending_turn hi hturn hw
  refine ⟨i, ?_⟩
  rw [step_of_some model runtime hi]
  match kept, hturn.single with
  | [], _ =>
    refine ⟨trace, ?_, by simp [hturn.tracker], hless⟩
    have hsame : (s.workers.map (Worker.pending model runtime)).set i
        (w.pending model runtime) = s.workers.map (Worker.pending model runtime) := by
      obtain ⟨before, after, hworkers, hset⟩ := exists_append_of_getElem? hi
      rw [← List.map_set, hset, ← hworkers]
    rw [hlists, ← List.nil_append (Worker.pending _ _ _), ← hpending, hsame]
    exact h
  | [d], _ =>
    obtain ⟨trace', rfl, htrace⟩ := hnext d _ hpending
    refine ⟨trace', ?_, by simp [hturn.tracker], hless⟩
    rw [hlists]
    exact htrace

/-- Every interleaving of the reports that are still to be kept comes about. -/
theorem exists_schedule (h : Interleaves (s.workers.map (Worker.pending model runtime)) trace) :
    ∃ schedule, (s.run model runtime schedule).isDone = true ∧
      (s.run model runtime schedule).tracker.kept = s.tracker.kept ++ trace.map (·.2) := by
  induction hleft : s.turnsLeft using Nat.strongRecOn generalizing s trace with
  | _ left ih =>
    cases hdone : s.isDone with
    | true =>
      have hnone : trace.map (·.2) = [] := by
        have hperm := h.perm
        rw [List.flatten_eq_nil_iff.mpr] at hperm
        · exact hperm.eq_nil
        · intro items hitems
          obtain ⟨w, hw, rfl⟩ := List.mem_map.mp hitems
          exact Worker.pending_of_isDone model runtime (List.all_eq_true.mp hdone w hw)
      exact ⟨[], hdone, by rw [hnone, List.append_nil]; rfl⟩
    | false =>
      obtain ⟨i, trace', htrace, hkept, hless⟩ := exists_turn h hdone
      obtain ⟨schedule, hend, hall⟩ := ih _ (hleft ▸ hless) htrace rfl
      exact ⟨i :: schedule, hend, hall.trans hkept⟩

/-- In whatever state workers are, they can be done. -/
theorem exists_isDone (s : Workers) : ∃ schedule, (s.run model runtime schedule).isDone = true := by
  obtain ⟨trace, htrace⟩ :=
    Interleaves.exists_trace (s.workers.map (Worker.pending model runtime))
  obtain ⟨schedule, hdone, _⟩ := exists_schedule htrace
  exact ⟨schedule, hdone⟩

theorem run_append (schedule more : List Nat) :
    s.run model runtime (schedule ++ more) =
      (s.run model runtime schedule).run model runtime more :=
  List.foldl_append

end Run

end Workers

/-! ## Passes -/

/-- An outcome and a tracker are those of another outcome but for the order in which the reports of
targets were received, those of each target in order. -/
structure Outcome.IsInterleaved (first : List Diagnostic) (reports : List (List Diagnostic))
    (sequential : Outcome) (tracker : Tracker) (o : Outcome) : Prop where
  state : o.state = sequential.state
  units : o.units = sequential.units
  deferred : o.deferred = sequential.deferred
  modelErrors : o.modelErrors = sequential.modelErrors
  emissionErrors : o.emissionErrors = sequential.emissionErrors
  perm : o.diagnostics.Perm sequential.diagnostics
  order : ∃ trace, Interleaves reports trace ∧ o.diagnostics = first ++ trace.map (·.2)
  kept : tracker.kept = o.diagnostics
  failed : tracker.failed = true ↔ ∃ d ∈ o.diagnostics, d.isError = true

/-- Workers that are done give what their results give, one after another. -/
theorem Outcome.isInterleaved_ofWorkers {e : Extraction} {model : Model} {runtime : String}
    {tracker : Tracker} {results : List TargetEmission} {s : Workers}
    {trace : List (Nat × Diagnostic)}
    (htracker : tracker.failed = tracker.kept.any Diagnostic.isError)
    (h : Workers.Reached model runtime tracker results s trace) (hdone : s.isDone = true) :
    IsInterleaved tracker.kept (results.map (·.diagnostics)) (ofEmissions e tracker results)
      s.tracker (ofWorkers e s) := by
  obtain ⟨hemissions, htrace, hfailed⟩ := h.of_isDone hdone
  have hperm : (trace.map (·.2)).Perm (results.flatMap (·.diagnostics)) := htrace.perm
  constructor
  case state => simp only [ofWorkers, ofEmissions, hemissions, hfailed, Tracker.failed_reportAll]
  case units => simp only [ofWorkers, ofEmissions, hemissions]
  case deferred => rfl
  case modelErrors => rfl
  case emissionErrors => simp only [ofWorkers, ofEmissions, hemissions]
  case perm =>
    simp only [ofWorkers, ofEmissions, h.kept, Tracker.kept_reportAll]
    exact hperm.append_left _
  case order => exact ⟨trace, htrace, h.kept⟩
  case kept => rfl
  case failed =>
    rw [hfailed, htracker, ← hperm.any_eq, ← List.any_append, ← h.kept, List.any_eq_true]
    rfl

section RunConcurrently

variable (options : Options) (emitters : List Emitter) (source : DeclarationSource)

/-- The workers of a pass before the first turn. -/
def Workers.start : Workers where
  tracker := ⟨(Extraction.ofSource source).diagnostics, false⟩
  workers := options.targets.map (Worker.ofTarget emitters (Extraction.ofSource source).model)

/-- What the targets of a pass give. -/
def targetEmissions : List TargetEmission :=
  options.targets.map fun target =>
    TargetEmission.ofModel emitters (Extraction.ofSource source).model target options.runtime

/-- What the targets of a pass report. No target is worked on after a malformed declaration. -/
def targetReports : List (List Diagnostic) :=
  if (Extraction.ofSource source).isValid then
    (targetEmissions options emitters source).map (·.diagnostics)
  else []

theorem Workers.reached_start :
    Reached (Extraction.ofSource source).model options.runtime
      ⟨(Extraction.ofSource source).diagnostics, false⟩ (targetEmissions options emitters source)
      (start options emitters source) [] := by
  constructor
  case kept => simp [start]
  case failed =>
    have hbegun : (start options emitters source).workers.flatMap Worker.begun = [] :=
      List.flatMap_eq_nil_iff.mpr fun w hw => by
        obtain ⟨target, _, rfl⟩ := List.mem_map.mp hw
        rfl
    rw [hbegun]
    rfl
  case trace =>
    intro i
    simp only [start, itemsOf_nil, List.map_map, List.getElem?_map]
    cases options.targets[i]? <;> rfl
  case results =>
    rw [start, List.map_map]
    exact List.map_congr_left fun target _ => Worker.result_ofTarget _ _ emitters target

/-- All that the targets of a pass report is still to be kept before the first turn. -/
theorem Workers.pending_start :
    (start options emitters source).workers.map
        (Worker.pending (Extraction.ofSource source).model options.runtime) =
      (targetEmissions options emitters source).map (·.diagnostics) := by
  rw [start, targetEmissions, List.map_map, List.map_map]
  refine List.map_congr_left fun target _ => ?_
  have hresult := Worker.diagnostics_result (Extraction.ofSource source).model options.runtime
    (Worker.ofTarget emitters (Extraction.ofSource source).model target)
  exact hresult.symm

/-- A pass stops after a malformed declaration, or goes through the turns of its workers. -/
theorem runConcurrently_cases (schedule : List Nat) :
    ((Extraction.ofSource source).isValid = false ∧
      runConcurrently options emitters source schedule =
        some (⟨(Extraction.ofSource source).diagnostics, true⟩,
          runPass options emitters source)) ∨
    ((Extraction.ofSource source).isValid = true ∧
      runConcurrently options emitters source schedule =
        let s := (Workers.start options emitters source).run (Extraction.ofSource source).model
          options.runtime schedule
        if s.isDone then some (s.tracker, Outcome.ofWorkers (Extraction.ofSource source) s)
        else none) := by
  have htracker := Tracker.reportAll_empty (Extraction.ofSource source).diagnostics
  rw [Extraction.any_isError_diagnostics] at htracker
  cases hvalid : (Extraction.ofSource source).isValid with
  | false =>
    refine .inl ⟨rfl, ?_⟩
    rw [runPass_eq]
    simp [runConcurrently, htracker, hvalid]
  | true =>
    refine .inr ⟨rfl, ?_⟩
    simp only [runConcurrently, htracker, hvalid]
    rfl

/-- The sequential pass goes through the same targets. -/
theorem runPass_of_isValid (hvalid : (Extraction.ofSource source).isValid = true) :
    runPass options emitters source =
      Outcome.ofEmissions (Extraction.ofSource source)
        ⟨(Extraction.ofSource source).diagnostics, false⟩
        (targetEmissions options emitters source) := by
  rcases runPass_cases options emitters source with ⟨herrors, _⟩ | ⟨_, heq⟩
  · exact absurd (List.isEmpty_iff.mp hvalid) herrors
  · exact heq

theorem diagnostics_runPass :
    (runPass options emitters source).diagnostics =
      (Extraction.ofSource source).diagnostics ++
        (targetReports options emitters source).flatten := by
  rcases runPass_cases options emitters source with ⟨herrors, heq⟩ | ⟨herrors, heq⟩
  · simp [heq, targetReports, Extraction.isValid, herrors]
  · have hvalid : (Extraction.ofSource source).isValid = true := by
      simp [Extraction.isValid, herrors]
    rw [runPass_of_isValid options emitters source hvalid, targetReports, if_pos hvalid]
    exact Tracker.kept_reportAll _ _

/-- A pass that stops before its targets is the sequential one. -/
theorem isInterleaved_of_not_isValid (hvalid : (Extraction.ofSource source).isValid = false) :
    Outcome.IsInterleaved (Extraction.ofSource source).diagnostics
      (targetReports options emitters source) (runPass options emitters source)
      ⟨(Extraction.ofSource source).diagnostics, true⟩ (runPass options emitters source) := by
  have hreports : targetReports options emitters source = [] := by simp [targetReports, hvalid]
  have hdiagnostics := diagnostics_runPass options emitters source
  rw [hreports, List.flatten_nil, List.append_nil] at hdiagnostics
  constructor
  case order => exact ⟨[], fun i => by simp [hreports], by simp [hdiagnostics]⟩
  case kept => exact hdiagnostics.symm
  case failed =>
    have herror := Extraction.any_isError_diagnostics source
    rw [hvalid, Bool.not_false, List.any_eq_true] at herror
    rw [hdiagnostics]
    exact iff_of_true rfl herror
  all_goals rfl

/-- Every concurrent pass that has an outcome has that of the sequential one. -/
theorem isInterleaved_runConcurrently {schedule : List Nat} {tracker : Tracker} {o : Outcome}
    (h : runConcurrently options emitters source schedule = some (tracker, o)) :
    Outcome.IsInterleaved (Extraction.ofSource source).diagnostics
      (targetReports options emitters source) (runPass options emitters source) tracker o := by
  rcases runConcurrently_cases options emitters source schedule with ⟨hvalid, heq⟩ | ⟨hvalid, heq⟩
  · obtain ⟨rfl, rfl⟩ := Prod.mk.inj (Option.some.inj (heq.symm.trans h))
    exact isInterleaved_of_not_isValid options emitters source hvalid
  · obtain ⟨trace, hreached⟩ := (Workers.reached_start options emitters source).run schedule
    have herror := Extraction.any_isError_diagnostics source
    rw [hvalid, Bool.not_true] at herror
    rw [heq] at h
    dsimp only at h
    split at h
    · next hdone =>
      obtain ⟨rfl, rfl⟩ := Prod.mk.inj (Option.some.inj h)
      rw [runPass_of_isValid options emitters source hvalid, targetReports, if_pos hvalid]
      exact Outcome.isInterleaved_ofWorkers herror.symm hreached hdone
    · cases h

/-- Every order in which the reports of each target are in order is that of a schedule. -/
theorem exists_runConcurrently_of_interleaves {trace : List (Nat × Diagnostic)}
    (h : Interleaves (targetReports options emitters source) trace) :
    ∃ schedule tracker o, runConcurrently options emitters source schedule = some (tracker, o) ∧
      o.diagnostics = (Extraction.ofSource source).diagnostics ++ trace.map (·.2) := by
  cases hvalid : (Extraction.ofSource source).isValid with
  | false =>
    have hreports : targetReports options emitters source = [] := by simp [targetReports, hvalid]
    have hdiagnostics := diagnostics_runPass options emitters source
    rw [hreports] at h hdiagnostics
    have hnone : trace.map (·.2) = [] := h.perm.eq_nil
    have hrun := runConcurrently_cases options emitters source []
    rw [hvalid] at hrun
    refine ⟨[], _, _, hrun.resolve_right (by simp) |>.2, ?_⟩
    rw [hdiagnostics, hnone]
    rfl
  | true =>
    rw [targetReports, if_pos hvalid, ← Workers.pending_start] at h
    obtain ⟨schedule, hdone, hkept⟩ := Workers.exists_schedule h
    have hrun := runConcurrently_cases options emitters source schedule
    rw [hvalid] at hrun
    have heq := hrun.resolve_left (by simp) |>.2
    exact ⟨schedule, _, _, heq.trans (if_pos hdone), hkept⟩

/-- After any turns there are some that give an outcome. -/
theorem exists_isSome_runConcurrently (schedule : List Nat) : ∃ more,
    (runConcurrently options emitters source (schedule ++ more)).isSome = true := by
  have hdone : ∃ more, ((Workers.start options emitters source).run
      (Extraction.ofSource source).model options.runtime (schedule ++ more)).isDone = true := by
    simp only [Workers.run_append]
    exact Workers.exists_isDone _
  obtain ⟨more, hdone⟩ := hdone
  refine ⟨more, ?_⟩
  rcases runConcurrently_cases options emitters source (schedule ++ more) with
    ⟨_, heq⟩ | ⟨_, heq⟩
  · rw [heq]
    rfl
  · rw [heq]
    exact Option.isSome_iff_exists.mpr ⟨_, if_pos hdone⟩

end RunConcurrently

/-- A concurrent pass gives what the sequential one gives, whatever the schedule: the outcome
is the same but for the order of the diagnostics, in which the reports of each target stay in order,
and the mark is set just if an error was reported. Every order of that kind comes about, and in
whatever state the workers are, they can be done. -/
theorem runConcurrently_agrees (options : Options) (emitters : List Emitter)
    (source : DeclarationSource) :
    let first := (Extraction.ofSource source).diagnostics
    let reports := targetReports options emitters source
    let sequential := runPass options emitters source
    sequential.diagnostics = first ++ reports.flatten ∧
    (∀ schedule tracker o, runConcurrently options emitters source schedule = some (tracker, o) →
      Outcome.IsInterleaved first reports sequential tracker o) ∧
    (∀ trace, Interleaves reports trace → ∃ schedule tracker o,
      runConcurrently options emitters source schedule = some (tracker, o) ∧
        o.diagnostics = first ++ trace.map (·.2)) ∧
    ∀ schedule, ∃ more,
      (runConcurrently options emitters source (schedule ++ more)).isSome = true := by
  intro first reports sequential
  refine ⟨diagnostics_runPass options emitters source, ?_, ?_, ?_⟩
  · intro schedule tracker o hrun
    exact isInterleaved_runConcurrently options emitters source hrun
  · intro trace htrace
    exact exists_runConcurrently_of_interleaves options emitters source htrace
  · exact exists_isSome_runConcurrently options emitters source

/-- Two targets report a DAO each. The second one begins its report after the first one did and ends
it before. -/
theorem runConcurrently_agrees_unnamed :
    let options : Options := { targets := [.mobile, .browser], parallel := true }
    let sequential := runPass options [.implementation] unnamedSource
    ∃ tracker o,
      runConcurrently options [.implementation] unnamedSource [0, 1, 1, 0] = some (tracker, o) ∧
      o.state = sequential.state ∧ o.emissionErrors = sequential.emissionErrors ∧
      tracker.failed = true ∧ o.diagnostics.length = 2 ∧
      o.diagnostics = sequential.diagnostics.reverse := by
  intro options sequential
  obtain ⟨_, hall, _⟩ := runConcurrently_agrees options [.implementation] unnamedSource
  cases hrun : runConcurrently options [.implementation] unnamedSource [0, 1, 1, 0] with
  | none =>
    have hsome : (runConcurrently options [.implementation] unnamedSource [0, 1, 1, 0]).isSome =
        true := by
      decide +kernel
    rw [hrun] at hsome
    cases hsome
  | some x =>
    obtain ⟨tracker, o⟩ := x
    have hsame := hall _ _ _ hrun
    have hdiagnostics : (runConcurrently options [.implementation] unnamedSource
        [0, 1, 1, 0]).map (·.2.diagnostics) = some sequential.diagnostics.reverse ∧
        sequential.diagnostics.length = 2 ∧ sequential.diagnostics.any Diagnostic.isError := by
      decide +kernel
    rw [hrun] at hdiagnostics
    obtain ⟨horder, hlength, herror⟩ := hdiagnostics
    have horder : o.diagnostics = sequential.diagnostics.reverse := Option.some.inj horder
    refine ⟨tracker, o, rfl, hsame.state, hsame.emissionErrors, ?_, ?_, horder⟩
    · rw [hsame.failed, ← List.any_eq_true, hsame.perm.any_eq]
      exact herror
    · rw [hsame.perm.length_eq, hlength]

end DaoGen
