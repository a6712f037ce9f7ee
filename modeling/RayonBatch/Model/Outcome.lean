import RayonBatch.Basis.Keyed

/-!
# Outcomes of a batch

The results a caller reads, with the fields that the documentation and the tests of this repository
name: counters, index-sorted failures, index-sorted sparse outputs, and the errors of a batch. An
outcome is read off a log, the list of completed tasks with their results in order of completion;
`outcome_eq_of_perm` and `outputs_eq_of_perm` say that this order does not matter.
-/

namespace RayonBatch

/-- Why a task failed (source `BatchTaskError`). -/
inductive BatchTaskError (E : Type*) where
  | Failed (error : E)
  | Panicked (message : Option String)
deriving DecidableEq

/-- Result of running a task; a panic is captured. -/
abbrev TaskResult (R E : Type*) :=
  Except (BatchTaskError E) R

/-- A failed task (source `BatchTaskFailure`). -/
structure BatchTaskFailure (E : Type*) where
  index : Nat
  error : BatchTaskError E
deriving DecidableEq

/-- An output (source `BatchTaskOutput`). -/
structure BatchTaskOutput (R : Type*) where
  index : Nat
  value : R
deriving DecidableEq

/-- Counters and failures of a batch (source `BatchOutcome`). -/
structure BatchOutcome (E : Type*) where
  task_count : Nat
  completed_count : Nat
  succeeded_count : Nat
  failed_count : Nat
  panicked_count : Nat
  failures : List (BatchTaskFailure E)
deriving DecidableEq

/-- Task errors and captured panics together (source `failure_count`). -/
def BatchOutcome.failure_count {E : Type*} (self : BatchOutcome E) : Nat :=
  self.failed_count + self.panicked_count

/-- Errors of a batch, with the partial outcome (source `BatchExecutionError`). -/
inductive BatchExecutionError (E S : Type*) where
  | ProgressReport (outcome : BatchOutcome E)
  | CountShortfall (expected actual : Nat) (outcome : BatchOutcome E)
  | CountExceeded (expected observed_at_least : Nat) (outcome : BatchOutcome E)
  | IncompleteSchedule (outcome : BatchOutcome E)
  | ScheduleFailed (source : S) (outcome : BatchOutcome E)

/-- Outcome and outputs of a callable batch (source `BatchCallResult`). -/
structure BatchCallResult (R E : Type*) where
  outcome : BatchOutcome E
  outputs : List (BatchTaskOutput R)

/-- Error of a callable batch, with the partial outputs (source `BatchCallError`). -/
structure BatchCallError (R E S : Type*) where
  error : BatchExecutionError E S
  outputs : List (BatchTaskOutput R)

/-- What `execute_with_count` returns. -/
abbrev ExecuteResult (E S : Type*) :=
  Except (BatchExecutionError E S) (BatchOutcome E)

/-- What `call_with_count` returns. -/
abbrev CallResult (R E S : Type*) :=
  Except (BatchCallError R E S) (BatchCallResult R E)

/-- How a call ends for its caller. -/
inductive CallEnd (β : Type*) where
  | returned (value : β)
  | unwound

variable {R E S S' : Type*}

/-- Converts the scheduler error (source `map_scheduler_error`). -/
def BatchExecutionError.map_scheduler_error (f : S → S') :
    BatchExecutionError E S → BatchExecutionError E S'
  | ProgressReport outcome => ProgressReport outcome
  | CountShortfall expected actual outcome => CountShortfall expected actual outcome
  | CountExceeded expected observed outcome => CountExceeded expected observed outcome
  | IncompleteSchedule outcome => IncompleteSchedule outcome
  | ScheduleFailed source outcome => ScheduleFailed (f source) outcome

/-- Converts the scheduler error (source `map_scheduler_error`). -/
def BatchCallError.map_scheduler_error (f : S → S') (self : BatchCallError R E S) :
    BatchCallError R E S' :=
  ⟨self.error.map_scheduler_error f, self.outputs⟩

/-- The same end with another value. -/
def CallEnd.map {β γ : Type*} (f : β → γ) : CallEnd β → CallEnd γ
  | returned value => returned (f value)
  | unwound => unwound

/-- A completed task. -/
structure Record (R E : Type*) where
  index : Nat
  result : TaskResult R E

/-- The failure of a completed task. -/
def Record.failure? (record : Record R E) : Option (BatchTaskFailure E) :=
  match record.result with
  | .ok _ => none
  | .error error => some ⟨record.index, error⟩

/-- The output of a completed task. -/
def Record.output? (record : Record R E) : Option (BatchTaskOutput R) :=
  match record.result with
  | .ok value => some ⟨record.index, value⟩
  | .error _ => none

/-- Whether a completed task succeeded. -/
def Record.succeeded (record : Record R E) : Bool :=
  match record.result with
  | .ok _ => true
  | .error _ => false

/-- Whether a completed task returned an error. -/
def Record.failed (record : Record R E) : Bool :=
  match record.result with
  | .error (.Failed _) => true
  | .ok _ | .error (.Panicked _) => false

/-- Whether a completed task panicked. -/
def Record.panicked (record : Record R E) : Bool :=
  match record.result with
  | .error (.Panicked _) => true
  | .ok _ | .error (.Failed _) => false

/-- The index-sorted failures of a log. -/
def failures (log : List (Record R E)) : List (BatchTaskFailure E) :=
  (log.filterMap Record.failure?).sortOn BatchTaskFailure.index

/-- The index-sorted outputs of a log. -/
def outputs (log : List (Record R E)) : List (BatchTaskOutput R) :=
  (log.filterMap Record.output?).sortOn BatchTaskOutput.index

/-- The outcome of a log. -/
def outcome (task_count : Nat) (log : List (Record R E)) : BatchOutcome E where
  task_count := task_count
  completed_count := log.length
  succeeded_count := log.countP Record.succeeded
  failed_count := log.countP Record.failed
  panicked_count := log.countP Record.panicked
  failures := failures log

/-- The callable result that goes with a batch result and its outputs. -/
def withOutputs (outputs : List (BatchTaskOutput R)) : ExecuteResult E S → CallResult R E S
  | .ok outcome => .ok ⟨outcome, outputs⟩
  | .error error => .error ⟨error, outputs⟩

/-- A failure has the position of its record. -/
lemma Record.failure?_index {record : Record R E} {failure} (h : record.failure? = some failure) :
    failure.index = record.index := by
  unfold failure? at h
  split at h <;> cases h
  rfl

/-- An output has the position of its record. -/
lemma Record.output?_index {record : Record R E} {output} (h : record.output? = some output) :
    output.index = record.index := by
  unfold output? at h
  split at h <;> cases h
  rfl

/-- What is read off a log by index keeps a sublist of its indices. -/
lemma map_index_filterMap_sublist {β : Type*} {read : Record R E → Option β} {index : β → Nat}
    (h : ∀ {record b}, read record = some b → index b = record.index) (log : List (Record R E)) :
    ((log.filterMap read).map index).Sublist (log.map Record.index) := by
  induction log with
  | nil => simp
  | cons record log ih =>
    cases e : read record with
    | none => simpa [List.filterMap_cons, e] using ih.cons _
    | some b => simpa [List.filterMap_cons, e, h e] using ih

/-- The order of the log does not matter for the failures. -/
lemma failures_eq_of_perm {log log' : List (Record R E)} (nodup : (log.map Record.index).Nodup)
    (h : log.Perm log') : failures log = failures log' :=
  List.sortOn_eq_of_perm
    (nodup.sublist (map_index_filterMap_sublist Record.failure?_index log)) (h.filterMap _)

/-- The order of the log does not matter for the outputs. -/
lemma outputs_eq_of_perm {log log' : List (Record R E)} (nodup : (log.map Record.index).Nodup)
    (h : log.Perm log') : outputs log = outputs log' :=
  List.sortOn_eq_of_perm
    (nodup.sublist (map_index_filterMap_sublist Record.output?_index log)) (h.filterMap _)

/-- The outcome of a log does not depend on the order of completion. -/
theorem outcome_eq_of_perm {log log' : List (Record R E)} (nodup : (log.map Record.index).Nodup)
    (h : log.Perm log') (task_count : Nat) : outcome task_count log = outcome task_count log' := by
  simp only [outcome, h.length_eq, h.countP_eq, failures_eq_of_perm nodup h]

/-- Failures and outputs share the indices of a log between them. -/
theorem failures_outputs_perm (log : List (Record R E)) :
    ((failures log).map BatchTaskFailure.index ++ (outputs log).map BatchTaskOutput.index).Perm
      (log.map Record.index) := by
  refine (((List.sortOn_perm _).map _).append ((List.sortOn_perm _).map _)).trans ?_
  induction log with
  | nil => simp
  | cons record log ih =>
    cases e : record.result with
    | ok value =>
      have f : record.failure? = none := by simp [Record.failure?, e]
      have o : record.output? = some ⟨record.index, value⟩ := by simp [Record.output?, e]
      simpa [List.filterMap_cons, f, o] using List.perm_middle.trans (ih.cons _)
    | error error =>
      have f : record.failure? = some ⟨record.index, error⟩ := by simp [Record.failure?, e]
      have o : record.output? = none := by simp [Record.output?, e]
      simpa [List.filterMap_cons, f, o] using ih

/-- Every completed task is counted once. -/
theorem outcome_counts (task_count : Nat) (log : List (Record R E)) :
    (outcome task_count log).succeeded_count + (outcome task_count log).failed_count
      + (outcome task_count log).panicked_count = (outcome task_count log).completed_count := by
  simp only [outcome]
  induction log with
  | nil => rfl
  | cons record log ih =>
    obtain ⟨index, result⟩ := record
    cases result with
    | ok value => simp [List.countP_cons, Record.succeeded, Record.failed, Record.panicked]; omega
    | error error =>
      cases error <;>
        simp [List.countP_cons, Record.succeeded, Record.failed, Record.panicked] <;> omega

/-- The failures of an outcome are the records without success. -/
lemma outcome_failure_count (task_count : Nat) (log : List (Record R E)) :
    (outcome task_count log).failure_count = log.countP (! Record.succeeded ·) := by
  simp only [outcome, BatchOutcome.failure_count]
  induction log with
  | nil => rfl
  | cons record log ih =>
    have one : (if record.failed then 1 else 0) + (if record.panicked then 1 else 0)
        = if ! record.succeeded then 1 else 0 := by
      obtain ⟨index, result⟩ := record
      cases result with
      | ok value => rfl
      | error error => cases error <;> rfl
    simp only [List.countP_cons]
    omega

end RayonBatch
