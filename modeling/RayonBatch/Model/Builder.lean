import RayonBatch.Model.Executor

/-!
# Configuring an executor

A `Setting` is a call of one of the setters of `RayonBatchExecutorBuilder`. Whatever setters are
called before `build`, and in whatever order, the last call for a field decides it, and Rayon is
asked for a pool exactly when its request is `Proper`; otherwise the first check that fails decides
the error (`build_settings`).
-/

namespace RayonBatch

/-- A call of a setter (source `RayonBatchExecutorBuilder`). -/
inductive Setting where
  | thread_count (thread_count : Nat)
  | sequential_threshold (sequential_threshold : Nat)
  | report_interval (report_interval : Nat)
  /-- The `Arc` that the setter puts the reporter in. -/
  | reporter (reporter : Nat)
  | reporter_arc (reporter : Nat)
  /-- The `Arc` of a new `NoopReporter`. -/
  | no_reporter (reporter : Nat)
  | task_failure_policy (task_failure_policy : TaskFailurePolicy)
  | thread_name_prefix (name : String)
  | stack_size (stack_size : Nat)

namespace Setting

/-- The thread count that is set. -/
def thread_count? : Setting → Option Nat
  | thread_count n => some n
  | _ => none

/-- The sequential threshold that is set. -/
def sequential_threshold? : Setting → Option Nat
  | sequential_threshold n => some n
  | _ => none

/-- The report interval that is set. -/
def report_interval? : Setting → Option Nat
  | report_interval n => some n
  | _ => none

/-- The reporter that is set. -/
def reporter? : Setting → Option Nat
  | reporter arc | reporter_arc arc | no_reporter arc => some arc
  | _ => none

/-- The task failure policy that is set. -/
def task_failure_policy? : Setting → Option TaskFailurePolicy
  | task_failure_policy policy => some policy
  | _ => none

/-- The thread name prefix that is set. -/
def thread_name_prefix? : Setting → Option String
  | thread_name_prefix name => some name
  | _ => none

/-- The stack size that is set. -/
def stack_size? : Setting → Option (Option Nat)
  | stack_size n => some (some n)
  | _ => none

/-- The last value that some settings give to a field, or the value that it had. -/
def last {β : Type*} (read : Setting → Option β) (settings : List Setting) (before : β) : β :=
  (settings.filterMap read).getLast?.getD before

/-- Of settings in a row the last one for a field decides it. -/
lemma last_append_singleton {β : Type*} (read : Setting → Option β) (settings : List Setting)
    (setting : Setting) (before : β) :
    last read (settings ++ [setting]) before
      = (read setting).getD (last read settings before) := by
  unfold last
  rw [List.filterMap_append]
  cases e : read setting <;> simp [e]

end Setting

/-- What Rayon needs of a request: it chooses a number of threads itself when it is asked for none,
and no thread starts on an empty stack or under a name that holds a NUL. -/
structure RayonThreadPoolBuilder.Proper (config : RayonThreadPoolBuilder) : Prop where
  num_threads : 0 < config.num_threads
  stack_size : config.stack_size ≠ some 0
  thread_name : ∀ index, Char.ofNat 0 ∉ (config.thread_name index).toList

namespace RayonBatchExecutorBuilder

variable {π ε : Type*} {self before : RayonBatchExecutorBuilder} {settings : List Setting}

/-- Calls a setter. -/
def set (self : RayonBatchExecutorBuilder) : Setting → RayonBatchExecutorBuilder
  | .thread_count thread_count => { self with thread_count }
  | .sequential_threshold sequential_threshold => { self with sequential_threshold }
  | .report_interval report_interval => { self with report_interval }
  | .reporter reporter => { self with reporter }
  | .reporter_arc reporter => { self with reporter }
  | .no_reporter reporter => { self with reporter }
  | .task_failure_policy task_failure_policy => { self with task_failure_policy }
  | Setting.thread_name_prefix name => { self with thread_name_prefix := name }
  | .stack_size stack_size => { self with stack_size := some stack_size }

/-- Calls some setters one after the other. -/
def configure (self : RayonBatchExecutorBuilder) (settings : List Setting) :
    RayonBatchExecutorBuilder :=
  settings.foldl set self

/-- A builder whose fields hold the last values that some settings have given them. -/
structure Configured (before : RayonBatchExecutorBuilder) (settings : List Setting)
    (self : RayonBatchExecutorBuilder) : Prop where
  thread_count : self.thread_count = Setting.last Setting.thread_count? settings before.thread_count
  sequential_threshold : self.sequential_threshold
    = Setting.last Setting.sequential_threshold? settings before.sequential_threshold
  report_interval : self.report_interval
    = Setting.last Setting.report_interval? settings before.report_interval
  reporter : self.reporter = Setting.last Setting.reporter? settings before.reporter
  task_failure_policy : self.task_failure_policy
    = Setting.last Setting.task_failure_policy? settings before.task_failure_policy
  thread_name_prefix : self.thread_name_prefix
    = Setting.last Setting.thread_name_prefix? settings before.thread_name_prefix
  stack_size : self.stack_size = Setting.last Setting.stack_size? settings before.stack_size

/-- A setter decides its field and leaves the others. -/
lemma Configured.set (h : Configured before settings self) (setting : Setting) :
    Configured before (settings ++ [setting]) (self.set setting) := by
  obtain ⟨threads, threshold, interval, reporter, policy, name, stack⟩ := h
  constructor <;> rw [Setting.last_append_singleton] <;> cases setting <;> first | rfl | assumption

/-- A builder holds for every field what was set last. -/
lemma configured (before : RayonBatchExecutorBuilder) (settings : List Setting) :
    Configured before settings (before.configure settings) := by
  induction settings using List.reverseRecOn with
  | nil => constructor <;> rfl
  | append_singleton settings setting ih =>
    rw [configure, List.foldl_append]
    exact ih.set setting

/-- What `build` asks of Rayon. -/
def request (self : RayonBatchExecutorBuilder) : RayonThreadPoolBuilder where
  num_threads := self.thread_count
  thread_name := fun index => self.thread_name_prefix ++ "-" ++ toString index
  stack_size := self.stack_size

/-- No two threads of a pool have the same name. -/
lemma thread_name_injective (self : RayonBatchExecutorBuilder) :
    Function.Injective self.request.thread_name := by
  intro i j e
  have digits : Nat.toDigits 10 i = Nat.toDigits 10 j := by
    simpa [request] using congrArg String.toList e
  rw [← Nat.ofDigitChars_toDigits (n := i) (b := 10) (by decide) (by decide), digits]
  exact Nat.ofDigitChars_toDigits (by decide) (by decide)

/-- The index that ends the name of a thread holds no NUL. -/
lemma nul_mem_thread_name {index : Nat} :
    Char.ofNat 0 ∈ (self.request.thread_name index).toList ↔
      Char.ofNat 0 ∈ self.thread_name_prefix.toList := by
  have digits : Char.ofNat 0 ∉ Nat.toDigits 10 index := fun nul =>
    absurd (Nat.isDigit_of_mem_toDigits (by decide) (by decide) nul) (by decide)
  have hyphen : Char.ofNat 0 ≠ '-' := by decide
  simp [request, digits, hyphen]

/-- A request is proper when none of the checks of `build` fails. -/
lemma proper_request : self.request.Proper ↔
    self.thread_count ≠ 0 ∧ self.stack_size ≠ some 0 ∧
      Char.ofNat 0 ∉ self.thread_name_prefix.toList := by
  constructor
  · rintro ⟨threads, stack, name⟩
    exact ⟨threads.ne', stack, fun nul => name 0 (nul_mem_thread_name.mpr nul)⟩
  · rintro ⟨threads, stack, name⟩
    exact ⟨Nat.pos_of_ne_zero threads, stack, fun _ nul => name (nul_mem_thread_name.mp nul)⟩

/-- What is wrong with a configuration, the thread count first and Rayon last. -/
def Rejects (rayon : RayonThreadPoolBuilder → Except ε π) (self : RayonBatchExecutorBuilder) :
    RayonBatchExecutorBuildError ε → Prop
  | .ZeroThreadCount => self.thread_count = 0
  | .ZeroStackSize => self.thread_count ≠ 0 ∧ self.stack_size = some 0
  | .InvalidThreadNamePrefix => self.thread_count ≠ 0 ∧ self.stack_size ≠ some 0 ∧
    ∃ index, Char.ofNat 0 ∈ (self.request.thread_name index).toList
  | .BuildFailed source => self.request.Proper ∧ rayon self.request = .error source

variable {rayon : RayonThreadPoolBuilder → Except ε π}

/-- Rayon decides on a proper request. -/
lemma build_of_proper (proper : self.request.Proper) : build rayon self =
    match rayon self.request with
    | .error source => .error (.BuildFailed source)
    | .ok pool => .ok (new_with_rayon pool self proper.num_threads) := by
  obtain ⟨threads, stack, name⟩ := proper_request.mp proper
  rw [build, dif_neg threads, if_neg stack, if_neg (by simpa using name)]
  rfl

/-- Rayon is not asked with another one. -/
lemma build_of_not_proper (rayon : RayonThreadPoolBuilder → Except ε π)
    (improper : ¬ self.request.Proper) :
    ∃ error, build rayon self = .error error ∧ self.Rejects rayon error := by
  by_cases threads : self.thread_count = 0
  · exact ⟨.ZeroThreadCount, by rw [build, dif_pos threads], threads⟩
  by_cases stack : self.stack_size = some 0
  · exact ⟨.ZeroStackSize, by rw [build, dif_neg threads, if_pos stack], threads, stack⟩
  have nul : Char.ofNat 0 ∈ self.thread_name_prefix.toList :=
    by_contra fun name => improper (proper_request.mpr ⟨threads, stack, name⟩)
  refine ⟨.InvalidThreadNamePrefix, ?_, threads, stack, 0, nul_mem_thread_name.mpr nul⟩
  rw [build, dif_neg threads, if_neg stack, if_pos (by simpa using nul)]

/-- Only Rayon rejects a configuration whose request is proper. -/
lemma Rejects.asked {error : RayonBatchExecutorBuildError ε} (h : self.Rejects rayon error)
    (proper : self.request.Proper) :
    ∃ source, rayon self.request = .error source ∧ error = .BuildFailed source := by
  obtain ⟨threads, stack, name⟩ := proper_request.mp proper
  cases error with
  | ZeroThreadCount => exact absurd h threads
  | ZeroStackSize => exact absurd h.2 stack
  | InvalidThreadNamePrefix =>
    obtain ⟨-, -, _, nul⟩ := h
    exact absurd (nul_mem_thread_name.mp nul) name
  | BuildFailed source => exact ⟨source, h.2, rfl⟩

/-- No configuration is rejected for two reasons. -/
lemma Rejects.unique {error error' : RayonBatchExecutorBuildError ε}
    (h : self.Rejects rayon error) (h' : self.Rejects rayon error') : error = error' := by
  cases error <;> cases error' <;> simp only [Rejects, proper_request, nul_mem_thread_name] at h h'
  all_goals grind

/-- A build succeeds exactly when its request is proper and Rayon has built the pool. -/
lemma build_eq_ok_iff {executor} : build rayon self = .ok executor ↔
    self.request.Proper ∧ rayon self.request = .ok executor.pool ∧
      ∃ pos, executor = new_with_rayon executor.pool self pos := by
  by_cases proper : self.request.Proper
  · rw [build_of_proper proper]
    cases rayon self.request with
    | error => simp
    | ok pool =>
      simp only [proper, Except.ok.injEq, true_and]
      constructor
      · rintro rfl
        exact ⟨rfl, proper.num_threads, rfl⟩
      · rintro ⟨rfl, _, e⟩
        exact e.symm
  · obtain ⟨_, e, -⟩ := build_of_not_proper rayon proper
    simp [e, proper]

/-- A build that fails names the first check that rejects the request. -/
lemma rejects_of_build {error} (e : build rayon self = .error error) :
    self.Rejects rayon error := by
  by_cases proper : self.request.Proper
  · rw [build_of_proper proper] at e
    split at e
    next asked =>
      cases e
      exact ⟨proper, asked⟩
    · cases e
  · obtain ⟨_, e', rejects⟩ := build_of_not_proper rayon proper
    cases e'.symm.trans e
    exact rejects

/-- However the setters are called, `build` asks Rayon exactly when the request that the last of
them describe is proper, and names the first check that fails otherwise; the threads of the pool
have different names, and the executor carries the other settings. -/
theorem build_settings (rayon : RayonThreadPoolBuilder → Except ε π)
    (before : RayonBatchExecutorBuilder) (settings : List Setting) :
    ∃ self, self = before.configure settings ∧ Configured before settings self ∧
      Function.Injective self.request.thread_name ∧
      (∀ executor, build rayon self = .ok executor ↔
        self.request.Proper ∧ rayon self.request = .ok executor.pool ∧
          ∃ pos, executor = new_with_rayon executor.pool self pos) ∧
      ∀ error, build rayon self = .error error ↔ self.Rejects rayon error := by
  refine ⟨_, rfl, configured before settings, thread_name_injective _, fun _ => build_eq_ok_iff,
    fun error => ⟨rejects_of_build, fun rejects => ?_⟩⟩
  cases built : build rayon (before.configure settings) with
  | error error' => rw [rejects.unique (rejects_of_build built)]
  | ok executor =>
    obtain ⟨proper, asked, -⟩ := build_eq_ok_iff.mp built
    exact absurd (rejects.asked proper) (by simp [asked])

end RayonBatchExecutorBuilder

namespace RayonBatchExecutor
open RayonBatchExecutorBuilder

variable {π ε : Type*}

/-- The builder a configuration starts from (source `RayonBatchExecutor::builder`). -/
def builder (available_parallelism : Option { n : Nat // 0 < n }) (noop_reporter : Nat) :
    RayonBatchExecutorBuilder :=
  .default available_parallelism noop_reporter

/-- An executor of so many threads (source `RayonBatchExecutor::new`). -/
def new (rayon : RayonThreadPoolBuilder → Except ε π)
    (available_parallelism : Option { n : Nat // 0 < n }) (noop_reporter thread_count : Nat) :
    Except (RayonBatchExecutorBuildError ε) (RayonBatchExecutor π) :=
  ((builder available_parallelism noop_reporter).set (.thread_count thread_count)).build rayon

/-- With the default settings only the thread count can be wrong, or Rayon fails. -/
lemma new_eq_error {rayon : RayonThreadPoolBuilder → Except ε π} {available noop thread_count error}
    (e : new rayon available noop thread_count = .error error) :
    thread_count = 0 ∧ error = .ZeroThreadCount ∨ ∃ source, error = .BuildFailed source := by
  have rejects := rejects_of_build e
  cases error with
  | ZeroThreadCount => exact .inl ⟨rejects, rfl⟩
  | ZeroStackSize => cases rejects.2
  | InvalidThreadNamePrefix =>
    obtain ⟨-, -, _, nul⟩ := rejects
    have prefix_nul : Char.ofNat 0 ∈ DEFAULT_THREAD_NAME_PREFIX.toList := nul_mem_thread_name.mp nul
    exact absurd prefix_nul (by decide)
  | BuildFailed source => exact .inr ⟨source, rfl⟩

end RayonBatchExecutor

end RayonBatch
