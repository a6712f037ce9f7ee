import RayonBatch.Batch.Step

/-!
# Running a parallel call

For a source that is a function, a label determines the step it names. `Batch.exec` computes that
step, and `exec_step` says that it is one; concrete schedules are then evaluated with `Runs.follow`.
-/

namespace RayonBatch
open Relation

variable {σ α : Type*}

/-- A source whose answers are given by a function. -/
def Source.ofFun (pull : List (ParallelBatchTask α) → σ → Pull σ α) : Source σ α :=
  fun log s answer => answer = pull log s

/-- A source that follows a script of tasks, in which a gap unwinds. -/
def script {ρ : Type*} : List ρ → List (Option α) → Pull (List (Option α)) α
  | _, some a :: s => .some a s
  | _, none :: _ => .unwind
  | _, [] => .none []

namespace Batch

/-- The step of the producer. -/
def exec_producer (pull : List (ParallelBatchTask α) → σ → Pull σ α) (b : Batch σ α) :
    Option (Batch σ α) :=
  match b.producer with
  | .spawning (n + 1) => some { b with
      producer := .spawning n
      channel := b.channel.cloneReceiver
      workers := b.workers ++ [.unstarted] }
  | .spawning 0 => some { b with
      producer := .pulling
      channel := b.channel.dropReceiver }
  | .pulling =>
    match pull b.recorded b.source with
    | .quiet s => some { b with source := s }
    | .some a s => some { b with
        source := s
        producer := .sending ⟨b.yielded.length, a⟩
        yielded := b.yielded ++ [⟨b.yielded.length, a⟩] }
    | .none s => some { b with
        source := s
        producer := .returned (.ok ())
        channel := b.channel.dropSender }
    | .unwind => some { b with
        producer := .unwound
        channel := b.channel.dropSender }
  | .sending t =>
    match b.channel.send t with
    | .sent c => some { b with
        producer := .pulling
        channel := c }
    | .disconnected => some { b with
        producer := .returned (.error .WorkChannelDisconnected)
        channel := b.channel.dropSender
        dropped := b.dropped ++ [t] }
    | .blocked => none
  | .returned _ | .unwound => none

/-- The step of the job `w` behind the jobs `l` and before the jobs `r`, its end apart. -/
def exec_work (ending : ParallelBatchTask α → Ending) (b : Batch σ α) (l : List (Worker α))
    (w : Worker α) (r : List (Worker α)) : Option (Batch σ α) :=
  match w with
  | .receiving =>
    match b.channel.recv with
    | .received t c => some { b with
        workers := l ++ .executing t :: r
        channel := c
        received := b.received ++ [t] }
    | .disconnected | .blocked => none
  | .executing t =>
    if ending t = .parks then none else some { b with
      workers := l ++ .recorded t :: r
      recorded := b.recorded ++ [t] }
  | .recorded t =>
    if ending t = .returns then some { b with
      workers := l ++ .receiving :: r
      executed := b.executed ++ [t] } else none
  | .unstarted | .returned | .unwound => none

/-- The step with which the job `w` ends. -/
def exec_exit (ending : ParallelBatchTask α → Ending) (b : Batch σ α) (l : List (Worker α))
    (w : Worker α) (r : List (Worker α)) : Option (Batch σ α) :=
  match w with
  | .receiving =>
    match b.channel.recv with
    | .disconnected => some { b with
        workers := l ++ .returned :: r
        channel := b.channel.dropReceiver }
    | .received .. | .blocked => none
  | .executing t | .recorded t =>
    if ending t = .unwinds then some { b with
      workers := l ++ .unwound :: r
      channel := b.channel.dropReceiver
      unwound := b.unwound ++ [t]
      dropped := b.dropped ++ b.channel.discarded } else none
  | .unstarted | .returned | .unwound => none

/-- Whether a job has returned. -/
def Worker.hasReturned : Worker α → Bool
  | .returned => true
  | .unstarted | .receiving | .executing _ | .recorded _ | .unwound => false

/-- The end of the scope. -/
def exec_scope (b : Batch σ α) : Option (Batch σ α) :=
  match b.result with
  | some _ => none
  | none =>
    match b.producer with
    | .returned v =>
      if b.workers.all Worker.hasReturned then some { b with result := some (.value v) }
      else if b.workers.all (! Worker.live ·) && b.workers.any Worker.dead then
        some { b with result := some .unwound }
      else none
    | .unwound =>
      if b.workers.all (! Worker.live ·) then some { b with result := some .unwound } else none
    | .spawning _ | .pulling | .sending _ => none

/-- The step a label names. -/
def exec (pull : List (ParallelBatchTask α) → σ → Pull σ α) (ending : ParallelBatchTask α → Ending)
    (b : Batch σ α) : Label → Option (Batch σ α)
  | .producer => exec_producer pull b
  | .start j =>
    match b.workers.drop j with
    | .unstarted :: r => some { b with workers := b.workers.take j ++ .receiving :: r }
    | _ => none
  | .work j =>
    match b.workers.drop j with
    | w :: r => exec_work ending b (b.workers.take j) w r
    | [] => none
  | .exit j =>
    match b.workers.drop j with
    | w :: r => exec_exit ending b (b.workers.take j) w r
    | [] => none
  | .scope => exec_scope b

variable {pull : List (ParallelBatchTask α) → σ → Pull σ α} {ending : ParallelBatchTask α → Ending}

/-- What `exec_producer` computes is a step of the producer. -/
lemma exec_producer_step {b b' : Batch σ α} (h : exec_producer pull b = some b') :
    Step (.ofFun pull) ending b .producer b' := by
  unfold exec_producer at h
  split at h
  next e => cases h; exact .spawn e
  next e => cases h; exact .drop_receiver e
  next e =>
    split at h
    next p => cases h; exact .pull_quiet e p.symm
    next p => cases h; exact .pull_some e p.symm
    next p => cases h; exact .pull_none e p.symm
    next p => cases h; exact .pull_unwind e p.symm
  next e =>
    split at h
    next sent => cases h; exact .send e sent
    next sent => cases h; exact .send_error e sent
    · cases h
  · cases h
  · cases h

/-- What `exec_work` computes is a step of the job. -/
lemma exec_work_step {src : Source σ α} {b b' : Batch σ α} {l w r} (e : b.workers = l ++ w :: r)
    (h : exec_work ending b l w r = some b') : Step src ending b (.work l.length) b' := by
  unfold exec_work at h
  split at h
  · split at h
    next received => cases h; exact .recv e received
    · cases h
    · cases h
  · split at h
    · cases h
    next goes => cases h; exact .record e goes
  · split at h
    next ret => cases h; exact .task_returns e ret
    · cases h
  · cases h
  · cases h
  · cases h

/-- What `exec_exit` computes is the end of the job. -/
lemma exec_exit_step {src : Source σ α} {b b' : Batch σ α} {l w r} (e : b.workers = l ++ w :: r)
    (h : exec_exit ending b l w r = some b') : Step src ending b (.exit l.length) b' := by
  unfold exec_exit at h
  split at h
  · split at h
    next closed => cases h; exact .recv_closed e closed
    · cases h
    · cases h
  · split at h
    next unw => cases h; exact .task_unwinds e rfl unw
    · cases h
  · split at h
    next unw => cases h; exact .task_unwinds e rfl unw
    · cases h
  · cases h
  · cases h
  · cases h

/-- What `exec_scope` computes is the end of the scope. -/
lemma exec_scope_step {src : Source σ α} {b b' : Batch σ α} (h : exec_scope b = some b') :
    Step src ending b .scope b' := by
  unfold exec_scope at h
  split at h
  · cases h
  next none =>
    split at h
    next e =>
      split at h
      next exited =>
        cases h
        refine .scope_returns e (fun w hw => ?_) none
        have ret := List.all_eq_true.mp exited w hw
        cases w with
        | returned => rfl
        | _ => cases ret
      next =>
        split at h
        next exited =>
          cases h
          simp only [Bool.and_eq_true, List.all_eq_true, List.any_eq_true] at exited
          obtain ⟨gone, w, hw, dead⟩ := exited
          refine .scope_unwinds (by simp [e]) (by simpa using gone) (.inr ?_) none
          cases w with
          | unwound => exact hw
          | _ => cases dead
        · cases h
    next e =>
      split at h
      next exited =>
        cases h
        exact .scope_unwinds (by simp [e]) (by simpa using exited) (.inl e) none
      · cases h
    all_goals cases h

/-- What `exec` computes is a step of the call. -/
lemma exec_step {b b' : Batch σ α} {label} (h : exec pull ending b label = some b') :
    Step (.ofFun pull) ending b label b' := by
  have split' : ∀ {j w r}, b.workers.drop j = w :: r →
      b.workers = b.workers.take j ++ w :: r ∧ (b.workers.take j).length = j := by
    intro j w r e
    refine ⟨by rw [← e, List.take_append_drop], ?_⟩
    have : b.workers.length - j ≠ 0 := by simp [← List.length_drop, e]
    simp only [List.length_take]
    omega
  cases label with
  | producer => exact exec_producer_step h
  | start j =>
    simp only [exec] at h
    split at h
    next e =>
      obtain ⟨e, len⟩ := split' e
      cases h
      simpa only [len] using Step.start e
    · cases h
  | work j =>
    simp only [exec] at h
    split at h
    next e =>
      obtain ⟨e, len⟩ := split' e
      simpa only [len] using exec_work_step e h
    · cases h
  | exit j =>
    simp only [exec] at h
    split at h
    next e =>
      obtain ⟨e, len⟩ := split' e
      simpa only [len] using exec_exit_step e h
    · cases h
  | scope => exact exec_scope_step h

/-- A schedule that can be followed is a run of the call. -/
lemma exec_run {b b' : Batch σ α} (labels : List Label)
    (h : Runs.follow (exec pull ending) b labels = some b') :
    ReflTransGen (Next (.ofFun pull) ending) b b' :=
  Runs.follow_run (fun st => ⟨_, exec_step st⟩) h

end Batch

end RayonBatch
