import RayonBatch.Basis.Runs
import RayonBatch.Nested.Step

/-!
# Running nested calls

A schedule names one thread after the other, and the scope when a worker starts a job. `exec`
computes the step a name stands for, in a run in which nothing unwinds, no source stops early and
every source is converted at once; `exec_reaches` says that what it computes is a run.
`Thread.stands` computes whether a thread can make no step at all, and `stuck_of_stands` that a
state of such threads is stuck.
-/

namespace RayonBatch.Nested
open Relation Runs

universe u
variable {π : Type u} {θ : Type*}

/-- The move of a frame. -/
def Frame.exec (threads : π → Nat) (scopes : List (Scope π)) :
    Frame π → Option (Frame π × List (Scope π))
  | .running (.converting .sequential call tasks) .done =>
    some (.polling call 0 tasks none, scopes)
  | .running (.converting .parallel call tasks) .done =>
    let n := call.executor.worker_count threads call.count
    some (.spawning call tasks scopes.length n,
      scopes ++ [⟨call.executor.pool, .bounded n, 0, 0, false⟩])
  | .spawning call tasks b (n + 1) =>
    scopes[b]?.map fun s => (.spawning call tasks b n, scopes.set b { s with
      channel := s.channel.cloneReceiver
      unstarted := s.unstarted + 1
      pending := s.pending + 1 })
  | .spawning call tasks b 0 =>
    scopes[b]?.map fun s =>
      (.polling call 0 tasks (some b), scopes.set b { s with channel := s.channel.dropReceiver })
  | .polling call k tasks scope => some (.running (.pulling call k tasks scope) tasks.next, scopes)
  | .running (.pulling call k tasks none) .done =>
    (tasks.pulled k call.count).map fun x => (.running (.executing call (k + 1) x.2) x.1, scopes)
  | .running (.pulling call k tasks (some b)) .done =>
    match tasks.pulled k call.count with
    | some x => some (.sending call (k + 1) x.2 b x.1, scopes)
    | none =>
      scopes[b]?.map fun s =>
        (.waiting call b false, scopes.set b { s with channel := s.channel.dropSender })
  | .running (.executing call k rest) .done => some (.polling call k rest none, scopes)
  | .running (.working pool b) .done => some (.receiving pool b, scopes)
  | .sending call k rest b task =>
    scopes[b]?.bind fun s =>
      match s.channel.send task with
      | .sent c => some (.polling call k rest (some b), scopes.set b { s with channel := c })
      | .disconnected | .blocked => none
  | .receiving pool b =>
    scopes[b]?.bind fun s =>
      match s.channel.recv with
      | .received task c =>
        some (.running (.working pool b) task, scopes.set b { s with channel := c })
      | .disconnected | .blocked => none
  | .running .. | .waiting .. => none

/-- The return of a call. -/
def Frame.finish (scopes : List (Scope π)) : Frame π → Option (OpenCall π × List (Scope π))
  | .running (.pulling call k tasks none) .done =>
    match tasks.pulled k call.count with
    | some _ => none
    | none => some (call, scopes)
  | .waiting call b false =>
    scopes[b]?.bind fun s =>
      if s.pending = 0 ∧ s.unwound = false then some (call, scopes.set b s) else none
  | _ => none

/-- The return of a job. -/
def Frame.exit (scopes : List (Scope π)) : Frame π → Option (List (Scope π))
  | .receiving _ b =>
    scopes[b]?.bind fun s =>
      match s.channel.recv with
      | .disconnected => some (scopes.set b { s with
          channel := s.channel.dropReceiver
          pending := s.pending - 1 })
      | .received .. | .blocked => none
  | _ => none

/-- What `Frame.exec` computes is a move. -/
lemma Frame.exec_moves {threads : π → Nat} {scopes scopes' : List (Scope π)} {f f' : Frame π}
    (h : f.exec threads scopes = some (f', scopes')) :
    ∃ e, Moves threads f e f' ∧ Scopes.Step scopes e scopes' := by
  unfold Frame.exec at h
  split at h
  · cases h
    exact ⟨_, .converted, .silent⟩
  · cases h
    exact ⟨_, .opens, .opens⟩
  · obtain ⟨s, hb, e⟩ := Option.map_eq_some_iff.mp h
    cases e
    exact ⟨_, .spawn, .on hb .spawn⟩
  · obtain ⟨s, hb, e⟩ := Option.map_eq_some_iff.mp h
    cases e
    exact ⟨_, .spawned, .on hb .drop_receiver⟩
  · cases h
    exact ⟨_, .next, .silent⟩
  · obtain ⟨x, pulled, e⟩ := Option.map_eq_some_iff.mp h
    cases e
    exact ⟨_, .execute pulled, .silent⟩
  · split at h
    next pulled =>
      cases h
      exact ⟨_, .item pulled, .silent⟩
    next pulled =>
      obtain ⟨s, hb, e⟩ := Option.map_eq_some_iff.mp h
      cases e
      exact ⟨_, .exhausted pulled, .on hb .drop_sender⟩
  · cases h
    exact ⟨_, .executed rfl, .silent⟩
  · cases h
    exact ⟨_, .worked rfl, .silent⟩
  · obtain ⟨s, hb, e⟩ := Option.bind_eq_some_iff.mp h
    split at e
    next sent =>
      cases e
      exact ⟨_, .send, .on hb (.send sent)⟩
    · cases e
    · cases e
  · obtain ⟨s, hb, e⟩ := Option.bind_eq_some_iff.mp h
    split at e
    next received =>
      cases e
      exact ⟨_, .recv, .on hb (.recv received)⟩
    · cases e
    · cases e
  · cases h
  · cases h

/-- What `Frame.finish` computes is the return of a call. -/
lemma Frame.finish_finishes {scopes scopes' : List (Scope π)} {f : Frame π} {call}
    (h : f.finish scopes = some (call, scopes')) :
    ∃ e, Finishes f e call false ∧ Scopes.Step scopes e scopes' := by
  unfold Frame.finish at h
  split at h
  · split at h
    · cases h
    next pulled =>
      cases h
      exact ⟨_, .exhausted pulled, .silent⟩
  · obtain ⟨s, hb, e⟩ := Option.bind_eq_some_iff.mp h
    split at e
    next ended =>
      cases e
      obtain ⟨done, calm⟩ := ended
      refine ⟨.on _ (.ends s.unwound), ?_, .on hb (.ends done)⟩
      rw [calm]
      exact .scope_ends
    · cases e
  · cases h

/-- What `Frame.exit` computes is the return of a job. -/
lemma Frame.exit_exits {scopes scopes' : List (Scope π)} {f : Frame π}
    (h : f.exit scopes = some scopes') : ∃ e, Exits f e ∧ Scopes.Step scopes e scopes' := by
  unfold Frame.exit at h
  split at h
  · obtain ⟨s, hb, e⟩ := Option.bind_eq_some_iff.mp h
    split at e
    next closed =>
      cases e
      exact ⟨_, .closed, .on hb (.exit closed)⟩
    · cases e
    · cases e
  · cases h

/-- A step of a schedule: a thread goes on, or it starts a job of a scope. -/
inductive Choice (θ : Type*) where
  | go (t : θ)
  | start (t : θ) (scope : Nat)

section Exec

variable [DecidableEq π]

/-- A thread goes on. -/
def Thread.exec (threads : π → Nat) (home : Option π) (scopes : List (Scope π))
    (thread : Thread π) : Option (Thread π × List (Scope π)) :=
  match thread.stack with
  | .running ctx (.call entry executor count into_iter tasks rest) :: below =>
    let (path, guard, active) :=
      executor.dispatch entry (decide (home = some executor.pool)) count thread.active
    some (⟨.running (.converting path ⟨executor, count, guard⟩ tasks) into_iter ::
      .running ctx rest :: below, active⟩, scopes)
  | f :: below =>
    match f.exec threads scopes with
    | some (f', scopes') => some (⟨f' :: below, thread.active⟩, scopes')
    | none =>
      match f.finish scopes, below with
      | some (call, scopes'), .running ctx rest :: under =>
        some (⟨.running ctx rest :: under, dropGuard call.guard thread.active⟩, scopes')
      | _, _ => (f.exit scopes).map fun scopes' => (⟨below, thread.active⟩, scopes')
  | [] => none

/-- A thread starts a job. -/
def Thread.exec_start (home : Option π) (scopes : List (Scope π)) (thread : Thread π) (b : Nat) :
    Option (Thread π × List (Scope π)) :=
  scopes[b]?.bind fun s =>
    if home = some s.pool ∧ 0 < s.unstarted ∧ thread.stack.head?.all Frame.waits = true then
      some (⟨.receiving s.pool b :: thread.stack, thread.active⟩,
        scopes.set b { s with unstarted := s.unstarted - 1 })
    else none

/-- What `Thread.exec` computes is a step of the thread. -/
lemma Thread.exec_step {threads : π → Nat} {home} {scopes scopes' : List (Scope π)}
    {thread thread' : Thread π} (h : thread.exec threads home scopes = some (thread', scopes')) :
    ∃ e, Thread.Step threads home thread e thread' ∧ Scopes.Step scopes e scopes' := by
  obtain ⟨stack, active⟩ := thread
  unfold Thread.exec at h
  split at h
  next eq =>
    cases eq
    cases h
    exact ⟨_, .call .eagerly rfl, .silent⟩
  next f below _ eq =>
    cases eq
    split at h
    next moved =>
      cases h
      obtain ⟨e, m, global_step⟩ := Frame.exec_moves moved
      exact ⟨e, .moves m, global_step⟩
    · split at h
      next finished =>
        cases h
        obtain ⟨e, fin, global_step⟩ := Frame.finish_finishes finished
        exact ⟨e, .returns fin .returned, global_step⟩
      · obtain ⟨scopes', exited, eq⟩ := Option.map_eq_some_iff.mp h
        cases eq
        obtain ⟨e, exit, global_step⟩ := Frame.exit_exits exited
        exact ⟨e, .exits exit, global_step⟩
  · cases h

/-- What `Thread.exec_start` computes is the start of a job. -/
lemma Thread.exec_start_step {threads : π → Nat} {home} {scopes scopes' : List (Scope π)}
    {thread thread' : Thread π} {b}
    (h : thread.exec_start home scopes b = some (thread', scopes')) :
    ∃ e, Thread.Step threads home thread e thread' ∧ Scopes.Step scopes e scopes' := by
  obtain ⟨stack, active⟩ := thread
  obtain ⟨s, hb, e⟩ := Option.bind_eq_some_iff.mp h
  split at e
  next may =>
    cases e
    obtain ⟨at_home, some, waits⟩ := may
    refine ⟨_, .start at_home fun f hf => ?_, .on hb (.start some)⟩
    rw [Option.mem_def] at hf
    simpa [hf] using waits
  · cases e

variable [DecidableEq θ] [Fintype θ]

/-- The step a choice stands for. -/
def exec (home : θ → Option π) (s : State θ π) (choice : Choice θ) : Option (State θ π) :=
  match choice with
  | .go t =>
    ((s.threads t).exec (current_num_threads home) (home t) s.scopes).map fun x =>
      ⟨Function.update s.threads t x.1, x.2⟩
  | .start t b =>
    ((s.threads t).exec_start (home t) s.scopes b).map fun x =>
      ⟨Function.update s.threads t x.1, x.2⟩

/-- The thread that a choice names. -/
def Choice.thread : Choice θ → θ
  | go t | start t _ => t

/-- What `exec` computes is a step of the thread that is named. -/
lemma exec_acts {home : θ → Option π} {s s' : State θ π} {choice}
    (h : exec home s choice = some s') : ∃ e, Acts home s choice.thread e s' := by
  cases choice with
  | go t =>
    obtain ⟨⟨thread, scopes⟩, executed, eq⟩ := Option.map_eq_some_iff.mp h
    cases eq
    obtain ⟨e, local_step, global_step⟩ := Thread.exec_step executed
    exact ⟨e, .act local_step global_step⟩
  | start t b =>
    obtain ⟨⟨thread, scopes⟩, executed, eq⟩ := Option.map_eq_some_iff.mp h
    cases eq
    obtain ⟨e, local_step, global_step⟩ := Thread.exec_start_step executed
    exact ⟨e, .act local_step global_step⟩

/-- What `exec` computes is a step. -/
lemma exec_step {home : θ → Option π} {s s' : State θ π} {choice}
    (h : exec home s choice = some s') : Step home s s' :=
  ⟨choice.thread, exec_acts h⟩

/-- A schedule that can be followed to a state that passes a test is a run to such a state. -/
lemma exec_reaches {home : θ → Option π} {s : State θ π} (schedule : List (Choice θ))
    {test : State θ π → Bool} (h : (follow (exec home) s schedule).any test = true) :
    ∃ s', ReflTransGen (Step home) s s' ∧ test s' = true := by
  obtain ⟨s', followed, ok⟩ := (Option.any_eq_true _ _).mp h
  exact ⟨s', follow_run exec_step followed, ok⟩

end Exec

/-- Whether a scope has no job that a worker of the pool could start. -/
def Scope.quiet [DecidableEq π] (home : Option π) (s : Scope π) : Bool :=
  decide (home ≠ some s.pool) || decide (s.unstarted = 0)

/-- Whether a thread can make no step. -/
def Thread.stands [DecidableEq π] (home : Option π) (scopes : List (Scope π))
    (thread : Thread π) : Bool :=
  match thread.stack with
  | [] => scopes.all (Scope.quiet home)
  | .waiting _ b _ :: _ =>
    (scopes[b]?.all fun s => decide (s.pending ≠ 0)) && scopes.all (Scope.quiet home)
  | .sending _ _ _ b _ :: _ =>
    scopes[b]?.all fun s =>
      decide (s.channel.receivers ≠ 0) && decide (s.channel.capacity ≤ s.channel.queue.length)
  | .receiving _ b :: _ => scopes[b]?.all fun s => s.channel.queue.isEmpty && s.channel.sender
  | .running .root code :: _ => code.ended
  | .running .. :: _ | .spawning .. :: _ | .polling .. :: _ => false

/-- A worker starts no job where all scopes are quiet. -/
lemma Scopes.Step.not_start [DecidableEq π] {home : Option π} {scopes scopes' : List (Scope π)}
    {b pool} (quiet : scopes.all (Scope.quiet home) = true) (at_home : home = some pool)
    (st : Scopes.Step scopes (.on b (.start pool)) scopes') : False := by
  cases st with
  | @on _ _ s _ hb st =>
    have quiet := List.all_eq_true.mp quiet s (List.mem_of_getElem? hb)
    cases st with
    | start some =>
      simp [Scope.quiet, at_home] at quiet
      omega

/-- A thread that stands makes no step. -/
lemma Thread.stands_step [DecidableEq π] {threads : π → Nat} {home} {thread thread' : Thread π}
    {scopes scopes' : List (Scope π)} {e} (h : thread.stands home scopes = true)
    (local_step : Thread.Step threads home thread e thread')
    (global_step : Scopes.Step scopes e scopes') : False := by
  cases local_step with
  | @call ctx => cases ctx <;> cases h
  | moves m =>
    cases m with
    | send =>
      cases global_step with
      | on hb st =>
        cases st with
        | send sent =>
          obtain ⟨-, room, -⟩ := Channel.send_eq_sent.mp sent
          simp [stands, hb] at h
          omega
    | send_error =>
      cases global_step with
      | on hb st =>
        cases st with
        | send_error sent =>
          simp [stands, hb, Channel.send_eq_disconnected.mp sent] at h
    | recv =>
      cases global_step with
      | on hb st =>
        cases st with
        | recv received =>
          obtain ⟨queue, -⟩ := Channel.recv_eq_received.mp received
          simp [stands, hb, queue] at h
    | _ => cases h
  | returns fin =>
    cases fin with
    | scope_ends =>
      cases global_step with
      | on hb st =>
        cases st with
        | ends done => simp [stands, hb, done] at h
    | _ => cases h
  | @start b pool stack active at_home waits =>
    have quiet : scopes.all (Scope.quiet home) = true := by
      cases stack with
      | nil => exact h
      | cons f below =>
        cases f with
        | waiting => exact (Bool.and_eq_true_iff.mp h).2
        | _ => cases waits _ rfl
    exact global_step.not_start quiet at_home
  | exits exit =>
    cases exit with
    | closed =>
      cases global_step with
      | on hb st =>
        cases st with
        | exit closed =>
          obtain ⟨-, gone⟩ := Channel.recv_eq_disconnected.mp closed
          simp [stands, hb, gone] at h
    | task_unwinds => cases h

/-- Where all threads stand the state is stuck. -/
lemma stuck_of_stands [DecidableEq π] [DecidableEq θ] [Fintype θ] {home : θ → Option π}
    {s : State θ π} (h : ∀ t, (s.threads t).stands (home t) s.scopes = true) :
    Stuck (Step home) s := by
  rintro s' ⟨t, e, st⟩
  exact (s.threads t).stands_step (h t) st.self st.scopes

end RayonBatch.Nested
