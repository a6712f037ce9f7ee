import RayonBatch.Batch.Endings
import RayonBatch.Nested.Parts

/-!
# A scope of a forest is a parallel call

The model of one parallel call knows nothing of threads and stacks: a job may be started at any
time, a task takes as long as it likes. Here the parts of every scope of a forest of calls are
shown to follow that model, whatever the code of its source and of its tasks calls in between and
wherever its jobs lie on the stacks. `Plays` relates the parts of a scope to the state of a parallel
call, and what becomes of the parts is matched by steps of the call (`Plays.step`).
-/

namespace RayonBatch

/-- Whether a job has not been started. -/
def Worker.waitsForStart {α : Type*} : Worker α → Bool
  | unstarted => true
  | receiving | executing _ | recorded _ | returned | unwound => false

namespace Nested
open Relation Runs

universe u
variable {π : Type u} {θ : Type*}

/-- The source of a call, at a position, as a parallel call sees it. The policy or the batch library
may end it before its time, and any `next` may unwind. -/
inductive Pulls (count : Nat) : Nat × Tasks π → Pull (Nat × Tasks π) (Code π) → Prop where
  | item {k tasks task rest} :
    tasks.pulled k count = some (task, rest) →
    Pulls count (k, tasks) (.some task (k + 1, rest))
  | ends {source} : Pulls count source (.none source)
  | unwinds {source} : Pulls count source .unwind

/-- The lazy source of a call of `count` tasks. -/
def lazySource (count : Nat) : Source (Nat × Tasks π) (Code π) :=
  fun _ => Pulls count

/-- The tasks of a source. -/
def Tasks.bodies : Tasks π → List (Code π)
  | .exhausted _ => []
  | .item _ task rest => task :: rest.bodies

/-- A source of code answers every pull. -/
lemma Pulls.not_quiet {count : Nat} {source source' : Nat × Tasks π}
    (h : Pulls count source (.quiet source')) : False := by
  cases h

/-- A source that has no more items stays as it is. -/
lemma Pulls.of_none {count : Nat} {source source' : Nat × Tasks π}
    (h : Pulls count source (.none source')) : source' = source := by
  cases h
  rfl

/-- A source hands on its next item, below the declared count. -/
lemma Pulls.of_some {count : Nat} {source source' : Nat × Tasks π} {task}
    (h : Pulls count source (.some task source')) :
    source.1 < count ∧ source'.1 = source.1 + 1 ∧ source.2.bodies = task :: source'.2.bodies := by
  cases h with
  | item pulled =>
    obtain ⟨lt, next, rfl⟩ := Tasks.pulled_eq_some pulled
    exact ⟨lt, rfl, by simp [Tasks.bodies]⟩

/-- A parallel call over a source of a forest. -/
abbrev Play (π : Type u) :=
  Batch (Nat × Tasks π) (Code π)

/-- What a call has taken from its source, and what is left there. -/
structure Taken (count : Nat) (tasks : Tasks π) (play : Play π) : Prop where
  position : play.source.1 = play.yielded.length
  within : play.yielded.length ≤ count
  bodies : play.yielded.map ParallelBatchTask.task ++ play.source.2.bodies = tasks.bodies

/-- A step takes the next item of the source. -/
lemma Taken.step {count : Nat} {tasks : Tasks π} {play play' : Play π}
    (h : Taken count tasks play)
    (st : Batch.Free (lazySource count) play play') : Taken count tasks play' := by
  obtain ⟨ending, label, st⟩ := st
  obtain ⟨position, within, bodies⟩ := h
  cases st with
  | pull_quiet _ pull => exact pull.not_quiet.elim
  | pull_some _ pull =>
    obtain ⟨lt, next, rest⟩ := pull.of_some
    refine ⟨?_, ?_, ?_⟩
    · simp [next, position]
    · simpa [← position] using lt
    · simpa [rest] using bodies
  | pull_none _ pull =>
    obtain rfl := pull.of_none
    exact ⟨position, within, bodies⟩
  | _ => exact ⟨position, within, bodies⟩

/-- A run takes the items of the source in order. -/
lemma Taken.run {count W : Nat} {tasks : Tasks π} {play : Play π}
    (rs : ReflTransGen (Batch.Free (lazySource count)) (Batch.init W (0, tasks)) play) :
    Taken count tasks play :=
  invariant (fun st h => h.step st) rs ⟨rfl, Nat.zero_le _, rfl⟩

/-- Who is at work in a parallel call: the body of the scope or a job. -/
abbrev Agent (π : Type u) :=
  ((Nat × Tasks π) × Producer (Code π)) ⊕ Worker (Code π)

/-- What is left of the code of a task. -/
def Code.Left (task : Code π) : Code π → Prop :=
  ReflTransGen Follows task

/-- A part of a scope and who plays it. -/
inductive Performs (count : Nat) : Part π → Agent π → Prop where
  | spawning {tasks n} :
    Performs count (.spawning count tasks n) (.inl ((0, tasks), .spawning n))
  | pulling {k tasks} : Performs count (.pulling count k tasks) (.inl ((k, tasks), .pulling))
  | sending {k rest t} :
    Performs count (.sending count k rest t.task) (.inl ((k, rest), .sending t))
  | returned {source result} : Performs count (.waiting false) (.inl (source, .returned result))
  | unwound {source} : Performs count (.waiting true) (.inl (source, .unwound))
  | receiving : Performs count .receiving (.inr .receiving)
  | executing {t code} :
    t.task.Left code →
    Performs count (.executing code) (.inr (.executing t))

/-- A part of a job, and not of the body of the scope. -/
def Part.ofJob : Part π → Bool
  | receiving | executing _ => true
  | spawning .. | pulling .. | sending .. | waiting _ => false

/-- Jobs are performed by jobs. -/
lemma Performs.isRight {count : Nat} {part : Part π} {agent} (h : Performs count part agent) :
    agent.isRight = part.ofJob := by
  cases h <;> rfl

/-- A job that has been started and has not ended is at work. -/
def atWork : Worker (Code π) → Multiset (Agent π)
  | w@.receiving | w@(.executing _) | w@(.recorded _) => {.inr w}
  | .unstarted | .returned | .unwound => 0

/-- The jobs that are at work. -/
def jobs (workers : List (Worker (Code π))) : Multiset (Agent π) :=
  (workers.map atWork).sum

namespace Play

/-- The body of the scope, while the scope has not ended. -/
def body (b : Play π) : Multiset (Agent π) :=
  match b.result with
  | none => {.inl (b.source, b.producer)}
  | some _ => 0

/-- All that are at work. -/
def agents (b : Play π) : Multiset (Agent π) :=
  b.body + jobs b.workers

/-- The scope of a parallel call. -/
def scope (pool : π) (b : Play π) : Scope π where
  pool := pool
  channel := b.channel.map ParallelBatchTask.task
  unstarted := b.workers.countP Worker.waitsForStart
  pending := b.workers.countP Worker.live
  unwound := b.workers.any Worker.dead

end Play

/-- A parallel call plays the parts of a scope. -/
structure Plays (count : Nat) (parts : Multiset (Part π)) (scope : Scope π) (b : Play π) :
    Prop where
  scope : scope = b.scope scope.pool
  parts : Multiset.Rel (Performs count) parts b.agents

/-- Without jobs none is at work. -/
@[simp] lemma jobs_nil : jobs ([] : List (Worker (Code π))) = 0 := rfl

/-- The jobs at work are those of each list. -/
@[simp] lemma jobs_append (l r : List (Worker (Code π))) : jobs (l ++ r) = jobs l + jobs r := by
  simp [jobs]

/-- The jobs at work are the first one, if it is, and the others. -/
@[simp] lemma jobs_cons (w : Worker (Code π)) (r) : jobs (w :: r) = atWork w + jobs r := rfl

attribute [simp] atWork.eq_1 atWork.eq_2 atWork.eq_3 atWork.eq_4 atWork.eq_5 atWork.eq_6

/-- Until the scope has ended its body is at work. -/
lemma Play.body_of_none {b : Play π} (h : b.result = none) :
    b.body = {.inl (b.source, b.producer)} := by
  simp [body, h]

/-- The body is not a job. -/
lemma inl_notMem_jobs {workers : List (Worker (Code π))} {x} : .inl x ∉ jobs workers := by
  induction workers with
  | nil => simp
  | cons w workers ih => cases w <;> simp [ih]

/-- The body at work is that of the call. -/
lemma Play.producer_of_mem {b : Play π} {source producer}
    (h : .inl (source, producer) ∈ b.agents) : b.producer = producer := by
  rw [agents, Multiset.mem_add, or_iff_left inl_notMem_jobs] at h
  unfold body at h
  split at h
  · have eq := Sum.inl.inj (Multiset.mem_singleton.mp h)
    exact (congrArg Prod.snd eq).symm
  · simp at h

/-- A body that spawns is performed by a producer that does. -/
lemma Performs.of_spawning {count c n : Nat} {tasks agent} {b : Play π}
    (h : Performs count (.spawning c tasks n) agent) (mem : agent ∈ b.agents) :
    b.producer = .spawning n := by
  cases h
  exact Play.producer_of_mem mem

/-- A body that sends is performed by a producer that does. -/
lemma Performs.of_sending {count c k : Nat} {rest task agent} {b : Play π}
    (h : Performs count (.sending c k rest task) agent) (mem : agent ∈ b.agents) :
    ∃ t, b.producer = .sending t ∧ t.task = task := by
  cases h
  exact ⟨_, Play.producer_of_mem mem, rfl⟩

/-- A job at work is one of the jobs of the call. -/
lemma exists_of_mem_jobs {workers : List (Worker (Code π))} {w} (h : .inr w ∈ jobs workers) :
    ∃ l r, workers = l ++ w :: r ∧ atWork w = {.inr w} := by
  have mem : w ∈ workers ∧ atWork w = {.inr w} := by
    induction workers with
    | nil => simp at h
    | cons v workers ih =>
      rw [jobs_cons, Multiset.mem_add] at h
      rcases h with here | there
      · cases v with
        | receiving | executing | recorded =>
          cases Multiset.mem_singleton.mp here
          exact ⟨List.mem_cons_self, rfl⟩
        | _ => simp at here
      · exact ⟨List.mem_cons_of_mem _ (ih there).1, (ih there).2⟩
  obtain ⟨l, r, e⟩ := List.append_of_mem mem.1
  exact ⟨l, r, e, mem.2⟩

namespace Plays

variable {count : Nat} {part : Part π} {parts rest : Multiset (Part π)} {scope : Scope π}
  {b : Play π}

/-- The body of the scope and the jobs beside it. -/
lemma body (h : Plays count ({part} + rest) scope b) (own : part.ofJob = false) :
    b.result = none ∧ Performs count part (.inl (b.source, b.producer)) ∧
      Multiset.Rel (Performs count) rest (jobs b.workers) := by
  obtain ⟨agent, others, performs, rel, e⟩ := Multiset.rel_cons_left.mp h.parts
  cases agent with
  | inr w => cases performs.isRight.trans own
  | inl x =>
    have mem : .inl x ∈ b.agents := by simp [e]
    rw [Play.agents, Multiset.mem_add, or_iff_left inl_notMem_jobs] at mem
    cases none : b.result with
    | some => simp [Play.body, none] at mem
    | none =>
      rw [Play.agents, Play.body_of_none none, Multiset.singleton_add] at e
      rw [Play.body_of_none none, Multiset.mem_singleton, Sum.inl.injEq] at mem
      subst mem
      rw [Multiset.cons_inj_right] at e
      exact ⟨rfl, performs, e ▸ rel⟩

/-- A job and all others beside it. -/
lemma job (h : Plays count ({part} + rest) scope b) (own : part.ofJob = true) :
    ∃ l w r, b.workers = l ++ w :: r ∧ Performs count part (.inr w) ∧
      Multiset.Rel (Performs count) rest (b.body + (jobs l + jobs r)) := by
  obtain ⟨agent, others, performs, rel, e⟩ := Multiset.rel_cons_left.mp h.parts
  cases agent with
  | inl x => cases performs.isRight.trans own
  | inr w =>
    have mem : .inr w ∈ b.agents := by simp [e]
    have apart : .inr w ∉ b.body := by
      unfold Play.body
      split <;> simp
    rw [Play.agents, Multiset.mem_add, or_iff_right apart] at mem
    obtain ⟨l, r, split, active⟩ := exists_of_mem_jobs mem
    refine ⟨l, w, r, split, performs, ?_⟩
    rw [Play.agents, split, jobs_append, jobs_cons, active, Multiset.singleton_add,
      Multiset.add_cons, Multiset.add_cons, Multiset.cons_inj_right] at e
    exact e ▸ rel

/-- A play whose producer performs the body plays the scope. -/
lemma of_body (none : b.result = none) (same : scope = b.scope scope.pool)
    (performs : Performs count part (.inl (b.source, b.producer)))
    (rel : Multiset.Rel (Performs count) rest (jobs b.workers)) :
    Plays count ({part} + rest) scope b := by
  refine ⟨same, ?_⟩
  rw [Play.agents, Play.body_of_none none]
  exact .cons performs rel

/-- A play whose job performs the part plays the scope. -/
lemma of_job {l w r} (split : b.workers = l ++ w :: r) (active : atWork w = {.inr w})
    (same : scope = b.scope scope.pool) (performs : Performs count part (.inr w))
    (rel : Multiset.Rel (Performs count) rest (b.body + (jobs l + jobs r))) :
    Plays count ({part} + rest) scope b := by
  refine ⟨same, ?_⟩
  rw [Play.agents, split, jobs_append, jobs_cons, active, Multiset.singleton_add,
    Multiset.singleton_add, Multiset.add_cons, Multiset.add_cons]
  exact .cons performs rel

end Plays

/-- The body of a scope that waits for its end does not feed the channel any more. -/
lemma Performs.closed {count : Nat} {body : Bool} {source : Nat × Tasks π} {producer}
    (h : Performs count (.waiting body) (.inl (source, producer))) : producer.feeding = false := by
  cases h <;> rfl

/-- Whether a part is a job with a task. -/
def Part.executes : Part π → Bool
  | executing _ => true
  | spawning .. | pulling .. | sending .. | waiting _ | receiving => false

/-- Whether a part is a body with a task that is to be sent. -/
def Part.sends : Part π → Bool
  | sending .. => true
  | spawning .. | pulling .. | waiting _ | receiving | executing _ => false

/-- Whether a job has a task. -/
def executes : Agent π → Bool
  | .inl _ => false
  | .inr w => w.task?.isSome

/-- Whether the body has a task that is to be sent. -/
def sends : Agent π → Bool
  | .inl x => !x.2.held.isEmpty
  | .inr _ => false

attribute [simp] executes.eq_1 executes.eq_2
attribute [simp] sends.eq_1 sends.eq_2

/-- The jobs with a task are those with a task in their hand. -/
lemma countP_executes_jobs (workers : List (Worker (Code π))) :
    (jobs workers).countP (executes ·) = (workers.filterMap Worker.task?).length := by
  induction workers with
  | nil => rfl
  | cons w workers ih =>
    rw [jobs_cons, Multiset.countP_add, ih, Nat.add_comm]
    cases w <;> simp [← Multiset.cons_zero]

/-- No job sends. -/
lemma countP_sends_jobs (workers : List (Worker (Code π))) :
    (jobs workers).countP (sends ·) = 0 := by
  induction workers with
  | nil => rfl
  | cons w workers ih =>
    rw [jobs_cons, Multiset.countP_add, ih]
    cases w <;> simp [← Multiset.cons_zero]

/-- There are as many parts with a task as tasks in hands. -/
lemma Plays.executes {count : Nat} {parts : Multiset (Part π)} {scope : Scope π} {b : Play π}
    (h : Plays count parts scope b) : parts.countP (Part.executes ·) = b.inHand.length := by
  have respected : ∀ (part : Part π) agent, Performs count part agent →
      part.executes = Nested.executes agent := by
    rintro _ _ ⟨⟩ <;> rfl
  rw [h.parts.countP_congr respected, Play.agents, Multiset.countP_add, countP_executes_jobs]
  unfold Play.body
  split <;> simp [Batch.inHand, ← Multiset.cons_zero]

/-- There are no more parts that send than tasks that the producer holds. -/
lemma Plays.sends {count : Nat} {parts : Multiset (Part π)} {scope : Scope π} {b : Play π}
    (h : Plays count parts scope b) : parts.countP (Part.sends ·) ≤ b.producer.held.length := by
  have respected : ∀ (part : Part π) agent, Performs count part agent →
      part.sends = Nested.sends agent := by
    rintro _ _ ⟨⟩ <;> rfl
  rw [h.parts.countP_congr respected, Play.agents, Multiset.countP_add, countP_sends_jobs]
  unfold Play.body
  cases b.producer <;> split <;> simp [← Multiset.cons_zero]

/-- The task that a job receives. -/
def Op.received : Op π → List (Code π)
  | recv task => [task]
  | spawn | drop_receiver | drop_sender | send _ | send_error _ | start _ | exit | unwind
  | ends _ => []

/-- What a parallel call does to play what becomes of its parts. -/
structure Matches (count : Nat) (b : Play π) (op : Option (Op π)) (parts : Multiset (Part π))
    (scope : Scope π) (b' : Play π) : Prop where
  run : ReflTransGen (Batch.Free (lazySource count)) b b'
  plays : Plays count parts scope b'
  received : b'.received.map ParallelBatchTask.task
    = b.received.map ParallelBatchTask.task ++ (op.map Op.received).getD []

/-- What becomes of a part is matched by the call. -/
lemma Plays.step {count : Nat} {ps ps' : Multiset (Part π)} {op} (st : Parts.Step ps op ps') :
    ∀ {rest scope scope'} {b : Play π}, Plays count (ps + rest) scope b → scope.Does op scope' →
      ∃ b', Matches count b op (ps' + rest) scope' b' := by
  induction st with
  | idle =>
    rintro rest scope _ b h rfl
    exact ⟨b, .refl, h, by simp⟩
  | @beside ps ps' qs qs' op _ _ first second =>
    intro rest scope scope' b h does
    rw [add_assoc] at h
    obtain ⟨b₁, one⟩ := first h does
    have mid := one.plays
    rw [add_left_comm] at mid
    obtain ⟨b₂, two⟩ := second mid rfl
    refine ⟨b₂, one.run.trans two.run, ?_, by simp [two.received, one.received]⟩
    rw [add_assoc, add_left_comm]
    exact two.plays
  | @spawn _ tasks n =>
    intro rest scope scope' b h does
    obtain ⟨none, performs, rel⟩ := h.body rfl
    have same := h.scope
    generalize source : b.source = s, producer : b.producer = p at performs
    cases performs
    cases does
    have st : Batch.Step (lazySource count) (fun _ => .returns) b .producer _ := .spawn producer
    refine ⟨_, .single st.free, .of_body none ?_ ?_ ?_, by simp [Op.received]⟩
    · rw [same]
      simp [Play.scope, Worker.waitsForStart]
    · simpa [source] using .spawning
    · simpa using rel
  | spawned =>
    intro rest scope scope' b h does
    obtain ⟨none, performs, rel⟩ := h.body rfl
    have same := h.scope
    generalize source : b.source = s, producer : b.producer = p at performs
    cases performs
    cases does
    have st : Batch.Step (lazySource count) (fun _ => .returns) b .producer _ :=
      .drop_receiver producer
    refine ⟨_, .single st.free, .of_body none ?_ ?_ rel, by simp [Op.received]⟩
    · rw [same]
      simp [Play.scope]
    · simpa [source] using .pulling
  | @item _ k tasks task left pulled =>
    intro rest scope scope' b h does
    obtain ⟨none, performs, rel⟩ := h.body rfl
    have same := h.scope
    generalize source : b.source = s, producer : b.producer = p at performs
    cases performs
    cases does
    have st : Batch.Step (lazySource count) (fun _ => .returns) b .producer _ :=
      .pull_some producer (by rw [source]; exact .item pulled)
    exact ⟨_, .single st.free,
      .of_body none same (.sending (t := ⟨b.yielded.length, task⟩)) rel, by simp⟩
  | @send _ k left task =>
    intro rest scope scope' b h does
    obtain ⟨none, performs, rel⟩ := h.body rfl
    have same := h.scope
    generalize source : b.source = s, producer : b.producer = p at performs
    cases performs
    cases does with
    | send sent =>
      rw [same] at sent
      obtain ⟨c, queued, rfl⟩ := Channel.send_of_map _ sent
      have st : Batch.Step (lazySource count) (fun _ => .returns) b .producer _ :=
        .send producer queued
      refine ⟨_, .single st.free, .of_body none ?_ ?_ rel, by simp [Op.received]⟩
      · rw [same]
        simp [Play.scope]
      · simpa [source] using .pulling
  | send_error =>
    intro rest scope scope' b h does
    obtain ⟨none, performs, rel⟩ := h.body rfl
    have same := h.scope
    generalize source : b.source = s, producer : b.producer = p at performs
    cases performs
    cases does with
    | send_error sent =>
      rw [same] at sent
      have st : Batch.Step (lazySource count) (fun _ => .returns) b .producer _ :=
        .send_error producer (Channel.send_disconnected_of_map _ sent)
      refine ⟨_, .single st.free, .of_body none ?_ .returned rel, by simp [Op.received]⟩
      rw [same]
      simp [Play.scope]
  | @closes _ k tasks unwound =>
    intro rest scope scope' b h does
    obtain ⟨none, performs, rel⟩ := h.body rfl
    have same := h.scope
    generalize source : b.source = s, producer : b.producer = p at performs
    cases performs
    cases does
    cases unwound with
    | false =>
      have st : Batch.Step (lazySource count) (fun _ => .returns) b .producer _ :=
        .pull_none producer .ends
      refine ⟨_, .single st.free, .of_body none ?_ .returned rel, by simp [Op.received]⟩
      rw [same]
      simp [Play.scope]
    | true =>
      have st : Batch.Step (lazySource count) (fun _ => .returns) b .producer _ :=
        .pull_unwind producer .unwinds
      refine ⟨_, .single st.free, .of_body none ?_ .unwound rel, by simp [Op.received]⟩
      rw [same]
      simp [Play.scope]
  | @ends body flag =>
    intro rest scope scope' b h does
    obtain ⟨none, performs, rel⟩ := h.body rfl
    have same := h.scope
    cases does with
    | ends all =>
      rw [same] at all
      have exited : ∀ w ∈ b.workers, w.live = false := by
        simpa [Play.scope, List.countP_eq_zero] using all
      obtain ⟨result, st⟩ : ∃ result,
          Batch.Step (lazySource count) (fun _ => .returns) b .scope { b with
            result := some result } := Batch.scope_step performs.closed exited none
      refine ⟨_, .single st.free, ⟨same, ?_⟩, by simp [Op.received]⟩
      simpa [Play.agents, Play.body] using rel
  | start =>
    intro rest scope scope' b h does
    have same := h.scope
    cases does with
    | start some =>
      rw [same] at some
      obtain ⟨w, mem, waits⟩ := List.countP_pos_iff.mp some
      cases w with
      | unstarted =>
        obtain ⟨l, r, split⟩ := List.append_of_mem mem
        have st : Batch.Step (lazySource count) (fun _ => .returns) b _ _ := .start split
        refine ⟨_, .single st.free, .of_job rfl rfl ?_ .receiving ?_, by simp [Op.received]⟩
        · rw [same]
          simp [Play.scope, split, Worker.waitsForStart, List.countP_cons]
        · simpa [Play.agents, split, Play.body] using h.parts
      | _ => cases waits
  | recv =>
    intro rest scope scope' b h does
    obtain ⟨l, w, r, split, performs, rel⟩ := h.job rfl
    have same := h.scope
    cases performs
    cases does with
    | recv received =>
      rw [same] at received
      obtain ⟨t, c, taken, rfl, rfl⟩ := Channel.recv_of_map _ received
      have st : Batch.Step (lazySource count) (fun _ => .returns) b _ _ := .recv split taken
      refine ⟨_, .single st.free, .of_job rfl rfl ?_ (.executing .refl) rel, by simp [Op.received]⟩
      rw [same]
      simp [Play.scope, split, Worker.waitsForStart]
  | follows follows =>
    rintro rest scope scope' b h rfl
    obtain ⟨l, w, r, split, performs, rel⟩ := h.job rfl
    cases performs with
    | executing left =>
      exact ⟨b, .refl, .of_job split rfl h.scope (.executing (left.tail follows)) rel, by simp⟩
  | worked =>
    rintro rest scope scope' b h rfl
    obtain ⟨l, w, r, split, performs, rel⟩ := h.job rfl
    have same := h.scope
    cases performs with
    | executing left =>
      refine ⟨_, Batch.free_task split, .of_job rfl rfl ?_ .receiving rel, by simp⟩
      rw [same]
      simp [Play.scope, split, Worker.waitsForStart]
  | exit =>
    intro rest scope scope' b h does
    obtain ⟨l, w, r, split, performs, rel⟩ := h.job rfl
    have same := h.scope
    cases performs
    cases does with
    | exit closed =>
      rw [same] at closed
      have st : Batch.Step (lazySource count) (fun _ => .returns) b _ _ :=
        .recv_closed split (Channel.recv_disconnected_of_map _ closed)
      refine ⟨_, .single st.free, ⟨?_, ?_⟩, by simp [Op.received]⟩
      · rw [same]
        simp [Play.scope, split, Worker.waitsForStart]
      · simpa [Play.agents, Play.body] using rel
  | unwind =>
    intro rest scope scope' b h does
    obtain ⟨l, w, r, split, performs, rel⟩ := h.job rfl
    have same := h.scope
    cases performs
    cases does
    have st : Batch.Step (lazySource count) (fun _ => .unwinds) b _ _ := .task_unwinds split rfl rfl
    refine ⟨_, .single st.free, ⟨?_, ?_⟩, by simp [Op.received]⟩
    · rw [same]
      simp [Play.scope, split, Worker.waitsForStart]
    · simpa [Play.agents, Play.body] using rel

end Nested

end RayonBatch
