import RayonBatch.Batch.Server

/-!
# Every behaviour of the server is one of a call

Jobs that are spawned and started early, and a send as soon as there is room, bring a parallel call
to a state that is `Ready` for whatever the server does next (`Ready.answer`). So a call shows
exactly what its server shows (`shows_server`), and since a server with more hands shows more, so
does a call of more jobs (`shows_mono`).
-/

namespace RayonBatch.Batch
open Relation Traces

variable {σ α : Type*} {src : Source σ α} {ending : ParallelBatchTask α → Ending} {W : Nat}
  {b b' : Batch σ α} {l r : List (Worker α)}

/-- A call whose jobs are all at work or receiving, and whose producer does not wait in vain. -/
structure Ready (ending : ParallelBatchTask α → Ending) (W : Nat) (b : Batch σ α) : Prop where
  inv : Inv ending W b
  running : b.result = none
  jobs : ∀ w ∈ b.workers, w.live = true ∧ w ≠ .unstarted
  producer : b.producer = .pulling ∨ b.producer = .returned (.ok ()) ∨
    ∃ t, b.producer = .sending t ∧ b.channel.queue.length = W

/-- The invariants hold after a run that shows events. -/
lemma Inv.shows {es} (h : Inv ending W b) (run : Shows (Shown src ending) b es b') :
    Inv ending W b' :=
  Runs.invariant (fun ⟨_, ⟨_, st⟩, _⟩ h => h.step st) run.run h

/-- A call that shows some events runs. -/
lemma run_of_shows {es} (run : Shows (Shown src ending) b es b') :
    ReflTransGen (Next src ending) b b' :=
  ReflTransGen.mono (fun _ _ ⟨_, st, _⟩ => st) _ _ run.run

/-- The jobs are spawned one by one. -/
lemma spawn_all {n} (e : b.producer = .spawning n) :
    ∃ b', Shows (Shown src ending) b [] b' ∧ b'.server = b.server ∧ b'.result = b.result ∧
      b'.producer = .spawning 0 ∧ b'.workers = b.workers ++ List.replicate n .unstarted := by
  induction n generalizing b with
  | zero => exact ⟨b, .refl, rfl, rfl, e, by simp⟩
  | succ n ih =>
    have st : Step src ending b .producer _ := .spawn e
    obtain ⟨b', run, same, result, producer, workers⟩ := ih (b := { b with
      producer := .spawning n
      channel := b.channel.cloneReceiver
      workers := b.workers ++ [.unstarted] }) rfl
    refine ⟨b', .head (e := none) ⟨⟨_, st⟩, ?_⟩ run, ?_, result, producer, ?_⟩
    · simp [event, e]
    · rw [same]
      simp [server, e]
    · rw [workers]
      simp [List.replicate_succ]

/-- The jobs are started one by one. -/
lemma start_all (e : b.workers = l ++ r) (fresh : ∀ w ∈ r, w = .unstarted) :
    ∃ b', Shows (Shown src ending) b [] b' ∧ b'.server = b.server ∧ b'.result = b.result ∧
      b'.producer = b.producer ∧ b'.workers = l ++ r.map fun _ => .receiving := by
  induction r generalizing b l with
  | nil => exact ⟨b, .refl, rfl, rfl, rfl, by simpa using e⟩
  | cons w r ih =>
    obtain rfl := fresh w List.mem_cons_self
    have st : Step src ending b _ _ := .start e
    obtain ⟨b', run, same, result, producer, workers⟩ :=
      ih (b := { b with workers := l ++ .receiving :: r }) (l := l ++ [.receiving]) (by simp)
        fun w hw => fresh w (List.mem_cons_of_mem _ hw)
    refine ⟨b', .head (e := none) ⟨⟨_, st⟩, ?_⟩ run, ?_, result, producer, ?_⟩
    · simp [event]
    · rw [same]
      simp [server, e]
    · rw [workers]
      simp

/-- The jobs leave a closed and empty channel one by one. -/
lemma exit_all (e : b.workers = l ++ r) (idle : ∀ w ∈ r, w = .receiving)
    (queue : b.channel.queue = []) (closed : b.channel.sender = false) :
    ∃ b', Shows (Shown src ending) b [] b' ∧ b'.server = b.server ∧ b'.result = b.result ∧
      b'.producer = b.producer ∧ b'.workers = l ++ r.map fun _ => .returned := by
  induction r generalizing b l with
  | nil => exact ⟨b, .refl, rfl, rfl, rfl, by simpa using e⟩
  | cons w r ih =>
    obtain rfl := idle w List.mem_cons_self
    have nil := b.channel.dropReceiver_queue_of_nil queue
    have st : Step src ending b _ _ :=
      .recv_closed e (Channel.recv_eq_disconnected.mpr ⟨queue, closed⟩)
    obtain ⟨b', run, same, result, producer, workers⟩ :=
      ih (b := { b with workers := l ++ .returned :: r, channel := b.channel.dropReceiver })
        (l := l ++ [.returned]) (by simp) (fun w hw => idle w (List.mem_cons_of_mem _ hw)) nil
        closed
    refine ⟨b', .head (e := none) ⟨⟨_, st⟩, ?_⟩ run, ?_, result, producer, ?_⟩
    · simp [event]
    · rw [same]
      simp [server, e, queue, nil]
    · rw [workers]
      simp

/-- The producer sends the task in its hand as soon as there is room. -/
lemma ready_of_jobs (h : Inv ending W b) (pos : 0 < W) (running : b.result = none)
    (jobs : ∀ w ∈ b.workers, w.live = true ∧ w ≠ .unstarted)
    (producer : b.producer = .pulling ∨ b.producer = .returned (.ok ()) ∨
      ∃ t, b.producer = .sending t) :
    ∃ b', Shows (Shown src ending) b [] b' ∧ b'.server = b.server ∧ Ready ending W b' := by
  obtain e | e | ⟨t, e⟩ := producer
  · exact ⟨b, .refl, rfl, h, running, jobs, .inl e⟩
  · exact ⟨b, .refl, rfl, h, running, jobs, .inr (.inl e)⟩
  · rcases Nat.lt_or_ge b.channel.queue.length W with room | full
    · have spawned := h.shape.spawned
      rw [e] at spawned
      have live : b.workers.countP Worker.live = b.workers.length :=
        List.countP_eq_length.mpr fun w hw => (jobs w hw).1
      have sent : b.channel.send t = .sent { b.channel with queue := b.channel.queue ++ [t] } :=
        Channel.send_eq_sent.mpr ⟨by
          rw [h.shape.receivers, live]
          simp at spawned
          omega, by rwa [h.shape.capacity], rfl⟩
      have st : Step src ending b .producer _ := .send e sent
      refine ⟨_, .head (e := none) ⟨⟨_, st⟩, by simp [event, e]⟩ .refl, ?_, h.step st, running,
        jobs, .inl rfl⟩
      simp [server, e]
    · exact ⟨b, .refl, rfl, h, running, jobs, .inr (.inr ⟨t, e, h.shape.room.antisymm full⟩)⟩

/-- A call gets ready for its server. -/
lemma ready_init (src : Source σ α) (ending : ParallelBatchTask α → Ending) (W : Nat) (s : σ) :
    ∃ b, Shows (Shown src ending) (Batch.init W s) [] b ∧ b.server = Server.init s ∧
      Ready ending W b := by
  obtain ⟨b₁, spawn, same₁, running₁, e, jobs⟩ : ∃ b₁, Shows (Shown src ending) _ [] b₁ ∧ _ :=
    spawn_all (b := Batch.init W s) rfl
  have h := (Inv.init ending W s).shows spawn
  have queue := h.flow.fresh (by simp [e])
  have st : Step src ending b₁ .producer _ := .drop_receiver e
  obtain ⟨b, start, same, running, pulling, workers⟩ : ∃ b, Shows (Shown src ending) _ [] b ∧ _ :=
    start_all (b := { b₁ with
      producer := .pulling
      channel := b₁.channel.dropReceiver }) (l := []) jobs fun w hw => List.eq_of_mem_replicate hw
  have all : Shows (Shown src ending) (Batch.init W s) [] b :=
    (spawn.silent ⟨⟨_, st⟩, by simp [event, e]⟩).trans start
  refine ⟨b, all, ?_, (Inv.init ending W s).shows all, by rw [running, running₁]; rfl, ?_,
    .inl pulling⟩
  · rw [same]
    refine Eq.trans ?_ same₁
    simp [server, e, queue, b₁.channel.dropReceiver_queue_of_nil queue]
  · simp [workers]

/-- What is read off the jobs is read off one of them first. -/
lemma exists_of_filterMap {β : Type*} {read : Worker α → Option β} {t rest}
    {workers : List (Worker α)} (h : (↑(workers.filterMap read) : Multiset β) = t ::ₘ rest) :
    ∃ l w r, workers = l ++ w :: r ∧ read w = some t ∧
      rest = ↑(l.filterMap read ++ r.filterMap read) := by
  have mem : t ∈ workers.filterMap read := by
    rw [← Multiset.mem_coe, h]
    exact Multiset.mem_cons_self t rest
  obtain ⟨w, hw, some⟩ := List.mem_filterMap.mp mem
  obtain ⟨l, r, rfl⟩ := List.append_of_mem hw
  refine ⟨l, w, r, rfl, some, ?_⟩
  rw [← Multiset.cons_inj_right t, ← h, List.filterMap_append, List.filterMap_cons, some,
    coe_append_cons, Multiset.cons_coe]

namespace Ready

/-- A ready producer pulls, has returned or has a task in its hand. -/
lemma offers (h : Ready ending W b) : b.producer = .pulling ∨ b.producer = .returned (.ok ()) ∨
    ∃ t, b.producer = .sending t := by
  obtain e | e | ⟨t, e, -⟩ := h.producer
  · exact .inl e
  · exact .inr (.inl e)
  · exact .inr (.inr ⟨t, e⟩)

/-- With room for another task the producer is in `next`. -/
lemma pulling (h : Ready ending W b) (open' : b.server.closed = false)
    (room : b.server.waiting.length ≤ W) : b.producer = .pulling := by
  obtain e | e | ⟨t, e, full⟩ := h.producer
  · exact e
  · simp [server, e] at open'
  · simp [server, e, full] at room

/-- With a task that waits there is one in the queue. -/
lemma queue {t rest} (h : Ready ending W b) (pos : 0 < W) (waiting : b.server.waiting = t :: rest) :
    ∃ q, b.channel.queue = t :: q ∧ rest = q ++ b.producer.held := by
  cases e : b.channel.queue with
  | cons t' q =>
    simp only [server, e, List.cons_append, List.cons.injEq] at waiting
    obtain ⟨rfl, rfl⟩ := waiting
    exact ⟨q, rfl, rfl⟩
  | nil =>
    obtain e' | e' | ⟨t', e', full⟩ := h.producer
    · simp [server, e, e'] at waiting
    · simp [server, e, e'] at waiting
    · rw [e] at full
      exact absurd full pos.ne

/-- With a free hand a job is receiving. -/
lemma receiving (h : Ready ending W b)
    (free : b.server.running.card + b.server.finishing.card < W) :
    ∃ l r, b.workers = l ++ .receiving :: r := by
  refine List.append_of_mem (by_contra fun none => ?_)
  have busy : b.inHand.length = b.workers.length := by
    rw [inHand, List.length_filterMap_eq_countP, List.countP_eq_length]
    intro w hw
    obtain ⟨live, started⟩ := h.jobs w hw
    cases w with
    | unstarted => exact absurd rfl started
    | receiving => exact absurd hw none
    | executing | recorded => rfl
    | _ => cases live
  have spawned := h.inv.shape.spawned
  have toSpawn : b.producer.toSpawn = 0 := by
    obtain e | e | ⟨_, e, -⟩ := h.producer <;> simp [e]
  rw [← Multiset.card_add, ← server_inHand, Multiset.coe_card] at free
  omega

/-- A job that is at work goes on with another state. -/
lemma jobs_set {w w' : Worker α} (h : Ready ending W b) (e : b.workers = l ++ w :: r)
    (live : w'.live = true) (started : w' ≠ .unstarted) :
    ∀ v ∈ l ++ w' :: r, v.live = true ∧ v ≠ .unstarted := by
  have jobs := h.jobs
  simp only [e, List.mem_append, List.mem_cons] at jobs ⊢
  rintro v (before | rfl | behind)
  · exact jobs v (.inl before)
  · exact ⟨live, started⟩
  · exact jobs v (.inr (.inr behind))

/-- A ready call does what its server does. -/
lemma answer {e v'} (h : Ready ending W b) (pos : 0 < W)
    (st : Server.Step src ending W b.server e v') :
    ∃ b', Shows (Shown src ending) b e.toList b' ∧ b'.server = v' ∧
      (Ready ending W b' ∨ v'.Rests) := by
  have open' := h.running
  generalize same : b.server = v at st
  cases st with
  | quiet op room pull =>
    subst same
    have e := h.pulling op room
    have st : Step src ending b .producer _ := .pull_quiet e pull
    exact ⟨_, .single (e := none) ⟨⟨_, st⟩, by simp [event, e, open']⟩, rfl,
      .inl ⟨h.inv.step st, open', h.jobs, .inl e⟩⟩
  | @admits a s' op room pull =>
    subst same
    have e := h.pulling op room
    have st : Step src ending b .producer _ := .pull_some e pull
    obtain ⟨b', run, same, ready⟩ : ∃ b', Shows (Shown src ending) _ [] b' ∧ _ :=
      ready_of_jobs (h.inv.step st) pos open' h.jobs (.inr (.inr ⟨_, rfl⟩))
    refine ⟨b', .head (e := some _) ⟨⟨_, st⟩, by simp [event, server]⟩ run, ?_, .inl ready⟩
    rw [same]
    simp [server, e]
  | @begins t rest waiting free =>
    subst same
    obtain ⟨q, queue, rfl⟩ := h.queue pos waiting
    obtain ⟨l, r, workers⟩ := h.receiving free
    have received : b.channel.recv = .received t { b.channel with queue := q } :=
      Channel.recv_eq_received.mpr ⟨queue, rfl⟩
    have st : Step src ending b _ _ := .recv workers received
    obtain ⟨b', run, same, ready⟩ : ∃ b', Shows (Shown src ending) _ [] b' ∧ _ :=
      ready_of_jobs (h.inv.step st) pos open' (h.jobs_set workers rfl (by simp)) h.offers
    refine ⟨b', .head (e := some _) ⟨⟨_, st⟩, by simp [event]⟩ run, ?_, .inl ready⟩
    rw [same]
    simp [server, workers, coe_append_cons]
  | @records t rest running go =>
    subst same
    obtain ⟨l, w, r, workers, executing, rfl⟩ := exists_of_filterMap running
    cases w with
    | executing t' =>
      cases executing
      have st : Step src ending b _ _ := .record workers go
      refine ⟨_, .single (e := some _) ⟨⟨_, st⟩, by simp [event]⟩, ?_, .inl
        ⟨h.inv.step st, open', h.jobs_set workers rfl (by simp), h.producer⟩⟩
      simp [server, workers, coe_append_cons]
    | _ => cases executing
  | @returns t rest finishing ret =>
    subst same
    obtain ⟨l, w, r, workers, recorded, rfl⟩ := exists_of_filterMap finishing
    cases w with
    | recorded t' =>
      cases recorded
      have st : Step src ending b _ _ := .task_returns workers ret
      refine ⟨_, .single (e := some _) ⟨⟨_, st⟩, by simp [event]⟩, ?_, .inl
        ⟨h.inv.step st, open', h.jobs_set workers rfl (by simp), h.producer⟩⟩
      simp [server, workers]
    | _ => cases recorded
  | closes op room pull =>
    subst same
    have e := h.pulling op room
    have st : Step src ending b .producer _ := .pull_none e pull
    refine ⟨_, .single (e := some _) ⟨⟨_, st⟩, by simp [event, e]⟩, ?_,
      .inl ⟨h.inv.step st, open', h.jobs, .inr (.inl rfl)⟩⟩
    simp [server, e]
  | ends closed waiting running finishing =>
    subst same
    have e : b.producer = .returned (.ok ()) := by
      obtain e | e | ⟨t, e, -⟩ := h.producer
      · simp [server, e] at closed
      · exact e
      · simp [server, e] at closed
    have queue : b.channel.queue = [] := by simpa [server, e] using waiting
    have sender : b.channel.sender = false := by rw [h.inv.shape.sender, e]; rfl
    have idle : ∀ w ∈ b.workers, w = .receiving := by
      intro w hw
      have none := List.filterMap_eq_nil_iff.mp ((Multiset.coe_eq_zero _).mp running) w hw
      have none' := List.filterMap_eq_nil_iff.mp ((Multiset.coe_eq_zero _).mp finishing) w hw
      obtain ⟨live, started⟩ := h.jobs w hw
      cases w with
      | receiving => rfl
      | unstarted => exact absurd rfl started
      | executing => cases none
      | recorded => cases none'
      | _ => cases live
    obtain ⟨b', run, same, result, producer, workers⟩ :
        ∃ b', Shows (Shown src ending) b [] b' ∧ _ := exit_all (l := []) rfl idle queue sender
    have st : Step src ending b' .scope _ :=
      .scope_returns (producer.trans e) (by simp [workers]) (result.trans open')
    refine ⟨_, run.tail (e := some _) ⟨⟨_, st⟩, ?_⟩, ?_,
      .inr ⟨closed, waiting, running, finishing, rfl⟩⟩
    · simp [event, result, open']
    · rw [← same]
      rfl

end Ready

/-- Where nothing unwinds, what a call shows is what its server shows, and the other way round. -/
lemma shows_iff (pos : 0 < W) (source : ∀ log s, ¬ src log s .unwind)
    (goes : ∀ t, ending t ≠ .unwinds) {s : σ} {es v} :
    (∃ b, Shows (Shown src ending) (Batch.init W s) es b ∧ b.server = v) ↔
      Shows (Server.Step src ending W) (Server.init s) es v := by
  constructor
  · rintro ⟨b, run, rfl⟩
    have answer : ∀ b e b' (v : Server σ α),
        ReflTransGen (Next src ending) (Batch.init W s) b ∧ b.server = v →
        Shown src ending b e b' → ∃ v', Shows (Server.Step src ending W) v e.toList v' ∧
          ReflTransGen (Next src ending) (Batch.init W s) b' ∧ b'.server = v' := by
      rintro b _ b' _ ⟨rs, rfl⟩ ⟨⟨label, st⟩, rfl⟩
      have h := Inv.run rs
      refine ⟨b'.server, ?_, rs.tail ⟨label, st⟩, rfl⟩
      obtain served | ⟨silent, same⟩ :=
        st.serves h pos (h.unwound_nil goes) (calm_run source rs) goes source
      · exact .single served
      · rw [silent, same]
        exact .refl
    obtain ⟨_, served, -, rfl⟩ := Shows.simulate answer run ⟨.refl, rfl⟩
    exact served
  · intro served
    have answer : ∀ v e v' (b : Batch σ α), (Ready ending W b ∨ v.Rests) ∧ b.server = v →
        Server.Step src ending W v e v' → ∃ b', Shows (Shown src ending) b e.toList b' ∧
          (Ready ending W b' ∨ v'.Rests) ∧ b'.server = v' := by
      rintro _ e v' b ⟨ready | rests, rfl⟩ st
      · obtain ⟨b', run, same, next⟩ := ready.answer pos st
        exact ⟨b', run, next, same⟩
      · exact absurd st rests.not_step
    obtain ⟨b, run, same, ready⟩ := ready_init src ending W s
    obtain ⟨b', rest, -, same'⟩ := Shows.simulate answer served ⟨.inl ready, same⟩
    exact ⟨b', run.trans rest, same'⟩

/-- Where nothing unwinds, a parallel call shows exactly what a server of as many hands as it has
jobs shows, and its tasks are where those of the server are. -/
theorem shows_server {π : Type*} [DecidableEq π] (current_num_threads : π → Nat)
    (self : RayonBatchExecutor π) (entry : Entry) (worker : Bool) (count : Nat) (active : List π)
    (threads : 0 < current_num_threads self.pool)
    (parallel : (self.dispatch entry worker count active).1 = .parallel)
    (source : ∀ log s, ¬ src log s .unwind) (goes : ∀ t, ending t ≠ .unwinds) (s : σ)
    (es : List (Event α)) (v : Server σ α) :
    (∃ b, Shows (Shown src ending)
        (Batch.init (self.worker_count current_num_threads count) s) es b ∧ b.server = v) ↔
      Shows (Server.Step src ending (self.worker_count current_num_threads count))
        (Server.init s) es v :=
  shows_iff (self.worker_count_pos entry threads parallel) source goes

/-- A source over the numbers of a list. -/
def listed : List (ParallelBatchTask Nat) → List Nat → Pull (List Nat) Nat
  | _, [] => .none []
  | _, n :: ns => .some n ns

/-- The source of the example does not unwind. -/
lemma listed_calm (log s) : ¬ (Source.ofFun listed : Source (List Nat) Nat) log s .unwind := by
  cases s <;> simp [Source.ofFun, listed]

/-- The life of the only task of a call. -/
def oneTask : List (Event Nat) :=
  [.admits ⟨0, 10⟩, .begins ⟨0, 10⟩, .closes, .records ⟨0, 10⟩, .returns ⟨0, 10⟩, .ends]

/-- A server with one task. -/
lemma served_one (pos : 0 < W) :
    Shows (Server.Step (.ofFun listed) (fun _ => .returns) W) (Server.init [10]) oneTask
      ⟨[], 1, [], 0, 0, [⟨0, 10⟩], [⟨0, 10⟩], true, true⟩ := by
  have admits : Server.Step (.ofFun listed) (fun _ => .returns) W (Server.init [10]) _
      ⟨[], 1, [⟨0, 10⟩], 0, 0, [], [], false, false⟩ := .admits rfl (Nat.zero_le W) rfl
  have begins : Server.Step (.ofFun listed) (fun _ => .returns) W
      ⟨[], 1, [⟨0, 10⟩], 0, 0, [], [], false, false⟩ _
      ⟨[], 1, [], {⟨0, 10⟩}, 0, [], [], false, false⟩ := .begins rfl (by simpa using pos)
  have closes : Server.Step (.ofFun listed) (fun _ => .returns) W
      ⟨[], 1, [], {⟨0, 10⟩}, 0, [], [], false, false⟩ _
      ⟨[], 1, [], {⟨0, 10⟩}, 0, [], [], true, false⟩ := .closes rfl (Nat.zero_le W) rfl
  have records : Server.Step (.ofFun listed) (fun _ => .returns) W
      ⟨[], 1, [], {⟨0, 10⟩}, 0, [], [], true, false⟩ _
      ⟨[], 1, [], 0, {⟨0, 10⟩}, [⟨0, 10⟩], [], true, false⟩ := .records rfl (by simp)
  have returns : Server.Step (.ofFun listed) (fun _ => .returns) W
      ⟨[], 1, [], 0, {⟨0, 10⟩}, [⟨0, 10⟩], [], true, false⟩ _
      ⟨[], 1, [], 0, 0, [⟨0, 10⟩], [⟨0, 10⟩], true, false⟩ := .returns rfl rfl
  have ends : Server.Step (.ofFun listed) (fun _ => .returns) W
      ⟨[], 1, [], 0, 0, [⟨0, 10⟩], [⟨0, 10⟩], true, false⟩ _
      ⟨[], 1, [], 0, 0, [⟨0, 10⟩], [⟨0, 10⟩], true, true⟩ := .ends rfl rfl rfl rfl rfl
  exact (((((Shows.refl.tail admits).tail begins).tail closes).tail records).tail returns).tail ends

/-- A call of two jobs executes the task as the server does. -/
theorem shows_server_one :
    ∃ b : Batch (List Nat) Nat,
      Shows (Shown (.ofFun listed) fun _ => .returns) (Batch.init 2 [10]) oneTask b ∧
      b.server = ⟨[], 1, [], 0, 0, [⟨0, 10⟩], [⟨0, 10⟩], true, true⟩ :=
  (shows_server (fun _ : Unit => 2) ⟨(), 2, 0, ⟨0, 0⟩, .Continue, by decide⟩ .execute_with_count
    false 3 [] (by decide) (by decide) listed_calm (fun _ => by simp) [10] _ _).mpr
    (served_one Nat.two_pos)

/-- What a call of fewer jobs shows, a call of more jobs can show. -/
lemma shows_mono {W' : Nat} (pos : 0 < W) (le : W ≤ W') (source : ∀ log s, ¬ src log s .unwind)
    (goes : ∀ t, ending t ≠ .unwinds) {s : σ} {es}
    (run : Shows (Shown src ending) (init W s) es b) :
    ∃ b', Shows (Shown src ending) (init W' s) es b' ∧ b'.server = b.server := by
  have served := (shows_iff pos source goes).mp ⟨b, run, rfl⟩
  exact (shows_iff (pos.trans_le le) source goes).mpr (served.mono (.mono le))

/-- Where a call of fewer jobs leaves the tasks, a call of more jobs can leave them. -/
lemma reaches_mono {W' : Nat} (pos : 0 < W) (le : W ≤ W') (source : ∀ log s, ¬ src log s .unwind)
    (goes : ∀ t, ending t ≠ .unwinds) {s : σ} (rs : ReflTransGen (Next src ending) (init W s) b) :
    ∃ b', ReflTransGen (Next src ending) (init W' s) b' ∧ b'.server = b.server := by
  obtain ⟨es, run⟩ : ∃ es, Shows (Shown src ending) (init W s) es b :=
    Shows.of_run (ReflTransGen.mono (fun _ _ st => ⟨_, st, rfl⟩) _ _ rs)
  obtain ⟨b', run', same⟩ := shows_mono pos le source goes run
  exact ⟨b', run_of_shows run', same⟩

end RayonBatch.Batch
