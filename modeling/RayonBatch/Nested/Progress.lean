import RayonBatch.Nested.Descent

/-!
# What a stuck state waits for

In a stuck state the top of every stack is `Blocked`: a send on a full channel, a receive on an open
empty one, or the end of a scope with jobs left. A send and a scope need a worker of their pool, so
nothing waits for a pool whose workers are all idle (`Halted.not_waiting`). A receive needs the call
that feeds its channel; that call can be in `next`, under calls on lower pools, and then the
argument descends along the pools (`Halted.idle`). The one obstacle is a job that lies on a source
that is still being produced: `Entangled`.
-/

namespace RayonBatch.Nested
open Relation Runs

universe u
variable {π : Type u} {θ : Type*}

/-- What a frame can wait for. -/
inductive Blocked (scopes : List (Scope π)) : Frame π → Prop where
  | ended {code} :
    code.ended = true →
    Blocked scopes (.running .root code)
  | sending {call k rest b task scope} :
    scopes[b]? = some scope →
    scope.channel.send task = .blocked →
    Blocked scopes (.sending call k rest b task)
  | waiting {call b unwound scope} :
    scopes[b]? = some scope →
    scope.pending ≠ 0 →
    Blocked scopes (.waiting call b unwound)
  | receiving {pool b scope} :
    scopes[b]? = some scope →
    scope.channel.recv = .blocked →
    Blocked scopes (.receiving pool b)

/-- Code goes on in some way when a call of it is over. -/
lemma Resumes.exists_resumes (rest : Code π) (unwound : Bool) :
    ∃ rest', Resumes rest unwound rest' := by
  cases unwound with
  | false => exact ⟨rest, .returned⟩
  | true => exact ⟨rest, .caught⟩

/-- Only user code, and calls that wait, have frames on top of them. -/
lemma Shaped.top_or [DecidableEq π] {home : Option π} {stack : List (Frame π)} {active}
    (h : Shaped home stack active) {f} (hf : f ∈ stack) :
    stack.head? = some f ∨ (∃ ctx code, f = .running ctx code) ∨ f.waits = true := by
  induction h with
  | idle => cases hf
  | root => exact .inl (by rw [List.mem_singleton.mp hf]; rfl)
  | @call g _ _ _ ctx code below _ _ _ _ _ ih =>
    rcases List.mem_cons.mp hf with rfl | hf
    · exact .inl rfl
    · rcases ih hf with top | under
      · exact .inr (.inl ⟨ctx, code, by simpa using top.symm⟩)
      · exact .inr under
  | @job g _ _ below _ _ waits _ _ ih =>
    rcases List.mem_cons.mp hf with rfl | hf
    · exact .inl rfl
    · rcases ih hf with top | under
      · exact .inr (.inr (waits f top))
      · exact .inr under

section Stuck

variable [DecidableEq π] [DecidableEq θ] [Fintype θ] {home : θ → Option π} {s : State θ π} {t : θ}
  {f : Frame π} {below : List (Frame π)} {active : List π}

/-- In a stuck state no thread acts. -/
lemma no_act (stuck : Stuck (Step home) s) (e : s.threads t = ⟨f :: below, active⟩)
    {event thread scopes}
    (local_step : Thread.Step (current_num_threads home) (home t) ⟨f :: below, active⟩ event thread)
    (global_step : Scopes.Step s.scopes event scopes) : False :=
  stuck _ ⟨t, event, .act (e ▸ local_step) global_step⟩

/-- In a stuck state no call is over. -/
lemma no_return (stuck : Stuck (Step home) s) (e : s.threads t = ⟨f :: below, active⟩)
    (shaped : Shaped (home t) (f :: below) active) {event call unwound scopes}
    (fin : Finishes f event call unwound) (global_step : Scopes.Step s.scopes event scopes) :
    False := by
  obtain ⟨path, is_call⟩ := fin.call?
  cases shaped with
  | root => cases is_call
  | @call _ _ _ _ ctx code =>
    obtain ⟨rest', res⟩ := Resumes.exists_resumes code unwound
    exact no_act stuck e (.returns fin res) global_step
  | job _ _ _ is_job =>
    rw [Frame.job?_of_call? is_call] at is_job
    cases is_job

/-- In a stuck state the top of a stack is blocked. -/
theorem blocked_of_stuck (stuck : Stuck (Step home) s) (placed : Placed s)
    (e : s.threads t = ⟨f :: below, active⟩) (shaped : Shaped (home t) (f :: below) active) :
    Blocked s.scopes f := by
  have here : ∀ pool b, f.scope? = some (pool, b) → ∃ scope, s.scopes[b]? = some scope := by
    intro pool b used
    obtain ⟨scope, hb, -⟩ := placed t f (by simp [e]) pool b used
    exact ⟨scope, hb⟩
  cases f with
  | running ctx code =>
    cases code with
    | call => exact (no_act stuck e (.call .eagerly rfl) .silent).elim
    | done =>
      cases ctx with
      | root => exact .ended rfl
      | converting path call tasks =>
        cases path with
        | sequential => exact (no_act stuck e (.moves .converted) .silent).elim
        | parallel => exact (no_act stuck e (.moves .opens) .opens).elim
      | pulling call k tasks scope =>
        cases scope with
        | none =>
          cases pulled : tasks.pulled k call.count with
          | none => exact (no_return stuck e shaped (.exhausted pulled) .silent).elim
          | some next => exact (no_act stuck e (.moves (.execute pulled)) .silent).elim
        | some b =>
          obtain ⟨scope, hb⟩ := here _ b rfl
          cases pulled : tasks.pulled k call.count with
          | none =>
            exact (no_act stuck e (.moves (.exhausted pulled)) (.on hb .drop_sender)).elim
          | some next => exact (no_act stuck e (.moves (.item pulled)) .silent).elim
      | executing => exact (no_act stuck e (.moves (.executed rfl)) .silent).elim
      | working => exact (no_act stuck e (.moves (.worked rfl)) .silent).elim
    | unwinds =>
      cases ctx with
      | root => exact .ended rfl
      | converting => exact (no_return stuck e shaped .conversion_unwinds .silent).elim
      | pulling call k tasks scope =>
        cases scope with
        | none => exact (no_return stuck e shaped .source_unwinds .silent).elim
        | some b =>
          obtain ⟨scope, hb⟩ := here _ b rfl
          exact (no_act stuck e (.moves .source_unwinds) (.on hb .drop_sender)).elim
      | executing => exact (no_act stuck e (.moves (.executed rfl)) .silent).elim
      | working => exact (no_act stuck e (.moves (.worked rfl)) .silent).elim
  | spawning call tasks b n =>
    obtain ⟨scope, hb⟩ := here _ b rfl
    cases n with
    | zero => exact (no_act stuck e (.moves .spawned) (.on hb .drop_receiver)).elim
    | succ n => exact (no_act stuck e (.moves .spawn) (.on hb .spawn)).elim
  | polling => exact (no_act stuck e (.moves .next) .silent).elim
  | sending call k rest b task =>
    obtain ⟨scope, hb⟩ := here _ b rfl
    cases sent : scope.channel.send task with
    | sent c => exact (no_act stuck e (.moves .send) (.on hb (.send sent))).elim
    | disconnected => exact (no_act stuck e (.moves .send_error) (.on hb (.send_error sent))).elim
    | blocked => exact .sending hb sent
  | waiting call b unwound =>
    obtain ⟨scope, hb⟩ := here _ b rfl
    rcases Nat.eq_zero_or_pos scope.pending with done | left
    · exact (no_return stuck e shaped .scope_ends (.on hb (.ends done))).elim
    · exact .waiting hb left.ne'
  | receiving pool b =>
    obtain ⟨scope, hb⟩ := here _ b rfl
    cases received : scope.channel.recv with
    | received task c => exact (no_act stuck e (.moves .recv) (.on hb (.recv received))).elim
    | disconnected => exact (no_act stuck e (.exits .closed) (.on hb (.exit received))).elim
    | blocked => exact .receiving hb received

end Stuck

/-- Some thread has a job on a source that it is still producing, while a job of that source's call
waits for the next task. -/
def Entangled (s : State θ π) : Prop :=
  ∃ t pool b below, (s.threads t).stack = .receiving pool b :: below ∧
    ∃ u upper g lower, (s.threads u).stack = upper ++ g :: lower ∧ g.feeding? = some b ∧
      ∃ f ∈ upper, f.job? ≠ none

/-- The workers of a pool have nothing to do. -/
def IdlePool (home : θ → Option π) (s : State θ π) (pool : π) : Prop :=
  ∀ t, home t = some pool → (s.threads t).stack = []

/-- A stuck state with the invariants of a run, in which every pool in use has threads. -/
structure Halted [DecidableEq π] [DecidableEq θ] [Fintype θ] (R : Option π → π → Prop)
    (home : θ → Option π) (s : State θ π) : Prop where
  stuck : Stuck (Step home) s
  shaped : ∀ t, Shaped (home t) (s.threads t).stack (s.threads t).active
  ledger : Ledger home s
  placed : Placed s
  confined : Confined R s
  manned : ∀ t, ∀ f ∈ (s.threads t).stack, ∀ pool, f.batch? = some pool →
    0 < current_num_threads home pool

namespace Halted

variable [DecidableEq π] [DecidableEq θ] [Fintype θ] {R : Option π → π → Prop} {home : θ → Option π}
  {s : State θ π} {t : θ} {f : Frame π} {below : List (Frame π)} {Z : π}

/-- A stuck state that is reached is halted. -/
lemma of_run {program} (allowed : ∀ t, home t = none → (program t).Within R none)
    (threads : ∀ X pool, R X pool → 0 < current_num_threads home pool)
    (rs : ReflTransGen (Step home) (init home program) s) (stuck : Stuck (Step home) s) :
    Halted R home s where
  stuck := stuck
  shaped := Shaped.run rs
  ledger := .run rs
  placed := .run rs
  confined := .run allowed rs
  manned := by
    intro t f hf pool on
    obtain ⟨X, may⟩ := (Confined.run allowed rs).allowed (.run rs) hf on
    exact threads X pool may

/-- In a halted state the innermost frame of a thread is blocked. -/
lemma top (h : Halted R home s) (e : (s.threads t).stack = f :: below) : Blocked s.scopes f := by
  have eq : s.threads t = ⟨f :: below, (s.threads t).active⟩ := by rw [← e]
  exact blocked_of_stuck h.stuck h.placed eq (e ▸ h.shaped t)

/-- A scope on a pool whose workers are all idle has no jobs left. -/
lemma pending_eq_zero (h : Halted R home s) (idle : IdlePool home s Z)
    (some_thread : 0 < current_num_threads home Z) {b : Nat} {scope : Scope π}
    (hb : s.scopes[b]? = some scope) (pool : scope.pool = Z) : scope.pending = 0 := by
  subst pool
  obtain ⟨⟨t, at_home⟩⟩ := Fintype.card_pos_iff.mp some_thread
  have started : scope.unstarted = 0 := by
    -- a job that is not started would be started by an idle worker
    by_contra left
    have eq : s.threads t = ⟨[], (s.threads t).active⟩ := by rw [← idle t at_home]
    have start : Thread.Step (current_num_threads home) (home t) ⟨[], (s.threads t).active⟩
        (.on b (.start scope.pool)) ⟨[.receiving scope.pool b], (s.threads t).active⟩ :=
      .start at_home (by simp)
    rw [← eq] at start
    exact h.stuck _ ⟨t, _, .act start (.on hb (.start (Nat.pos_of_ne_zero left)))⟩
  have ended : s.tally Frame.jobScope? b = 0 := by
    by_contra left
    obtain ⟨u, f, hf, job⟩ := State.tally_pos.mp (Nat.pos_of_ne_zero left)
    obtain ⟨⟨pool, b⟩, is_job, rfl⟩ := Option.map_eq_some_iff.mp job
    -- a job that has not ended lies on the stack of a worker
    have at_home := (h.shaped u).home_of_mem hf is_job
    rw [← h.placed.pool_eq hf (Frame.scope?_of_job? is_job) hb] at at_home
    rw [idle u at_home] at hf
    cases hf
  have pending := (h.ledger.balanced b scope hb).pending
  omega

/-- No call waits on a pool whose workers are all idle. -/
lemma not_waiting (h : Halted R home s) (idle : IdlePool home s Z)
    (e : (s.threads t).stack = f :: below) : f.pool? ≠ some Z := by
  intro on
  have hf : f ∈ (s.threads t).stack := by simp [e]
  have some_thread := h.manned t f hf Z (Frame.batch?_of_pool? on)
  cases h.top e with
  | ended => cases on
  | receiving => cases on
  | waiting hb left =>
    cases on
    exact left (h.pending_eq_zero idle some_thread hb (h.placed.pool_eq hf rfl hb))
  | @sending _ _ _ b _ scope hb full =>
    cases on
    have pending := h.pending_eq_zero idle some_thread hb (h.placed.pool_eq hf rfl hb)
    have receivers := (h.ledger.balanced b scope hb).receivers
    obtain ⟨connected, -⟩ := Channel.send_eq_blocked.mp full
    -- so the original receiver is left, but its holder is on top of a stack and not blocked
    obtain ⟨u, g, hg, handle⟩ := State.tally_pos.mp (by omega : 0 < s.tally Frame.handle? b)
    cases g with
    | spawning call tasks c n =>
      rcases (h.shaped u).top_or hg with top | ⟨ctx, code, run⟩ | waits
      · obtain ⟨below, e⟩ := List.head?_eq_some_iff.mp top
        cases h.top e
      · cases run
      · cases waits
    | _ => cases handle

/-- In a halted state the innermost call of a thread is parallel. -/
lemma parallel_of_top (h : Halted R home s) (e : (s.threads t).stack = f :: below)
    (on : f.pool? = some Z) :
    ∃ call, f.call? = some (.parallel, call) ∧ call.executor.pool = Z := by
  cases h.top e with
  | ended => cases on
  | receiving => cases on
  | waiting | sending =>
    cases on
    exact ⟨_, rfl, rfl⟩

section Descent

variable {r : π → π → Prop} {Y : π} {b : Nat}
  (lower_idle : ∀ Z, TransGen r Z Y → IdlePool home s Z)

include lower_idle

/-- With all pools below `Y` idle, an innermost call on a pool down from `Y` is on `Y`. -/
lemma same_pool (h : Halted R home s) (e : (s.threads t).stack = f :: below)
    (on : f.pool? = some Z) (down : ReflTransGen r Z Y) : Y = Z := by
  rcases reflTransGen_iff_eq_or_transGen.mp down with same | strict
  · exact same
  · exact absurd on (h.not_waiting (lower_idle Z strict) e)

variable (desc : ∀ X Y, R (some X) Y → Y = X ∨ r Y X)

include desc

/-- A call on top of the stack of a worker of `Y` would wait for a lower pool. -/
lemma no_call_on_top (h : Halted R home s) (at_home : home t = some Y)
    (e : (s.threads t).stack = f :: below) : f.pool? ≠ some Z := by
  intro on
  have shaped := h.shaped t
  have ordered := h.confined.frames t
  rw [e] at shaped ordered
  have jobs : ∀ g ∈ f :: below, ∀ job, g.job? = some job → job.1 = Y := by
    intro g hg job is_job
    exact Option.some.inj ((shaped.home_of_mem hg is_job).symm.trans at_home)
  rw [← List.append_nil (f :: below)] at shaped ordered
  obtain ⟨Z', batch, down⟩ :=
    descends desc shaped ordered jobs (by simp) (by simp [at_home]) f List.mem_cons_self
  cases (Frame.batch?_of_pool? on).symm.trans batch
  -- so it would wait for `Y` itself, but on a worker of `Y` a call on `Y` is not parallel
  cases h.same_pool lower_idle e on down
  obtain ⟨call, par, rfl⟩ := h.parallel_of_top e on
  rw [List.append_nil] at shaped
  exact (shaped.parallel par).1 at_home

/-- A job of `Y` that waits for a task is fed by a call with a job on top of its source. -/
lemma entangled (h : Halted R home s) (e : (s.threads t).stack = .receiving Y b :: below) :
    Entangled s := by
  have some_thread := h.manned t (.receiving Y b) (by simp [e]) Y rfl
  obtain ⟨scope, hb, rfl⟩ := h.placed t (.receiving Y b) (by simp [e]) Y b rfl
  have balanced := h.ledger.balanced b scope hb
  have empty : scope.channel.recv = .blocked := by
    cases h.top e with
    | receiving hb' empty =>
      cases hb.symm.trans hb'
      exact empty
  obtain ⟨queue, sender⟩ := Channel.recv_eq_blocked.mp empty
  -- the sender is held somewhere, by a call on the same pool
  have fed : 0 < s.tally Frame.feeding? b := by
    rw [← balanced.sender, sender]
    decide
  obtain ⟨u, g, hg, feeding⟩ := State.tally_pos.mp fed
  obtain ⟨pool, used, on⟩ := Frame.scope?_of_feeding? feeding
  obtain rfl := h.placed.pool_eq hg used hb
  obtain ⟨upper, lower, split⟩ := List.append_of_mem hg
  refine ⟨t, scope.pool, b, below, e, u, upper, g, lower, split, feeding, ?_⟩
  by_contra jobless
  push Not at jobless
  have shaped := h.shaped u
  have ordered := h.confined.frames u
  rw [split] at shaped ordered
  cases upper with
  | nil =>
    -- the holder is on top, so it sends; but the channel has room
    have room := balanced.room some_thread
    cases h.top split with
    | sending hb' full =>
      cases feeding
      cases hb.symm.trans hb'
      obtain ⟨-, full⟩ := Channel.send_eq_blocked.mp full
      rw [queue, List.length_nil] at full
      omega
    | _ => cases feeding
  | cons f upper =>
    -- what lies on top are calls, and the topmost waits for a lower pool
    have no_job : ∀ h ∈ f :: upper, ∀ job, h.job? = some job → job.1 = scope.pool := by
      intro h hh job is_job
      rw [jobless h hh] at is_job
      cases is_job
    obtain ⟨Z, batch, down⟩ := descends desc shaped ordered no_job
      (fun h hh => by cases hh; exact Frame.batch?_of_pool? on) (by simp) f List.mem_cons_self
    have on_top := Frame.pool?_of_batch? batch (jobless f List.mem_cons_self)
    cases h.same_pool lower_idle split on_top down
    -- that pool is the scope's own, but above a call on it no call on it is parallel
    obtain ⟨call, par, pool⟩ := h.parallel_of_top split on_top
    obtain ⟨-, alone, -⟩ := Shaped.parallel shaped par
    exact alone g (by simp) (by rw [on, pool])

end Descent

/-- If nothing is entangled, the workers of all pools are idle. -/
theorem idle {r : π → π → Prop} (wf : WellFounded r)
    (desc : ∀ X Y, R (some X) Y → Y = X ∨ r Y X) (h : Halted R home s) (free : ¬ Entangled s)
    (Y : π) : IdlePool home s Y := by
  induction Y using wf.transGen.induction with
  | h Y lower_idle =>
    intro t at_home
    cases e : (s.threads t).stack with
    | nil => rfl
    | cons f below =>
      have no_call := fun Z => h.no_call_on_top (Z := Z) lower_idle desc at_home e
      cases h.top e with
      | ended =>
        obtain ⟨outside, -⟩ := Shaped.bottom_of_root (e ▸ h.shaped t)
        rw [at_home] at outside
        cases outside
      | waiting | sending => exact absurd rfl (no_call _)
      | @receiving pool b =>
        cases (Shaped.home_of_job (e ▸ h.shaped t) rfl).symm.trans at_home
        exact absurd (h.entangled lower_idle desc e) free

/-- If nothing is entangled, all calls have returned. -/
theorem finished {r : π → π → Prop} (wf : WellFounded r)
    (desc : ∀ X Y, R (some X) Y → Y = X ∨ r Y X) (h : Halted R home s) (free : ¬ Entangled s)
    (t : θ) : (s.threads t).finished := by
  have idle := h.idle wf desc free
  cases at_home : home t with
  | some Y => simp [Thread.finished, idle Y t at_home]
  | none =>
    cases e : (s.threads t).stack with
    | nil => simp [Thread.finished, e]
    | cons f below =>
      have shaped := h.shaped t
      rw [e] at shaped
      cases h.top e with
      | @ended code ended =>
        obtain ⟨-, rfl⟩ := shaped.bottom_of_root
        intro f hf
        rw [e] at hf
        rw [List.mem_singleton.mp hf]
        exact ended
      | waiting | sending => exact absurd rfl (h.not_waiting (idle _) e)
      | receiving =>
        rw [shaped.home_of_job rfl] at at_home
        cases at_home

end Halted

end RayonBatch.Nested
