import RayonBatch.Basis.Sums
import RayonBatch.Nested.Stack

/-!
# What the scopes know of the threads

The scopes count what lies on the stacks. For every scope the jobs on the stacks, the holders of its
original receiver and the holders of its sender are counted over all threads (`tally`), and the
counters of the scope agree with these counts (`Ledger`). Each step changes a count by what its
event says (`Thread.Step.jobs`, `Thread.Step.handles`, `Thread.Step.feeds`). A frame that uses a
scope finds it with its own pool (`Placed`).
-/

namespace RayonBatch.Nested
open Relation Runs

universe u
variable {π : Type u} {θ : Type*}

/-- The scope of a frame of a job. -/
def Frame.jobScope? (f : Frame π) : Option Nat :=
  f.job?.map Prod.snd

/-- The pool and the scope user code runs for. -/
def Context.scope? : Context π → Option (π × Nat)
  | pulling call _ _ scope => scope.map (call.executor.pool, ·)
  | working pool b => some (pool, b)
  | root | converting .. | executing .. => none

/-- The pool and the scope a frame uses. -/
def Frame.scope? : Frame π → Option (π × Nat)
  | running context _ => context.scope?
  | spawning call _ b _ | sending call _ _ b _ | waiting call b _ => some (call.executor.pool, b)
  | polling call _ _ scope => scope.map (call.executor.pool, ·)
  | receiving pool b => some (pool, b)

namespace Frame

/-- A job belongs to its scope. -/
lemma scope?_of_job? {f : Frame π} {x} (h : f.job? = some x) : f.scope? = some x := by
  cases f with
  | running ctx code =>
    cases ctx with
    | working => exact h
    | _ => cases h
  | receiving => exact h
  | _ => cases h

/-- A scope is used by a job or by a call. -/
lemma job?_or_pool?_of_scope? {f : Frame π} {pool b} (h : f.scope? = some (pool, b)) :
    f.job? = some (pool, b) ∨ f.pool? = some pool := by
  cases f with
  | running ctx code =>
    cases ctx with
    | pulling call k tasks scope =>
      obtain ⟨c, rfl, e⟩ := Option.map_eq_some_iff.mp h
      cases e
      exact .inr rfl
    | working => exact .inl h
    | _ => cases h
  | polling call k tasks scope =>
    obtain ⟨c, rfl, e⟩ := Option.map_eq_some_iff.mp h
    cases e
    exact .inr rfl
  | receiving => exact .inl h
  | _ =>
    cases h
    exact .inr rfl

/-- A frame that holds a sender belongs to the call of that scope. -/
lemma scope?_of_feeding? {f : Frame π} {b} (h : f.feeding? = some b) :
    ∃ pool, f.scope? = some (pool, b) ∧ f.pool? = some pool := by
  cases f with
  | running ctx code =>
    cases ctx with
    | pulling call k tasks scope =>
      cases show scope = some b from h
      exact ⟨_, rfl, rfl⟩
    | _ => cases h
  | polling call k tasks scope =>
    cases show scope = some b from h
    exact ⟨_, rfl, rfl⟩
  | spawning | sending =>
    cases h
    exact ⟨_, rfl, rfl⟩
  | _ => cases h

end Frame

/-- The frames of a stack at which `k` reads the scope `b`. -/
def tally (k : Frame π → Option Nat) (b : Nat) (thread : Thread π) : Nat :=
  thread.stack.countP fun f => k f = some b

/-- A thread that is counted for a scope has a frame of it. -/
lemma tally_pos {k : Frame π → Option Nat} {b} {thread : Thread π} :
    0 < tally k b thread ↔ ∃ f ∈ thread.stack, k f = some b := by
  simp [tally, List.countP_pos_iff]

namespace Event

/-- Jobs of a scope that an event starts. -/
def started (b : Nat) : Event π → Nat
  | on c (.start _) => if c = b then 1 else 0
  | _ => 0

/-- Jobs of a scope that an event ends. -/
def ended (b : Nat) : Event π → Nat
  | on c .exit | on c .unwind => if c = b then 1 else 0
  | _ => 0

/-- Whether an event opens a scope. -/
def opened (b : Nat) : Event π → Nat
  | opens c _ _ => if c = b then 1 else 0
  | _ => 0

/-- Whether an event drops the original receiver of a scope. -/
def detached (b : Nat) : Event π → Nat
  | on c .drop_receiver => if c = b then 1 else 0
  | _ => 0

/-- Whether an event drops the sender of a scope. -/
def closed (b : Nat) : Event π → Nat
  | on c .drop_sender | on c (.send_error _) => if c = b then 1 else 0
  | _ => 0

end Event

section Counts

variable [DecidableEq π] {threads : π → Nat} {home : Option π} {thread thread' : Thread π}
  {e : Event π}

/-- A step changes the jobs on the stack by those it starts and ends. -/
lemma Thread.Step.jobs (st : Thread.Step threads home thread e thread') (b : Nat) :
    tally Frame.jobScope? b thread' + e.ended b = tally Frame.jobScope? b thread + e.started b := by
  cases st with
  | call => rfl
  | moves m =>
    cases m <;> rfl
  | returns fin => cases fin <;> rfl
  | start =>
    simp [tally, List.countP_cons, Frame.jobScope?, Frame.job?, Event.ended, Event.started]
  | exits exit =>
    cases exit <;>
      simp [tally, List.countP_cons, Frame.jobScope?, Frame.job?, Context.job?, Event.ended,
        Event.started]

/-- A step changes the original receivers held on the stack by what it opens and drops. -/
lemma Thread.Step.handles (st : Thread.Step threads home thread e thread') (b : Nat) :
    tally Frame.handle? b thread' + e.detached b = tally Frame.handle? b thread + e.opened b := by
  cases st with
  | call => rfl
  | moves m =>
    cases m with
    | opens | spawned =>
      simp [tally, List.countP_cons, Frame.handle?, Event.detached, Event.opened]
    | _ => rfl
  | returns fin => cases fin <;> rfl
  | start => rfl
  | exits exit => cases exit <;> rfl

/-- A step changes the senders held on the stack by what it opens and drops. -/
lemma Thread.Step.feeds (st : Thread.Step threads home thread e thread') (b : Nat) :
    tally Frame.feeding? b thread' + e.closed b = tally Frame.feeding? b thread + e.opened b := by
  cases st with
  | call => rfl
  | moves m =>
    cases m with
    | opens | send_error | exhausted | stopped | source_unwinds =>
      simp [tally, List.countP_cons, Frame.feeding?, Context.feeding?, Event.closed, Event.opened]
    | _ => rfl
  | returns fin => cases fin <;> rfl
  | start => rfl
  | exits exit => cases exit <;> rfl

/-- A scope that is opened gets a channel with room on a pool that has threads. -/
lemma Thread.Step.opens_room {b pool n} (h : Shaped home thread.stack thread.active)
    (st : Thread.Step threads home thread (.opens b pool n) thread') (some : 0 < threads pool) :
    0 < n := by
  cases st with
  | moves m =>
    cases m with
    | @opens call tasks =>
      obtain ⟨-, -, large, -⟩ := h.parallel rfl
      exact Nat.lt_min.mpr ⟨some, Nat.zero_lt_of_lt large⟩
  | returns fin => cases fin
  | exits exit => cases exit

end Counts

/-- The frames of all stacks at which `k` reads the scope `b`. -/
def State.tally [Fintype θ] (s : State θ π) (k : Frame π → Option Nat) (b : Nat) : Nat :=
  ∑ t, Nested.tally k b (s.threads t)

/-- When threads are counted for a scope, one has a frame of it. -/
lemma State.tally_pos [Fintype θ] {s : State θ π} {k : Frame π → Option Nat} {b} :
    0 < s.tally k b ↔ ∃ t, ∃ f ∈ (s.threads t).stack, k f = some b := by
  constructor
  · intro h
    obtain ⟨t, ht⟩ := exists_component_pos h
    exact ⟨t, Nested.tally_pos.mp ht⟩
  · rintro ⟨t, ht⟩
    exact Nat.lt_of_lt_of_le (Nested.tally_pos.mpr ht) (le_sum_component (Nested.tally k b) _ t)

/-- The count of a scope changes by what the step of one thread changes. -/
lemma State.tally_update [DecidableEq θ] [Fintype θ] {s : State θ π} {k : Frame π → Option Nat}
    {b up down} {t : θ} {thread scopes}
    (local_step : Nested.tally k b thread + down = Nested.tally k b (s.threads t) + up) :
    State.tally ⟨Function.update s.threads t thread, scopes⟩ k b + down = s.tally k b + up := by
  have sum := sum_update_add (Nested.tally k b) s.threads t thread
  simp only [State.tally]
  omega

/-- A scope on a pool of `n` threads agrees with its counts. -/
structure Scope.Balanced (s : Scope π) (n jobs handles feeds : Nat) : Prop where
  room : 0 < n → 0 < s.channel.capacity
  receivers : s.channel.receivers = s.pending + handles
  pending : s.pending = s.unstarted + jobs
  sender : s.channel.sender.toNat = feeds

/-- What happens to a scope keeps its balance. -/
lemma Scope.Balanced.step {s s' : Scope π} {op b n jobs jobs' handles handles' feeds feeds'}
    (h : s.Balanced n jobs handles feeds) (st : s.Step op s')
    (j : jobs' + (Event.on b op).ended b = jobs + (Event.on b op).started b)
    (r : handles' + (Event.on b op).detached b = handles + (Event.on b op).opened b)
    (f : feeds' + (Event.on b op).closed b = feeds + (Event.on b op).opened b) :
    s'.Balanced n jobs' handles' feeds' := by
  obtain ⟨room, receivers, pending, sender⟩ := h
  have one : s.channel.sender.toNat ≤ 1 := Bool.toNat_le _
  cases st with
  | send e =>
    obtain ⟨-, -, rfl⟩ := Channel.send_eq_sent.mp e
    simp only [Event.ended, Event.started, Event.detached, Event.opened, Event.closed] at j r f
    refine ⟨room, ?_, ?_, ?_⟩ <;> dsimp only <;> omega
  | recv e =>
    obtain ⟨-, e⟩ := Channel.recv_eq_received.mp e
    simp only [Event.ended, Event.started, Event.detached, Event.opened, Event.closed] at j r f
    rw [e]
    refine ⟨room, ?_, ?_, ?_⟩ <;> dsimp only <;> omega
  | ends =>
    simp only [Event.ended, Event.started, Event.detached, Event.opened, Event.closed] at j r f
    exact ⟨room, by omega, by omega, by omega⟩
  | _ =>
    simp only [Event.ended, Event.started, Event.detached, Event.opened, Event.closed,
      if_true] at j r f
    refine ⟨room, ?_, ?_, ?_⟩ <;> simp <;> omega

/-- The scopes agree with the stacks. -/
structure Ledger [DecidableEq π] [Fintype θ] (home : θ → Option π) (s : State θ π) : Prop where
  balanced : ∀ b (scope : Scope π), s.scopes[b]? = some scope →
    scope.Balanced (current_num_threads home scope.pool) (s.tally Frame.jobScope? b)
      (s.tally Frame.handle? b) (s.tally Frame.feeding? b)
  unopened : ∀ b, s.scopes.length ≤ b →
    s.tally Frame.jobScope? b = 0 ∧ s.tally Frame.handle? b = 0 ∧ s.tally Frame.feeding? b = 0

/-- A scope stays on its pool. -/
lemma Scope.Step.pool {s s' : Scope π} {op} (st : s.Step op s') : s'.pool = s.pool := by
  cases st <;> rfl

/-- The scope a step gives to a frame that did not use one. -/
def Event.provides : Event π → Option (π × Nat)
  | opens b pool _ | on b (.start pool) => some (pool, b)
  | _ => none

/-- A frame that moves on uses the scope it used before, or the one that it is given. -/
lemma Moves.scope_used {threads : π → Nat} {f f' : Frame π} {e x} (h : Moves threads f e f')
    (used : f'.scope? = some x) : f.scope? = some x ∨ e.provides = some x := by
  cases h with
  | converted | execute | executed => cases used
  | opens => exact .inr used
  | _ => exact .inl used

/-- A frame uses a scope that a frame of the same thread used before, or one that it is given. -/
lemma Thread.Step.scope_used [DecidableEq π] {threads : π → Nat} {home} {thread thread' : Thread π}
    {e} (st : Thread.Step threads home thread e thread') {f x} (hf : f ∈ thread'.stack)
    (used : f.scope? = some x) :
    (∃ g ∈ thread.stack, g.scope? = some x) ∨ e.provides = some x := by
  cases st with
  | call =>
    rcases List.mem_cons.mp hf with rfl | hf
    · cases used
    · rcases List.mem_cons.mp hf with rfl | hf
      · exact .inl ⟨_, List.mem_cons_self, used⟩
      · exact .inl ⟨f, List.mem_cons_of_mem _ hf, used⟩
  | moves m =>
    rcases List.mem_cons.mp hf with rfl | hf
    · rcases m.scope_used used with before | given
      · exact .inl ⟨_, List.mem_cons_self, before⟩
      · exact .inr given
    · exact .inl ⟨f, List.mem_cons_of_mem _ hf, used⟩
  | returns =>
    rcases List.mem_cons.mp hf with rfl | hf
    · exact .inl ⟨_, List.mem_cons_of_mem _ List.mem_cons_self, used⟩
    · exact .inl ⟨f, List.mem_cons_of_mem _ (List.mem_cons_of_mem _ hf), used⟩
  | start =>
    rcases List.mem_cons.mp hf with rfl | hf
    · exact .inr used
    · exact .inl ⟨f, hf, used⟩
  | exits => exact .inl ⟨f, List.mem_cons_of_mem _ hf, used⟩

/-- Every scope stays where it is, on its pool. -/
lemma Scopes.Step.keeps {scopes scopes' : List (Scope π)} {e} (st : Scopes.Step scopes e scopes')
    {b : Nat} {scope : Scope π} (h : scopes[b]? = some scope) :
    ∃ scope', scopes'[b]? = some scope' ∧ scope'.pool = scope.pool := by
  cases st with
  | silent => exact ⟨scope, h, rfl⟩
  | opens =>
    obtain ⟨lt, -⟩ := List.getElem?_eq_some_iff.mp h
    exact ⟨scope, by rw [List.getElem?_append_left lt, h], rfl⟩
  | @on c op old new hc st =>
    obtain ⟨lt, -⟩ := List.getElem?_eq_some_iff.mp hc
    rcases eq_or_ne c b with eq | ne
    · subst eq
      cases hc.symm.trans h
      exact ⟨new, List.getElem?_set_self lt, st.pool⟩
    · exact ⟨scope, by rw [List.getElem?_set_ne ne, h], rfl⟩

/-- A scope that is spoken of is open and on that pool. -/
lemma Scopes.Step.provided {scopes scopes' : List (Scope π)} {e} (st : Scopes.Step scopes e scopes')
    {pool : π} {b : Nat} (h : e.provides = some (pool, b)) :
    ∃ scope, scopes'[b]? = some scope ∧ scope.pool = pool := by
  cases st with
  | silent => cases h
  | opens =>
    cases h
    exact ⟨_, List.getElem?_concat_length, rfl⟩
  | @on c op old new hc st =>
    obtain ⟨lt, -⟩ := List.getElem?_eq_some_iff.mp hc
    cases st with
    | start some =>
      cases h
      exact ⟨_, List.getElem?_set_self lt, rfl⟩
    | _ => cases h

/-- Every frame that uses a scope finds it, on its own pool. -/
def Placed (s : State θ π) : Prop :=
  ∀ t, ∀ f ∈ (s.threads t).stack, ∀ pool b, f.scope? = some (pool, b) →
    ∃ scope, s.scopes[b]? = some scope ∧ scope.pool = pool

/-- An event that is not about a scope. -/
def Event.Quiet (b : Nat) (e : Event π) : Prop :=
  e.started b = 0 ∧ e.ended b = 0 ∧ e.opened b = 0 ∧ e.detached b = 0 ∧ e.closed b = 0

/-- An event on another scope leaves a scope alone. -/
lemma Event.quiet_on {b c : Nat} (h : c ≠ b) (op : Op π) : (Event.on c op).Quiet b := by
  cases op <;> simp [Quiet, started, ended, opened, detached, closed, h]

/-- Opening another scope leaves a scope alone. -/
lemma Event.quiet_opens {b c n : Nat} {pool : π} (h : c ≠ b) : (Event.opens c pool n).Quiet b := by
  simp [Quiet, started, ended, opened, detached, closed, h]

/-- Where a scope comes from: it was there before, or it is new, or something happened to it. -/
lemma Scopes.Step.origin {scopes scopes' : List (Scope π)} {e} (st : Scopes.Step scopes e scopes')
    {b : Nat} {scope' : Scope π} (h : scopes'[b]? = some scope') :
    (scopes[b]? = some scope' ∧ e.Quiet b) ∨
    (∃ n, b = scopes.length ∧ e = .opens b scope'.pool n ∧
      scope' = ⟨scope'.pool, .bounded n, 0, 0, false⟩) ∨
    ∃ op scope, e = .on b op ∧ scopes[b]? = some scope ∧ scope.Step op scope' := by
  cases st with
  | silent => exact .inl ⟨h, rfl, rfl, rfl, rfl, rfl⟩
  | @opens pool n =>
    rcases Nat.lt_trichotomy b scopes.length with lt | rfl | gt
    · rw [List.getElem?_append_left lt] at h
      exact .inl ⟨h, Event.quiet_opens lt.ne'⟩
    · rw [List.getElem?_concat_length] at h
      cases h
      exact .inr (.inl ⟨n, rfl, rfl, rfl⟩)
    · rw [List.getElem?_append_right gt.le, List.getElem?_singleton, if_neg (by omega)] at h
      cases h
  | @on c op scope new hc st =>
    rcases eq_or_ne c b with rfl | ne
    · obtain ⟨lt, -⟩ := List.getElem?_eq_some_iff.mp hc
      rw [List.getElem?_set_self lt] at h
      cases h
      exact .inr (.inr ⟨op, scope, rfl, hc, st⟩)
    · rw [List.getElem?_set_ne ne] at h
      exact .inl ⟨h, Event.quiet_on ne op⟩

/-- A scope that is not open after a step was not open before. -/
lemma Scopes.Step.beyond {scopes scopes' : List (Scope π)} {e} (st : Scopes.Step scopes e scopes')
    {b : Nat} (h : scopes'.length ≤ b) : scopes.length ≤ b ∧ e.Quiet b := by
  cases st with
  | silent => exact ⟨h, rfl, rfl, rfl, rfl, rfl⟩
  | opens =>
    rw [List.length_append, List.length_singleton] at h
    exact ⟨by omega, Event.quiet_opens (by omega)⟩
  | on hc st =>
    obtain ⟨lt, -⟩ := List.getElem?_eq_some_iff.mp hc
    rw [List.length_set] at h
    exact ⟨h, Event.quiet_on (by omega) _⟩

section Runs

variable [DecidableEq π] [DecidableEq θ] [Fintype θ] {home : θ → Option π} {s s' : State θ π}

/-- A step changes the counts of a scope by what its event tells. -/
lemma Acts.tallies {t e} (st : Acts home s t e s') (b : Nat) :
    s'.tally Frame.jobScope? b + e.ended b = s.tally Frame.jobScope? b + e.started b ∧
    s'.tally Frame.handle? b + e.detached b = s.tally Frame.handle? b + e.opened b ∧
    s'.tally Frame.feeding? b + e.closed b = s.tally Frame.feeding? b + e.opened b := by
  cases st with
  | act local_step _ =>
    exact ⟨State.tally_update (local_step.jobs b), State.tally_update (local_step.handles b),
      State.tally_update (local_step.feeds b)⟩

/-- A step that leaves a scope alone keeps its counts. -/
lemma Acts.tallies_eq {t e} (st : Acts home s t e s') {b : Nat} (quiet : e.Quiet b) :
    s'.tally Frame.jobScope? b = s.tally Frame.jobScope? b ∧
    s'.tally Frame.handle? b = s.tally Frame.handle? b ∧
    s'.tally Frame.feeding? b = s.tally Frame.feeding? b := by
  obtain ⟨jobs, handles, feeds⟩ := st.tallies b
  obtain ⟨_, _, _, _, _⟩ := quiet
  omega

/-- Every step keeps the ledger. -/
lemma Ledger.act {t e} (h : Ledger home s)
    (shaped : Shaped (home t) (s.threads t).stack (s.threads t).active) (st : Acts home s t e s') :
    Ledger home s' := by
  have tallies := st.tallies
  have same := fun b => st.tallies_eq (b := b)
  cases st with
  | act local_step global_step =>
    constructor
    · intro b scope' hb
      rcases global_step.origin hb with
        ⟨old, quiet⟩ | ⟨n, rfl, rfl, new⟩ | ⟨op, scope, rfl, old, st⟩
      · obtain ⟨jobs, handles, feeds⟩ := same b quiet
        rw [jobs, handles, feeds]
        exact h.balanced b scope' old
      · -- a new scope has nothing but its sender and its original receiver
        obtain ⟨no_jobs, no_handles, no_feeds⟩ := h.unopened _ (Nat.le_refl s.scopes.length)
        obtain ⟨jobs, handles, feeds⟩ := tallies s.scopes.length
        simp only [Event.ended, Event.started, Event.detached, Event.opened, Event.closed, if_true,
          no_jobs, no_handles, no_feeds, Nat.add_zero] at jobs handles feeds
        rw [jobs, handles, feeds, new]
        exact ⟨local_step.opens_room shaped, rfl, rfl, rfl⟩
      · -- the scope's counters move with what its event does to the stacks
        obtain ⟨jobs, handles, feeds⟩ := tallies b
        rw [st.pool]
        exact (h.balanced b scope old).step st jobs handles feeds
    · intro b hb
      obtain ⟨ge, quiet⟩ := global_step.beyond hb
      obtain ⟨jobs, handles, feeds⟩ := same b quiet
      rw [jobs, handles, feeds]
      exact h.unopened b ge

/-- The ledger holds in every reachable state. -/
lemma Ledger.run {program} (rs : ReflTransGen (Step home) (init home program) s) :
    Ledger home s := by
  induction rs with
  | refl =>
    have none : ∀ (k : Frame π → Option Nat) (b : Nat), (∀ code, k (.running .root code) = none) →
        (init home program).tally k b = 0 := by
      intro k b root
      refine Finset.sum_eq_zero fun t _ => ?_
      simp only [init, tally]
      split <;> simp [root]
    refine ⟨fun b scope hb => ?_, fun b _ => ?_⟩
    · cases hb
    · exact ⟨none _ _ fun _ => rfl, none _ _ fun _ => rfl, none _ _ fun _ => rfl⟩
  | tail rs st ih =>
    obtain ⟨t, e, st⟩ := st
    exact ih.act (Shaped.run rs t) st

omit [DecidableEq π] [DecidableEq θ] [Fintype θ] in
/-- The scope of a frame is on the pool that the frame names. -/
lemma Placed.pool_eq (h : Placed s) {t f} (hf : f ∈ (s.threads t).stack) {pool b}
    (used : f.scope? = some (pool, b)) {scope : Scope π} (hb : s.scopes[b]? = some scope) :
    scope.pool = pool := by
  obtain ⟨scope', hb', rfl⟩ := h t f hf pool b used
  cases hb.symm.trans hb'
  rfl

/-- In every reachable state the scopes of frames are open. -/
lemma Placed.run {program} (rs : ReflTransGen (Step home) (init home program) s) : Placed s := by
  refine invariant (I := Placed) (fun {a a'} st h => ?_) rs (fun t f hf pool b hx => ?_)
  · obtain ⟨u, e, st⟩ := st
    have kept : ∀ t, ∀ f ∈ (a.threads t).stack, ∀ pool b, f.scope? = some (pool, b) →
        ∃ scope, a'.scopes[b]? = some scope ∧ scope.pool = pool := by
      intro t f hf pool b hx
      obtain ⟨scope, hb, rfl⟩ := h t f hf pool b hx
      exact st.scopes.keeps hb
    intro t f hf pool b hx
    rcases eq_or_ne t u with rfl | ne
    · obtain ⟨g, hg, hx⟩ | given := st.self.scope_used hf hx
      · exact kept t g hg pool b hx
      · exact st.scopes.provided given
    · rw [st.other ne] at hf
      exact kept t f hf pool b hx
  · simp only [init] at hf
    split at hf
    · cases List.mem_singleton.mp hf
      cases hx
    · cases hf

end Runs

end RayonBatch.Nested
