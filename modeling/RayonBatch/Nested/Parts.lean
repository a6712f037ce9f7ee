import RayonBatch.Nested.Ledger

/-!
# What a scope sees of the threads

The frames that have to do with one scope are its body and its jobs, wherever they lie on the
stacks. `State.parts` collects them, without the stacks around them, and `Parts.Step` says what may
become of them and of their scope. A step of the system is such a step for every open scope
(`Acts.parts`); the step that opens a scope gives it its body (`Acts.parts_of_opens`).
-/

namespace RayonBatch.Nested
open Relation Runs

universe u
variable {π : Type u} {θ : Type*}

/-- What a frame does for a scope: it is the body of the scope or one of its jobs. -/
inductive Part (π : Type u) where
  | spawning (count : Nat) (tasks : Tasks π) (n : Nat)
  /-- Between two items of the source or in its `next`. -/
  | pulling (count position : Nat) (tasks : Tasks π)
  | sending (count position : Nat) (rest : Tasks π) (task : Code π)
  | waiting (unwound : Bool)
  | receiving
  /-- A job with what is left of a task. -/
  | executing (code : Code π)

/-- The scope a frame has to do with, and what it does for it. -/
def Frame.part? : Frame π → Option (Nat × Part π)
  | running (.pulling call position tasks scope) _ | polling call position tasks scope =>
    scope.map (·, .pulling call.count position tasks)
  | running (.working _ b) code => some (b, .executing code)
  | running .root _ | running (.converting ..) _ | running (.executing ..) _ => none
  | spawning call tasks b n => some (b, .spawning call.count tasks n)
  | sending call position rest b task => some (b, .sending call.count position rest task)
  | waiting _ b unwound => some (b, .waiting unwound)
  | receiving _ b => some (b, .receiving)

/-- What a frame does for the scope `b`. -/
def Frame.parts (b : Nat) (f : Frame π) : Multiset (Part π) :=
  match f.part? with
  | some (c, part) => if c = b then {part} else 0
  | none => 0

/-- What the frames of a thread do for the scope `b`. -/
def Thread.parts (b : Nat) (thread : Thread π) : Multiset (Part π) :=
  (thread.stack.map (Frame.parts b)).sum

/-- What all frames do for the scope `b`. -/
def State.parts [Fintype θ] (s : State θ π) (b : Nat) : Multiset (Part π) :=
  ∑ t, (s.threads t).parts b

/-- What an event does to the scope `b`. -/
def Event.op? (b : Nat) : Event π → Option (Op π)
  | on c op => if c = b then some op else none
  | silent | opens .. => none

/-- What happens to a scope, if anything does. -/
def Scope.Does (s : Scope π) : Option (Op π) → Scope π → Prop
  | none, s' => s' = s
  | some op, s' => s.Step op s'

/-- Code and what is left of it when a call is made or over. -/
inductive Follows : Code π → Code π → Prop where
  | calls {entry executor count into_iter tasks rest} :
    Follows (.call entry executor count into_iter tasks rest) rest
  | resumes {rest unwound rest'} :
    Resumes rest unwound rest' →
    Follows rest rest'

/-- What becomes of the parts of a scope, and what they do to the scope meanwhile. -/
inductive Parts.Step : Multiset (Part π) → Option (Op π) → Multiset (Part π) → Prop where
  | idle {ps} : Parts.Step ps none ps
  /-- Side by side, at most one of them does something to the scope. -/
  | beside {ps ps' qs qs' op} :
    Parts.Step ps op ps' →
    Parts.Step qs none qs' →
    Parts.Step (ps + qs) op (ps' + qs')
  | spawn {count tasks n} :
    Parts.Step {.spawning count tasks (n + 1)} (some .spawn) {.spawning count tasks n}
  | spawned {count tasks} :
    Parts.Step {.spawning count tasks 0} (some .drop_receiver) {.pulling count 0 tasks}
  | item {count k tasks task rest} :
    tasks.pulled k count = some (task, rest) →
    Parts.Step {.pulling count k tasks} none {.sending count (k + 1) rest task}
  | send {count k rest task} :
    Parts.Step {.sending count k rest task} (some (.send task)) {.pulling count k rest}
  | send_error {count k rest task} :
    Parts.Step {.sending count k rest task} (some (.send_error task)) {.waiting false}
  /-- The source ends, stops early or unwinds. -/
  | closes {count k tasks unwound} :
    Parts.Step {.pulling count k tasks} (some .drop_sender) {.waiting unwound}
  | ends {body jobs} : Parts.Step {.waiting body} (some (.ends jobs)) 0
  | start {pool} : Parts.Step 0 (some (.start pool)) {.receiving}
  | recv {task} : Parts.Step {.receiving} (some (.recv task)) {.executing task}
  | follows {code code'} :
    Follows code code' →
    Parts.Step {.executing code} none {.executing code'}
  | worked {code} :
    code.ended = true →
    Parts.Step {.executing code} none {.receiving}
  | exit : Parts.Step {.receiving} (some .exit) 0
  | unwind : Parts.Step {.executing .unwinds} (some .unwind) 0

namespace Parts.Step

variable {b c : Nat} {op : Op π} {ps ps' : Multiset (Part π)}

/-- What happens to another scope is nothing to this one. -/
lemma at_scope (st : Parts.Step ps (some op) ps') :
    Parts.Step (if c = b then ps else 0) ((Event.on c op).op? b) (if c = b then ps' else 0) := by
  simp only [Event.op?]
  split
  · exact st
  · exact .idle

/-- A part that begins is one of the scope it begins in. -/
lemma at_start (st : Parts.Step 0 (some op) ps') :
    Parts.Step 0 ((Event.on c op).op? b) (if c = b then ps' else 0) := by
  simpa using st.at_scope (c := c) (b := b)

/-- A part that ends is one of the scope it ends in. -/
lemma at_end (st : Parts.Step ps (some op) 0) :
    Parts.Step (if c = b then ps else 0) ((Event.on c op).op? b) 0 := by
  simpa using st.at_scope (c := c) (b := b)

/-- A part that changes silently stays one of its scope. -/
lemma silently (st : Parts.Step ps none ps') :
    Parts.Step (if c = b then ps else 0) none (if c = b then ps' else 0) := by
  split
  · exact st
  · exact .idle

end Parts.Step

/-- The parts of a frame that moves on within its call or its job. -/
lemma Moves.parts {threads : π → Nat} {f f' : Frame π} {e} (m : Moves threads f e f') {b : Nat}
    (old : ∀ pool n, e ≠ .opens b pool n) : Parts.Step (f.parts b) (e.op? b) (f'.parts b) := by
  cases m with
  | converted | execute | executed | next => exact .idle
  | @opens call tasks c =>
    have ne : c ≠ b := fun eq => old _ _ (by rw [eq])
    simpa [Frame.parts, Frame.part?, Event.op?, ne] using Parts.Step.idle
  | spawn => exact Parts.Step.spawn.at_scope
  | spawned => exact Parts.Step.spawned.at_scope
  | item pulled => exact (Parts.Step.item pulled).silently
  | send => exact Parts.Step.send.at_scope
  | send_error => exact Parts.Step.send_error.at_scope
  | exhausted | stopped | source_unwinds => exact Parts.Step.closes.at_scope
  | recv => exact Parts.Step.recv.at_scope
  | worked ended => exact (Parts.Step.worked ended).silently

/-- The code of a frame goes on. -/
lemma Follows.parts {ctx : Context π} {code code'} (h : Follows code code') (b : Nat) :
    Parts.Step ((Frame.running ctx code).parts b) none ((Frame.running ctx code').parts b) := by
  cases ctx with
  | working => exact (Parts.Step.follows h).silently
  | _ => exact .idle

/-- A call that is over does nothing for a scope any more. -/
lemma Finishes.parts {f : Frame π} {e call unwound} (h : Finishes f e call unwound) (b : Nat) :
    Parts.Step (f.parts b) (e.op? b) 0 := by
  cases h with
  | scope_ends => exact Parts.Step.ends.at_end
  | _ => exact .idle

/-- A job that is over does nothing for a scope any more. -/
lemma Exits.parts {f : Frame π} {e} (h : Exits f e) (b : Nat) :
    Parts.Step (f.parts b) (e.op? b) 0 := by
  cases h with
  | closed => exact Parts.Step.exit.at_end
  | task_unwinds => exact Parts.Step.unwind.at_end

/-- What an event does to an open scope. -/
lemma Scopes.Step.does {scopes scopes' : List (Scope π)} {e} (st : Scopes.Step scopes e scopes')
    {b : Nat} {scope : Scope π} (found : scopes[b]? = some scope) :
    ∃ scope', scopes'[b]? = some scope' ∧ scope.Does (e.op? b) scope' := by
  obtain ⟨lt, -⟩ := List.getElem?_eq_some_iff.mp found
  cases st with
  | silent => exact ⟨scope, found, rfl⟩
  | opens => exact ⟨scope, by rw [List.getElem?_append_left lt, found], rfl⟩
  | @on c op old new at_scope st =>
    simp only [Event.op?]
    split
    next eq =>
      subst eq
      cases at_scope.symm.trans found
      exact ⟨new, List.getElem?_set_self lt, st⟩
    next ne => exact ⟨scope, by rw [List.getElem?_set_ne ne, found], rfl⟩

/-- A scope is opened behind the others. -/
lemma Scopes.Step.of_opens {scopes scopes' : List (Scope π)} {b pool n}
    (st : Scopes.Step scopes (.opens b pool n) scopes') :
    b = scopes.length ∧ scopes' = scopes ++ [⟨pool, .bounded n, 0, 0, false⟩] := by
  cases st
  exact ⟨rfl, rfl⟩

section Threads

variable {threads : π → Nat} {home : Option π} {thread thread' : Thread π} {e : Event π}

/-- The parts on a stack are those of its frames. -/
lemma Thread.parts_cons {f : Frame π} {below active} (b : Nat) :
    Thread.parts b ⟨f :: below, active⟩ = f.parts b + Thread.parts b ⟨below, active⟩ := by
  simp [Thread.parts]

/-- The parts of a thread that makes a step. -/
lemma Thread.Step.parts [DecidableEq π] (st : Thread.Step threads home thread e thread') {b : Nat}
    (old : ∀ pool n, e ≠ .opens b pool n) :
    Parts.Step (thread.parts b) (e.op? b) (thread'.parts b) := by
  cases st with
  | @call ctx entry executor count into_iter tasks rest below active first later path =>
    have calls : Follows (.call entry executor count into_iter tasks rest) rest := .calls
    have new : ∀ call, (Frame.running (.converting path call later) first).parts b = 0 :=
      fun _ => rfl
    rw [Thread.parts_cons, Thread.parts_cons, Thread.parts_cons, new, zero_add]
    exact (calls.parts b).beside .idle
  | moves m =>
    rw [Thread.parts_cons, Thread.parts_cons]
    exact (m.parts old).beside .idle
  | @returns f e call unwound ctx rest rest' below active fin resumes =>
    have follows : Follows rest rest' := .resumes resumes
    rw [Thread.parts_cons, Thread.parts_cons, Thread.parts_cons,
      ← zero_add ((Frame.running ctx rest').parts b + _)]
    exact (fin.parts b).beside ((follows.parts b).beside .idle)
  | @start c pool stack active =>
    have below : Parts.Step (Thread.parts b ⟨stack, active⟩) none _ := .idle
    have job : Parts.Step 0 (some (.start pool)) {.receiving} := .start
    have started := (job.at_start (b := b) (c := c)).beside below
    rw [zero_add] at started
    rw [Thread.parts_cons]
    exact started
  | @exits f e below active exit =>
    have below : Parts.Step (Thread.parts b ⟨below, active⟩) none _ := .idle
    have ended := (exit.parts b).beside below
    rw [zero_add] at ended
    rw [Thread.parts_cons]
    exact ended

end Threads

/-- A scope is opened by a parallel call whose source has been converted. -/
lemma Thread.Step.of_opens [DecidableEq π] {threads : π → Nat} {home : Option π}
    {thread thread' : Thread π} {b pool n}
    (st : Thread.Step threads home thread (.opens b pool n) thread') :
    ∃ call tasks below,
      thread.stack = .running (.converting .parallel call tasks) .done :: below ∧
      thread'.stack = .spawning call tasks b n :: below ∧ call.executor.pool = pool ∧
      call.executor.worker_count threads call.count = n := by
  cases st with
  | moves m =>
    cases m with
    | opens => exact ⟨_, _, _, rfl, rfl, rfl, rfl⟩
  | returns fin => cases fin
  | exits exit => cases exit

/-- The original receiver is dropped by a body that has spawned all jobs. -/
lemma Thread.Step.of_drop_receiver [DecidableEq π] {threads : π → Nat} {home : Option π}
    {thread thread' : Thread π} {b}
    (st : Thread.Step threads home thread (.on b .drop_receiver) thread') :
    ∃ call tasks below, thread.stack = .spawning call tasks b 0 :: below := by
  cases st with
  | moves m =>
    cases m with
    | spawned => exact ⟨_, _, _, rfl⟩
  | returns fin => cases fin
  | exits exit => cases exit

/-- A send fails for a body that has a task to send. -/
lemma Thread.Step.of_send_error [DecidableEq π] {threads : π → Nat} {home : Option π}
    {thread thread' : Thread π} {b task}
    (st : Thread.Step threads home thread (.on b (.send_error task)) thread') :
    ∃ call k rest below, thread.stack = .sending call k rest b task :: below := by
  cases st with
  | moves m =>
    cases m with
    | send_error => exact ⟨_, _, _, _, rfl⟩
  | returns fin => cases fin
  | exits exit => cases exit

/-- A part of a scope is a frame of it. -/
lemma Frame.scope?_of_part? {f : Frame π} {b part} (h : f.part? = some (b, part)) :
    ∃ pool, f.scope? = some (pool, b) := by
  cases f with
  | running ctx code =>
    cases ctx with
    | pulling call k tasks scope =>
      obtain ⟨c, rfl, e⟩ := Option.map_eq_some_iff.mp h
      cases e
      exact ⟨_, rfl⟩
    | working =>
      cases h
      exact ⟨_, rfl⟩
    | _ => cases h
  | polling call k tasks scope =>
    obtain ⟨c, rfl, e⟩ := Option.map_eq_some_iff.mp h
    cases e
    exact ⟨_, rfl⟩
  | _ =>
    cases h
    exact ⟨_, rfl⟩

/-- Nothing has to do with a scope that is not open. -/
lemma Placed.parts_eq_zero [Fintype θ] {s : State θ π} (h : Placed s) {b : Nat}
    (beyond : s.scopes.length ≤ b) : s.parts b = 0 := by
  refine Finset.sum_eq_zero fun t _ => List.sum_eq_zero fun parts mem => ?_
  obtain ⟨f, hf, rfl⟩ := List.mem_map.mp mem
  rw [Frame.parts]
  split
  next c part e =>
    refine if_neg fun eq => ?_
    subst eq
    obtain ⟨pool, used⟩ := Frame.scope?_of_part? e
    obtain ⟨scope, found, -⟩ := h t f hf pool c used
    obtain ⟨lt, -⟩ := List.getElem?_eq_some_iff.mp found
    exact absurd lt (Nat.not_lt.mpr beyond)
  · rfl

section Runs

variable [DecidableEq π] [DecidableEq θ] [Fintype θ] {home : θ → Option π} {s s' : State θ π}
  {t : θ} {e : Event π} {b : Nat}

omit [DecidableEq π] in
/-- The parts of one thread and those of all others. -/
lemma State.parts_split (s : State θ π) (t : θ) (b : Nat) :
    s.parts b = (s.threads t).parts b + ∑ u ∈ Finset.univ.erase t, (s.threads u).parts b :=
  (Finset.add_sum_erase _ _ (Finset.mem_univ t)).symm

/-- A step leaves the parts on other threads alone. -/
lemma Acts.parts_others (st : Acts home s t e s') (b : Nat) :
    ∑ u ∈ Finset.univ.erase t, (s'.threads u).parts b =
      ∑ u ∈ Finset.univ.erase t, (s.threads u).parts b :=
  Finset.sum_congr rfl fun u hu => by rw [st.other (Finset.ne_of_mem_erase hu)]

/-- The parts of an open scope in a step. -/
lemma Acts.parts (st : Acts home s t e s') (old : b < s.scopes.length) :
    Parts.Step (s.parts b) (e.op? b) (s'.parts b) := by
  have unopened : ∀ pool n, e ≠ .opens b pool n := by
    rintro pool n rfl
    exact old.ne st.scopes.of_opens.1
  have local_step := st.self.parts unopened
  rw [s.parts_split t, s'.parts_split t, st.parts_others]
  exact local_step.beside .idle

/-- The scope that a step opens has a body and nothing else. -/
lemma Acts.parts_of_opens {pool n call tasks below} (st : Acts home s t (.opens b pool n) s')
    (placed : Placed s)
    (calling : (s.threads t).stack = .running (.converting .parallel call tasks) .done :: below) :
    call.executor.pool = pool ∧
      call.executor.worker_count (current_num_threads home) call.count = n ∧
      s'.parts b = {.spawning call.count tasks n} := by
  obtain ⟨call', tasks', below', calling', opened, pool_eq, n_eq⟩ := st.self.of_opens
  cases calling.symm.trans calling'
  refine ⟨pool_eq, n_eq, ?_⟩
  have before := placed.parts_eq_zero st.scopes.of_opens.1.ge
  have self : (s'.threads t).parts b = {.spawning call.count tasks n} + (s.threads t).parts b := by
    have body : (Frame.spawning call tasks b n).parts b = {.spawning call.count tasks n} :=
      if_pos rfl
    have conversion : (Frame.running (.converting .parallel call tasks) .done).parts b = 0 := rfl
    simp [Thread.parts, calling, opened, body, conversion]
  rw [s'.parts_split t, st.parts_others, self, add_assoc, ← s.parts_split t, before, add_zero]

end Runs

end RayonBatch.Nested
