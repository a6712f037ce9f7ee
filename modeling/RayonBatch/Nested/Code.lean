import RayonBatch.Model.Executor

/-!
# User code that makes calls

A task body, a `next` of a source, an `into_iter` or a whole thread is user code. Of such code only
the calls it makes matter here, so it is a sequence of calls that ends in a return or in unwinding,
and a source is the code of its successive `next`s together with the code of the tasks they return.
Both are finite trees: a call forest.
-/

namespace RayonBatch.Nested

universe u

mutual

/-- The calls some user code makes, one after the other. -/
inductive Code (π : Type u) where
  | done
  | unwinds
  /-- A call of an executor over a source, and the code after it. -/
  | call (entry : Entry) (executor : RayonBatchExecutor π) (count : Nat) (into_iter : Code π)
      (tasks : Tasks π) (rest : Code π)

/-- The items of a source. -/
inductive Tasks (π : Type u) where
  /-- `next` returns `None`. -/
  | exhausted (next : Code π)
  /-- `next` returns `Some(task)`. -/
  | item (next task : Code π) (rest : Tasks π)

end

variable {π : Type u}

namespace Code

/-- Whether the code has come to its end. -/
def ended : Code π → Bool
  | done | unwinds => true
  | call .. => false

/-- One piece of code after the other. -/
def append : Code π → Code π → Code π
  | done, code => code
  | unwinds, _ => unwinds
  | call entry executor count into_iter tasks rest, code =>
    call entry executor count into_iter tasks (rest.append code)

end Code

namespace Tasks

/-- The code of the next `next`. -/
def next : Tasks π → Code π
  | exhausted next | item next _ _ => next

/-- A source whose conversion is put off until the first `next`. -/
def prepend (into_iter : Code π) : Tasks π → Tasks π
  | exhausted next => exhausted (into_iter.append next)
  | item next task rest => item (into_iter.append next) task rest

/-- What a pull hands on once `next` has returned: an item beyond the declared count ends the batch
as the end of the source does. -/
def pulled (position count : Nat) : Tasks π → Option (Code π × Tasks π)
  | exhausted _ => none
  | item _ task rest => if position < count then some (task, rest) else none

/-- An item is handed on below the declared count only. -/
lemma pulled_eq_some {position count} {tasks rest : Tasks π} {task}
    (h : tasks.pulled position count = some (task, rest)) :
    position < count ∧ ∃ next, tasks = item next task rest := by
  cases tasks with
  | exhausted next => cases h
  | item next task' rest' =>
    simp only [pulled] at h
    split at h
    next lt =>
      cases h
      exact ⟨lt, next, rfl⟩
    · cases h

end Tasks

/-- Whether `into_iter` runs at once or inside the first `next`; the batch library may do either. -/
inductive Converts (into_iter : Code π) (tasks : Tasks π) : Code π → Tasks π → Prop where
  | eagerly : Converts into_iter tasks into_iter tasks
  | lazily : Converts into_iter tasks .done (tasks.prepend into_iter)

/-!
## Where calls may go

`Within R X` bounds the pools of the calls some code makes: code that belongs to a batch on `X` (to
no batch, for `none`) calls only pools that `R X` allows.
-/

mutual

/-- The calls of some code go where `R` allows. -/
def Code.Within (R : Option π → π → Prop) (X : Option π) : Code π → Prop
  | .done | .unwinds => True
  | .call _ executor _ into_iter tasks rest =>
    R X executor.pool ∧ into_iter.Within R (some executor.pool) ∧
      tasks.Within R (some executor.pool) ∧ rest.Within R X

/-- The calls of a source and of its tasks go where `R` allows. -/
def Tasks.Within (R : Option π → π → Prop) (X : Option π) : Tasks π → Prop
  | .exhausted next => next.Within R X
  | .item next task rest => next.Within R X ∧ task.Within R X ∧ rest.Within R X

end

section Within

variable {R : Option π → π → Prop} {X : Option π}

/-- Code that makes no calls stays within any bounds. -/
@[simp] lemma Code.within_done : (Code.done : Code π).Within R X := by
  simp [Code.Within]

/-- Code that unwinds makes no more calls. -/
@[simp] lemma Code.within_unwinds : (Code.unwinds : Code π).Within R X := by
  simp [Code.Within]

/-- A call stays within bounds with its pool, its source and the code after it. -/
@[simp] lemma Code.within_call {entry executor count into_iter tasks rest} :
    (Code.call entry executor count into_iter tasks rest : Code π).Within R X ↔
      R X executor.pool ∧ into_iter.Within R (some executor.pool) ∧
        tasks.Within R (some executor.pool) ∧ rest.Within R X := by
  simp [Code.Within]

/-- A source without items stays within bounds with its last `next`. -/
@[simp] lemma Tasks.within_exhausted {next} :
    (Tasks.exhausted next : Tasks π).Within R X ↔ next.Within R X := by
  simp [Tasks.Within]

/-- A source stays within bounds with its next item and the ones behind it. -/
@[simp] lemma Tasks.within_item {next task rest} :
    (Tasks.item next task rest : Tasks π).Within R X ↔
      next.Within R X ∧ task.Within R X ∧ rest.Within R X := by
  simp [Tasks.Within]

/-- Code stays within bounds when other such code follows. -/
lemma Code.Within.append : ∀ {first second : Code π}, first.Within R X → second.Within R X →
    (first.append second).Within R X
  | .done, _, _, h => h
  | .unwinds, _, _, _ => Code.within_unwinds
  | .call .., _, h, h' => by
    simp only [Code.within_call, Code.append] at h ⊢
    obtain ⟨allowed, into_iter, tasks, rest⟩ := h
    exact ⟨allowed, into_iter, tasks, rest.append h'⟩

/-- The next `next` of a source stays within its bounds. -/
lemma Tasks.Within.next {tasks : Tasks π} (h : tasks.Within R X) : tasks.next.Within R X := by
  cases tasks with
  | exhausted next => exact Tasks.within_exhausted.mp h
  | item next task rest => exact (Tasks.within_item.mp h).1

/-- A source stays within bounds when its conversion is put off. -/
lemma Tasks.Within.prepend {into_iter} {tasks : Tasks π} (first : into_iter.Within R X)
    (h : tasks.Within R X) : (tasks.prepend into_iter).Within R X := by
  cases tasks with
  | exhausted next => exact Tasks.within_exhausted.mpr (first.append (Tasks.within_exhausted.mp h))
  | item next task rest =>
    obtain ⟨next, task, rest⟩ := Tasks.within_item.mp h
    exact Tasks.within_item.mpr ⟨first.append next, task, rest⟩

/-- However a source is converted, it stays within bounds. -/
lemma Converts.within {into_iter first} {tasks later : Tasks π}
    (h : Converts into_iter tasks first later) (code : into_iter.Within R X)
    (source : tasks.Within R X) : first.Within R X ∧ later.Within R X := by
  cases h with
  | eagerly => exact ⟨code, source⟩
  | lazily => exact ⟨Code.within_done, source.prepend code⟩

/-- An item that is handed on stays within the bounds of its source. -/
lemma Tasks.Within.pulled {tasks rest : Tasks π} {task position count} (h : tasks.Within R X)
    (e : tasks.pulled position count = some (task, rest)) : task.Within R X ∧ rest.Within R X := by
  obtain ⟨-, next, rfl⟩ := Tasks.pulled_eq_some e
  exact (Tasks.within_item.mp h).2

end Within

end RayonBatch.Nested
