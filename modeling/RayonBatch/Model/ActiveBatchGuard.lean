import RayonBatch.Basis.Position

/-!
# The thread-local registry of active pools

Model of `src/internal/active_batch_guard.rs`. `ACTIVE_POOLS` is a list of pool identities owned by
one thread, so `enter` and `drop` are functions on that list; the identity type `π` stands for the
address `Arc::as_ptr(pool)`. A guard that is kept in an `Option`, as both callers keep it, is
dropped by `dropGuard`.
-/

namespace RayonBatch

variable {π : Type*} [DecidableEq π]

/-- Marks a pool as active on the current thread (source `ActiveBatchGuard`). -/
structure ActiveBatchGuard (π : Type*) where
  /-- Identity of the registered pool. -/
  pool_id : π
deriving DecidableEq

namespace ActiveBatchGuard

/-- Registers a pool on the thread, or refuses a reentry (source `ActiveBatchGuard::enter`). -/
def enter (pool_id : π) (active : List π) : Option (ActiveBatchGuard π) × List π :=
  if pool_id ∈ active then (none, active) else (some ⟨pool_id⟩, active ++ [pool_id])

/-- Removes the last registration of the guard's pool (source `ActiveBatchGuard::drop`). -/
def drop (guard : ActiveBatchGuard π) (active : List π) : List π :=
  active.removeLast guard.pool_id

/-- Entering is refused for a pool that is registered. -/
lemma enter_fst_eq_none {pool_id : π} {active} :
    (enter pool_id active).1 = none ↔ pool_id ∈ active := by
  unfold enter
  split <;> simp_all

/-- A refused entry leaves the registry as it is. -/
lemma enter_snd_of_none {pool_id : π} {active} (h : (enter pool_id active).1 = none) :
    (enter pool_id active).2 = active := by
  rw [enter, if_pos (enter_fst_eq_none.mp h)]

/-- Entering succeeds for a pool that is not registered, and registers it. -/
lemma enter_eq_some {pool_id : π} {active guard active'}
    (h : enter pool_id active = (some guard, active')) :
    pool_id ∉ active ∧ guard = ⟨pool_id⟩ ∧ active' = active ++ [pool_id] := by
  unfold enter at h
  split at h
  · simp at h
  · simp_all

/-- A refused entry has found the pool registered. -/
lemma enter_eq_none {pool_id : π} {active active'}
    (h : enter pool_id active = (none, active')) : pool_id ∈ active ∧ active' = active := by
  unfold enter at h
  split at h <;> simp_all

end ActiveBatchGuard

/-- Dropping the guard a call kept, if it kept one. -/
def dropGuard (guard : Option (ActiveBatchGuard π)) (active : List π) : List π :=
  match guard with
  | some guard => guard.drop active
  | none => active

/-- The registrations a call owns. -/
def guarded (guard : Option (ActiveBatchGuard π)) : List π :=
  (guard.map ActiveBatchGuard.pool_id).toList

omit [DecidableEq π] in
/-- Without a guard nothing is registered. -/
@[simp] lemma guarded_none : guarded (none : Option (ActiveBatchGuard π)) = [] := rfl
omit [DecidableEq π] in
/-- A guard stands for the registration of its pool. -/
@[simp] lemma guarded_some (guard : ActiveBatchGuard π) :
    guarded (some guard) = [guard.pool_id] := rfl

/-- Dropping a guard takes back its registration. -/
@[simp] lemma dropGuard_append_guarded (guard : Option (ActiveBatchGuard π)) (active) :
    dropGuard guard (active ++ guarded guard) = active := by
  cases guard with
  | none => simp [dropGuard]
  | some guard => simp [dropGuard, ActiveBatchGuard.drop]

/-- Dropping a guard registers nothing. -/
lemma dropGuard_sublist (guard : Option (ActiveBatchGuard π)) (active) :
    (dropGuard guard active).Sublist active := by
  cases guard with
  | none => exact List.Sublist.refl active
  | some guard => exact List.removeLast_sublist active _

/-- Entering registers what its guard stands for. -/
lemma enter_snd (pool_id : π) (active) :
    (ActiveBatchGuard.enter pool_id active).2
      = active ++ guarded (ActiveBatchGuard.enter pool_id active).1 := by
  unfold ActiveBatchGuard.enter
  split <;> simp

/-- A guard that is dropped right away leaves the registry as it was. -/
lemma dropGuard_enter (pool_id : π) (active) :
    dropGuard (ActiveBatchGuard.enter pool_id active).1 (ActiveBatchGuard.enter pool_id active).2
      = active := by
  rw [enter_snd, dropGuard_append_guarded]

/-- After entering, the pool is registered, by whomever. -/
lemma enter_registers (pool_id : π) (active) :
    pool_id ∈ (ActiveBatchGuard.enter pool_id active).2 := by
  unfold ActiveBatchGuard.enter
  split
  next known => exact known
  · simp

/-- Entering registers no pool twice. -/
lemma enter_snd_nodup (pool_id : π) {active : List π} (h : active.Nodup) :
    (ActiveBatchGuard.enter pool_id active).2.Nodup := by
  unfold ActiveBatchGuard.enter
  split
  · exact h
  next fresh => simpa [List.nodup_append] using ⟨h, fun a ha e => fresh (e ▸ ha)⟩

end RayonBatch
