import Mathlib.Logic.Function.Basic
import RayonBatch.Basis.Runs
import RayonBatch.Model.ActiveBatchGuard

/-!
# Histories of executors, calls and guards

The registry knows a pool by its address only. This file follows any number of executors through
their lives: handles are built, cloned and dropped, calls on any thread borrow a handle, a call
enters the registry of its thread and its guards are dropped in any order before it ends. A pool is
freed with its last handle, and a later pool may then take its address. `Sound` is the invariant
that makes the address good enough: a guard belongs to a call in progress, whose borrowed handle
keeps the pool alive.
-/

namespace RayonBatch
open Relation

variable {θ A : Type*}

/-- A call in progress, with the executor handle it borrows. -/
structure BorrowingCall where
  id : Nat
  handle : Nat

/-- A live guard, with the pool and the call it was created for. -/
structure LiveGuard (A : Type*) where
  pool : Nat
  call : Nat
  guard : ActiveBatchGuard A

/-- All executors, calls and guards of a program. -/
structure History (θ A : Type*) where
  /-- The pool of every live executor handle. -/
  handle : Nat → Option Nat
  /-- Where each pool was allocated. -/
  addr : Nat → A
  pools : Nat
  /-- The calls in progress on a thread, the innermost first. -/
  calls : θ → List BorrowingCall
  /-- The live guards of a thread, in order of entry. -/
  guards : θ → List (LiveGuard A)
  /-- `ACTIVE_POOLS` of a thread. -/
  active : θ → List A

/-- One action of a history; those of a call are made by a thread. -/
inductive Act (θ A : Type*) where
  | build (handle : Nat) (addr : A)
  | clone (handle handle' : Nat)
  | drop (handle : Nat)
  | call (t : θ) (call : BorrowingCall)
  | enter (t : θ)
  | dropGuard (t : θ)
  | ret (t : θ)

/-- The thread that makes an action, if it touches a registry or a call. -/
def Act.thread? : Act θ A → Option θ
  | build .. | clone .. | drop _ => none
  | call t _ | enter t | dropGuard t | ret t => some t

namespace History

/-- A pool is alive while it has a handle. -/
def Alive (s : History θ A) (pool : Nat) : Prop :=
  ∃ h, s.handle h = some pool

/-- The guard that entering the registry for a pool leaves. -/
def entered (pool call : Nat) (guard : Option (ActiveBatchGuard A)) : List (LiveGuard A) :=
  (guard.map fun guard => ⟨pool, call, guard⟩).toList

/-- What keeps the registries right. -/
structure Sound (s : History θ A) : Prop where
  bounded : ∀ p, s.Alive p → p < s.pools
  apart : ∀ p q, s.Alive p → s.Alive q → s.addr p = s.addr q → p = q
  borrowed : ∀ t, ∀ c ∈ s.calls t, (s.handle c.handle).isSome
  owned : ∀ t, ∀ g ∈ s.guards t,
    ∃ c ∈ s.calls t, c.id = g.call ∧ s.handle c.handle = some g.pool
  address : ∀ t, ∀ g ∈ s.guards t, g.guard.pool_id = s.addr g.pool
  active : ∀ t, s.active t = (s.guards t).map (·.guard.pool_id)
  nodup : ∀ t, (s.active t).Nodup

section Sound

variable {s : History θ A}

/-- The pool of a guard is alive. -/
lemma Sound.guard_alive (h : Sound s) {t g} (mem : g ∈ s.guards t) : s.Alive g.pool := by
  obtain ⟨c, -, -, e⟩ := h.owned t g mem
  exact ⟨_, e⟩

/-- What a pool change keeps: the handles that are borrowed, and the addresses of living pools. -/
lemma Sound.rehandle (h : Sound s) {handle : Nat → Option Nat} {addr : Nat → A} {pools : Nat}
    (bounded : ∀ p, (∃ k, handle k = some p) → p < pools)
    (apart : ∀ p q, (∃ k, handle k = some p) → (∃ k, handle k = some q) → addr p = addr q → p = q)
    (kept : ∀ t, ∀ c ∈ s.calls t, handle c.handle = s.handle c.handle)
    (same : ∀ p, s.Alive p → addr p = s.addr p) :
    Sound { s with handle := handle, addr := addr, pools := pools } where
  bounded := bounded
  apart := apart
  borrowed := fun t c mem => by
    simp only [kept t c mem]
    exact h.borrowed t c mem
  owned := fun t g mem => by
    obtain ⟨c, hc, id, e⟩ := h.owned t g mem
    exact ⟨c, hc, id, by simp only [kept t c hc, e]⟩
  address := fun t g mem => by
    simp only [same _ (h.guard_alive mem)]
    exact h.address t g mem
  active := h.active
  nodup := h.nodup

/-- Building a pool at an address that no living pool has keeps the history sound. -/
lemma Sound.build (h : Sound s) {k a} (free : s.handle k = none)
    (fresh : ∀ p, s.Alive p → s.addr p ≠ a) :
    Sound { s with
      handle := Function.update s.handle k (some s.pools)
      addr := Function.update s.addr s.pools a
      pools := s.pools + 1 } := by
  have old : ∀ p, (∃ k', Function.update s.handle k (some s.pools) k' = some p) →
      p = s.pools ∨ s.Alive p := by
    rintro p ⟨k', e⟩
    by_cases hk : k' = k
    · exact .inl (by simpa [hk] using e.symm)
    · exact .inr ⟨k', by simpa [hk] using e⟩
  have ne : ∀ p, s.Alive p → p ≠ s.pools := fun p alive => (h.bounded p alive).ne
  refine h.rehandle (fun p alive => ?_) (fun p q hp hq e => ?_) (fun t c mem => ?_)
    fun p alive => ?_
  · obtain rfl | alive := old p alive
    · exact Nat.lt_succ_self _
    · exact (h.bounded p alive).trans (Nat.lt_succ_self _)
  · obtain rfl | hp := old p hp
    · obtain rfl | hq := old q hq
      · rfl
      · simp only [Function.update_self, Function.update_of_ne (ne q hq)] at e
        exact absurd e.symm (fresh q hq)
    · obtain rfl | hq := old q hq
      · simp only [Function.update_self, Function.update_of_ne (ne p hp)] at e
        exact absurd e (fresh p hp)
      · rw [Function.update_of_ne (ne p hp), Function.update_of_ne (ne q hq)] at e
        exact h.apart p q hp hq e
  · have borrowed := h.borrowed t c mem
    have other : c.handle ≠ k := fun e => by simp [e, free] at borrowed
    simp [other]
  · simp [ne p alive]

/-- Cloning a handle keeps the history sound. -/
lemma Sound.clone (h : Sound s) {k k' p} (e : s.handle k = some p) (free : s.handle k' = none) :
    Sound { s with handle := Function.update s.handle k' (some p) } := by
  have old : ∀ q, (∃ j, Function.update s.handle k' (some p) j = some q) → s.Alive q := by
    rintro q ⟨j, ej⟩
    by_cases hj : j = k'
    · obtain rfl : p = q := by simpa [hj] using ej
      exact ⟨k, e⟩
    · exact ⟨j, by simpa [hj] using ej⟩
  refine h.rehandle (fun q alive => h.bounded q (old q alive))
    (fun q r hq hr => h.apart q r (old q hq) (old r hr)) (fun t c mem => ?_) fun _ _ => rfl
  have borrowed := h.borrowed t c mem
  have other : c.handle ≠ k' := fun e => by simp [e, free] at borrowed
  simp [other]

/-- Dropping a handle that no call borrows keeps the history sound. -/
lemma Sound.drop (h : Sound s) {k} (unborrowed : ∀ t, ∀ c ∈ s.calls t, c.handle ≠ k) :
    Sound { s with handle := Function.update s.handle k none } := by
  have old : ∀ q, (∃ j, Function.update s.handle k none j = some q) → s.Alive q := by
    rintro q ⟨j, ej⟩
    by_cases hj : j = k
    · simp [hj] at ej
    · exact ⟨j, by simpa [hj] using ej⟩
  refine h.rehandle (fun q alive => h.bounded q (old q alive))
    (fun q r hq hr => h.apart q r (old q hq) (old r hr)) (fun t c mem => ?_) fun _ _ => rfl
  simp [unborrowed t c mem]

variable [DecidableEq θ]

/-- Making a call through a handle keeps the history sound. -/
lemma Sound.call (h : Sound s) {t c p} (e : s.handle c.handle = some p) :
    Sound { s with calls := Function.update s.calls t (c :: s.calls t) } := by
  have more : ∀ u, ∀ c' ∈ s.calls u, c' ∈ Function.update s.calls t (c :: s.calls t) u := by
    intro u c' mem
    by_cases hu : u = t
    · subst hu
      simp [mem]
    · simpa [hu] using mem
  exact { h with
    borrowed := fun u c' mem => by
      by_cases hu : u = t
      · subst hu
        obtain rfl | mem : c' = c ∨ c' ∈ s.calls u := by simpa using mem
        · simp [e]
        · exact h.borrowed u c' mem
      · exact h.borrowed u c' (by simpa [hu] using mem)
    owned := fun u g mem => by
      obtain ⟨c', hc, id, e'⟩ := h.owned u g mem
      exact ⟨c', more u c' hc, id, e'⟩ }

/-- The return of a call whose guards are dropped keeps the history sound. -/
lemma Sound.ret (h : Sound s) {t c cs} (top : s.calls t = c :: cs)
    (gone : ∀ g ∈ s.guards t, g.call ≠ c.id) :
    Sound { s with calls := Function.update s.calls t cs } := by
  exact { h with
    borrowed := fun u c' mem => by
      by_cases hu : u = t
      · subst hu
        exact h.borrowed u c' (by rw [top]; exact List.mem_cons_of_mem _ (by simpa using mem))
      · exact h.borrowed u c' (by simpa [hu] using mem)
    owned := fun u g mem => by
      obtain ⟨c', hc, id, e⟩ := h.owned u g mem
      refine ⟨c', ?_, id, e⟩
      by_cases hu : u = t
      · subst hu
        rw [top] at hc
        obtain rfl | hc := List.mem_cons.mp hc
        · exact absurd id.symm (gone g mem)
        · simpa using hc
      · simpa [hu] using hc }

end Sound

variable [DecidableEq θ] [DecidableEq A]

/-- The start of a program. -/
def init (addr : Nat → A) : History θ A where
  handle := fun _ => none
  addr := addr
  pools := 0
  calls := fun _ => []
  guards := fun _ => []
  active := fun _ => []

/-- One step of a history. -/
inductive Step : History θ A → Act θ A → History θ A → Prop where
  /-- A new pool takes any address that no living pool has. -/
  | build {s h a} :
    s.handle h = none →
    (∀ p, s.Alive p → s.addr p ≠ a) →
    Step s (.build h a) { s with
      handle := Function.update s.handle h (some s.pools)
      addr := Function.update s.addr s.pools a
      pools := s.pools + 1 }
  | clone {s h h' p} :
    s.handle h = some p →
    s.handle h' = none →
    Step s (.clone h h') { s with handle := Function.update s.handle h' (some p) }
  /-- A handle is dropped only when no call borrows it. -/
  | drop {s h} :
    (∀ t, ∀ c ∈ s.calls t, c.handle ≠ h) →
    Step s (.drop h) { s with handle := Function.update s.handle h none }
  | call {s t c p} :
    s.handle c.handle = some p →
    (∀ c' ∈ s.calls t, c'.id ≠ c.id) →
    Step s (.call t c) { s with calls := Function.update s.calls t (c :: s.calls t) }
  /-- The innermost call enters the registry for its pool (source `ActiveBatchGuard::enter`). -/
  | enter {s t c cs p guard active} :
    s.calls t = c :: cs →
    s.handle c.handle = some p →
    ActiveBatchGuard.enter (s.addr p) (s.active t) = (guard, active) →
    Step s (.enter t) { s with
      guards := Function.update s.guards t (s.guards t ++ entered p c.id guard)
      active := Function.update s.active t active }
  /-- Any guard of the thread is dropped (source `ActiveBatchGuard::drop`). -/
  | dropGuard {s t l g r} :
    s.guards t = l ++ g :: r →
    Step s (.dropGuard t) { s with
      guards := Function.update s.guards t (l ++ r)
      active := Function.update s.active t (g.guard.drop (s.active t)) }
  /-- A call ends when its guards are gone. -/
  | ret {s t c cs} :
    s.calls t = c :: cs →
    (∀ g ∈ s.guards t, g.call ≠ c.id) →
    Step s (.ret t) { s with calls := Function.update s.calls t cs }

/-- A step by any action. -/
def Next (s s' : History θ A) : Prop :=
  ∃ act, Step s act s'

variable {s s' : History θ A} {act : Act θ A}

/-- An action leaves the registry and the guards of other threads alone. -/
lemma Step.other (st : Step s act s') {t : θ} (ne : act.thread? ≠ some t) :
    s'.active t = s.active t ∧ s'.guards t = s.guards t := by
  cases st with
  | build | clone | drop | call | ret => exact ⟨rfl, rfl⟩
  | @enter u | @dropGuard u =>
    have other : t ≠ u := fun e => ne (by rw [e]; rfl)
    simp [other]

/-- Entering keeps the history sound. -/
lemma Sound.enter (h : Sound s) {t c cs p guard active} (top : s.calls t = c :: cs)
    (e : s.handle c.handle = some p)
    (entry : ActiveBatchGuard.enter (s.addr p) (s.active t) = (guard, active)) :
    Sound { s with
      guards := Function.update s.guards t (s.guards t ++ entered p c.id guard)
      active := Function.update s.active t active } := by
  have nodup := enter_snd_nodup (s.addr p) (h.nodup t)
  rw [entry] at nodup
  cases guard with
  | none =>
    obtain ⟨-, rfl⟩ := ActiveBatchGuard.enter_eq_none entry
    simpa [entered] using h
  | some guard =>
    obtain ⟨-, rfl, rfl⟩ := ActiveBatchGuard.enter_eq_some entry
    have cases' : ∀ u, ∀ g ∈ Function.update s.guards t (s.guards t ++ [⟨p, c.id, ⟨s.addr p⟩⟩]) u,
        g ∈ s.guards u ∨ u = t ∧ g = ⟨p, c.id, ⟨s.addr p⟩⟩ := by
      intro u g mem
      by_cases hu : u = t
      · subst hu
        simpa using mem
      · exact .inl (by simpa [hu] using mem)
    exact { h with
      owned := fun u g mem => by
        obtain mem | ⟨rfl, rfl⟩ := cases' u g mem
        · exact h.owned u g mem
        · exact ⟨c, by simp [top], rfl, e⟩
      address := fun u g mem => by
        obtain mem | ⟨rfl, rfl⟩ := cases' u g mem
        · exact h.address u g mem
        · rfl
      active := fun u => by
        by_cases hu : u = t
        · subst hu
          simp [entered, h.active u]
        · simpa [hu] using h.active u
      nodup := fun u => by
        by_cases hu : u = t
        · subst hu
          simpa using nodup
        · simpa [hu] using h.nodup u }

/-- A guard is dropped, wherever it stands among the others. -/
lemma Sound.dropGuard (h : Sound s) {t l g r} (split : s.guards t = l ++ g :: r) :
    Sound { s with
      guards := Function.update s.guards t (l ++ r)
      active := Function.update s.active t (g.guard.drop (s.active t)) } := by
  have active := h.active t
  have nodup := h.nodup t
  rw [active, split, List.map_append, List.map_cons] at nodup
  have last : g.guard.pool_id ∉ r.map (·.guard.pool_id) :=
    (List.nodup_cons.mp nodup.of_append_right).1
  have left : g.guard.drop (s.active t) = (l ++ r).map (·.guard.pool_id) := by
    rw [active, split, List.map_append, List.map_cons, ActiveBatchGuard.drop,
      List.removeLast_append_cons last, List.map_append]
  have less : ∀ u, ∀ g' ∈ Function.update s.guards t (l ++ r) u, g' ∈ s.guards u := by
    intro u g' mem
    by_cases hu : u = t
    · subst hu
      rw [split]
      have mem : g' ∈ l ∨ g' ∈ r := by simpa using mem
      simp only [List.mem_append, List.mem_cons]
      exact mem.imp id Or.inr
    · simpa [hu] using mem
  exact { h with
    owned := fun u g' mem => h.owned u g' (less u g' mem)
    address := fun u g' mem => h.address u g' (less u g' mem)
    active := fun u => by
      by_cases hu : u = t
      · subst hu
        simpa using left
      · simpa [hu] using h.active u
    nodup := fun u => by
      by_cases hu : u = t
      · subst hu
        simp only [Function.update_self, left, List.map_append]
        exact nodup.sublist (List.Sublist.append_left (List.sublist_cons_self ..) _)
      · simpa [hu] using h.nodup u }

/-- Every step keeps the history sound. -/
lemma Sound.step (h : Sound s) (st : Step s act s') : Sound s' := by
  cases st with
  | build free fresh => exact h.build free fresh
  | clone e free => exact h.clone e free
  | drop unborrowed => exact h.drop unborrowed
  | call e => exact h.call e
  | enter top e entry => exact h.enter top e entry
  | dropGuard split => exact h.dropGuard split
  | ret top gone => exact h.ret top gone

/-- The registries are right along every history. -/
theorem Sound.run {addr : Nat → A} (rs : ReflTransGen Next (init addr) s) : Sound s :=
  Runs.invariant (fun ⟨_, st⟩ h => h.step st) rs
    (by constructor <;> simp [init, Alive])

omit [DecidableEq θ] in
/-- Entering for a living pool is refused exactly when the thread has a guard for that very pool. -/
lemma Sound.enter_eq_none (h : Sound s) {t p} (alive : s.Alive p) :
    (ActiveBatchGuard.enter (s.addr p) (s.active t)).1 = none ↔ ∃ g ∈ s.guards t, g.pool = p := by
  rw [ActiveBatchGuard.enter_fst_eq_none, h.active t, List.mem_map]
  constructor
  · rintro ⟨g, mem, e⟩
    rw [h.address t g mem] at e
    exact ⟨g, mem, h.apart _ _ (h.guard_alive mem) alive e⟩
  · rintro ⟨g, mem, rfl⟩
    exact ⟨g, mem, h.address t g mem⟩

end History

open History

/-- In every history, with any reuse of addresses, the registry of a thread lists the addresses of
its live guards in order of entry, once each, and all of living pools. So an entry for a living pool
is refused exactly when the thread has a guard for that very pool, a refusal changes nothing, and no
thread changes the registry of another. -/
theorem registry_identifies_pools [DecidableEq θ] [DecidableEq A] {addr : Nat → A}
    {s : History θ A} (rs : ReflTransGen Next (init addr) s) :
    (∀ t, (s.active t).Nodup ∧ s.active t = (s.guards t).map (s.addr ·.pool) ∧
      ∀ a ∈ s.active t, ∃ p, s.Alive p ∧ s.addr p = a) ∧
    (∀ t p, s.Alive p →
      ((ActiveBatchGuard.enter (s.addr p) (s.active t)).1 = none ↔
        ∃ g ∈ s.guards t, g.pool = p) ∧
      ((ActiveBatchGuard.enter (s.addr p) (s.active t)).1 = none →
        (ActiveBatchGuard.enter (s.addr p) (s.active t)).2 = s.active t)) ∧
    ∀ act s', Step s act s' → ∀ t, act.thread? ≠ some t →
      s'.active t = s.active t ∧ s'.guards t = s.guards t := by
  have h := Sound.run rs
  have listed : ∀ t, s.active t = (s.guards t).map (s.addr ·.pool) := by
    intro t
    rw [h.active t]
    exact List.map_congr_left (h.address t)
  refine ⟨fun t => ⟨h.nodup t, listed t, fun a mem => ?_⟩, fun t p alive => ?_,
    fun act s' st t ne => st.other ne⟩
  · rw [listed t] at mem
    obtain ⟨g, hg, rfl⟩ := List.mem_map.mp mem
    exact ⟨g.pool, h.guard_alive hg, rfl⟩
  · exact ⟨h.enter_eq_none alive, ActiveBatchGuard.enter_snd_of_none⟩

/-- A pool at the address of a dead one: entering for it succeeds, and entering again is refused. -/
theorem registry_identifies_pools_reused :
    ∃ s : History Unit Nat, ReflTransGen Next (init fun _ => 0) s ∧
      ¬ s.Alive 0 ∧ s.Alive 1 ∧ s.addr 0 = s.addr 1 ∧
      ((ActiveBatchGuard.enter (s.addr 1) (s.active ())).1 = none ↔
        ∃ g ∈ s.guards (), g.pool = 1) ∧ s.active () = [7] := by
  have rs : ReflTransGen Next (init fun _ => 0 : History Unit Nat) _ :=
    .head ⟨.build 0 7, .build rfl (by simp [init, Alive])⟩ <|
    .head ⟨.drop 0, .drop (by simp [init])⟩ <|
    .head ⟨.build 0 7, .build (by simp) (by simp [init, Alive, Function.update])⟩ <|
    .head ⟨.call () ⟨0, 0⟩, .call rfl (by simp [init])⟩ <|
    .single ⟨.enter (), .enter rfl rfl rfl⟩
  refine ⟨_, rs, ?_, ?_, rfl, ((registry_identifies_pools rs).2.1 () 1 ⟨0, rfl⟩).1, rfl⟩
  · rintro ⟨h, e⟩
    by_cases hh : h = 0
    · subst hh
      cases e
    · simp [init, hh] at e
  · exact ⟨0, rfl⟩

end RayonBatch
