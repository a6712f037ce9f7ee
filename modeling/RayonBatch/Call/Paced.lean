import RayonBatch.Batch.Realised
import RayonBatch.Call.Late

/-!
# A schedule that stops as late as possible

`Paced` is a server that holds on to failing tasks: it keeps `W - 1` of them in its hands, works
with the other hand, and lets `W` tasks wait. So it finds fewer than the limit recorded as long as
there can be fewer (`Paced.next`), and it ends at each point that `EndsAt` allows
(`EndsAt.served`). With that the results of a parallel call are known exactly
(`stop_policy_exact`).
-/

namespace RayonBatch
open Relation Traces

namespace Server

variable {σ α : Type*} {src : Source σ α} {ending : ParallelBatchTask α → Ending} {W : Nat}
  {v : Server σ α}

/-- A task in a hand is recorded and returns. -/
lemma settle (src : Source σ α) (W : Nat) {t rest} (goes : ∀ t, ending t = .returns)
    (running : v.running = t ::ₘ rest) :
    ∃ es, Shows (Step src ending W) v es { v with
      running := rest
      log := v.log ++ [t]
      done := v.done ++ [t] } := by
  have records : Step src ending W v (some (.records t)) _ := .records running (by simp [goes t])
  have returns : Step src ending W _ (some (.returns t)) _ := .returns (v := { v with
    running := rest
    finishing := t ::ₘ v.finishing
    log := v.log ++ [t] }) rfl (goes t)
  exact ⟨_, (Shows.refl.tail records).tail returns⟩

/-- The tasks in hands get done. -/
lemma drain_running (src : Source σ α) (W : Nat) (goes : ∀ t, ending t = .returns)
    (v : Server σ α) :
    ∃ es log done, Shows (Step src ending W) v es { v with running := 0, log, done } ∧
      (log : Multiset (ParallelBatchTask α)) = v.log + v.running := by
  obtain ⟨source, admitted, waiting, running, finishing, log, done, closed, ended⟩ := v
  induction running using Multiset.induction generalizing log done with
  | empty => exact ⟨[], log, done, .refl, by simp⟩
  | cons t rest ih =>
    obtain ⟨es, first⟩ := settle src W (v := ⟨source, admitted, waiting, t ::ₘ rest, finishing, log,
      done, closed, ended⟩) goes rfl
    obtain ⟨es', log', done', more, all⟩ := ih (log ++ [t]) (done ++ [t])
    refine ⟨es ++ es', log', done', first.trans more, ?_⟩
    rw [all, ← Multiset.coe_add, Multiset.coe_singleton, ← Multiset.singleton_add, add_assoc]

/-- All tasks get done. -/
lemma drain (src : Source σ α) (pos : 0 < W) (goes : ∀ t, ending t = .returns)
    (idle : v.finishing = 0) :
    ∃ es log done,
      Shows (Step src ending W) v es { v with waiting := [], running := 0, log, done } ∧
      (log : Multiset (ParallelBatchTask α)) = v.log + v.running + v.waiting := by
  obtain ⟨es, log, done, first, all⟩ := drain_running src W goes v
  obtain ⟨es', log', done', more, all'⟩ : ∃ es' log' done', Shows (Step src ending W)
      { v with running := 0, log, done } es'
      { v with waiting := [], running := 0, log := log', done := done' } ∧
      (log' : Multiset (ParallelBatchTask α)) = log + v.waiting := by
    clear first all
    obtain ⟨source, admitted, waiting, running, finishing, _, _, closed, ended⟩ := v
    cases idle
    induction waiting generalizing log done with
    | nil => exact ⟨[], log, done, .refl, by simp⟩
    | cons t waiting ih =>
      have begins : Step src ending W
          ⟨source, admitted, t :: waiting, 0, 0, log, done, closed, ended⟩ (some (.begins t))
          ⟨source, admitted, waiting, t ::ₘ 0, 0, log, done, closed, ended⟩ := .begins rfl pos
      have running : (⟨source, admitted, waiting, t ::ₘ 0, 0, log, done, closed, ended⟩ :
          Server σ α).running = t ::ₘ 0 := rfl
      obtain ⟨es, settles⟩ := settle src W goes running
      obtain ⟨es', log', done', more, all⟩ := ih (log ++ [t]) (done ++ [t])
      refine ⟨_, log', done', (Shows.head begins settles).trans more, ?_⟩
      rw [all, ← Multiset.coe_add, Multiset.coe_singleton, ← Multiset.cons_coe,
        ← Multiset.singleton_add, add_assoc]
  exact ⟨es ++ es', log', done', first.trans more, by rw [all', all]⟩

/-- The source goes on inside a pull. -/
lemma goes_on {s s'} (op : v.closed = false) (room : v.waiting.length ≤ W)
    (rs : ReflTransGen (fun s s' => src v.log s (.quiet s')) s s') :
    Shows (Step src ending W) { v with source := s } [] { v with source := s' } := by
  induction rs with
  | refl => exact .refl
  | tail _ st ih => exact ih.silent (.quiet op room st)

/-- The source ends. -/
lemma close {s s'} (op : v.closed = false) (room : v.waiting.length ≤ W)
    (rs : ReflTransGen (fun s s' => src v.log s (.quiet s')) v.source s)
    (pull : src v.log s (.none s')) :
    Shows (Step src ending W) v [.closes] { v with source := s', closed := true } := by
  have quiet : Shows (Step src ending W) v [] { v with source := s } := goes_on op room rs
  have closes : Step src ending W { v with source := s } (some .closes) _ := .closes op room pull
  exact quiet.tail closes

/-- A hand is freed: its task fails and another hand is there to hold it, or it gets done. -/
lemma hold (src : Source σ α) (goes : ∀ t, ending t = .returns)
    {failing : ParallelBatchTask α → Bool} {H : Multiset (ParallelBatchTask α)}
    {hand : List (ParallelBatchTask α)} (running : v.running = H + hand) (one : hand.length ≤ 1)
    (le : H.card ≤ W - 1) (first : H.card < W - 1 → v.log.countP failing = 0) :
    ∃ es log done H', Shows (Step src ending W) v es { v with running := H', log, done } ∧
      H'.card ≤ W - 1 ∧ (H'.card < W - 1 → log.countP failing = 0) ∧
      log.countP failing + H'.card = v.log.countP failing + H.card + hand.countP failing ∧
      (log : Multiset (ParallelBatchTask α)) + H' = v.log + v.running := by
  cases hand with
  | nil =>
    obtain rfl : v.running = H := by simpa using running
    exact ⟨[], v.log, v.done, v.running, .refl, le, first, rfl, rfl⟩
  | cons t hand =>
    obtain rfl : hand = [] := by simpa using one
    have running : v.running = t ::ₘ H := by
      rw [running, Multiset.coe_singleton, add_comm, Multiset.singleton_add]
    by_cases keep : failing t = true ∧ H.card < W - 1
    · obtain ⟨fails, room⟩ := keep
      refine ⟨[], v.log, v.done, v.running, .refl, ?_, fun _ => first room, ?_, rfl⟩
      · rw [running, Multiset.card_cons]
        omega
      · rw [running, Multiset.card_cons]
        simp [fails, Nat.add_assoc]
    · obtain ⟨es, settles⟩ := settle src W goes running
      refine ⟨es, _, _, H, settles, le, fun lt => ?_, ?_, ?_⟩
      · have passes : failing t = false := by
          simpa using fun fails => keep ⟨fails, lt⟩
        simp [first lt, passes]
      · simp only [List.countP_append]
        omega
      · rw [running, ← Multiset.coe_add, Multiset.coe_singleton, ← Multiset.singleton_add,
          add_assoc]

end Server

section Pace

variable {σ α : Type*} {lazy : LazySource σ α} {read : σ → Prop} {supply : Nat → Option α}
  {count : Nat} {limit : Option Nat} {failed : α → Bool}
  {ending : ParallelBatchTask α → Ending} {W k : Nat} {v : Server σ α}

/-- A server that has admitted the first `k` of the tasks `ts` and has as few failures recorded as
it can: `W` tasks wait, one hand has the task in front of them, and the others hold tasks that
fail. -/
structure Paced (lazy : LazySource σ α) (read : σ → Prop) (failing : ParallelBatchTask α → Bool)
    (W : Nat) (ts : List (ParallelBatchTask α)) (k : Nat) (v : Server σ α) : Prop where
  fresh : ¬ read v.source
  position : lazy.position v.source = k
  admitted : v.admitted = k
  waiting : v.waiting = (ts.take k).drop (k - W)
  held : ∃ H : Multiset (ParallelBatchTask α),
    v.running = H + ((ts.take (k - W)).drop (k - (W + 1)) : List (ParallelBatchTask α)) ∧
    H.card ≤ W - 1 ∧ (H.card < W - 1 → v.log.countP failing = 0) ∧
    v.log.countP failing + H.card = (ts.take (k - (W + 1))).countP failing
  finishing : v.finishing = 0
  closed : v.closed = false
  ended : v.ended = false
  placed : (v.log : Multiset (ParallelBatchTask α)) + v.running + v.waiting = ts.take k

/-- The first tasks are those of the first items. -/
lemma take_indexed (items : List α) (k : Nat) :
    (indexed items).take k = indexed (items.take k) := by
  have first := List.prefix_iff_eq_take.mp (prefix_indexed (List.take_prefix k items))
  rw [first, length_indexed, List.length_take]
  rcases Nat.le_total k items.length with le | ge
  · rw [Nat.min_eq_left le]
  · rw [Nat.min_eq_right ge, List.take_of_length_le (by simpa using ge),
      List.take_of_length_le (by simp)]

/-- Positions do not matter for how many of the first items fail. -/
lemma countP_take_indexed (items : List α) (k : Nat) :
    ((indexed items).take k).countP (failed ·.task) = (items.take k).countP failed := by
  rw [take_indexed, countP_indexed]

/-- At a position is the item of this position. -/
lemma getElem?_indexed (items : List α) (k : Nat) :
    (indexed items)[k]? = items[k]?.map fun a => ⟨k, a⟩ := by
  rw [indexed, List.getElem?_map, List.getElem?_zipIdx, Option.map_map, Nat.zero_add]
  rfl

/-- A server begins before its first task. -/
lemma Paced.init (polls : lazy.Polls read supply count limit failed)
    (doc : lazy.Documented supply count limit failed) (ts : List (ParallelBatchTask α)) :
    Paced lazy read (failed ·.task) W ts 0 (Server.init lazy.start) where
  fresh := polls.start
  position := doc.start
  admitted := rfl
  waiting := by simp [Server.init]
  held := ⟨0, by simp [Server.init]⟩
  finishing := rfl
  closed := rfl
  ended := rfl
  placed := by simp [Server.init]

/-- With few failures among the tasks that nobody waits for, the limit is not reached. -/
lemma Paced.below {items : List α} (h : Paced lazy read (failed ·.task) W (indexed items) k v)
    (limits : ∀ L ∈ limit, 0 < L) (few : Few failed limit W items (k - (W + 1))) :
    Below limit failed v.log := by
  intro L mem
  obtain ⟨H, -, le, first, counted⟩ := h.held
  have few := few L mem
  have pos := limits L mem
  rw [countP_take_indexed] at counted
  rcases Nat.lt_or_ge H.card (W - 1) with lt | ge
  · rw [first lt]
    exact pos
  · omega

/-- Inside a pull the position stays. -/
lemma LazySource.Documented.position_of_goes (doc : lazy.Documented supply count limit failed)
    {log s s'} (rs : ReflTransGen (lazy.Goes log) s s') : lazy.position s' = lazy.position s :=
  Runs.invariant (I := fun s' => lazy.position s' = lazy.position s)
    (fun st same => (doc.quiet st).trans same) rs rfl

/-- The next task is admitted. -/
lemma Paced.admit {t : ParallelBatchTask α}
    (h : Paced lazy read (failed ·.task) W (indexed (available supply 0 count)) k v)
    (ending : ParallelBatchTask α → Ending) (doc : lazy.Documented supply count limit failed)
    (polls : lazy.Polls read supply count limit failed) (below : Below limit failed v.log)
    (next : (indexed (available supply 0 count))[k]? = some t) :
    ∃ es s, Shows (Server.Step lazy.next ending W) v es { v with
        source := s
        admitted := k + 1
        waiting := v.waiting ++ [t] } ∧
      ¬ read s ∧ lazy.position s = k + 1 := by
  obtain rfl := h.admitted
  rw [getElem?_indexed, Option.map_eq_some_iff] at next
  obtain ⟨a, item, rfl⟩ := next
  have item' : supply (lazy.position v.source) = some a := by
    rw [h.position, ← supply_eq_some item, Nat.zero_add]
  have declared : lazy.position v.source < count := by
    rw [h.position]
    exact (List.getElem?_eq_some_iff.mp item).1.trans_le (length_available_le _ _ _)
  obtain ⟨s₁, s, inside, pull⟩ := polls.pulls h.fresh below declared item'
  have room : v.waiting.length ≤ W := by
    rw [h.waiting]
    simp
    omega
  have quiet : Shows (Server.Step lazy.next ending W) v [] { v with source := s₁ } :=
    Server.goes_on h.closed room inside
  have admits : Server.Step lazy.next ending W { v with source := s₁ } _ _ :=
    .admits h.closed room pull
  refine ⟨_, s, quiet.tail admits, (polls.returns pull).2, ?_⟩
  rw [(doc.some pull).2.2, doc.position_of_goes inside, h.position]

/-- The next task is admitted, a hand is freed, and it begins the oldest of the tasks that wait if
these are more than `W`. -/
lemma Paced.next (h : Paced lazy read (failed ·.task) W (indexed (available supply 0 count)) k v)
    (doc : lazy.Documented supply count limit failed)
    (polls : lazy.Polls read supply count limit failed) (pos : 0 < W)
    (goes : ∀ t, ending t = .returns) (below : Below limit failed v.log)
    (lt : k < (indexed (available supply 0 count)).length) :
    ∃ es v', Shows (Server.Step lazy.next ending W) v es v' ∧
      Paced lazy read (failed ·.task) W (indexed (available supply 0 count)) (k + 1) v' := by
  obtain ⟨t, task⟩ : ∃ t, (indexed (available supply 0 count))[k]? = some t :=
    ⟨_, List.getElem?_eq_getElem lt⟩
  obtain ⟨es, s, admits, fresh, position⟩ := h.admit ending doc polls below task
  generalize indexed (available supply 0 count) = ts at h lt task
  obtain ⟨H, running, le, first, counted⟩ := h.held
  have longer : ts.take (k + 1) = ts.take k ++ [t] := by
    rw [List.take_add_one, task, Option.toList_some]
  have waiting : v.waiting ++ [t] = (ts.take (k + 1)).drop (k - W) := by
    rw [h.waiting, longer, List.drop_append_of_le_length (by simp; omega)]
  have placed : (v.log : Multiset (ParallelBatchTask α)) + v.running + ↑(v.waiting ++ [t])
      = ts.take (k + 1) := by
    rw [← Multiset.coe_add, ← add_assoc, h.placed, longer, Multiset.coe_add]
  rcases Nat.lt_or_ge k W with few | many
  · -- all tasks wait
    have now : k - W = 0 := by omega
    have next : k + 1 - W = 0 := by omega
    have next' : k + 1 - (W + 1) = 0 := by omega
    refine ⟨es, _, admits, fresh, position, rfl, ?_, ⟨H, ?_, le, first, ?_⟩, h.finishing, h.closed,
      h.ended, placed⟩
    · rw [next, waiting, now]
    · simpa [now, next] using running
    · simpa [next', show k - (W + 1) = 0 by omega] using counted
  · have one : ((ts.take (k - W)).drop (k - (W + 1))).length ≤ 1 := by
      simp
      omega
    obtain ⟨es', log, done, H', frees, le', first', counted', placed'⟩ :=
      Server.hold lazy.next goes (v := { v with
        source := s
        admitted := k + 1
        waiting := v.waiting ++ [t] }) running one le first
    obtain ⟨u, oldest⟩ : ∃ u, ts[k - W]? = some u :=
      ⟨_, List.getElem?_eq_getElem (by omega)⟩
    have next : k + 1 - W = k - W + 1 := by omega
    have rest : (ts.take (k + 1)).drop (k - W) = u :: (ts.take (k + 1)).drop (k + 1 - W) := by
      have first : (ts.take (k + 1))[k - W]? = some u := by
        rw [List.getElem?_take_of_lt (by omega), oldest]
      rw [List.drop_eq_getElem?_toList_append, first, next]
      rfl
    have begins : Server.Step lazy.next ending W { v with
        source := s
        admitted := k + 1
        waiting := v.waiting ++ [t]
        running := H'
        log, done } _ _ := .begins (waiting.trans rest) (by simp [h.finishing]; omega)
    refine ⟨_, _, (admits.trans frees).tail begins, fresh, position, rfl, rfl, ⟨H', ?_, le', first',
      ?_⟩, h.finishing, h.closed, h.ended, ?_⟩
    · have hand : (ts.take (k + 1 - W)).drop (k + 1 - (W + 1)) = [u] := by
        rw [next, Nat.add_sub_add_right, List.take_add_one, oldest, List.drop_append_of_le_length,
          List.drop_eq_nil_of_le]
        · rfl
        · simp
        · simp
          omega
      rw [hand, Multiset.coe_singleton]
      exact ((add_comm H' {u}).trans (Multiset.singleton_add u H')).symm
    · have split := List.take_append_drop (k - (W + 1)) (ts.take (k - W))
      rw [List.take_take, Nat.min_eq_left (by omega)] at split
      rw [Nat.add_sub_add_right, ← split, List.countP_append, ← counted]
      exact counted'
    · calc (log : Multiset (ParallelBatchTask α)) + (u ::ₘ H')
            + ↑((ts.take (k + 1)).drop (k + 1 - W))
          = (log + H') + ↑(u :: (ts.take (k + 1)).drop (k + 1 - W)) := by
            rw [← Multiset.cons_coe, Multiset.add_cons, Multiset.add_cons, Multiset.cons_add]
        _ = ts.take (k + 1) := by rw [placed', ← rest, ← waiting]; exact placed

/-- Fewer items have fewer failures. -/
lemma Few.mono {items : List α} {j : Nat} (few : Few failed limit W items k) (le : j ≤ k) :
    Few failed limit W items j := by
  intro L mem
  have fewer := (List.take_prefix_take_left (l := items) le).sublist.countP_le (p := failed)
  exact fewer.trans_lt (few L mem)

/-- A server can hold the record back until any number of tasks that `Few` allows. -/
lemma Paced.reach (doc : lazy.Documented supply count limit failed)
    (polls : lazy.Polls read supply count limit failed) (limits : ∀ L ∈ limit, 0 < L)
    (pos : 0 < W) (goes : ∀ t, ending t = .returns) (le : k ≤ (available supply 0 count).length)
    (few : Few failed limit W (available supply 0 count) (k - (W + 2))) :
    ∃ es v, Shows (Server.Step lazy.next ending W) (Server.init lazy.start) es v ∧
      Paced lazy read (failed ·.task) W (indexed (available supply 0 count)) k v := by
  induction k with
  | zero => exact ⟨[], _, .refl, .init polls doc _⟩
  | succ k ih =>
    obtain ⟨es, v, run, h⟩ := ih (by omega) (few.mono (by omega))
    have below := h.below limits (few.mono (by omega))
    obtain ⟨es', v', more, h'⟩ := h.next doc polls pos goes below (by simpa using le)
    exact ⟨es ++ es', v', run.trans more, h'⟩

/-- A server can end wherever a call of as many jobs as it has hands may end. -/
lemma EndsAt.served {m o} (h : EndsAt supply failed limit count W m o)
    (doc : lazy.Documented supply count limit failed)
    (polls : lazy.Polls read supply count limit failed) (limits : ∀ L ∈ limit, 0 < L)
    (pos : 0 < W) (goes : ∀ t, ending t = .returns) :
    ∃ es v, Shows (Server.Step lazy.next ending W) (Server.init lazy.start) es v ∧
      v.ended = true ∧ v.admitted = m ∧ lazy.observed v.source = o := by
  have few : Few failed limit W (available supply 0 count) (m - (W + 2)) :=
    h.few.mono (by split <;> omega)
  obtain ⟨es, v, run, paced⟩ := Paced.reach doc polls limits pos goes h.le few
  have room : v.waiting.length ≤ W := by
    rw [paced.waiting]
    simp
    omega
  obtain ⟨es', log, done, drains, all⟩ := Server.drain lazy.next pos goes paced.finishing
  rw [paced.placed] at all
  by_cases stopped : o = .stopped
  · subst stopped
    -- all tasks get done before the last poll
    obtain ⟨L, mem, enough⟩ := h.justified
    have over_limit : ¬ Below limit failed log := fun below => by
      have fewer := below L mem
      rw [(Multiset.coe_eq_coe.mp all).countP_eq, take_indexed] at fewer
      omega
    obtain ⟨s₁, s, inside, pull, observed⟩ := polls.stops paced.fresh over_limit
    have closes : Shows (Server.Step lazy.next ending W) _ _ _ :=
      Server.close (v := { v with waiting := [], running := 0, log, done }) paced.closed
        (Nat.zero_le W) inside pull
    have ends : Server.Step lazy.next ending W _ (some .ends) _ :=
      .ends (v := { v with source := s, waiting := [], running := 0, log, done, closed := true })
        rfl rfl rfl paced.finishing paced.ended
    exact ⟨_, _, ((run.trans drains).trans closes).tail ends, rfl, paced.admitted, observed⟩
  · have few : Few failed limit W (available supply 0 count) (m - (W + 1)) := by
      simpa [stopped] using h.few
    have last : lazy.position v.source < count → supply (lazy.position v.source) = none := by
      rw [paced.position]
      have why := h.justified
      cases o with
      | exhausted => exact fun _ => why
      | exceeded => exact fun lt => absurd why.1 (Nat.not_le.mpr lt)
      | stopped => exact absurd rfl stopped
    obtain ⟨s₁, s, inside, pull, observed⟩ := polls.ends paced.fresh (paced.below limits few) last
    have closes : Shows (Server.Step lazy.next ending W) _ _ _ :=
      Server.close paced.closed room inside pull
    obtain ⟨es', log, done, drains, all⟩ := Server.drain lazy.next pos goes (v := { v with
      source := s
      closed := true }) paced.finishing
    have ends : Server.Step lazy.next ending W _ (some .ends) _ :=
      .ends (v := { v with source := s, waiting := [], running := 0, log, done, closed := true })
        rfl rfl rfl paced.finishing paced.ended
    refine ⟨_, _, ((run.trans closes).trans drains).tail ends, rfl, paced.admitted, ?_⟩
    obtain ⟨-, why⟩ := doc.none pull
    rw [doc.position_of_goes inside, paced.position] at why
    rw [h.justified.eq_of_ne_stopped stopped]
    exact why.eq_of_ne_stopped observed

end Pace

variable {π ι σ α R E : Type*} [DecidableEq π] {qb : QubitBatch ι σ α R E}
  {supply : ι → Nat → Option α} {run : α → TaskResult R E} {read : σ → Prop}
  {ending : ParallelBatchTask α → Ending} {current_num_threads : π → Nat}
  {self : RayonBatchExecutor π} {worker : Bool} {active : List π} {tasks : ι} {count : Nat}

/-- The records of the first `m` items. -/
def firstRecords (run : α → TaskResult R E) (items : List α) (m : Nat) : List (Record R E) :=
  (indexed (items.take m)).map (record run)

/-- What a call returns that has executed the first `m` items when its source ended. -/
def resultAt {S : Type*} (run : α → TaskResult R E) (items : List α) (count m : Nat)
    (o : Observation) : ExecuteResult E S :=
  verdict count o (outcome count (firstRecords run items m))

/-- A limit of failures is positive. -/
lemma TaskFailurePolicy.limit_pos (policy : TaskFailurePolicy) :
    ∀ L ∈ policy.limit.map Subtype.val, 0 < L := by
  intro L mem
  obtain ⟨L, -, rfl⟩ := Option.mem_map.mp mem
  exact L.2

/-- A parallel call ends as `EndsAt` says, with the result of that end. -/
lemma Executes.ends_at (doc : qb.Documented supply run)
    (polls : ∀ tasks count policy, (qb.lazy tasks count policy).Polls read (supply tasks) count
      (policy.limit.map Subtype.val) (fails run)) (goes : ∀ t, ending t = .returns)
    (threads : 0 < current_num_threads self.pool)
    (parallel : (self.execute_with_count_dispatch worker count active).1 = .parallel) {log e}
    (h : Executes qb ending current_num_threads self worker active tasks count log e) :
    ∃ m o, EndsAt (supply tasks) (fails run) (self.task_failure_policy.limit.map Subtype.val) count
        (self.worker_count current_num_threads count) m o ∧
      log.Perm (indexed ((available (supply tasks) 0 count).take m)) ∧
      e = .returned (resultAt run (available (supply tasks) 0 count) count m o) := by
  have pos := self.worker_count_pos .execute_with_count threads parallel
  have lazy := doc.lazy tasks count self.task_failure_policy
  have calm : ∀ t, ending t ≠ .unwinds := fun t => by simp [goes t]
  cases h with
  | fallback sequential => simp [parallel] at sequential
  | abandoned _ run => exact absurd run (doc.abandon _ _ _)
  | scope_unwound _ rs result =>
    have ended := Ended.of_run lazy goes pos rs (by simp [Batch.ended, result])
    simp [ended.value] at result
  | @scope_returned b v _ _ rs result finish =>
    have over_scope : b.ended := by simp [Batch.ended, result]
    have ended := Ended.of_run lazy goes pos rs over_scope
    have ok : v = .ok () := by simpa [ended.value] using result.symm
    subst ok
    obtain ⟨at', recorded⟩ := Ended.endsAt lazy (polls _ _ _)
      self.task_failure_policy.limit_pos pos calm rs over_scope
    refine ⟨_, _, at', ended.executed.trans (ended.recorded.symm.trans recorded), ?_⟩
    rw [(doc.finish _ _ _ _ _ _ ended.position).mp finish,
      outcome_eq_of_perm (nodup_index_record recorded) (recorded.map _)]
    rfl

/-- Every end that `EndsAt` allows is one of a parallel call. -/
lemma Executes.of_ends_at (doc : qb.Documented supply run)
    (polls : ∀ tasks count policy, (qb.lazy tasks count policy).Polls read (supply tasks) count
      (policy.limit.map Subtype.val) (fails run)) (goes : ∀ t, ending t = .returns)
    (threads : 0 < current_num_threads self.pool)
    (parallel : (self.execute_with_count_dispatch worker count active).1 = .parallel) {m o}
    (h : EndsAt (supply tasks) (fails run) (self.task_failure_policy.limit.map Subtype.val) count
      (self.worker_count current_num_threads count) m o) :
    ∃ log, log.Perm (indexed ((available (supply tasks) 0 count).take m)) ∧
      Executes qb ending current_num_threads self worker active tasks count log
        (.returned (resultAt run (available (supply tasks) 0 count) count m o)) := by
  have pos := self.worker_count_pos .execute_with_count threads parallel
  have lazy := doc.lazy tasks count self.task_failure_policy
  have calm : ∀ t, ending t ≠ .unwinds := fun t => by simp [goes t]
  have source : ∀ log s, ¬ (qb.lazy tasks count self.task_failure_policy).next log s .unwind :=
    fun _ _ => lazy.unwind
  obtain ⟨es, v, served, ended, admitted, observed⟩ :=
    h.served lazy (polls _ _ _) self.task_failure_policy.limit_pos pos goes
  obtain ⟨b, shown, rfl⟩ := (Batch.shows_iff pos source calm).mpr served
  have rs := Batch.run_of_shows shown
  have over_scope : b.ended := Option.isSome_iff_ne_none.mp ended
  have done := Ended.of_run lazy goes pos rs over_scope
  obtain ⟨-, recorded⟩ := Ended.endsAt lazy (polls _ _ _) self.task_failure_policy.limit_pos pos
    calm rs over_scope
  obtain rfl : b.yielded.length = m := admitted
  obtain rfl : (qb.lazy tasks count self.task_failure_policy).observed b.source = o := observed
  refine ⟨_, done.executed.trans (done.recorded.symm.trans recorded),
    .scope_returned parallel rs done.value ((doc.finish _ _ _ _ _ _ done.position).mpr ?_)⟩
  rw [outcome_eq_of_perm (nodup_index_record recorded) (recorded.map _)]
  rfl

/-- A call above the fallbacks ends as the `execute_with_count` that it delegates to. -/
lemma Calls.of_executes
    (parallel : (self.execute_with_count_dispatch worker count active).1 = .parallel) {log e e'}
    (h : Executes qb ending current_num_threads self worker active tasks count log e)
    (collect : qb.call_with_executor log e e') :
    Calls qb ending current_num_threads self worker active tasks count log e' := by
  rcases entered : ActiveBatchGuard.enter self.pool active with ⟨guard, active'⟩
  have above : self.runs_sequentially guard worker count = false := by
    cases path : self.runs_sequentially guard worker count with
    | false => rfl
    | true => simp [RayonBatchExecutor.execute_with_count_dispatch, entered, path] at parallel
  obtain ⟨restored, -⟩ := self.delegation entered above
  rw [← restored] at h
  exact .delegated entered above h collect

/-- Under a failure policy a parallel call can end exactly as `EndsAt` says: after which of the
tasks, and whether the policy has stopped the source. The tasks decide what it then returns. -/
theorem stop_policy_exact (doc : qb.Documented supply run)
    (polls : ∀ tasks count policy, (qb.lazy tasks count policy).Polls read (supply tasks) count
      (policy.limit.map Subtype.val) (fails run)) (goes : ∀ t, ending t = .returns)
    (current_num_threads : π → Nat) (self : RayonBatchExecutor π)
    (threads : 0 < current_num_threads self.pool) (worker : Bool) (active : List π) (tasks : ι)
    (count : Nat) (entry : Entry)
    (parallel : (self.dispatch entry worker count active).1 = .parallel) :
    (∀ e,
      (∃ log, Executes qb ending current_num_threads self worker active tasks count log e) ↔
      ∃ m o, EndsAt (supply tasks) (fails run) (self.task_failure_policy.limit.map Subtype.val)
          count (self.worker_count current_num_threads count) m o ∧
        e = .returned (resultAt run (available (supply tasks) 0 count) count m o)) ∧
    ∀ e,
      (∃ log, Calls qb ending current_num_threads self worker active tasks count log e) ↔
      ∃ m o, EndsAt (supply tasks) (fails run) (self.task_failure_policy.limit.map Subtype.val)
          count (self.worker_count current_num_threads count) m o ∧
        e = .returned (withOutputs
          (outputs (firstRecords run (available (supply tasks) 0 count) m))
          (resultAt run (available (supply tasks) 0 count) count m o)) := by
  have route : (self.execute_with_count_dispatch worker count active).1 = .parallel :=
    self.dispatch_eq entry worker count active ▸ parallel
  refine ⟨fun e => ⟨?_, ?_⟩, fun e => ⟨?_, ?_⟩⟩
  · rintro ⟨log, h⟩
    obtain ⟨m, o, ends, -, returned⟩ := h.ends_at doc polls goes threads route
    exact ⟨m, o, ends, returned⟩
  · rintro ⟨m, o, ends, rfl⟩
    obtain ⟨log, -, ran⟩ := Executes.of_ends_at doc polls goes threads route ends
    exact ⟨log, ran⟩
  · rintro ⟨log, h⟩
    obtain ⟨e₀, inner, collect⟩ :=
      h.delegates (by rwa [self.dispatch_eq] at parallel ⊢)
    obtain ⟨m, o, ends, perm, rfl⟩ := inner.ends_at doc polls goes threads route
    refine ⟨m, o, ends, ?_⟩
    rw [(doc.call_with_executor _ _ _).mp collect,
      outputs_eq_of_perm (nodup_index_record perm) (perm.map _)]
    rfl
  · rintro ⟨m, o, ends, rfl⟩
    obtain ⟨log, perm, ran⟩ := Executes.of_ends_at doc polls goes threads route ends
    refine ⟨log, .of_executes route ran ((doc.call_with_executor _ _ _).mpr ?_)⟩
    rw [firstRecords, outputs_eq_of_perm (nodup_index_record perm) (perm.map _)]

/-- Two jobs that stop on the first failure can execute five of seven tasks that fail. -/
theorem stop_policy_exact_seven :
    ∃ log, Executes (QubitBatch.ofLists checkTwenty) (fun _ => .returns) (fun _ : Unit => 2)
      (stopping 0) false [] (List.replicate 7 20) 7 log
      (.returned (resultAt checkTwenty (List.replicate 7 20) 7 5 .stopped)) := by
  have ends : EndsAt ((List.replicate 7 20)[·]?) (fails checkTwenty) (some 1) 7 2 5 .stopped := by
    refine ⟨?_, ⟨1, rfl, ?_⟩, ?_⟩
    · simp [available_getElem?]
    · rw [available_getElem?, countP_indexed]
      decide
    · rintro L ⟨⟩
      rw [available_getElem?]
      decide
  have exact' := stop_policy_exact (QubitBatch.ofLists_documented checkTwenty)
    (fun items count policy => LazySource.ofList_polls items count _ _) (fun _ => rfl)
    (fun _ : Unit => 2) (stopping 0) (by decide) false [] (List.replicate 7 20) 7
    .execute_with_count (by decide)
  refine (exact'.1 _).mpr ⟨5, .stopped, ends, ?_⟩
  rw [available_getElem?]
  rfl

end RayonBatch
