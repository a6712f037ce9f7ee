import RayonBatch.Batch.Unwinding

/-!
# Endings that are settled on the way

How the tasks of a call end is a parameter of its steps. A run asks of it no more than how the
tasks have ended that it has seen end, so it may as well be chosen at every step anew: the steps of
`Free` do so, and a run of them is a run with endings that are given from the start (`settle`).
-/

namespace RayonBatch.Batch
open Relation Runs

variable {σ α : Type*} {src : Source σ α} {ending ending' : ParallelBatchTask α → Ending} {W : Nat}
  {b b' : Batch σ α}

/-- A step with some endings of the tasks. -/
def Free (src : Source σ α) (b b' : Batch σ α) : Prop :=
  ∃ ending, Next src ending b b'

/-- A step with given endings is one with free endings. -/
lemma Step.free {label} (st : Step src ending b label b') : Free src b b' :=
  ⟨_, _, st⟩

/-- A task that a job is executing is recorded and returns. -/
lemma free_task {l r t} (e : b.workers = l ++ .executing t :: r) :
    ReflTransGen (Free src) b { b with
      workers := l ++ .receiving :: r
      recorded := b.recorded ++ [t]
      executed := b.executed ++ [t] } := by
  let mid : Batch σ α := { b with
    workers := l ++ .recorded t :: r
    recorded := b.recorded ++ [t] }
  have record : Step src (fun _ => .returns) b _ mid := .record e nofun
  have returns : Step src (fun _ => .returns) mid _ { mid with
      workers := l ++ .receiving :: r
      executed := b.executed ++ [t] } := .task_returns rfl rfl
  exact .tail (.single record.free) returns.free

/-- What a state has seen of the endings. -/
structure Seen (ending ending' : ParallelBatchTask α → Ending) (b : Batch σ α) : Prop where
  executed : ∀ t ∈ b.executed, ending' t = ending t
  unwound : ∀ t ∈ b.unwound, ending' t = ending t
  recorded : ∀ t ∈ b.recorded, ending' t ≠ .parks

/-- Endings that agree on what a step has seen agree on what was seen before. -/
lemma Seen.back (seen : Seen ending ending' b') {label} (st : Step src ending b label b') :
    Seen ending ending' b := by
  obtain ⟨executed, unwound, recorded⟩ := seen
  cases st with
  | record | task_returns | task_unwinds =>
    constructor <;> intro t ht <;> simp_all
  | _ => exact ⟨executed, unwound, recorded⟩

/-- A step asks at most for the ending of one task, which a job has in hand. -/
lemma Step.asks {label} (st : Step src ending b label b') :
    (∀ ending', Step src ending' b label b') ∨
    ∃ t ∈ b.inHand, ending t ≠ .parks ∧
      ((t ∈ b'.recorded ∧ ∀ ending', ending' t ≠ .parks → Step src ending' b label b') ∨
        (t ∈ b'.executed ∨ t ∈ b'.unwound) ∧
          ∀ ending', ending' t = ending t → Step src ending' b label b') := by
  cases st with
  | @record l r t e goes =>
    exact .inr ⟨t, by simp [inHand, e], goes, .inl ⟨by simp, fun _ goes => .record e goes⟩⟩
  | @task_returns l r t e ret =>
    refine .inr ⟨t, by simp [inHand, e], by simp [ret], .inr ⟨.inl (by simp), fun _ same => ?_⟩⟩
    exact .task_returns e (same.trans ret)
  | @task_unwinds l r w t e task unw =>
    refine .inr ⟨t, by simp [inHand, e, task], by simp [unw], .inr ⟨.inr (by simp), ?_⟩⟩
    exact fun _ same => .task_unwinds e task (same.trans unw)
  | spawn e => exact .inl fun _ => .spawn e
  | drop_receiver e => exact .inl fun _ => .drop_receiver e
  | pull_quiet e pull => exact .inl fun _ => .pull_quiet e pull
  | pull_some e pull => exact .inl fun _ => .pull_some e pull
  | pull_none e pull => exact .inl fun _ => .pull_none e pull
  | pull_unwind e pull => exact .inl fun _ => .pull_unwind e pull
  | send e sent => exact .inl fun _ => .send e sent
  | send_error e none => exact .inl fun _ => .send_error e none
  | start e => exact .inl fun _ => .start e
  | recv e received => exact .inl fun _ => .recv e received
  | recv_closed e none => exact .inl fun _ => .recv_closed e none
  | scope_returns e returned none => exact .inl fun _ => .scope_returns e returned none
  | scope_unwinds done exited unw none => exact .inl fun _ => .scope_unwinds done exited unw none

/-- A step is one under all endings that agree on what it has seen. -/
lemma Seen.step (seen : Seen ending ending' b') {label} (st : Step src ending b label b') :
    Step src ending' b label b' := by
  rcases st.asks with any | ⟨t, -, -, ⟨recorded, goes⟩ | ⟨executed | unwound, same⟩⟩
  · exact any ending'
  · exact goes _ (seen.recorded t recorded)
  · exact same _ (seen.executed t executed)
  · exact same _ (seen.unwound t unwound)

/-- A run is one under all endings that agree on what it has seen. -/
lemma Seen.run {start : Batch σ α} (seen : Seen ending ending' b)
    (rs : ReflTransGen (Next src ending) start b) : ReflTransGen (Next src ending') start b := by
  induction rs with
  | refl => exact .refl
  | tail _ st ih =>
    obtain ⟨label, st⟩ := st
    exact (ih (seen.back st)).tail ⟨label, seen.step st⟩

/-- A task that is recorded does not park. -/
lemma Inv.goes_of_recorded (h : Inv ending W b) {t} (ht : t ∈ b.recorded) : ending t ≠ .parks := by
  obtain ⟨u, sub, records⟩ := h.tally.records
  have split := records.mem_iff.mpr ht
  simp only [List.mem_append, List.mem_filterMap] at split
  rcases split with (⟨w, hw, is⟩ | executed) | unwound
  · cases w with
    | recorded t' =>
      cases is
      exact h.tally.ending _ hw
    | _ => cases is
  · simp [h.tally.returns t executed]
  · simp [h.tally.unwinds t (sub.subset unwound)]

/-- The ending of a task in hand may still be chosen. -/
lemma Inv.seen_update [DecidableEq (ParallelBatchTask α)] (h : Inv ending W b) {t ended}
    (hand : t ∈ b.inHand) (goes : ended ≠ Ending.parks) :
    Seen ending (Function.update ending t ended) b := by
  have once := List.nodup_append.mp (List.append_assoc .. ▸ h.executed_once)
  have apart : ∀ u ∈ b.executed ++ b.unwound, u ≠ t := fun u hu e =>
    once.2.2 t hand u hu e.symm
  constructor
  · exact fun u hu => Function.update_of_ne (apart u (List.mem_append_left _ hu)) _ _
  · exact fun u hu => Function.update_of_ne (apart u (List.mem_append_right _ hu)) _ _
  · intro u hu
    rcases eq_or_ne u t with rfl | ne
    · simpa using goes
    · rw [Function.update_of_ne ne]
      exact h.goes_of_recorded hu

/-- A run whose endings are chosen on the way is a run with endings given from the start. -/
theorem settle {s : σ} (rs : ReflTransGen (Free src) (Batch.init W s) b) :
    ∃ ending, ReflTransGen (Next src ending) (Batch.init W s) b := by
  classical
  induction rs with
  | refl => exact ⟨fun _ => .returns, .refl⟩
  | tail _ st ih =>
    obtain ⟨ending, rs⟩ := ih
    obtain ⟨chosen, label, st⟩ := st
    rcases st.asks with any | ⟨t, hand, goes, asks⟩
    · exact ⟨ending, rs.tail ⟨label, any ending⟩⟩
    · have seen := (Inv.run rs).seen_update hand goes
      refine ⟨_, (seen.run rs).tail ⟨label, ?_⟩⟩
      rcases asks with ⟨-, any⟩ | ⟨-, same⟩
      · exact any _ (by simpa using goes)
      · exact same _ (by simp)

end RayonBatch.Batch
