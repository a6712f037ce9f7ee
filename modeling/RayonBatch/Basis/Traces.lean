import Mathlib.Logic.Relation
import Mathlib.Tactic.Common

/-!
# Traces of labelled runs

A step of a labelled relation shows an event or is silent. `Shows step s es s'` says that a run from
`s` to `s'` shows the events `es`. When the steps of one relation are answered by runs of another
that show the same, so are its runs (`Shows.simulate`).
-/

namespace Traces
open Relation

variable {S T E : Type*} {step : S → Option E → S → Prop} {spec : T → Option E → T → Prop}

/-- A run and the events that it shows. -/
inductive Shows (step : S → Option E → S → Prop) (s : S) : List E → S → Prop where
  | refl : Shows step s [] s
  | tail {es m e s'} :
    Shows step s es m →
    step m e s' →
    Shows step s (es ++ e.toList) s'

namespace Shows

/-- A step shows its event. -/
lemma single {s e s'} (st : step s e s') : Shows step s e.toList s' := by
  simpa using Shows.refl.tail st

/-- A silent step shows nothing more. -/
lemma silent {s es m s'} (h : Shows step s es m) (st : step m none s') : Shows step s es s' := by
  simpa using h.tail st

/-- Runs show their events one after the other. -/
lemma trans {s es m es' s'} (h : Shows step s es m) (h' : Shows step m es' s') :
    Shows step s (es ++ es') s' := by
  induction h' with
  | refl => simpa using h
  | tail _ st ih =>
    rw [← List.append_assoc]
    exact ih.tail st

/-- What is silent first is silent. -/
lemma head {s e m es s'} (st : step s e m) (h : Shows step m es s') :
    Shows step s (e.toList ++ es) s' :=
  (single st).trans h

/-- What shows events is a run. -/
lemma run {s es s'} (h : Shows step s es s') :
    ReflTransGen (fun a b => ∃ e, step a e b) s s' := by
  induction h with
  | refl => exact .refl
  | tail _ st ih => exact ih.tail ⟨_, st⟩

/-- Every run shows some events. -/
lemma of_run {s s'} (rs : ReflTransGen (fun a b => ∃ e, step a e b) s s') :
    ∃ es, Shows step s es s' := by
  induction rs with
  | refl => exact ⟨[], .refl⟩
  | tail _ st ih =>
    obtain ⟨es, h⟩ := ih
    obtain ⟨e, st⟩ := st
    exact ⟨_, h.tail st⟩

/-- When every step is answered by a run that shows the same, so is every run. -/
lemma simulate {R : S → T → Prop}
    (answer : ∀ a e b x, R a x → step a e b → ∃ y, Shows spec x e.toList y ∧ R b y)
    {s es s' x} (h : Shows step s es s') (related : R s x) : ∃ y, Shows spec x es y ∧ R s' y := by
  induction h with
  | refl => exact ⟨x, .refl, related⟩
  | tail _ st ih =>
    obtain ⟨m, first, related⟩ := ih
    obtain ⟨y, rest, related⟩ := answer _ _ _ _ related st
    exact ⟨y, first.trans rest, related⟩

/-- With more steps a run shows what it did. -/
lemma mono {step' : S → Option E → S → Prop} (le : ∀ {a e b}, step a e b → step' a e b)
    {s es s'} (h : Shows step s es s') : Shows step' s es s' := by
  induction h with
  | refl => exact .refl
  | tail _ st ih => exact ih.tail (le st)

end Shows

end Traces
