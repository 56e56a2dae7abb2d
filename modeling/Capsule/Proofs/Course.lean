import Mathlib.Data.List.Basic
import Mathlib.Data.List.Induction

/-!
# Courses

What happens to a system is a list of inputs, and each input leads from a state to the next and
gives something back. Such a list is a *course*: it has a final state, and the steps that were
taken on the way, each with the state before it.

## The invariant lemma

`Course.invariant` is the only induction over courses. It carries a property of the steps so far
*and* of the state they have led to, since most facts tie the two together: what is in the state
now is what has been given back and not been taken away. `Course.final_invariant` is the special
case in which the steps do not matter.

## Main definitions

* `Course.final`, `Course.steps`: the state behind a list of inputs, and the steps to it

## Main results

* `Course.invariant`, `Course.final_invariant`
* `Course.final_append`, `Course.steps_append`: courses are continued by continuing the list
-/

namespace Capsule

namespace Course

/-- A step of a system. -/
structure Step (σ ι ο : Type) where
  before : σ
  input : ι
  output : ο

variable {σ ι ο : Type} (next : σ → ι → σ × ο)

/-- The state behind a list of inputs. -/
def final : σ → List ι → σ
  | s, [] => s
  | s, i :: is => final (next s i).1 is

/-- The steps that a list of inputs leads to. -/
def steps : σ → List ι → List (Step σ ι ο)
  | _, [] => []
  | s, i :: is => ⟨s, i, (next s i).2⟩ :: steps (next s i).1 is

theorem final_append (s : σ) (is js : List ι) :
    final next s (is ++ js) = final next (final next s is) js := by
  induction is generalizing s with
  | nil => rfl
  | cons i is ih => exact ih _

theorem steps_append (s : σ) (is js : List ι) :
    steps next s (is ++ js) = steps next s is ++ steps next (final next s is) js := by
  induction is generalizing s with
  | nil => rfl
  | cons i is ih => exact congrArg _ (ih _)

/-- The inputs of the steps are those of the list. -/
theorem input_mem_of_mem_steps {s : σ} {is : List ι} {r : Step σ ι ο} (h : r ∈ steps next s is) :
    r.input ∈ is := by
  induction is generalizing s with
  | nil => cases h
  | cons i is ih =>
    rcases List.mem_cons.mp h with rfl | h
    · exact List.mem_cons_self ..
    · exact List.mem_cons_of_mem _ (ih h)

/-- The output of a step is what its input has led to. -/
theorem output_eq_of_mem_steps {s : σ} {is : List ι} {r : Step σ ι ο} (h : r ∈ steps next s is) :
    r.output = (next r.before r.input).2 := by
  induction is generalizing s with
  | nil => cases h
  | cons i is ih =>
    rcases List.mem_cons.mp h with rfl | h
    · rfl
    · exact ih h

/-- **Invariants of courses.** What holds in the beginning and is kept by each step holds behind
every list of inputs, of the steps that were taken and of the state together. -/
theorem invariant {P : List (Step σ ι ο) → σ → Prop} {s : σ} (start : P [] s)
    (keep : ∀ h t i, P h t → P (h ++ [⟨t, i, (next t i).2⟩]) (next t i).1) (is : List ι) :
    P (steps next s is) (final next s is) := by
  induction is using List.reverseRecOn with
  | nil => exact start
  | append_singleton is i ih =>
    rw [steps_append, final_append]
    exact keep _ _ i ih

theorem final_invariant {P : σ → Prop} {s : σ} (start : P s)
    (keep : ∀ t i, P t → P (next t i).1) (is : List ι) : P (final next s is) :=
  invariant next (P := fun _ t => P t) start (fun _ t i => keep t i) is

end Course

end Capsule
