/-
# `Sponge.Lib.BestMatch` — the best candidate of a list, by one scan.

A scan keeps the best score so far and the candidate that has it, and replaces both for every candidate that
passes a test and scores at least as much.  It ends with the `argmax` of the score over the candidates that
pass, the LATEST one among equals: over the reversed list, since `List.argmax` prefers the first.
-/
import Mathlib.Data.List.MinMax

namespace Sponge.Lib

universe u

variable {α : Type u} (pass : α → Bool) (score : α → Nat)

/-- One candidate. -/
def scanStep (best : Nat × Option α) (a : α) : Nat × Option α :=
  if pass a && decide (best.1 ≤ score a) then (score a, some a) else best

/-- The latest of the candidates with the greatest score. -/
def bestMatch (l : List α) : Option α := (l.filter pass).reverse.argmax score

theorem bestMatch_concat (l : List α) (a : α) :
    bestMatch pass score (l ++ [a])
      = if pass a && decide ((bestMatch pass score l).elim 0 score ≤ score a) then some a
        else bestMatch pass score l := by
  unfold bestMatch
  rw [List.filter_append]
  cases hpass : pass a with
  | false => simp [hpass]
  | true =>
    rw [List.filter_singleton, hpass, Bool.cond_true, List.reverse_append, List.reverse_singleton,
      List.singleton_append, List.argmax_cons]
    cases (l.filter pass).reverse.argmax score with
    | none => simp
    | some c =>
      by_cases hlt : score a < score c
      · simp [hlt, Nat.not_le.mpr hlt]
      · simp [hlt, Nat.le_of_not_lt hlt]

theorem bestMatch_mem {l : List α} {a : α} (h : bestMatch pass score l = some a) : a ∈ l :=
  List.mem_of_mem_filter (List.mem_reverse.mp (List.argmax_mem h))

/-- **The scan finds the best match**, and its score beside it. -/
theorem scan_eq_bestMatch (l : List α) :
    l.foldl (scanStep pass score) (0, none)
      = ((bestMatch pass score l).elim 0 score, bestMatch pass score l) := by
  induction l using List.reverseRecOn with
  | nil => rfl
  | append_singleton l a ih =>
    rw [List.foldl_append, ih, List.foldl_cons, List.foldl_nil, scanStep, bestMatch_concat]
    split <;> rfl

end Sponge.Lib
