/-
# `Sponge.Lib.Indexed` — lists that are gone through by index.

A loop over the indices of a list is one over its elements (`flatMap_range`), an element that is changed in place can
be written back before or after (`modify_set`), and distinct indices between two bounds are counted by the bounds
(`length_le_of_nodup`).
-/
import Mathlib.Data.List.Perm.Subperm
import Mathlib.Data.List.Induction
import Mathlib.Tactic.Common

namespace Sponge.Lib

variable {α β : Type*}

/-- Changing entry `j` and writing entry `k`, in either order. -/
theorem modify_set (l : List α) (j k : Nat) (f : α → α) (a : α) :
    (l.modify j f).set k (if j = k then f a else a) = (l.set k a).modify j f := by
  refine List.ext_getElem? fun m => ?_
  rw [List.getElem?_set, List.getElem?_modify, List.getElem?_modify, List.getElem?_set, List.length_modify]
  by_cases hkm : k = m
  · subst hkm
    rw [if_pos rfl, if_pos rfl]
    by_cases hlt : k < l.length
    · rw [if_pos hlt, if_pos hlt]
      rfl
    · rw [if_neg hlt, if_neg hlt]
      rfl
  · rw [if_neg hkm, if_neg hkm]

/-- What a loop over the indices collects is what a loop over the elements does. -/
theorem flatMap_range (l : List α) (f : α → List β) :
    ((List.range l.length).flatMap fun i => (l[i]?).elim [] f) = l.flatMap f := by
  induction l using List.reverseRecOn with
  | nil => rfl
  | append_singleton l a ih =>
    rw [List.length_append, List.length_singleton, List.range_succ, List.flatMap_append,
      List.flatMap_append, ← ih]
    congr 1
    · refine List.flatMap_congr fun i hi => ?_
      rw [List.getElem?_append_left (List.mem_range.mp hi)]
    · simp

/-- Distinct indices between two bounds are at most as many as the bounds are apart. -/
theorem length_le_of_nodup {l : List Nat} (hl : l.Nodup) {lo hi : Nat} (hb : ∀ n ∈ l, lo ≤ n ∧ n < hi) :
    l.length ≤ hi - lo := by
  have hsub : l ⊆ List.range' lo (hi - lo) := fun n hn => by
    have hn' := hb n hn
    rw [List.mem_range'_1]
    omega
  have hle := (List.subperm_of_subset hl hsub).length_le
  rwa [List.length_range'] at hle

end Sponge.Lib
