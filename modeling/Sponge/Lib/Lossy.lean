/-
# `Sponge.Lib.Lossy` — what is on its way when the way loses but keeps the order.

What was put in is a list, what is still to come out is another one, and the second stands for a sublist of the first:
`List.SublistForall₂`.  More can be put in at the end, something can get lost anywhere, and what comes out first stands
for some element that was put in, with all that come out later behind it.
-/
import Mathlib.Data.List.Forall2

namespace Sponge.Lib

open List (SublistForall₂)

universe u v

variable {α : Type u} {β : Type v} {R : α → β → Prop} {out out' : List α} {put put' : List β}

/-- More is put in. -/
theorem sublistForall₂_append (h : SublistForall₂ R out put) (h' : SublistForall₂ R out' put') :
    SublistForall₂ R (out ++ out') (put ++ put') := by
  induction h with
  | nil =>
    rename_i l
    induction l with
    | nil => exact h'
    | cons b l ih => exact ih.cons_right
  | cons hr _ ih => exact ih.cons hr
  | cons_right _ ih => exact ih.cons_right

/-- Something gets lost. -/
theorem sublistForall₂_of_sublist (hsub : out'.Sublist out) (h : SublistForall₂ R out put) :
    SublistForall₂ R out' put := by
  induction h generalizing out' with
  | nil =>
    rw [List.sublist_nil.mp hsub]
    exact .nil
  | cons hr _ ih =>
    cases hsub with
    | cons _ hsub => exact (ih hsub).cons_right
    | cons_cons _ hsub => exact (ih hsub).cons hr
  | cons_right _ ih => exact (ih hsub).cons_right

/-- Something comes out. -/
theorem sublistForall₂_cons {a : α} (h : SublistForall₂ R (a :: out) put) :
    ∃ skipped b rest, put = skipped ++ b :: rest ∧ R a b ∧ SublistForall₂ R out rest := by
  generalize hall : a :: out = all at h
  induction h with
  | nil => exact absurd hall (List.cons_ne_nil _ _)
  | cons hr hrest _ =>
    obtain ⟨rfl, rfl⟩ := List.cons.inj hall
    exact ⟨[], _, _, rfl, hr, hrest⟩
  | cons_right _ ih =>
    rename_i c _ _ _
    obtain ⟨skipped, b, rest, rfl, hr, hrest⟩ := ih hall
    exact ⟨c :: skipped, b, rest, rfl, hr, hrest⟩

end Sponge.Lib
