/-
# `Sponge.Lib.Fifo` — a log that is read in order.

A writer extends a history and now and then appends items to a log.  An item is right for the history as it
was when the item was appended: `sent (history.take m) b` for an item `b` of date `m`.  A reader goes
through the log in order and may skip items.  Since the dates never fall, the reader has a horizon `n` that
every item still to come knows of: each was appended when the first `n` entries were there.
-/
import Mathlib.Data.List.Forall2

namespace Sponge.Lib

variable {α β : Type*} {sent : List α → β → Prop} {history history' : List α} {log : List β} {gone n : Nat}

/-- The reader has passed `gone` items of the log, and what is left is at least as young as `n`. -/
structure Reads (sent : List α → β → Prop) (history : List α) (log : List β) (gone n : Nat) : Prop where
  past : n ≤ history.length
  dated : ∃ dates : List Nat, List.Forall₂ (fun m b => sent (history.take m) b) dates log ∧
    dates.Pairwise (· ≤ ·) ∧ (∀ m ∈ dates, m ≤ history.length) ∧ ∀ m ∈ dates.drop gone, n ≤ m

theorem Reads.new : Reads sent history [] 0 0 :=
  ⟨Nat.zero_le _, [], .nil, .nil, by simp, by simp⟩

/-- The history grows, and items that are right for it are appended. -/
theorem Reads.append (h : Reads sent history log gone n) (hpre : history <+: history') {new : List β}
    (hnew : ∀ b ∈ new, sent history' b) : Reads sent history' (log ++ new) gone n := by
  obtain ⟨dates, heach, hsorted, hpast, hleft⟩ := h.dated
  have hlen := hpre.length_le
  have hnow : ∀ m ∈ List.replicate new.length history'.length, m = history'.length :=
    fun m hm => List.eq_of_mem_replicate hm
  refine ⟨Nat.le_trans h.past hlen, dates ++ List.replicate new.length history'.length, ?_, ?_, ?_, ?_⟩
  · -- an old item's part of the history is still there
    apply List.rel_append
    · have hmem : List.Forall₂ (fun m b => m ≤ history.length ∧ sent (history.take m) b) dates log := by
        rw [List.forall₂_and_left]
        exact ⟨hpast, heach⟩
      refine hmem.imp fun m b hm => ?_
      obtain ⟨more, rfl⟩ := hpre
      rw [List.take_append_of_le_length hm.1]
      exact hm.2
    · rw [List.forall₂_iff_get]
      refine ⟨List.length_replicate, fun i hi hb => ?_⟩
      rw [hnow _ (List.get_mem _ _), List.take_length]
      exact hnew _ (List.get_mem _ _)
  · rw [List.pairwise_append]
    refine ⟨hsorted, List.pairwise_replicate.mpr (Or.inr (Nat.le_refl _)), fun m hm m' hm' => ?_⟩
    rw [hnow m' hm']
    exact Nat.le_trans (hpast m hm) hlen
  · intro m hm
    rcases List.mem_append.mp hm with hm | hm
    · exact Nat.le_trans (hpast m hm) hlen
    · exact Nat.le_of_eq (hnow m hm)
  · intro m hm
    rw [List.drop_append] at hm
    rcases List.mem_append.mp hm with hm | hm
    · exact hleft m hm
    · rw [hnow m (List.mem_of_mem_drop hm)]
      exact Nat.le_trans h.past hlen

/-- The reader takes the next item, and its date is the new horizon. -/
theorem Reads.next (h : Reads sent history log gone n) {b : β} {rest : List β}
    (hb : log.drop gone = b :: rest) :
    ∃ m, n ≤ m ∧ sent (history.take m) b ∧ Reads sent history log (gone + 1) m := by
  obtain ⟨dates, heach, hsorted, hpast, hleft⟩ := h.dated
  have hdrop := List.forall₂_drop gone heach
  have hlater := hsorted.sublist (List.drop_sublist gone dates)
  have htail : dates.drop (gone + 1) = (dates.drop gone).tail := List.tail_drop.symm
  have hsub := List.drop_subset gone dates
  rw [hb] at hdrop
  generalize dates.drop gone = left at hdrop hlater htail hleft hsub
  cases hdrop with
  | @cons m _ left' _ hm _ =>
    refine ⟨m, hleft m List.mem_cons_self, hm, hpast m (hsub List.mem_cons_self), dates, heach, hsorted,
      hpast, ?_⟩
    rw [htail]
    exact (List.pairwise_cons.mp hlater).1

/-- The reader misses the next item. -/
theorem Reads.skip (h : Reads sent history log gone n) : Reads sent history log (gone + 1) n := by
  obtain ⟨dates, heach, hsorted, hpast, hleft⟩ := h.dated
  refine ⟨h.past, dates, heach, hsorted, hpast, fun m hm => hleft m ?_⟩
  rw [← List.tail_drop] at hm
  exact List.mem_of_mem_tail hm

end Sponge.Lib
