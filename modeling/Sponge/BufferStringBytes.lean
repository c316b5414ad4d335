/-
# `Sponge.BufferStringBytes` — which byte a fragment list holds at an index.

`Sponge.BufferStringUnion` says which indices `push_back` covers and, for fragments of one stream, that the
bytes are those of the stream.  Nothing makes a peer's fragments agree with each other, so this module says
what happens to the bytes when they do not: `byteAt` looks an index up, and after `push_back` every covered
index holds the fragment's byte or the byte it held before.  Which of the two, for an index covered by both,
depends on the shape of the overlap: a fragment inside one element is dropped, any other one overwrites.
-/
import Sponge.BufferStringUnion
import Mathlib.Data.Set.Card

namespace Sponge

open Sponge.Lib

namespace BufferStringList

/-- The indices for which a list holds a byte. -/
def covered (list : BufferStringList) : Set Nat := { n | Stores list n }

/-- The byte that a list holds for index `n`. -/
def byteAt (list : BufferStringList) (n : Nat) : Option UInt8 :=
  (list.find? fun b => decide (b.first ≤ n) && decide (n < b.second)).bind fun b => b.target[n - b.first]?

variable {list : BufferStringList} {b : BufferString} {n : Nat}

/-- In a sorted list the element that covers an index is the only one. -/
theorem Sorted.byteAt_eq (h : Sorted list) (hb : b ∈ list) (h1 : b.first ≤ n) (h2 : n < b.second) :
    byteAt list n = b.target[n - b.first]? := by
  have hsome : (list.find? fun b => decide (b.first ≤ n) && decide (n < b.second)).isSome = true := by
    rw [List.find?_isSome]
    exact ⟨b, hb, by simp [h1, h2]⟩
  obtain ⟨c, hc⟩ := Option.isSome_iff_exists.mp hsome
  have hcov := List.find?_some hc
  simp only [Bool.and_eq_true, decide_eq_true_eq] at hcov
  have hcb : c = b := by
    rcases h.ordered_pair (List.mem_of_find?_eq_some hc) hb with heq | hlt | hlt
    · exact heq
    · omega
    · omega
  rw [byteAt, hc, hcb]
  rfl

/-- A covered index holds a byte. -/
theorem Fits.byte_some (h : Fits b) (h1 : b.first ≤ n) (h2 : n < b.second) :
    ∃ x, b.target[n - b.first]? = some x := by
  have hs := h.second_eq
  exact ⟨_, List.getElem?_eq_getElem (by omega)⟩

/-- `size()` counts the covered indices. -/
theorem Sorted.size_eq_ncard (h : Sorted list) : size list = (covered list).ncard := by
  have hset : covered list = ((storedIndices list).toFinset : Set Nat) := by
    ext n
    rw [List.coe_toFinset, Set.mem_ofPred_eq, mem_storedIndices h]
    rfl
  rw [h.size_eq, hset, Set.ncard_coe_finset, List.toFinset_card_of_nodup h.nodup]

section Merged

variable {M : BufferStringList} {index : Nat} {target : Bytes} (eof atEnd : Bool)

/-- The glued string, read at an index: the fragment inside its own range, the first touched element before
it, the last one behind it. -/
theorem glue_getElem? {head last : BufferString} (hhead : Fits head) (h1 : index ≤ head.second)
    (h2 : last.first ≤ index + target.length) (hn : min head.first index ≤ n) :
    (glue head index target last)[n - min head.first index]? =
      if n < index then head.target[n - head.first]?
      else if n < index + target.length then target[n - index]?
      else last.target[n - last.first]? := by
  have hh := hhead.second_eq
  have hlead : (head.target.take (index - head.first)).length = index - head.first := by
    rw [List.length_take]
    omega
  rw [glue, List.append_assoc]
  by_cases hbefore : n < index
  · rw [if_pos hbefore, List.getElem?_append_left (by omega), List.getElem?_take_of_lt (by omega),
      show min head.first index = head.first by omega]
  · rw [if_neg hbefore, List.getElem?_append_right (by omega), hlead]
    by_cases hinside : n < index + target.length
    · rw [if_pos hinside, List.getElem?_append_left (by omega)]
      congr 1
      omega
    · rw [if_neg hinside, List.getElem?_append_right (by omega), List.getElem?_drop]
      congr 1
      omega

/-- Every byte of the merged element is the fragment's or that of a touched element at the same index. -/
theorem merged_byte (hs : Sorted M)
    (hM : ∀ b ∈ M, index ≤ b.second ∧ b.first ≤ index + target.length)
    (hlt : index + target.length < 2 ^ 64) (h1 : (merged M index target eof atEnd).first ≤ n)
    (h2 : n < (merged M index target eof atEnd).second) :
    (index ≤ n ∧ n < index + target.length ∧
      (merged M index target eof atEnd).target[n - (merged M index target eof atEnd).first]?
        = target[n - index]?) ∨
    ∃ b ∈ M, b.first ≤ n ∧ n < b.second ∧
      (merged M index target eof atEnd).target[n - (merged M index target eof atEnd).first]?
        = b.target[n - b.first]? := by
  rcases merged_cases eof atEnd hs hM with
    ⟨rfl, hm⟩ | ⟨head, rfl, _, _, hm⟩ | ⟨head, last, hhead, hlast, _, _, _, hm⟩
  · have hsecond := (fits_make hlt eof).second_eq
    rw [hm] at h1 h2 ⊢
    rw [hsecond] at h2
    exact Or.inl ⟨h1, h2, rfl⟩
  · rw [hm] at h1 h2 ⊢
    exact Or.inr ⟨head, by simp, h1, h2, rfl⟩
  · have hh := (hM head hhead).1
    have hl := (hM last hlast).2
    rw [hm] at h1 h2 ⊢
    dsimp only at h1 h2 ⊢
    rw [glue_getElem? (hs.fits head hhead) hh hl h1]
    by_cases hbefore : n < index
    · rw [if_pos hbefore]
      exact Or.inr ⟨head, hhead, by omega, by omega, rfl⟩
    · rw [if_neg hbefore]
      by_cases hinside : n < index + target.length
      · rw [if_pos hinside]
        exact Or.inl ⟨by omega, hinside, rfl⟩
      · rw [if_neg hinside]
        exact Or.inr ⟨last, hlast, by omega, by omega, rfl⟩

end Merged

/-- **`push_back` is interval union.**  On a sorted list of separated elements, for a fragment inside the
64-bit index space: it returns a list of the same kind, which covers what the old one covered and the
fragment; every covered index holds the fragment's byte or, in any case outside the fragment, the old byte;
and `size()` is the number of covered indices. -/
theorem pushBack_interval_union (h : Sorted list) {target : Bytes} {index : Nat}
    (hlt : index + target.length < 2 ^ 64) (eof : Bool) :
    ∃ list', pushBack list target index eof = .ok list' ∧ Sorted list' ∧
      covered list' = covered list ∪ Set.Ico index (index + target.length) ∧
      (∀ n ∈ covered list', ∃ x, byteAt list' n = some x ∧
        ((n ∈ Set.Ico index (index + target.length) ∧ target[n - index]? = some x) ∨
          byteAt list n = some x)) ∧
      size list' = (covered list').ncard := by
  obtain ⟨list', heq, hs', hst, -⟩ := pushBack_union h hlt eof
  refine ⟨list', heq, hs', Set.ext hst, ?_, hs'.size_eq_ncard⟩
  rintro n ⟨b, hb, h1, h2⟩
  obtain ⟨x, hx⟩ := (hs'.fits b hb).byte_some h1 h2
  refine ⟨x, (hs'.byteAt_eq hb h1 h2).trans hx, ?_⟩
  obtain ⟨L, M, R, rfl, -, hM, -, heq'⟩ := pushBack_eq h hlt eof
  obtain rfl : L ++ merged M index target eof R.isEmpty :: R = list' := Except.ok.inj (heq'.symm.trans heq)
  -- an element that was there before, or the merged one
  have hold : b ∈ L ++ M ++ R → byteAt (L ++ M ++ R) n = some x := fun hmem =>
    (h.byteAt_eq hmem h1 h2).trans hx
  simp only [List.mem_append, List.mem_cons] at hb
  rcases hb with hb | rfl | hb
  · exact Or.inr (hold (by simp [hb]))
  · rcases merged_byte eof R.isEmpty (h.append.1).append.2 hM hlt h1 h2 with
      ⟨hlo, hhi, hbyte⟩ | ⟨c, hc, hlo, hhi, hbyte⟩
    · exact Or.inl ⟨⟨hlo, hhi⟩, hbyte.symm.trans hx⟩
    · exact Or.inr ((h.byteAt_eq (by simp [hc]) hlo hhi).trans (hbyte.symm.trans hx))
  · exact Or.inr (hold (by simp [hb]))

/-- `XYZ` at 1 into `ab` at 0 and `cd` at 4: the fragment overwrites the `b` and closes the gap. -/
theorem pushBack_interval_union_overlap :
    ∃ list', pushBack [.make 0 [97, 98] false, .make 4 [99, 100] false] [88, 89, 90] 1 false = .ok list' ∧
      (∀ n ∈ covered list', ∃ x, byteAt list' n = some x ∧
        ((n ∈ Set.Ico 1 4 ∧ [88, 89, 90][n - 1]? = some x) ∨
          byteAt [.make 0 [97, 98] false, .make 4 [99, 100] false] n = some x)) ∧
      list' = [.make 0 [97, 88, 89, 90, 99, 100] false] := by
  have hsorted : Sorted [.make 0 [97, 98] false, .make 4 [99, 100] false] :=
    sorted_cons.mpr ⟨fits_make (by decide) false, by simp [BufferString.make, add64],
      sorted_cons.mpr ⟨fits_make (by decide) false, by simp, Sorted.nil⟩⟩
  obtain ⟨list', heq, -, -, hbytes, -⟩ :=
    pushBack_interval_union hsorted (show 1 + ([88, 89, 90] : Bytes).length < 2 ^ 64 by decide) false
  refine ⟨list', heq, hbytes, Except.ok.inj (heq.symm.trans ?_)⟩
  decide +kernel

end BufferStringList

end Sponge
