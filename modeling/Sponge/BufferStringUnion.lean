/-
# `Sponge.BufferStringUnion` — a sorted fragment list as a set of indices, and `push_back` as union.

`Sponge.BufferString` computes the list that `push_back` leaves.  This module reads that list as what
it means for reassembly:

* `Stores list n`: some element holds a byte for stream index `n`; `Reaches list n`: some element
  touches the position `n`, ends included (an empty element reaches its own position and stores
  nothing);
* after `push_back` both are the union of what was there and the fragment (`pushBack_union`), the list
  is sorted again, its elements start and end where old elements or the fragment did, and their bytes
  agree with every map that the old elements and the fragment agree with;
* `storedIndices` lists the stored indices; in a sorted list it has no repetition, so `size` counts
  them (`Sorted.size_eq`).
-/
import Sponge.BufferString
import Mathlib.Data.List.Range

namespace Sponge

open Sponge.Lib

namespace BufferStringList

/-! ## Stored indices and reached positions -/

/-- Some element holds a byte for index `n`. -/
def Stores (list : BufferStringList) (n : Nat) : Prop := ∃ b ∈ list, b.first ≤ n ∧ n < b.second

/-- Some element touches position `n`. -/
def Reaches (list : BufferStringList) (n : Nat) : Prop := ∃ b ∈ list, b.first ≤ n ∧ n ≤ b.second

theorem stores_cons {b : BufferString} {l : BufferStringList} {n : Nat} :
    Stores (b :: l) n ↔ (b.first ≤ n ∧ n < b.second) ∨ Stores l n := by
  simp [Stores]

theorem reaches_cons {b : BufferString} {l : BufferStringList} {n : Nat} :
    Reaches (b :: l) n ↔ (b.first ≤ n ∧ n ≤ b.second) ∨ Reaches l n := by
  simp [Reaches]

/-- The indices that hold a byte, element by element. -/
def storedIndices (list : BufferStringList) : List Nat :=
  list.flatMap fun b => List.range' b.first b.target.length

theorem mem_storedIndices {list : BufferStringList} (h : Sorted list) {n : Nat} :
    n ∈ storedIndices list ↔ Stores list n := by
  simp only [storedIndices, List.mem_flatMap, Stores, List.mem_range'_1]
  constructor
  · rintro ⟨b, hb, h1, h2⟩
    exact ⟨b, hb, h1, by rw [(h.fits b hb).second_eq]; exact h2⟩
  · rintro ⟨b, hb, h1, h2⟩
    exact ⟨b, hb, h1, by rw [← (h.fits b hb).second_eq]; exact h2⟩

/-- No index is stored twice. -/
theorem Sorted.nodup {list : BufferStringList} (h : Sorted list) : (storedIndices list).Nodup := by
  induction list with
  | nil => exact List.nodup_nil
  | cons b l ih =>
    obtain ⟨hf, hb, hl⟩ := sorted_cons.mp h
    have hcons : storedIndices (b :: l) = List.range' b.first b.target.length ++ storedIndices l := rfl
    rw [hcons, List.nodup_append]
    refine ⟨List.nodup_range', ih hl, ?_⟩
    rintro n hn m hm rfl
    obtain ⟨c, hc, h1, _⟩ := (mem_storedIndices hl).mp hm
    have h2 := hb c hc
    have h3 := hf.second_eq
    rw [List.mem_range'_1] at hn
    omega

/-- `size()` is the number of stored indices. -/
theorem Sorted.size_eq {list : BufferStringList} (h : Sorted list) :
    size list = (storedIndices list).length := by
  induction list with
  | nil => rfl
  | cons b l ih =>
    obtain ⟨hf, _, hl⟩ := sorted_cons.mp h
    have h1 : size (b :: l) = sub64 b.second b.first + size l := by simp [size]
    have h2 : storedIndices (b :: l) = List.range' b.first b.target.length ++ storedIndices l := rfl
    have h3 := hf.second_eq
    rw [h1, h2, ih hl, List.length_append, List.length_range', sub64_of_le (by omega)]
    omega

/-! ## The element that a fragment and the touched elements become -/

theorem Sorted.append {l₁ l₂ : BufferStringList} (h : Sorted (l₁ ++ l₂)) : Sorted l₁ ∧ Sorted l₂ := by
  obtain ⟨h1, h2, _⟩ := List.pairwise_append.mp h.gap
  exact ⟨⟨fun b hb => h.fits b (by simp [hb]), h1⟩, ⟨fun b hb => h.fits b (by simp [hb]), h2⟩⟩

theorem Sorted.head_le {head : BufferString} {tail : BufferStringList} (h : Sorted (head :: tail)) :
    ∀ b ∈ head :: tail, head.first ≤ b.first := by
  obtain ⟨hf, hb, _⟩ := sorted_cons.mp h
  have hs := hf.second_eq
  intro b hmem
  rcases List.mem_cons.mp hmem with rfl | hmem
  · exact Nat.le_refl _
  · have := hb b hmem
    omega

/-- Two elements are the same one, or one lies strictly before the other. -/
theorem Sorted.ordered_pair {list : BufferStringList} (h : Sorted list) {a b : BufferString}
    (ha : a ∈ list) (hb : b ∈ list) : a = b ∨ a.second < b.first ∨ b.second < a.first := by
  induction list with
  | nil => exact absurd ha (by simp)
  | cons c l ih =>
    obtain ⟨_, hc, hl⟩ := sorted_cons.mp h
    rcases List.mem_cons.mp ha with rfl | ha' <;> rcases List.mem_cons.mp hb with rfl | hb'
    · exact Or.inl rfl
    · exact Or.inr (Or.inl (hc b hb'))
    · exact Or.inr (Or.inr (hc a ha'))
    · exact ih hl ha' hb'

theorem Sorted.le_getLast {list : BufferStringList} (h : Sorted list) (hne : list ≠ []) :
    ∀ b ∈ list, b.second ≤ (list.getLast hne).second := by
  intro b hb
  rw [← List.dropLast_append_getLast hne, List.mem_append] at hb
  rcases hb with hb | hb
  · have hgap := h.gap
    rw [← List.dropLast_append_getLast hne] at hgap
    have h1 := (List.pairwise_append.mp hgap).2.2 b hb _ (List.mem_singleton.mpr rfl)
    have h2 := (h.fits _ (List.getLast_mem hne)).second_eq
    omega
  · rw [List.mem_singleton.mp hb]

section Merged

variable {M : BufferStringList} {index : Nat} {target : Bytes} (eof atEnd : Bool)

/-- The three shapes of the merged element: the fragment itself, the one element that contains it, or
the glued element. -/
theorem merged_cases (hs : Sorted M)
    (hM : ∀ b ∈ M, index ≤ b.second ∧ b.first ≤ index + target.length) :
    (M = [] ∧ merged M index target eof atEnd = BufferString.make index target eof) ∨
    (∃ head, M = [head] ∧ head.first ≤ index ∧ index + target.length ≤ head.second ∧
      merged M index target eof atEnd = head) ∨
    (∃ head last, head ∈ M ∧ last ∈ M ∧ (∀ b ∈ M, head.first ≤ b.first ∧ b.second ≤ last.second) ∧
      ¬ (head.first ≤ index ∧ index + target.length ≤ head.second) ∧
      M.getLast? = some last ∧
      merged M index target eof atEnd =
        { first := min head.first index
          second := max last.second (index + target.length)
          eof := eof || (atEnd && last.eof)
          target := glue head index target last }) := by
  cases M with
  | nil => exact Or.inl ⟨rfl, rfl⟩
  | cons head tail =>
    by_cases hin : head.first ≤ index ∧ index + target.length ≤ head.second
    · refine Or.inr (Or.inl ⟨head, ?_, hin.1, hin.2, by rw [merged, if_pos hin]⟩)
      -- a second touched element would start behind `head`, hence behind the fragment
      suffices htl : tail = [] by rw [htl]
      rw [List.eq_nil_iff_forall_not_mem]
      intro b hb
      have h1 := (hM b (by simp [hb])).2
      have h2 := (sorted_cons.mp hs).2.1 b hb
      omega
    · refine Or.inr (Or.inr ⟨head, (head :: tail).getLast (by simp), by simp, List.getLast_mem _,
        fun b hb => ⟨hs.head_le b hb, hs.le_getLast (by simp) b hb⟩, hin,
        List.getLast?_eq_some_getLast (by simp), by rw [merged, if_neg hin]⟩)

/-- The merged element has a right range, and spans the fragment and every touched element. -/
theorem merged_bounds (hs : Sorted M)
    (hM : ∀ b ∈ M, index ≤ b.second ∧ b.first ≤ index + target.length)
    (hlt : index + target.length < 2 ^ 64) :
    Fits (merged M index target eof atEnd) ∧
    (merged M index target eof atEnd).first ≤ index ∧
    index + target.length ≤ (merged M index target eof atEnd).second ∧
    (∀ b ∈ M, (merged M index target eof atEnd).first ≤ b.first ∧
      b.second ≤ (merged M index target eof atEnd).second) := by
  rcases merged_cases eof atEnd hs hM with
    ⟨rfl, hm⟩ | ⟨head, rfl, h1, h2, hm⟩ | ⟨head, last, hhead, hlast, hspan, _, _, hm⟩
  · have hf := fits_make hlt eof
    rw [hm]
    exact ⟨hf, Nat.le_refl _, Nat.le_of_eq hf.second_eq.symm, by simp⟩
  · rw [hm]
    refine ⟨hs.fits head (by simp), h1, h2, ?_⟩
    intro b hb
    rw [List.mem_singleton.mp hb]
    exact ⟨Nat.le_refl _, Nat.le_refl _⟩
  · have hlen := glue_length (hs.fits head hhead) (hs.fits last hlast) (hM head hhead).1
      (hM last hlast).2
    have hll := (hs.fits last hlast).lt
    rw [hm]
    refine ⟨⟨hlen.symm, ?_⟩, Nat.min_le_right _ _, Nat.le_max_right _ _, ?_⟩
    · dsimp only
      omega
    · intro b hb
      obtain ⟨hb1, hb2⟩ := hspan b hb
      dsimp only
      omega

/-- The merged element starts and ends where the fragment or a touched element did. -/
theorem merged_ends (hs : Sorted M)
    (hM : ∀ b ∈ M, index ≤ b.second ∧ b.first ≤ index + target.length)
    (hlt : index + target.length < 2 ^ 64) :
    ((merged M index target eof atEnd).first = index ∨
      ∃ b ∈ M, (merged M index target eof atEnd).first = b.first) ∧
    ((merged M index target eof atEnd).second = index + target.length ∨
      ∃ b ∈ M, (merged M index target eof atEnd).second = b.second) := by
  rcases merged_cases eof atEnd hs hM with
    ⟨rfl, hm⟩ | ⟨head, rfl, _, _, hm⟩ | ⟨head, last, hhead, hlast, _, _, _, hm⟩
  · rw [hm]
    exact ⟨Or.inl rfl, Or.inl (fits_make hlt eof).second_eq⟩
  · rw [hm]
    exact ⟨Or.inr ⟨head, by simp, rfl⟩, Or.inr ⟨head, by simp, rfl⟩⟩
  · rw [hm]
    dsimp only
    refine ⟨?_, ?_⟩
    · by_cases h : head.first ≤ index
      · exact Or.inr ⟨head, hhead, by omega⟩
      · exact Or.inl (by omega)
    · by_cases h : last.second ≤ index + target.length
      · exact Or.inl (by omega)
      · exact Or.inr ⟨last, hlast, by omega⟩

/-- The merged element covers nothing else: left of the fragment it lies in the first touched element,
right of it in the last one. -/
theorem merged_covers (hs : Sorted M)
    (hM : ∀ b ∈ M, index ≤ b.second ∧ b.first ≤ index + target.length)
    (hlt : index + target.length < 2 ^ 64) (n : Nat) :
    ((merged M index target eof atEnd).first ≤ n ∧ n < (merged M index target eof atEnd).second →
      (index ≤ n ∧ n < index + target.length) ∨ Stores M n) ∧
    ((merged M index target eof atEnd).first ≤ n ∧ n ≤ (merged M index target eof atEnd).second →
      (index ≤ n ∧ n ≤ index + target.length) ∨ Reaches M n) := by
  rcases merged_cases eof atEnd hs hM with
    ⟨rfl, hm⟩ | ⟨head, rfl, _, _, hm⟩ | ⟨head, last, hhead, hlast, _, _, _, hm⟩
  · have hf := (fits_make hlt eof).second_eq
    rw [hm, hf]
    exact ⟨Or.inl, Or.inl⟩
  · rw [hm]
    exact ⟨fun h => Or.inr ⟨head, by simp, h⟩, fun h => Or.inr ⟨head, by simp, h⟩⟩
  · have hh := (hM head hhead).1
    have hl := (hM last hlast).2
    rw [hm]
    dsimp only
    refine ⟨?_, ?_⟩
    · rintro ⟨h1, h2⟩
      by_cases hlo : n < index
      · exact Or.inr ⟨head, hhead, by omega, by omega⟩
      · by_cases hhi : n < index + target.length
        · exact Or.inl ⟨by omega, hhi⟩
        · exact Or.inr ⟨last, hlast, by omega, by omega⟩
    · rintro ⟨h1, h2⟩
      by_cases hlo : n < index
      · exact Or.inr ⟨head, hhead, by omega, by omega⟩
      · by_cases hhi : n ≤ index + target.length
        · exact Or.inl ⟨by omega, hhi⟩
        · exact Or.inr ⟨last, hlast, by omega, by omega⟩

/-- The merged bytes agree with every map that the parts agree with. -/
theorem merged_agrees {f : Nat → Option UInt8} (hs : Sorted M)
    (hM : ∀ b ∈ M, index ≤ b.second ∧ b.first ≤ index + target.length)
    (hf : Agrees f index target) (hfM : ∀ b ∈ M, Agrees f b.first b.target) :
    Agrees f (merged M index target eof atEnd).first (merged M index target eof atEnd).target := by
  rcases merged_cases eof atEnd hs hM with
    ⟨rfl, hm⟩ | ⟨head, rfl, _, _, hm⟩ | ⟨head, last, hhead, hlast, _, _, _, hm⟩
  · rw [hm]
    exact hf
  · rw [hm]
    exact hfM head (by simp)
  · have hh := (hM head hhead).1
    have hl := (hM last hlast).2
    have hhs := (hs.fits head hhead).second_eq
    rw [hm]
    dsimp only
    rw [glue, agrees_append, agrees_append]
    have hlead : min head.first index + (head.target.take (index - head.first)).length = index := by
      rw [List.length_take]
      omega
    refine ⟨⟨?_, ?_⟩, ?_⟩
    · by_cases h : head.first ≤ index
      · rw [show min head.first index = head.first by omega]
        exact (hfM head hhead).take _
      · rw [show index - head.first = 0 by omega, List.take_zero]
        exact Agrees.nil _ _
    · rw [hlead]
      exact hf
    · rw [List.length_append, ← Nat.add_assoc, hlead]
      have hd := (hfM last hlast).drop (index + target.length - last.first)
      rwa [show last.first + (index + target.length - last.first) = index + target.length by omega] at hd

end Merged

/-! ## `push_back` is union -/

/-- **`push_back` on a sorted list is interval union.** No exception; a sorted list again; stored indices
and reached positions are united; starts and ends are old ones or the fragment's; bytes agree with
whatever the parts agree with. -/
theorem pushBack_union {list : BufferStringList} (h : Sorted list) {target : Bytes} {index : Nat}
    (hlt : index + target.length < 2 ^ 64) (eof : Bool) :
    ∃ list', pushBack list target index eof = .ok list' ∧ Sorted list' ∧
      (∀ n, Stores list' n ↔ Stores list n ∨ (index ≤ n ∧ n < index + target.length)) ∧
      (∀ n, Reaches list' n ↔ Reaches list n ∨ (index ≤ n ∧ n ≤ index + target.length)) ∧
      (∀ b ∈ list', b.first = index ∨ ∃ c ∈ list, b.first = c.first) ∧
      (∀ b ∈ list', b.second = index + target.length ∨ ∃ c ∈ list, b.second = c.second) ∧
      (∀ f : Nat → Option UInt8, Agrees f index target →
        (∀ b ∈ list, Agrees f b.first b.target) → ∀ b ∈ list', Agrees f b.first b.target) := by
  obtain ⟨L, M, R, rfl, hL, hM, hR, heq⟩ := pushBack_eq h hlt eof
  have hsM : Sorted M := (h.append.1).append.2
  obtain ⟨hfit, hb1, hb2, hb3⟩ := merged_bounds eof R.isEmpty hsM hM hlt
  obtain ⟨he1, he2⟩ := merged_ends eof R.isEmpty hsM hM hlt
  have hcov := merged_covers eof R.isEmpty hsM hM hlt
  have hag := @merged_agrees M index target eof R.isEmpty
  generalize merged M index target eof R.isEmpty = m at *
  have hsep : ∀ a ∈ L ++ M, ∀ b ∈ R, a.second < b.first := (List.pairwise_append.mp h.gap).2.2
  have hLM : ∀ a ∈ L, ∀ b ∈ M, a.second < b.first :=
    (List.pairwise_append.mp (List.pairwise_append.mp h.gap).1).2.2
  have hLm : ∀ b ∈ L, b.second < m.first := by
    intro b hb
    rcases he1 with he | ⟨c, hc, he⟩
    · rw [he]
      exact hL b hb
    · rw [he]
      exact hLM b hb c hc
  have hmR : ∀ b ∈ R, m.second < b.first := by
    intro b hb
    rcases he2 with he | ⟨c, hc, he⟩
    · rw [he]
      exact hR b hb
    · rw [he]
      exact hsep c (List.mem_append_right _ hc) b hb
  refine ⟨L ++ m :: R, heq, ⟨forall_mem_replace h.fits hfit, ?_⟩, fun n => ?_, fun n => ?_, ?_, ?_, ?_⟩
  · have hms := hfit.second_eq
    exact (h.separated.replace (m := m) (by omega) hLm hmR).gap
  · -- the merged element stores what the touched ones stored, and the fragment
    refine exists_mem_replace ⟨fun hn => ((hcov n).1 hn).symm, ?_⟩
    rintro (⟨b, hb, h1, h2⟩ | ⟨h1, h2⟩)
    · have := hb3 b hb
      omega
    · omega
  · refine exists_mem_replace ⟨fun hn => ((hcov n).2 hn).symm, ?_⟩
    rintro (⟨b, hb, h1, h2⟩ | ⟨h1, h2⟩)
    · have := hb3 b hb
      omega
    · omega
  · refine forall_mem_replace (fun b hb => Or.inr ⟨b, hb, rfl⟩) (he1.imp_right ?_)
    rintro ⟨c, hc, he⟩
    exact ⟨c, by simp [hc], he⟩
  · refine forall_mem_replace (fun b hb => Or.inr ⟨b, hb, rfl⟩) (he2.imp_right ?_)
    rintro ⟨c, hc, he⟩
    exact ⟨c, by simp [hc], he⟩
  · intro f hf hfl
    exact forall_mem_replace hfl (hag hsM hM hf fun c hc => hfl c (by simp [hc]))

/-! ## Honest content -/

/-- The elements are fragments of the partial map `f`, and an end mark stands only on an element that
ends at the end index `fin`, if that is known. -/
structure Content (f : Nat → Option UInt8) (fin : Option Nat) (list : BufferStringList) : Prop where
  agrees : ∀ b ∈ list, Agrees f b.first b.target
  mark : ∀ b ∈ list, b.eof = true → fin = some b.second

/-- A known end index is the end of the map. -/
def EndsAt (f : Nat → Option UInt8) (fin : Option Nat) : Prop :=
  ∀ e, fin = some e → ∀ n, e ≤ n → f n = none

theorem Content.nil (f : Nat → Option UInt8) (fin : Option Nat) : Content f fin [] :=
  ⟨by simp, by simp⟩

/-- **`push_back` keeps honest content.** Neither side of a merge can reach past an end index that the
other side is marked with, because the map has no value there. -/
theorem Content.pushBack {f : Nat → Option UInt8} {fin : Option Nat} {list list' : BufferStringList}
    (hc : Content f fin list) (h : Sorted list) {target : Bytes} {index : Nat} {eof : Bool}
    (hlt : index + target.length < 2 ^ 64) (hend : EndsAt f fin) (hf : Agrees f index target)
    (heof : eof = true → fin = some (index + target.length))
    (heq : pushBack list target index eof = .ok list') : Content f fin list' := by
  refine ⟨?_, ?_⟩
  · obtain ⟨l, hl, _, _, _, _, _, hag⟩ := pushBack_union h hlt eof
    obtain rfl : l = list' := Except.ok.inj (hl.symm.trans heq)
    exact hag f hf hc.agrees
  · obtain ⟨L, M, R, rfl, _, hM, _, heq'⟩ := pushBack_eq h hlt eof
    obtain rfl : L ++ merged M index target eof R.isEmpty :: R = list' :=
      Except.ok.inj (heq'.symm.trans heq)
    intro b hb hbe
    simp only [List.mem_append, List.mem_cons] at hb
    rcases hb with hb | rfl | hb
    · exact hc.mark b (by simp [hb]) hbe
    · rcases merged_cases eof R.isEmpty (h.append.1).append.2 hM with
        ⟨rfl, hm⟩ | ⟨head, rfl, _, _, hm⟩ | ⟨head, last, hhead, hlast, _, _, _, hm⟩
      · rw [hm] at hbe ⊢
        rw [(fits_make hlt eof).second_eq]
        exact heof hbe
      · rw [hm] at hbe ⊢
        exact hc.mark head (by simp) hbe
      · have hlastFits := h.fits last (by simp [hlast])
        have hlf := hlastFits.second_eq
        have htouch := hM last hlast
        rw [hm] at hbe ⊢
        simp only [Bool.or_eq_true, Bool.and_eq_true] at hbe ⊢
        rcases hbe with he | ⟨_, he⟩
        · have hfin := heof he
          have hle := (hc.agrees last (by simp [hlast])).end_le (hend _ hfin _ (Nat.le_refl _)) htouch.2
          rw [hfin, show max last.second (index + target.length) = index + target.length by omega]
        · have hfin := hc.mark last (by simp [hlast]) he
          have hle := hf.end_le (hend _ hfin _ (Nat.le_refl _)) htouch.1
          rw [hfin, show max last.second (index + target.length) = last.second by omega]
    · exact hc.mark b (by simp [hb]) hbe

end BufferStringList

end Sponge
