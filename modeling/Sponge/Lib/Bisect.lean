/-
# `Sponge.Lib.Bisect` — binary search for a partition point.

`bisect p n` is the halving loop of a standard-library `lower_bound` on the positions `0 … n-1`: it
keeps a start and a length, probes the middle, and moves right exactly when `p` holds there.  On a
predicate that holds on an initial segment and nowhere after it the result is the length of that
segment (`bisect_spec`); on any other predicate the loop still returns a position `≤ n`, which is all
an unsorted input promises.  `bisectList` is the same search over the elements of a list.
-/
import Mathlib.Data.List.TakeWhile

namespace Sponge.Lib

/-- One probe per unit of fuel; `len` shrinks at every probe, so `fuel = len` is enough. -/
def bisectLoop (p : Nat → Bool) : Nat → Nat → Nat → Nat
  | 0, first, _ => first
  | fuel + 1, first, len =>
    if len = 0 then first
    else if p (first + len / 2) then bisectLoop p fuel (first + len / 2 + 1) (len - len / 2 - 1)
    else bisectLoop p fuel first (len / 2)

/-- The halving search over the positions `0 … n-1`. -/
def bisect (p : Nat → Bool) (n : Nat) : Nat := bisectLoop p n 0 n

variable {p : Nat → Bool}

/-- On a predicate with partition point `k`, the loop finds `k` whenever `k` lies in its interval:
the interval keeps containing `k` because each probe compares the middle with `k`. -/
theorem bisectLoop_eq {k : Nat} (fuel first len : Nat) (hfuel : len ≤ fuel)
    (hk1 : first ≤ k) (hk2 : k ≤ first + len)
    (hp : ∀ i, first ≤ i → i < first + len → (p i = true ↔ i < k)) :
    bisectLoop p fuel first len = k := by
  induction fuel generalizing first len with
  | zero =>
    rw [bisectLoop]
    omega
  | succ fuel ih =>
    rw [bisectLoop]
    split
    · omega
    · rename_i hlen
      have hmid := hp (first + len / 2) (by omega) (by omega)
      split
      · rename_i hpm
        have hlt : first + len / 2 < k := hmid.mp hpm
        apply ih
        · omega
        · omega
        · omega
        · intro i hi1 hi2
          exact hp i (by omega) (by omega)
      · rename_i hpm
        have hge : ¬ first + len / 2 < k := fun h => hpm (hmid.mpr h)
        apply ih
        · omega
        · omega
        · omega
        · intro i hi1 hi2
          exact hp i (by omega) (by omega)

/-- **Partition point.** If `p` holds exactly below `k ≤ n`, the search returns `k`. -/
theorem bisect_spec {k n : Nat} (hk : k ≤ n) (hp : ∀ i, i < n → (p i = true ↔ i < k)) :
    bisect p n = k :=
  bisectLoop_eq n 0 n (Nat.le_refl n) (Nat.zero_le k) (by omega) fun i _ hi => hp i (by omega)

/-! ## Searching a list -/

section List

variable {β : Type*}

/-- The search over a list, for a test `q` on its elements. -/
def bisectList (q : β → Bool) (l : List β) : Nat := bisect (fun i => (l[i]?).any q) l.length

/-- **Cutting a list.** If `q` cannot hold after it has failed, the search cuts the list into a part
where `q` holds and a part where it fails. -/
theorem bisectList_spec {q : β → Bool} {l : List β} (h : l.Pairwise fun a b => q b = true → q a = true) :
    bisectList q l = (l.takeWhile q).length ∧
    (∀ b ∈ l.takeWhile q, q b = true) ∧ (∀ b ∈ l.dropWhile q, q b = false) := by
  have hdrop : ∀ b ∈ l.dropWhile q, q b = false := by
    induction l with
    | nil => simp
    | cons a l ih =>
      obtain ⟨ha, hl⟩ := List.pairwise_cons.mp h
      by_cases hq : q a = true
      · rw [List.dropWhile_cons_of_pos hq]
        exact ih hl
      · rw [List.dropWhile_cons_of_neg hq]
        intro b hb
        rcases List.mem_cons.mp hb with rfl | hb
        · exact eq_false_of_ne_true hq
        · exact eq_false_of_ne_true fun hqb => hq (ha b hb hqb)
  refine ⟨?_, fun b hb => List.mem_takeWhile_imp hb, hdrop⟩
  have hsplit : l = l.takeWhile q ++ l.dropWhile q := List.takeWhile_append_dropWhile.symm
  have hlen : l.length = (l.takeWhile q).length + (l.dropWhile q).length := by
    rw [← List.length_append, ← hsplit]
  apply bisect_spec (by omega)
  intro i hi
  rw [List.getElem?_eq_getElem hi, Option.any_some]
  constructor
  · intro hq
    by_contra hge
    have hmem : l[i] ∈ l.dropWhile q := by
      have hg : (l.takeWhile q ++ l.dropWhile q)[i]? = some l[i] := by
        rw [← hsplit, List.getElem?_eq_getElem hi]
      rw [List.getElem?_append_right (by omega)] at hg
      exact List.mem_of_getElem? hg
    rw [hdrop _ hmem] at hq
    exact Bool.false_ne_true hq
  · intro hlt
    have hg : (l.takeWhile q ++ l.dropWhile q)[i]? = some l[i] := by
      rw [← hsplit, List.getElem?_eq_getElem hi]
    rw [List.getElem?_append_left hlt] at hg
    exact List.mem_takeWhile_imp (List.mem_of_getElem? hg)

end List

end Sponge.Lib
