/-
# `Sponge.Lib.Fragments` — fragments of a partial map, and separated lists of intervals.

Two small theories that meet in every reassembly buffer.

* A *fragment* is a list of values with a start index.  `Agrees f start data` says that the partial map
  `f` gives exactly those values at those indices, so consistency of many overlapping fragments is
  agreement of each one with a single map, and cutting or concatenating fragments is arithmetic on
  start indices.
* `Separated lo hi l` says that the intervals `[lo b, hi b]` of a list are in order and do not touch.
  Such a list is cut by an interval `[x, y]` into the part left of it, the part it touches, and the
  part right of it (`Separated.split`); replacing the middle part by one interval that spans it and
  `[x, y]` keeps the list separated (`Separated.replace`).
-/
import Mathlib.Tactic.Common
import Sponge.Lib.Bisect

namespace Sponge.Lib

/-! ## Fragments -/

section Fragment

variable {α : Type*} {f g : Nat → Option α}

/-- The values `data`, placed at `start`, are the values of `f`. -/
def Agrees (f : Nat → Option α) (start : Nat) (data : List α) : Prop :=
  ∀ t, t < data.length → f (start + t) = data[t]?

theorem Agrees.nil (f : Nat → Option α) (start : Nat) : Agrees f start [] :=
  fun t ht => absurd ht (by simp)

theorem agrees_append {start : Nat} {a b : List α} :
    Agrees f start (a ++ b) ↔ Agrees f start a ∧ Agrees f (start + a.length) b := by
  constructor
  · intro h
    refine ⟨fun t ht => ?_, fun t ht => ?_⟩
    · rw [h t (by rw [List.length_append]; omega), List.getElem?_append_left ht]
    · rw [Nat.add_assoc, h (a.length + t) (by rw [List.length_append]; omega),
        List.getElem?_append_right (by omega), Nat.add_sub_cancel_left]
  · rintro ⟨ha, hb⟩ t ht
    rw [List.length_append] at ht
    by_cases h : t < a.length
    · rw [ha t h, List.getElem?_append_left h]
    · rw [show start + t = start + a.length + (t - a.length) by omega, hb _ (by omega),
        List.getElem?_append_right (by omega)]

theorem Agrees.take {start : Nat} {data : List α} (h : Agrees f start data) (n : Nat) :
    Agrees f start (data.take n) := by
  rw [← List.take_append_drop n data] at h
  exact (agrees_append.mp h).1

theorem Agrees.drop {start : Nat} {data : List α} (h : Agrees f start data) (n : Nat) :
    Agrees f (start + n) (data.drop n) := by
  intro t ht
  rw [List.length_drop] at ht
  rw [Nat.add_assoc, h (n + t) (by omega), List.getElem?_drop]

/-- Agreement survives extending the map. -/
theorem Agrees.mono {start : Nat} {data : List α} (h : Agrees f start data)
    (hfg : ∀ i a, f i = some a → g i = some a) : Agrees g start data := by
  intro t ht
  have hf := h t ht
  rw [List.getElem?_eq_getElem ht] at hf ⊢
  exact hfg _ _ hf

/-- A fragment that starts at or before an index without a value ends there at the latest. -/
theorem Agrees.end_le {start e : Nat} {data : List α} (h : Agrees f start data) (he : f e = none)
    (hle : start ≤ e) : start + data.length ≤ e := by
  by_contra hlt
  have hv := h (e - start) (by omega)
  rw [show start + (e - start) = e by omega, he, List.getElem?_eq_getElem (by omega)] at hv
  exact absurd hv (by simp)

/-- The map of a list that is placed at `base`. -/
def placed (base : Nat) (s : List α) (i : Nat) : Option α :=
  if i < base then none else s[i - base]?

/-- A slice of a list agrees with the placed list. -/
theorem agrees_slice (base : Nat) (s : List α) (k n : Nat) :
    Agrees (placed base s) (base + k) ((s.drop k).take n) := by
  intro t ht
  rw [List.length_take, List.length_drop] at ht
  rw [placed, if_neg (by omega), List.getElem?_take_of_lt (by omega), List.getElem?_drop]
  congr 1
  omega

/-- Values that agree with a placed list from its base on are a prefix of it. -/
theorem Agrees.eq_take {base : Nat} {s data : List α} (h : Agrees (placed base s) base data) :
    data = s.take data.length ∧ data.length ≤ s.length := by
  have hle : data.length ≤ s.length := by
    by_contra hlt
    have hs := h s.length (by omega)
    rw [placed, if_neg (by omega), Nat.add_sub_cancel_left, List.getElem?_eq_none (Nat.le_refl _),
      List.getElem?_eq_getElem (by omega)] at hs
    exact absurd hs (by simp)
  refine ⟨?_, hle⟩
  apply List.ext_getElem?
  intro i
  by_cases hi : i < data.length
  · have hs := h i hi
    rw [placed, if_neg (by omega), Nat.add_sub_cancel_left] at hs
    rw [← hs, List.getElem?_take_of_lt hi]
  · rw [List.getElem?_eq_none (by omega), List.getElem?_eq_none (by rw [List.length_take]; omega)]

end Fragment

/-! ## Separated lists of intervals -/

section Intervals

variable {β : Type*} {lo hi : β → Nat}

/-- The intervals `[lo b, hi b]` are in order, and a gap separates any two of them. -/
structure Separated (lo hi : β → Nat) (l : List β) : Prop where
  le : ∀ b ∈ l, lo b ≤ hi b
  gap : l.Pairwise fun a b => hi a < lo b

theorem separated_cons {b : β} {l : List β} :
    Separated lo hi (b :: l) ↔ lo b ≤ hi b ∧ (∀ c ∈ l, hi b < lo c) ∧ Separated lo hi l := by
  constructor
  · intro h
    obtain ⟨hb, hl⟩ := List.pairwise_cons.mp h.gap
    exact ⟨h.le b (by simp), hb, ⟨fun c hc => h.le c (by simp [hc]), hl⟩⟩
  · rintro ⟨hle, hb, hl⟩
    refine ⟨fun c hc => ?_, List.pairwise_cons.mpr ⟨hb, hl.gap⟩⟩
    rcases List.mem_cons.mp hc with rfl | hc
    · exact hle
    · exact hl.le c hc

theorem separated_append {l₁ l₂ : List β} :
    Separated lo hi (l₁ ++ l₂) ↔
      Separated lo hi l₁ ∧ Separated lo hi l₂ ∧ ∀ a ∈ l₁, ∀ b ∈ l₂, hi a < lo b := by
  constructor
  · intro h
    obtain ⟨h1, h2, h12⟩ := List.pairwise_append.mp h.gap
    exact ⟨⟨fun b hb => h.le b (by simp [hb]), h1⟩, ⟨fun b hb => h.le b (by simp [hb]), h2⟩, h12⟩
  · rintro ⟨h1, h2, h12⟩
    refine ⟨fun b hb => ?_, List.pairwise_append.mpr ⟨h1.gap, h2.gap, h12⟩⟩
    rcases List.mem_append.mp hb with hb | hb
    · exact h1.le b hb
    · exact h2.le b hb

/-- **Three-way cut.** The two searches for an interval `[x, y]` cut a separated list into the
intervals that end before `x`, those that touch `[x, y]`, and those that start after `y`. -/
theorem Separated.split {l : List β} (h : Separated lo hi l) {x y : Nat} (hxy : x ≤ y) :
    ∃ L M R, l = L ++ M ++ R ∧
      bisectList (fun b => decide (x > hi b)) l = L.length ∧
      bisectList (fun b => !decide (y < lo b)) l = L.length + M.length ∧
      (∀ b ∈ L, hi b < x) ∧ (∀ b ∈ M, x ≤ hi b ∧ lo b ≤ y) ∧ (∀ b ∈ R, y < lo b) := by
  have hordLo : l.Pairwise fun a b => decide (x > hi b) = true → decide (x > hi a) = true := by
    refine (List.Pairwise.and_mem.mp h.gap).imp ?_
    rintro a b ⟨_, hb, hab⟩ hx
    have hble := h.le b hb
    simp only [decide_eq_true_eq] at hx ⊢
    omega
  have hordHi : l.Pairwise fun a b => (!decide (y < lo b)) = true → (!decide (y < lo a)) = true := by
    refine (List.Pairwise.and_mem.mp h.gap).imp ?_
    rintro a b ⟨ha, _, hab⟩ hy
    have hale := h.le a ha
    simp only [Bool.not_eq_true', decide_eq_false_iff_not] at hy ⊢
    omega
  obtain ⟨hlen1, hL, hLR⟩ := bisectList_spec hordLo
  obtain ⟨hlen2, hM, hR⟩ := bisectList_spec hordHi
  have hcuts : l.takeWhile (fun b => decide (x > hi b)) ++ l.dropWhile (fun b => decide (x > hi b))
      = l.takeWhile (fun b => !decide (y < lo b)) ++ l.dropWhile fun b => !decide (y < lo b) := by
    rw [List.takeWhile_append_dropWhile, List.takeWhile_append_dropWhile]
  have hl : l = l.takeWhile (fun b => decide (x > hi b)) ++ l.dropWhile fun b => decide (x > hi b) :=
    List.takeWhile_append_dropWhile.symm
  generalize l.takeWhile (fun b => decide (x > hi b)) = L at hl hcuts hlen1 hL
  generalize l.dropWhile (fun b => decide (x > hi b)) = B at hl hcuts hLR
  generalize l.takeWhile (fun b => !decide (y < lo b)) = A at hcuts hlen2 hM
  generalize l.dropWhile (fun b => !decide (y < lo b)) = R at hcuts hR
  -- the left cut is inside the right one: what is left of `x` does not start after `y`
  obtain ⟨M, rfl, rfl⟩ : ∃ M, A = L ++ M ∧ B = M ++ R := by
    rcases List.append_eq_append_iff.mp hcuts with hinside | ⟨M, rfl, rfl⟩
    · exact hinside
    · suffices hnil : M = [] by
        subst hnil
        exact ⟨[], by simp, by simp⟩
      refine List.eq_nil_iff_forall_not_mem.mpr fun b hb => ?_
      have h1 := hL b (List.mem_append_right _ hb)
      have h2 := hR b (List.mem_append_left _ hb)
      have h3 := h.le b (by simp [hl, hb])
      simp only [decide_eq_true_eq, Bool.not_eq_false', decide_eq_true_eq] at h1 h2
      omega
  refine ⟨L, M, R, by rw [hl, List.append_assoc], hlen1, by rw [hlen2, List.length_append], ?_, ?_, ?_⟩
  · intro b hb
    simpa using hL b hb
  · intro b hb
    have h1 := hLR b (List.mem_append_left _ hb)
    have h2 := hM b (List.mem_append_right _ hb)
    simp only [decide_eq_false_iff_not, Bool.not_eq_true'] at h1 h2
    omega
  · intro b hb
    simpa using hR b hb

/-- **Replacing the touched part.** One interval that stays clear of both outer parts may stand in for
the touched intervals. -/
theorem Separated.replace {L M R : List β} (h : Separated lo hi (L ++ M ++ R)) {m : β}
    (hm : lo m ≤ hi m) (hL : ∀ b ∈ L, hi b < lo m) (hR : ∀ b ∈ R, hi m < lo b) :
    Separated lo hi (L ++ m :: R) := by
  obtain ⟨hLM, hRs, hLMR⟩ := separated_append.mp h
  obtain ⟨hLs, _, _⟩ := separated_append.mp hLM
  refine separated_append.mpr ⟨hLs, separated_cons.mpr ⟨hm, hR, hRs⟩, ?_⟩
  intro a ha b hb
  rcases List.mem_cons.mp hb with rfl | hb
  · exact hL a ha
  · exact hLMR a (List.mem_append_left _ ha) b hb

end Intervals

/-! ## Replacing a part of a list by one item -/

section Replace

variable {L M R : List β} {m : β} {P : β → Prop}

theorem forall_mem_replace (h : ∀ b ∈ L ++ M ++ R, P b) (hm : P m) : ∀ b ∈ L ++ m :: R, P b := by
  intro b hb
  simp only [List.mem_append, List.mem_cons] at hb
  rcases hb with hb | rfl | hb
  · exact h b (by simp [hb])
  · exact hm
  · exact h b (by simp [hb])

/-- If the new item does what the replaced ones did, and `Q` besides, then so does the list. -/
theorem exists_mem_replace {Q : Prop} (hm : P m ↔ (∃ b ∈ M, P b) ∨ Q) :
    (∃ b ∈ L ++ m :: R, P b) ↔ (∃ b ∈ L ++ M ++ R, P b) ∨ Q := by
  simp only [List.mem_append, List.mem_cons, or_and_right, exists_or, exists_eq_left, hm, or_assoc]
  exact or_congr_right (or_congr_right or_comm)

end Replace

end Sponge.Lib
