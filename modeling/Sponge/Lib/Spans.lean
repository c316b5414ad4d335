/-
# `Sponge.Lib.Spans` — lists of items that occupy consecutive ranges.

An item occupies `len b` positions, and the items of a list lie one after the other: item `k` starts at
the total length of the items before it.  `Tagged` says that every item carries the label of its own
start, which is what a sender stamps on its segments and what a receiver of the list can check.
-/
import Mathlib.Algebra.GroupWithZero.Nat
import Mathlib.Tactic.Common

namespace Sponge.Lib

variable {β γ : Type*} {len : β → Nat}

/-- The total length of the items. -/
def span (len : β → Nat) (l : List β) : Nat := (l.map len).sum

@[simp] theorem span_nil : span len [] = 0 := rfl

@[simp] theorem span_cons (b : β) (l : List β) : span len (b :: l) = len b + span len l := rfl

@[simp] theorem span_append (l₁ l₂ : List β) : span len (l₁ ++ l₂) = span len l₁ + span len l₂ := by
  simp [span]

theorem span_take_drop (l : List β) (k : Nat) :
    span len (l.take k) + span len (l.drop k) = span len l := by
  rw [← span_append, List.take_append_drop]

/-- Later items end later. -/
theorem span_take_mono (l : List β) {i j : Nat} (h : i ≤ j) :
    span len (l.take i) ≤ span len (l.take j) := by
  have hsplit := @span_take_drop _ len (l.take j) i
  rw [List.take_take, Nat.min_eq_left h] at hsplit
  omega

/-- Item `k` ends where the first `k + 1` items end. -/
theorem span_take_succ {l : List β} {k : Nat} {b : β} (h : l[k]? = some b) :
    span len (l.take (k + 1)) = span len (l.take k) + len b := by
  rw [List.take_add_one, h, span_append]
  rfl

/-- From position `n` on, each item's tag is the label of the position where it starts. -/
def Tagged (len : β → Nat) (tag : β → γ) (label : Nat → γ) : Nat → List β → Prop
  | _, [] => True
  | n, b :: l => tag b = label n ∧ Tagged len tag label (n + len b) l

variable {tag : β → γ} {label : Nat → γ}

theorem tagged_append {n : Nat} {l₁ l₂ : List β} :
    Tagged len tag label n (l₁ ++ l₂) ↔
      Tagged len tag label n l₁ ∧ Tagged len tag label (n + span len l₁) l₂ := by
  induction l₁ generalizing n with
  | nil => simp [Tagged]
  | cons b l ih =>
    rw [List.cons_append, Tagged, Tagged, ih, span_cons, and_assoc, Nat.add_assoc]

/-- The items from the `k`-th on are tagged from the position where the `k`-th starts. -/
theorem Tagged.drop {n : Nat} {l : List β} (h : Tagged len tag label n l) (k : Nat) :
    Tagged len tag label (n + span len (l.take k)) (l.drop k) := by
  rw [← List.take_append_drop k l] at h
  exact (tagged_append.mp h).2

theorem Tagged.getElem? {n : Nat} {l : List β} (h : Tagged len tag label n l) {k : Nat} {b : β}
    (hb : l[k]? = some b) : tag b = label (n + span len (l.take k)) := by
  have hd := h.drop k
  rw [List.drop_eq_getElem_cons (List.getElem?_eq_some_iff.mp hb).1, Tagged] at hd
  obtain ⟨hk, rfl⟩ := List.getElem?_eq_some_iff.mp hb
  exact hd.1

end Sponge.Lib
