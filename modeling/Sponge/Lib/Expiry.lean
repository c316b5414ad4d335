/-
# `Sponge.Lib.Expiry` — facts that are forgotten some time after they were learned.

A history lists what was learned about keys, oldest first, with the time of each lesson.  A fact is
`current` while no more than `ttl` has passed since the LATEST lesson about its key.  An implementation
keeps the current facts in a map and, to find what to forget, a queue of expiry times.  `Expiring` says
that a queue is right for a history: sorted, at most one entry for a key, and an entry exactly for what is
current.  It survives a lesson (`Expiring.learn`: drop the key's entry, append a new one) and the passing
of time (`Expiring.advance`: drop the entries in front that are overdue).
-/
import Mathlib.Data.List.Basic
import Mathlib.Data.List.Nodup
import Mathlib.Tactic.Common

namespace Sponge.Lib

universe u v

variable {κ : Type u} {ν : Type v} [DecidableEq κ]

/-- The latest lesson about a key: the value and the time. -/
def latest (history : List (κ × ν × Nat)) (k : κ) : Option (ν × Nat) :=
  (history.reverse.find? fun lesson => lesson.1 = k).map Prod.snd

/-- What is known about a key at time `now`. -/
def current (ttl now : Nat) (history : List (κ × ν × Nat)) (k : κ) : Option ν :=
  match latest history k with
  | some (value, time) => if now ≤ time + ttl then some value else none
  | none => none

variable {ttl now : Nat} {history : List (κ × ν × Nat)} {queue : List (Nat × κ)}

@[simp] theorem latest_nil (k : κ) : latest ([] : List (κ × ν × Nat)) k = none := rfl

theorem latest_learn (history : List (κ × ν × Nat)) (k : κ) (value : ν) (time : Nat) (k' : κ) :
    latest (history ++ [(k, value, time)]) k' = if k = k' then some (value, time) else latest history k' := by
  rw [latest, List.reverse_append, List.reverse_singleton, List.singleton_append, List.find?_cons]
  by_cases h : k = k'
  · simp [h]
  · simp [h, latest]

theorem current_learn (ttl now : Nat) (history : List (κ × ν × Nat)) (k : κ) (value : ν) (k' : κ) :
    current ttl now (history ++ [(k, value, now)]) k'
      = if k = k' then some value else current ttl now history k' := by
  rw [current, latest_learn]
  by_cases h : k = k'
  · rw [if_pos h, if_pos h]
    exact if_pos (Nat.le_add_right _ _)
  · rw [if_neg h, if_neg h]
    rfl

theorem latest_mem {k : κ} {value : ν} {time : Nat} (h : latest history k = some (value, time)) :
    (k, value, time) ∈ history := by
  rw [latest, Option.map_eq_some_iff] at h
  obtain ⟨⟨k', rest⟩, hfind, rfl⟩ := h
  have hk : k' = k := by simpa using List.find?_some hfind
  rw [← hk]
  exact List.mem_reverse.mp (List.mem_of_find?_eq_some hfind)

/-- The queue of expiry times is right for the history. -/
structure Expiring (ttl now : Nat) (history : List (κ × ν × Nat)) (queue : List (Nat × κ)) : Prop where
  /-- No lesson is from the future. -/
  past : ∀ lesson ∈ history, lesson.2.2 ≤ now
  once : (queue.map Prod.snd).Nodup
  sorted : queue.Pairwise fun a b => a.1 ≤ b.1
  entry : ∀ e k, (e, k) ∈ queue ↔ ∃ value time, latest history k = some (value, time) ∧ e = time + ttl ∧ now ≤ e

theorem Expiring.nil (ttl now : Nat) : Expiring ttl now ([] : List (κ × ν × Nat)) [] :=
  ⟨by simp, by simp, List.Pairwise.nil, by simp⟩

/-- A key has an entry iff something is known about it. -/
theorem Expiring.key_iff (h : Expiring ttl now history queue) (k : κ) :
    (∃ e, (e, k) ∈ queue) ↔ (current ttl now history k).isSome = true := by
  unfold current
  constructor
  · rintro ⟨e, he⟩
    obtain ⟨value, time, hlatest, rfl, hnow⟩ := (h.entry e k).mp he
    rw [hlatest]
    simp [hnow]
  · intro hsome
    split at hsome
    · rename_i value time hlatest
      by_cases hnow : now ≤ time + ttl
      · exact ⟨time + ttl, (h.entry _ k).mpr ⟨value, time, hlatest, rfl, hnow⟩⟩
      · rw [if_neg hnow] at hsome
        exact absurd hsome (by simp)
    · exact absurd hsome (by simp)

/-! ## A lesson -/

/-- With one entry for a key, dropping the first drops it. -/
theorem mem_eraseP_key {k : κ} (hq : (queue.map Prod.snd).Nodup) (x : Nat × κ) :
    x ∈ queue.eraseP (fun e => e.2 = k) ↔ x ∈ queue ∧ x.2 ≠ k := by
  induction queue with
  | nil => simp
  | cons a rest ih =>
    rw [List.map_cons, List.nodup_cons] at hq
    by_cases ha : a.2 = k
    · rw [List.eraseP_cons_of_pos (by simpa using ha)]
      -- no other entry has the key
      have hrest : ∀ y ∈ rest, y.2 ≠ k := fun y hy hyk =>
        hq.1 (List.mem_map.mpr ⟨y, hy, hyk.trans ha.symm⟩)
      refine ⟨fun hx => ⟨List.mem_cons_of_mem _ hx, hrest x hx⟩, ?_⟩
      rintro ⟨hx, hne⟩
      rcases List.mem_cons.mp hx with rfl | hx
      · exact absurd ha hne
      · exact hx
    · rw [List.eraseP_cons_of_neg (by simpa using ha), List.mem_cons, List.mem_cons, ih hq.2]
      constructor
      · rintro (rfl | hx)
        · exact ⟨Or.inl rfl, ha⟩
        · exact ⟨Or.inr hx.1, hx.2⟩
      · rintro ⟨rfl | hx, hne⟩
        · exact Or.inl rfl
        · exact Or.inr ⟨hx, hne⟩

/-- **A lesson** replaces the key's entry by one at the back. -/
theorem Expiring.learn (h : Expiring ttl now history queue) (k : κ) (value : ν) :
    Expiring ttl now (history ++ [(k, value, now)])
      (queue.eraseP (fun e => e.2 = k) ++ [(now + ttl, k)]) := by
  have hmem := mem_eraseP_key (k := k) h.once
  refine ⟨?_, ?_, ?_, fun e k' => ?_⟩
  · intro lesson hl
    rcases List.mem_append.mp hl with hl | hl
    · exact h.past lesson hl
    · obtain rfl := List.mem_singleton.mp hl
      exact Nat.le_refl now
  · rw [List.map_append, List.nodup_append]
    refine ⟨h.once.sublist (List.eraseP_sublist.map _), by simp, ?_⟩
    rintro a ha b hb rfl
    obtain ⟨x, hx, rfl⟩ := List.mem_map.mp ha
    rw [List.map_singleton, List.mem_singleton] at hb
    exact ((hmem x).mp hx).2 hb
  · rw [List.pairwise_append]
    refine ⟨h.sorted.sublist List.eraseP_sublist, List.pairwise_singleton _ _, ?_⟩
    rintro ⟨e, k'⟩ hx b hb
    -- every older entry expires no later than one made now
    obtain ⟨v', time, hlatest, rfl, -⟩ := (h.entry e k').mp ((hmem _).mp hx).1
    have hpast := h.past _ (latest_mem hlatest)
    rw [List.mem_singleton.mp hb]
    dsimp only at hpast ⊢
    omega
  · rw [List.mem_append, hmem, latest_learn, List.mem_singleton, Prod.mk.injEq]
    by_cases hk : k = k'
    · subst hk
      rw [if_pos rfl]
      constructor
      · rintro (⟨-, hne⟩ | ⟨rfl, -⟩)
        · exact absurd rfl hne
        · exact ⟨value, now, rfl, rfl, Nat.le_add_right _ _⟩
      · rintro ⟨v', time, heq, rfl, -⟩
        obtain ⟨-, rfl⟩ := Prod.mk.inj (Option.some.inj heq)
        exact Or.inr ⟨rfl, rfl⟩
    · rw [if_neg hk, ← h.entry e k']
      constructor
      · rintro (hx | ⟨-, heq⟩)
        · exact hx.1
        · exact absurd heq.symm hk
      · exact fun hx => Or.inl ⟨hx, fun heq => hk heq.symm⟩

/-! ## Time -/

/-- In a sorted queue, what is overdue is in front. -/
theorem mem_dropWhile_due {time : Nat} (hq : queue.Pairwise fun a b => a.1 ≤ b.1) (x : Nat × κ) :
    x ∈ queue.dropWhile (fun e => decide (e.1 < time)) ↔ x ∈ queue ∧ time ≤ x.1 := by
  induction queue with
  | nil => simp
  | cons a rest ih =>
    rw [List.pairwise_cons] at hq
    by_cases ha : a.1 < time
    · rw [List.dropWhile_cons_of_pos (by simpa using ha), ih hq.2, List.mem_cons]
      constructor
      · exact fun hx => ⟨Or.inr hx.1, hx.2⟩
      · rintro ⟨rfl | hx, hle⟩
        · omega
        · exact ⟨hx, hle⟩
    · rw [List.dropWhile_cons_of_neg (by simpa using ha)]
      refine ⟨fun hx => ⟨hx, ?_⟩, fun hx => hx.1⟩
      rcases List.mem_cons.mp hx with rfl | hx
      · omega
      · exact Nat.le_trans (Nat.le_of_not_lt ha) (hq.1 x hx)

/-- **Time passes**, and the overdue entries in front are dropped. -/
theorem Expiring.advance (h : Expiring ttl now history queue) {time : Nat} (hle : now ≤ time) :
    Expiring ttl time history (queue.dropWhile fun e => decide (e.1 < time)) := by
  have hsub : (queue.dropWhile fun e => decide (e.1 < time)).Sublist queue := List.dropWhile_sublist _
  refine ⟨fun lesson hl => Nat.le_trans (h.past lesson hl) hle, h.once.sublist (hsub.map _),
    h.sorted.sublist hsub, fun e k => ?_⟩
  rw [mem_dropWhile_due h.sorted, h.entry]
  constructor
  · rintro ⟨⟨value, t, hlatest, rfl, -⟩, hdue⟩
    exact ⟨value, t, hlatest, rfl, hdue⟩
  · rintro ⟨value, t, hlatest, rfl, hdue⟩
    exact ⟨⟨value, t, hlatest, rfl, Nat.le_trans hle hdue⟩, hdue⟩

/-- Time forgets, and never learns: what is known later was known before. -/
theorem current_advance (ttl : Nat) {time : Nat} (hle : now ≤ time) (history : List (κ × ν × Nat)) (k : κ) :
    current ttl time history k = none ∨ current ttl time history k = current ttl now history k := by
  unfold current
  cases latest history k with
  | none => exact Or.inl rfl
  | some lesson =>
    obtain ⟨value, t⟩ := lesson
    by_cases hdue : time ≤ t + ttl
    · exact Or.inr ((if_pos hdue).trans (if_pos (Nat.le_trans hle hdue)).symm)
    · exact Or.inl (if_neg hdue)

end Sponge.Lib
