/-
# `Sponge.Lib.Run` — guarded runs of a fallible step function.

A component that is driven from outside is a state type `σ`, a type `α` of calls, and a step function
that either returns the next state or throws.  A *guard* says which calls the environment makes in
which state.  `Reach` collects the states that some finite sequence of guarded, non-throwing calls
leads to; `Reach.invariant` is the only induction over runs that the developments above need, and
`Reach.of_exec` turns a concrete call sequence, checked by evaluation, into a reachability proof.
`Leads.of_rank` is the rule for what can still be brought about: a rank that some run can always lower.
-/
import Mathlib.Tactic.Common

namespace Sponge.Lib

universe u v w

variable {σ : Type u} {α : Type v} {ε : Type w}

/-- The states reachable from `start` by calls that the guard `ok` admits and that return. -/
inductive Reach (start : σ → Prop) (step : σ → α → Except ε σ) (ok : σ → α → Prop) : σ → Prop
  | start {s : σ} (h : start s) : Reach start step ok s
  | step {s s' : σ} {a : α} (hr : Reach start step ok s) (hok : ok s a)
      (hs : step s a = .ok s') : Reach start step ok s'

variable {start : σ → Prop} {step : σ → α → Except ε σ} {ok : σ → α → Prop}

/-- **Invariant rule.** What holds at the start and survives every guarded call holds in every
reachable state. -/
theorem Reach.invariant {P : σ → Prop} (h0 : ∀ s, start s → P s)
    (h1 : ∀ s a s', P s → ok s a → step s a = .ok s' → P s') {s : σ}
    (hr : Reach start step ok s) : P s := by
  induction hr with
  | start h => exact h0 _ h
  | step _ hok hs ih => exact h1 _ _ _ ih hok hs

/-- A weaker guard admits more. -/
theorem Reach.mono {ok' : σ → α → Prop} (hle : ∀ s a, ok' s a → ok s a) {s : σ}
    (hr : Reach start step ok' s) : Reach start step ok s := by
  induction hr with
  | start h => exact .start h
  | step _ hok hs ih => exact .step ih (hle _ _ hok) hs

/-- Run a list of calls, stopping with `none` at the first call that the guard refuses or that
throws. -/
def exec (step : σ → α → Except ε σ) (ok : σ → α → Prop) [∀ s a, Decidable (ok s a)] :
    σ → List α → Option σ
  | s, [] => some s
  | s, a :: as =>
    if ok s a then
      match step s a with
      | .ok s' => exec step ok s' as
      | .error _ => none
    else none

/-- A call list that runs to completion ends in a reachable state. -/
theorem Reach.of_exec [∀ s a, Decidable (ok s a)] {s s' : σ} {l : List α}
    (hr : Reach start step ok s) (h : exec step ok s l = some s') : Reach start step ok s' := by
  induction l generalizing s with
  | nil =>
    obtain rfl : s = s' := by simpa [exec] using h
    exact hr
  | cons a l ih =>
    rw [exec] at h
    split at h
    · rename_i hok
      split at h
      · rename_i s₁ hs
        exact ih (.step hr hok hs) h
      · exact absurd h (by simp)
    · exact absurd h (by simp)

/-- The same with the end state computed: enough that the list runs to completion. -/
theorem Reach.exec_get [∀ s a, Decidable (ok s a)] {s : σ} {l : List α}
    (hr : Reach start step ok s) (h : (exec step ok s l).isSome = true) :
    Reach start step ok ((exec step ok s l).get h) :=
  hr.of_exec (Option.some_get h).symm

/-- The same for an end state of which something is needed: a test that it passes. -/
theorem Reach.exec_any [∀ s a, Decidable (ok s a)] {s : σ} {l : List α} (test : σ → Bool)
    (hr : Reach start step ok s) (h : (exec step ok s l).any test = true) :
    ∃ s', Reach start step ok s' ∧ test s' = true := by
  cases he : exec step ok s l with
  | none =>
    rw [he] at h
    exact absurd h (by simp)
  | some s' =>
    rw [he] at h
    exact ⟨s', hr.of_exec he, h⟩

/-! ## From one state to another -/

/-- A run that starts in `s` ends in `s'`. -/
abbrev Leads (step : σ → α → Except ε σ) (ok : σ → α → Prop) (s s' : σ) : Prop :=
  Reach (fun t => t = s) step ok s'

/-- A run goes on, under a guard that admits no more. -/
theorem Reach.leads {ok' : σ → α → Prop} {s s' : σ} (hr : Reach start step ok s)
    (hle : ∀ s a, ok' s a → ok s a) (h : Leads step ok' s s') : Reach start step ok s' := by
  induction h with
  | start heq => exact heq ▸ hr
  | step _ hok hs ih => exact .step ih (hle _ _ hok) hs

theorem Leads.refl (s : σ) : Leads step ok s s := .start rfl

theorem Leads.single {s s' : σ} {a : α} (hok : ok s a) (hs : step s a = .ok s') : Leads step ok s s' :=
  .step (.start rfl) hok hs

theorem Leads.trans {s s' s'' : σ} (h : Leads step ok s s') (h' : Leads step ok s' s'') : Leads step ok s s'' :=
  Reach.leads h (fun _ _ hok => hok) h'

/-- **Progress rule.**  If every state with `P` has the goal or leads to a state with `P` of lower rank, then it leads
to the goal. -/
theorem Leads.of_rank {P goal : σ → Prop} (rank : σ → Nat)
    (h : ∀ s, P s → goal s ∨ ∃ s', Leads step ok s s' ∧ P s' ∧ rank s' < rank s) {s : σ} (hs : P s) :
    ∃ s', Leads step ok s s' ∧ P s' ∧ goal s' := by
  induction hn : rank s using Nat.strongRecOn generalizing s with
  | ind n ih =>
    rcases h s hs with hgoal | ⟨s', hl, hs', hlt⟩
    · exact ⟨s, .refl s, hs, hgoal⟩
    · obtain ⟨s'', hl', hdone⟩ := ih (rank s') (hn ▸ hlt) hs' rfl
      exact ⟨s'', hl.trans hl', hdone⟩

end Sponge.Lib
