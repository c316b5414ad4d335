/-
# `Sponge.Lib.Outcome` — pre- and postconditions of code that throws.

`Ends x post raises` says how a computation ends: it returns something for which `post` holds, or throws something
for which `raises` holds.  The rules follow the shape of the code, so that a function is verified along its own
`bind`s and loops, and both exits come out of one proof.
-/
import Mathlib.Tactic.Common

namespace Sponge.Lib

universe u v w

variable {ε : Type u} {α : Type v} {β : Type w}

/-- How a computation ends. -/
def Ends (x : Except ε α) (post : α → Prop) (raises : ε → Prop) : Prop :=
  match x with
  | .ok a => post a
  | .error e => raises e

variable {x : Except ε α} {post post' : α → Prop} {raises raises' : ε → Prop} {a : α} {e : ε}

theorem Ends.ok (h : Ends x post raises) (hx : x = .ok a) : post a := by
  subst hx
  exact h

theorem Ends.error (h : Ends x post raises) (hx : x = .error e) : raises e := by
  subst hx
  exact h

theorem Ends.intro (hok : ∀ a, x = .ok a → post a) (herror : ∀ e, x = .error e → raises e) :
    Ends x post raises := by
  cases x with
  | ok a => exact hok a rfl
  | error e => exact herror e rfl

theorem Ends.mono (h : Ends x post raises) (hpost : ∀ a, post a → post' a)
    (hraises : ∀ e, raises e → raises' e) : Ends x post' raises' := by
  cases x with
  | ok a => exact hpost a h
  | error e => exact hraises e h

/-- The rule of sequence. -/
theorem Ends.bind {k : α → Except ε β} {p : α → Prop} {q : β → Prop} (h : Ends x p raises)
    (hk : ∀ a, p a → Ends (k a) q raises) : Ends (x.bind k) q raises := by
  cases x with
  | ok a => exact hk a h
  | error e => exact h

theorem Ends.map {g : α → β} {p : α → Prop} {q : β → Prop} (h : Ends x p raises) (hg : ∀ a, p a → q (g a)) :
    Ends (x.map g) q raises := by
  cases x with
  | ok a => exact hg a h
  | error e => exact h

theorem Ends.ite {c : Prop} [Decidable c] {y : Except ε α} (hx : c → Ends x post raises)
    (hy : ¬ c → Ends y post raises) : Ends (if c then x else y) post raises := by
  split
  · rename_i h
    exact hx h
  · rename_i h
    exact hy h

end Sponge.Lib
