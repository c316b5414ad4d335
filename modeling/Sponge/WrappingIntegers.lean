/-
# `Sponge.WrappingIntegers` — 32-bit sequence numbers and their 64-bit positions.

Models `libsponge/wrapping_integers.{hh,cc}`.  `wrap` sends a 64-bit stream position to the 32-bit
number that travels in a segment; `unwrap` recovers the position, given a checkpoint close to it.
The C++ constant `1 << 31` is an `int`, so it is `-2^31`: adding it to the checkpoint moves the
checkpoint DOWN by `2^31` modulo `2^64`, and subtracting it moves it up.  The model keeps the two
candidates in that order, because a tie goes to the second one.
-/
import Sponge.Cpp

namespace Sponge

/-- A 32-bit number relative to an initial sequence number. -/
structure WrappingInt32 where
  rawValue : UInt32
  deriving DecidableEq, Repr

namespace WrappingInt32

/-- `operator-(WrappingInt32, WrappingInt32)` followed by the cast to `uint32_t` that its only caller
applies: the `int32_t` in between keeps all 32 bits. -/
def minus (a b : WrappingInt32) : UInt32 := a.rawValue - b.rawValue

/-- `operator+(WrappingInt32, uint32_t)`. -/
def plus (a : WrappingInt32) (b : UInt32) : WrappingInt32 := ⟨a.rawValue + b⟩

/-- `operator-(WrappingInt32, uint32_t)`, which the source writes as `a + -b`. -/
def back (a : WrappingInt32) (b : UInt32) : WrappingInt32 := a.plus (-b)

end WrappingInt32

/-- The 32-bit number of the absolute position `n`. -/
def wrap (n : Nat) (isn : WrappingInt32) : WrappingInt32 :=
  ⟨UInt32.ofNat (isn.rawValue.toNat + n)⟩

/-- The absolute position that `n` stands for near `checkpoint`. -/
def unwrap (n isn : WrappingInt32) (checkpoint : Nat) : Nat :=
  let lower32 := (n.minus isn).toNat
  -- `checkpoint + (1 << 31)` and `checkpoint - (1 << 31)` with `1 << 31 = -2^31`
  let upper32_1 := (checkpoint + (2 ^ 64 - 2 ^ 31)) % 2 ^ 64 / 2 ^ 32
  let upper32_2 := (checkpoint + 2 ^ 31) % 2 ^ 64 / 2 ^ 32
  let result1 := upper32_1 * 2 ^ 32 + lower32
  let result2 := upper32_2 * 2 ^ 32 + lower32
  if max result1 checkpoint - min result1 checkpoint
      < max result2 checkpoint - min result2 checkpoint then
    result1
  else
    result2

/-! ## `wrap` forgets exactly the multiples of `2^32` -/

theorem wrap_rawValue (n : Nat) (isn : WrappingInt32) :
    (wrap n isn).rawValue.toNat = (isn.rawValue.toNat + n) % 2 ^ 32 := by
  simp [wrap, UInt32.toNat_ofNat']

theorem minus_lt (a b : WrappingInt32) : (a.minus b).toNat < 2 ^ 32 := UInt32.toNat_lt _

/-- The offset of a wrapped position from its base is the position modulo `2^32`. -/
theorem minus_wrap (n : Nat) (isn : WrappingInt32) : ((wrap n isn).minus isn).toNat = n % 2 ^ 32 := by
  have h := wrap_rawValue n isn
  have hi : isn.rawValue.toNat < 2 ^ 32 := UInt32.toNat_lt _
  rw [WrappingInt32.minus, UInt32.toNat_sub, h]
  omega

theorem wrap_zero (isn : WrappingInt32) : wrap 0 isn = isn := by
  simp [wrap]

theorem wrap_eq_wrap_iff {a b : Nat} {isn : WrappingInt32} :
    wrap a isn = wrap b isn ↔ a % 2 ^ 32 = b % 2 ^ 32 := by
  constructor
  · intro h
    rw [← minus_wrap a isn, ← minus_wrap b isn, h]
  · intro h
    have hraw : (wrap a isn).rawValue = (wrap b isn).rawValue := by
      apply UInt32.toNat_inj.mp
      rw [wrap_rawValue, wrap_rawValue]
      omega
    exact congrArg WrappingInt32.mk hraw

/-- Stepping a wrapped number forward wraps the stepped position. -/
theorem wrap_plus (n : Nat) (isn : WrappingInt32) (k : UInt32) :
    (wrap n isn).plus k = wrap (n + k.toNat) isn := by
  have hraw : ((wrap n isn).plus k).rawValue = (wrap (n + k.toNat) isn).rawValue := by
    apply UInt32.toNat_inj.mp
    rw [WrappingInt32.plus, UInt32.toNat_add, wrap_rawValue, wrap_rawValue]
    omega
  exact congrArg WrappingInt32.mk hraw

/-! ## `unwrap` finds the nearest position -/

/-- The two blocks of `2^32` positions that `unwrap` looks into.  Away from both ends of the 64-bit
range they are neighbours around the checkpoint; at an end the same two blocks, the first and the
last, come out of the wrapped arithmetic. -/
theorem unwrap_blocks {c : Nat} (hc : c < 2 ^ 64) :
    let a := (c + (2 ^ 64 - 2 ^ 31)) % 2 ^ 64 / 2 ^ 32
    let b := (c + 2 ^ 31) % 2 ^ 64 / 2 ^ 32
    (c < 2 ^ 31 ∧ a = 2 ^ 32 - 1 ∧ b = 0) ∨
    (2 ^ 64 - 2 ^ 31 ≤ c ∧ a = 2 ^ 32 - 1 ∧ b = 0) ∨
    (b = a + 1 ∧ b < 2 ^ 32 ∧ a * 2 ^ 32 + 2 ^ 31 ≤ c ∧ c < b * 2 ^ 32 + 2 ^ 31) := by
  intro a b
  by_cases h1 : c < 2 ^ 31
  · left; omega
  · by_cases h2 : 2 ^ 64 - 2 ^ 31 ≤ c
    · right; left; omega
    · right; right; omega

theorem unwrap_lt (n isn : WrappingInt32) (c : Nat) : unwrap n isn c < 2 ^ 64 := by
  have hl := minus_lt n isn
  have ha : (c + (2 ^ 64 - 2 ^ 31)) % 2 ^ 64 / 2 ^ 32 < 2 ^ 32 := by omega
  have hb : (c + 2 ^ 31) % 2 ^ 64 / 2 ^ 32 < 2 ^ 32 := by omega
  simp only [unwrap]
  generalize (c + (2 ^ 64 - 2 ^ 31)) % 2 ^ 64 / 2 ^ 32 = a at ha ⊢
  generalize (c + 2 ^ 31) % 2 ^ 64 / 2 ^ 32 = b at hb ⊢
  split
  · omega
  · omega

/-- The unwrapped position is one of the positions that wrap to `n`. -/
theorem unwrap_mod (n isn : WrappingInt32) (c : Nat) :
    unwrap n isn c % 2 ^ 32 = (n.minus isn).toNat := by
  have hl := minus_lt n isn
  simp only [unwrap]
  split
  · rw [Nat.mul_add_mod', Nat.mod_eq_of_lt hl]
  · rw [Nat.mul_add_mod', Nat.mod_eq_of_lt hl]

/-- The distance of two positions, without the truncated subtraction. -/
theorem distance_cases (w c : Nat) :
    (w ≤ c ∧ max w c - min w c + w = c) ∨ (c ≤ w ∧ max w c - min w c + c = w) := by
  rcases Nat.le_total w c with h | h
  · rw [Nat.max_eq_right h, Nat.min_eq_left h]
    exact Or.inl ⟨h, Nat.sub_add_cancel h⟩
  · rw [Nat.max_eq_left h, Nat.min_eq_right h]
    exact Or.inr ⟨h, Nat.sub_add_cancel h⟩

/-- Between two candidates `2^32` apart, less than `2^32 + 2^31` from the checkpoint on either side, the
nearer one beats every further member of the class. -/
theorem nearer_candidate {x y u c : Nat} (hxy : y = x + 2 ^ 32) (hx : x < c + 2 ^ 31)
    (hy : c ≤ y + 2 ^ 31)
    (hu : u + 2 ^ 32 ≤ x ∨ u = x ∨ u = y ∨ y + 2 ^ 32 ≤ u) :
    let v := if max x c - min x c < max y c - min y c then x else y
    max v c - min v c ≤ max u c - min u c := by
  intro v
  have hdx := distance_cases x c
  have hdy := distance_cases y c
  have hdu := distance_cases u c
  by_cases hlt : max x c - min x c < max y c - min y c
  · rw [show v = x from if_pos hlt]
    generalize max x c - min x c = dx at hlt hdx ⊢
    generalize max y c - min y c = dy at hlt hdy
    generalize max u c - min u c = du at hdu ⊢
    omega
  · rw [show v = y from if_neg hlt]
    generalize max x c - min x c = dx at hlt hdx
    generalize max y c - min y c = dy at hlt hdy ⊢
    generalize max u c - min u c = du at hdu ⊢
    omega

/-- **Nearest position.** No 64-bit position with the same 32-bit number is closer to the checkpoint. -/
theorem unwrap_nearest (n isn : WrappingInt32) {c u : Nat} (hc : c < 2 ^ 64) (hu : u < 2 ^ 64)
    (hmod : u % 2 ^ 32 = (n.minus isn).toNat) :
    max (unwrap n isn c) c - min (unwrap n isn c) c ≤ max u c - min u c := by
  have hl := minus_lt n isn
  have hblocks := unwrap_blocks hc
  obtain ⟨k, hk, hku⟩ : ∃ k, k < 2 ^ 32 ∧ u = k * 2 ^ 32 + (n.minus isn).toNat :=
    ⟨u / 2 ^ 32, by omega, by omega⟩
  simp only [unwrap]
  generalize (c + (2 ^ 64 - 2 ^ 31)) % 2 ^ 64 / 2 ^ 32 = a at hblocks ⊢
  generalize (c + 2 ^ 31) % 2 ^ 64 / 2 ^ 32 = b at hblocks ⊢
  generalize (n.minus isn).toNat = l at hl hku ⊢
  rcases hblocks with ⟨h1, rfl, rfl⟩ | ⟨h1, rfl, rfl⟩ | ⟨hba, _, h1, h2⟩
  · -- the last block is more than `2^63` away, so the first one is taken
    rw [if_neg (by omega)]
    omega
  · rw [if_pos (by omega)]
    omega
  · have hcand : u + 2 ^ 32 ≤ a * 2 ^ 32 + l ∨ u = a * 2 ^ 32 + l ∨ u = b * 2 ^ 32 + l ∨
        b * 2 ^ 32 + l + 2 ^ 32 ≤ u := by
      rcases Nat.lt_trichotomy k a with h | h | h
      · omega
      · omega
      · omega
    exact nearer_candidate (by omega) (by omega) (by omega) hcand

/-- Below `2^31` there is nothing to recover: the offset is the position. -/
theorem unwrap_of_lt (n isn : WrappingInt32) {c : Nat} (hc : c < 2 ^ 31) :
    unwrap n isn c = (n.minus isn).toNat := by
  have hl := minus_lt n isn
  have ha : (c + (2 ^ 64 - 2 ^ 31)) % 2 ^ 64 / 2 ^ 32 = 2 ^ 32 - 1 := by omega
  have hb : (c + 2 ^ 31) % 2 ^ 64 / 2 ^ 32 = 0 := by omega
  simp only [unwrap]
  rw [ha, hb]
  split
  · omega
  · omega

/-- **Round trip.** A position less than `2^31` away from the checkpoint survives `wrap`: the nearest
position is at most as far away, and two positions with one 32-bit number are `2^32` apart. -/
theorem unwrap_wrap {u c : Nat} (isn : WrappingInt32) (hu : u < 2 ^ 64) (hc : c < 2 ^ 64)
    (h1 : u < c + 2 ^ 31) (h2 : c < u + 2 ^ 31) : unwrap (wrap u isn) isn c = u := by
  have hm := minus_wrap u isn
  have hv := unwrap_mod (wrap u isn) isn c
  have hnear := unwrap_nearest (wrap u isn) isn hc hu hm.symm
  rw [hm] at hv
  generalize unwrap (wrap u isn) isn c = v at hv hnear ⊢
  omega

/-- Wrapping undoes unwrapping. -/
theorem wrap_unwrap (n isn : WrappingInt32) (c : Nat) : wrap (unwrap n isn c) isn = n := by
  have hmod := unwrap_mod n isn c
  have hraw : (wrap (unwrap n isn c) isn).rawValue = n.rawValue := by
    apply UInt32.toNat_inj.mp
    have hn : n.rawValue.toNat < 2 ^ 32 := UInt32.toNat_lt _
    have hi : isn.rawValue.toNat < 2 ^ 32 := UInt32.toNat_lt _
    rw [WrappingInt32.minus, UInt32.toNat_sub] at hmod
    rw [wrap_rawValue]
    omega
  exact congrArg WrappingInt32.mk hraw

/-- **`unwrap` is exact over the whole 64-bit range**, for every checkpoint: it returns a 64-bit position
with the given number, none with that number is nearer, and so every position less than `2^31` away comes
back from `wrap`. -/
theorem unwrap_exact (n isn : WrappingInt32) (c : UInt64) :
    unwrap n isn c.toNat < 2 ^ 64 ∧
    wrap (unwrap n isn c.toNat) isn = n ∧
    (∀ u : UInt64, wrap u.toNat isn = n →
      ((unwrap n isn c.toNat : Int) - c.toNat).natAbs ≤ ((u.toNat : Int) - c.toNat).natAbs) ∧
    (∀ u : UInt64, ((u.toNat : Int) - c.toNat).natAbs < 2 ^ 31 →
      unwrap (wrap u.toNat isn) isn c.toNat = u.toNat) := by
  have hc : c.toNat < 2 ^ 64 := c.toNat_lt
  refine ⟨unwrap_lt n isn _, wrap_unwrap n isn _, fun u hu => ?_, fun u hnear => ?_⟩
  · have hmod : u.toNat % 2 ^ 32 = (n.minus isn).toNat := by rw [← hu, minus_wrap]
    have hnearest := unwrap_nearest n isn hc u.toNat_lt hmod
    generalize unwrap n isn c.toNat = v at hnearest ⊢
    omega
  · exact unwrap_wrap isn u.toNat_lt hc (by omega) (by omega)

/-- The first `2^31` positions, but not 0, survive `wrap` whichever of them is the checkpoint. -/
theorem unwrap_wrap_small {u c : Nat} (isn : WrappingInt32) (h0 : 0 < u) (hu : u ≤ 2 ^ 31)
    (hc : c ≤ 2 ^ 31) : unwrap (wrap u isn) isn c = u := by
  rcases Nat.lt_or_ge c (2 ^ 31) with hlt | hge
  · rw [unwrap_of_lt _ _ hlt, minus_wrap]
    omega
  · exact unwrap_wrap isn (by omega) (by omega) (by omega) (by omega)

/-- Below `2^32`, a number that is read at or before the checkpoint is read as it was meant. -/
theorem unwrap_of_le {v c : Nat} {isn : WrappingInt32} (hv : v < 2 ^ 32) (hc : c < 2 ^ 32)
    (hle : unwrap (wrap v isn) isn c ≤ c) : unwrap (wrap v isn) isn c = v := by
  have hmod := unwrap_mod (wrap v isn) isn c
  rw [minus_wrap] at hmod
  omega

/-- Near the start nothing is read far away. -/
theorem unwrap_lt_of_small (n isn : WrappingInt32) {c : Nat} (hc : c ≤ 2 ^ 31) :
    unwrap n isn c < 2 ^ 33 := by
  have hl := minus_lt n isn
  have hnear := unwrap_nearest n isn (u := (n.minus isn).toNat) (c := c) (by omega) (by omega)
    (Nat.mod_eq_of_lt hl)
  generalize unwrap n isn c = v at hnear ⊢
  omega

example : unwrap (wrap (3 * 2 ^ 32) ⟨17⟩) ⟨17⟩ (3 * 2 ^ 32 - 5) = 3 * 2 ^ 32 := by decide

end Sponge
