/-
# `Sponge.Lib.OnesComplement` — end-around carries and the checksum that rests on them.

`endAround B x` adds the digits of `x` in base `B` until one digit is left.  It keeps the residue modulo
`B - 1`, and only 0 gives 0, so a sum to which the complement of its own fold is added folds to `B - 1`
(`endAround_complement`).

`onesAdd` adds two digits with an end-around carry, the addition of one's-complement numbers.  Adding digit by
digit and carrying at once gives the same as adding first and carrying at the end (`onesSum_eq`).

`wordSum` adds a list of bytes as big-endian words of two bytes; the flag says whether the list starts inside a
word.  A word of the list that was 0 when the sum was taken can be filled with the complement, and the sum of
the filled list then folds to all ones (`endAround_filled`): whoever adds up the list again can check it.  A list
in which a single byte is changed never folds to the same digit (`endAround_corrupted`).
-/
import Mathlib.Data.Nat.Bits
import Mathlib.Data.Nat.ModEq
import Sponge.Lib.BigEndian

namespace Sponge.Lib

/-! ## End-around carries -/

theorem carry_lt {B x : Nat} (hB : 2 ≤ B) (hx : B ≤ x) : x / B + x % B < x := by
  have hquot : 1 ≤ x / B := Nat.div_pos hx (by omega)
  have hsplit := Nat.div_add_mod x B
  have hless : 2 * (x / B) ≤ B * (x / B) := Nat.mul_le_mul_right _ hB
  omega

def endAround (B x : Nat) : Nat :=
  if _h : 2 ≤ B ∧ B ≤ x then endAround B (x / B + x % B) else x
termination_by x
decreasing_by exact carry_lt _h.1 _h.2

theorem endAround_of_lt {B x : Nat} (hx : x < B) : endAround B x = x := by
  rw [endAround, dif_neg (by omega)]

section

variable {B : Nat} (hB : 2 ≤ B)

include hB

theorem endAround_of_le {x : Nat} (hx : B ≤ x) : endAround B x = endAround B (x / B + x % B) := by
  rw [endAround, dif_pos ⟨hB, hx⟩]

theorem endAround_lt (x : Nat) : endAround B x < B := by
  induction x using Nat.strong_induction_on with
  | h x ih =>
    by_cases hx : B ≤ x
    · rw [endAround_of_le hB hx]
      exact ih _ (carry_lt hB hx)
    · rw [endAround_of_lt (by omega)]
      omega

theorem endAround_le (x : Nat) : endAround B x ≤ x := by
  induction x using Nat.strong_induction_on with
  | h x ih =>
    by_cases hx : B ≤ x
    · rw [endAround_of_le hB hx]
      exact Nat.le_trans (ih _ (carry_lt hB hx)) (Nat.le_of_lt (carry_lt hB hx))
    · rw [endAround_of_lt (by omega)]

theorem endAround_pos {x : Nat} (hx : 0 < x) : 0 < endAround B x := by
  induction x using Nat.strong_induction_on with
  | h x ih =>
    by_cases hbig : B ≤ x
    · rw [endAround_of_le hB hbig]
      have hquot : 1 ≤ x / B := Nat.div_pos hbig (by omega)
      exact ih _ (carry_lt hB hbig) (by omega)
    · rw [endAround_of_lt (by omega)]
      exact hx

/-- `B` counts as 1 modulo `B - 1`, so moving a carry to the front changes nothing. -/
theorem carry_modEq (x : Nat) : x / B + x % B ≡ x [MOD B - 1] := by
  have hone : B ≡ 1 [MOD B - 1] := (Nat.modEq_iff_dvd' (by omega)).mpr (Nat.dvd_refl _) |>.symm
  calc x / B + x % B ≡ B * (x / B) + x % B [MOD B - 1] := by
        refine Nat.ModEq.add_right _ ?_
        simpa using (hone.mul_right (x / B)).symm
    _ = x := Nat.div_add_mod x B

theorem endAround_modEq (x : Nat) : endAround B x ≡ x [MOD B - 1] := by
  induction x using Nat.strong_induction_on with
  | h x ih =>
    by_cases hx : B ≤ x
    · rw [endAround_of_le hB hx]
      exact (ih _ (carry_lt hB hx)).trans (carry_modEq hB x)
    · rw [endAround_of_lt (by omega)]

theorem endAround_complement (x : Nat) : endAround B (x + (B - 1 - endAround B x)) = B - 1 := by
  have hlt := endAround_lt hB x
  have hle := endAround_le hB x
  have hzero : endAround B (x + (B - 1 - endAround B x)) ≡ 0 [MOD B - 1] := by
    refine (endAround_modEq hB _).trans ?_
    calc x + (B - 1 - endAround B x) ≡ endAround B x + (B - 1 - endAround B x) [MOD B - 1] :=
          (endAround_modEq hB x).symm.add_right _
      _ = B - 1 := by omega
      _ ≡ 0 [MOD B - 1] := (Nat.modEq_zero_iff_dvd.mpr (Nat.dvd_refl _))
  have hbelow := endAround_lt hB (x + (B - 1 - endAround B x))
  have hpos := endAround_pos hB (x := x + (B - 1 - endAround B x)) (by omega)
  have hmultiple := Nat.le_of_dvd hpos (Nat.modEq_zero_iff_dvd.mp hzero)
  omega

/-- The fold of a number is the one digit with its residue that is 0 only for 0. -/
theorem endAround_unique {x y : Nat} (hlt : y < B) (hmod : y ≡ x [MOD B - 1]) (hzero : y = 0 ↔ x = 0) :
    y = endAround B x := by
  have hlt' := endAround_lt hB x
  have hmod' : y ≡ endAround B x [MOD B - 1] := hmod.trans (endAround_modEq hB x).symm
  rcases Nat.eq_zero_or_pos x with rfl | hpos
  · rw [endAround_of_lt (by omega)]
    exact hzero.mpr rfl
  · -- both are among `1, …, B - 1`, where residues are unique
    have hy : 0 < y := Nat.pos_of_ne_zero fun h => by have := hzero.mp h; omega
    have hx := endAround_pos hB hpos
    have hpred : y - 1 ≡ endAround B x - 1 [MOD B - 1] := by
      refine Nat.ModEq.add_right_cancel' 1 ?_
      rwa [Nat.sub_add_cancel hy, Nat.sub_add_cancel hx]
    have heq : y - 1 = endAround B x - 1 := Nat.ModEq.eq_of_lt_of_lt hpred (by omega) (by omega)
    omega

theorem endAround_eq_zero {x : Nat} : endAround B x = 0 ↔ x = 0 := by
  constructor
  · intro h
    by_contra hne
    have hpos := endAround_pos hB (Nat.pos_of_ne_zero hne)
    omega
  · rintro rfl
    exact endAround_of_lt (by omega)

/-- The carry may be taken before the rest is added. -/
theorem endAround_carry_add (x y : Nat) : endAround B (x / B + x % B + y) = endAround B (x + y) := by
  have hzero : x / B + x % B = 0 ↔ x = 0 := by
    have hsplit := Nat.div_add_mod x B
    constructor
    · intro h
      obtain ⟨hquot, hrem⟩ := Nat.add_eq_zero_iff.mp h
      rw [hquot, hrem, Nat.mul_zero] at hsplit
      exact hsplit.symm
    · rintro rfl
      rw [Nat.zero_div, Nat.zero_mod]
  refine endAround_unique hB (endAround_lt hB _) ?_ ?_
  · exact (endAround_modEq hB _).trans ((carry_modEq hB x).add_right y)
  · rw [endAround_eq_zero hB, Nat.add_eq_zero_iff, hzero, Nat.add_eq_zero_iff]

/-- A number that folds to all ones is a multiple of them. -/
theorem modEq_zero_of_endAround {x : Nat} (h : endAround B x = B - 1) : x ≡ 0 [MOD B - 1] := by
  refine (endAround_modEq hB x).symm.trans ?_
  rw [h]
  exact Nat.modEq_zero_iff_dvd.mpr (Nat.dvd_refl _)

end

/-! ## One's-complement addition -/

/-- The sum of two digits, with the carry added at the other end. -/
def onesAdd (B x y : Nat) : Nat := if x + y < B then x + y else x + y - (B - 1)

def onesSum (B : Nat) (digits : List Nat) : Nat := digits.foldl (onesAdd B) 0

section

variable {B : Nat} (hB : 2 ≤ B)

include hB

theorem onesAdd_endAround (x : Nat) {digit : Nat} (hdigit : digit < B) :
    onesAdd B (endAround B x) digit = endAround B (x + digit) := by
  have hlt := endAround_lt hB x
  have hmod : endAround B x + digit ≡ x + digit [MOD B - 1] := (endAround_modEq hB x).add_right digit
  have hzero := endAround_eq_zero hB (x := x)
  rw [onesAdd]
  split
  · rename_i hsmall
    exact endAround_unique hB hsmall hmod (by omega)
  · rename_i hbig
    refine endAround_unique hB (by omega) ?_ (by omega)
    -- a carry is one `B - 1`
    have hcarry : endAround B x + digit - (B - 1) + (B - 1) ≡ x + digit [MOD B - 1] := by
      rwa [Nat.sub_add_cancel (by omega)]
    have hself : endAround B x + digit - (B - 1) + (B - 1) ≡ endAround B x + digit - (B - 1) [MOD B - 1] :=
      Nat.add_modEq_right
    exact hself.symm.trans hcarry

/-- **Carrying at once or at the end.** -/
theorem onesSum_eq {digits : List Nat} (h : ∀ digit ∈ digits, digit < B) :
    onesSum B digits = endAround B digits.sum := by
  have hfold : ∀ (digits : List Nat) (x : Nat), (∀ digit ∈ digits, digit < B) →
      digits.foldl (onesAdd B) (endAround B x) = endAround B (x + digits.sum) := by
    intro digits
    induction digits with
    | nil => intro x _; rfl
    | cons digit digits ih =>
      intro x hall
      rw [List.foldl_cons, onesAdd_endAround hB x (hall digit List.mem_cons_self),
        ih _ fun d hd => hall d (List.mem_cons_of_mem _ hd), List.sum_cons, Nat.add_assoc]
  have hzero : endAround B 0 = 0 := endAround_of_lt (by omega)
  have hall := hfold digits 0 h
  rwa [hzero, Nat.zero_add] at hall

end

/-! ## Sums of words -/

/-- The sum of the words; with the flag set the first byte is the low byte of its word. -/
def wordSum : Bool → List UInt8 → Nat
  | _, [] => 0
  | false, byte :: bytes => byte.toNat * 256 + wordSum true bytes
  | true, byte :: bytes => byte.toNat + wordSum false bytes

theorem wordSum_append (inside : Bool) (a b : List UInt8) :
    wordSum inside (a ++ b) = wordSum inside a + wordSum (inside ^^ a.length.bodd) b := by
  induction a generalizing inside with
  | nil => simp [wordSum]
  | cons byte a ih =>
    rw [List.cons_append, List.length_cons, Nat.bodd_succ]
    cases inside <;> simp [wordSum, ih, Nat.add_assoc]

theorem wordSum_le (inside : Bool) (bytes : List UInt8) : wordSum inside bytes ≤ 65280 * bytes.length := by
  induction bytes generalizing inside with
  | nil => simp [wordSum]
  | cons byte bytes ih =>
    have hbyte := byte.toNat_lt
    cases inside with
    | false =>
      have := ih true
      rw [wordSum, List.length_cons]
      omega
    | true =>
      have := ih false
      rw [wordSum, List.length_cons]
      omega

theorem wordSum_encode_two {v : Nat} (h : v < 65536) : wordSum false (BigEndian.encode 2 v) = v := by
  simp only [BigEndian.encode, wordSum, UInt8.toNat_ofNat']
  omega

/-- The sum of a list with a whole word `v` in it. -/
theorem wordSum_word {a : List UInt8} (ha : a.length.bodd = false) {v : Nat} (hv : v < 65536)
    (b : List UInt8) :
    wordSum false (a ++ BigEndian.encode 2 v ++ b) = wordSum false a + v + wordSum false b := by
  rw [wordSum_append, wordSum_append, ha, List.length_append, Nat.bodd_add, ha, BigEndian.encode_length]
  simp [wordSum_encode_two hv]

/-- The words of a list of bytes; an odd byte at the end is the high byte of a word whose low byte is 0. -/
def words : List UInt8 → List Nat
  | [] => []
  | [high] => [high.toNat * 256]
  | high :: low :: bytes => (high.toNat * 256 + low.toNat) :: words bytes

theorem words_lt (bytes : List UInt8) : ∀ word ∈ words bytes, word < 65536 := by
  fun_induction words bytes with
  | case1 => simp
  | case2 high =>
    have := high.toNat_lt
    simp
    omega
  | case3 high low bytes ih =>
    have := high.toNat_lt
    have := low.toNat_lt
    intro word hword
    rcases List.mem_cons.mp hword with rfl | hword
    · omega
    · exact ih word hword

theorem wordSum_eq_sum (bytes : List UInt8) : wordSum false bytes = (words bytes).sum := by
  fun_induction words bytes with
  | case1 => rfl
  | case2 high => rfl
  | case3 high low bytes ih => rw [wordSum, wordSum, List.sum_cons, ih, Nat.add_assoc]

/-- The one's-complement sum of the words and of a start of two digits. -/
theorem onesSum_words {start : Nat} (h : start < 65536 * 65536) (bytes : List UInt8) :
    onesSum 65536 (start / 65536 :: start % 65536 :: words bytes)
      = endAround 65536 (start + wordSum false bytes) := by
  have hdigits : ∀ digit ∈ start / 65536 :: start % 65536 :: words bytes, digit < 65536 := by
    intro digit hdigit
    rcases List.mem_cons.mp hdigit with rfl | hdigit
    · omega
    · rcases List.mem_cons.mp hdigit with rfl | hword
      · omega
      · exact words_lt _ _ hword
  rw [onesSum_eq (by decide) hdigits, List.sum_cons, List.sum_cons, ← Nat.add_assoc,
    endAround_carry_add (by decide), wordSum_eq_sum]

/-- A changed byte, weighed by its place in the word, is all the difference between two sums. -/
theorem wordSum_set (inside : Bool) {bytes : List UInt8} {i : Nat} {old : UInt8} (h : bytes[i]? = some old)
    (new : UInt8) :
    ∃ weight, (weight = 1 ∨ weight = 256) ∧
      wordSum inside (bytes.set i new) + weight * old.toNat = wordSum inside bytes + weight * new.toNat := by
  induction bytes generalizing inside i with
  | nil => exact absurd h (by simp)
  | cons byte bytes ih =>
    cases i with
    | zero =>
      obtain rfl : byte = old := by simpa using h
      cases inside with
      | false => exact ⟨256, Or.inr rfl, by rw [List.set_cons_zero, wordSum, wordSum]; ring⟩
      | true => exact ⟨1, Or.inl rfl, by rw [List.set_cons_zero, wordSum, wordSum]; ring⟩
    | succ i =>
      cases inside with
      | false =>
        obtain ⟨weight, hweight, heq⟩ := ih true (i := i) (by simpa using h)
        refine ⟨weight, hweight, ?_⟩
        rw [List.set_cons_succ, wordSum, wordSum]
        omega
      | true =>
        obtain ⟨weight, hweight, heq⟩ := ih false (i := i) (by simpa using h)
        refine ⟨weight, hweight, ?_⟩
        rw [List.set_cons_succ, wordSum, wordSum]
        omega

/-- **A changed byte is seen**: of two lists that differ in one byte not both fold to all ones. -/
theorem endAround_corrupted {start : Nat} {bytes : List UInt8} {i : Nat} {old new : UInt8}
    (h : bytes[i]? = some old) (hne : new ≠ old)
    (hfold : endAround 65536 (start + wordSum false bytes) = 65535) :
    endAround 65536 (start + wordSum false (bytes.set i new)) ≠ 65535 := by
  intro hfold'
  have hold := old.toNat_lt
  have hnew := new.toNat_lt
  have hdiff : new.toNat ≠ old.toNat := fun h => hne (UInt8.toNat_inj.mp h)
  have hzero := modEq_zero_of_endAround (by decide) hfold
  have hzero' := modEq_zero_of_endAround (by decide) hfold'
  obtain ⟨weight, hweight, heq⟩ := wordSum_set false h new
  -- the two weighed bytes have the same residue modulo 65535, and both are below it
  have hmod : weight * old.toNat ≡ weight * new.toNat [MOD 65535] := by
    have hsum : start + wordSum false (bytes.set i new) + weight * old.toNat
        = start + wordSum false bytes + weight * new.toNat := by omega
    have hsame : start + wordSum false (bytes.set i new) ≡ start + wordSum false bytes [MOD 65535] :=
      hzero'.trans hzero.symm
    exact Nat.ModEq.add_left_cancel hsame (congrArg (· % 65535) hsum)
  rcases hweight with rfl | rfl
  · exact hdiff (by have := Nat.ModEq.eq_of_lt_of_lt hmod (by omega) (by omega); omega)
  · exact hdiff (by have := Nat.ModEq.eq_of_lt_of_lt hmod (by omega) (by omega); omega)

/-- **A list filled with the complement of its own sum** adds up to all ones. -/
theorem endAround_filled (start : Nat) {a : List UInt8} (ha : a.length.bodd = false) (b : List UInt8) :
    endAround 65536 (start + wordSum false (a ++ BigEndian.encode 2
      (65535 - endAround 65536 (start + wordSum false (a ++ BigEndian.encode 2 0 ++ b))) ++ b)) = 65535 := by
  have hempty := wordSum_word ha (show 0 < 65536 by decide) b
  have hfill := endAround_complement (show 2 ≤ 65536 by decide) (start + (wordSum false a + 0 + wordSum false b))
  rw [wordSum_word ha (by omega), hempty]
  refine Eq.trans (congrArg _ ?_) hfill
  omega

end Sponge.Lib
