/-
# `Sponge.Lib.BigEndian` — numbers as bytes, most significant byte first.

`encode len val` is the lowest `len` bytes of `val`, and `decode` reads any list of bytes as a number.  A reader
that truncates after every byte reads the same as one that truncates at the end (`foldl_truncated`), so a
fixed-width register loses nothing that fits it.  The two are inverse to each other for every width
(`decode_encode`, `encode_decode`).  `field` reads a number at an offset of a longer list.
-/
import Mathlib.Algebra.GroupWithZero.Nat
import Mathlib.Tactic.Ring

namespace Sponge.Lib.BigEndian

def encode : Nat → Nat → List UInt8
  | 0, _ => []
  | len + 1, val => UInt8.ofNat (val / 256 ^ len) :: encode len val

def decode (bytes : List UInt8) : Nat := bytes.foldl (fun ret byte => ret * 256 + byte.toNat) 0

@[simp] theorem encode_length (len val : Nat) : (encode len val).length = len := by
  induction len with
  | zero => rfl
  | succ len ih => rw [encode, List.length_cons, ih]

/-- Reading goes on behind what has been read. -/
theorem foldl_encode (len val start : Nat) :
    (encode len val).foldl (fun ret byte => ret * 256 + byte.toNat) start
      = start * 256 ^ len + val % 256 ^ len := by
  induction len generalizing start with
  | zero => simp [encode, Nat.mod_one]
  | succ len ih =>
    rw [encode, List.foldl_cons, ih, UInt8.toNat_ofNat', Nat.pow_succ 256 len]
    -- the byte at the front is the quotient by `256 ^ len`, the others the remainder
    have hsplit : val % (256 ^ len * 256) = 256 ^ len * (val / 256 ^ len % 256) + val % 256 ^ len := by
      rw [Nat.mod_mul, Nat.add_comm]
    rw [hsplit]
    ring

theorem decode_encode {len val : Nat} (h : val < 256 ^ len) : decode (encode len val) = val := by
  rw [decode, foldl_encode, Nat.mod_eq_of_lt h, Nat.zero_mul, Nat.zero_add]

theorem foldl_decode (bytes : List UInt8) (start : Nat) :
    bytes.foldl (fun ret byte => ret * 256 + byte.toNat) start
      = start * 256 ^ bytes.length + decode bytes := by
  induction bytes generalizing start with
  | nil => simp [decode]
  | cons byte bytes ih =>
    have hcons : decode (byte :: bytes) = (0 * 256 + byte.toNat) * 256 ^ bytes.length + decode bytes := ih _
    rw [List.foldl_cons, ih, hcons, List.length_cons, Nat.pow_succ]
    ring

theorem decode_cons (byte : UInt8) (bytes : List UInt8) :
    decode (byte :: bytes) = byte.toNat * 256 ^ bytes.length + decode bytes := by
  rw [decode, List.foldl_cons, foldl_decode, Nat.zero_mul, Nat.zero_add]

theorem decode_lt (bytes : List UInt8) : decode bytes < 256 ^ bytes.length := by
  induction bytes with
  | nil => exact Nat.one_pos
  | cons byte bytes ih =>
    rw [decode_cons, List.length_cons, Nat.pow_succ, Nat.mul_comm (256 ^ bytes.length)]
    calc byte.toNat * 256 ^ bytes.length + decode bytes
        < byte.toNat * 256 ^ bytes.length + 256 ^ bytes.length := Nat.add_lt_add_left ih _
      _ = (byte.toNat + 1) * 256 ^ bytes.length := by ring
      _ ≤ 256 * 256 ^ bytes.length := Nat.mul_le_mul_right _ byte.toNat_lt

/-- Only the lowest `len` bytes are written. -/
theorem encode_add_mul (len k val : Nat) : encode len (k * 256 ^ len + val) = encode len val := by
  induction len generalizing k with
  | zero => rfl
  | succ len ih =>
    have hshift : k * 256 ^ (len + 1) + val = (k * 256) * 256 ^ len + val := by
      rw [Nat.pow_succ]
      ring
    have hpos : 0 < 256 ^ len := Nat.pow_pos (by decide)
    rw [encode, encode, hshift, ih, Nat.add_comm, Nat.add_mul_div_right _ _ hpos]
    congr 1
    exact UInt8.toNat_inj.mp (by simp)

/-- **What was read can be written again.** -/
theorem encode_decode (bytes : List UInt8) : encode bytes.length (decode bytes) = bytes := by
  induction bytes with
  | nil => rfl
  | cons byte bytes ih =>
    have hpos : 0 < 256 ^ bytes.length := Nat.pow_pos (by decide)
    rw [decode_cons, List.length_cons, encode, encode_add_mul, ih, Nat.add_comm,
      Nat.add_mul_div_right _ _ hpos, Nat.div_eq_of_lt (decode_lt bytes), Nat.zero_add, UInt8.ofNat_toNat]

/-- The number in the `len` bytes from `offset` on. -/
def field (bytes : List UInt8) (offset len : Nat) : Nat := decode ((bytes.drop offset).take len)

theorem field_lt (bytes : List UInt8) (offset len : Nat) : field bytes offset len < 256 ^ len := by
  refine Nat.lt_of_lt_of_le (decode_lt _) (Nat.pow_le_pow_right (by decide) ?_)
  exact List.length_take_le _ _

theorem encode_field {bytes : List UInt8} {offset len : Nat} (h : offset + len ≤ bytes.length) :
    encode len (field bytes offset len) = (bytes.drop offset).take len := by
  have hlen : ((bytes.drop offset).take len).length = len := by
    rw [List.length_take, List.length_drop]
    omega
  have hinverse := encode_decode ((bytes.drop offset).take len)
  rwa [hlen] at hinverse

/-- Truncating after every byte, or once at the end. -/
theorem foldl_truncated (m : Nat) (bytes : List UInt8) (start : Nat) :
    bytes.foldl (fun ret byte => (ret * 256 + byte.toNat) % m) (start % m)
      = bytes.foldl (fun ret byte => ret * 256 + byte.toNat) start % m := by
  induction bytes generalizing start with
  | nil => rfl
  | cons byte bytes ih =>
    rw [List.foldl_cons, List.foldl_cons, ← ih, Nat.add_mod, Nat.mul_mod, Nat.mod_mod, ← Nat.mul_mod,
      ← Nat.add_mod]

end Sponge.Lib.BigEndian
