/-
# `Sponge.NetParser` — reading and writing network byte order, and the Internet checksum.

Models `libsponge/util/parser.{hh,cc}` and the `InternetChecksum` of `libsponge/util/util.{hh,cc}`.  A
parser is the bytes that are left and the error so far; once there is an error every read returns 0 and
consumes nothing.  The texts of `as_string` are only printed and are left out.

A `BufferList` is the concatenation of its buffers, except where a payload is handed up to TCP
(`Sponge.TcpOverIp`): nothing else that is modelled looks at the seams.

What is written is read back, and what is behind it stays (`u8_append`, `u16_append`, `u32_append`).  From any
string long enough the fields at their offsets are read (`u8_field`, `u16_field`, `u32_field`), and a string that
is too short leaves an error, whatever was read from it before (`Consumes`).  A message that carries its own
checksum adds up to a checksum of 0 (`value_filled`), and with one byte changed it does not (`value_corrupted`).
-/
import Mathlib.Data.Nat.Bitwise
import Sponge.Cpp
import Sponge.Lib.OnesComplement

namespace Sponge

open Sponge.Lib

/-- The result of parsing. -/
inductive ParseResult where
  | noError
  | badChecksum
  | packetTooShort
  | wrongIPVersion
  | headerTooShort
  | truncatedPacket
  | unsupported
  deriving DecidableEq, Repr

/-! ## Stateful code, run from a state -/

theorem stateM_bind {σ α β : Type} (x : StateM σ α) (f : α → StateM σ β) (s : σ) :
    (x >>= f) s = f (x s).1 (x s).2 := rfl

/-- A bind whose first part is known. -/
theorem stateM_bind_of {σ α β : Type} {x : StateM σ α} {f : α → StateM σ β} {s s' : σ} {a : α}
    (h : x s = (a, s')) : (x >>= f) s = f a s' := by
  rw [stateM_bind, h]

theorem stateM_map {σ α β : Type} (f : α → β) (x : StateM σ α) (s : σ) :
    (f <$> x) s = (f (x s).1, (x s).2) := rfl

theorem stateM_get {σ : Type} (s : σ) : (get : StateM σ σ) s = (s, s) := rfl

theorem stateM_pure {σ α : Type} (a : α) (s : σ) : (pure a : StateM σ α) s = (a, s) := rfl

theorem stateM_ite {σ α : Type} (c : Prop) [Decidable c] (x y : StateM σ α) (s : σ) :
    (if c then x else y) s = if c then x s else y s := by
  split <;> rfl

/-! ## The parser -/

/-- `NetParser`. -/
structure NetParser where
  buffer : Bytes
  error : ParseResult := .noError
  deriving DecidableEq, Repr

namespace NetParser

/-- `NetParser::_check_size`. -/
def checkSize (p : NetParser) (size : Nat) : NetParser :=
  if size > p.buffer.length then { p with error := .packetTooShort } else p

/-- `NetParser::_parse_int<T>` for a `T` of `len` bytes. -/
def parseInt (len : Nat) : StateM NetParser Nat := fun p =>
  let p := p.checkSize len
  if p.error ≠ .noError then (0, p)
  else ((p.buffer.take len).foldl (fun ret byte => (ret * 2 ^ 8 + byte.toNat) % 2 ^ (8 * len)) 0,
    { p with buffer := p.buffer.drop len })

def u32 : StateM NetParser UInt32 := UInt32.ofNat <$> parseInt 4

def u16 : StateM NetParser UInt16 := UInt16.ofNat <$> parseInt 2

def u8 : StateM NetParser UInt8 := UInt8.ofNat <$> parseInt 1

/-- `NetParser::remove_prefix`. -/
def removePrefix (n : Nat) : StateM NetParser Unit := fun p =>
  let p := p.checkSize n
  if p.error ≠ .noError then ((), p) else ((), { p with buffer := p.buffer.drop n })

end NetParser

namespace NetUnparser

/-- `NetUnparser::_unparse_int<T>` for a `T` of `len` bytes: the bytes it appends. -/
def unparseInt (len val : Nat) : Bytes :=
  (List.range len).map fun i => UInt8.ofNat (val >>> ((len - i - 1) * 8) % 2 ^ 8)

def u32 (val : UInt32) : Bytes := unparseInt 4 val.toNat

def u16 (val : UInt16) : Bytes := unparseInt 2 val.toNat

def u8 (val : UInt8) : Bytes := unparseInt 1 val.toNat

end NetUnparser

/-! ## Reading what was written -/

/-- A field of fewer than 8 bits takes few values. -/
theorem byte_forall_lt (bound : Nat) {P : UInt8 → Prop} (h : ∀ n < bound, P (UInt8.ofNat n)) {byte : UInt8}
    (hlt : byte.toNat < bound) : P byte := by
  have hbyte := h byte.toNat hlt
  rwa [UInt8.ofNat_toNat] at hbyte

namespace NetUnparser

theorem unparseInt_eq (len val : Nat) : unparseInt len val = BigEndian.encode len val := by
  induction len with
  | zero => rfl
  | succ len ih =>
    rw [unparseInt, List.range_succ_eq_map, List.map_cons, BigEndian.encode, ← ih, unparseInt, List.map_map]
    congr 1
    · rw [Nat.shiftRight_eq_div_pow, Nat.sub_zero, Nat.add_sub_cancel, Nat.mul_comm, Nat.pow_mul]
      exact UInt8.toNat_inj.mp (by simp)
    · refine List.map_congr_left fun i _ => ?_
      rw [Function.comp_apply, show len + 1 - i.succ - 1 = len - i - 1 by omega]

@[simp] theorem u32_length (val : UInt32) : (u32 val).length = 4 := by
  rw [u32, unparseInt_eq, BigEndian.encode_length]

@[simp] theorem u16_length (val : UInt16) : (u16 val).length = 2 := by
  rw [u16, unparseInt_eq, BigEndian.encode_length]

@[simp] theorem u8_length (val : UInt8) : (u8 val).length = 1 := by
  rw [u8, unparseInt_eq, BigEndian.encode_length]

end NetUnparser

namespace NetParser

theorem checkSize_append {front : Bytes} {n : Nat} (h : front.length = n) (rest : Bytes) :
    (NetParser.mk (front ++ rest) .noError).checkSize n = { buffer := front ++ rest } := by
  rw [checkSize, if_neg (by rw [List.length_append, h]; omega)]

theorem parseInt_append {len val : Nat} (h : val < 256 ^ len) (rest : Bytes) :
    parseInt len { buffer := NetUnparser.unparseInt len val ++ rest } = (val, { buffer := rest }) := by
  have hlen := BigEndian.encode_length len val
  have hread : (BigEndian.encode len val).foldl
      (fun ret byte => (ret * 2 ^ 8 + byte.toNat) % 2 ^ (8 * len)) 0 = val := by
    have hfold := BigEndian.foldl_truncated (2 ^ (8 * len)) (BigEndian.encode len val) 0
    rw [Nat.zero_mod] at hfold
    refine hfold.trans ?_
    show BigEndian.decode (BigEndian.encode len val) % 2 ^ (8 * len) = val
    rw [BigEndian.decode_encode h, Nat.pow_mul]
    exact Nat.mod_eq_of_lt h
  rw [NetUnparser.unparseInt_eq, parseInt]
  simp only [checkSize_append hlen, List.take_left' hlen, List.drop_left' hlen, hread]
  rfl

@[simp] theorem u32_append (val : UInt32) (rest : Bytes) :
    u32 { buffer := NetUnparser.u32 val ++ rest } = (val, { buffer := rest }) := by
  rw [u32, stateM_map, NetUnparser.u32, parseInt_append val.toNat_lt, UInt32.ofNat_toNat]

@[simp] theorem u16_append (val : UInt16) (rest : Bytes) :
    u16 { buffer := NetUnparser.u16 val ++ rest } = (val, { buffer := rest }) := by
  rw [u16, stateM_map, NetUnparser.u16, parseInt_append val.toNat_lt, UInt16.ofNat_toNat]

@[simp] theorem u8_append (val : UInt8) (rest : Bytes) :
    u8 { buffer := NetUnparser.u8 val ++ rest } = (val, { buffer := rest }) := by
  rw [u8, stateM_map, NetUnparser.u8, parseInt_append val.toNat_lt, UInt8.ofNat_toNat]

theorem removePrefix_append {front : Bytes} {n : Nat} (h : front.length = n) (rest : Bytes) :
    removePrefix n { buffer := front ++ rest } = ((), { buffer := rest }) := by
  rw [removePrefix]
  simp only [checkSize_append h, List.drop_left' h]
  rfl

end NetParser

/-! ## Reading the fields of a given string -/

theorem and_two_pow_eq_zero {v i : Nat} : v &&& 2 ^ i = 0 ↔ v.testBit i = false := by
  have hpos : 0 < 2 ^ i := Nat.two_pow_pos i
  rw [Nat.and_two_pow, Nat.mul_eq_zero, or_iff_left (Nat.ne_of_gt hpos)]
  exact Bool.toNat_eq_zero

/-- A flag of a byte is a bit of its number. -/
theorem flag_of_byte {v : Nat} (hv : v < 2 ^ 8) {i : Nat} {mask : UInt8} (hmask : mask.toNat = 2 ^ i) :
    decide (UInt8.ofNat v &&& mask ≠ 0) = v.testBit i := by
  have hzero : UInt8.ofNat v &&& mask = 0 ↔ v.testBit i = false := by
    rw [← UInt8.toNat_inj, UInt8.toNat_and, UInt8.toNat_ofNat', Nat.mod_eq_of_lt hv, hmask]
    exact and_two_pow_eq_zero
  rw [Bool.eq_iff_iff, decide_eq_true_eq, Ne, hzero, Bool.not_eq_false]

/-- A flag of a word is a bit of its number. -/
theorem flag_of_word {v : Nat} (hv : v < 2 ^ 16) {i : Nat} {mask : UInt16} (hmask : mask.toNat = 2 ^ i) :
    decide (UInt16.ofNat v &&& mask ≠ 0) = v.testBit i := by
  have hzero : UInt16.ofNat v &&& mask = 0 ↔ v.testBit i = false := by
    rw [← UInt16.toNat_inj, UInt16.toNat_and, UInt16.toNat_ofNat', Nat.mod_eq_of_lt hv, hmask]
    exact and_two_pow_eq_zero
  rw [Bool.eq_iff_iff, decide_eq_true_eq, Ne, hzero, Bool.not_eq_false]

/-- The two halves of a byte. -/
theorem nibbles_of_byte {v : Nat} (hv : v < 2 ^ 8) :
    UInt8.ofNat v >>> 4 = UInt8.ofNat (v / 16) ∧ UInt8.ofNat v &&& 0x0f = UInt8.ofNat (v % 16) := by
  refine ⟨UInt8.toNat_inj.mp ?_, UInt8.toNat_inj.mp ?_⟩
  · rw [UInt8.toNat_shiftRight, UInt8.toNat_ofNat', UInt8.toNat_ofNat', Nat.mod_eq_of_lt hv]
    show v >>> 4 = v / 16 % 2 ^ 8
    rw [Nat.shiftRight_eq_div_pow]
    omega
  · rw [UInt8.toNat_and, UInt8.toNat_ofNat', UInt8.toNat_ofNat', Nat.mod_eq_of_lt hv]
    show v &&& (2 ^ 4 - 1) = v % 16 % 2 ^ 8
    rw [Nat.and_two_pow_sub_one_eq_mod]
    omega

namespace NetParser

open BigEndian (field)

theorem checkSize_of_le {p : NetParser} {n : Nat} (h : n ≤ p.buffer.length) : p.checkSize n = p :=
  if_neg (Nat.not_lt.mpr h)

theorem checkSize_of_lt {p : NetParser} {n : Nat} (h : p.buffer.length < n) :
    p.checkSize n = { p with error := .packetTooShort } := if_pos h

section Fields

variable (bytes : Bytes) (offset : Nat)

/-- A field's bytes are those of the number it holds. -/
theorem unparseInt_split {len : Nat} (h : offset + len ≤ bytes.length) :
    bytes.drop offset = NetUnparser.unparseInt len (field bytes offset len) ++ bytes.drop (offset + len) := by
  rw [NetUnparser.unparseInt_eq, BigEndian.encode_field h, ← List.drop_drop, List.take_append_drop]

theorem u32_split (h : offset + 4 ≤ bytes.length) :
    ∃ val : UInt32, bytes.drop offset = NetUnparser.u32 val ++ bytes.drop (offset + 4) := by
  refine ⟨UInt32.ofNat (field bytes offset 4), ?_⟩
  rw [NetUnparser.u32, UInt32.toNat_ofNat_of_lt' (BigEndian.field_lt bytes offset 4)]
  exact unparseInt_split bytes offset h

theorem u16_split (h : offset + 2 ≤ bytes.length) :
    ∃ val : UInt16, bytes.drop offset = NetUnparser.u16 val ++ bytes.drop (offset + 2) := by
  refine ⟨UInt16.ofNat (field bytes offset 2), ?_⟩
  rw [NetUnparser.u16, UInt16.toNat_ofNat_of_lt' (BigEndian.field_lt bytes offset 2)]
  exact unparseInt_split bytes offset h

theorem u8_split (h : offset + 1 ≤ bytes.length) :
    ∃ val : UInt8, bytes.drop offset = NetUnparser.u8 val ++ bytes.drop (offset + 1) := by
  refine ⟨UInt8.ofNat (field bytes offset 1), ?_⟩
  rw [NetUnparser.u8, UInt8.toNat_ofNat_of_lt' (BigEndian.field_lt bytes offset 1)]
  exact unparseInt_split bytes offset h

theorem parseInt_field {len : Nat} (h : offset + len ≤ bytes.length) :
    parseInt len { buffer := bytes.drop offset }
      = (field bytes offset len, { buffer := bytes.drop (offset + len) }) := by
  conv_lhs => rw [unparseInt_split bytes offset h]
  exact parseInt_append (BigEndian.field_lt bytes offset len) _

theorem u32_field (h : offset + 4 ≤ bytes.length) : u32 { buffer := bytes.drop offset }
    = (UInt32.ofNat (field bytes offset 4), { buffer := bytes.drop (offset + 4) }) := by
  rw [u32, stateM_map, parseInt_field bytes offset h]

theorem u16_field (h : offset + 2 ≤ bytes.length) : u16 { buffer := bytes.drop offset }
    = (UInt16.ofNat (field bytes offset 2), { buffer := bytes.drop (offset + 2) }) := by
  rw [u16, stateM_map, parseInt_field bytes offset h]

theorem u8_field (h : offset + 1 ≤ bytes.length) : u8 { buffer := bytes.drop offset }
    = (UInt8.ofNat (field bytes offset 1), { buffer := bytes.drop (offset + 1) }) := by
  rw [u8, stateM_map, parseInt_field bytes offset h]

theorem removePrefix_field (n : Nat) (h : offset ≤ bytes.length) : removePrefix n { buffer := bytes.drop offset }
    = ((), if offset + n ≤ bytes.length then { buffer := bytes.drop (offset + n) }
        else { buffer := bytes.drop offset, error := .packetTooShort }) := by
  by_cases hle : offset + n ≤ bytes.length
  · rw [removePrefix, checkSize_of_le (by rw [List.length_drop]; omega), if_pos hle]
    dsimp only
    rw [List.drop_drop]
    rfl
  · rw [removePrefix, checkSize_of_lt (by rw [List.length_drop]; omega), if_neg hle]
    rfl

/-- What a header of `4 * n` bytes has behind its first 20. -/
theorem removePrefix_options {n : Nat} (hmin : 5 ≤ n) (h : 20 ≤ bytes.length) :
    removePrefix (n * 4 - 20) { buffer := bytes.drop 20 }
      = ((), if 4 * n ≤ bytes.length then { buffer := bytes.drop (4 * n) }
          else { buffer := bytes.drop 20, error := .packetTooShort }) := by
  rw [removePrefix_field bytes 20 _ h, show 20 + (n * 4 - 20) = 4 * n by omega]

end Fields

/-! ## How much is read -/

/-- What ends without error has taken at least `n` bytes, and there was none before. -/
def Consumes {α : Type} (n : Nat) (x : StateM NetParser α) : Prop :=
  ∀ p, (x p).2.error = .noError → p.error = .noError ∧ n + (x p).2.buffer.length ≤ p.buffer.length

section Consumes

variable {α β : Type} {n m : Nat}

theorem Consumes.pure (a : α) : Consumes 0 (pure a : StateM NetParser α) :=
  fun _ h => ⟨h, Nat.le_of_eq (Nat.zero_add _)⟩

theorem Consumes.get : Consumes 0 (get : StateM NetParser NetParser) :=
  fun _ h => ⟨h, Nat.le_of_eq (Nat.zero_add _)⟩

theorem Consumes.map {x : StateM NetParser α} (h : Consumes n x) (f : α → β) : Consumes n (f <$> x) := h

theorem Consumes.bind {x : StateM NetParser α} {f : α → StateM NetParser β} (hx : Consumes n x)
    (hf : ∀ a, Consumes m (f a)) : Consumes (n + m) (x >>= f) := by
  intro p h
  rw [stateM_bind] at h ⊢
  obtain ⟨herror, hlen⟩ := hf (x p).1 (x p).2 h
  obtain ⟨herror', hlen'⟩ := hx p herror
  exact ⟨herror', by omega⟩

theorem Consumes.mono {x : StateM NetParser α} (h : Consumes n x) (hle : m ≤ n) : Consumes m x := by
  intro p hp
  obtain ⟨herror, hlen⟩ := h p hp
  exact ⟨herror, by omega⟩

theorem Consumes.ite {c : Prop} [Decidable c] {x y : StateM NetParser α} (hx : Consumes n x)
    (hy : Consumes n y) : Consumes n (if c then x else y) := by
  split
  · exact hx
  · exact hy

theorem Consumes.removePrefix (n : Nat) : Consumes n (removePrefix n) := by
  intro p h
  rw [NetParser.removePrefix] at h ⊢
  by_cases hle : n ≤ p.buffer.length
  · rw [checkSize_of_le hle] at h ⊢
    by_cases herror : p.error = .noError
    · rw [if_neg (not_not.mpr herror)]
      dsimp only
      rw [List.length_drop]
      exact ⟨herror, by omega⟩
    · rw [if_pos herror] at h
      exact absurd h herror
  · rw [checkSize_of_lt (Nat.lt_of_not_le hle)] at h
    exact absurd h (by simp)

/-- A number is taken off the front like any other bytes. -/
theorem parseInt_state (len : Nat) (p : NetParser) :
    (NetParser.parseInt len p).2 = (NetParser.removePrefix len p).2 := by
  rw [NetParser.parseInt, NetParser.removePrefix]
  split
  · rfl
  · rfl

theorem Consumes.parseInt (len : Nat) : Consumes len (parseInt len) := by
  intro p h
  rw [parseInt_state] at h ⊢
  exact Consumes.removePrefix len p h

theorem Consumes.u32 : Consumes 4 u32 := (Consumes.parseInt 4).map UInt32.ofNat

theorem Consumes.u16 : Consumes 2 u16 := (Consumes.parseInt 2).map UInt16.ofNat

theorem Consumes.u8 : Consumes 1 u8 := (Consumes.parseInt 1).map UInt8.ofNat

end Consumes

end NetParser

/-! ## The Internet checksum -/

/-- `InternetChecksum`. -/
structure InternetChecksum where
  sum : UInt32 := 0
  parity : Bool := false
  deriving DecidableEq, Repr

namespace InternetChecksum

/-- One round of the loop of `add`. -/
def addByte (c : InternetChecksum) (byte : UInt8) : InternetChecksum :=
  let val := if !c.parity then byte.toUInt32 <<< 8 else byte.toUInt32
  { sum := c.sum + val, parity := !c.parity }

/-- `InternetChecksum::add`. -/
def add (c : InternetChecksum) (data : Bytes) : InternetChecksum := data.foldl addByte c

/-- The loop of `value`. -/
def fold (ret : Nat) : Nat :=
  if ret > 0xffff then fold (ret / 2 ^ 16 + ret % 2 ^ 16) else ret
termination_by ret
decreasing_by omega

/-- `InternetChecksum::value`. -/
def value (c : InternetChecksum) : UInt16 := ~~~ UInt16.ofNat (fold c.sum.toNat)

theorem add_append (c : InternetChecksum) (a b : Bytes) : c.add (a ++ b) = (c.add a).add b :=
  List.foldl_append

theorem fold_eq (ret : Nat) : fold ret = endAround 65536 ret := by
  induction ret using Nat.strong_induction_on with
  | h ret ih =>
    rw [fold]
    by_cases hbig : ret > 0xffff
    · rw [if_pos hbig, endAround_of_le (by decide) (by omega)]
      exact ih _ (by omega)
    · rw [if_neg hbig, endAround_of_lt (by omega)]

/-- One round of the loop of `value`. -/
def carry (ret : Nat) : Nat := ret / 2 ^ 16 + ret % 2 ^ 16

/-- **The loop of `value` ends**, at the first number that fits 16 bits. -/
theorem fold_rounds (ret : Nat) : ∃ rounds, fold ret = carry^[rounds] ret ∧ carry^[rounds] ret ≤ 0xffff ∧
    ∀ k < rounds, 0xffff < carry^[k] ret := by
  induction ret using Nat.strong_induction_on with
  | h ret ih =>
    rw [fold]
    by_cases hbig : ret > 0xffff
    · obtain ⟨rounds, heq, hsmall, hrounds⟩ := ih (carry ret) (by rw [carry]; omega)
      refine ⟨rounds + 1, ?_, hsmall, fun k hk => ?_⟩
      · rw [if_pos hbig]
        exact heq
      · cases k with
        | zero => exact hbig
        | succ k => exact hrounds k (by omega)
    · exact ⟨0, if_neg hbig, by simpa using hbig, fun k hk => absurd hk (Nat.not_lt_zero k)⟩

theorem value_toNat (c : InternetChecksum) : c.value.toNat = 65535 - endAround 65536 c.sum.toNat := by
  have hlt := endAround_lt (show 2 ≤ 65536 by decide) c.sum.toNat
  rw [value, fold_eq]
  simp
  omega

/-- `_sum` is the sum of the words, in 32 bits. -/
theorem add_sum (c : InternetChecksum) (data : Bytes) :
    (c.add data).sum.toNat = (c.sum.toNat + wordSum c.parity data) % 2 ^ 32 := by
  induction data generalizing c with
  | nil =>
    have := c.sum.toNat_lt
    simp [add, wordSum]
  | cons byte data ih =>
    have hbyte := byte.toNat_lt
    show ((c.addByte byte).add data).sum.toNat = _
    rw [ih]
    cases hp : c.parity with
    | false =>
      have hshift : (byte.toUInt32 <<< 8).toNat = byte.toNat * 256 := by
        simp [Nat.shiftLeft_eq]
        omega
      simp only [addByte, hp, Bool.not_false, if_true, UInt32.toNat_add, hshift, wordSum]
      omega
    | true =>
      simp only [addByte, hp, Bool.not_true, Bool.false_eq_true, if_false, UInt32.toNat_add,
        UInt8.toNat_toUInt32, wordSum]
      omega

/-- Strings that are added one after another are added like one string. -/
theorem foldl_add (c : InternetChecksum) (pieces : List Bytes) : pieces.foldl add c = c.add pieces.flatten := by
  induction pieces generalizing c with
  | nil => rfl
  | cons piece pieces ih => rw [List.foldl_cons, ih, List.flatten_cons, add_append]

/-- A short string does not wrap the sum. -/
theorem add_sum_of_small {start : UInt32} {data : Bytes} (h : start.toNat + 65280 * data.length < 2 ^ 32) :
    (add { sum := start } data).sum.toNat = start.toNat + wordSum false data := by
  have hle := wordSum_le false data
  rw [add_sum]
  exact Nat.mod_eq_of_lt (by dsimp only; omega)

theorem value_eq_zero {c : InternetChecksum} : c.value = 0 ↔ endAround 65536 c.sum.toNat = 65535 := by
  have hlt := endAround_lt (show 2 ≤ 65536 by decide) c.sum.toNat
  rw [← UInt16.toNat_inj, value_toNat, UInt16.toNat_zero]
  omega

/-- The checksum verifies: the start and the words of the data have a one's-complement sum of all ones. -/
def Verifies (start : UInt32) (data : Bytes) : Prop :=
  onesSum 65536 (start.toNat / 65536 :: start.toNat % 65536 :: words data) = 65535

instance instDecidableVerifies (start : UInt32) (data : Bytes) : Decidable (Verifies start data) :=
  instDecidableEqNat _ _

/-- It verifies in 32 bits: what is left of the sum there is carried to all ones. -/
def Verifies32 (start : UInt32) (data : Bytes) : Prop :=
  endAround 65536 ((start.toNat + (words data).sum) % 2 ^ 32) = 65535

instance instDecidableVerifies32 (start : UInt32) (data : Bytes) : Decidable (Verifies32 start data) :=
  instDecidableEqNat _ _

theorem value_add_eq_zero {start : UInt32} {data : Bytes} :
    (add { sum := start } data).value = 0 ↔ Verifies32 start data := by
  rw [value_eq_zero, add_sum, wordSum_eq_sum, Verifies32]

/-- The two are the same as long as the sum does not wrap. -/
theorem verifies32_of_small {start : UInt32} {data : Bytes} (h : start.toNat + 65280 * data.length < 2 ^ 32) :
    Verifies32 start data ↔ Verifies start data := by
  have hle := wordSum_le false data
  rw [Verifies, onesSum_words start.toNat_lt, Verifies32, ← wordSum_eq_sum, Nat.mod_eq_of_lt (by omega)]

/-- **A changed byte is seen**: a message whose checksum was right has a wrong one afterwards. -/
theorem value_corrupted {start : UInt32} {bytes : Bytes} {i : Nat} {old new : UInt8}
    (h : bytes[i]? = some old) (hne : new ≠ old) (hsum : start.toNat + 65280 * bytes.length < 2 ^ 32)
    (hright : (add { sum := start } bytes).value = 0) : (add { sum := start } (bytes.set i new)).value ≠ 0 := by
  rw [value_eq_zero, add_sum_of_small hsum] at hright
  rw [Ne, value_eq_zero, add_sum_of_small (by rw [List.length_set]; exact hsum)]
  exact endAround_corrupted h hne hright

/-- **A message that carries its own checksum**: the field, at an even offset, was 0 when the checksum was
taken. -/
theorem value_filled {start : UInt32} {front rest : Bytes} (hfront : front.length.bodd = false)
    (hsum : start.toNat + 65280 * (front.length + 2 + rest.length) < 2 ^ 32) :
    (add { sum := start } (front ++ NetUnparser.u16
      (add { sum := start } (front ++ NetUnparser.u16 0 ++ rest)).value ++ rest)).value = 0 := by
  have hsmall : ∀ v : UInt16, (add { sum := start } (front ++ NetUnparser.u16 v ++ rest)).sum.toNat
      = start.toNat + wordSum false (front ++ BigEndian.encode 2 v.toNat ++ rest) := by
    intro v
    rw [add_sum_of_small (by rw [List.length_append, List.length_append, NetUnparser.u16_length]; exact hsum),
      NetUnparser.u16, NetUnparser.unparseInt_eq]
  have hfold := endAround_filled start.toNat hfront rest
  have hvalue := value_toNat (add { sum := start } (front ++ NetUnparser.u16 0 ++ rest))
  rw [hsmall 0] at hvalue
  refine UInt16.toNat_inj.mp ?_
  rw [value_toNat, hsmall, hvalue]
  exact (congrArg (65535 - ·) hfold).trans (Nat.sub_self _)

end InternetChecksum

end Sponge
