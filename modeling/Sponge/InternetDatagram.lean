/-
# `Sponge.InternetDatagram` — IPv4 headers and datagrams.

Models `libsponge/tcp_helpers/ipv4_header.{hh,cc}` and `ipv4_datagram.{hh,cc}`.  `parse` on a header fills
the header that it is called on and may stop half way, so it takes the header and gives it back.

`IPv4Datagram::parse` drops what the header's parser reports and asks only whether the payload has the
length that the header gives; `IPv4Datagram::serialize` throws for a payload of another length, and the
header's serializer for a version other than 4 or a header below 20 bytes (`serialize_returns_iff`).

A datagram whose fields fit the wire (`IPv4Header.Fits`) and whose length field is right is read back from its
bytes with the checksum filled in (`survivesWire`).  `ofBytes` are the fields of any 20 bytes, `Framed` what the
header's parser asks of them; of this the datagram's parser notices what changes the length of the payload
(`parse_accepts_framed`).
-/
import Sponge.NetParser

namespace Sponge

open Sponge.Lib

open BigEndian (field)

/-- `IPv4Header`. -/
structure IPv4Header where
  ver : UInt8 := 4
  hlen : UInt8 := 5
  tos : UInt8 := 0
  len : UInt16 := 0
  id : UInt16 := 0
  df : Bool := true
  mf : Bool := false
  offset : UInt16 := 0
  ttl : UInt8 := 128
  proto : UInt8 := 6
  cksum : UInt16 := 0
  src : UInt32 := 0
  dst : UInt32 := 0
  deriving DecidableEq, Repr

namespace IPv4Header

def LENGTH : Nat := 20

def PROTO_TCP : UInt8 := 6

/-- `IPv4Header::payload_length`. -/
def payloadLength (h : IPv4Header) : UInt16 := h.len - 4 * h.hlen.toUInt16

/-- `IPv4Header::pseudo_cksum`. -/
def pseudoCksum (h : IPv4Header) : UInt32 :=
  let pcksum := (h.src >>> 16) + (h.src &&& 0xffff)
  let pcksum := pcksum + ((h.dst >>> 16) + (h.dst &&& 0xffff))
  let pcksum := pcksum + h.proto.toUInt32
  pcksum + h.payloadLength.toUInt32

open NetParser in
/-- `IPv4Header::parse`: what it reports, and the header as far as it was read. -/
def parse (h : IPv4Header) : StateM NetParser (ParseResult × IPv4Header) := do
  let originalSerializedVersion := (← get).buffer
  let dataSize := (← get).buffer.length
  if dataSize < LENGTH then return (.packetTooShort, h)
  let firstByte ← u8
  let h := { h with ver := firstByte >>> 4, hlen := firstByte &&& 0x0f }
  let tos ← u8
  let len ← u16
  let id ← u16
  let foVal ← u16
  let ttl ← u8
  let proto ← u8
  let cksum ← u16
  let src ← u32
  let dst ← u32
  let h := { h with
    tos := tos
    len := len
    id := id
    df := foVal &&& 0x4000 ≠ 0
    mf := foVal &&& 0x2000 ≠ 0
    offset := foVal &&& 0x1fff
    ttl := ttl
    proto := proto
    cksum := cksum
    src := src
    dst := dst }
  if dataSize < 4 * h.hlen.toNat then return (.packetTooShort, h)
  if h.ver ≠ 4 then return (.wrongIPVersion, h)
  if h.hlen < 5 then return (.headerTooShort, h)
  if dataSize ≠ h.len.toNat then return (.truncatedPacket, h)
  removePrefix (h.hlen.toNat * 4 - LENGTH)
  if (← get).error ≠ .noError then return ((← get).error, h)
  let check := InternetChecksum.add {} (originalSerializedVersion.take (4 * h.hlen.toNat))
  if check.value ≠ 0 then return (.badChecksum, h)
  return (.noError, h)

/-- `IPv4Header::serialize`. -/
def serialize (h : IPv4Header) : Except Exception Bytes :=
  if h.ver ≠ 4 then .error (.runtimeError "wrong IP version")
  else if 4 * h.hlen.toNat < LENGTH then .error (.runtimeError "IP header too short")
  else
    let foVal := (if h.df then 0x4000 else 0) ||| (if h.mf then 0x2000 else 0) ||| (h.offset &&& 0x1fff)
    let ret := NetUnparser.u8 (h.ver <<< 4 ||| (h.hlen &&& 0xf)) ++ NetUnparser.u8 h.tos
      ++ NetUnparser.u16 h.len ++ NetUnparser.u16 h.id ++ NetUnparser.u16 foVal
      ++ NetUnparser.u8 h.ttl ++ NetUnparser.u8 h.proto ++ NetUnparser.u16 h.cksum
      ++ NetUnparser.u32 h.src ++ NetUnparser.u32 h.dst
    -- `ret.resize(4 * hlen)`
    .ok (ret.take (4 * h.hlen.toNat) ++ List.replicate (4 * h.hlen.toNat - ret.length) 0)

theorem serialize_returns_iff (h : IPv4Header) :
    (∃ bytes, h.serialize = .ok bytes) ↔ h.ver = 4 ∧ LENGTH ≤ 4 * h.hlen.toNat := by
  rw [serialize]
  split
  · rename_i hver
    simp [hver]
  · rename_i hver
    split
    · rename_i hshort
      simp [hshort]
    · rename_i hlong
      exact ⟨fun _ => ⟨not_not.mp hver, Nat.le_of_not_lt hlong⟩, fun _ => ⟨_, rfl⟩⟩

theorem offset_of_word {v : Nat} (hv : v < 2 ^ 16) :
    UInt16.ofNat v &&& 0x1fff = UInt16.ofNat (v % 2 ^ 13) := by
  refine UInt16.toNat_inj.mp ?_
  rw [UInt16.toNat_and, UInt16.toNat_ofNat', UInt16.toNat_ofNat', Nat.mod_eq_of_lt hv]
  show v &&& (2 ^ 13 - 1) = v % 2 ^ 13 % 2 ^ 16
  rw [Nat.and_two_pow_sub_one_eq_mod]
  omega

theorem payloadLength_eq {h : IPv4Header} {size : Nat} (hlen : h.len.toNat = 4 * h.hlen.toNat + size) :
    h.payloadLength.toNat = size := by
  have hbyte := h.hlen.toNat_lt
  have hfour : (4 * h.hlen.toUInt16).toNat = 4 * h.hlen.toNat := by
    rw [UInt16.toNat_mul, UInt8.toNat_toUInt16]
    exact Nat.mod_eq_of_lt (by show 4 * h.hlen.toNat < 2 ^ 16; omega)
  rw [payloadLength, UInt16.toNat_sub_of_le _ _ (UInt16.le_iff_toNat_le.mpr (by omega)), hfour]
  omega

theorem pseudoCksum_le (h : IPv4Header) : h.pseudoCksum.toNat ≤ 5 * 65535 + 255 := by
  have hhalf : ∀ a : UInt32, (a >>> 16).toNat ≤ 65535 ∧ (a &&& 0xffff).toNat ≤ 65535 := by
    intro a
    have ha := a.toNat_lt
    refine ⟨?_, ?_⟩
    · rw [UInt32.toNat_shiftRight]
      simp [Nat.shiftRight_eq_div_pow]
      omega
    · rw [UInt32.toNat_and]
      exact Nat.and_le_right
  have hsrc := hhalf h.src
  have hdst := hhalf h.dst
  have hproto := h.proto.toNat_lt
  have hsize := h.payloadLength.toNat_lt
  simp only [pseudoCksum, UInt32.toNat_add, UInt8.toNat_toUInt32, UInt16.toNat_toUInt32]
  omega

/-- A pseudo-checksum and `size` bytes do not fill the 32 bits of the sum. -/
theorem pseudoCksum_add_lt (h : IPv4Header) {size : Nat} (hsize : size ≤ 65535) :
    h.pseudoCksum.toNat + 65280 * size < 2 ^ 32 := by
  have hpseudo := h.pseudoCksum_le
  omega

open InternetChecksum in
/-- **The checksum of a message in pieces**, from a pseudo-checksum on: at no point of the way does the sum wrap,
the loop of `value` ends, and what it returns is the complement of the one's-complement sum of the two halves of
the pseudo-checksum and the words of the message, however that is cut into pieces. -/
theorem checksum_of_pieces (h : IPv4Header) {pieces : List Bytes} (hsize : pieces.flatten.length ≤ 65535) :
    (∀ (done : List Bytes) (part : Bytes), done.flatten ++ part <+: pieces.flatten →
      ((done.foldl add { sum := h.pseudoCksum }).add part).sum.toNat
        = h.pseudoCksum.toNat + (words (done.flatten ++ part)).sum) ∧
    (∃ rounds, let ret := (pieces.foldl add { sum := h.pseudoCksum }).sum.toNat
      (∀ k < rounds, 0xffff < carry^[k] ret) ∧ carry^[rounds] ret ≤ 0xffff ∧
      (pieces.foldl add { sum := h.pseudoCksum }).value = ~~~ UInt16.ofNat (carry^[rounds] ret)) ∧
    ∀ others : List Bytes, others.flatten = pieces.flatten →
      (others.foldl add { sum := h.pseudoCksum }).value = ~~~ UInt16.ofNat (onesSum 65536
        (h.pseudoCksum.toNat / 65536 :: h.pseudoCksum.toNat % 65536 :: words pieces.flatten)) := by
  refine ⟨?_, ?_, ?_⟩
  · intro done part hfront
    have hshort : (done.flatten ++ part).length ≤ 65535 := Nat.le_trans hfront.length_le hsize
    rw [foldl_add, ← add_append, add_sum_of_small (h.pseudoCksum_add_lt hshort), wordSum_eq_sum]
  · obtain ⟨rounds, hfold, hend, hrounds⟩ := fold_rounds (pieces.foldl add { sum := h.pseudoCksum }).sum.toNat
    exact ⟨rounds, hrounds, hend, by rw [value, hfold]⟩
  · intro others hothers
    rw [foldl_add, hothers, value, fold_eq, add_sum_of_small (h.pseudoCksum_add_lt hsize),
      onesSum_words h.pseudoCksum.toNat_lt]

/-- Three pieces of odd lengths, cut another way. -/
theorem checksum_of_pieces_odd :
    ([[1, 2, 3], [4], [5]].foldl InternetChecksum.add { sum := ({} : IPv4Header).pseudoCksum }).value
      = ([[1], [2, 3, 4, 5]].foldl InternetChecksum.add { sum := ({} : IPv4Header).pseudoCksum }).value :=
  have h := (checksum_of_pieces {} (show ([[1, 2, 3], [4], [5]] : List Bytes).flatten.length ≤ 65535 by decide)).2.2
  (h [[1, 2, 3], [4], [5]] rfl).trans (h [[1], [2, 3, 4, 5]] rfl).symm

/-! ## Headers that were written -/

/-- The fields fit the bits they have on the wire. -/
structure Fits (h : IPv4Header) : Prop where
  ver : h.ver = 4
  hmin : 5 ≤ h.hlen
  hmax : h.hlen ≤ 15
  offset : h.offset &&& 0x1fff = h.offset

/-- The flags and the fragment offset. -/
def foVal (h : IPv4Header) : UInt16 :=
  (if h.df then 0x4000 else 0) ||| (if h.mf then 0x2000 else 0) ||| (h.offset &&& 0x1fff)

/-- The bytes before the checksum field. -/
def beforeCksum (h : IPv4Header) : Bytes :=
  NetUnparser.u8 (h.ver <<< 4 ||| (h.hlen &&& 0xf)) ++ NetUnparser.u8 h.tos ++ NetUnparser.u16 h.len
    ++ NetUnparser.u16 h.id ++ NetUnparser.u16 h.foVal ++ NetUnparser.u8 h.ttl ++ NetUnparser.u8 h.proto

/-- The bytes behind the checksum field: the addresses and the options, all 0. -/
def afterCksum (h : IPv4Header) : Bytes :=
  NetUnparser.u32 h.src ++ NetUnparser.u32 h.dst ++ List.replicate (4 * h.hlen.toNat - LENGTH) 0

@[simp] theorem beforeCksum_length (h : IPv4Header) : h.beforeCksum.length = 10 := by
  simp [beforeCksum]

variable {h : IPv4Header}

/-- Neither the checksum nor the time to live is among them. -/
theorem Fits.withCksum (hf : h.Fits) (cksum : UInt16) : ({ h with cksum := cksum } : IPv4Header).Fits :=
  ⟨hf.ver, hf.hmin, hf.hmax, hf.offset⟩

theorem Fits.withTtl (hf : h.Fits) (ttl : UInt8) : ({ h with ttl := ttl } : IPv4Header).Fits :=
  ⟨hf.ver, hf.hmin, hf.hmax, hf.offset⟩

theorem Fits.hlen_bounds (hf : h.Fits) : 5 ≤ h.hlen.toNat ∧ h.hlen.toNat < 16 :=
  ⟨UInt8.le_iff_toNat_le.mp hf.hmin, Nat.lt_succ_of_le (UInt8.le_iff_toNat_le.mp hf.hmax)⟩

theorem Fits.afterCksum_length (hf : h.Fits) : h.afterCksum.length = 4 * h.hlen.toNat - 12 := by
  have := hf.hlen_bounds
  simp [afterCksum, LENGTH]
  omega

theorem Fits.serialize_eq (hf : h.Fits) :
    h.serialize = .ok (h.beforeCksum ++ NetUnparser.u16 h.cksum ++ h.afterCksum) := by
  have hbounds := hf.hlen_bounds
  rw [serialize, if_neg (not_not.mpr hf.ver), if_neg (by simp only [LENGTH]; omega)]
  dsimp only
  rw [List.take_of_length_le (by simp; omega)]
  simp [beforeCksum, afterCksum, foVal, LENGTH]

theorem Fits.first_byte (hf : h.Fits) :
    (h.ver <<< 4 ||| (h.hlen &&& 0xf)) >>> 4 = h.ver ∧
    (h.ver <<< 4 ||| (h.hlen &&& 0xf)) &&& 0x0f = h.hlen := by
  rw [hf.ver]
  exact byte_forall_lt 16 (P := fun hlen => ((4 : UInt8) <<< 4 ||| (hlen &&& 0xf)) >>> 4 = 4 ∧
    ((4 : UInt8) <<< 4 ||| (hlen &&& 0xf)) &&& 0x0f = hlen) (by decide) hf.hlen_bounds.2

/-- Each part of the flags and the offset is read from the bits it was written to. -/
theorem Fits.foVal_fields (hf : h.Fits) :
    decide (h.foVal &&& 0x4000 ≠ 0) = h.df ∧ decide (h.foVal &&& 0x2000 ≠ 0) = h.mf ∧
    h.foVal &&& 0x1fff = h.offset := by
  have hdistrib : ∀ a b c : UInt16, (a ||| b) &&& c = (a &&& c) ||| (b &&& c) :=
    fun a b c => UInt16.toBitVec_inj.mp BitVec.and_or_distrib_right
  -- the three parts share no bit
  have hoffset : h.offset &&& 0x4000 = 0 ∧ h.offset &&& 0x2000 = 0 := by
    rw [← hf.offset, UInt16.and_assoc, UInt16.and_assoc, show (0x1fff &&& 0x4000 : UInt16) = 0 by decide,
      show (0x1fff &&& 0x2000 : UInt16) = 0 by decide]
    exact ⟨UInt16.and_zero, UInt16.and_zero⟩
  have hdf : ∀ df : Bool, (if df then 0x4000 else 0 : UInt16) &&& 0x2000 = 0 ∧
      (if df then 0x4000 else 0 : UInt16) &&& 0x1fff = 0 := by decide
  have hmf : ∀ mf : Bool, (if mf then 0x2000 else 0 : UInt16) &&& 0x4000 = 0 ∧
      (if mf then 0x2000 else 0 : UInt16) &&& 0x1fff = 0 := by decide
  simp only [foVal, hf.offset, hdistrib, hoffset.1, hoffset.2, (hdf _).1, (hdf _).2, (hmf _).1, (hmf _).2,
    UInt16.or_zero, UInt16.zero_or]
  refine ⟨?_, ?_, trivial⟩
  · cases h.df <;> decide
  · cases h.mf <;> decide

/-- A header that was written is read back, and what is behind it stays; only the checksum decides what is
reported. -/
theorem Fits.parse_append (hf : h.Fits) {rest : Bytes} (hlen : h.len.toNat = 4 * h.hlen.toNat + rest.length)
    (h₀ : IPv4Header) :
    h₀.parse { buffer := h.beforeCksum ++ NetUnparser.u16 h.cksum ++ h.afterCksum ++ rest }
      = ((if (InternetChecksum.add {} (h.beforeCksum ++ NetUnparser.u16 h.cksum ++ h.afterCksum)).value ≠ 0
          then .badChecksum else .noError, h), { buffer := rest }) := by
  obtain ⟨hver, hhlen⟩ := hf.first_byte
  obtain ⟨hdf, hmf, hoffset⟩ := hf.foVal_fields
  have hbounds := hf.hlen_bounds
  have hafter := hf.afterCksum_length
  have hoptions : (List.replicate (4 * h.hlen.toNat - LENGTH) (0 : UInt8)).length = h.hlen.toNat * 4 - LENGTH := by
    rw [List.length_replicate, Nat.mul_comm]
  generalize hheader : h.beforeCksum ++ NetUnparser.u16 h.cksum ++ h.afterCksum = header
  have hheaderLen : header.length = 4 * h.hlen.toNat := by
    rw [← hheader]
    simp only [List.length_append, beforeCksum_length, NetUnparser.u16_length, hafter]
    omega
  have hsize : (header ++ rest).length = h.len.toNat := by
    rw [List.length_append, hheaderLen, hlen]
  -- the fields one behind the other, as the parser takes them
  have hfields : ({ buffer := header ++ rest } : NetParser) = NetParser.mk
      (NetUnparser.u8 (h.ver <<< 4 ||| (h.hlen &&& 0xf)) ++ (NetUnparser.u8 h.tos ++ (NetUnparser.u16 h.len ++
      (NetUnparser.u16 h.id ++ (NetUnparser.u16 h.foVal ++ (NetUnparser.u8 h.ttl ++ (NetUnparser.u8 h.proto ++
      (NetUnparser.u16 h.cksum ++ (NetUnparser.u32 h.src ++ (NetUnparser.u32 h.dst ++
      (List.replicate (4 * h.hlen.toNat - LENGTH) 0 ++ rest))))))))))) .noError := by
    rw [← hheader]
    simp only [beforeCksum, afterCksum, List.append_assoc]
  rw [parse, stateM_bind_of (stateM_get _), stateM_bind_of (stateM_get _)]
  dsimp only
  rw [hsize, if_neg (by simp only [LENGTH]; omega), hfields, stateM_bind_of (NetParser.u8_append _ _),
    stateM_bind_of (NetParser.u8_append _ _), stateM_bind_of (NetParser.u16_append _ _),
    stateM_bind_of (NetParser.u16_append _ _), stateM_bind_of (NetParser.u16_append _ _),
    stateM_bind_of (NetParser.u8_append _ _), stateM_bind_of (NetParser.u8_append _ _),
    stateM_bind_of (NetParser.u16_append _ _), stateM_bind_of (NetParser.u32_append _ _),
    stateM_bind_of (NetParser.u32_append _ _)]
  simp only [hver, hhlen, hdf, hmf, hoffset]
  rw [if_neg (by omega), if_neg (not_not.mpr hf.ver), if_neg (UInt8.not_lt.mpr hf.hmin),
    if_neg (not_not.mpr rfl), stateM_bind_of (NetParser.removePrefix_append hoptions _),
    stateM_bind_of (stateM_get _), if_neg (not_not.mpr rfl), List.take_left' hheaderLen, stateM_ite]
  split
  · rfl
  · rfl

/-! ## Any bytes -/

/-- The header that the first 20 bytes hold, each field from its place in them. -/
def ofBytes (bytes : Bytes) : IPv4Header where
  ver := UInt8.ofNat (field bytes 0 1 / 16)
  hlen := UInt8.ofNat (field bytes 0 1 % 16)
  tos := UInt8.ofNat (field bytes 1 1)
  len := UInt16.ofNat (field bytes 2 2)
  id := UInt16.ofNat (field bytes 4 2)
  df := (field bytes 6 2).testBit 14
  mf := (field bytes 6 2).testBit 13
  offset := UInt16.ofNat (field bytes 6 2 % 2 ^ 13)
  ttl := UInt8.ofNat (field bytes 8 1)
  proto := UInt8.ofNat (field bytes 9 1)
  cksum := UInt16.ofNat (field bytes 10 2)
  src := UInt32.ofNat (field bytes 12 4)
  dst := UInt32.ofNat (field bytes 16 4)

/-- What the header's parser asks of the bytes before it looks at the checksum. -/
@[mk_iff]
structure Framed (bytes : Bytes) : Prop where
  size : LENGTH ≤ bytes.length
  ver : (ofBytes bytes).ver = 4
  hlen : 5 ≤ (ofBytes bytes).hlen
  options : 4 * (ofBytes bytes).hlen.toNat ≤ bytes.length
  len : (ofBytes bytes).len.toNat = bytes.length

instance (bytes : Bytes) : Decidable (Framed bytes) := decidable_of_iff' _ (framed_iff bytes)

/-- The checksum over the first `4 * hlen` bytes verifies. -/
def Checked (bytes : Bytes) : Prop :=
  InternetChecksum.Verifies 0 (bytes.take (4 * (ofBytes bytes).hlen.toNat))

instance (bytes : Bytes) : Decidable (Checked bytes) :=
  InternetChecksum.instDecidableVerifies 0 (bytes.take (4 * (ofBytes bytes).hlen.toNat))

/-- At most 1020 bytes never wrap the sum. -/
theorem checked_iff (bytes : Bytes) :
    Checked bytes ↔ (InternetChecksum.add {} (bytes.take (4 * (ofBytes bytes).hlen.toNat))).value = 0 := by
  have hhlen := (ofBytes bytes).hlen.toNat_lt
  have hlen := List.length_take_le (4 * (ofBytes bytes).hlen.toNat) bytes
  refine (InternetChecksum.value_add_eq_zero.trans (InternetChecksum.verifies32_of_small ?_)).symm
  rw [UInt32.toNat_zero]
  omega

theorem parse_short {bytes : Bytes} (h : bytes.length < LENGTH) (h₀ : IPv4Header) :
    h₀.parse { buffer := bytes } = ((.packetTooShort, h₀), { buffer := bytes }) := by
  rw [parse, stateM_bind_of (stateM_get _), stateM_bind_of (stateM_get _)]
  dsimp only
  rw [if_pos h]
  rfl

/-- With 20 bytes there the fields are read, whatever is reported about them. -/
theorem parse_long {bytes : Bytes} (h : LENGTH ≤ bytes.length) (h₀ : IPv4Header) :
    h₀.parse { buffer := bytes } =
      if bytes.length < 4 * (ofBytes bytes).hlen.toNat then
        ((.packetTooShort, ofBytes bytes), { buffer := bytes.drop LENGTH })
      else if (ofBytes bytes).ver ≠ 4 then ((.wrongIPVersion, ofBytes bytes), { buffer := bytes.drop LENGTH })
      else if (ofBytes bytes).hlen < 5 then ((.headerTooShort, ofBytes bytes), { buffer := bytes.drop LENGTH })
      else if bytes.length ≠ (ofBytes bytes).len.toNat then
        ((.truncatedPacket, ofBytes bytes), { buffer := bytes.drop LENGTH })
      else
        ((if Checked bytes then .noError else .badChecksum, ofBytes bytes),
          { buffer := bytes.drop (4 * (ofBytes bytes).hlen.toNat) }) := by
  have h20 : 20 ≤ bytes.length := h
  obtain ⟨hver, hhlen⟩ := nibbles_of_byte (BigEndian.field_lt bytes 0 1)
  have hfo := BigEndian.field_lt bytes 6 2
  have hdf : decide (UInt16.ofNat (field bytes 6 2) &&& 0x4000 ≠ 0) = (field bytes 6 2).testBit 14 :=
    flag_of_word hfo rfl
  have hmf : decide (UInt16.ofNat (field bytes 6 2) &&& 0x2000 ≠ 0) = (field bytes 6 2).testBit 13 :=
    flag_of_word hfo rfl
  have hfirst : NetParser.u8 { buffer := bytes } = (UInt8.ofNat (field bytes 0 1), { buffer := bytes.drop 1 }) :=
    NetParser.u8_field bytes 0 (by omega)
  rw [parse, stateM_bind_of (stateM_get _), stateM_bind_of (stateM_get _)]
  dsimp only
  rw [if_neg (by simp only [LENGTH]; omega), stateM_bind_of hfirst,
    stateM_bind_of (NetParser.u8_field bytes 1 (by omega)),
    stateM_bind_of (NetParser.u16_field bytes 2 (by omega)),
    stateM_bind_of (NetParser.u16_field bytes 4 (by omega)),
    stateM_bind_of (NetParser.u16_field bytes 6 (by omega)),
    stateM_bind_of (NetParser.u8_field bytes 8 (by omega)),
    stateM_bind_of (NetParser.u8_field bytes 9 (by omega)),
    stateM_bind_of (NetParser.u16_field bytes 10 (by omega)),
    stateM_bind_of (NetParser.u32_field bytes 12 (by omega)),
    stateM_bind_of (NetParser.u32_field bytes 16 (by omega))]
  simp only [hver, hhlen, hdf, hmf, offset_of_word hfo]
  rw [stateM_ite, stateM_ite, stateM_ite, stateM_ite]
  refine ite_congr rfl (fun _ => rfl) fun hlong => ?_
  refine ite_congr rfl (fun _ => rfl) fun _ => ?_
  refine ite_congr rfl (fun _ => rfl) fun hmin => ?_
  refine ite_congr rfl (fun _ => rfl) fun _ => ?_
  -- the options are there, so skipping them leaves no error
  have hfive : 5 ≤ (ofBytes bytes).hlen.toNat := UInt8.le_iff_toNat_le.mp (UInt8.not_lt.mp hmin)
  have hskip := NetParser.removePrefix_options bytes hfive h20
  rw [if_pos (Nat.le_of_not_lt hlong)] at hskip
  refine (stateM_bind_of hskip).trans ?_
  rw [stateM_bind_of (stateM_get _), if_neg (not_not.mpr rfl), stateM_ite]
  by_cases hsum : Checked bytes
  · rw [if_pos hsum]
    exact if_neg (not_not.mpr ((checked_iff bytes).mp hsum))
  · rw [if_neg hsum]
    exact if_pos fun hvalue => hsum ((checked_iff bytes).mpr hvalue)

theorem Framed.parse_eq {bytes : Bytes} (hf : Framed bytes) (h₀ : IPv4Header) :
    h₀.parse { buffer := bytes } = ((if Checked bytes then .noError else .badChecksum, ofBytes bytes),
      { buffer := bytes.drop (4 * (ofBytes bytes).hlen.toNat) }) := by
  rw [parse_long hf.size, if_neg (Nat.not_lt.mpr hf.options), if_neg (not_not.mpr hf.ver),
    if_neg (UInt8.not_lt.mpr hf.hlen), if_neg (not_not.mpr hf.len.symm)]

/-- Whatever the parser holds against such a header, it stops behind the first 20 bytes. -/
theorem parse_unframed {bytes : Bytes} (hsize : LENGTH ≤ bytes.length) (h : ¬ Framed bytes) (h₀ : IPv4Header) :
    ∃ report, h₀.parse { buffer := bytes } = ((report, ofBytes bytes), { buffer := bytes.drop LENGTH }) := by
  rw [parse_long hsize]
  split
  · exact ⟨_, rfl⟩
  · rename_i hoptions
    split
    · exact ⟨_, rfl⟩
    · rename_i hver
      split
      · exact ⟨_, rfl⟩
      · rename_i hhlen
        split
        · exact ⟨_, rfl⟩
        · rename_i hlen
          exact absurd ⟨hsize, not_not.mp hver, UInt8.not_lt.mp hhlen, Nat.le_of_not_lt hoptions,
            (not_not.mp hlen).symm⟩ h

end IPv4Header

/-- `IPv4Datagram`, alias `InternetDatagram`. -/
structure InternetDatagram where
  header : IPv4Header := {}
  payload : Bytes := []
  deriving DecidableEq, Repr

namespace InternetDatagram

/-- `IPv4Datagram::parse` into a fresh datagram. -/
def parse (buffer : Bytes) : ParseResult × InternetDatagram :=
  let ((_, header), p) := (({} : IPv4Header).parse).run { buffer := buffer }
  let d := { header := header, payload := p.buffer }
  if d.payload.length ≠ d.header.payloadLength.toNat then (.packetTooShort, d) else (p.error, d)

/-- `IPv4Datagram::serialize`, concatenated. -/
def serialize (d : InternetDatagram) : Except Exception Bytes :=
  if d.payload.length ≠ d.header.payloadLength.toNat then
    .error (.runtimeError "IPv4Datagram::serialize: payload is wrong size")
  else
    let headerOut := { d.header with cksum := 0 }
    headerOut.serialize.bind fun headerZeroChecksum =>
      let check := InternetChecksum.add {} headerZeroChecksum
      { headerOut with cksum := check.value }.serialize.map fun bytes => bytes ++ d.payload

/-- **When a datagram can be serialized.** -/
theorem serialize_returns_iff (d : InternetDatagram) :
    (∃ bytes, d.serialize = .ok bytes) ↔
      d.payload.length = d.header.payloadLength.toNat ∧ d.header.ver = 4 ∧
      IPv4Header.LENGTH ≤ 4 * d.header.hlen.toNat := by
  rw [serialize]
  split
  · rename_i hsize
    exact ⟨fun ⟨_, h⟩ => absurd h (by simp), fun h => absurd h.1 hsize⟩
  · rename_i hsize
    rw [not_not] at hsize
    -- the checksum field does not matter
    have hzero := IPv4Header.serialize_returns_iff { d.header with cksum := 0 }
    constructor
    · rintro ⟨bytes, h⟩
      obtain ⟨zero, hz, -⟩ := bind_ok.mp h
      exact ⟨hsize, hzero.mp ⟨zero, hz⟩⟩
    · rintro ⟨-, hok⟩
      obtain ⟨zero, hz⟩ := hzero.mpr hok
      obtain ⟨out, hout⟩ := (IPv4Header.serialize_returns_iff
        { d.header with cksum := (InternetChecksum.add {} zero).value }).mpr hok
      exact ⟨out ++ d.payload, bind_ok.mpr ⟨zero, hz, map_ok.mpr ⟨out, hout, rfl⟩⟩⟩

/-- The bytes of a datagram; its header's checksum verifies. -/
theorem serialize_filled {d : InternetDatagram} (hf : d.header.Fits)
    (hlen : d.header.len.toNat = 4 * d.header.hlen.toNat + d.payload.length) :
    ∃ cksum : UInt16,
      d.serialize = .ok (d.header.beforeCksum ++ NetUnparser.u16 cksum ++ d.header.afterCksum ++ d.payload) ∧
      (InternetChecksum.add {}
        (d.header.beforeCksum ++ NetUnparser.u16 cksum ++ d.header.afterCksum)).value = 0 := by
  have hsize : d.payload.length = d.header.payloadLength.toNat := (IPv4Header.payloadLength_eq hlen).symm
  have hafter := hf.afterCksum_length
  have hbounds := hf.hlen_bounds
  refine ⟨(InternetChecksum.add {}
    (d.header.beforeCksum ++ NetUnparser.u16 0 ++ d.header.afterCksum)).value, ?_, ?_⟩
  · rw [serialize, if_neg (not_not.mpr hsize)]
    simp only [(hf.withCksum _).serialize_eq]
    rfl
  · refine InternetChecksum.value_filled (by rw [d.header.beforeCksum_length]; rfl) ?_
    rw [d.header.beforeCksum_length, hafter]
    show 0 + 65280 * (10 + 2 + (4 * d.header.hlen.toNat - 12)) < 2 ^ 32
    omega

/-- The datagram has bytes from which the header's parser and the datagram's read it back, with the checksum
filled in. -/
def SurvivesWire (d : InternetDatagram) : Prop :=
  ∃ (bytes : Bytes) (cksum : UInt16), d.serialize = .ok bytes ∧
    (∀ h₀ : IPv4Header,
      (h₀.parse.run { buffer := bytes }).1 = (.noError, { d.header with cksum := cksum })) ∧
    parse bytes = (.noError, { d with header := { d.header with cksum := cksum } })

theorem survivesWire {d : InternetDatagram} (hf : d.header.Fits)
    (hlen : d.header.len.toNat = 4 * d.header.hlen.toNat + d.payload.length) : d.SurvivesWire := by
  have hsize : d.payload.length = d.header.payloadLength.toNat := (IPv4Header.payloadLength_eq hlen).symm
  obtain ⟨cksum, hser, hright⟩ := serialize_filled hf hlen
  have hparse : ∀ h₀ : IPv4Header, h₀.parse { buffer := d.header.beforeCksum ++ NetUnparser.u16 cksum
      ++ d.header.afterCksum ++ d.payload }
      = ((.noError, { d.header with cksum := cksum }), { buffer := d.payload }) := by
    intro h₀
    have h := (hf.withCksum cksum).parse_append hlen h₀
    rwa [show (InternetChecksum.add {} (IPv4Header.beforeCksum { d.header with cksum := cksum }
      ++ NetUnparser.u16 cksum ++ IPv4Header.afterCksum { d.header with cksum := cksum })).value = 0 from hright,
      if_neg (not_not.mpr rfl)] at h
  refine ⟨_, cksum, hser, ?_, ?_⟩
  · intro h₀
    rw [StateT.run, hparse h₀]
  · rw [parse, StateT.run, hparse]
    exact if_neg (not_not.mpr hsize)

/-- **A datagram that was serialized** is parsed back, with the checksum filled in. -/
theorem parse_serialize {d : InternetDatagram} (hf : d.header.Fits)
    (hlen : d.header.len.toNat = 4 * d.header.hlen.toNat + d.payload.length) :
    ∃ (bytes : Bytes) (cksum : UInt16), d.serialize = .ok bytes ∧
      parse bytes = (.noError, { d with header := { d.header with cksum := cksum } }) := by
  obtain ⟨bytes, cksum, hser, -, hparse⟩ := survivesWire hf hlen
  exact ⟨bytes, cksum, hser, hparse⟩

/-! ## Any bytes -/

open IPv4Header (LENGTH Framed Checked ofBytes)

theorem parse_short {bytes : Bytes} (h : bytes.length < LENGTH) : (parse bytes).1 = .packetTooShort := by
  -- a fresh header claims a payload of `0 - 20` bytes, modulo `2 ^ 16`
  have hclaims : (({} : IPv4Header).payloadLength).toNat = 65516 := by decide
  have hother : bytes.length ≠ (({} : IPv4Header).payloadLength).toNat := by
    rw [hclaims]
    simp only [LENGTH] at h
    omega
  rw [parse, StateT.run, IPv4Header.parse_short h]
  dsimp only
  rw [if_pos hother]

theorem parse_framed {bytes : Bytes} (h : Framed bytes) : parse bytes = (.noError,
    { header := ofBytes bytes, payload := bytes.drop (4 * (ofBytes bytes).hlen.toNat) }) := by
  have hsize : (bytes.drop (4 * (ofBytes bytes).hlen.toNat)).length = (ofBytes bytes).payloadLength.toNat := by
    refine (IPv4Header.payloadLength_eq ?_).symm
    have hoptions := h.options
    rw [h.len, List.length_drop]
    omega
  rw [parse, StateT.run, h.parse_eq]
  exact if_neg (not_not.mpr hsize)

/-- Of a header that is not in order only the payload's length is asked, counted behind the first 20 bytes. -/
theorem parse_unframed {bytes : Bytes} (hsize : LENGTH ≤ bytes.length) (h : ¬ Framed bytes) :
    (parse bytes).1 = .noError ↔ (ofBytes bytes).payloadLength.toNat = bytes.length - LENGTH := by
  obtain ⟨report, hparse⟩ := IPv4Header.parse_unframed hsize h {}
  rw [parse, StateT.run, hparse]
  dsimp only
  rw [List.length_drop]
  split
  · rename_i hother
    have hshort : ParseResult.packetTooShort ≠ .noError := by decide
    exact ⟨fun hno => absurd hno hshort, fun heq => absurd heq.symm hother⟩
  · rename_i hsame
    exact ⟨fun _ => (not_not.mp hsame).symm, fun _ => rfl⟩

/-- **What is accepted is a well-formed datagram**, of exactly the strings in which what is wrong shows in the
payload's length: a header that is in order has its checksum right, and one that is not claims a payload other
than the bytes behind the first 20. -/
theorem parse_accepts_framed (bytes : Bytes) :
    (((parse bytes).1 = .noError ↔ Framed bytes ∧ Checked bytes) ∧
      ((parse bytes).1 = .noError → (parse bytes).2 =
        { header := ofBytes bytes, payload := bytes.drop (4 * (ofBytes bytes).hlen.toNat) })) ↔
    (Framed bytes → Checked bytes) ∧
      (LENGTH ≤ bytes.length → ¬ Framed bytes →
        (ofBytes bytes).payloadLength.toNat ≠ bytes.length - LENGTH) := by
  by_cases hframed : Framed bytes
  · -- it is accepted as it stands, whatever its checksum
    rw [parse_framed hframed]
    simp only [hframed, true_and, true_implies, not_true_eq_false, false_implies, implies_true, and_true, true_iff]
  · simp only [hframed, false_and, false_implies, iff_false, true_and, not_false_eq_true, true_implies]
    constructor
    · rintro ⟨hrefused, -⟩ hsize hclaims
      exact hrefused ((parse_unframed hsize hframed).mpr hclaims)
    · intro hnoticed
      have hrefused : (parse bytes).1 ≠ .noError := by
        rcases Nat.lt_or_ge bytes.length LENGTH with hsmall | hsize
        · rw [parse_short hsmall]
          decide
        · exact fun hno => hnoticed hsize ((parse_unframed hsize hframed).mp hno)
      exact ⟨hrefused, fun hno => absurd hno hrefused⟩

/-- A datagram with its checksum and a payload of two bytes. -/
theorem parse_accepts_framed_two :
    (parse [0x45, 0, 0, 22, 0, 0, 0x40, 0, 128, 6, 0xfa, 0xdf, 0, 0, 0, 1, 0, 0, 0, 2, 7, 8]).1 = .noError :=
  ((parse_accepts_framed _).mpr ⟨by decide +kernel, by decide +kernel⟩).1.mpr (by decide +kernel)

/-- The same with the checksum changed, and with the version changed: `parse` drops what the header's parser
reports and accepts both. -/
theorem parse_drops_report :
    ((parse [0x45, 0, 0, 22, 0, 0, 0x40, 0, 128, 6, 0, 0, 0, 0, 0, 1, 0, 0, 0, 2, 7, 8]).1 = .noError ∧
      ¬ Checked [0x45, 0, 0, 22, 0, 0, 0x40, 0, 128, 6, 0, 0, 0, 0, 0, 1, 0, 0, 0, 2, 7, 8]) ∧
    ((parse [0x65, 0, 0, 22, 0, 0, 0x40, 0, 128, 6, 0xda, 0xdf, 0, 0, 0, 1, 0, 0, 0, 2, 7, 8]).1 = .noError ∧
      (ofBytes [0x65, 0, 0, 22, 0, 0, 0x40, 0, 128, 6, 0xda, 0xdf, 0, 0, 0, 1, 0, 0, 0, 2, 7, 8]).ver ≠ 4) := by
  decide +kernel

end InternetDatagram

end Sponge
