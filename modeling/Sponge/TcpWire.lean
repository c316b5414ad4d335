/-
# `Sponge.TcpWire` — TCP segments as bytes.

Models `parse` and `serialize` of `tcp_helpers/tcp_header.{hh,cc}` and `tcp_helpers/tcp_segment.{hh,cc}`.
`TCPHeader::parse` assigns every field of the header it is called on, so that header is not an argument here.
`TCPSegment::parse` drops what the header's parser reports: a data offset below 5 is no error, and everything
behind the first 20 bytes is then payload.

A serialized segment is two buffers, the header and the payload.  Read as one, with the same checksum of the
layer below, it gives the segment back with the checksum filled in (`parse_serialize`), and with one byte changed
it is refused (`corruption_is_detected`).  `ofBytes` are the fields of any 20 bytes; apart from the data offset
what is accepted is well formed (`parse_accepts_wellFormed`).
-/
import Sponge.TcpSegment
import Sponge.InternetDatagram

namespace Sponge

open Sponge.Lib

open BigEndian (field)

namespace TCPHeader

open NetParser in
/-- `TCPHeader::parse`. -/
def parse : StateM NetParser (ParseResult × TCPHeader) := do
  let sport ← u16
  let dport ← u16
  let seqno ← u32
  let ackno ← u32
  let offsetByte ← u8
  let flB ← u8
  let win ← u16
  let cksum ← u16
  let uptr ← u16
  let h : TCPHeader :=
    { sport := sport
      dport := dport
      seqno := ⟨seqno⟩
      ackno := ⟨ackno⟩
      doff := offsetByte >>> 4
      urg := flB &&& 0b00100000 ≠ 0
      ack := flB &&& 0b00010000 ≠ 0
      psh := flB &&& 0b00001000 ≠ 0
      rst := flB &&& 0b00000100 ≠ 0
      syn := flB &&& 0b00000010 ≠ 0
      fin := flB &&& 0b00000001 ≠ 0
      win := win
      cksum := cksum
      uptr := uptr }
  if h.doff < 5 then return (.headerTooShort, h)
  -- options are skipped
  removePrefix (h.doff.toNat * 4 - LENGTH)
  if (← get).error ≠ .noError then return ((← get).error, h)
  return (.noError, h)

/-- The byte of the flags. -/
def flB (h : TCPHeader) : UInt8 :=
  (if h.urg then 0b00100000 else 0) ||| (if h.ack then 0b00010000 else 0) ||| (if h.psh then 0b00001000 else 0)
    ||| (if h.rst then 0b00000100 else 0) ||| (if h.syn then 0b00000010 else 0)
    ||| (if h.fin then 0b00000001 else 0)

/-- `TCPHeader::serialize`. -/
def serialize (h : TCPHeader) : Except Exception Bytes :=
  if h.doff < 5 then .error (.runtimeError "TCP header too short")
  else
    let ret := NetUnparser.u16 h.sport ++ NetUnparser.u16 h.dport ++ NetUnparser.u32 h.seqno.rawValue
      ++ NetUnparser.u32 h.ackno.rawValue ++ NetUnparser.u8 (h.doff <<< 4) ++ NetUnparser.u8 h.flB
      ++ NetUnparser.u16 h.win ++ NetUnparser.u16 h.cksum ++ NetUnparser.u16 h.uptr
    -- `ret.resize(4 * doff)`
    .ok (ret.take (4 * h.doff.toNat) ++ List.replicate (4 * h.doff.toNat - ret.length) 0)

end TCPHeader

namespace TCPSegment

/-- `TCPSegment::parse` into a fresh segment. -/
def parse (buffer : Bytes) (datagramLayerChecksum : UInt32) : ParseResult × TCPSegment :=
  let check := InternetChecksum.add { sum := datagramLayerChecksum } buffer
  if check.value ≠ 0 then (.badChecksum, {})
  else
    let ((_, header), p) := TCPHeader.parse.run { buffer := buffer }
    (p.error, { header := header, payload := p.buffer })

/-- `TCPSegment::serialize`: the buffers of the list. -/
def serialize (seg : TCPSegment) (datagramLayerChecksum : UInt32) : Except Exception (List Bytes) :=
  let headerOut := { seg.header with cksum := 0 }
  headerOut.serialize.bind fun bytes =>
    let check := (InternetChecksum.add { sum := datagramLayerChecksum } bytes).add seg.payload
    { headerOut with cksum := check.value }.serialize.map fun bytes => [bytes, seg.payload]

end TCPSegment

/-! ## What is written is read back -/

namespace TCPHeader

/-- The bytes before the checksum field. -/
def beforeCksum (h : TCPHeader) : Bytes :=
  NetUnparser.u16 h.sport ++ NetUnparser.u16 h.dport ++ NetUnparser.u32 h.seqno.rawValue
    ++ NetUnparser.u32 h.ackno.rawValue ++ NetUnparser.u8 (h.doff <<< 4) ++ NetUnparser.u8 h.flB
    ++ NetUnparser.u16 h.win

/-- The bytes behind the checksum field: the urgent pointer and the options, all 0. -/
def afterCksum (h : TCPHeader) : Bytes :=
  NetUnparser.u16 h.uptr ++ List.replicate (4 * h.doff.toNat - LENGTH) 0

@[simp] theorem beforeCksum_length (h : TCPHeader) : h.beforeCksum.length = 16 := by
  simp [beforeCksum]

theorem afterCksum_length {h : TCPHeader} (hdoff : 5 ≤ h.doff) :
    h.afterCksum.length = 4 * h.doff.toNat - 18 := by
  have : 5 ≤ h.doff.toNat := UInt8.le_iff_toNat_le.mp hdoff
  simp [afterCksum, LENGTH]
  omega

theorem serialize_eq {h : TCPHeader} (hdoff : 5 ≤ h.doff) :
    h.serialize = .ok (h.beforeCksum ++ NetUnparser.u16 h.cksum ++ h.afterCksum) := by
  have hle : 5 ≤ h.doff.toNat := UInt8.le_iff_toNat_le.mp hdoff
  rw [serialize, if_neg (UInt8.not_lt.mpr hdoff)]
  dsimp only
  rw [List.take_of_length_le (by simp; omega)]
  simp [beforeCksum, afterCksum, LENGTH]

theorem doff_shift {doff : UInt8} (h : doff ≤ 15) : doff <<< 4 >>> 4 = doff := by
  refine byte_forall_lt 16 (P := fun doff => doff <<< 4 >>> 4 = doff) (by decide) ?_
  exact Nat.lt_succ_of_le (UInt8.le_iff_toNat_le.mp h)

/-- Each flag is read from the bit it was written to. -/
theorem flB_flags (h : TCPHeader) :
    decide (h.flB &&& 0b00100000 ≠ 0) = h.urg ∧ decide (h.flB &&& 0b00010000 ≠ 0) = h.ack ∧
    decide (h.flB &&& 0b00001000 ≠ 0) = h.psh ∧ decide (h.flB &&& 0b00000100 ≠ 0) = h.rst ∧
    decide (h.flB &&& 0b00000010 ≠ 0) = h.syn ∧ decide (h.flB &&& 0b00000001 ≠ 0) = h.fin := by
  unfold flB
  generalize h.urg = urg, h.ack = ack, h.psh = psh, h.rst = rst, h.syn = syn, h.fin = fin
  revert urg ack psh rst syn fin
  decide +kernel

/-- A header that was written is read back, and what is behind it stays. -/
theorem parse_append {h : TCPHeader} (hdoff : 5 ≤ h.doff) (hmax : h.doff ≤ 15) (rest : Bytes) :
    parse { buffer := h.beforeCksum ++ NetUnparser.u16 h.cksum ++ h.afterCksum ++ rest }
      = ((.noError, h), { buffer := rest }) := by
  obtain ⟨hurg, hack, hpsh, hrst, hsyn, hfin⟩ := h.flB_flags
  have hoptions : (List.replicate (4 * h.doff.toNat - LENGTH) (0 : UInt8)).length = h.doff.toNat * 4 - LENGTH := by
    rw [List.length_replicate, Nat.mul_comm]
  simp only [beforeCksum, afterCksum, List.append_assoc]
  rw [parse, stateM_bind_of (NetParser.u16_append _ _), stateM_bind_of (NetParser.u16_append _ _),
    stateM_bind_of (NetParser.u32_append _ _), stateM_bind_of (NetParser.u32_append _ _),
    stateM_bind_of (NetParser.u8_append _ _), stateM_bind_of (NetParser.u8_append _ _),
    stateM_bind_of (NetParser.u16_append _ _), stateM_bind_of (NetParser.u16_append _ _),
    stateM_bind_of (NetParser.u16_append _ _)]
  simp only [doff_shift hmax, hurg, hack, hpsh, hrst, hsyn, hfin, if_neg (UInt8.not_lt.mpr hdoff)]
  rw [stateM_bind_of (NetParser.removePrefix_append hoptions _)]
  rfl

/-! ## Any bytes -/

/-- The header that the first 20 bytes hold, each field from its place in them. -/
def ofBytes (bytes : Bytes) : TCPHeader where
  sport := UInt16.ofNat (field bytes 0 2)
  dport := UInt16.ofNat (field bytes 2 2)
  seqno := ⟨UInt32.ofNat (field bytes 4 4)⟩
  ackno := ⟨UInt32.ofNat (field bytes 8 4)⟩
  doff := UInt8.ofNat (field bytes 12 1 / 16)
  urg := (field bytes 13 1).testBit 5
  ack := (field bytes 13 1).testBit 4
  psh := (field bytes 13 1).testBit 3
  rst := (field bytes 13 1).testBit 2
  syn := (field bytes 13 1).testBit 1
  fin := (field bytes 13 1).testBit 0
  win := UInt16.ofNat (field bytes 14 2)
  cksum := UInt16.ofNat (field bytes 16 2)
  uptr := UInt16.ofNat (field bytes 18 2)

/-- Without an error in the parser 20 bytes are taken, whatever the header's parser reports. -/
theorem consumes_parse : NetParser.Consumes LENGTH parse := by
  have hfields : NetParser.Consumes (2 + (2 + (4 + (4 + (1 + (1 + (2 + (2 + (2 + 0))))))))) parse := by
    rw [parse]
    refine .bind .u16 fun _ => .bind .u16 fun _ => .bind .u32 fun _ => .bind .u32 fun _ => ?_
    refine .bind .u8 fun _ => .bind .u8 fun _ => .bind .u16 fun _ => .bind .u16 fun _ => .bind .u16 fun _ => ?_
    refine .ite (.pure _) (.mono (.bind (.removePrefix _) fun _ => .bind (m := 0) .get fun _ => ?_) (Nat.zero_le _))
    exact .ite (.bind (m := 0) .get fun _ => .pure _) (.pure _)
  exact hfields

/-- With 20 bytes there the fields are read; the options behind them are asked for only if there should be any. -/
theorem parse_long {bytes : Bytes} (h : LENGTH ≤ bytes.length) :
    parse { buffer := bytes } =
      if (ofBytes bytes).doff < 5 then ((.headerTooShort, ofBytes bytes), { buffer := bytes.drop LENGTH })
      else if 4 * (ofBytes bytes).doff.toNat ≤ bytes.length then
        ((.noError, ofBytes bytes), { buffer := bytes.drop (4 * (ofBytes bytes).doff.toNat) })
      else
        ((.packetTooShort, ofBytes bytes), { buffer := bytes.drop LENGTH, error := .packetTooShort }) := by
  have h20 : 20 ≤ bytes.length := h
  have hflB := BigEndian.field_lt bytes 13 1
  have hflag : ∀ {i : Nat} {mask : UInt8}, mask.toNat = 2 ^ i →
      decide (UInt8.ofNat (field bytes 13 1) &&& mask ≠ 0) = (field bytes 13 1).testBit i :=
    fun hmask => flag_of_byte hflB hmask
  have hfirst : NetParser.u16 { buffer := bytes } = (UInt16.ofNat (field bytes 0 2), { buffer := bytes.drop 2 }) :=
    NetParser.u16_field bytes 0 (by omega)
  rw [parse, stateM_bind_of hfirst,
    stateM_bind_of (NetParser.u16_field bytes 2 (by omega)),
    stateM_bind_of (NetParser.u32_field bytes 4 (by omega)),
    stateM_bind_of (NetParser.u32_field bytes 8 (by omega)),
    stateM_bind_of (NetParser.u8_field bytes 12 (by omega)),
    stateM_bind_of (NetParser.u8_field bytes 13 (by omega)),
    stateM_bind_of (NetParser.u16_field bytes 14 (by omega)),
    stateM_bind_of (NetParser.u16_field bytes 16 (by omega)),
    stateM_bind_of (NetParser.u16_field bytes 18 (by omega))]
  have hdoff := (nibbles_of_byte (BigEndian.field_lt bytes 12 1)).1
  have hurg := hflag (show (0b00100000 : UInt8).toNat = 2 ^ 5 from rfl)
  have hack := hflag (show (0b00010000 : UInt8).toNat = 2 ^ 4 from rfl)
  have hpsh := hflag (show (0b00001000 : UInt8).toNat = 2 ^ 3 from rfl)
  have hrst := hflag (show (0b00000100 : UInt8).toNat = 2 ^ 2 from rfl)
  have hsyn := hflag (show (0b00000010 : UInt8).toNat = 2 ^ 1 from rfl)
  have hfin := hflag (show (0b00000001 : UInt8).toNat = 2 ^ 0 from rfl)
  simp only [hdoff, hurg, hack, hpsh, hrst, hsyn, hfin]
  rw [stateM_ite]
  refine ite_congr rfl (fun _ => rfl) fun hmin => ?_
  have hfive : 5 ≤ (ofBytes bytes).doff.toNat := UInt8.le_iff_toNat_le.mp (UInt8.not_lt.mp hmin)
  refine (stateM_bind_of (NetParser.removePrefix_options bytes hfive h20)).trans ?_
  by_cases hoptions : 4 * (ofBytes bytes).doff.toNat ≤ bytes.length
  · rw [if_pos hoptions, if_pos hoptions]
    rfl
  · rw [if_neg hoptions, if_neg hoptions]
    rfl

end TCPHeader

namespace TCPSegment

/-- **A segment that was serialized** is parsed back, with the checksum filled in. -/
theorem parse_serialize (seg : TCPSegment) (start : UInt32) (hdoff : 5 ≤ seg.header.doff)
    (hmax : seg.header.doff ≤ 15)
    (hsum : start.toNat + 65280 * (4 * seg.header.doff.toNat + seg.payload.length) < 2 ^ 32) :
    ∃ (header : Bytes) (cksum : UInt16), seg.serialize start = .ok [header, seg.payload] ∧
      header.length = 4 * seg.header.doff.toNat ∧
      parse (header ++ seg.payload) start
        = (.noError, { seg with header := { seg.header with cksum := cksum } }) := by
  have hle : 5 ≤ seg.header.doff.toNat := UInt8.le_iff_toNat_le.mp hdoff
  -- the checksum field is the only one that differs between the two serialized headers
  have hser : ∀ cksum : UInt16, ({ seg.header with cksum := cksum } : TCPHeader).serialize
      = .ok (seg.header.beforeCksum ++ NetUnparser.u16 cksum ++ seg.header.afterCksum) :=
    fun cksum => TCPHeader.serialize_eq (h := { seg.header with cksum := cksum }) hdoff
  have hafter := TCPHeader.afterCksum_length hdoff
  have hbefore := seg.header.beforeCksum_length
  have hbound : start.toNat + 65280 * (seg.header.beforeCksum.length + 2
      + (seg.header.afterCksum ++ seg.payload).length) < 2 ^ 32 := by
    rw [hbefore, List.length_append, hafter]
    omega
  have hvalue := InternetChecksum.value_filled (by rw [hbefore]; decide) hbound
  -- the bytes that are summed up, with the header's options and the payload behind the checksum
  have hall : ∀ cksum : UInt16, seg.header.beforeCksum ++ NetUnparser.u16 cksum ++ seg.header.afterCksum
      ++ seg.payload = seg.header.beforeCksum ++ NetUnparser.u16 cksum
      ++ (seg.header.afterCksum ++ seg.payload) := fun cksum => List.append_assoc _ _ _
  generalize hcksum : (InternetChecksum.add { sum := start } (seg.header.beforeCksum ++ NetUnparser.u16 0
    ++ (seg.header.afterCksum ++ seg.payload))).value = cksum at hvalue
  refine ⟨seg.header.beforeCksum ++ NetUnparser.u16 cksum ++ seg.header.afterCksum, cksum, ?_, ?_, ?_⟩
  · rw [serialize]
    simp only [hser, Except.bind, ← InternetChecksum.add_append, hall, hcksum]
    rfl
  · simp only [List.length_append, hbefore, NetUnparser.u16_length, hafter]
    omega
  · have hparse : TCPHeader.parse { buffer := seg.header.beforeCksum ++ NetUnparser.u16 cksum
        ++ seg.header.afterCksum ++ seg.payload }
        = ((.noError, { seg.header with cksum := cksum }), { buffer := seg.payload }) :=
      TCPHeader.parse_append (h := { seg.header with cksum := cksum }) hdoff hmax seg.payload
    rw [parse, hall, hvalue, if_neg (by simp), ← hall, StateT.run, hparse]

/-- **Segments survive the wire**, with the pseudo-checksum of any IPv4 header. -/
theorem segment_survives_wire (seg : TCPSegment) (h : IPv4Header) (hdoff : 5 ≤ seg.header.doff)
    (hmax : seg.header.doff ≤ 15) (hsize : seg.payload.length ≤ 65535 - 4 * seg.header.doff.toNat) :
    ∃ (buffers : List Bytes) (cksum : UInt16), seg.serialize h.pseudoCksum = .ok buffers ∧
      parse buffers.flatten h.pseudoCksum
        = (.noError, { seg with header := { seg.header with cksum := cksum } }) := by
  have hdoff15 : seg.header.doff.toNat ≤ 15 := UInt8.le_iff_toNat_le.mp hmax
  have hsum := h.pseudoCksum_add_lt (show 4 * seg.header.doff.toNat + seg.payload.length ≤ 65535 by omega)
  obtain ⟨header, cksum, hser, -, hparse⟩ := seg.parse_serialize h.pseudoCksum hdoff hmax hsum
  refine ⟨[header, seg.payload], cksum, hser, ?_⟩
  rw [List.flatten_cons, List.flatten_singleton]
  exact hparse

/-- A segment with options and an odd payload. -/
theorem segment_survives_wire_odd :
    ∃ (buffers : List Bytes) (cksum : UInt16),
      ({ header := { doff := 7, urg := true, syn := true, uptr := 9 }, payload := [1, 2, 3] } : TCPSegment).serialize
        ({ src := 1, dst := 2, len := 51 } : IPv4Header).pseudoCksum = .ok buffers ∧
      parse buffers.flatten ({ src := 1, dst := 2, len := 51 } : IPv4Header).pseudoCksum = (.noError,
        { header := { doff := 7, urg := true, syn := true, uptr := 9, cksum := cksum }, payload := [1, 2, 3] }) :=
  segment_survives_wire _ _ (by decide) (by decide) (by decide)

/-! ## Any bytes -/

theorem parse_of_bad {bytes : Bytes} {start : UInt32}
    (h : (InternetChecksum.add { sum := start } bytes).value ≠ 0) : parse bytes start = (.badChecksum, {}) := by
  rw [parse]
  exact if_pos h

theorem parse_of_good {bytes : Bytes} {start : UInt32}
    (h : (InternetChecksum.add { sum := start } bytes).value = 0) :
    parse bytes start = ((TCPHeader.parse { buffer := bytes }).2.error,
      { header := (TCPHeader.parse { buffer := bytes }).1.2
        payload := (TCPHeader.parse { buffer := bytes }).2.buffer }) := by
  rw [parse]
  dsimp only [StateT.run]
  rw [if_neg (not_not.mpr h)]
  rcases TCPHeader.parse { buffer := bytes } with ⟨⟨_, header⟩, p⟩
  rfl

theorem checksum_of_accepted {bytes : Bytes} {start : UInt32} (h : (parse bytes start).1 = .noError) :
    (InternetChecksum.add { sum := start } bytes).value = 0 := by
  by_contra hbad
  rw [parse_of_bad hbad] at h
  exact absurd h (by decide)

open TCPHeader (LENGTH ofBytes)
open InternetChecksum (Verifies Verifies32)

/-- The header's own report on a data offset below 5 is not among the reasons to refuse. -/
theorem accepted_iff {bytes : Bytes} {start : UInt32} :
    (parse bytes start).1 = .noError ↔ Verifies32 start bytes ∧ LENGTH ≤ bytes.length ∧
      ((ofBytes bytes).doff < 5 ∨ 4 * (ofBytes bytes).doff.toNat ≤ bytes.length) := by
  have hlong : LENGTH ≤ bytes.length → ((TCPHeader.parse { buffer := bytes }).2.error = .noError ↔
      (ofBytes bytes).doff < 5 ∨ 4 * (ofBytes bytes).doff.toNat ≤ bytes.length) := by
    intro hsize
    rw [TCPHeader.parse_long hsize]
    split
    · rename_i hmin
      exact ⟨fun _ => .inl hmin, fun _ => rfl⟩
    · rename_i hmin
      split
      · rename_i hoptions
        exact ⟨fun _ => .inr hoptions, fun _ => rfl⟩
      · rename_i hoptions
        exact ⟨fun h => absurd h (by simp), fun h => (h.elim hmin hoptions).elim⟩
  constructor
  · intro hno
    have hgood := checksum_of_accepted hno
    have herror : (TCPHeader.parse { buffer := bytes }).2.error = .noError := by
      simpa only [parse_of_good hgood] using hno
    -- 20 bytes were taken off
    have htaken := (TCPHeader.consumes_parse { buffer := bytes } herror).2
    have hsize : LENGTH ≤ bytes.length := Nat.le_trans (Nat.le_add_right _ _) htaken
    exact ⟨InternetChecksum.value_add_eq_zero.mp hgood, hsize, (hlong hsize).mp herror⟩
  · rintro ⟨hsum, hsize, hoptions⟩
    simpa only [parse_of_good (InternetChecksum.value_add_eq_zero.mpr hsum)] using (hlong hsize).mpr hoptions

theorem parse_wellFormed {bytes : Bytes} {start : UInt32} (hsum : Verifies32 start bytes)
    (hsize : LENGTH ≤ bytes.length) (hmin : 5 ≤ (ofBytes bytes).doff)
    (hoptions : 4 * (ofBytes bytes).doff.toNat ≤ bytes.length) :
    parse bytes start = (.noError,
      { header := ofBytes bytes, payload := bytes.drop (4 * (ofBytes bytes).doff.toNat) }) := by
  rw [parse_of_good (InternetChecksum.value_add_eq_zero.mpr hsum), TCPHeader.parse_long hsize,
    if_neg (UInt8.not_lt.mpr hmin), if_pos hoptions]

/-- **What is accepted is a well-formed segment**, of exactly the strings that are not a header with a data offset
below 5 whose sum verifies in 32 bits, nor a string in which the 32 bits make a difference. -/
theorem parse_accepts_wellFormed (bytes : Bytes) (start : UInt32) :
    (((parse bytes start).1 = .noError ↔
        Verifies start bytes ∧ LENGTH ≤ bytes.length ∧ 5 ≤ (ofBytes bytes).doff ∧
          4 * (ofBytes bytes).doff.toNat ≤ bytes.length) ∧
      ((parse bytes start).1 = .noError → (parse bytes start).2 =
        { header := ofBytes bytes, payload := bytes.drop (4 * (ofBytes bytes).doff.toNat) })) ↔
    (LENGTH ≤ bytes.length →
      ((ofBytes bytes).doff < 5 → ¬ Verifies32 start bytes) ∧
      (5 ≤ (ofBytes bytes).doff → 4 * (ofBytes bytes).doff.toNat ≤ bytes.length →
        (Verifies32 start bytes ↔ Verifies start bytes))) := by
  rw [accepted_iff]
  constructor
  · rintro ⟨hexact, -⟩ hsize
    refine ⟨fun hmin hsum => ?_, fun hmin hoptions => ⟨fun hsum => ?_, fun hsum => ?_⟩⟩
    · exact absurd (hexact.mp ⟨hsum, hsize, .inl hmin⟩).2.2.1 (UInt8.not_le.mpr hmin)
    · exact (hexact.mp ⟨hsum, hsize, .inr hoptions⟩).1
    · exact (hexact.mpr ⟨hsum, hsize, hmin, hoptions⟩).1
  · intro hnoticed
    have hall : Verifies32 start bytes ∧ LENGTH ≤ bytes.length ∧
        ((ofBytes bytes).doff < 5 ∨ 4 * (ofBytes bytes).doff.toNat ≤ bytes.length) →
        5 ≤ (ofBytes bytes).doff ∧ 4 * (ofBytes bytes).doff.toNat ≤ bytes.length := by
      rintro ⟨hsum, hsize, hoptions⟩
      have hmin : ¬ (ofBytes bytes).doff < 5 := fun hmin => (hnoticed hsize).1 hmin hsum
      exact ⟨UInt8.not_lt.mp hmin, hoptions.resolve_left hmin⟩
    refine ⟨⟨fun haccepted => ?_, fun ⟨hsum, hsize, hmin, hoptions⟩ => ?_⟩, fun haccepted => ?_⟩
    · obtain ⟨hmin, hoptions⟩ := hall haccepted
      exact ⟨((hnoticed haccepted.2.1).2 hmin hoptions).mp haccepted.1, haccepted.2.1, hmin, hoptions⟩
    · exact ⟨((hnoticed hsize).2 hmin hoptions).mpr hsum, hsize, .inr hoptions⟩
    · obtain ⟨hmin, hoptions⟩ := hall haccepted
      rw [parse_wellFormed haccepted.1 haccepted.2.1 hmin hoptions]

/-- A header of 24 bytes and one byte of payload. -/
theorem parse_accepts_wellFormed_options :
    (parse [0, 0, 0, 0, 0, 0, 0, 0, 0, 0, 0, 0, 0x60, 0, 0, 0, 0x98, 0xf9, 0, 0, 1, 2, 3, 4, 3] 0).1 = .noError :=
  ((parse_accepts_wellFormed _ _).mpr fun _ => ⟨by decide +kernel, by decide +kernel⟩).1.mpr (by decide +kernel)

/-- Twenty bytes with a data offset of 0 whose checksum is right: `parse` drops what the header's parser
reports.  And twenty bytes whose checksum is right with a start that leaves no room in 32 bits. -/
theorem parse_accepts_short_header :
    ((parse [0, 0, 0, 0, 0, 0, 0, 0, 0, 0, 0, 0, 0, 0, 0, 0, 0xff, 0xff, 0, 0] 0).1 = .noError ∧
      ¬ 5 ≤ (ofBytes [0, 0, 0, 0, 0, 0, 0, 0, 0, 0, 0, 0, 0, 0, 0, 0, 0xff, 0xff, 0, 0]).doff) ∧
    ((parse [0, 0, 0, 0, 0, 0, 0, 0, 0, 0, 0, 0, 0x50, 0, 0, 0, 0xaf, 0xff, 0, 0] 0xffffffff).1 = .badChecksum ∧
      Verifies 0xffffffff [0, 0, 0, 0, 0, 0, 0, 0, 0, 0, 0, 0, 0x50, 0, 0, 0, 0xaf, 0xff, 0, 0]) := by
  decide +kernel

/-- **Every single-byte corruption is detected.** -/
theorem corruption_is_detected (seg : TCPSegment) (h : IPv4Header) (hdoff : 5 ≤ seg.header.doff)
    (hmax : seg.header.doff ≤ 15) (hsize : 4 * seg.header.doff.toNat + seg.payload.length ≤ 65535) :
    ∃ buffers : List Bytes, seg.serialize h.pseudoCksum = .ok buffers ∧
      ∀ (i : Nat) (old new : UInt8), buffers.flatten[i]? = some old → new ≠ old →
        (parse (buffers.flatten.set i new) h.pseudoCksum).1 = .badChecksum := by
  have hsum := h.pseudoCksum_add_lt hsize
  obtain ⟨header, cksum, hser, hlen, hparse⟩ := seg.parse_serialize h.pseudoCksum hdoff hmax hsum
  have hright := checksum_of_accepted (congrArg Prod.fst hparse)
  refine ⟨[header, seg.payload], hser, ?_⟩
  rw [List.flatten_cons, List.flatten_singleton]
  intro i old new hold hne
  have hbad := InternetChecksum.value_corrupted hold hne (by rw [List.length_append, hlen]; exact hsum) hright
  rw [parse_of_bad hbad]

/-- The first byte of the payload, which was 5. -/
theorem corruption_is_detected_payload :
    ∃ buffers : List Bytes,
      ({ header := {}, payload := [5] } : TCPSegment).serialize ({ len := 41 } : IPv4Header).pseudoCksum
        = .ok buffers ∧
      (parse (buffers.flatten.set 20 6) ({ len := 41 } : IPv4Header).pseudoCksum).1 = .badChecksum := by
  obtain ⟨buffers, hser, hseen⟩ := corruption_is_detected { header := {}, payload := [5] } { len := 41 }
    (by decide) (by decide) (by decide)
  have hvalue : ({ header := {}, payload := [5] } : TCPSegment).serialize ({ len := 41 } : IPv4Header).pseudoCksum
      = .ok [[0, 0, 0, 0, 0, 0, 0, 0, 0, 0, 0, 0, 0x50, 0, 0, 0, 0xaa, 0xe4, 0, 0], [5]] := by
    decide +kernel
  obtain rfl := Except.ok.inj (hvalue.symm.trans hser)
  exact ⟨_, hser, hseen 20 5 6 rfl (by decide)⟩

end TCPSegment

end Sponge
