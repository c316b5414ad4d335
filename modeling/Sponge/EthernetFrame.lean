/-
# `Sponge.EthernetFrame` — Ethernet frames and ARP messages.

Models `libsponge/tcp_helpers/ethernet_header.{hh,cc}`, `ethernet_frame.{hh,cc}` and `arp_message.{hh,cc}`.
`to_string` of an address is modelled because `NetworkInterface` compares addresses by their printed form;
two addresses print alike only if they are equal (`toString_inj`).  The other printers are left out.

Frames and supported messages are read back from their bytes, and what is read is written back as it was
(`codecs_are_inverse`): six bytes are an address, fourteen a header and twenty-eight a message (`split`).
-/
import Sponge.NetParser

namespace Sponge

/-! ## Addresses -/

/-- `EthernetAddress`, an array of six bytes. -/
structure EthernetAddress where
  b0 : UInt8 := 0
  b1 : UInt8 := 0
  b2 : UInt8 := 0
  b3 : UInt8 := 0
  b4 : UInt8 := 0
  b5 : UInt8 := 0
  deriving DecidableEq, Repr

namespace EthernetAddress

def ETHERNET_BROADCAST : EthernetAddress := ⟨0xff, 0xff, 0xff, 0xff, 0xff, 0xff⟩

def bytes (a : EthernetAddress) : Bytes := [a.b0, a.b1, a.b2, a.b3, a.b4, a.b5]

open NetParser in
/-- The loop that reads an address byte by byte. -/
def read : StateM NetParser EthernetAddress := do
  return ⟨← u8, ← u8, ← u8, ← u8, ← u8, ← u8⟩

/-- A hexadecimal digit, as a character code. -/
def hexDigit (n : Nat) : UInt8 := if n < 10 then UInt8.ofNat (48 + n) else UInt8.ofNat (87 + n)

/-- A byte as two hexadecimal digits. -/
def hexByte (b : UInt8) : Bytes := [hexDigit (b.toNat / 16), hexDigit (b.toNat % 16)]

/-- `to_string(address)`: the bytes in hexadecimal with colons between them. -/
def toString (a : EthernetAddress) : Bytes :=
  hexByte a.b0 ++ [58] ++ hexByte a.b1 ++ [58] ++ hexByte a.b2 ++ [58] ++ hexByte a.b3 ++ [58]
    ++ hexByte a.b4 ++ [58] ++ hexByte a.b5

theorem hexDigit_inj : ∀ m < 16, ∀ n < 16, hexDigit m = hexDigit n → m = n := by decide

theorem hexByte_inj {a b : UInt8} (h : hexByte a = hexByte b) : a = b := by
  obtain ⟨hhigh, hlow, -⟩ : hexDigit (a.toNat / 16) = hexDigit (b.toNat / 16) ∧
      hexDigit (a.toNat % 16) = hexDigit (b.toNat % 16) ∧ True := by simpa [hexByte] using h
  have ha := a.toNat_lt
  have hb := b.toNat_lt
  have h1 := hexDigit_inj _ (by omega) _ (by omega) hhigh
  have h2 := hexDigit_inj _ (by omega) _ (by omega) hlow
  exact UInt8.toNat_inj.mp (by omega)

/-- **Addresses that print alike are equal.** -/
theorem toString_inj {a b : EthernetAddress} : a.toString = b.toString ↔ a = b := by
  refine ⟨fun h => ?_, fun h => h ▸ rfl⟩
  obtain ⟨a0, a1, a2, a3, a4, a5⟩ := a
  obtain ⟨b0, b1, b2, b3, b4, b5⟩ := b
  simp only [toString, hexByte, List.cons_append, List.nil_append, List.cons.injEq] at h
  have hbyte : ∀ {x y : UInt8}, hexDigit (x.toNat / 16) = hexDigit (y.toNat / 16) →
      hexDigit (x.toNat % 16) = hexDigit (y.toNat % 16) → x = y := fun hhigh hlow =>
    hexByte_inj (by rw [hexByte, hexByte, hhigh, hlow])
  obtain ⟨h0, h0', -, h1, h1', -, h2, h2', -, h3, h3', -, h4, h4', -, h5, h5', -⟩ := h
  rw [hbyte h0 h0', hbyte h1 h1', hbyte h2 h2', hbyte h3 h3', hbyte h4 h4', hbyte h5 h5']

theorem flatMap_bytes (a : EthernetAddress) (rest : Bytes) : a.bytes.flatMap NetUnparser.u8 ++ rest =
    NetUnparser.u8 a.b0 ++ (NetUnparser.u8 a.b1 ++ (NetUnparser.u8 a.b2 ++ (NetUnparser.u8 a.b3 ++
      (NetUnparser.u8 a.b4 ++ (NetUnparser.u8 a.b5 ++ rest))))) := by
  simp only [bytes, List.flatMap_cons, List.flatMap_nil, List.append_nil, List.append_assoc]

theorem flatMap_bytes_length (a : EthernetAddress) : (a.bytes.flatMap NetUnparser.u8).length = 6 := by
  simp [bytes]

theorem read_append (a : EthernetAddress) (rest : Bytes) :
    read { buffer := a.bytes.flatMap NetUnparser.u8 ++ rest } = (a, { buffer := rest }) := by
  rw [flatMap_bytes, read, stateM_bind_of (NetParser.u8_append _ _), stateM_bind_of (NetParser.u8_append _ _),
    stateM_bind_of (NetParser.u8_append _ _), stateM_bind_of (NetParser.u8_append _ _),
    stateM_bind_of (NetParser.u8_append _ _), stateM_bind_of (NetParser.u8_append _ _), stateM_pure]

/-- Six bytes are an address. -/
theorem split (bytes : Bytes) (offset : Nat) (h : offset + 6 ≤ bytes.length) :
    ∃ a : EthernetAddress, bytes.drop offset = a.bytes.flatMap NetUnparser.u8 ++ bytes.drop (offset + 6) := by
  obtain ⟨b0, h0⟩ := NetParser.u8_split bytes offset (by omega)
  obtain ⟨b1, h1⟩ := NetParser.u8_split bytes (offset + 1) (by omega)
  obtain ⟨b2, h2⟩ := NetParser.u8_split bytes (offset + 2) (by omega)
  obtain ⟨b3, h3⟩ := NetParser.u8_split bytes (offset + 3) (by omega)
  obtain ⟨b4, h4⟩ := NetParser.u8_split bytes (offset + 4) (by omega)
  obtain ⟨b5, h5⟩ := NetParser.u8_split bytes (offset + 5) (by omega)
  refine ⟨⟨b0, b1, b2, b3, b4, b5⟩, ?_⟩
  rw [flatMap_bytes, ← h5, ← h4, ← h3, ← h2, ← h1, ← h0]

end EthernetAddress

/-! ## Frames -/

/-- `EthernetHeader`. -/
structure EthernetHeader where
  dst : EthernetAddress := {}
  src : EthernetAddress := {}
  type : UInt16 := 0
  deriving DecidableEq, Repr

namespace EthernetHeader

def LENGTH : Nat := 14

def TYPE_IPv4 : UInt16 := 0x800

def TYPE_ARP : UInt16 := 0x806

open NetParser in
/-- `EthernetHeader::parse`: what it reports, and the header as far as it was read. -/
def parse (h : EthernetHeader) : StateM NetParser (ParseResult × EthernetHeader) := do
  if (← get).buffer.length < LENGTH then return (.packetTooShort, h)
  let dst ← EthernetAddress.read
  let src ← EthernetAddress.read
  let type ← u16
  return ((← get).error, { dst := dst, src := src, type := type })

/-- `EthernetHeader::serialize`. -/
def serialize (h : EthernetHeader) : Bytes :=
  h.dst.bytes.flatMap NetUnparser.u8 ++ h.src.bytes.flatMap NetUnparser.u8 ++ NetUnparser.u16 h.type

theorem serialize_length (h : EthernetHeader) : h.serialize.length = LENGTH := by
  simp only [serialize, List.length_append, EthernetAddress.flatMap_bytes_length, NetUnparser.u16_length, LENGTH]

theorem parse_append (h h₀ : EthernetHeader) (rest : Bytes) :
    h₀.parse { buffer := h.serialize ++ rest } = ((.noError, h), { buffer := rest }) := by
  have hlen := h.serialize_length
  rw [parse, stateM_bind_of (stateM_get _)]
  dsimp only
  rw [if_neg (by rw [List.length_append]; omega)]
  simp only [serialize, List.append_assoc]
  rw [stateM_bind_of (EthernetAddress.read_append _ _), stateM_bind_of (EthernetAddress.read_append _ _),
    stateM_bind_of (NetParser.u16_append _ _)]
  rfl

/-- Fourteen bytes are a header. -/
theorem split {bytes : Bytes} (h : LENGTH ≤ bytes.length) :
    ∃ header : EthernetHeader, bytes = header.serialize ++ bytes.drop LENGTH := by
  simp only [LENGTH] at h ⊢
  obtain ⟨dst, hdst⟩ := EthernetAddress.split bytes 0 (by omega)
  obtain ⟨src, hsrc⟩ := EthernetAddress.split bytes 6 (by omega)
  obtain ⟨type, htype⟩ := NetParser.u16_split bytes 12 (by omega)
  refine ⟨⟨dst, src, type⟩, ?_⟩
  rw [serialize, List.append_assoc, List.append_assoc, ← htype, ← hsrc, ← hdst, List.drop_zero]

end EthernetHeader

/-- `EthernetFrame`. -/
structure EthernetFrame where
  header : EthernetHeader := {}
  payload : Bytes := []
  deriving DecidableEq, Repr

namespace EthernetFrame

/-- `EthernetFrame::parse` into a fresh frame: it reports the parser's error, not the header's. -/
def parse (buffer : Bytes) : ParseResult × EthernetFrame :=
  let ((_, header), p) := (({} : EthernetHeader).parse).run { buffer := buffer }
  (p.error, { header := header, payload := p.buffer })

/-- `EthernetFrame::serialize`, concatenated. -/
def serialize (f : EthernetFrame) : Bytes := f.header.serialize ++ f.payload

theorem parse_serialize (f : EthernetFrame) : parse f.serialize = (.noError, f) := by
  rw [parse, serialize, StateT.run, EthernetHeader.parse_append]

theorem serialize_parse {bytes : Bytes} (h : EthernetHeader.LENGTH ≤ bytes.length) :
    (parse bytes).1 = .noError ∧ (parse bytes).2.serialize = bytes := by
  obtain ⟨header, hsplit⟩ := EthernetHeader.split h
  have hparse := parse_serialize { header := header, payload := bytes.drop EthernetHeader.LENGTH }
  rw [serialize, ← hsplit] at hparse
  rw [hparse]
  exact ⟨rfl, hsplit.symm⟩

end EthernetFrame

/-! ## ARP -/

/-- `ARPMessage`. -/
structure ARPMessage where
  hardwareType : UInt16 := 1
  protocolType : UInt16 := EthernetHeader.TYPE_IPv4
  hardwareAddressSize : UInt8 := 6
  protocolAddressSize : UInt8 := 4
  opcode : UInt16 := 0
  senderEthernetAddress : EthernetAddress := {}
  senderIpAddress : UInt32 := 0
  targetEthernetAddress : EthernetAddress := {}
  targetIpAddress : UInt32 := 0
  deriving DecidableEq, Repr

namespace ARPMessage

def LENGTH : Nat := 28

def TYPE_ETHERNET : UInt16 := 1

def OPCODE_REQUEST : UInt16 := 1

def OPCODE_REPLY : UInt16 := 2

/-- `ARPMessage::supported`. -/
def supported (m : ARPMessage) : Bool :=
  m.hardwareType == TYPE_ETHERNET && m.protocolType == EthernetHeader.TYPE_IPv4
    && m.hardwareAddressSize == 6 && m.protocolAddressSize == 4
    && (m.opcode == OPCODE_REQUEST || m.opcode == OPCODE_REPLY)

open NetParser in
/-- The body of `ARPMessage::parse`. -/
def read (m : ARPMessage) : StateM NetParser (ParseResult × ARPMessage) := do
  if (← get).buffer.length < LENGTH then return (.packetTooShort, m)
  let hardwareType ← u16
  let protocolType ← u16
  let hardwareAddressSize ← u8
  let protocolAddressSize ← u8
  let opcode ← u16
  let m := { m with
    hardwareType := hardwareType
    protocolType := protocolType
    hardwareAddressSize := hardwareAddressSize
    protocolAddressSize := protocolAddressSize
    opcode := opcode }
  if !m.supported then return (.unsupported, m)
  let senderEthernetAddress ← EthernetAddress.read
  let senderIpAddress ← u32
  let targetEthernetAddress ← EthernetAddress.read
  let targetIpAddress ← u32
  return ((← get).error, { m with
    senderEthernetAddress := senderEthernetAddress
    senderIpAddress := senderIpAddress
    targetEthernetAddress := targetEthernetAddress
    targetIpAddress := targetIpAddress })

/-- `ARPMessage::parse` into a fresh message. -/
def parse (buffer : Bytes) : ParseResult × ARPMessage :=
  (({} : ARPMessage).read.run { buffer := buffer }).1

/-- The bytes that `serialize` puts together. -/
def wire (m : ARPMessage) : Bytes :=
  NetUnparser.u16 m.hardwareType ++ NetUnparser.u16 m.protocolType
    ++ NetUnparser.u8 m.hardwareAddressSize ++ NetUnparser.u8 m.protocolAddressSize ++ NetUnparser.u16 m.opcode
    ++ m.senderEthernetAddress.bytes.flatMap NetUnparser.u8 ++ NetUnparser.u32 m.senderIpAddress
    ++ m.targetEthernetAddress.bytes.flatMap NetUnparser.u8 ++ NetUnparser.u32 m.targetIpAddress

/-- `ARPMessage::serialize`. -/
def serialize (m : ARPMessage) : Except Exception Bytes :=
  if !m.supported then .error (.runtimeError
    "ARPMessage::serialize(): unsupported field combination (must be Ethernet/IP, and request or reply)")
  else .ok m.wire

theorem wire_length (m : ARPMessage) : m.wire.length = LENGTH := by
  simp only [wire, List.length_append, EthernetAddress.flatMap_bytes_length, NetUnparser.u8_length,
    NetUnparser.u16_length, NetUnparser.u32_length, LENGTH]

theorem serialize_eq {m : ARPMessage} (h : m.supported = true) : m.serialize = .ok m.wire := by
  rw [serialize, h]
  rfl

/-- A message is read back from its bytes, unless it is not supported. -/
theorem parse_wire (m : ARPMessage) (rest : Bytes) :
    (m.supported = true → parse (m.wire ++ rest) = (.noError, m)) ∧
    (m.supported = false → (parse (m.wire ++ rest)).1 = .unsupported) := by
  have hlen := m.wire_length
  rw [parse, StateT.run, read, stateM_bind_of (stateM_get _)]
  dsimp only
  rw [if_neg (by rw [List.length_append]; omega)]
  simp only [wire, List.append_assoc]
  rw [stateM_bind_of (NetParser.u16_append _ _), stateM_bind_of (NetParser.u16_append _ _),
    stateM_bind_of (NetParser.u8_append _ _), stateM_bind_of (NetParser.u8_append _ _),
    stateM_bind_of (NetParser.u16_append _ _)]
  -- the fields read so far are those that `supported` looks at
  have hsupported : ({
      hardwareType := m.hardwareType
      protocolType := m.protocolType
      hardwareAddressSize := m.hardwareAddressSize
      protocolAddressSize := m.protocolAddressSize
      opcode := m.opcode } : ARPMessage).supported = m.supported := rfl
  rw [hsupported]
  refine ⟨fun h => ?_, fun h => ?_⟩
  · rw [h, if_neg (by decide), stateM_bind_of (EthernetAddress.read_append _ _),
      stateM_bind_of (NetParser.u32_append _ _), stateM_bind_of (EthernetAddress.read_append _ _),
      stateM_bind_of (NetParser.u32_append _ _)]
    rfl
  · rw [h, if_pos (by decide)]
    rfl

/-- Twenty-eight bytes are a message. -/
theorem split {bytes : Bytes} (h : LENGTH ≤ bytes.length) :
    ∃ m : ARPMessage, bytes = m.wire ++ bytes.drop LENGTH := by
  simp only [LENGTH] at h ⊢
  obtain ⟨hardwareType, h0⟩ := NetParser.u16_split bytes 0 (by omega)
  obtain ⟨protocolType, h2⟩ := NetParser.u16_split bytes 2 (by omega)
  obtain ⟨hardwareSize, h4⟩ := NetParser.u8_split bytes 4 (by omega)
  obtain ⟨protocolSize, h5⟩ := NetParser.u8_split bytes 5 (by omega)
  obtain ⟨opcode, h6⟩ := NetParser.u16_split bytes 6 (by omega)
  obtain ⟨sender, h8⟩ := EthernetAddress.split bytes 8 (by omega)
  obtain ⟨senderIp, h14⟩ := NetParser.u32_split bytes 14 (by omega)
  obtain ⟨target, h18⟩ := EthernetAddress.split bytes 18 (by omega)
  obtain ⟨targetIp, h24⟩ := NetParser.u32_split bytes 24 (by omega)
  refine ⟨⟨hardwareType, protocolType, hardwareSize, protocolSize, opcode, sender, senderIp, target, targetIp⟩, ?_⟩
  simp only [wire, List.append_assoc]
  rw [← h24, ← h18, ← h14, ← h8, ← h6, ← h5, ← h4, ← h2, ← h0, List.drop_zero]

theorem parse_short {bytes : Bytes} (h : bytes.length < LENGTH) : (parse bytes).1 = .packetTooShort := by
  rw [parse, StateT.run, read, stateM_bind_of (stateM_get _)]
  dsimp only
  rw [if_pos h]
  rfl

/-- What is accepted begins with the bytes of a supported message, and that is the result. -/
theorem wire_of_parse {bytes : Bytes} {m : ARPMessage} (h : parse bytes = (.noError, m)) :
    m.supported = true ∧ bytes = m.wire ++ bytes.drop LENGTH := by
  have hno : (parse bytes).1 = .noError := congrArg Prod.fst h
  have hsize : LENGTH ≤ bytes.length := by
    by_contra hshort
    rw [parse_short (Nat.lt_of_not_le hshort)] at hno
    exact absurd hno (by decide)
  obtain ⟨m', hsplit⟩ := split hsize
  have hparse := m'.parse_wire (bytes.drop LENGTH)
  rw [← hsplit] at hparse
  cases hs : m'.supported with
  | false =>
    rw [hparse.2 hs] at hno
    exact absurd hno (by decide)
  | true =>
    obtain rfl : m' = m := congrArg Prod.snd ((hparse.1 hs).symm.trans h)
    exact ⟨hs, hsplit⟩

/-- What parses is supported. -/
theorem parse_supported {buffer : Bytes} {m : ARPMessage} (h : parse buffer = (.noError, m)) :
    m.supported = true := (wire_of_parse h).1

/-- It is a request or a reply. -/
theorem opcode_of_parse {buffer : Bytes} {m : ARPMessage} (h : parse buffer = (.noError, m)) :
    m.opcode = OPCODE_REQUEST ∨ m.opcode = OPCODE_REPLY := by
  have hs := parse_supported h
  simp only [supported, Bool.and_eq_true, Bool.or_eq_true, beq_iff_eq] at hs
  exact hs.2

end ARPMessage

/-- **The codecs are inverse to each other**: frames come back from their bytes and bytes from their frame, and so
it is for supported messages and the strings that are accepted as one. -/
theorem codecs_are_inverse :
    (∀ f : EthernetFrame, EthernetFrame.parse f.serialize = (.noError, f)) ∧
    (∀ bytes : Bytes, EthernetHeader.LENGTH ≤ bytes.length → (EthernetFrame.parse bytes).2.serialize = bytes) ∧
    (∀ m : ARPMessage, m.supported = true →
      ∃ bytes, m.serialize = .ok bytes ∧ ARPMessage.parse bytes = (.noError, m)) ∧
    ∀ (bytes : Bytes) (m : ARPMessage), ARPMessage.parse bytes = (.noError, m) →
      m.serialize = .ok (bytes.take ARPMessage.LENGTH) := by
  refine ⟨EthernetFrame.parse_serialize, fun bytes h => (EthernetFrame.serialize_parse h).2, ?_, ?_⟩
  · intro m h
    have hparse := (m.parse_wire []).1 h
    rw [List.append_nil] at hparse
    exact ⟨m.wire, ARPMessage.serialize_eq h, hparse⟩
  · intro bytes m h
    obtain ⟨hs, hsplit⟩ := ARPMessage.wire_of_parse h
    rw [ARPMessage.serialize_eq hs]
    conv_rhs => rw [hsplit]
    rw [List.take_left' m.wire_length]

/-- An ARP request. -/
theorem codecs_are_inverse_request :
    ∃ bytes, ({ opcode := ARPMessage.OPCODE_REQUEST, targetIpAddress := 7 } : ARPMessage).serialize = .ok bytes ∧
      ARPMessage.parse bytes = (.noError, { opcode := ARPMessage.OPCODE_REQUEST, targetIpAddress := 7 }) :=
  codecs_are_inverse.2.2.1 _ rfl

end Sponge
