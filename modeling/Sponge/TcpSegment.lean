/-
# `Sponge.TcpSegment` — what travels between two endpoints.

Models `TCPHeader` (`tcp_helpers/tcp_header.hh`), `TCPSegment` (`tcp_helpers/tcp_segment.{hh,cc}`) and
`TCPConfig` (`tcp_helpers/tcp_config.hh`) as the sender, the receiver and the connection use them: the
header fields with their defaults, the payload as its bytes, and the length in sequence space.  Parsing
and serialising are in `Sponge.TcpWire`.
-/
import Sponge.WrappingIntegers

namespace Sponge

/-- `TCPHeader::LENGTH`. -/
def TCPHeader.LENGTH : Nat := 20

/-- `TCPHeader`. -/
structure TCPHeader where
  sport : UInt16 := 0
  dport : UInt16 := 0
  seqno : WrappingInt32 := ⟨0⟩
  ackno : WrappingInt32 := ⟨0⟩
  doff : UInt8 := UInt8.ofNat (TCPHeader.LENGTH / 4)
  urg : Bool := false
  ack : Bool := false
  psh : Bool := false
  rst : Bool := false
  syn : Bool := false
  fin : Bool := false
  win : UInt16 := 0
  cksum : UInt16 := 0
  uptr : UInt16 := 0
  deriving DecidableEq, Repr

/-- `TCPSegment`. -/
structure TCPSegment where
  header : TCPHeader := {}
  payload : Bytes := []
  deriving DecidableEq, Repr

namespace TCPSegment

def lengthInSequenceSpace (seg : TCPSegment) : Nat :=
  seg.payload.length + (if seg.header.syn then 1 else 0) + (if seg.header.fin then 1 else 0)

theorem payload_le_length (seg : TCPSegment) : seg.payload.length ≤ seg.lengthInSequenceSpace := by
  rw [lengthInSequenceSpace]
  omega

end TCPSegment

namespace TCPConfig

def DEFAULT_CAPACITY : Nat := 64000

def MAX_PAYLOAD_SIZE : Nat := 1000

def TIMEOUT_DFLT : UInt16 := 1000

def MAX_RETX_ATTEMPTS : Nat := 8

end TCPConfig

/-- `TCPConfig`. -/
structure TCPConfig where
  rtTimeout : UInt16 := TCPConfig.TIMEOUT_DFLT
  recvCapacity : Nat := TCPConfig.DEFAULT_CAPACITY
  sendCapacity : Nat := TCPConfig.DEFAULT_CAPACITY
  fixedIsn : Option WrappingInt32 := none
  deriving DecidableEq, Repr

end Sponge
