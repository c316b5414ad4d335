/-
# `Sponge.TcpConnection` — an endpoint: a sender, a receiver and the rules of closing.

Models `libsponge/tcp_connection.{hh,cc}`.  The connection passes acknowledgments to its sender and
segments to its receiver, lets the sender fill the window, and stamps everything the sender has queued
with the receiver's acknowledgment number and window on its way out.  Three flags decide when it is over:
`_linger_after_streams_finish`, `_send_fin_first` (a `size_t` used as a flag) and `_is_rst`.

`segment_received` has four exits.  `segmentReceived_cases` names them; the one that matters goes through
`noted` (both halves have seen the segment, the flags are updated) and `Answers` (what the sender then
queued).  The destructor, which resets an active connection, has no state after it and is not modelled.
-/
import Sponge.TcpReceiver
import Sponge.SenderHistory

namespace Sponge

open Sponge.Lib

/-- `TCPConnection`. -/
structure TCPConnection where
  cfg : TCPConfig
  receiver : TCPReceiver
  sender : TCPSender
  segmentsOut : List TCPSegment := []
  lingerAfterStreamsFinish : Bool := true
  isRst : Bool := false
  lastReceivedTime : Nat := 0
  sendFinFirst : Bool := true
  deriving DecidableEq, Repr

namespace TCPConnection

/-! ## The source functions -/

/-- `TCPConnection(cfg)`; `random` is the ISN that the random device would give the sender. -/
def new (cfg : TCPConfig) (random : WrappingInt32) : TCPConnection :=
  { cfg := cfg
    receiver := TCPReceiver.new cfg.recvCapacity
    sender := TCPSender.new cfg.sendCapacity cfg.rtTimeout cfg.fixedIsn random }

def remainingOutboundCapacity (c : TCPConnection) : Nat := c.sender.stream.remainingCapacity

def bytesInFlight (c : TCPConnection) : Nat := c.sender.bytesInFlight

def unassembledBytes (c : TCPConnection) : Nat := c.receiver.unassembledBytes

def timeSinceLastSegmentReceived (c : TCPConnection) : Nat := c.lastReceivedTime

def inboundStream (c : TCPConnection) : ByteStream := c.receiver.streamOut

/-- `TCPConnection::active`. -/
def active (c : TCPConnection) : Bool :=
  if c.isRst then false
  else !(c.sender.isFinReceived && c.receiver.streamOut.eof && !c.lingerAfterStreamsFinish)

/-- `TCPConnection::_set_rst`. -/
def setRst (c : TCPConnection) : TCPConnection :=
  { c with
    isRst := true
    sender := { c.sender with stream := c.sender.stream.setError }
    receiver := { c.receiver with
      reassembler := { c.receiver.reassembler with output := c.receiver.reassembler.output.setError } } }

/-- `TCPConnection::_send_rst_to_peer`. -/
def sendRstToPeer (c : TCPConnection) : TCPConnection :=
  setRst { c with
    sender := { c.sender with segmentsOut := [] }
    segmentsOut := c.segmentsOut ++ [{ header := { seqno := c.sender.nextSeqno32, rst := true } }] }

/-- What `_send_ack_if_need` writes into a segment that goes out. -/
def stampAck (c : TCPConnection) (seg : TCPSegment) : TCPSegment :=
  let header := match c.receiver.ackno with
    | some ackno => { seg.header with ack := true, ackno := ackno }
    | none => seg.header
  { seg with header := { header with win := UInt16.ofNat (min 65535 c.receiver.windowSize) } }

/-- `TCPConnection::_send_ack_if_need`. -/
def sendAckIfNeed (c : TCPConnection) : TCPConnection :=
  { c with
    sender := { c.sender with segmentsOut := [] }
    segmentsOut := c.segmentsOut ++ c.sender.segmentsOut.map c.stampAck }

/-- The edge case of `segment_received`: both streams have ended, the local one first, and the segment
carries no FIN. -/
def ignored (c : TCPConnection) (seg : TCPSegment) : Bool :=
  c.sender.isFinReceived && c.receiver.streamOut.eof && (c.sendFinFirst && !seg.header.fin)

/-- The keep-alive test of `segment_received`. -/
def keepAlive (c : TCPConnection) (seg : TCPSegment) : Bool :=
  match c.receiver.ackno with
  | some ackno => decide (seg.lengthInSequenceSpace = 0) && decide (ackno.back 1 = seg.header.seqno)
  | none => false

/-- `segment_received` after both halves have seen the segment. -/
def answer (c : TCPConnection) (seg : TCPSegment) : Except Exception TCPConnection :=
  if c.keepAlive seg then .ok { c with sender := c.sender.sendEmptySegment }.sendAckIfNeed
  else
    -- before the own SYN is acknowledged only a SYN lets the sender speak
    (if c.sender.isSynReceived || seg.header.syn then c.sender.fillWindow else .ok c.sender).map
      fun sender =>
        let shouldSendEmptyAck := decide (seg.payload.length ≠ 0)
          || (decide (seg.payload.length = 0) && decide (seg.lengthInSequenceSpace ≥ 1))
        let sender := if sender.segmentsOut.isEmpty && shouldSendEmptyAck then sender.sendEmptySegment
          else sender
        { c with sender := sender }.sendAckIfNeed

/-- `TCPConnection::segment_received`. -/
def segmentReceived (c : TCPConnection) (seg : TCPSegment) : Except Exception TCPConnection :=
  let c := { c with lastReceivedTime := 0 }
  if seg.header.rst then .ok c.setRst
  else if !c.active then .ok c
  else if c.ignored seg then .ok c
  else
    let c := if seg.header.ack
      then { c with sender := c.sender.ackReceived seg.header.ackno seg.header.win } else c
    (c.receiver.segmentReceived seg).bind fun receiver =>
      let c := { c with receiver := receiver }
      let c := { c with sendFinFirst :=
        if c.receiver.fsn.isSome && !c.sender.stream.eof then false else c.sendFinFirst }
      let c := { c with lingerAfterStreamsFinish :=
        if c.sender.isSynReceived && c.receiver.streamOut.eof && !c.sendFinFirst then false
        else c.lingerAfterStreamsFinish }
      c.answer seg

/-- `TCPConnection::write`: the number of bytes accepted, and the new connection. -/
def write (c : TCPConnection) (data : Bytes) : Except Exception (Nat × TCPConnection) :=
  let (result, stream) := c.sender.stream.write data
  ({ c.sender with stream := stream }).fillWindow.map fun sender =>
    (result, { c with sender := sender }.sendAckIfNeed)

/-- `TCPConnection::tick`. -/
def tick (c : TCPConnection) (msSinceLastTick : Nat) : TCPConnection :=
  if c.sender.consecutiveRetransmissions ≥ TCPConfig.MAX_RETX_ATTEMPTS then c.sendRstToPeer
  else
    { c with
      lingerAfterStreamsFinish :=
        if c.sender.isSynReceived && c.receiver.streamOut.eof && c.lingerAfterStreamsFinish then
          if c.lastReceivedTime + msSinceLastTick ≥ 10 * c.cfg.rtTimeout.toNat then false
          else c.lingerAfterStreamsFinish
        else c.lingerAfterStreamsFinish
      sender := c.sender.tick msSinceLastTick
      lastReceivedTime := c.lastReceivedTime + msSinceLastTick }.sendAckIfNeed

/-- `TCPConnection::end_input_stream`. -/
def endInputStream (c : TCPConnection) : Except Exception TCPConnection :=
  ({ c.sender with stream := c.sender.stream.endInput }).fillWindow.map fun sender =>
    { c with sender := sender }.sendAckIfNeed

/-- `TCPConnection::connect`. -/
def connect (c : TCPConnection) : Except Exception TCPConnection :=
  c.sender.fillWindow.map fun sender => { c with sender := sender }.sendAckIfNeed

/-- A read from `inbound_stream()`.  A read of more than there is throws, but has emptied the stream. -/
def readInbound (c : TCPConnection) (len : Nat) : TCPConnection :=
  { c with receiver := { c.receiver with
    reassembler := { c.receiver.reassembler with output := (c.receiver.reassembler.output.read len).1 } } }

/-! ## The calls of a run -/

/-- What the owner of a connection can do. -/
inductive Call where
  | connect
  | write (data : Bytes)
  | endInputStream
  | segmentReceived (seg : TCPSegment)
  | tick (msSinceLastTick : Nat)
  | readInbound (len : Nat)
  /-- `segments_out().pop()`. -/
  | pop

def step (c : TCPConnection) : Call → Except Exception TCPConnection
  | .connect => c.connect
  | .write data => (c.write data).map Prod.snd
  | .endInputStream => c.endInputStream
  | .segmentReceived seg => c.segmentReceived seg
  | .tick msSinceLastTick => .ok (c.tick msSinceLastTick)
  | .readInbound len => .ok (c.readInbound len)
  | .pop => .ok { c with segmentsOut := c.segmentsOut.tail }

/-- A run starts with a new connection. -/
def Start (c : TCPConnection) : Prop := ∃ cfg random, c = new cfg random

/-! ## What a call can do -/

/-- The outbound stream that `fill_window` finds, in the calls of the owner that come down to it. -/
def refill (c : TCPConnection) : Call → Option ByteStream
  | .connect => some c.sender.stream
  | .write data => some (c.sender.stream.write data).2
  | .endInputStream => some c.sender.stream.endInput
  | .segmentReceived _ | .tick _ | .readInbound _ | .pop => none

theorem refill_wf {c : TCPConnection} {call : Call} {stream : ByteStream} (hwf : c.sender.stream.WF)
    (h : c.refill call = some stream) : stream.WF := by
  cases call with
  | connect => exact Option.some.inj h ▸ hwf
  | write data => exact Option.some.inj h ▸ (hwf.write data).1
  | endInputStream => exact Option.some.inj h ▸ hwf.endInput
  | segmentReceived _ | tick _ | readInbound _ | pop => exact absurd h (by simp [refill])

/-- **One call**: `fill_window` on a stream, a segment, a tick, or the owner reads or takes a segment. -/
theorem step_cases {c c' : TCPConnection} {call : Call} (hs : c.step call = .ok c') :
    (∃ stream s', c.refill call = some stream ∧ ({ c.sender with stream := stream }).fillWindow = .ok s' ∧
      c' = { c with sender := s' }.sendAckIfNeed) ∨
    (∃ seg, call = .segmentReceived seg ∧ c.segmentReceived seg = .ok c') ∨
    (∃ ms, call = .tick ms ∧ c' = c.tick ms) ∨
    (∃ len, call = .readInbound len ∧ c' = c.readInbound len) ∨
    (call = .pop ∧ c' = { c with segmentsOut := c.segmentsOut.tail }) := by
  cases call with
  | connect =>
    obtain ⟨s, hf, rfl⟩ := map_ok.mp hs
    exact Or.inl ⟨_, s, rfl, hf, rfl⟩
  | write data =>
    obtain ⟨⟨n, c''⟩, hw, rfl⟩ := map_ok.mp hs
    obtain ⟨s, hf, heq⟩ := map_ok.mp hw
    exact Or.inl ⟨_, s, rfl, hf, (Prod.mk.inj heq).2.symm⟩
  | endInputStream =>
    obtain ⟨s, hf, rfl⟩ := map_ok.mp hs
    exact Or.inl ⟨_, s, rfl, hf, rfl⟩
  | segmentReceived seg => exact Or.inr (Or.inl ⟨seg, rfl, hs⟩)
  | tick ms => exact Or.inr (Or.inr (Or.inl ⟨ms, rfl, (Except.ok.inj hs).symm⟩))
  | readInbound len => exact Or.inr (Or.inr (Or.inr (Or.inl ⟨len, rfl, (Except.ok.inj hs).symm⟩)))
  | pop => exact Or.inr (Or.inr (Or.inr (Or.inr ⟨rfl, (Except.ok.inj hs).symm⟩)))

/-- `tick` clears the lingering flag once the SYN is acknowledged, the inbound stream at its end and the time over;
it does not set it. -/
theorem tick_linger (c : TCPConnection) (ms : Nat) :
    ((c.tick ms).lingerAfterStreamsFinish = true → c.lingerAfterStreamsFinish = true) ∧
    ((c.tick ms).lingerAfterStreamsFinish = false → c.lingerAfterStreamsFinish = false ∨
      (c.sender.isSynReceived = true ∧ c.inboundStream.eof = true ∧ c.lingerAfterStreamsFinish = true ∧
        10 * c.cfg.rtTimeout.toNat ≤ c.lastReceivedTime + ms)) := by
  unfold tick
  split
  · exact ⟨id, Or.inl⟩
  · show ((if _ then (if _ then false else _) else c.lingerAfterStreamsFinish) = true → _) ∧
      ((if _ then (if _ then false else _) else c.lingerAfterStreamsFinish) = false → _)
    split
    · rename_i hdone
      simp only [Bool.and_eq_true] at hdone
      refine ⟨fun _ => hdone.2, fun hcleared => ?_⟩
      split at hcleared
      · rename_i hover
        exact Or.inr ⟨hdone.1.1, hdone.1.2, hdone.2, hover⟩
      · exact Or.inl hcleared
    · exact ⟨id, Or.inl⟩

/-- What the owner reads, the receiver has written. -/
theorem readInbound_later (c : TCPConnection) (len : Nat) : c.receiver.Later (c.readInbound len).receiver := by
  refine ⟨?_, ?_, fun _ => rfl⟩
  · show c.receiver.streamOut.bytesWirtten ≤ (c.receiver.streamOut.read len).1.bytesWirtten
    rw [ByteStream.read_bytesWirtten]
  · show c.receiver.streamOut.isInputEnd = true → (c.receiver.streamOut.read len).1.isInputEnd = true
    rw [ByteStream.read_isInputEnd]
    exact id

/-! ## The exits of `segment_received` -/

/-- The sender after it has been told the acknowledgment, if there is one. -/
def acked (c : TCPConnection) (seg : TCPSegment) : TCPSender :=
  if seg.header.ack then c.sender.ackReceived seg.header.ackno seg.header.win else c.sender

theorem acked_popped (c : TCPConnection) (seg : TCPSegment) :
    ∃ j, TCPSender.Popped c.sender j (c.acked seg) := by
  rw [acked]
  split
  · exact c.sender.ackReceived_popped _ _
  · exact ⟨0, TCPSender.Popped.refl _⟩

/-- The connection after both halves have seen a segment, with the closing flags updated. -/
def noted (c : TCPConnection) (sender : TCPSender) (receiver : TCPReceiver) : TCPConnection :=
  let sendFinFirst := if receiver.fsn.isSome && !sender.stream.eof then false else c.sendFinFirst
  { c with
    receiver := receiver
    sender := sender
    lastReceivedTime := 0
    sendFinFirst := sendFinFirst
    lingerAfterStreamsFinish :=
      if sender.isSynReceived && receiver.streamOut.eof && !sendFinFirst then false
      else c.lingerAfterStreamsFinish }

/-- `s'` is `s` with the answer to `seg` queued: a keep-alive gets an empty segment, anything else what
`fill_window` has to send or, if the segment occupies sequence space, at least an empty segment. -/
def Answers (s : TCPSender) (seg : TCPSegment) (s' : TCPSender) : Prop :=
  (seg.lengthInSequenceSpace = 0 ∧ s' = s.sendEmptySegment) ∨
  ∃ t, (t = s ∨ s.fillWindow = .ok t) ∧ (s' = t ∨ s' = t.sendEmptySegment) ∧
    (0 < seg.lengthInSequenceSpace → s'.segmentsOut ≠ [])

/-- What `fill_window` and an empty segment keep, the answer keeps. -/
theorem Answers.keeps {P : TCPSender → Prop} {s s' : TCPSender} {seg : TCPSegment} (ha : Answers s seg s')
    (hs : P s) (hfill : ∀ t, s.fillWindow = .ok t → P t) (hempty : ∀ t, P t → P t.sendEmptySegment) : P s' := by
  rcases ha with ⟨-, rfl⟩ | ⟨t, ht, hs', -⟩
  · exact hempty s hs
  · have hp : P t := by
      rcases ht with rfl | ht
      · exact hs
      · exact hfill t ht
    rcases hs' with rfl | rfl
    · exact hp
    · exact hempty t hp

theorem sendEmptySegment_ne_nil (s : TCPSender) : s.sendEmptySegment.segmentsOut ≠ [] := by
  simp [TCPSender.sendEmptySegment]

theorem answer_ok {c c' : TCPConnection} {seg : TCPSegment} (h : c.answer seg = .ok c') :
    ∃ s', Answers c.sender seg s' ∧ c' = { c with sender := s' }.sendAckIfNeed := by
  rw [answer] at h
  split at h
  · rename_i hka
    refine ⟨_, Or.inl ⟨?_, rfl⟩, (Except.ok.inj h).symm⟩
    rw [keepAlive] at hka
    split at hka
    · simp only [Bool.and_eq_true, decide_eq_true_eq] at hka
      exact hka.1
    · exact absurd hka (by simp)
  · obtain ⟨t, ht, rfl⟩ := map_ok.mp h
    have hfill : t = c.sender ∨ c.sender.fillWindow = .ok t := by
      split at ht
      · exact Or.inr ht
      · exact Or.inl (Except.ok.inj ht).symm
    refine ⟨_, Or.inr ⟨t, hfill, ?_, ?_⟩, rfl⟩
    · split
      · exact Or.inr rfl
      · exact Or.inl rfl
    · intro hlen
      split
      · exact sendEmptySegment_ne_nil t
      · -- something is queued already, since the segment calls for an answer
        rename_i hnot
        intro hnil
        apply hnot
        rw [hnil]
        simp only [List.isEmpty_nil, Bool.true_and, Bool.or_eq_true, decide_eq_true_eq, Bool.and_eq_true]
        omega

/-- An empty segment that is no keep-alive is answered by what `fill_window` has to send, if it is called at
all. -/
theorem answer_empty {c c' : TCPConnection} {seg : TCPSegment} (hka : c.keepAlive seg = false)
    (hlen : seg.lengthInSequenceSpace = 0) (h : c.answer seg = .ok c') :
    ∃ t, (t = c.sender ∨ ((c.sender.isSynReceived || seg.header.syn) = true ∧ c.sender.fillWindow = .ok t)) ∧
      c' = { c with sender := t }.sendAckIfNeed := by
  have hdata : seg.payload.length = 0 := Nat.le_zero.mp (hlen ▸ seg.payload_le_length)
  rw [answer, hka, if_neg (by decide)] at h
  obtain ⟨t, ht, rfl⟩ := map_ok.mp h
  refine ⟨t, ?_, ?_⟩
  · split at ht
    · rename_i hspeaks
      exact Or.inr ⟨hspeaks, ht⟩
    · exact Or.inl (Except.ok.inj ht).symm
  · simp [hdata, hlen]

/-- `answer` returns when `fill_window` does. -/
theorem answer_returns {c : TCPConnection} (seg : TCPSegment)
    (h : ∃ t, c.sender.fillWindow = .ok t) : ∃ c', c.answer seg = .ok c' := by
  obtain ⟨t, ht⟩ := h
  rw [answer]
  split
  · exact ⟨_, rfl⟩
  · split
    · rw [ht]
      exact ⟨_, rfl⟩
    · exact ⟨_, rfl⟩

/-- **The exits of `segment_received`**: reset, not active, ignored, or noted and answered. -/
theorem segmentReceived_cases (c : TCPConnection) (seg : TCPSegment) :
    (seg.header.rst = true ∧ c.segmentReceived seg = .ok { c with lastReceivedTime := 0 }.setRst) ∨
    (seg.header.rst = false ∧ (c.active = false ∨ c.ignored seg = true) ∧
      c.segmentReceived seg = .ok { c with lastReceivedTime := 0 }) ∨
    (seg.header.rst = false ∧ c.active = true ∧ c.ignored seg = false ∧
      c.segmentReceived seg
        = (c.receiver.segmentReceived seg).bind fun receiver =>
          (c.noted (c.acked seg) receiver).answer seg) := by
  have hact : ({ c with lastReceivedTime := 0 } : TCPConnection).active = c.active := rfl
  have hign : ({ c with lastReceivedTime := 0 } : TCPConnection).ignored seg = c.ignored seg := rfl
  rw [segmentReceived, hact, hign]
  cases hrst : seg.header.rst with
  | true => exact Or.inl ⟨rfl, if_pos rfl⟩
  | false =>
    refine Or.inr ?_
    rw [if_neg (by simp)]
    cases hac : c.active with
    | false => exact Or.inl ⟨rfl, Or.inl rfl, rfl⟩
    | true =>
      rw [if_neg (by simp)]
      cases hig : c.ignored seg with
      | true => exact Or.inl ⟨rfl, Or.inr rfl, if_pos rfl⟩
      | false =>
        refine Or.inr ⟨rfl, rfl, rfl, ?_⟩
        rw [if_neg (by simp)]
        have hsender : (if seg.header.ack then { { c with lastReceivedTime := 0 } with
              sender := c.sender.ackReceived seg.header.ackno seg.header.win }
            else ({ c with lastReceivedTime := 0 } : TCPConnection))
            = { c with lastReceivedTime := 0, sender := c.acked seg } := by
          by_cases hack : seg.header.ack = true
          · rw [acked, if_pos hack, if_pos hack]
          · rw [acked, if_neg hack, if_neg hack]
        rw [hsender]
        generalize c.acked seg = s
        rfl

/-! ## The sender inside the connection -/

open SenderRun (Kept newSegments)

/-- The sender of a connection is a sender in a run: its counters and flags describe some list of created
segments. -/
def Tracked (s : TCPSender) : Prop := ∃ created, Kept s created

theorem Tracked.fillWindow {s s' : TCPSender} (h : Tracked s) (hs : s.fillWindow = .ok s') :
    Tracked s' := by
  obtain ⟨created, hk⟩ := h
  exact ⟨_, hk.fillWindow_kept hs⟩

theorem Tracked.fillWindow_returns {s : TCPSender} (h : Tracked s) : ∃ s', s.fillWindow = .ok s' := by
  obtain ⟨created, hk⟩ := h
  obtain ⟨s', hs', -⟩ := hk.fillWindow
  exact ⟨s', hs'⟩

/-- `fill_window` does not touch the flags. -/
theorem Tracked.fillWindow_flags {s s' : TCPSender} (h : Tracked s) (hs : s.fillWindow = .ok s') :
    s'.isFinReceived = s.isFinReceived ∧ s'.isSynReceived = s.isSynReceived := by
  obtain ⟨created, hk⟩ := h
  rcases hk.fillWindow_ok hs with ⟨-, rfl | ⟨-, rfl⟩⟩ | hf
  · exact ⟨rfl, rfl⟩
  · exact ⟨rfl, rfl⟩
  · rw [hf.result]
    exact ⟨rfl, rfl⟩

/-- Replacing the stream by another one in order. -/
theorem Tracked.withStream {s : TCPSender} (h : Tracked s) {stream : ByteStream} (hwf : stream.WF) :
    Tracked { s with stream := stream } := by
  obtain ⟨created, hk⟩ := h
  exact ⟨created, hk.same hwf rfl rfl rfl rfl rfl rfl⟩

theorem Tracked.withSegmentsOut {s : TCPSender} (h : Tracked s) (segs : List TCPSegment) :
    Tracked { s with segmentsOut := segs } := by
  obtain ⟨created, hk⟩ := h
  exact ⟨created, hk.same hk.wf rfl rfl rfl rfl rfl rfl⟩

theorem Tracked.wf {s : TCPSender} (h : Tracked s) : s.stream.WF := by
  obtain ⟨created, hk⟩ := h
  exact hk.wf

theorem Tracked.acked {c : TCPConnection} (h : Tracked c.sender) (seg : TCPSegment) :
    Tracked (c.acked seg) := by
  obtain ⟨created, hk⟩ := h
  rw [TCPConnection.acked]
  split
  · exact ⟨created, hk.ackReceived _ _⟩
  · exact ⟨created, hk⟩

theorem Answers.tracked {s s' : TCPSender} {seg : TCPSegment} (h : Tracked s) (ha : Answers s seg s') :
    Tracked s' :=
  ha.keeps h (fun _ ht => h.fillWindow ht) fun _ ht => ht.withSegmentsOut _

theorem Tracked.new (cfg : TCPConfig) (random : WrappingInt32) : Tracked (new cfg random).sender :=
  ⟨[], Kept.new _ _ _ _⟩

/-- **One call keeps the sender in order.** -/
theorem Tracked.step {c c' : TCPConnection} {call : Call} (h : Tracked c.sender)
    (hs : c.step call = .ok c') : Tracked c'.sender := by
  rcases step_cases hs with ⟨stream, s, href, hf, rfl⟩ | ⟨seg, -, hs⟩ | ⟨ms, -, rfl⟩ | ⟨len, -, rfl⟩ |
    ⟨-, rfl⟩
  · exact ((h.withStream (refill_wf h.wf href)).fillWindow hf).withSegmentsOut _
  · rcases c.segmentReceived_cases seg with ⟨-, heq⟩ | ⟨-, -, heq⟩ | ⟨-, -, -, heq⟩
    · obtain rfl := Except.ok.inj (heq.symm.trans hs)
      exact h.withStream h.wf.setError
    · obtain rfl := Except.ok.inj (heq.symm.trans hs)
      exact h
    · obtain ⟨r, -, hans⟩ := bind_ok.mp (heq.symm.trans hs)
      obtain ⟨s', ha, rfl⟩ := answer_ok hans
      exact (ha.tracked (h.acked seg)).withSegmentsOut _
  · rw [tick]
    split
    · exact (h.withSegmentsOut []).withStream h.wf.setError
    · obtain ⟨created, hk⟩ := h
      exact Tracked.withSegmentsOut ⟨created, hk.ticked (c.sender.tick_ticked ms)⟩ _
  · exact h
  · exact h

theorem tracked_of_reach {ok : TCPConnection → Call → Prop} {c : TCPConnection}
    (hr : Reach Start step ok c) : Tracked c.sender := by
  refine Reach.invariant (P := fun c : TCPConnection => Tracked c.sender) ?_
    (fun _ _ _ h _ hs => h.step hs) hr
  rintro c ⟨cfg, random, rfl⟩
  exact Tracked.new cfg random

end TCPConnection

end Sponge
