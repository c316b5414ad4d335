/-
# `Sponge.Network` — two connections over a network that loses, repeats and reorders.

Everything either endpoint has ever put into `segments_out()` may be delivered to the other one, any
number of times and in any order.  Nothing is taken out of `segments_out()`, so the queues themselves are
the network, and a run is any interleaving of the two owners' calls with deliveries.

What holds in every state of a run is stated for each direction (`Carries`): the sending endpoint keeps
what it keeps by itself (`Speaks`), the receiving one has heard nothing yet or holds fragments of the
sender's stream (`Listens`), and the sender takes nothing for acknowledged that the receiver has not
reached.  The runs are those in which no bare SYN is delivered to a receiver that has written something:
`TCPReceiver` answers such a SYN by moving `_top_pointer` back to 1, and `repeated_syn_repeats_bytes` shows
what comes of it.
-/
import Sponge.Endpoint

namespace Sponge

open Sponge.Lib
open SenderRun (Wired unacked)
open StreamReassembler (Honest)
open TCPConnection (Call)

/-! ## The two endpoints -/

inductive Side where
  | A
  | B
  deriving DecidableEq, Repr

def Side.peer : Side → Side
  | .A => .B
  | .B => .A

@[simp] theorem Side.peer_peer (x : Side) : x.peer.peer = x := by cases x <;> rfl

theorem Side.eq_or_peer (x y : Side) : y = x ∨ y = x.peer := by
  cases x <;> cases y <;> simp [Side.peer]

structure Network where
  a : Endpoint
  b : Endpoint
  deriving DecidableEq, Repr

namespace Network

def endpoint (w : Network) : Side → Endpoint
  | .A => w.a
  | .B => w.b

def update (w : Network) (x : Side) (e : Endpoint) : Network :=
  match x with
  | .A => { w with a := e }
  | .B => { w with b := e }

@[simp] theorem endpoint_update (w : Network) (x : Side) (e : Endpoint) :
    (w.update x e).endpoint x = e := by cases x <;> rfl

@[simp] theorem endpoint_update_peer (w : Network) (x : Side) (e : Endpoint) :
    (w.update x e).endpoint x.peer = w.endpoint x.peer := by cases x <;> rfl

/-- A call of one of the owners, or a delivery. -/
def step (w : Network) : Side × Call → Except Exception Network
  | (x, call) => ((w.endpoint x).step call).map (w.update x)

def Start (w : Network) : Prop :=
  ∃ cfg random cfg' random', w = ⟨{ conn := .new cfg random }, { conn := .new cfg' random' }⟩

/-- No write after the end of the input; what is delivered has been sent; and the network forgets
nothing. -/
def allowed (w : Network) : Side × Call → Prop
  | (x, .write _) => (w.endpoint x).conn.sender.stream.inputEnded = false
  | (x, .segmentReceived seg) => seg ∈ (w.endpoint x.peer).conn.segmentsOut
  | (_, .pop) => False
  | _ => True

/-- A bare SYN that reaches a receiver which has the ISN already comes before the first byte. -/
def freshSyn (w : Network) : Side × Call → Prop
  | (x, .segmentReceived seg) => (w.endpoint x).conn.active = true → (w.endpoint x).conn.ignored seg = false →
      seg.header.syn = true → seg.payload = [] → (w.endpoint x).conn.receiver.isn.isSome = true →
      (w.endpoint x).conn.inboundStream.bytesWritten = 0
  | _ => True

instance (w : Network) (call : Side × Call) : Decidable (w.allowed call) := by
  unfold allowed
  split <;> infer_instance

instance (w : Network) (call : Side × Call) : Decidable (w.freshSyn call) := by
  unfold freshSyn
  split <;> infer_instance

/-- The payload bytes that a sender regards as acknowledged: all it has taken from its stream but those
still queued for retransmission. -/
def ackedPayload (s : TCPSender) : Nat := s.stream.bytesRead - (payloads s.queued).length

end Network

/-! ## The receiving endpoint -/

/-- Nothing has been heard yet. -/
structure Unheard (e : Endpoint) : Prop where
  isn : e.conn.receiver.isn = none
  consumed : e.consumed = []
  reassembler : ∃ capacity error, e.conn.receiver.reassembler
      = { output := { capacity := capacity, error := error }, capacity := capacity } ∧
    (error = true → e.conn.isRst = true)

/-- What `b` has heard, if anything, is what the sender `s` has sent. -/
def Listens (s : TCPSender) (accepted : Bytes) (created : List TCPSegment) (b : Endpoint) : Prop :=
  Unheard b ∨ Heard s.isn accepted created b.conn.receiver b.consumed

variable {a a' b b' : Endpoint} {created created' : List TCPSegment} {call : Call} {s : TCPSender}
  {accepted : Bytes}

theorem Unheard.new (cfg : TCPConfig) (random : WrappingInt32) :
    Unheard { conn := TCPConnection.new cfg random } :=
  ⟨rfl, rfl, cfg.recvCapacity, false, rfl, by simp⟩

theorem Unheard.received (h : Unheard b) : b.received = [] ∧ b.conn.inboundStream.bytesWritten = 0 ∧
    b.conn.inboundStream.inputEnded = false := by
  obtain ⟨capacity, error, hre, -⟩ := h.reassembler
  have hout : b.conn.inboundStream = { capacity := capacity, error := error } :=
    congrArg StreamReassembler.output hre
  rw [Endpoint.received, h.consumed, hout]
  exact ⟨rfl, rfl, rfl⟩

/-- The sender goes on. -/
theorem Listens.mono {s' : TCPSender} {accepted' : Bytes} (h : Listens s accepted created b)
    (hw : Wired s accepted created) (hw' : Wired s' accepted' created') (hisn : s'.isn = s.isn)
    (hpre : created <+: created') (hacc : accepted <+: accepted') : Listens s' accepted' created' b := by
  refine h.imp_right fun hheard => ?_
  rw [hisn]
  exact hheard.mono hw hw' hpre hacc

/-- A call that does not touch the receiver. -/
theorem Listens.same (h : Listens s accepted created b) (hrec : b'.conn.receiver = b.conn.receiver)
    (hcons : b'.consumed = b.consumed) (hrst : b.conn.isRst = true → b'.conn.isRst = true) :
    Listens s accepted created b' := by
  unfold Listens
  rw [hrec, hcons]
  refine h.imp_left fun hun => ⟨hrec ▸ hun.isn, hcons ▸ hun.consumed, ?_⟩
  obtain ⟨capacity, error, hre, herr⟩ := hun.reassembler
  exact ⟨capacity, error, hrec ▸ hre, fun he => hrst (herr he)⟩

/-- A reset, given or taken. -/
theorem Listens.setRst (h : Listens s accepted created b) {c : TCPConnection}
    (hrec : c.receiver = b.conn.receiver) : Listens s accepted created { b with conn := c.setRst } := by
  rcases h with hun | hheard
  · obtain ⟨capacity, error, hre, herr⟩ := hun.reassembler
    refine Or.inl ⟨?_, hun.consumed, capacity, true, ?_, fun _ => rfl⟩
    · show c.receiver.isn = none
      rw [hrec, hun.isn]
    · show { c.receiver.reassembler with output := c.receiver.reassembler.output.setError } = _
      rw [hrec, hre]
      rfl
  · refine Or.inr ⟨?_, hheard.sent, ?_⟩
    · show c.receiver.isn = _
      rw [hrec, hheard.isn]
    · show Honest _ _ _ _ { c.receiver.reassembler with
        output := c.receiver.reassembler.output.setError }
      rw [hrec]
      exact hheard.honest.setError

theorem Listens.read (h : Listens s accepted created b) (len : Nat) :
    Listens s accepted created { b with
      conn := b.conn.readInbound len
      consumed := b.consumed ++ b.conn.inboundStream.removed len } := by
  rcases h with hun | hheard
  · obtain ⟨capacity, error, hre, herr⟩ := hun.reassembler
    have hout : b.conn.inboundStream = { capacity := capacity, error := error } :=
      congrArg StreamReassembler.output hre
    obtain ⟨htaken, hsame⟩ := ByteStream.read_of_nil (s := b.conn.inboundStream) (by rw [hout]) len
    refine Or.inl ⟨hun.isn, ?_, capacity, error, ?_, herr⟩
    · show b.consumed ++ _ = []
      rw [hun.consumed, htaken, List.append_nil]
    · show { b.conn.receiver.reassembler with output := (b.conn.inboundStream.read len).1 } = _
      rw [hsame]
      exact hre
  · refine Or.inr ⟨hheard.isn, hheard.sent, ?_⟩
    exact hheard.honest.read len

/-- The receiver takes a segment of the sender. -/
theorem Listens.receiver (h : Listens s accepted created b) (hw : Wired s accepted created)
    (hlen : accepted.length < 2 ^ 31) (hact : b.conn.active = true) {seg : TCPSegment}
    (hwire : OnWire created seg)
    (hfresh : seg.header.syn = true → seg.payload = [] → b.conn.receiver.isn.isSome = true →
      b.conn.inboundStream.bytesWritten = 0) :
    ∃ r, b.conn.receiver.segmentReceived seg = .ok r ∧
      ∀ c : TCPConnection, c.receiver = r → Listens s accepted created { b with conn := c } := by
  rcases h with hun | hheard
  · obtain ⟨capacity, error, hre, herr⟩ := hun.reassembler
    have hnot : b.conn.isRst = false := by
      by_contra hcon
      rw [TCPConnection.active, if_pos (eq_true_of_ne_false hcon)] at hact
      exact absurd hact (by decide)
    obtain rfl : error = false := by
      by_contra hcon
      rw [herr (eq_true_of_ne_false hcon)] at hnot
      exact absurd hnot (by decide)
    obtain ⟨r, hr, hcase⟩ := heard_first hw hun.isn
      (hre : b.conn.receiver.reassembler = StreamReassembler.new capacity) hwire
    refine ⟨r, hr, ?_⟩
    rintro c rfl
    rcases hcase with heq | hheard
    · exact Or.inl ⟨heq ▸ hun.isn, hun.consumed, capacity, false, heq ▸ hre, by simp⟩
    · refine Or.inr ?_
      show Heard _ _ _ c.receiver b.consumed
      rw [hun.consumed]
      exact hheard
  · obtain ⟨r, hr, hheard'⟩ := hheard.segment hw hlen hwire
      (fun hsyn hnil => hfresh hsyn hnil (by simp [hheard.isn]))
    refine ⟨r, hr, ?_⟩
    rintro c rfl
    exact Or.inr hheard'

/-- **A delivery.** -/
theorem Listens.segmentReceived (h : Listens s accepted created b) (hw : Wired s accepted created)
    (hlen : accepted.length < 2 ^ 31) {seg : TCPSegment} (hseg : seg.header.rst = true ∨ OnWire created seg)
    (hfresh : b.conn.active = true → b.conn.ignored seg = false → seg.header.syn = true → seg.payload = [] →
      b.conn.receiver.isn.isSome = true → b.conn.inboundStream.bytesWritten = 0)
    {c : TCPConnection} (hs : b.conn.segmentReceived seg = .ok c) :
    Listens s accepted created { b with conn := c } := by
  rcases b.conn.segmentReceived_cases seg with ⟨-, heq⟩ | ⟨-, -, heq⟩ | ⟨hrst, hact, hign, heq⟩
  · obtain rfl := Except.ok.inj (heq.symm.trans hs)
    exact h.setRst rfl
  · obtain rfl := Except.ok.inj (heq.symm.trans hs)
    exact h.same rfl rfl id
  · obtain ⟨r, hr, hans⟩ := bind_ok.mp (heq.symm.trans hs)
    obtain ⟨s', -, rfl⟩ := TCPConnection.answer_ok hans
    obtain ⟨r', hr', hlistens⟩ := h.receiver hw hlen hact (hseg.resolve_left (by rw [hrst]; simp))
      (hfresh hact hign)
    obtain rfl : r' = r := Except.ok.inj (hr'.symm.trans hr)
    generalize b.conn.acked seg = s₁
    exact hlistens _ rfl

/-- **One call of the receiving endpoint.** -/
theorem Listens.step (h : Listens s accepted created b) (hw : Wired s accepted created)
    (hlen : accepted.length < 2 ^ 31)
    (hseg : ∀ seg, call = .segmentReceived seg → seg.header.rst = true ∨ OnWire created seg)
    (hfresh : ∀ seg, call = .segmentReceived seg → b.conn.active = true → b.conn.ignored seg = false →
      seg.header.syn = true → seg.payload = [] → b.conn.receiver.isn.isSome = true →
      b.conn.inboundStream.bytesWritten = 0)
    (hs : b.step call = .ok b') : Listens s accepted created b' := by
  cases call with
  | connect =>
    obtain ⟨c, hc, rfl⟩ := map_ok.mp hs
    obtain ⟨s, -, rfl⟩ := map_ok.mp hc
    exact h.same rfl rfl id
  | write data =>
    obtain ⟨⟨n, c⟩, hc, rfl⟩ := map_ok.mp hs
    obtain ⟨s, -, heq⟩ := map_ok.mp hc
    obtain ⟨rfl, rfl⟩ := Prod.mk.inj heq
    exact h.same rfl rfl id
  | endInputStream =>
    obtain ⟨c, hc, rfl⟩ := map_ok.mp hs
    obtain ⟨s, -, rfl⟩ := map_ok.mp hc
    exact h.same rfl rfl id
  | segmentReceived seg =>
    obtain ⟨c, hc, rfl⟩ := map_ok.mp hs
    exact h.segmentReceived hw hlen (hseg seg rfl) (hfresh seg rfl) hc
  | tick ms =>
    obtain rfl := Except.ok.inj hs
    rw [TCPConnection.tick]
    split
    · exact h.setRst rfl
    · exact h.same rfl rfl id
  | readInbound len =>
    obtain rfl := Except.ok.inj hs
    exact h.read len
  | pop =>
    obtain rfl := Except.ok.inj hs
    exact h.same rfl rfl id

/-! ## One direction -/

/-- One direction of the connection, from `a` to `b`. -/
structure Carries (a : Endpoint) (created : List TCPSegment) (b : Endpoint) : Prop where
  speaks : Speaks a created
  listens : Listens a.conn.sender a.accepted created b
  reached : unacked a.conn.sender ≤ b.conn.receiver.acknowledged

/-- The position that the receiver acknowledges is within the stream, its SYN and its FIN. -/
theorem Heard.acknowledged_le {isn : WrappingInt32} {consumed : Bytes} {r : TCPReceiver}
    (h : Heard isn accepted created r consumed) : r.acknowledged ≤ accepted.length + 2 := by
  have hle := h.written.2
  rw [TCPReceiver.acknowledged, if_pos (by simp [h.isn])]
  split <;> omega

/-- An acknowledgment from the peer is of something that has been sent, and means what it says. -/
theorem Carries.acknowledgment (h : Carries a created b) (hb : Speaks b created')
    (hlen : a.accepted.length < 2 ^ 31) {seg : TCPSegment} (hseg : seg ∈ b.conn.segmentsOut)
    (hack : seg.header.ack = true) :
    created ≠ [] ∧
    (unwrap seg.header.ackno a.conn.sender.isn a.conn.sender.nextSeqno ≤ a.conn.sender.nextSeqno →
      unwrap seg.header.ackno a.conn.sender.isn a.conn.sender.nextSeqno ≤ b.conn.receiver.acknowledged) := by
  obtain ⟨isn, v, hisn, -, hv, heq⟩ := hb.stamped seg hseg hack
  rcases h.listens with hun | hheard
  · rw [hun.isn] at hisn
    exact absurd hisn (by simp)
  · obtain rfl : isn = a.conn.sender.isn := by
      rw [hheard.isn] at hisn
      exact (Option.some.inj hisn).symm
    have hmax := hheard.acknowledged_le
    have hnext := h.speaks.wired.next_le
    refine ⟨hheard.sent, fun hle => ?_⟩
    rw [heq] at hle ⊢
    rw [unwrap_of_le (by omega) (by omega) hle]
    exact hv

/-- **A call of the sending endpoint.** -/
theorem Carries.send (h : Carries a created b) (hb : Speaks b created')
    (hlen : a.accepted.length < 2 ^ 31)
    (hopen : ∀ data, call = .write data → a.conn.sender.stream.isInputEnd = false)
    (hseg : ∀ seg, call = .segmentReceived seg → seg ∈ b.conn.segmentsOut) (hpop : call ≠ .pop)
    (hs : a.step call = .ok a') : ∃ created', Spoke a created call a' created' ∧ Carries a' created' b := by
  have hnext := h.speaks.wired.next_le
  obtain ⟨after, hspoke⟩ := h.speaks.step (by omega) hopen
    (fun seg hcall hack => (h.acknowledgment hb hlen (hseg seg hcall) hack).1) hpop hs
  refine ⟨after, hspoke, hspoke.speaks, h.listens.mono h.speaks.wired hspoke.speaks.wired hspoke.isn
    hspoke.creates hspoke.accepts, ?_⟩
  have hreached := h.reached
  rcases hspoke.moved with heq | ⟨seg, hcall, -, heq | ⟨hack, hle, hmoved⟩⟩
  · rw [heq]
    exact hreached
  · rw [heq]
    exact hreached
  · exact Nat.le_trans hmoved ((h.acknowledgment hb hlen (hseg seg hcall) hack).2 hle)

/-- **A call of the receiving endpoint.** -/
theorem Carries.receive (h : Carries a created b) (hlen : a.accepted.length < 2 ^ 31)
    (hseg : ∀ seg, call = .segmentReceived seg → seg ∈ a.conn.segmentsOut)
    (hfresh : ∀ seg, call = .segmentReceived seg → b.conn.active = true → b.conn.ignored seg = false →
      seg.header.syn = true → seg.payload = [] → b.conn.receiver.isn.isSome = true →
      b.conn.inboundStream.bytesWritten = 0)
    (hlater : b.conn.receiver.Later b'.conn.receiver) (hs : b.step call = .ok b') : Carries a created b' :=
  ⟨h.speaks,
    h.listens.step h.speaks.wired hlen (fun seg hcall => h.speaks.out seg (hseg seg hcall)) hfresh hs,
    Nat.le_trans h.reached hlater.acknowledged_le⟩

/-! ## What one direction guarantees -/

theorem Carries.delivered (h : Carries a created b) : b.received <+: a.accepted := by
  rcases h.listens with hun | hheard
  · rw [hun.received.1]
    exact List.nil_prefix
  · exact hheard.written.1

/-- The stream ends where the sender ended it. -/
theorem Carries.ended (h : Carries a created b) (hend : b.conn.inboundStream.inputEnded = true) :
    a.conn.sender.stream.inputEnded = true ∧ b.received = a.accepted := by
  rcases h.listens with hun | hheard
  · rw [hun.received.2.2] at hend
    exact absurd hend (by decide)
  · have hfin := hheard.honest.ended hend
    have htop := hheard.honest.ordered.top
    have hcount := hheard.honest.written_length
    rw [finIndex] at hfin
    split at hfin
    · rename_i hlast
      have hbase : wireBase (gapOf created) ≤ 1 := by
        rw [wireBase]
        split <;> omega
      have hle := h.delivered.length_le
      have hreceived : b.received.length = b.conn.receiver.reassembler.output.bytesWirtten := hcount
      have hidx := Option.some.inj hfin
      exact ⟨ByteStream.inputEnded_of_eof (h.speaks.wired.finDone hlast),
        h.delivered.eq_of_length (by omega)⟩
    · exact absurd hfin (by simp)

theorem ackedPayload_eq (hw : Wired s accepted created) :
    Network.ackedPayload s = (payloads (created.take (SenderRun.departed s created))).length := by
  have hsplit : payloads created = payloads (created.take (SenderRun.departed s created))
      ++ payloads (created.drop (SenderRun.departed s created)) := by
    rw [← payloads_append, List.take_append_drop]
  rw [Network.ackedPayload, hw.read, hw.toKept.queued_eq, hsplit, List.length_append, Nat.add_sub_cancel]

/-- No payload byte is taken for acknowledged before it has been written at the other end. -/
theorem Carries.acked (h : Carries a created b) :
    Network.ackedPayload a.conn.sender ≤ b.conn.inboundStream.bytesWritten := by
  have hw := h.speaks.wired
  have hacked := ackedPayload_eq hw
  have hreached := h.reached
  rw [hw.toKept.unacked_eq, space_eq_counts] at hreached
  by_cases hz : SenderRun.departed a.conn.sender created = 0 ∨ created = []
  · have hnone : payloads (created.take (SenderRun.departed a.conn.sender created)) = [] := by
      rcases hz with hz | hz
      · rw [hz]
        rfl
      · rw [hz, List.take_nil]
        rfl
    rw [hacked, hnone]
    exact Nat.zero_le _
  · -- the SYN is among the acknowledged segments
    rw [not_or] at hz
    rw [hw.countP_syn hw.lone (Nat.pos_of_ne_zero hz.1) hz.2] at hreached
    unfold TCPReceiver.acknowledged at hreached
    split at hreached
    · by_cases hend : b.conn.inboundStream.inputEnded = true
      · -- all of the stream has been written
        have hall := (h.ended hend).2
        have hcount : b.received.length = b.conn.inboundStream.bytesWritten := by
          rcases h.listens with hun | hheard
          · rw [hun.received.1, hun.received.2.1]
            rfl
          · exact hheard.honest.written_length
        have hsent := hw.payload_length
        have hmono : (payloads (created.take (SenderRun.departed a.conn.sender created))).length
            ≤ (payloads created).length := by
          refine List.IsPrefix.length_le (List.IsPrefix.flatMap ?_ _)
          exact List.take_prefix _ created
        rw [hacked, ← hcount, hall]
        omega
      · have hopen : b.conn.receiver.streamOut.inputEnded = false := eq_false_of_ne_true hend
        rw [hopen, if_neg (by decide)] at hreached
        have hstream : b.conn.inboundStream = b.conn.receiver.streamOut := rfl
        rw [hacked, hstream]
        omega
    · omega

/-! ## Both directions -/

namespace Network

/-- Each stream is short enough for the sequence numbers. -/
def Short (w : Network) : Prop := ∀ x, (w.endpoint x).accepted.length < 2 ^ 31

theorem short_iff {w : Network} :
    w.Short ↔ w.a.accepted.length < 2 ^ 31 ∧ w.b.accepted.length < 2 ^ 31 := by
  refine ⟨fun h => ⟨h .A, h .B⟩, fun h => ?_⟩
  rintro (_ | _)
  · exact h.1
  · exact h.2

instance (w : Network) : Decidable w.Short := decidable_of_iff _ short_iff.symm

def Inv (w : Network) : Prop :=
  ∀ x, ∃ created, Carries (w.endpoint x) created (w.endpoint x.peer)

theorem Start.inv {w : Network} (h : Start w) : w.Inv := by
  obtain ⟨cfg, random, cfg', random', rfl⟩ := h
  rintro (_ | _)
  · exact ⟨[], Speaks.new cfg random, Or.inl (Unheard.new cfg' random'), Nat.zero_le _⟩
  · exact ⟨[], Speaks.new cfg' random', Or.inl (Unheard.new cfg random), Nat.zero_le _⟩

/-- **One step keeps both directions.**  The endpoint that is called sends in one of them and receives in
the other. -/
theorem Inv.step {w : Network} (h : w.Inv) (hshort : w.Short) {x : Side} {e : Endpoint}
    (hok : w.allowed (x, call)) (hfresh : w.freshSyn (x, call)) (hs : (w.endpoint x).step call = .ok e) :
    (w.update x e).Inv := by
  obtain ⟨created, hsend⟩ := h x
  obtain ⟨created', hrecv⟩ := h x.peer
  rw [Side.peer_peer] at hrecv
  have hopen : ∀ data, call = .write data → (w.endpoint x).conn.sender.stream.isInputEnd = false := by
    rintro data rfl
    exact hok
  have hseg : ∀ seg, call = .segmentReceived seg → seg ∈ (w.endpoint x.peer).conn.segmentsOut := by
    rintro seg rfl
    exact hok
  have hsyn : ∀ seg, call = .segmentReceived seg → (w.endpoint x).conn.active = true →
      (w.endpoint x).conn.ignored seg = false → seg.header.syn = true → seg.payload = [] →
      (w.endpoint x).conn.receiver.isn.isSome = true →
      (w.endpoint x).conn.inboundStream.bytesWritten = 0 := by
    rintro seg rfl
    exact hfresh
  have hpop : call ≠ .pop := by
    rintro rfl
    exact hok
  obtain ⟨after, hspoke, hsend'⟩ := hsend.send hrecv.speaks (hshort x) hopen hseg hpop hs
  have hrecv' := hrecv.receive (hshort x.peer) hseg hsyn hspoke.later hs
  intro y
  rcases x.eq_or_peer y with rfl | rfl
  · rw [endpoint_update, endpoint_update_peer]
    exact ⟨after, hsend'⟩
  · rw [Side.peer_peer, endpoint_update, endpoint_update_peer]
    exact ⟨created', hrecv'⟩

/-- Streams only grow, so a short one was short before. -/
theorem Short.before {w : Network} {x : Side} {e : Endpoint} (hs : (w.endpoint x).step call = .ok e)
    (h : (w.update x e).Short) : w.Short := by
  have hgrow : (w.endpoint x).accepted.length ≤ e.accepted.length := by
    cases call with
    | write data =>
      obtain ⟨⟨n, c⟩, -, rfl⟩ := map_ok.mp hs
      simp
    | readInbound len =>
      obtain rfl := Except.ok.inj hs
      exact Nat.le_refl _
    | connect | endInputStream | segmentReceived =>
      obtain ⟨c, -, rfl⟩ := map_ok.mp hs
      exact Nat.le_refl _
    | tick | pop =>
      obtain rfl := Except.ok.inj hs
      exact Nat.le_refl _
  intro y
  have hy := h y
  rcases x.eq_or_peer y with rfl | rfl
  · rw [endpoint_update] at hy
    exact Nat.lt_of_le_of_lt hgrow hy
  · rwa [endpoint_update_peer] at hy

theorem inv_of_reach {w : Network} (hr : Reach Start step (fun w call => w.allowed call ∧ w.freshSyn call) w)
    (hshort : w.Short) : w.Inv := by
  refine Reach.invariant (P := fun w : Network => w.Short → w.Inv) (fun _ hstart _ => hstart.inv) ?_ hr hshort
  rintro w ⟨x, call⟩ w' ih ⟨hok, hfresh⟩ hs hshort
  obtain ⟨e, he, rfl⟩ := map_ok.mp hs
  have hbefore := hshort.before he
  exact (ih hbefore).step hbefore hok hfresh he

/-- **End-to-end stream safety**, in both directions.  The bytes ever written into an inbound stream are a
prefix of the bytes the peer accepted; it ends only if the peer ended its input and every byte has arrived;
and no sender takes more payload for acknowledged than its peer has written. -/
theorem stream_safety {w : Network}
    (hr : Reach Start step (fun w call => w.allowed call ∧ w.freshSyn call) w) (hshort : w.Short) (x : Side) :
    (w.endpoint x.peer).received <+: (w.endpoint x).accepted ∧
    ((w.endpoint x.peer).conn.inboundStream.inputEnded = true →
      (w.endpoint x).conn.sender.stream.inputEnded = true ∧
      (w.endpoint x.peer).received = (w.endpoint x).accepted) ∧
    ackedPayload (w.endpoint x).conn.sender ≤ (w.endpoint x.peer).conn.inboundStream.bytesWritten := by
  obtain ⟨created, hc⟩ := inv_of_reach hr hshort x
  exact ⟨hc.delivered, hc.ended, hc.acked⟩

/-! ## A run, and the run that repeats bytes -/

/-- Two new connections with room for eight bytes. -/
def small : Network :=
  ⟨{ conn := .new { recvCapacity := 8, sendCapacity := 8, fixedIsn := some ⟨7⟩ } ⟨0⟩ },
    { conn := .new { recvCapacity := 8, sendCapacity := 8, fixedIsn := some ⟨4294967295⟩ } ⟨0⟩ }⟩

/-- The first SYN of `A`, the answer of `B`, and the segment with which `A` sends `data`. -/
def opening (data : Bytes) : TCPSegment × TCPSegment × TCPSegment :=
  ({ header := { seqno := ⟨7⟩, syn := true, win := 8 } },
    { header := { seqno := ⟨4294967295⟩, ackno := ⟨8⟩, syn := true, ack := true, win := 8 } },
    { header := { seqno := ⟨8⟩, ackno := ⟨0⟩, ack := true, win := 8 }, payload := data })

/-- A handshake, two bytes, one of them read, and the FIN, all acknowledged. -/
theorem stream_safety_two : ∃ w : Network,
    Reach Start step (fun w call => w.allowed call ∧ w.freshSyn call) w ∧ w.Short ∧
    w.a.accepted = [97, 98] ∧ w.b.conn.inboundStream.inputEnded = true ∧ ackedPayload w.a.conn.sender = 2 ∧
    w.b.received <+: w.a.accepted := by
  obtain ⟨w, hr, htest⟩ : ∃ w, Reach Start step (fun w call => w.allowed call ∧ w.freshSyn call) w ∧
      (decide w.Short && decide (w.a.accepted = [97, 98]) && w.b.conn.inboundStream.inputEnded
        && decide (ackedPayload w.a.conn.sender = 2)) = true :=
    Reach.exec_any _ (s := small)
      (l := [(.A, .connect), (.B, .segmentReceived (opening [97, 98]).1),
        (.A, .segmentReceived (opening [97, 98]).2.1), (.A, .write [97, 98]),
        (.B, .segmentReceived (opening [97, 98]).2.2), (.B, .readInbound 1), (.A, .endInputStream),
        (.B, .segmentReceived { header :=
          { seqno := ⟨10⟩, ackno := ⟨0⟩, ack := true, fin := true, win := 8 } }),
        (.A, .segmentReceived { header := { seqno := ⟨0⟩, ackno := ⟨11⟩, ack := true, win := 7 } })])
      (.start ⟨_, _, _, _, rfl⟩) (by decide +kernel)
  simp only [Bool.and_eq_true, decide_eq_true_eq] at htest
  obtain ⟨⟨⟨hshort, ha⟩, hend⟩, hacked⟩ := htest
  exact ⟨w, hr, hshort, ha, hend, hacked, (stream_safety hr hshort .A).1⟩

/-- **A bare SYN that is delivered again after the first byte** moves the reassembler back, and the byte
that is delivered again is written again. -/
theorem repeated_syn_repeats_bytes : ∃ w : Network, Reach Start step allowed w ∧ w.Short ∧
    w.a.accepted = [97] ∧ w.b.received = [97, 97] ∧ ¬ w.b.received <+: w.a.accepted := by
  obtain ⟨w, hr, htest⟩ : ∃ w, Reach Start step allowed w ∧
      (decide w.Short && decide (w.a.accepted = [97]) && decide (w.b.received = [97, 97])) = true :=
    Reach.exec_any _ (s := small)
      (l := [(.A, .connect), (.B, .segmentReceived (opening [97]).1),
        (.A, .segmentReceived (opening [97]).2.1), (.A, .write [97]),
        (.B, .segmentReceived (opening [97]).2.2), (.B, .segmentReceived (opening [97]).1),
        (.B, .segmentReceived (opening [97]).2.2)])
      (.start ⟨_, _, _, _, rfl⟩) (by decide +kernel)
  simp only [Bool.and_eq_true, decide_eq_true_eq] at htest
  obtain ⟨⟨hshort, ha⟩, hreceived⟩ := htest
  refine ⟨w, hr, hshort, ha, hreceived, ?_⟩
  rw [ha, hreceived]
  decide

end Network

end Sponge
