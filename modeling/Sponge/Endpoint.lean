/-
# `Sponge.Endpoint` — one side of a connection, as its peer can rely on it.

An endpoint is a connection together with what its owner has seen of it: the bytes that `write` accepted
and the bytes read from the inbound stream.  `Speaks` is what an endpoint keeps by itself, whatever calls
it gets: its sender is `Wired`, all it has ever put into `segments_out()` is a reset or comes from that
sender, and every acknowledgment it has sent is one that its receiver stands by (`Stamped`).

`Speaks.step` is the step lemma.  It needs two things of the calls: no write after the end of the input,
and no acknowledgment before the first segment has been sent.
-/
import Sponge.TcpConnection
import Sponge.ReceiverWire

namespace Sponge

open Sponge.Lib
open SenderRun (Wired Current unacked newSegments)

/-! ## The endpoint -/

structure Endpoint where
  conn : TCPConnection
  /-- The bytes that `write` accepted. -/
  accepted : Bytes := []
  /-- The bytes read from `inbound_stream()`. -/
  consumed : Bytes := []
  deriving DecidableEq, Repr

namespace Endpoint

open TCPConnection (Call)

def step (e : Endpoint) : Call → Except Exception Endpoint
  | .write data => (e.conn.write data).map fun (accepted, conn) =>
      { e with conn := conn, accepted := e.accepted ++ data.take accepted }
  | .readInbound len => .ok { e with
      conn := e.conn.readInbound len
      consumed := e.consumed ++ e.conn.inboundStream.removed len }
  | call => (e.conn.step call).map fun conn => { e with conn := conn }

/-- The bytes ever written into the inbound stream: those read and those still unread. -/
def received (e : Endpoint) : Bytes := e.consumed ++ e.conn.inboundStream.contents

end Endpoint

/-! ## What a receiver stands by -/

namespace TCPReceiver

/-- An acknowledgment in `seg` is one that the receiver has reached. -/
def Stamped (r : TCPReceiver) (seg : TCPSegment) : Prop :=
  seg.header.ack = true →
    ∃ isn v, r.isn = some isn ∧ 1 ≤ v ∧ v ≤ r.acknowledged ∧ seg.header.ackno = wrap v isn

theorem Stamped.later {r r' : TCPReceiver} {seg : TCPSegment} (h : Stamped r seg) (hl : Later r r') :
    Stamped r' seg := by
  intro hack
  obtain ⟨isn, v, hisn, h1, hv, heq⟩ := h hack
  exact ⟨isn, v, (hl.isn (by simp [hisn])).trans hisn, h1, Nat.le_trans hv hl.acknowledged_le, heq⟩

/-- What the connection stamps is what the receiver has reached. -/
theorem Stamped.stampAck (c : TCPConnection) {seg : TCPSegment} (hplain : seg.header.ack = false) :
    Stamped c.receiver (c.stampAck seg) := by
  intro hack
  cases hisn : c.receiver.isn with
  | none =>
    have hnone : c.receiver.ackno = none := by rw [ackno, hisn, Option.map_none]
    rw [TCPConnection.stampAck, hnone] at hack
    exact absurd (hplain.symm.trans hack) (by decide)
  | some isn =>
    obtain ⟨hsome, hone⟩ := ackno_acknowledged hisn
    refine ⟨isn, c.receiver.acknowledged, rfl, hone, Nat.le_refl _, ?_⟩
    rw [TCPConnection.stampAck, hsome]

end TCPReceiver

/-! ## What an endpoint keeps -/

theorem Copies.stampAck (c : TCPConnection) (seg : TCPSegment) : Copies (c.stampAck seg) seg := by
  unfold TCPConnection.stampAck
  cases c.receiver.ackno with
  | none => exact ⟨rfl, rfl, rfl, rfl⟩
  | some ackno => exact ⟨rfl, rfl, rfl, rfl⟩

theorem Blank.stampAck (c : TCPConnection) {seg : TCPSegment} (h : Blank seg) : Blank (c.stampAck seg) := by
  unfold TCPConnection.stampAck
  cases c.receiver.ackno with
  | none => exact ⟨h.rst, h.syn, h.fin, h.payload⟩
  | some ackno => exact ⟨h.rst, h.syn, h.fin, h.payload⟩

theorem OnWire.mono {created created' : List TCPSegment} {seg : TCPSegment} (h : OnWire created seg)
    (hpre : created <+: created') : OnWire created' seg := by
  rcases h with ⟨k, g, hg, hcopy⟩ | hblank
  · obtain ⟨more, rfl⟩ := hpre
    refine Or.inl ⟨k, g, ?_, hcopy⟩
    rw [List.getElem?_append_left (List.getElem?_eq_some_iff.mp hg).1, hg]
  · exact Or.inr hblank

/-- A segment that an endpoint sends when its sender has created `created`: a reset, a copy of one of these,
of the first only while it is alone, or a blank one at the next position. -/
def Fresh (isn : WrappingInt32) (created : List TCPSegment) (seg : TCPSegment) : Prop :=
  (seg.header.rst = true ∧ seg.header.syn = false) ∨
  (∃ (k : Nat) (g : TCPSegment), created[k]? = some g ∧ Copies seg g ∧ (k = 0 → created.length = 1)) ∨
  (Blank seg ∧ seg.header.seqno = wrap (TCPSender.space created) isn)

theorem Fresh.onWire {isn : WrappingInt32} {created : List TCPSegment} {seg : TCPSegment}
    (h : Fresh isn created seg) : seg.header.rst = true ∨ OnWire created seg := by
  rcases h with ⟨hrst, -⟩ | ⟨k, g, hg, hcopy, -⟩ | ⟨hblank, -⟩
  · exact Or.inl hrst
  · exact Or.inr (Or.inl ⟨k, g, hg, hcopy⟩)
  · exact Or.inr (Or.inr hblank)

theorem Fresh.stampAck (c : TCPConnection) {isn : WrappingInt32} {created : List TCPSegment}
    {seg : TCPSegment} (h : Current isn created seg) : Fresh isn created (c.stampAck seg) := by
  have hcopy := Copies.stampAck c seg
  rcases h with ⟨k, hk, halone⟩ | ⟨hblank, hseq⟩
  · exact Or.inr (Or.inl ⟨k, seg, hk, hcopy, halone⟩)
  · exact Or.inr (Or.inr ⟨hblank.stampAck c, hcopy.seqno.trans hseq⟩)

/-- What an endpoint keeps by itself. -/
structure Speaks (e : Endpoint) (created : List TCPSegment) : Prop where
  wired : Wired e.conn.sender e.accepted created
  drained : e.conn.sender.segmentsOut = []
  out : ∀ seg ∈ e.conn.segmentsOut, seg.header.rst = true ∨ OnWire created seg
  stamped : ∀ seg ∈ e.conn.segmentsOut, e.conn.receiver.Stamped seg

variable {e e' : Endpoint} {created created' : List TCPSegment} {s : TCPSender} {accepted : Bytes}

theorem Speaks.new (cfg : TCPConfig) (random : WrappingInt32) :
    Speaks { conn := TCPConnection.new cfg random } [] :=
  ⟨Wired.new _ _ _ _, rfl, by simp [TCPConnection.new], by simp [TCPConnection.new]⟩

/-- The sender has queued something, and the connection stamps it and sends it off. -/
theorem Speaks.emit (h : Speaks e created) {c : TCPConnection} (hw : Wired c.sender accepted created')
    (hpre : created <+: created') (hout : c.segmentsOut = e.conn.segmentsOut)
    (hlater : e.conn.receiver.Later c.receiver) (consumed : Bytes) :
    Speaks ⟨c.sendAckIfNeed, accepted, consumed⟩ created' := by
  refine ⟨hw.drained, rfl, fun seg hseg => ?_, fun seg hseg => ?_⟩
  · rcases List.mem_append.mp hseg with hseg | hseg
    · rw [hout] at hseg
      exact (h.out seg hseg).imp_right (·.mono hpre)
    · obtain ⟨g, hg, rfl⟩ := List.mem_map.mp hseg
      rcases hw.out g hg with hmem | ⟨hblank, -⟩
      · obtain ⟨k, hk⟩ := List.mem_iff_getElem?.mp hmem
        exact Or.inr (Or.inl ⟨k, g, hk, Copies.stampAck _ g⟩)
      · exact Or.inr (Or.inr (hblank.stampAck _))
  · rcases List.mem_append.mp hseg with hseg | hseg
    · rw [hout] at hseg
      exact (h.stamped seg hseg).later hlater
    · obtain ⟨g, hg, rfl⟩ := List.mem_map.mp hseg
      exact TCPReceiver.Stamped.stampAck _ (hw.unstamped hg)

/-- `c` has sent what `e` had, and then segments that are fresh. -/
def Sends (e : Endpoint) (created : List TCPSegment) (c : TCPConnection) : Prop :=
  ∃ new, c.segmentsOut = e.conn.segmentsOut ++ new ∧ ∀ seg ∈ new, Fresh e.conn.sender.isn created seg

theorem Sends.nothing {c : TCPConnection} (h : c.segmentsOut = e.conn.segmentsOut) : Sends e created c :=
  ⟨[], by rw [h, List.append_nil], by simp⟩

theorem Sends.emit {c : TCPConnection} (hout : c.segmentsOut = e.conn.segmentsOut)
    (hcur : ∀ seg ∈ c.sender.segmentsOut, Current e.conn.sender.isn created seg) :
    Sends e created c.sendAckIfNeed := by
  refine ⟨c.sender.segmentsOut.map c.stampAck, congrArg (· ++ _) hout, fun seg hseg => ?_⟩
  obtain ⟨g, hg, rfl⟩ := List.mem_map.mp hseg
  exact Fresh.stampAck c (hcur g hg)

/-! ## The sender's position -/

/-- Neither the ISN nor the acknowledged position has moved. -/
def Steady (s s' : TCPSender) : Prop := s'.isn = s.isn ∧ unacked s' = unacked s

theorem Steady.fillWindow {s' : TCPSender} (h : Wired s accepted created) (hs : s.fillWindow = .ok s') :
    Steady s s' := by
  rcases h.toSegmented.fillWindow_ok hs with ⟨-, rfl⟩ | hf
  · exact ⟨rfl, rfl⟩
  · rw [hf.result]
    refine ⟨rfl, ?_⟩
    show s.nextSeqno + _ - (s.bytedInFlight + _) = s.nextSeqno - s.bytedInFlight
    rw [Nat.add_sub_add_right]

theorem Steady.ticked {s' : TCPSender} (h : TCPSender.Ticked s s') : Steady s s' := by
  refine ⟨h.isn, ?_⟩
  rw [unacked, h.nextSeqno, h.inFlight, unacked]

/-- The position after the sender has been told what `seg` acknowledges: unmoved, or moved, but not past
the acknowledgment. -/
def MovedBy (s : TCPSender) (seg : TCPSegment) (s' : TCPSender) : Prop :=
  s'.isn = s.isn ∧ (unacked s' = unacked s ∨
    (seg.header.ack = true ∧ unwrap seg.header.ackno s.isn s.nextSeqno ≤ s.nextSeqno ∧
      unacked s' ≤ unwrap seg.header.ackno s.isn s.nextSeqno))

theorem MovedBy.steady {s' s'' : TCPSender} {seg : TCPSegment} (h : MovedBy s seg s')
    (hs : Steady s' s'') : MovedBy s seg s'' := by
  refine ⟨hs.1.trans h.1, ?_⟩
  rw [hs.2]
  exact h.2

theorem MovedBy.acked {c : TCPConnection} (h : Wired c.sender accepted created)
    (h64 : c.sender.nextSeqno < 2 ^ 64) (seg : TCPSegment) : MovedBy c.sender seg (c.acked seg) := by
  rw [TCPConnection.acked]
  by_cases hack : seg.header.ack = true
  · rw [if_pos hack]
    rcases c.sender.ackReceived_cases seg.header.ackno seg.header.win with ⟨-, heq⟩ | ⟨hle, j, hp, -, -, -⟩
    · rw [heq]
      exact ⟨rfl, Or.inl rfl⟩
    · have hmoved := h.toKept.unacked_ackReceived h64 seg.header.ackno seg.header.win hle
      generalize c.sender.ackReceived seg.header.ackno seg.header.win = s' at hp hmoved ⊢
      exact ⟨hp.isn, hmoved.imp_right fun hm => ⟨hack, hle, hm⟩⟩
  · rw [if_neg hack]
    exact ⟨rfl, Or.inl rfl⟩

/-! ## One call -/

/-- The endpoint after a call, for its peer: more may have been created and accepted, and the position has
moved by nothing but an acknowledgment. -/
structure Spoke (e : Endpoint) (created : List TCPSegment) (call : TCPConnection.Call) (e' : Endpoint)
    (created' : List TCPSegment) : Prop where
  speaks : Speaks e' created'
  creates : created <+: created'
  accepts : e.accepted <+: e'.accepted
  later : e.conn.receiver.Later e'.conn.receiver
  isn : e'.conn.sender.isn = e.conn.sender.isn
  sends : Sends e created' e'.conn
  moved : unacked e'.conn.sender = unacked e.conn.sender ∨
    ∃ seg, call = .segmentReceived seg ∧ MovedBy e.conn.sender seg e'.conn.sender

/-- The sender has been called with `fill_window` last. -/
theorem Speaks.filled (h : Speaks e created) {c : TCPConnection} {call : TCPConnection.Call}
    (hw : Wired c.sender accepted created) (hdrained : c.sender.segmentsOut = [])
    (hpre : e.accepted <+: accepted)
    (hsteady : Steady e.conn.sender c.sender) {s' : TCPSender} (hf : c.sender.fillWindow = .ok s')
    (hout : c.segmentsOut = e.conn.segmentsOut) (hrec : c.receiver = e.conn.receiver) (consumed : Bytes) :
    ∃ created', Spoke e created call ⟨{ c with sender := s' }.sendAckIfNeed, accepted, consumed⟩
      created' := by
  have hfill := Steady.fillWindow hw hf
  have hlater : e.conn.receiver.Later c.receiver := by
    rw [hrec]
    exact TCPReceiver.Later.refl _
  have hcur := hw.fillWindow_current hdrained hf
  rw [hsteady.1] at hcur
  exact ⟨_, h.emit (c := { c with sender := s' }) (hw.fillWindow hf) (List.prefix_append _ _) hout hlater
      consumed,
    List.prefix_append _ _, hpre, hlater, hfill.1.trans hsteady.1,
    Sends.emit (c := { c with sender := s' }) hout hcur, Or.inl (hfill.2.trans hsteady.2)⟩

/-- What the sender queues in answer to a segment. -/
theorem answers_wired {s' : TCPSender} {seg : TCPSegment} (h : Wired s accepted created)
    (hdrained : s.segmentsOut = []) (ha : TCPConnection.Answers s seg s') :
    ∃ created', Wired s' accepted created' ∧ created <+: created' ∧ Steady s s' ∧
      ∀ g ∈ s'.segmentsOut, Current s.isn created' g := by
  have hnone : ∀ g ∈ s.segmentsOut, Current s.isn created g := by simp [hdrained]
  refine ha.keeps (P := fun t => ∃ created', Wired t accepted created' ∧ created <+: created' ∧ Steady s t ∧
    ∀ g ∈ t.segmentsOut, Current s.isn created' g) ?_ ?_ ?_
  · exact ⟨created, h, List.prefix_rfl, ⟨rfl, rfl⟩, hnone⟩
  · intro t ht
    exact ⟨_, h.fillWindow ht, List.prefix_append _ _, Steady.fillWindow h ht, h.fillWindow_current hdrained ht⟩
  · rintro t ⟨created', hwt, hpre, hst, hcur⟩
    rw [← hst.1] at hcur ⊢
    exact ⟨created', hwt.sendEmptySegment, hpre, hst, hwt.sendEmptySegment_current hcur⟩

/-- The sender after an acknowledgment of something that was sent. -/
theorem acked_wired {c : TCPConnection} {seg : TCPSegment} (h : Wired c.sender accepted created)
    (hack : seg.header.ack = true → created ≠ []) :
    Wired (c.acked seg) accepted created ∧ (c.acked seg).segmentsOut = c.sender.segmentsOut := by
  obtain ⟨j, hp⟩ := c.acked_popped seg
  refine ⟨?_, hp.segmentsOut⟩
  rw [TCPConnection.acked]
  by_cases hflag : seg.header.ack = true
  · rw [if_pos hflag]
    exact h.ackReceived (hack hflag) _ _
  · rw [if_neg hflag]
    exact h

/-- **A segment that arrives.** -/
theorem Speaks.segmentReceived (h : Speaks e created) (h64 : e.conn.sender.nextSeqno < 2 ^ 64)
    {seg : TCPSegment} (hack : seg.header.ack = true → created ≠ []) {c : TCPConnection}
    (hs : e.conn.segmentReceived seg = .ok c) :
    ∃ created', Spoke e created (.segmentReceived seg) { e with conn := c } created' := by
  rcases e.conn.segmentReceived_cases seg with ⟨-, heq⟩ | ⟨-, -, heq⟩ | ⟨-, -, -, heq⟩
  · obtain rfl := Except.ok.inj (heq.symm.trans hs)
    have hlater : e.conn.receiver.Later
        ({ e.conn with lastReceivedTime := 0 } : TCPConnection).setRst.receiver :=
      ⟨Nat.le_refl _, id, fun _ => rfl⟩
    exact ⟨created, ⟨h.wired.setError, h.drained, h.out, fun g hg => (h.stamped g hg).later hlater⟩,
      List.prefix_rfl, List.prefix_rfl, hlater, rfl, Sends.nothing rfl, Or.inl rfl⟩
  · obtain rfl := Except.ok.inj (heq.symm.trans hs)
    exact ⟨created, ⟨h.wired, h.drained, h.out, h.stamped⟩, List.prefix_rfl, List.prefix_rfl,
      TCPReceiver.Later.refl _, rfl, Sends.nothing rfl, Or.inl rfl⟩
  · obtain ⟨r, hr, hans⟩ := bind_ok.mp (heq.symm.trans hs)
    obtain ⟨s', ha, rfl⟩ := TCPConnection.answer_ok hans
    have hmoved := MovedBy.acked h.wired h64 seg
    -- first the acknowledgment, then the receiver, then the answer
    obtain ⟨hw, hout⟩ := acked_wired h.wired hack
    generalize e.conn.acked seg = s₁ at ha hmoved hw hout ⊢
    obtain ⟨created', hw', hpre, hst, hcur⟩ := answers_wired hw (hout.trans h.drained) ha
    have hmoved' := hmoved.steady hst
    have hlater := TCPReceiver.Later.segmentReceived hr
    rw [hmoved.1] at hcur
    exact ⟨created', h.emit (c := { e.conn.noted s₁ r with sender := s' }) hw' hpre rfl hlater _, hpre,
      List.prefix_rfl, hlater, hmoved'.1, Sends.emit (c := { e.conn.noted s₁ r with sender := s' }) rfl hcur,
      Or.inr ⟨seg, rfl, hmoved'⟩⟩

/-- A reset goes out. -/
theorem Speaks.sendRstToPeer (h : Speaks e created) {call : TCPConnection.Call} :
    Spoke e created call { e with conn := e.conn.sendRstToPeer } created := by
  have hlater : e.conn.receiver.Later e.conn.sendRstToPeer.receiver := ⟨Nat.le_refl _, id, fun _ => rfl⟩
  refine ⟨⟨h.wired.drained.setError, rfl, ?_, ?_⟩, List.prefix_rfl, List.prefix_rfl, hlater, rfl,
    ⟨_, rfl, ?_⟩, Or.inl rfl⟩
  · exact List.forall_mem_append.mpr ⟨h.out, by simp⟩
  · refine List.forall_mem_append.mpr ⟨fun g hg => (h.stamped g hg).later hlater, ?_⟩
    intro g hg hflag
    rw [List.mem_singleton.mp hg] at hflag
    exact absurd hflag (by simp)
  · intro g hg
    rw [List.mem_singleton.mp hg]
    exact Or.inl ⟨rfl, rfl⟩

theorem Speaks.tick (h : Speaks e created) (ms : Nat) :
    Spoke e created (.tick ms) { e with conn := e.conn.tick ms } created := by
  rw [TCPConnection.tick]
  split
  · exact h.sendRstToPeer
  · have hticked := e.conn.sender.tick_ticked ms
    have hst := Steady.ticked hticked
    refine ⟨?_, List.prefix_rfl, List.prefix_rfl, TCPReceiver.Later.refl _, hst.1, ?_, Or.inl hst.2⟩
    · apply h.emit
      · exact h.wired.ticked hticked
      · exact List.prefix_rfl
      · rfl
      · exact TCPReceiver.Later.refl _
    · apply Sends.emit
      · rfl
      · exact h.wired.ticked_current h.drained hticked

/-- **One call keeps what an endpoint keeps**, if it does not write after the end of the input and brings
no acknowledgment before the first segment. -/
theorem Speaks.step {call : TCPConnection.Call} (h : Speaks e created)
    (h64 : e.conn.sender.nextSeqno < 2 ^ 64)
    (hopen : ∀ data, call = .write data → e.conn.sender.stream.isInputEnd = false)
    (hack : ∀ seg, call = .segmentReceived seg → seg.header.ack = true → created ≠ [])
    (hpop : call ≠ .pop) (hs : e.step call = .ok e') : ∃ created', Spoke e created call e' created' := by
  cases call with
  | connect =>
    obtain ⟨c, hc, rfl⟩ := map_ok.mp hs
    obtain ⟨s, hf, rfl⟩ := map_ok.mp hc
    exact h.filled h.wired h.drained List.prefix_rfl ⟨rfl, rfl⟩ hf rfl rfl _
  | write data =>
    obtain ⟨⟨n, c⟩, hc, rfl⟩ := map_ok.mp hs
    obtain ⟨s, hf, heq⟩ := map_ok.mp hc
    obtain ⟨rfl, rfl⟩ := Prod.mk.inj heq
    exact h.filled (c := { e.conn with sender := { e.conn.sender with
        stream := (e.conn.sender.stream.write data).2 } }) (h.wired.write (hopen data rfl) data)
      h.drained (List.prefix_append _ _) ⟨rfl, rfl⟩ hf rfl rfl _
  | endInputStream =>
    obtain ⟨c, hc, rfl⟩ := map_ok.mp hs
    obtain ⟨s, hf, rfl⟩ := map_ok.mp hc
    exact h.filled (c := { e.conn with sender := { e.conn.sender with
        stream := e.conn.sender.stream.endInput } }) h.wired.endInput h.drained List.prefix_rfl ⟨rfl, rfl⟩ hf
      rfl rfl _
  | segmentReceived seg =>
    obtain ⟨c, hc, rfl⟩ := map_ok.mp hs
    exact h.segmentReceived h64 (hack seg rfl) hc
  | tick ms =>
    obtain rfl := Except.ok.inj hs
    exact ⟨created, h.tick ms⟩
  | readInbound len =>
    obtain rfl := Except.ok.inj hs
    have hlater := e.conn.readInbound_later len
    exact ⟨created, ⟨h.wired, h.drained, h.out, fun g hg => (h.stamped g hg).later hlater⟩,
      List.prefix_rfl, List.prefix_rfl, hlater, rfl, Sends.nothing rfl, Or.inl rfl⟩
  | pop => exact absurd rfl hpop

end Sponge
