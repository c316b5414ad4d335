/-
# `Sponge.ConnectionWindow` — the advertised window never shrinks.

A peer that was offered the positions up to some edge may already have sent them, so the edge must not move
back.  A segment that goes out acknowledges the position `1 + bytes_written`, one more once the inbound stream
has ended, and offers `min 65535 (window_size())` from there.

`window_size()` is the capacity less what is unread, so position and window add up to the capacity plus the
bytes READ, apart from the SYN and the FIN: whatever arrives moves bytes from the window below the position,
and only a read or a pop moves the edge, forwards.  The clamp at 65535 keeps this, because the minimum of two
edges that do not move back does not move back.

`WindowRun` records every segment at the moment it is put into `segments_out`, with the position and the window
of the receiver at that moment.
-/
import Sponge.ConnectionSilence
import Sponge.ByteStreamRuns

namespace Sponge

open Sponge.Lib

/-! ## The receiver -/

namespace TCPReceiver

/-- The absolute position that the receiver has to acknowledge. -/
def position (r : TCPReceiver) : Nat :=
  1 + r.streamOut.bytesWritten + (if r.streamOut.inputEnded then 1 else 0)

/-- The window as it fits the header. -/
def offered (r : TCPReceiver) : Nat := min 65535 r.windowSize

/-- Nothing is unread beyond the capacity. -/
structure Bounded (capacity : Nat) (r : TCPReceiver) : Prop where
  wf : r.streamOut.WF
  output : r.streamOut.capacity = capacity
  cap : r.reassembler.capacity = capacity

variable {capacity : Nat} {r r' : TCPReceiver}

theorem Bounded.new (capacity : Nat) : Bounded capacity (new capacity) :=
  ⟨ByteStream.WF.new capacity, rfl, rfl⟩

theorem Bounded.segmentReceived {seg : TCPSegment} (h : Bounded capacity r)
    (hs : r.segmentReceived seg = .ok r') : Bounded capacity r' := by
  obtain ⟨hcap, hwf, hout⟩ := segmentReceived_keeps
    (P := fun o => o.WF ∧ o.capacity = capacity)
    (fun o data hp => ⟨(hp.1.write data).1, (o.write_capacity data).trans hp.2⟩)
    (fun _ hp => ⟨hp.1.endInput, hp.2⟩) ⟨h.wf, h.output⟩ hs
  exact ⟨hwf, hout, hcap.trans h.cap⟩

/-- **The window does not underflow**: it is what the unread bytes leave of the capacity. -/
theorem Bounded.windowSize_add (h : Bounded capacity r) :
    r.windowSize + r.streamOut.bufferSize = capacity := by
  have hfits := h.wf.fits
  rw [h.output, ← h.wf.bufferSize] at hfits
  have hwindow : r.windowSize = sub64 r.reassembler.capacity r.streamOut.bufferSize := rfl
  rw [hwindow, h.cap, sub64_of_le hfits]
  omega

/-- Position and window add up to what was read, the capacity, the SYN and the end. -/
theorem Bounded.edge_eq (h : Bounded capacity r) :
    r.position + r.windowSize
      = 1 + r.streamOut.bytesRead + capacity + (if r.streamOut.inputEnded then 1 else 0) := by
  have hadd := h.windowSize_add
  have hbal := h.wf.balance
  rw [h.wf.bufferSize] at hadd
  rw [position, ByteStream.bytesWritten]
  omega

/-- **Neither the position nor the edge moves back** when bytes arrive or are read. -/
theorem Bounded.advance (h : Bounded capacity r) (h' : Bounded capacity r') (hlater : Later r r')
    (hread : r.streamOut.bytesRead ≤ r'.streamOut.bytesRead) :
    r.position ≤ r'.position ∧ r.position + r.offered ≤ r'.position + r'.offered := by
  have hended : (if r.streamOut.inputEnded then 1 else 0) ≤ (if r'.streamOut.inputEnded then 1 else 0) := by
    split
    · rename_i hend
      rw [if_pos (hlater.ended hend)]
    · exact Nat.zero_le _
  have hedge := h.edge_eq
  have hedge' := h'.edge_eq
  have hposition : r.position ≤ r'.position := by
    have hwritten := hlater.written
    unfold position
    omega
  refine ⟨hposition, ?_⟩
  unfold offered
  omega

end TCPReceiver

/-! ## The connection -/

namespace TCPConnection

/-- A pop from `inbound_stream()`. -/
def popInbound (c : TCPConnection) (len : Nat) : Except Exception TCPConnection :=
  (c.inboundStream.popOutput len).2.map fun _ =>
    { c with receiver := { c.receiver with reassembler := { c.receiver.reassembler with
      output := (c.inboundStream.popOutput len).1 } } }

/-- The sender leaves the acknowledgment to the connection. -/
def Plain (s : TCPSender) : Prop :=
  ∀ seg, seg ∈ s.segmentsOut ∨ seg ∈ s.queued → seg.header.ack = false

section Plain

variable {s s' : TCPSender}

theorem Plain.fillWindow (h : Plain s) (ht : Tracked s) (hs : s.fillWindow = .ok s') : Plain s' := by
  obtain ⟨created, hk⟩ := ht
  rcases hk.fillWindow_ok hs with ⟨-, rfl | ⟨-, rfl⟩⟩ | hf
  · exact h
  · exact h
  · generalize SenderRun.newSegments s s' = segs at hf
    rw [hf.result]
    have hnew : ∀ seg ∈ segs, seg.header.ack = false := by
      intro seg hseg
      obtain ⟨k, f, p, rfl, -⟩ := hf.batch.stamped seg hseg
      rfl
    rintro seg (hout | hqueued)
    · exact (List.mem_append.mp hout).elim (fun hold => h seg (Or.inl hold)) (hnew seg)
    · rw [TCPSender.enqueue_queued] at hqueued
      exact (List.mem_append.mp hqueued).elim (fun hold => h seg (Or.inr hold)) (hnew seg)

theorem Plain.popped {j : Nat} (h : Plain s) (hp : TCPSender.Popped s j s') : Plain s' := by
  rintro seg (hout | hqueued)
  · exact h seg (Or.inl (hp.segmentsOut ▸ hout))
  · rw [hp.queue] at hqueued
    exact h seg (Or.inr (List.mem_of_mem_drop hqueued))

theorem Plain.ticked (h : Plain s) (ht : TCPSender.Ticked s s') : Plain s' := by
  rintro seg (hout | hqueued)
  · rcases ht.segmentsOut with heq | ⟨front, hfront, heq⟩
    · exact h seg (Or.inl (heq ▸ hout))
    · rw [heq] at hout
      rcases List.mem_append.mp hout with hold | hnew
      · exact h seg (Or.inl hold)
      · rw [List.mem_singleton.mp hnew]
        exact h front (Or.inr hfront)
  · exact h seg (Or.inr (ht.queue ▸ hqueued))

theorem Plain.sendEmptySegment (h : Plain s) : Plain s.sendEmptySegment := by
  rintro seg (hout | hqueued)
  · rcases List.mem_append.mp hout with hold | hnew
    · exact h seg (Or.inl hold)
    · rw [List.mem_singleton.mp hnew]
  · exact h seg (Or.inr hqueued)

theorem Plain.answers {seg : TCPSegment} (h : Plain s) (ht : Tracked s) (ha : Answers s seg s') :
    Plain s' :=
  ha.keeps h (fun _ hfill => h.fillWindow ht hfill) fun _ hplain => hplain.sendEmptySegment

end Plain

/-- What a sent segment says of the receiver that stamped it. -/
structure Advertises (r : TCPReceiver) (out : TCPSegment) : Prop where
  ackno : ∃ isn, r.isn = some isn ∧ out.header.ackno = wrap r.position isn
  win : out.header.win.toNat = r.offered

/-- The connection between two calls. -/
structure Steady (c : TCPConnection) : Prop where
  tracked : Tracked c.sender
  plain : Plain c.sender
  bounded : TCPReceiver.Bounded c.cfg.recvCapacity c.receiver

/-- What a call does to the receiver and to `segments_out`. -/
structure Advanced (c c' : TCPConnection) : Prop where
  cfg : c'.cfg = c.cfg
  steady : Steady c'
  later : TCPReceiver.Later c.receiver c'.receiver
  read : c.inboundStream.bytesRead ≤ c'.inboundStream.bytesRead
  out : ∀ out ∈ c'.segmentsOut.drop c.segmentsOut.length, out.header.ack = true →
    Advertises c'.receiver out

variable {c c' : TCPConnection} {call : Call}

theorem Steady.new (cfg : TCPConfig) (random : WrappingInt32) : Steady (new cfg random) :=
  ⟨Tracked.new cfg random, by simp [Plain, TCPConnection.new, TCPSender.new, TCPSender.queued],
    TCPReceiver.Bounded.new _⟩

/-- A stamped segment advertises the receiver. -/
theorem stampAck_advertises {seg : TCPSegment} (hplain : seg.header.ack = false)
    (hack : (c.stampAck seg).header.ack = true) : Advertises c.receiver (c.stampAck seg) := by
  have hwin : (c.stampAck seg).header.win.toNat = c.receiver.offered :=
    Nat.mod_eq_of_lt (Nat.lt_of_le_of_lt (Nat.min_le_left _ _) (by decide))
  cases hisn : c.receiver.isn with
  | none =>
    rw [stampAck, TCPReceiver.ackno_eq_none hisn] at hack
    exact absurd (hplain.symm.trans hack) (by decide)
  | some isn =>
    refine ⟨⟨isn, hisn, ?_⟩, hwin⟩
    rw [stampAck, TCPReceiver.ackno_eq hisn]
    rfl

/-- `_send_ack_if_need`, once the sender has queued what it has to say. -/
theorem Advanced.sendAckIfNeed {d : TCPConnection} (hcfg : d.cfg = c.cfg)
    (hout : d.segmentsOut = c.segmentsOut) (hd : Steady d) (hlater : TCPReceiver.Later c.receiver d.receiver)
    (hread : c.inboundStream.bytesRead ≤ d.inboundStream.bytesRead) : Advanced c d.sendAckIfNeed := by
  refine ⟨hcfg, ⟨hd.tracked.withSegmentsOut [], ?_, hd.bounded⟩, hlater, hread, fun out hmem hack => ?_⟩
  · rintro seg (hnone | hqueued)
    · exact absurd hnone (by simp [TCPConnection.sendAckIfNeed])
    · exact hd.plain seg (Or.inr hqueued)
  · have hnew : d.sendAckIfNeed.segmentsOut.drop c.segmentsOut.length
        = d.sender.segmentsOut.map d.stampAck := by
      rw [← hout]
      exact List.drop_left
    rw [hnew] at hmem
    obtain ⟨seg, hseg, rfl⟩ := List.mem_map.mp hmem
    exact stampAck_advertises (hd.plain seg (Or.inl hseg)) hack

/-- A call that sends nothing. -/
theorem Advanced.silent (hcfg : c'.cfg = c.cfg) (hout : c'.segmentsOut.length ≤ c.segmentsOut.length)
    (hd : Steady c') (hlater : TCPReceiver.Later c.receiver c'.receiver)
    (hread : c.inboundStream.bytesRead ≤ c'.inboundStream.bytesRead) : Advanced c c' := by
  refine ⟨hcfg, hd, hlater, hread, fun out hmem => ?_⟩
  rw [List.drop_eq_nil_of_le hout] at hmem
  exact absurd hmem (by simp)

theorem later_setRst (c : TCPConnection) : TCPReceiver.Later c.receiver c.setRst.receiver :=
  ⟨Nat.le_refl _, id, fun _ => rfl⟩

theorem Steady.setRst (h : Steady c) : Steady c.setRst :=
  ⟨h.tracked.withStream h.tracked.wf.setError, h.plain, ⟨h.bounded.wf.setError, h.bounded.output,
    h.bounded.cap⟩⟩

/-- The owner takes bytes out of the inbound stream. -/
theorem Steady.take (h : Steady c) {o : ByteStream} (hwf : o.WF) (hcapacity : o.capacity = c.inboundStream.capacity)
    (hwritten : o.bytesWirtten = c.inboundStream.bytesWirtten) (hended : o.isInputEnd = c.inboundStream.isInputEnd)
    (hread : c.inboundStream.bytesRead ≤ o.bytesRead) :
    Advanced c { c with receiver := { c.receiver with reassembler := { c.receiver.reassembler with output := o } } } :=
  Advanced.silent rfl (Nat.le_refl _)
    ⟨h.tracked, h.plain, hwf, hcapacity.trans h.bounded.output, h.bounded.cap⟩
    ⟨Nat.le_of_eq hwritten.symm, fun hend => hended.trans hend, fun _ => rfl⟩ hread

theorem Steady.readInbound (h : Steady c) (len : Nat) : Advanced c (c.readInbound len) := by
  obtain ⟨hwf, -, hread⟩ := h.bounded.wf.read len
  exact h.take hwf (ByteStream.read_capacity _ _) (ByteStream.read_bytesWirtten _ _) (ByteStream.read_isInputEnd _ _)
    ((Nat.le_add_right _ _).trans_eq hread.symm)

theorem Steady.popInbound {len : Nat} (h : Steady c) (hle : len ≤ c.inboundStream.bufferSize)
    (hs : c.popInbound len = .ok c') : Advanced c c' := by
  have hwf : c.inboundStream.WF := h.bounded.wf
  rw [hwf.bufferSize] at hle
  obtain ⟨_, -, rfl⟩ := map_ok.mp hs
  rw [ByteStream.popOutput_eq hwf.valid, if_pos hle]
  exact h.take (hwf.dropped len) rfl rfl rfl (Nat.le_add_right _ _)

theorem Steady.segmentReceived {seg : TCPSegment} (h : Steady c) (hs : c.segmentReceived seg = .ok c') :
    Advanced c c' := by
  rcases c.segmentReceived_cases seg with ⟨-, heq⟩ | ⟨-, -, heq⟩ | ⟨-, -, -, heq⟩
  · obtain rfl := Except.ok.inj (heq.symm.trans hs)
    exact Advanced.silent rfl (Nat.le_refl _) (Steady.setRst ⟨h.tracked, h.plain, h.bounded⟩)
      (later_setRst c) (Nat.le_refl _)
  · obtain rfl := Except.ok.inj (heq.symm.trans hs)
    exact Advanced.silent rfl (Nat.le_refl _) ⟨h.tracked, h.plain, h.bounded⟩ (TCPReceiver.Later.refl _)
      (Nat.le_refl _)
  · obtain ⟨r, hrec, hans⟩ := bind_ok.mp (heq.symm.trans hs)
    obtain ⟨s', ha, rfl⟩ := answer_ok hans
    obtain ⟨j, hp⟩ := c.acked_popped seg
    have htracked := h.tracked.acked seg
    exact Advanced.sendAckIfNeed (d := { c.noted (c.acked seg) r with sender := s' }) rfl rfl
      ⟨ha.tracked htracked, (h.plain.popped hp).answers htracked ha, h.bounded.segmentReceived hrec⟩
      (TCPReceiver.Later.segmentReceived hrec)
      (Nat.le_of_eq (TCPReceiver.segmentReceived_grown hrec).1.read.symm)

/-- **One call** moves the receiver forward, and sends nothing but what advertises it. -/
theorem Steady.step (h : Steady c) (hs : c.step call = .ok c') : Advanced c c' := by
  rcases step_cases hs with ⟨stream, s, href, hf, rfl⟩ | ⟨seg, -, hs⟩ | ⟨ms, -, rfl⟩ | ⟨len, -, rfl⟩ | ⟨-, rfl⟩
  · have htracked := h.tracked.withStream (refill_wf h.tracked.wf href)
    exact Advanced.sendAckIfNeed (d := { c with sender := s }) rfl rfl
      ⟨htracked.fillWindow hf, Plain.fillWindow (s := { c.sender with stream := stream }) h.plain htracked hf,
        h.bounded⟩ (TCPReceiver.Later.refl _) (Nat.le_refl _)
  · exact h.segmentReceived hs
  · rw [tick]
    split
    · -- the RST carries no acknowledgment
      refine ⟨rfl, Steady.setRst ⟨h.tracked.withSegmentsOut [], ?_, h.bounded⟩, later_setRst c,
        Nat.le_refl _, fun out hmem hack => ?_⟩
      · rintro seg (hnone | hqueued)
        · exact absurd hnone (by simp)
        · exact h.plain seg (Or.inr hqueued)
      · rw [sendRstToPeer, TCPConnection.setRst, List.drop_left, List.mem_singleton] at hmem
        rw [hmem] at hack
        exact absurd hack (by simp)
    · have ht := c.sender.tick_ticked ms
      have htracked : Tracked (c.sender.tick ms) := by
        obtain ⟨created, hk⟩ := h.tracked
        exact ⟨created, hk.ticked ht⟩
      exact Advanced.sendAckIfNeed rfl rfl ⟨htracked, h.plain.ticked ht, h.bounded⟩
        (TCPReceiver.Later.refl _) (Nat.le_refl _)
  · exact h.readInbound len
  · exact Advanced.silent rfl (by simp) ⟨h.tracked, h.plain, h.bounded⟩ (TCPReceiver.Later.refl _)
      (Nat.le_refl _)

end TCPConnection

/-! ## Runs -/

/-- A segment that was sent, with the position and the window of the receiver at that moment. -/
structure Emission where
  seg : TCPSegment
  position : Nat
  window : Nat

/-- What an emission said is not behind `position` and `offered`. -/
def Emission.Before (e : Emission) (position offered : Nat) : Prop :=
  e.position ≤ position ∧ e.position + min 65535 e.window ≤ position + offered

/-- What is not behind the receiver stays so when the receiver advances. -/
theorem Emission.Before.advance {e : Emission} {c c' : TCPConnection} (hc : TCPConnection.Steady c)
    (h : TCPConnection.Advanced c c')
    (hb : Emission.Before e c.receiver.position c.receiver.offered) :
    Emission.Before e c'.receiver.position c'.receiver.offered := by
  have hbounded := h.steady.bounded
  rw [h.cfg] at hbounded
  obtain ⟨hposition, hedge⟩ := hc.bounded.advance hbounded h.later h.read
  exact ⟨Nat.le_trans hb.1 hposition, Nat.le_trans hb.2 hedge⟩

/-- A connection in a run, with all that it has sent. -/
structure WindowRun where
  conn : TCPConnection
  emitted : List Emission := []

inductive WindowCall where
  | call (call : TCPConnection.Call)
  /-- `inbound_stream().pop_output(len)`. -/
  | popInbound (len : Nat)

namespace WindowRun

open TCPConnection (Steady Advanced Advertises)

/-- The run after a call: what the call has put into `segments_out` is recorded. -/
def record (r : WindowRun) (c : TCPConnection) : WindowRun :=
  { conn := c
    emitted := r.emitted ++ (c.segmentsOut.drop r.conn.segmentsOut.length).map fun seg =>
      { seg := seg, position := c.receiver.position, window := c.receiver.windowSize } }

def step (r : WindowRun) : WindowCall → Except Exception WindowRun
  | .call call => (r.conn.step call).map r.record
  | .popInbound len => (r.conn.popInbound len).map r.record

def Start (r : WindowRun) : Prop := ∃ cfg random, r = { conn := TCPConnection.new cfg random }

/-- Reads and pops take at most what is there. -/
def withinBuffer (r : WindowRun) : WindowCall → Prop
  | .call (.readInbound len) => len ≤ r.conn.inboundStream.bufferSize
  | .popInbound len => len ≤ r.conn.inboundStream.bufferSize
  | _ => True

instance (r : WindowRun) : DecidablePred (withinBuffer r)
  | .call (.readInbound _) => inferInstanceAs (Decidable (_ ≤ _))
  | .popInbound _ => inferInstanceAs (Decidable (_ ≤ _))
  | .call .connect | .call (.write _) | .call .endInputStream | .call (.segmentReceived _)
  | .call (.tick _) | .call .pop => isTrue trivial

/-- The invariant: what was sent advertised the receiver of its moment, and nothing moved back since. -/
structure Inv (r : WindowRun) : Prop where
  steady : Steady r.conn
  stamped : ∀ e ∈ r.emitted, e.seg.header.ack = true →
    (∃ isn, r.conn.receiver.isn = some isn ∧ e.seg.header.ackno = wrap e.position isn) ∧
    e.seg.header.win.toNat = min 65535 e.window
  before : ∀ e ∈ r.emitted, Emission.Before e r.conn.receiver.position r.conn.receiver.offered
  ordered : r.emitted.Pairwise fun e e' => Emission.Before e e'.position (min 65535 e'.window)

theorem Start.inv {r : WindowRun} (h : Start r) : Inv r := by
  obtain ⟨cfg, random, rfl⟩ := h
  exact ⟨Steady.new cfg random, by simp, by simp, List.Pairwise.nil⟩

theorem Inv.record {r : WindowRun} {c : TCPConnection} (hi : Inv r) (h : Advanced r.conn c) :
    Inv (r.record c) := by
  have hbefore : ∀ e ∈ r.emitted, Emission.Before e c.receiver.position c.receiver.offered :=
    fun e he => (hi.before e he).advance hi.steady h
  have hnow : ∀ seg, Emission.Before ⟨seg, c.receiver.position, c.receiver.windowSize⟩
      c.receiver.position c.receiver.offered := fun _ => ⟨Nat.le_refl _, Nat.le_refl _⟩
  refine ⟨h.steady, ?_, ?_, ?_⟩
  · intro e he hack
    rcases List.mem_append.mp he with hold | hnew
    · obtain ⟨⟨isn, hisn, hackno⟩, hwin⟩ := hi.stamped e hold hack
      exact ⟨⟨isn, (h.later.isn (by rw [hisn]; rfl)).trans hisn, hackno⟩, hwin⟩
    · obtain ⟨seg, hseg, rfl⟩ := List.mem_map.mp hnew
      obtain ⟨hackno, hwin⟩ := h.out seg hseg hack
      exact ⟨hackno, hwin⟩
  · intro e he
    rcases List.mem_append.mp he with hold | hnew
    · exact hbefore e hold
    · obtain ⟨seg, -, rfl⟩ := List.mem_map.mp hnew
      exact hnow seg
  · refine List.pairwise_append.mpr ⟨hi.ordered, ?_, fun e he e' hnew => ?_⟩
    · exact List.pairwise_map.mpr (List.pairwise_of_forall fun seg _ => hnow seg)
    · obtain ⟨seg, -, rfl⟩ := List.mem_map.mp hnew
      exact hbefore e he

theorem Inv.step {r r' : WindowRun} {call : WindowCall} (hi : Inv r) (hok : withinBuffer r call)
    (hs : r.step call = .ok r') : Inv r' := by
  cases call with
  | call call =>
    obtain ⟨c, hc, rfl⟩ := map_ok.mp hs
    exact hi.record (hi.steady.step hc)
  | popInbound len =>
    obtain ⟨c, hc, rfl⟩ := map_ok.mp hs
    exact hi.record (hi.steady.popInbound hok hc)

/-- **The advertised window never shrinks.**  In every run whose reads and pops keep to the buffer, whatever
segments arrive and whatever the capacity: over the segments that were sent with the ACK flag, in order, neither
the acknowledged position nor the right edge moves back.  Each of them carries the number of its position and a
window of `min 65535 (window_size())`, and `window_size()` is what the unread bytes leave of the capacity. -/
theorem window_never_shrinks {r : WindowRun} (hr : Reach Start step withinBuffer r) :
    (r.emitted.filter fun e => e.seg.header.ack).Pairwise (fun e e' => e.position ≤ e'.position ∧
      e.position + e.seg.header.win.toNat ≤ e'.position + e'.seg.header.win.toNat) ∧
    (∀ e ∈ r.emitted, e.seg.header.ack = true →
      (∃ isn, r.conn.receiver.isn = some isn ∧ e.seg.header.ackno = wrap e.position isn) ∧
      e.seg.header.win.toNat = min 65535 e.window) ∧
    r.conn.receiver.windowSize + r.conn.inboundStream.bufferSize = r.conn.cfg.recvCapacity := by
  have hi : Inv r := Reach.invariant (fun _ hstart => hstart.inv) (fun _ _ _ hi hok hs => hi.step hok hs) hr
  refine ⟨?_, hi.stamped, hi.steady.bounded.windowSize_add⟩
  refine (hi.ordered.filter _).imp_of_mem fun {e e'} he he' hb => ?_
  obtain ⟨hmem, hack⟩ := List.mem_filter.mp he
  obtain ⟨hmem', hack'⟩ := List.mem_filter.mp he'
  rw [(hi.stamped e hmem hack).2, (hi.stamped e' hmem' hack').2]
  exact hb

/-- A capacity above the header's limit; two bytes arrive, one is read and one is popped. -/
theorem window_never_shrinks_large : ∃ r : WindowRun, Reach Start step withinBuffer r ∧
    r.conn.cfg.recvCapacity = 70000 ∧ 2 ≤ (r.emitted.filter fun e => e.seg.header.ack).length ∧
    (r.emitted.filter fun e => e.seg.header.ack).Pairwise (fun e e' => e.position ≤ e'.position ∧
      e.position + e.seg.header.win.toNat ≤ e'.position + e'.seg.header.win.toNat) := by
  obtain ⟨r, hr, htest⟩ : ∃ r, Reach Start step withinBuffer r ∧ (decide (r.conn.cfg.recvCapacity = 70000)
      && decide (2 ≤ (r.emitted.filter fun e => e.seg.header.ack).length)) = true :=
    Reach.exec_any _ (s := { conn := TCPConnection.new { recvCapacity := 70000, sendCapacity := 8 } ⟨0⟩ })
      (l := [.call .connect, .call (.segmentReceived { header :=
          { seqno := ⟨100⟩, ackno := ⟨1⟩, syn := true, ack := true, win := 100 } }),
        .call (.segmentReceived { header := { seqno := ⟨101⟩ }, payload := [5, 6] }),
        .call (.readInbound 1), .popInbound 1, .call (.write [7])])
      (.start ⟨_, _, rfl⟩) (by decide +kernel)
  rw [Bool.and_eq_true, decide_eq_true_eq, decide_eq_true_eq] at htest
  exact ⟨r, hr, htest.1, htest.2, (window_never_shrinks hr).1⟩

end WindowRun

end Sponge
