/-
# `Sponge.PassiveClose` — the side that closes second does not linger.

When the peer's stream has ended first, the last acknowledgment of the connection comes from the peer, and
there is nothing to wait for: the connection should be over as soon as its own FIN is acknowledged and its
owner has read everything.  `_send_fin_first` remembers who was first, and `segment_received` clears
`_linger_after_streams_finish` when it finds the inbound stream drained.

The flag is looked at only when a segment arrives.  If the owner drains the inbound stream after the peer's
last segment, no call is left that could clear it, and the connection waits for a timeout that the passive side
need not keep (`drained_late_lingers`).  Whatever else happens in whatever order, the flag is cleared in time.
-/
import Sponge.ConnectionTimeWait

namespace Sponge

open Sponge.Lib

/-! ## What the flags stand for -/

/-- The inbound stream ends only by a FIN that was noted: without one, nothing stored is marked. -/
def TCPReceiver.EndNoted (r : TCPReceiver) : Prop :=
  r.fsn = none → r.streamOut.isInputEnd = false ∧ ∀ b ∈ r.reassembler.bufferList, b.eof = false

theorem TCPReceiver.EndNoted.segmentReceived {r r' : TCPReceiver} {seg : TCPSegment} (h : r.EndNoted)
    (hs : r.segmentReceived seg = .ok r') : r'.EndNoted := by
  rcases segmentReceived_ok hs with rfl | ⟨index, top, re, hpush, rfl⟩
  · exact h
  · intro hnone
    have hfsn : (if seg.header.fin then some (r.fsn.getD seg.header.seqno) else r.fsn) = none := hnone
    cases hfin : seg.header.fin with
    | true =>
      rw [hfin, if_pos rfl] at hfsn
      exact absurd hfsn (by simp)
    | false =>
      rw [hfin, if_neg (by decide)] at hfsn
      rw [hfin] at hpush
      obtain ⟨hopen, hunmarked⟩ := h hfsn
      obtain ⟨hsame, hunmarked'⟩ := StreamReassembler.pushSubstring_unmarked hunmarked hpush
      exact ⟨hsame.trans hopen, hunmarked'⟩

/-- The FIN is not acknowledged before the SYN. -/
theorem TCPSender.Popped.syn_of_fin {s s' : TCPSender} {j : Nat} {created : List TCPSegment}
    (hp : Popped s j s') (hk : SenderRun.Kept s created) (hk' : SenderRun.Kept s' created)
    (h : s.isFinReceived = true → s.isSynReceived = true) (hfin : s'.isFinReceived = true) :
    s'.isSynReceived = true := by
  rw [hp.fin, Bool.or_eq_true] at hfin
  rcases hfin with hold | hnew
  · rw [hp.syn, h hold, Bool.true_or]
  · -- a FIN went, so something went, and the SYN before it
    obtain ⟨seg, hseg, -⟩ := List.any_eq_true.mp hnew
    have hsome := List.length_pos_of_mem hseg
    have hlen := hk.queue.length_le
    have hle := hp.le
    rw [hk'.syn, hp.queue, List.length_drop]
    rw [List.length_take] at hsome
    omega

/-! ## Runs -/

namespace PassiveRun

open TCPConnection (Call Tracked)

/-- The owner of a passive closer does not drain the inbound stream between the acknowledgment of the FIN and
the end of the connection. -/
def drainsInTime (r : PassiveRun) : Call → Prop
  | .readInbound len => r.passive = true → r.conn.sender.isFinReceived = true →
      r.conn.lingerAfterStreamsFinish = true → (r.conn.readInbound len).inboundStream.eof = false
  | _ => True

instance (r : PassiveRun) : DecidablePred (drainsInTime r)
  | .readInbound _ => inferInstanceAs (Decidable (_ = true → _ = true → _ = true → _ = false))
  | .connect | .write _ | .endInputStream | .segmentReceived _ | .tick _ | .pop => isTrue trivial

/-- What the flags of a passive closer say: the peer was first, and there is nothing to wait for at the end. -/
def Settled (c : TCPConnection) : Prop :=
  c.sendFinFirst = false ∧ (c.sender.isFinReceived = true → c.inboundStream.eof = true →
    c.lingerAfterStreamsFinish = false)

/-- The invariant. -/
structure Inv (r : PassiveRun) : Prop where
  tracked : Tracked r.conn.sender
  noted : r.conn.receiver.EndNoted
  synFirst : r.conn.sender.isFinReceived = true → r.conn.sender.isSynReceived = true
  settled : r.passive = true → Settled r.conn

theorem Start.inv {r : PassiveRun} (h : Start r) : Inv r := by
  obtain ⟨cfg, random, rfl⟩ := h
  refine ⟨Tracked.new cfg random, fun _ => ⟨rfl, ?_⟩, ?_, ?_⟩
  · simp [TCPConnection.new, TCPReceiver.new, StreamReassembler.new]
  · simp [TCPConnection.new, TCPSender.new]
  · simp

variable {r : PassiveRun} {c : TCPConnection}

/-- A call that leaves the inbound stream and the flags alone. -/
theorem Inv.same (hi : Inv r) (htracked : Tracked c.sender) (hnoted : c.receiver.EndNoted)
    (hended : c.inboundStream.inputEnded = r.conn.inboundStream.inputEnded)
    (heof : c.inboundStream.eof = r.conn.inboundStream.eof)
    (hfin : c.sender.isFinReceived = r.conn.sender.isFinReceived)
    (hsyn : c.sender.isSynReceived = r.conn.sender.isSynReceived)
    (hfirst : c.sendFinFirst = r.conn.sendFinFirst)
    (hlinger : r.conn.lingerAfterStreamsFinish = false → c.lingerAfterStreamsFinish = false) :
    Inv (r.record c) := by
  rw [record_eq hended]
  refine ⟨htracked, hnoted, by rw [hfin, hsyn]; exact hi.synFirst, fun hp => ?_⟩
  obtain ⟨hpeer, hdone⟩ := hi.settled hp
  exact ⟨hfirst.trans hpeer, fun hf he => hlinger (hdone (hfin ▸ hf) (heof ▸ he))⟩

/-- An answer acknowledges nothing. -/
theorem answers_flags {s s' : TCPSender} {seg : TCPSegment} (h : Tracked s)
    (ha : TCPConnection.Answers s seg s') :
    s'.isFinReceived = s.isFinReceived ∧ s'.isSynReceived = s.isSynReceived :=
  ha.keeps (P := fun t => t.isFinReceived = s.isFinReceived ∧ t.isSynReceived = s.isSynReceived) ⟨rfl, rfl⟩
    (fun _ ht => h.fillWindow_flags ht) fun _ hflags => hflags

/-- The FIN is not acknowledged before the SYN. -/
theorem Inv.acked_synFirst (hi : Inv r) (seg : TCPSegment) (hfin : (r.conn.acked seg).isFinReceived = true) :
    (r.conn.acked seg).isSynReceived = true := by
  obtain ⟨j, hp⟩ := r.conn.acked_popped seg
  obtain ⟨created, hk⟩ := hi.tracked
  refine hp.syn_of_fin hk ?_ hi.synFirst hfin
  rw [TCPConnection.acked]
  split
  · exact hk.ackReceived _ _
  · exact hk

/-- What a connection is left with once it has answered a segment: the flags are those of `noted`. -/
theorem Inv.noted_answered {seg : TCPSegment} {receiver : TCPReceiver} {c' : TCPConnection} (hi : Inv r)
    (hrec : r.conn.receiver.segmentReceived seg = .ok receiver)
    (hans : (r.conn.noted (r.conn.acked seg) receiver).answer seg = .ok c')
    (htracked : Tracked c'.sender) :
    Inv (r.record c') := by
  have hacked := hi.tracked.acked seg
  have hsynFirst := hi.acked_synFirst seg
  have hstream : (r.conn.acked seg).stream = r.conn.sender.stream := by
    obtain ⟨j, hp⟩ := r.conn.acked_popped seg
    exact hp.stream
  generalize r.conn.acked seg = s at hans hacked hstream hsynFirst
  obtain ⟨s', ha, rfl⟩ := TCPConnection.answer_ok hans
  have hflags := answers_flags hacked ha
  have hnoted := hi.noted.segmentReceived hrec
  refine ⟨htracked, hnoted, fun hfin => hflags.2.trans (hsynFirst (hflags.1.symm.trans hfin)), fun hpassive => ?_⟩
  have hpeer : (if receiver.fsn.isSome && !s.stream.eof then false else r.conn.sendFinFirst) = false := by
    rcases (Bool.or_eq_true _ _).mp hpassive with hold | hnew
    · rw [(hi.settled hold).1, ite_self]
    · -- the stream has just ended, by a FIN that was noted
      simp only [Bool.and_eq_true, Bool.not_eq_true'] at hnew
      obtain ⟨⟨hended, -⟩, hopen⟩ := hnew
      have hsome : receiver.fsn.isSome = true := by
        by_contra hnone
        have hopen' : receiver.streamOut.isInputEnd = false :=
          (hnoted (by simpa using hnone)).1
        exact absurd (hopen'.symm.trans hended) (by decide)
      rw [hsome, hstream, hopen]
      rfl
  refine ⟨hpeer, fun hfin heof => ?_⟩
  -- the FIN is acknowledged, hence the SYN; the stream is drained and the peer was first
  have hsyn := hsynFirst (hflags.1.symm.trans hfin)
  have heof' : receiver.streamOut.eof = true := heof
  show (if s.isSynReceived && receiver.streamOut.eof && !(if receiver.fsn.isSome && !s.stream.eof then false
    else r.conn.sendFinFirst) then false else r.conn.lingerAfterStreamsFinish) = false
  rw [hpeer, hsyn, heof']
  rfl

/-- A read leaves everything but the unread bytes alone. -/
theorem Inv.readInbound (hi : Inv r) {len : Nat} (hok : drainsInTime r (.readInbound len)) :
    Inv (r.record (r.conn.readInbound len)) := by
  have hended : (r.conn.readInbound len).inboundStream.inputEnded = r.conn.inboundStream.inputEnded :=
    r.conn.inboundStream.read_isInputEnd len
  rw [record_eq hended]
  refine ⟨hi.tracked, fun hnone => ?_, hi.synFirst, fun hpassive => ?_⟩
  · obtain ⟨hopen, hunmarked⟩ := hi.noted hnone
    exact ⟨hended.trans hopen, hunmarked⟩
  · refine ⟨(hi.settled hpassive).1, fun hfin heof => ?_⟩
    by_contra hlinger
    have hnot := hok hpassive hfin (eq_true_of_ne_false hlinger)
    exact absurd (hnot.symm.trans heof) (by decide)

/-- **One call** keeps the invariant. -/
theorem Inv.step {r r' : PassiveRun} {call : Call} (hi : Inv r) (hok : drainsInTime r call)
    (hs : r.step call = .ok r') : Inv r' := by
  obtain ⟨c, hc, rfl⟩ := map_ok.mp hs
  have htracked := hi.tracked.step hc
  rcases TCPConnection.step_cases hc with ⟨stream, s, href, hf, rfl⟩ | ⟨seg, -, hseg⟩ | ⟨ms, -, rfl⟩ |
    ⟨len, rfl, rfl⟩ | ⟨-, rfl⟩
  · have hflags := (hi.tracked.withStream (TCPConnection.refill_wf hi.tracked.wf href)).fillWindow_flags hf
    exact hi.same htracked hi.noted rfl rfl hflags.1 hflags.2 rfl id
  · rcases r.conn.segmentReceived_cases seg with ⟨-, heq⟩ | ⟨-, -, heq⟩ | ⟨-, -, -, heq⟩
    · obtain rfl := Except.ok.inj (heq.symm.trans hseg)
      exact hi.same htracked hi.noted rfl rfl rfl rfl rfl id
    · obtain rfl := Except.ok.inj (heq.symm.trans hseg)
      exact hi.same htracked hi.noted rfl rfl rfl rfl rfl id
    · obtain ⟨receiver, hrec, hans⟩ := bind_ok.mp (heq.symm.trans hseg)
      exact hi.noted_answered hrec hans htracked
  · by_cases hretries : r.conn.sender.consecutiveRetransmissions ≥ TCPConfig.MAX_RETX_ATTEMPTS
    · rw [TCPConnection.tick, if_pos hretries] at htracked ⊢
      exact hi.same htracked hi.noted rfl rfl rfl rfl rfl id
    · rw [TCPConnection.tick, if_neg hretries] at htracked ⊢
      have ht := r.conn.sender.tick_ticked ms
      refine hi.same htracked hi.noted rfl rfl ht.fin ht.syn rfl fun hlinger => ?_
      show (if _ then _ else r.conn.lingerAfterStreamsFinish) = false
      rw [hlinger, ite_self, ite_self]
  · exact hi.readInbound hok
  · exact hi.same htracked hi.noted rfl rfl rfl rfl rfl id

/-- **A passive closer does not linger.**  In every run whose owner `drainsInTime`, in every state after the
inbound stream has ended with the outbound stream not at its end: if the FIN is acknowledged and the inbound
stream is drained, the connection is not active. -/
theorem passive_closer_stops (hr : Reach Start step drainsInTime r) (hpassive : r.passive = true)
    (hfin : r.conn.sender.isFinReceived = true) (heof : r.conn.inboundStream.eof = true) :
    r.conn.active = false := by
  have hi : Inv r := Reach.invariant (fun _ h => h.inv) (fun _ _ _ hi hok hs => hi.step hok hs) hr
  cases hrst : r.conn.isRst with
  | true => rw [TCPConnection.active, hrst, if_pos rfl]
  | false => exact (ClosingRun.active_eq_false hrst).mpr ⟨hfin, heof, (hi.settled hpassive).2 hfin heof⟩

/-- The peer sends a byte and its FIN; the owner reads, closes, and the peer acknowledges. -/
theorem passive_closer_stops_read : ∃ r : PassiveRun, Reach Start step drainsInTime r ∧
    r.passive = true ∧ r.conn.isRst = false ∧ r.conn.active = false := by
  obtain ⟨r, hr, htest⟩ : ∃ r, Reach Start step drainsInTime r ∧ (r.passive && !r.conn.isRst
      && r.conn.sender.isFinReceived && r.conn.inboundStream.eof) = true :=
    Reach.exec_any _ (s := { conn := TCPConnection.new { recvCapacity := 8, sendCapacity := 8 } ⟨0⟩ })
      (l := [.connect,
        .segmentReceived { header := { seqno := ⟨100⟩, ackno := ⟨1⟩, syn := true, ack := true, win := 100 } },
        .segmentReceived { payload := [97], header :=
          { seqno := ⟨101⟩, ackno := ⟨1⟩, fin := true, ack := true, win := 100 } },
        .readInbound 1, .endInputStream,
        .segmentReceived { header := { seqno := ⟨103⟩, ackno := ⟨2⟩, ack := true, win := 100 } }])
      (.start ⟨_, _, rfl⟩) (by decide +kernel)
  simp only [Bool.and_eq_true, Bool.not_eq_true'] at htest
  obtain ⟨⟨⟨hpassive, hrst⟩, hfin⟩, heof⟩ := htest
  exact ⟨r, hr, hpassive, hrst, passive_closer_stops hr hpassive hfin heof⟩

/-- **Draining late lingers**: the same calls, but the owner reads the byte after the last acknowledgment. -/
theorem drained_late_lingers : ∃ r : PassiveRun, Reach Start step (fun _ _ => True) r ∧
    r.passive = true ∧ r.conn.isRst = false ∧ r.conn.sender.isFinReceived = true ∧
    r.conn.inboundStream.eof = true ∧ r.conn.active = true := by
  obtain ⟨r, hr, htest⟩ : ∃ r, Reach Start step (fun _ _ => True) r ∧ (r.passive && !r.conn.isRst
      && r.conn.sender.isFinReceived && r.conn.inboundStream.eof && r.conn.active) = true :=
    Reach.exec_any _ (s := { conn := TCPConnection.new { recvCapacity := 8, sendCapacity := 8 } ⟨0⟩ })
      (l := [.connect,
        .segmentReceived { header := { seqno := ⟨100⟩, ackno := ⟨1⟩, syn := true, ack := true, win := 100 } },
        .segmentReceived { payload := [97], header :=
          { seqno := ⟨101⟩, ackno := ⟨1⟩, fin := true, ack := true, win := 100 } },
        .endInputStream,
        .segmentReceived { header := { seqno := ⟨103⟩, ackno := ⟨2⟩, ack := true, win := 100 } },
        .readInbound 1])
      (.start ⟨_, _, rfl⟩) (by decide +kernel)
  simp only [Bool.and_eq_true, Bool.not_eq_true'] at htest
  obtain ⟨⟨⟨⟨hpassive, hrst⟩, hfin⟩, heof⟩, hactive⟩ := htest
  exact ⟨r, hr, hpassive, hrst, hfin, heof, hactive⟩

end PassiveRun

end Sponge
