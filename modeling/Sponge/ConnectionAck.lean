/-
# `Sponge.ConnectionAck` — every segment that occupies sequence space is acknowledged.

A peer whose segment is not acknowledged sends it again until it gives up, so `segment_received` has to
answer every segment that occupies sequence space, wanted or not.  Of its early exits only one can swallow
such a segment: after both streams have ended, the local one first, the connection lingers for
retransmissions of the peer's FIN and deliberately ignores whatever carries no FIN.  Outside that state
the answer always goes out once the receiver has taken the segment, and it always carries the acknowledgment
number of the receiver as the segment left it.  The receiver can throw instead (`resent_syn_throws`).
-/
import Sponge.TcpConnection

namespace Sponge

open Sponge.Lib

namespace TCPConnection

/-- A stamped segment carries the receiver's acknowledgment number once there is one. -/
theorem stampAck_ackno {c : TCPConnection} (h : c.receiver.isn.isSome = true) (seg : TCPSegment) :
    (c.stampAck seg).header.ack = true ∧ some (c.stampAck seg).header.ackno = c.receiver.ackno := by
  obtain ⟨isn, hisn⟩ := Option.isSome_iff_exists.mp h
  rw [stampAck, TCPReceiver.ackno_eq hisn]
  exact ⟨rfl, rfl⟩

/-- **Every sequence-occupying segment is acknowledged.**  In every reachable state of an active
connection, a segment without RST that occupies sequence space, is not ignored in the lingering state and
is taken by the receiver, which knows the peer's ISN then, is answered: `segment_received` returns and puts into
`segments_out` a segment with the ACK flag and the receiver's acknowledgment number. -/
theorem segment_acknowledged {c : TCPConnection} (hr : Reach Start step (fun _ _ => True) c)
    (hactive : c.active = true) (seg : TCPSegment) (hrst : seg.header.rst = false)
    (hlen : 0 < seg.lengthInSequenceSpace) (hignored : c.ignored seg = false) {r : TCPReceiver}
    (hrec : c.receiver.segmentReceived seg = .ok r) (hisn : r.isn.isSome = true) :
    ∃ c', c.segmentReceived seg = .ok c' ∧ c'.receiver = r ∧
      ∃ out ∈ c'.segmentsOut.drop c.segmentsOut.length,
        out.header.ack = true ∧ some out.header.ackno = c'.receiver.ackno := by
  have htracked := tracked_of_reach hr
  rcases c.segmentReceived_cases seg with ⟨h, -⟩ | ⟨-, h | h, -⟩ | ⟨-, -, -, heq⟩
  · rw [hrst] at h
    exact absurd h (by decide)
  · rw [hactive] at h
    exact absurd h (by decide)
  · rw [hignored] at h
    exact absurd h (by decide)
  · obtain ⟨c', hans⟩ := answer_returns (c := c.noted (c.acked seg) r) seg
      (htracked.acked seg).fillWindow_returns
    refine ⟨c', by rw [heq, hrec]; exact hans, ?_⟩
    obtain ⟨s', ha, rfl⟩ := answer_ok hans
    have hne : s'.segmentsOut ≠ [] := by
      rcases ha with ⟨hzero, -⟩ | ⟨t, -, -, hsome⟩
      · omega
      · exact hsome hlen
    obtain ⟨g, gs, hgs⟩ := List.exists_cons_of_ne_nil hne
    -- what the sender queued leaves in order, stamped by the receiver that has seen the segment
    have hout : ({ c.noted (c.acked seg) r with sender := s' }.sendAckIfNeed).segmentsOut.drop
        c.segmentsOut.length
        = s'.segmentsOut.map ({ c.noted (c.acked seg) r with sender := s' } : TCPConnection).stampAck :=
      List.drop_left
    refine ⟨rfl, _, ?_, stampAck_ackno (c := { c.noted (c.acked seg) r with sender := s' }) hisn g⟩
    rw [hout, hgs]
    exact List.mem_cons_self

/-- A byte of data right after the handshake. -/
theorem segment_acknowledged_data : ∃ c c' : TCPConnection, Reach Start step (fun _ _ => True) c ∧
    c.segmentReceived { header := { seqno := ⟨101⟩ }, payload := [97] } = .ok c' ∧
    ∃ out ∈ c'.segmentsOut.drop c.segmentsOut.length,
      out.header.ack = true ∧ some out.header.ackno = c'.receiver.ackno := by
  obtain ⟨c, hr, htest⟩ : ∃ c, Reach Start step (fun _ _ => True) c ∧ (c.active
      && !c.ignored { header := { seqno := ⟨101⟩ }, payload := [97] }
      && returns (c.receiver.segmentReceived { header := { seqno := ⟨101⟩ }, payload := [97] })
        (fun r => r.isn.isSome)) = true :=
    Reach.exec_any _ (s := new { recvCapacity := 8, sendCapacity := 8 } ⟨0⟩)
      (l := [.connect, .segmentReceived { header :=
        { seqno := ⟨100⟩, ackno := ⟨1⟩, syn := true, ack := true, win := 100 } }])
      (.start ⟨_, _, rfl⟩) (by decide +kernel)
  simp only [Bool.and_eq_true, Bool.not_eq_true'] at htest
  obtain ⟨⟨hactive, hignored⟩, hreturns⟩ := htest
  obtain ⟨r, hrec, hisn⟩ := returns_iff.mp hreturns
  obtain ⟨c', hc', -, hout⟩ := segment_acknowledged hr hactive
    { header := { seqno := ⟨101⟩ }, payload := [97] } rfl (by decide) hignored hrec hisn
  exact ⟨c, c', hr, hc', hout⟩

/-- **The lingering connection does not acknowledge data**: both streams have ended, the local FIN first,
and the peer, whose acknowledgments were lost, sends its byte again. -/
theorem lingering_ignores_data : ∃ (c c' : TCPConnection) (seg : TCPSegment) (r : TCPReceiver),
    Reach Start step (fun _ _ => True) c ∧ c.active = true ∧ seg.header.rst = false ∧
    0 < seg.lengthInSequenceSpace ∧ c.receiver.segmentReceived seg = .ok r ∧ r.isn.isSome = true ∧
    c.segmentReceived seg = .ok c' ∧ c'.segmentsOut.drop c.segmentsOut.length = [] := by
  obtain ⟨seg, hseg⟩ : ∃ seg : TCPSegment, seg = { payload := [97], header :=
      { seqno := ⟨101⟩, ackno := ⟨2⟩, ack := true, win := 100 } } := ⟨_, rfl⟩
  obtain ⟨c, hr, htest⟩ : ∃ c, Reach Start step (fun _ _ => True) c ∧ (c.active
      && returns (c.receiver.segmentReceived seg) (fun r => r.isn.isSome)
      && returns (c.segmentReceived seg)
        (fun c' => (c'.segmentsOut.drop c.segmentsOut.length).isEmpty)) = true := by
    subst hseg
    exact Reach.exec_any _ (s := new { recvCapacity := 8, sendCapacity := 8 } ⟨0⟩)
      (l := [.connect,
        .segmentReceived { header :=
          { seqno := ⟨100⟩, ackno := ⟨1⟩, syn := true, ack := true, win := 100 } },
        .endInputStream,
        .segmentReceived { payload := [97], header :=
          { seqno := ⟨101⟩, ackno := ⟨2⟩, ack := true, win := 100 } },
        .readInbound 1,
        .segmentReceived { header :=
          { seqno := ⟨102⟩, ackno := ⟨2⟩, fin := true, ack := true, win := 100 } }])
      (.start ⟨_, _, rfl⟩) (by decide +kernel)
  simp only [Bool.and_eq_true] at htest
  obtain ⟨⟨hactive, hreturns⟩, hout⟩ := htest
  obtain ⟨r, hrec, hisn⟩ := returns_iff.mp hreturns
  obtain ⟨c', hc', hempty⟩ := returns_iff.mp hout
  subst hseg
  exact ⟨c, c', _, r, hr, hactive, rfl, by decide, hrec, hisn, hc', List.isEmpty_iff.mp hempty⟩

/-- **A byte that is not acknowledged because the receiver throws.**  A SYN that comes again moves `_top_pointer`
back to 1, and the end of the window with it.  The front of the list then reaches beyond that end with another
fragment behind it, so what is left of the front is appended in the wrong place, and the next byte is looked up in
a list that is not sorted. -/
theorem resent_syn_throws : ∃ (c : TCPConnection) (seg : TCPSegment),
    Reach Start step (fun _ _ => True) c ∧ c.active = true ∧ seg.header.rst = false ∧
    0 < seg.lengthInSequenceSpace ∧ c.ignored seg = false ∧ c.receiver.isn.isSome = true ∧
    c.segmentReceived seg = .error (.outOfRange "basic_string::substr") := by
  obtain ⟨seg, hseg⟩ : ∃ seg : TCPSegment, seg = { header := { seqno := ⟨106⟩ }, payload := [6, 7] } := ⟨_, rfl⟩
  obtain ⟨c, hr, htest⟩ : ∃ c, Reach Start step (fun _ _ => True) c ∧ (c.active && !c.ignored seg
      && c.receiver.isn.isSome
      && decide (c.segmentReceived seg = .error (.outOfRange "basic_string::substr"))) = true := by
    subst hseg
    exact Reach.exec_any _ (s := new { recvCapacity := 9, sendCapacity := 8 } ⟨0⟩)
      (l := [.connect,
        .segmentReceived { header :=
          { seqno := ⟨100⟩, ackno := ⟨1⟩, syn := true, ack := true, win := 100 } },
        .segmentReceived { header := { seqno := ⟨109⟩ }, payload := [9] },
        .segmentReceived { header := { seqno := ⟨105⟩ }, payload := [5, 6, 7] },
        .segmentReceived { header := { seqno := ⟨101⟩ }, payload := [1, 2, 3] },
        .segmentReceived { header := { seqno := ⟨100⟩, syn := true } },
        .segmentReceived { header := { seqno := ⟨101⟩ }, payload := [1, 2, 3, 4] },
        .readInbound 1])
      (.start ⟨_, _, rfl⟩) (by decide +kernel)
  simp only [Bool.and_eq_true, Bool.not_eq_true', decide_eq_true_eq] at htest
  obtain ⟨⟨⟨hactive, hignored⟩, hisn⟩, hthrows⟩ := htest
  subst hseg
  exact ⟨c, _, hr, hactive, rfl, by decide, hignored, hisn, hthrows⟩

end TCPConnection

end Sponge
