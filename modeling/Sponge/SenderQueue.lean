/-
# `Sponge.SenderQueue` — the retransmission queue against arbitrary acknowledgments.

The queue stores 32-bit sequence numbers; `ack_received` recovers the 64-bit position of each queued
segment by unwrapping against `_next_seqno`.  What is in flight is far shorter than `2^31`, so the
recovered position is the true one (`Kept.unwrap_seqno`), whatever acknowledgments came before, as long
as the 64-bit counter itself has not overflowed.  An acknowledgment then removes exactly the segments
that it covers, and the in-flight counter cannot underflow.
-/
import Sponge.SenderHistory

namespace Sponge

open Sponge.Lib

namespace SenderRun

variable {s : TCPSender} {created : List TCPSegment}

/-- The number of created segments that have left the queue. -/
def departed (s : TCPSender) (created : List TCPSegment) : Nat := created.length - s.queued.length

theorem Kept.queued_eq (h : Kept s created) : s.queued = created.drop (departed s created) :=
  List.suffix_iff_eq_drop.mp h.queue

theorem Kept.queued_getElem? (h : Kept s created) (k : Nat) :
    s.queued[k]? = created[departed s created + k]? := by
  rw [h.queued_eq, List.getElem?_drop]

theorem Kept.departed_add (h : Kept s created) : departed s created + s.queued.length = created.length := by
  have hle := h.queue.length_le
  unfold departed
  omega

/-- The departed segments and those in flight make up the sequence space sent so far. -/
theorem Kept.space_departed (h : Kept s created) :
    TCPSender.space (created.take (departed s created)) + s.bytedInFlight = s.nextSeqno := by
  rw [h.inFlight, h.next, h.queued_eq]
  exact span_take_drop _ _

/-- **The stored number of a queued segment gives back its position.** -/
theorem Kept.unwrap_seqno (h : Kept s created) (h64 : s.nextSeqno < 2 ^ 64) {k : Nat} {seg : TCPSegment}
    (hk : departed s created ≤ k) (hseg : created[k]? = some seg) :
    unwrap seg.header.seqno s.isn s.nextSeqno = TCPSender.space (created.take k) := by
  rw [h.seqno_eq hseg]
  have hdep := h.space_departed
  have hmono : TCPSender.space (created.take (departed s created)) ≤ TCPSender.space (created.take k) :=
    span_take_mono _ hk
  have hsplit : TCPSender.space (created.take k) + TCPSender.space (created.drop k)
      = TCPSender.space created := span_take_drop _ _
  have hnext := h.next
  have hb := h.bounded
  exact unwrap_wrap s.isn (by omega) h64 (by omega) (by omega)

/-- Where the code takes a queued segment to end is where it ends. -/
theorem Kept.endOf_eq (h : Kept s created) (h64 : s.nextSeqno < 2 ^ 64) {k : Nat} {seg : TCPSegment}
    (hk : departed s created ≤ k) (hseg : created[k]? = some seg) :
    s.endOf seg = TCPSender.space (created.take (k + 1)) := by
  have hsucc : TCPSender.space (created.take (k + 1))
      = TCPSender.space (created.take k) + seg.lengthInSequenceSpace := span_take_succ hseg
  have hsplit : TCPSender.space (created.take (k + 1)) + TCPSender.space (created.drop (k + 1))
      = TCPSender.space created := span_take_drop _ _
  have hnext := h.next
  rw [TCPSender.endOf, h.unwrap_seqno h64 hk hseg, add64_of_lt (by omega), hsucc]

/-- **An accepted acknowledgment** removes the queued segments that end at or before it, and no other. -/
theorem Kept.ackReceived_removes (h : Kept s created) (h64 : s.nextSeqno < 2 ^ 64)
    (ackno : WrappingInt32) (windowSize : UInt16) (hle : unwrap ackno s.isn s.nextSeqno ≤ s.nextSeqno) :
    departed s created ≤ departed (s.ackReceived ackno windowSize) created ∧
    ∀ k, departed s created ≤ k → k < created.length →
      (k < departed (s.ackReceived ackno windowSize) created ↔
        TCPSender.space (created.take (k + 1)) ≤ unwrap ackno s.isn s.nextSeqno) := by
  rcases s.ackReceived_cases ackno windowSize with ⟨hgt, -⟩ | ⟨-, j, hp, -, hbefore, hafter⟩
  · omega
  generalize unwrap ackno s.isn s.nextSeqno = ackSeqno at hbefore hafter ⊢
  have hadd := h.departed_add
  have hlen : (s.ackReceived ackno windowSize).queued.length = s.queued.length - j := by
    rw [hp.queue, List.length_drop]
  have hj := hp.le
  have hdep : departed (s.ackReceived ackno windowSize) created = departed s created + j := by
    unfold departed at hadd ⊢
    omega
  rw [hdep]
  refine ⟨Nat.le_add_right _ _, fun k hk hkl => ⟨fun hlt => ?_, fun hend => ?_⟩⟩
  · -- popped: the loop compared its end with the acknowledgment
    obtain ⟨seg, hseg⟩ : ∃ seg, created[k]? = some seg := ⟨_, List.getElem?_eq_getElem hkl⟩
    rw [← h.endOf_eq h64 hk hseg]
    refine hbefore seg (List.mem_of_getElem? (i := k - departed s created) ?_)
    rw [List.getElem?_take_of_lt (by omega), h.queued_getElem?,
      Nat.add_sub_cancel' hk]
    exact hseg
  · -- kept: the segment at which the loop stopped ends later, and so do all after it
    by_contra hge
    have hjl : departed s created + j < created.length := by omega
    obtain ⟨seg, hseg⟩ : ∃ seg, created[departed s created + j]? = some seg :=
      ⟨_, List.getElem?_eq_getElem hjl⟩
    have hstop := hafter seg (by rw [h.queued_getElem?]; exact hseg)
    rw [h.endOf_eq h64 (Nat.le_add_right _ _) hseg] at hstop
    have hmono : TCPSender.space (created.take (departed s created + j + 1))
        ≤ TCPSender.space (created.take (k + 1)) := span_take_mono _ (by omega)
    omega

/-- The oldest position that is not acknowledged. -/
def unacked (s : TCPSender) : Nat := s.nextSeqno - s.bytedInFlight

theorem Kept.unacked_eq (h : Kept s created) :
    unacked s = TCPSender.space (created.take (departed s created)) := by
  have hdep := h.space_departed
  unfold unacked
  omega

/-- An accepted acknowledgment leaves the oldest unacknowledged position or moves it, and then not past
itself. -/
theorem Kept.unacked_ackReceived (h : Kept s created) (h64 : s.nextSeqno < 2 ^ 64)
    (ackno : WrappingInt32) (windowSize : UInt16) (hle : unwrap ackno s.isn s.nextSeqno ≤ s.nextSeqno) :
    unacked (s.ackReceived ackno windowSize) = unacked s ∨
    unacked (s.ackReceived ackno windowSize) ≤ unwrap ackno s.isn s.nextSeqno := by
  obtain ⟨hmono, hcovered⟩ := h.ackReceived_removes h64 ackno windowSize hle
  have hk' := h.ackReceived ackno windowSize
  generalize s.ackReceived ackno windowSize = s' at hk' hmono hcovered ⊢
  have hadd := hk'.departed_add
  rw [hk'.unacked_eq, h.unacked_eq]
  by_cases hsome : departed s created < departed s' created
  · -- the last segment removed ends at or before the acknowledgment
    have hlast := (hcovered (departed s' created - 1) (by omega) (by omega)).mp (by omega)
    rw [Nat.sub_add_cancel (by omega)] at hlast
    exact Or.inr hlast
  · rw [show departed s' created = departed s created by omega]
    exact Or.inl rfl

theorem kept_of_reach {ok : SenderRun → SenderCall → Prop} {h : SenderRun} (hr : Reach Start step ok h) :
    Kept h.sender h.created :=
  Reach.invariant (P := fun h : SenderRun => Kept h.sender h.created) (fun _ hstart => hstart.kept)
    (fun _ _ _ hk _ hs => hk.step hs) hr

/-- **The retransmission queue**, in every state of every run, while the sequence space sent fits the
64-bit counter.  The queue is what is left of the created segments after the first `m`; each queued
segment unwraps to its position, so the queue is contiguous and ends at `next_seqno_absolute`; the lengths
add up to `bytes_in_flight`.  An acknowledgment beyond the next sequence number changes nothing, any other
removes exactly the segments that it covers.  The first segment has left the queue iff the SYN flag is
set, and `fill_window` does not throw. -/
theorem retransmission_queue {h : SenderRun} (hr : Reach Start step (fun _ _ => True) h)
    (h64 : h.sender.nextSeqnoAbsolute < 2 ^ 64) :
    ∃ m ≤ h.created.length,
      h.sender.queued = h.created.drop m ∧
      h.sender.nextSeqnoAbsolute = TCPSender.space h.created ∧
      h.sender.bytesInFlight = TCPSender.space h.sender.queued ∧
      (∀ k seg, h.sender.queued[k]? = some seg →
        unwrap seg.header.seqno h.sender.isn h.sender.nextSeqno = TCPSender.space (h.created.take (m + k)) ∧
        TCPSender.space (h.created.take (m + k)) + TCPSender.space (h.sender.queued.drop k)
          = h.sender.nextSeqnoAbsolute) ∧
      (∀ ackno windowSize, h.sender.nextSeqno < unwrap ackno h.sender.isn h.sender.nextSeqno →
        h.sender.ackReceived ackno windowSize = h.sender) ∧
      (∀ ackno windowSize, unwrap ackno h.sender.isn h.sender.nextSeqno ≤ h.sender.nextSeqno →
        ∃ m', m ≤ m' ∧ m' ≤ h.created.length ∧
          (h.sender.ackReceived ackno windowSize).queued = h.created.drop m' ∧
          (∀ k, m ≤ k → k < h.created.length → (k < m' ↔
            TCPSender.space (h.created.take (k + 1)) ≤ unwrap ackno h.sender.isn h.sender.nextSeqno)) ∧
          (h.sender.ackReceived ackno windowSize).bytesInFlight
            + TCPSender.space ((h.created.take m').drop m) = h.sender.bytesInFlight) ∧
      (h.sender.isSynReceived = true ↔ 0 < m) ∧
      ∃ s', h.sender.fillWindow = .ok s' := by
  have hk := kept_of_reach hr
  have hadd := hk.departed_add
  refine ⟨departed h.sender h.created, by omega, hk.queued_eq, hk.next, hk.inFlight, ?_, ?_, ?_, ?_, ?_⟩
  · intro k seg hseg
    rw [hk.queued_getElem?] at hseg
    refine ⟨hk.unwrap_seqno h64 (Nat.le_add_right _ _) hseg, ?_⟩
    rw [hk.queued_eq, List.drop_drop]
    exact (span_take_drop _ _).trans hk.next.symm
  · intro ackno windowSize hgt
    rcases h.sender.ackReceived_cases ackno windowSize with ⟨-, heq⟩ | ⟨hle, -⟩
    · exact heq
    · omega
  · intro ackno windowSize hle
    have hk' := hk.ackReceived ackno windowSize
    obtain ⟨hmono, hcovered⟩ := hk.ackReceived_removes h64 ackno windowSize hle
    -- from here on only what is known of the new sender matters, not how it was computed
    generalize h.sender.ackReceived ackno windowSize = s' at hk' hmono hcovered ⊢
    have hadd' := hk'.departed_add
    refine ⟨_, hmono, by omega, hk'.queued_eq, hcovered, ?_⟩
    have hdep := hk.space_departed
    have hdep' := hk'.space_departed
    have hnext : s'.nextSeqno = h.sender.nextSeqno := hk'.next.trans hk.next.symm
    have hsplit : TCPSender.space ((h.created.take (departed s' h.created)).take (departed h.sender h.created))
        + TCPSender.space ((h.created.take (departed s' h.created)).drop (departed h.sender h.created))
        = TCPSender.space (h.created.take (departed s' h.created)) := span_take_drop _ _
    rw [List.take_take, Nat.min_eq_left hmono] at hsplit
    rw [TCPSender.bytesInFlight, TCPSender.bytesInFlight]
    omega
  · rw [hk.syn]
    unfold departed at hadd ⊢
    omega
  · obtain ⟨s', hs', -⟩ := hk.fillWindow
    exact ⟨s', hs'⟩

/-- Two data segments across the 32-bit wrap, the first of them acknowledged. -/
theorem retransmission_queue_two : ∃ h : SenderRun,
    Reach Start step (fun _ _ => True) h ∧ h.sender.nextSeqnoAbsolute < 2 ^ 64 ∧
    h.sender.bytesInFlight = 2 ∧ ∃ s', h.sender.fillWindow = .ok s' := by
  have hr : Reach Start step (fun _ _ => True) _ := Reach.exec_get
    (s := { sender := TCPSender.new 8 1000 (some ⟨4294967294⟩) ⟨0⟩ })
    (l := [.fillWindow, .ackReceived ⟨4294967295⟩ 9, .write [1], .fillWindow, .write [2, 3], .fillWindow,
      .ackReceived ⟨0⟩ 9, .ackReceived ⟨77⟩ 0])
    (.start ⟨8, 1000, some ⟨4294967294⟩, ⟨0⟩, rfl⟩) (by decide +kernel)
  obtain ⟨_, _, _, _, _, _, _, _, _, hfill⟩ := retransmission_queue hr (by decide +kernel)
  exact ⟨_, hr, by decide +kernel, by decide +kernel, hfill⟩

end SenderRun

end Sponge
