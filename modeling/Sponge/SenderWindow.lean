/-
# `Sponge.SenderWindow` — the sender and the advertised window edge.

An acknowledgment `a` with window `w` lets the peer's data run up to the edge `a + max 1 w`; the sender
should never pass the highest edge advertised so far.  The code keeps a window SIZE instead and measures
it from the oldest unacknowledged position, which goes wrong in two places:

* the first `fill_window` budgets the bytes and the FIN against the window but not the SYN, so a stream
  written before the handshake sends past the initial edge 1;
* an old acknowledgment, accepted after a newer one, overwrites the window and so reopens it from a later
  position than the one it was advertised for.

`withinEdge` excludes these two, by what is known before the call, and `window_edge_respected` shows that
nothing else can pass the edge.
-/
import Sponge.SenderQueue

namespace Sponge

open Sponge.Lib
open TCPConfig (MAX_PAYLOAD_SIZE)

/-- The number of segments that `n` bytes are cut into. -/
def TCPSender.pieces (n : Nat) : Nat := max 1 ((n + MAX_PAYLOAD_SIZE - 1) / MAX_PAYLOAD_SIZE)

theorem TCPSender.Batch.length_eq {isn : WrappingInt32} {syn fin : Bool} {n : Nat} {data : Bytes}
    {segs : List TCPSegment} (h : Batch isn syn fin n data segs) : segs.length = pieces data.length := by
  induction h with
  | @last _ data hle =>
    unfold pieces MAX_PAYLOAD_SIZE at *
    rw [List.length_singleton]
    omega
  | more hbig _ ih =>
    rw [List.length_drop] at ih
    rw [List.length_cons, ih]
    unfold pieces MAX_PAYLOAD_SIZE at *
    omega

namespace SenderRun

open TCPSender (Filled)

/-- The sequence space of a first batch: the bytes, a SYN on every piece, and the FIN. -/
def openingSpace (s : TCPSender) : Nat :=
  s.readable + TCPSender.pieces s.readable + (if s.finFlag then 1 else 0)

/-- The calls that keep to the edge: the batch that opens the connection fits the window with its SYNs
counted, and an accepted acknowledgment is not older than the oldest unacknowledged position, or brings a
window that does not reach past the edge from there. -/
def withinEdge (h : SenderRun) : SenderCall → Prop
  | .fillWindow => h.sender.isSynReceived = false → h.sender.segQueue = [] →
      openingSpace h.sender ≤ h.sender.windowSize
  | .ackReceived ackno windowSize =>
      unwrap ackno h.sender.isn h.sender.nextSeqno ≤ h.sender.nextSeqno →
        unacked h.sender ≤ unwrap ackno h.sender.isn h.sender.nextSeqno ∨
        unacked h.sender + max 1 windowSize.toNat ≤ h.edge
  | _ => True

instance (h : SenderRun) : DecidablePred (withinEdge h)
  | .fillWindow => inferInstanceAs (Decidable (_ = _ → _ = [] → _ ≤ _))
  | .ackReceived _ _ => inferInstanceAs (Decidable (_ ≤ _ → _ ≤ _ ∨ _ ≤ _))
  | .write _ | .endInput | .tick _ | .sendEmptySegment | .pop => isTrue trivial

/-- The invariant: the window, measured from the oldest unacknowledged position, ends at the edge or
before, and so does everything sent. -/
structure Edged (h : SenderRun) : Prop where
  kept : Kept h.sender h.created
  window : h.sender.nextSeqno < 2 ^ 64 → unacked h.sender + h.sender.windowSize ≤ h.edge
  sent : h.sender.nextSeqno < 2 ^ 64 → h.sender.nextSeqno ≤ h.edge

theorem Start.edged {h : SenderRun} (hstart : Start h) : Edged h := by
  have hkept := hstart.kept
  obtain ⟨capacity, retxTimeout, fixedIsn, random, rfl⟩ := hstart
  exact ⟨hkept, fun _ => Nat.le_refl 1, fun _ => Nat.zero_le 1⟩

/-- A call that leaves the counters, the window and the edge alone keeps the invariant. -/
theorem Edged.same {h h' : SenderRun} (he : Edged h) (hk : Kept h'.sender h'.created)
    (hnext : h'.sender.nextSeqno = h.sender.nextSeqno)
    (hflight : h'.sender.bytedInFlight = h.sender.bytedInFlight)
    (hwin : h'.sender.windowSize = h.sender.windowSize) (hedge : h'.edge = h.edge) : Edged h' := by
  refine ⟨hk, fun h64 => ?_, fun h64 => ?_⟩
  · rw [unacked, hnext, hflight, hwin, hedge]
    exact he.window (hnext ▸ h64)
  · rw [hnext, hedge]
    exact he.sent (hnext ▸ h64)

theorem Edged.fillWindow {h : SenderRun} {s' : TCPSender} (he : Edged h)
    (hok : withinEdge h .fillWindow) (hs : h.sender.fillWindow = .ok s') :
    Edged { h with sender := s', created := h.created ++ newSegments h.sender s' } := by
  have hkept := he.kept.fillWindow_kept hs
  rcases he.kept.fillWindow_ok hs with ⟨-, rfl | ⟨-, rfl⟩⟩ | hf
  · exact he.same hkept rfl rfl rfl rfl
  · exact he.same hkept rfl rfl rfl rfl
  · generalize newSegments h.sender s' = segs at hkept hf ⊢
    have hnext : s'.nextSeqno = h.sender.nextSeqno + TCPSender.space segs := by rw [hf.result]; rfl
    have hflight : s'.bytedInFlight = h.sender.bytedInFlight + TCPSender.space segs := by
      rw [hf.result]; rfl
    have hwin : s'.windowSize = h.sender.windowSize := by rw [hf.result]; rfl
    have hdep := he.kept.space_departed
    have hspace : h.sender.bytedInFlight + TCPSender.space segs ≤ h.sender.windowSize := by
      have hroom := hf.room
      have hfits := hf.data_fits
      rw [hf.space_eq]
      cases hsyn : h.sender.isSynReceived with
      | true =>
        rw [if_pos rfl]
        omega
      | false =>
        -- the opening batch, with a SYN on every piece
        have hopen := hok hsyn (hf.opening hsyn)
        have hzero : h.sender.bytedInFlight = 0 := by
          rw [he.kept.inFlight, TCPSender.queued, hf.opening hsyn]
          rfl
        have hread : (h.sender.stream.contents.take h.sender.readable).length = h.sender.readable :=
          List.length_take_of_le (Nat.min_le_right _ _)
        rw [hf.batch.length_eq, hread, hzero, if_neg (by simp)]
        unfold openingSpace at hopen
        omega
    refine ⟨hkept, fun h64 => ?_, fun h64 => ?_⟩
    all_goals
      dsimp only at h64 ⊢
      have hedge := he.window (by omega)
      unfold unacked at *
      omega

theorem Edged.ackReceived {h h' : SenderRun} (he : Edged h) {ackno : WrappingInt32} {windowSize : UInt16}
    (hok : withinEdge h (.ackReceived ackno windowSize))
    (hs : h.step (.ackReceived ackno windowSize) = .ok h') : Edged h' := by
  have hkept := he.kept.step hs
  obtain rfl := Except.ok.inj hs
  rcases h.sender.ackReceived_cases ackno windowSize with ⟨hgt, heq⟩ | ⟨hle, j, hp, hw, -, -⟩
  · refine he.same hkept ?_ ?_ ?_ (if_neg (by omega)) <;> dsimp only <;> rw [heq]
  · have hunacked := fun h64 => he.kept.unacked_ackReceived h64 ackno windowSize hle
    replace hok := hok hle
    generalize h.sender.ackReceived ackno windowSize = s' at hkept hp hw hunacked ⊢
    generalize unwrap ackno h.sender.isn h.sender.nextSeqno = ackSeqno at hle hok hunacked ⊢
    have hmax : s'.windowSize = max 1 windowSize.toNat := by
      rw [hw]
      split
      · rename_i hz
        rw [hz]
        rfl
      · rename_i hz
        have : windowSize.toNat ≠ 0 := fun h0 => hz (UInt16.toNat_inj.mp h0)
        omega
    have hedge : (if ackSeqno ≤ h.sender.nextSeqno then max h.edge (ackSeqno + max 1 windowSize.toNat)
        else h.edge) = max h.edge (ackSeqno + max 1 windowSize.toNat) := if_pos hle
    refine ⟨hkept, fun h64 => ?_, fun h64 => ?_⟩
    · dsimp only at h64 ⊢
      rw [hp.nextSeqno] at h64
      rw [hedge, hmax]
      -- what is left starts where it did, or at or before the acknowledgment
      rcases hunacked h64 with heq | hbefore
      · rw [heq]
        omega
      · omega
    · dsimp only at h64 ⊢
      rw [hp.nextSeqno] at h64 ⊢
      have hsent := he.sent h64
      rw [hedge]
      omega

/-- **One call keeps to the edge.** -/
theorem Edged.step {h h' : SenderRun} {call : SenderCall} (he : Edged h) (hok : withinEdge h call)
    (hs : h.step call = .ok h') : Edged h' := by
  have hkept := he.kept.step hs
  cases call with
  | fillWindow =>
    obtain ⟨s', hs', rfl⟩ := map_ok.mp hs
    exact he.fillWindow hok hs'
  | ackReceived ackno windowSize => exact he.ackReceived hok hs
  | tick ms =>
    obtain rfl := Except.ok.inj hs
    have ht := h.sender.tick_ticked ms
    exact he.same hkept ht.nextSeqno ht.inFlight ht.window rfl
  | write _ | endInput | sendEmptySegment | pop =>
    obtain rfl := Except.ok.inj hs
    exact he.same hkept rfl rfl rfl rfl

/-- **The window edge is respected** in every run whose calls are all `withinEdge`: every segment ever
created ends at or before the highest edge advertised so far. -/
theorem window_edge_respected {h : SenderRun} (hr : Reach Start step withinEdge h)
    (h64 : h.sender.nextSeqnoAbsolute < 2 ^ 64) :
    ∀ k seg, h.created[k]? = some seg →
      TCPSender.space (h.created.take k) + seg.lengthInSequenceSpace ≤ h.edge := by
  have he : Edged h := Reach.invariant (fun _ hstart => hstart.edged)
    (fun _ _ _ he hok hs => he.step hok hs) hr
  intro k seg hseg
  have hsucc : TCPSender.space (h.created.take (k + 1))
      = TCPSender.space (h.created.take k) + seg.lengthInSequenceSpace := span_take_succ hseg
  have hsplit : TCPSender.space (h.created.take (k + 1)) + TCPSender.space (h.created.drop (k + 1))
      = TCPSender.space h.created := span_take_drop _ _
  have hnext := he.kept.next
  have hsent := he.sent h64
  omega

/-- The handshake, three bytes into a window of two, and an acknowledgment that comes twice. -/
theorem window_edge_respected_two : ∃ h : SenderRun, Reach Start step withinEdge h ∧
    h.sender.nextSeqnoAbsolute < 2 ^ 64 ∧ ∃ seg, h.created[1]? = some seg ∧
    TCPSender.space (h.created.take 1) + seg.lengthInSequenceSpace ≤ h.edge := by
  have hr : Reach Start step withinEdge _ := Reach.exec_get
    (s := { sender := TCPSender.new 8 1000 (some ⟨7⟩) ⟨0⟩ })
    (l := [.fillWindow, .ackReceived ⟨8⟩ 2, .write [1, 2, 3], .fillWindow, .ackReceived ⟨9⟩ 1,
      .ackReceived ⟨8⟩ 2, .fillWindow])
    (.start ⟨8, 1000, some ⟨7⟩, ⟨0⟩, rfl⟩) (by decide +kernel)
  exact ⟨_, hr, by decide +kernel, TCPSender.stamp ⟨7⟩ 1 false false [1, 2], by decide +kernel,
    window_edge_respected hr (by decide +kernel) 1 _ (by decide +kernel)⟩

/-- **The edge is passed**: one byte written before the handshake goes out together with the SYN, which
then ends at 2 with the edge still at 1. -/
theorem syn_passes_edge : ∃ h : SenderRun, Reach Start step (fun _ _ => True) h ∧
    ∃ seg, h.created[0]? = some seg ∧
      h.edge < TCPSender.space (h.created.take 0) + seg.lengthInSequenceSpace := by
  have hr : Reach Start step (fun _ _ => True) _ := Reach.exec_get
    (s := { sender := TCPSender.new 8 1000 (some ⟨7⟩) ⟨0⟩ }) (l := [.write [1], .fillWindow])
    (.start ⟨8, 1000, some ⟨7⟩, ⟨0⟩, rfl⟩) (by decide +kernel)
  exact ⟨_, hr, TCPSender.stamp ⟨7⟩ 0 true false [1], by decide +kernel, by decide +kernel⟩

/-- The other way past the edge: the acknowledgment `1` with window 2 comes a second time after `2` with
window 1, and reopens two positions from 2 on. -/
theorem stale_ack_passes_edge : ∃ h : SenderRun, Reach Start step (fun _ _ => True) h ∧
    ∃ seg, h.created[2]? = some seg ∧
      h.edge < TCPSender.space (h.created.take 2) + seg.lengthInSequenceSpace := by
  have hr : Reach Start step (fun _ _ => True) _ := Reach.exec_get
    (s := { sender := TCPSender.new 8 1000 (some ⟨7⟩) ⟨0⟩ })
    (l := [.fillWindow, .ackReceived ⟨8⟩ 2, .write [1], .fillWindow, .ackReceived ⟨9⟩ 1,
      .ackReceived ⟨8⟩ 2, .write [2, 3], .fillWindow])
    (.start ⟨8, 1000, some ⟨7⟩, ⟨0⟩, rfl⟩) (by decide +kernel)
  exact ⟨_, hr, TCPSender.stamp ⟨7⟩ 2 false false [2, 3], by decide +kernel, by decide +kernel⟩

end SenderRun

end Sponge
