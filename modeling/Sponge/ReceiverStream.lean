/-
# `Sponge.ReceiverStream` — the receiver delivers the peer's stream.

The peer's stream `S` arrives cut into segments, byte `k` at sequence number `wrap (k + 1) isn`, in any
order and with repetition, after a SYN that carries nothing.  The reassembler then works in the index
space that starts at 1 (`Honest` with base 1), and as long as a segment lies within `2^31` of the bytes
already written its 32-bit sequence number has only one reading, so `unwrap` finds the index the sender
meant, however long the stream is.
-/
import Sponge.TcpReceiver

namespace Sponge

open Sponge.Lib

namespace TCPReceiver

open StreamReassembler (Honest)
open BufferStringList (EndsAt)

/-! ## The two kinds of segments -/

/-- The SYN's own sequence number has index 0. -/
theorem unwrap_self (isn : WrappingInt32) : unwrap isn isn 0 = 0 := by
  rw [unwrap_of_lt _ _ (by decide), WrappingInt32.minus, UInt32.sub_self]
  rfl

/-- The first SYN, without payload, and possibly a FIN: the stream starts behind it. -/
theorem segmentReceived_first_syn {r : TCPReceiver} (seg : TCPSegment) {capacity : Nat}
    (hisn : r.isn = none) (hre : r.reassembler = StreamReassembler.new capacity)
    (hsyn : seg.header.syn = true) (hdata : seg.payload = []) :
    r.segmentReceived seg = .ok (r.record seg { StreamReassembler.new capacity with
      topPointer := 1
      output := if seg.header.fin && decide (0 < capacity) then (ByteStream.new capacity).endInput
        else ByteStream.new capacity }) := by
  have hindex : unwrap seg.header.seqno seg.header.seqno (StreamReassembler.new capacity).topPointer
      = (StreamReassembler.new capacity).topPointer :=
    unwrap_self seg.header.seqno
  have hroom : (StreamReassembler.new capacity).currentCapactiy = capacity :=
    (StreamReassembler.Ordered.new capacity).currentCapactiy
  rw [segmentReceived_eq, if_neg (by simp [hsyn]), hisn, hre, pushBackWrapString, hdata]
  simp only [Option.getD_none, hsyn, List.length_nil, BEq.rfl, Bool.and_self, if_true, hindex]
  rw [StreamReassembler.pushSubstring_top rfl rfl _ (by simp [StreamReassembler.new]), hroom]
  cases capacity with
  | zero => simp [Except.map, StreamReassembler.new, add64]
  | succ n => simp [Except.map, StreamReassembler.new, add64, ByteStream.write]

/-- A later segment without SYN whose index is known is an honest push. -/
theorem segmentReceived_honest {f : Nat → Option UInt8} {fin : Option Nat} {base : Nat}
    {consumed : Bytes} {r : TCPReceiver} (seg : TCPSegment) {isn : WrappingInt32} {index : Nat}
    (h : Honest f fin base consumed r.reassembler) (hend : EndsAt f fin) (hisn : r.isn = some isn)
    (hsyn : seg.header.syn = false)
    (hindex : unwrap seg.header.seqno isn r.reassembler.topPointer = index)
    (hf : Agrees f index seg.payload)
    (hfin : seg.header.fin = true → fin = some (index + seg.payload.length))
    (hlt : index + seg.payload.length + 1 < 2 ^ 64) (htop : r.reassembler.topPointer + 1 < 2 ^ 64) :
    ∃ re, r.segmentReceived seg = .ok (r.record seg re) ∧ Honest f fin base consumed re ∧
      r.reassembler.pushSubstring seg.payload index seg.header.fin = .ok re := by
  obtain ⟨re, heq, hre⟩ := h.push hend hf hfin hlt htop
  exact ⟨re, segmentReceived_of_push_known seg hisn hsyn hindex heq, hre, heq⟩

/-- Behind a SYN without payload a new reassembler is honest from index 1 on. -/
theorem honest_behind_syn (f : Nat → Option UInt8) (fin : Option Nat) (capacity : Nat) :
    Honest f fin 1 [] { StreamReassembler.new capacity with topPointer := 1 } where
  ordered :=
    { out := ByteStream.WF.new capacity
      cap := rfl
      top := rfl
      sorted := BufferStringList.Sorted.nil
      above := by simp [StreamReassembler.new]
      window := Or.inl (by simp [StreamReassembler.new]) }
  content := BufferStringList.Content.nil f fin
  written := Agrees.nil f 1
  count := rfl
  ended := fun h => absurd h (by simp [StreamReassembler.new, ByteStream.new])

end TCPReceiver

/-! ## Runs over a fixed stream -/

/-- A receiver, the bytes its reader has taken, and whether the SYN has come. -/
structure ObservedReceiver where
  receiver : TCPReceiver
  consumed : Bytes := []
  synSeen : Bool := false

/-- The calls: a segment (for one that carries `S[k..k+n)`, with that position, which the code does not
see), or a read of `len` bytes. -/
inductive ReceiverCall where
  | segment (seg : TCPSegment) (k n : Nat)
  | read (len : Nat)

namespace ObservedReceiver

open ObservedReassembler (slice slice_length endsAt_placed)
open StreamReassembler (Honest)

def step (o : ObservedReceiver) : ReceiverCall → Except Exception ObservedReceiver
  | .segment seg _ _ =>
    (o.receiver.segmentReceived seg).map fun r =>
      { o with receiver := r, synSeen := o.synSeen || seg.header.syn }
  | .read len =>
    match o.receiver.streamOut.read len with
    | (output, .ok bytes) =>
      .ok { o with
        receiver := { o.receiver with reassembler := { o.receiver.reassembler with output := output } }
        consumed := o.consumed ++ bytes }
    | (_, .error e) => .error e

/-- Anything but a SYN, then a bare SYN at `isn`, then slices of `S` at their sequence numbers, a FIN only
on the last byte, and each within `2^31` of what has been written; reads of what is there. -/
def ok (S : Bytes) (isn : WrappingInt32) (o : ObservedReceiver) : ReceiverCall → Prop
  | .segment seg k n =>
    if o.synSeen then
      seg.header.syn = false ∧ k + n ≤ S.length ∧ seg.payload = slice S k (k + n) ∧
      seg.header.seqno = wrap (k + 1) isn ∧ (seg.header.fin = true → k + n = S.length) ∧
      k < o.receiver.streamOut.bytesWritten + 2 ^ 31 ∧ o.receiver.streamOut.bytesWritten < k + 2 ^ 31
    else
      seg.header.syn = false ∨ (seg.payload = [] ∧ seg.header.fin = false ∧ seg.header.seqno = isn)
  | .read len => len ≤ o.receiver.streamOut.bufferSize

/-- The states of all such runs. -/
def Reachable (S : Bytes) (isn : WrappingInt32) (capacity : Nat) : ObservedReceiver → Prop :=
  Reach (fun o => o = { receiver := TCPReceiver.new capacity }) step (ok S isn)

/-- Every byte ever written to the stream. -/
def written (o : ObservedReceiver) : Bytes :=
  o.consumed ++ o.receiver.streamOut.peeked o.receiver.streamOut.bufferSize

/-- Before the SYN nothing has happened; after it the reassembler is honest from index 1 on. -/
def Inv (S : Bytes) (isn : WrappingInt32) (capacity : Nat) (o : ObservedReceiver) : Prop :=
  o.receiver.reassembler.capacity = capacity ∧
  if o.synSeen then
    o.receiver.isn = some isn ∧
    Honest (placed 1 S) (some (1 + S.length)) 1 o.consumed o.receiver.reassembler
  else
    o.receiver.isn = none ∧ o.receiver.reassembler = StreamReassembler.new capacity ∧ o.consumed = []

variable {S : Bytes} {isn : WrappingInt32} {capacity : Nat} {o : ObservedReceiver}

theorem written_le {consumed : Bytes} {r : StreamReassembler}
    (h : Honest (placed 1 S) (some (1 + S.length)) 1 consumed r) :
    r.output.bytesWirtten ≤ S.length := by
  rw [← h.written_length]
  exact h.written.eq_take.2

theorem step_segment {seg : TCPSegment} {r : TCPReceiver} (h : o.receiver.segmentReceived seg = .ok r)
    (k n : Nat) : o.step (.segment seg k n) = .ok { o with
      receiver := r
      synSeen := o.synSeen || seg.header.syn } := by
  rw [step, h]
  rfl

theorem step_read {len : Nat} {output : ByteStream} {bytes : Bytes}
    (h : o.receiver.streamOut.read len = (output, .ok bytes)) :
    o.step (.read len) = .ok { o with
      receiver := { o.receiver with reassembler := { o.receiver.reassembler with output := output } }
      consumed := o.consumed ++ bytes } := by
  rw [step, h]

/-- Before the SYN every segment but a SYN is dropped; a bare SYN opens the stream. -/
theorem Inv.segment_before (h : o.Inv S isn capacity) (hseen : o.synSeen = false) {seg : TCPSegment}
    {k n : Nat} (hok : o.ok S isn (.segment seg k n)) :
    ∃ o', o.step (.segment seg k n) = .ok o' ∧ o'.Inv S isn capacity := by
  obtain ⟨hcap, h⟩ := h
  rw [hseen] at h
  obtain ⟨hisn, hre, hcons⟩ := h
  simp only [ok, hseen, Bool.false_eq_true, if_false] at hok
  by_cases hsyn : seg.header.syn = true
  · obtain ⟨hdata, hfin, hseq⟩ := hok.resolve_left (by simp [hsyn])
    have heq := TCPReceiver.segmentReceived_first_syn seg hisn hre hsyn hdata
    rw [hfin, Bool.false_and] at heq
    refine ⟨_, step_segment heq k n, rfl, ?_⟩
    simp only [hsyn, Bool.or_true, if_true, TCPReceiver.record_isn, TCPReceiver.record_reassembler, hisn,
      hseq, Option.getD_none, hcons, true_and]
    exact TCPReceiver.honest_behind_syn _ _ capacity
  · have hsyn : seg.header.syn = false := eq_false_of_ne_true hsyn
    have heq : o.receiver.segmentReceived seg = .ok o.receiver := by
      rw [TCPReceiver.segmentReceived_eq, if_pos ⟨hisn, hsyn⟩]
    refine ⟨_, step_segment heq k n, hcap, ?_⟩
    simp only [hseen, hsyn, Bool.or_self, Bool.false_eq_true, if_false]
    exact ⟨hisn, hre, hcons⟩

/-- After the SYN a slice of the stream is pushed where the sender meant it. -/
theorem Inv.segment_after (hS : S.length < 2 ^ 63) (h : o.Inv S isn capacity)
    (hseen : o.synSeen = true) {seg : TCPSegment} {k n : Nat} (hok : o.ok S isn (.segment seg k n)) :
    ∃ o', o.step (.segment seg k n) = .ok o' ∧ o'.Inv S isn capacity := by
  obtain ⟨hcap, h⟩ := h
  rw [hseen] at h
  obtain ⟨hisn, hre⟩ := h
  simp only [ok, hseen, if_true] at hok
  obtain ⟨hsyn, hkn, hdata, hseq, hfin, hnear1, hnear2⟩ := hok
  have htop := hre.ordered.top
  have hle := written_le hre
  have hlen : seg.payload.length = n := by
    rw [hdata, slice_length (by omega) hkn]
    omega
  have hbw : o.receiver.streamOut.bytesWritten = o.receiver.reassembler.output.bytesWirtten := rfl
  have hindex : unwrap seg.header.seqno isn o.receiver.reassembler.topPointer = 1 + k := by
    rw [hseq, unwrap_wrap isn (by omega) (by omega) (by omega) (by omega), Nat.add_comm]
  obtain ⟨re, heq, hre', hpush⟩ := TCPReceiver.segmentReceived_honest seg hre (endsAt_placed 1 S) hisn hsyn
    hindex (by rw [hdata]; exact agrees_slice 1 S k _)
    (by intro he; rw [hlen, ← hfin he, Option.some.injEq]; omega) (by omega) (by omega)
  refine ⟨_, step_segment heq k n, ?_, ?_⟩
  · exact (StreamReassembler.pushSubstring_frame hpush).1.trans hcap
  · simp only [hseen, Bool.true_or, if_true, TCPReceiver.record_isn, hisn, Option.getD_some,
      TCPReceiver.record_reassembler, true_and]
    exact hre'

/-- Every admitted call returns and keeps the invariant. -/
theorem Inv.step (hS : S.length < 2 ^ 63) (h : o.Inv S isn capacity) {c : ReceiverCall}
    (hok : o.ok S isn c) : ∃ o', o.step c = .ok o' ∧ o'.Inv S isn capacity := by
  cases c with
  | segment seg k n =>
    cases hseen : o.synSeen with
    | false => exact h.segment_before hseen hok
    | true => exact h.segment_after hS hseen hok
  | read len =>
    obtain ⟨hcap, h⟩ := h
    cases hseen : o.synSeen with
    | false =>
      rw [hseen] at h
      obtain ⟨hisn, hre, hcons⟩ := h
      have hout : o.receiver.streamOut = ByteStream.new capacity := by
        rw [TCPReceiver.streamOut, hre]
        rfl
      obtain rfl : len = 0 := by
        rw [ok, hout] at hok
        exact Nat.le_zero.mp hok
      have hread : o.receiver.streamOut.read 0 = (o.receiver.streamOut, .ok []) := by
        rw [hout]
        rfl
      refine ⟨_, step_read hread, hcap, ?_⟩
      simp only [hseen, Bool.false_eq_true, if_false, List.append_nil]
      refine ⟨hisn, ?_, hcons⟩
      rw [hout, hre]
      rfl
    | true =>
      rw [hseen] at h
      rw [ok, TCPReceiver.streamOut, h.2.ordered.out.bufferSize] at hok
      obtain ⟨hread, hhonest⟩ := h.2.take hS hok
      refine ⟨_, step_read hread, hcap, ?_⟩
      simp only [hseen, if_true]
      exact ⟨h.1, hhonest⟩

theorem Reachable.inv (hS : S.length < 2 ^ 63) (hr : Reachable S isn capacity o) :
    o.Inv S isn capacity := by
  refine Reach.invariant ?_ ?_ hr
  · rintro o rfl
    exact ⟨rfl, rfl, rfl, rfl⟩
  · intro o c o' h hok hs
    obtain ⟨o'', hs', h'⟩ := h.step hS hok
    obtain rfl : o'' = o' := Except.ok.inj (hs'.symm.trans hs)
    exact h'

/-- **The receiver delivers the right stream.** For every ISN, capacity and stream, in every state of
every admitted run: each further admitted call returns; the bytes written are `S` up to their number; the
stream ends only after all of `S`; the acknowledgment number counts the SYN, the bytes written and the
end; and the window is the free part of the capacity. -/
theorem receiver_delivers (hS : S.length < 2 ^ 63) (hr : Reachable S isn capacity o) :
    (∀ c, o.ok S isn c → ∃ o', o.step c = .ok o') ∧
    o.written <+: S ∧ o.written.length = o.receiver.streamOut.bytesWritten ∧
    (o.receiver.streamOut.inputEnded = true → o.written = S) ∧
    o.receiver.ackno = (if o.synSeen then some (wrap (1 + o.receiver.streamOut.bytesWritten +
      if o.receiver.streamOut.inputEnded then 1 else 0) isn) else none) ∧
    o.receiver.windowSize = capacity - o.receiver.streamOut.bufferSize := by
  refine ⟨fun c hok => ?_, ?_⟩
  · obtain ⟨o', hs, _⟩ := (hr.inv hS).step hS hok
    exact ⟨o', hs⟩
  obtain ⟨hcap, h⟩ := hr.inv hS
  cases hseen : o.synSeen with
  | false =>
    rw [hseen] at h
    obtain ⟨hisn, hre, hcons⟩ := h
    have hout : o.receiver.streamOut = ByteStream.new capacity := by
      rw [TCPReceiver.streamOut, hre]
      rfl
    have hnil : o.written = [] := by
      rw [written, hcons, hout]
      rfl
    rw [hnil, hout, TCPReceiver.ackno_eq_none hisn, TCPReceiver.windowSize, hre]
    exact ⟨List.nil_prefix, rfl, fun he => absurd he (by simp [ByteStream.inputEnded, ByteStream.new]),
      rfl, (StreamReassembler.Ordered.new capacity).currentCapactiy⟩
  | true =>
    rw [hseen] at h
    obtain ⟨hisn, hre⟩ := h
    have hw : o.written = S.take o.receiver.reassembler.output.bytesWirtten := by
      rw [written, TCPReceiver.streamOut, hre.ordered.out.peeked_bufferSize, ← hre.written_length]
      exact hre.written.eq_take.1
    refine ⟨?_, ?_, fun he => ?_, ?_, ?_⟩
    · rw [hw]
      exact List.take_prefix _ _
    · rw [hw, List.length_take]
      exact Nat.min_eq_left (written_le hre)
    · have hend := hre.ended he
      rw [hre.ordered.top, Option.some.injEq] at hend
      rw [hw, List.take_of_length_le (by omega)]
    · rw [TCPReceiver.ackno_eq hisn, if_pos rfl]
    · rw [TCPReceiver.windowSize, TCPReceiver.streamOut, hre.ordered.currentCapactiy,
        hre.ordered.out.bufferSize, hcap]

instance (S : Bytes) (isn : WrappingInt32) (o : ObservedReceiver) (c : ReceiverCall) :
    Decidable (o.ok S isn c) :=
  match c with
  | .segment _ _ _ => inferInstanceAs (Decidable (ite _ _ _))
  | .read len => inferInstanceAs (Decidable (len ≤ o.receiver.streamOut.bufferSize))

/-- An ISN just below the wrap: the second byte and the FIN first, then both bytes. -/
theorem receiver_delivers_wrap : ∃ o : ObservedReceiver,
    Reachable [7, 8] ⟨4294967295⟩ 4 o ∧ o.written <+: [7, 8] ∧
    o.receiver.ackno = some ⟨3⟩ ∧ o.receiver.streamOut.inputEnded = true := by
  have hr : Reachable [7, 8] ⟨4294967295⟩ 4 _ := Reach.of_exec
    (s := { receiver := TCPReceiver.new 4 })
    (l := [.segment { header := { ack := true } } 0 0,
      .segment { header := { seqno := ⟨4294967295⟩, syn := true } } 0 0,
      .segment { header := { seqno := ⟨1⟩, fin := true }, payload := [8] } 1 1,
      .segment { header := { seqno := ⟨0⟩ }, payload := [7, 8] } 0 2]) (.start rfl) rfl
  exact ⟨_, hr, (receiver_delivers (by decide) hr).2.1, rfl, rfl⟩

end ObservedReceiver

end Sponge
