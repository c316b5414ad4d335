/-
# `Sponge.TcpReceiver` — the receiving half of an endpoint.

Models `libsponge/tcp_receiver.{hh,cc}`.  The receiver records the first SYN's and the first FIN's
sequence numbers, turns each later sequence number into a stream index near `_top_pointer`, and pushes
the payload there.  The index of the SYN is 0 and payload byte `k` has index `k + 1`, so after a SYN
without payload the receiver moves `_top_pointer` past the SYN by hand.

`segmentReceived_eq` collapses the three pushing branches: whichever is taken, the end mark handed to the
reassembler is the segment's own FIN flag.
-/
import Sponge.TcpSegment
import Sponge.ReassemblerStream

namespace Sponge

open Sponge.Lib

/-! ## The source functions -/

/-- `TCPReceiver`. -/
structure TCPReceiver where
  reassembler : StreamReassembler
  capacity : Nat
  isn : Option WrappingInt32 := none
  fsn : Option WrappingInt32 := none
  deriving DecidableEq, Repr

namespace TCPReceiver

/-- `TCPReceiver(capacity)`. -/
def new (capacity : Nat) : TCPReceiver :=
  { reassembler := StreamReassembler.new capacity, capacity := capacity }

/-- `tcp_receiver::push_back_wrap_string`. -/
def pushBackWrapString (seg : TCPSegment) (isn : WrappingInt32) (data : Bytes)
    (reassembler : StreamReassembler) (eof : Bool) : Except Exception StreamReassembler :=
  let index := unwrap seg.header.seqno isn reassembler.topPointer
  -- only a bare SYN moves the pointer past itself; one with data is pushed at its own index
  if seg.header.syn && data.length == 0 then
    (reassembler.pushSubstring data index eof).map fun reassembler =>
      { reassembler with topPointer := add64 index 1 }
  else
    reassembler.pushSubstring data index eof

/-- `TCPReceiver::segment_received`. -/
def segmentReceived (r : TCPReceiver) (seg : TCPSegment) : Except Exception TCPReceiver :=
  if r.isn.isNone && !seg.header.syn then .ok r
  else
    let r := if seg.header.syn && r.isn.isNone then { r with isn := some seg.header.seqno } else r
    let r := if seg.header.fin && r.fsn.isNone then { r with fsn := some seg.header.seqno } else r
    match r.isn with
    | none => .ok r
    | some isn =>
      if r.fsn.isNone then
        (pushBackWrapString seg isn seg.payload r.reassembler false).map fun reassembler =>
          { r with reassembler := reassembler }
      else if seg.header.fin then
        (pushBackWrapString seg isn seg.payload r.reassembler true).map fun reassembler =>
          { r with reassembler := reassembler }
      else
        (pushBackWrapString seg isn seg.payload r.reassembler false).map fun reassembler =>
          { r with reassembler := reassembler }

def streamOut (r : TCPReceiver) : ByteStream := r.reassembler.output

/-- `TCPReceiver::ackno`. -/
def ackno (r : TCPReceiver) : Option WrappingInt32 :=
  r.isn.map fun isn =>
    let result := (wrap r.streamOut.bytesWritten isn).plus 1
    if r.streamOut.inputEnded then result.plus 1 else result

def windowSize (r : TCPReceiver) : Nat := r.reassembler.currentCapactiy

def unassembledBytes (r : TCPReceiver) : Nat := r.reassembler.unassembledBytes

/-! ## One segment -/

/-- The receiver after a segment has been taken in, given the new reassembler. -/
def record (r : TCPReceiver) (seg : TCPSegment) (reassembler : StreamReassembler) : TCPReceiver :=
  { r with
    reassembler := reassembler
    isn := some (r.isn.getD seg.header.seqno)
    fsn := if seg.header.fin then some (r.fsn.getD seg.header.seqno) else r.fsn }

/-- **`segment_received` in one equation.** Before the SYN everything else is dropped; from then on the
payload is pushed with the FIN flag as its end mark. -/
theorem segmentReceived_eq (r : TCPReceiver) (seg : TCPSegment) :
    r.segmentReceived seg =
      if r.isn = none ∧ seg.header.syn = false then .ok r
      else (pushBackWrapString seg (r.isn.getD seg.header.seqno) seg.payload r.reassembler
        seg.header.fin).map (r.record seg) := by
  have hrec : r.record seg = fun reassembler => { r with
      reassembler := reassembler
      isn := some (r.isn.getD seg.header.seqno)
      fsn := if seg.header.fin then some (r.fsn.getD seg.header.seqno) else r.fsn } := rfl
  rw [hrec]
  obtain ⟨re, cap, isn, fsn⟩ := r
  cases isn <;> cases fsn <;> cases hs : seg.header.syn <;> cases hf : seg.header.fin <;>
    simp [segmentReceived, hs, hf]

/-- A segment with the ISN known, or with the SYN that makes it known, is one push, unless it is a bare
SYN. -/
theorem segmentReceived_of_push {r : TCPReceiver} (seg : TCPSegment) {isn : WrappingInt32} {index : Nat}
    {re : StreamReassembler} (hisn : r.isn.getD seg.header.seqno = isn)
    (hknown : r.isn ≠ none ∨ seg.header.syn = true) (hbare : seg.header.syn = false ∨ seg.payload ≠ [])
    (hindex : unwrap seg.header.seqno isn r.reassembler.topPointer = index)
    (hpush : r.reassembler.pushSubstring seg.payload index seg.header.fin = .ok re) :
    r.segmentReceived seg = .ok (r.record seg re) := by
  have hdrop : ¬ (r.isn = none ∧ seg.header.syn = false) := by
    rintro ⟨hnone, hsyn⟩
    rcases hknown with h | h
    · exact h hnone
    · rw [hsyn] at h
      exact absurd h (by decide)
  have hbare' : (seg.header.syn && seg.payload.length == 0) = false := by
    rcases hbare with h | h
    · rw [h, Bool.false_and]
    · rw [beq_eq_false_iff_ne.mpr (by simpa using h), Bool.and_false]
  rw [segmentReceived_eq, if_neg hdrop, pushBackWrapString, hisn]
  simp only [hbare', Bool.false_eq_true, if_false, hindex, hpush]
  rfl

/-- The usual case: the ISN is known and there is no SYN. -/
theorem segmentReceived_of_push_known {r : TCPReceiver} (seg : TCPSegment) {isn : WrappingInt32}
    {index : Nat} {re : StreamReassembler} (hisn : r.isn = some isn) (hsyn : seg.header.syn = false)
    (hindex : unwrap seg.header.seqno isn r.reassembler.topPointer = index)
    (hpush : r.reassembler.pushSubstring seg.payload index seg.header.fin = .ok re) :
    r.segmentReceived seg = .ok (r.record seg re) :=
  segmentReceived_of_push seg (by rw [hisn, Option.getD_some]) (Or.inl (by simp [hisn])) (Or.inl hsyn)
    hindex hpush

/-- A push, after which at most `_top_pointer` is set anew. -/
theorem pushBackWrapString_ok {seg : TCPSegment} {isn : WrappingInt32} {data : Bytes}
    {re re' : StreamReassembler} {eof : Bool} (h : pushBackWrapString seg isn data re eof = .ok re') :
    ∃ index top re₁, re.pushSubstring data index eof = .ok re₁ ∧ re' = { re₁ with topPointer := top } := by
  unfold pushBackWrapString at h
  generalize unwrap seg.header.seqno isn re.topPointer = index at h
  by_cases hbare : (seg.header.syn && data.length == 0) = true
  · rw [if_pos hbare] at h
    obtain ⟨re₁, hpush, rfl⟩ := map_ok.mp h
    exact ⟨index, _, re₁, hpush, rfl⟩
  · rw [if_neg hbare] at h
    exact ⟨index, _, re', h, rfl⟩

/-- **Whatever arrives**, the segment is dropped, or it is pushed and recorded. -/
theorem segmentReceived_ok {r r' : TCPReceiver} {seg : TCPSegment} (h : r.segmentReceived seg = .ok r') :
    r' = r ∨ ∃ index top re, r.reassembler.pushSubstring seg.payload index seg.header.fin = .ok re ∧
      r' = r.record seg { re with topPointer := top } := by
  rw [segmentReceived_eq] at h
  split at h
  · exact Or.inl (Except.ok.inj h).symm
  · obtain ⟨re, hwrap, rfl⟩ := map_ok.mp h
    obtain ⟨index, top, re₁, hpush, rfl⟩ := pushBackWrapString_ok hwrap
    exact Or.inr ⟨index, top, re₁, hpush, rfl⟩

/-- The output is only written to and ended. -/
theorem segmentReceived_keeps {P : ByteStream → Prop} (hwrite : ∀ o data, P o → P (o.write data).2)
    (hend : ∀ o, P o → P o.endInput) {r r' : TCPReceiver} {seg : TCPSegment} (hp : P r.streamOut)
    (h : r.segmentReceived seg = .ok r') :
    r'.reassembler.capacity = r.reassembler.capacity ∧ P r'.streamOut := by
  rcases segmentReceived_ok h with rfl | ⟨index, top, re, hpush, rfl⟩
  · exact ⟨rfl, hp⟩
  · have hkeeps := StreamReassembler.pushSubstring_keeps hwrite hend hp hpush
    exact hkeeps

/-- The output only grows, and a known ISN stays. -/
theorem segmentReceived_grown {r r' : TCPReceiver} {seg : TCPSegment} (h : r.segmentReceived seg = .ok r') :
    StreamReassembler.Grown r.streamOut r'.streamOut ∧ (r.isn.isSome = true → r'.isn = r.isn) := by
  refine ⟨(segmentReceived_keeps (fun _ data hg => hg.write data) (fun _ hg => hg.endInput)
    (StreamReassembler.Grown.refl _) h).2, fun hisn => ?_⟩
  rcases segmentReceived_ok h with rfl | ⟨index, top, re, -, rfl⟩
  · rfl
  · obtain ⟨isn, hisn⟩ := Option.isSome_iff_exists.mp hisn
    show some (r.isn.getD _) = r.isn
    rw [hisn, Option.getD_some]

/-- The acknowledgment number is the position after the written bytes, counting the SYN and, once the
output has ended, the FIN. -/
theorem ackno_eq {r : TCPReceiver} {isn : WrappingInt32} (h : r.isn = some isn) :
    r.ackno = some (wrap (1 + r.streamOut.bytesWritten + if r.streamOut.inputEnded then 1 else 0) isn) := by
  have h1 : (1 : UInt32).toNat = 1 := rfl
  rw [ackno, h, Option.map_some, Option.some.injEq]
  simp only [wrap_plus, h1]
  split
  · rw [Nat.add_comm 1]
  · rw [Nat.add_comm 1, Nat.add_zero]

theorem ackno_eq_none {r : TCPReceiver} (h : r.isn = none) : r.ackno = none := by
  rw [ackno, h, Option.map_none]

/-- The unread output, the acknowledgment number and the window see only the recorded ISN and the
reassembler. -/
@[simp] theorem record_reassembler (r : TCPReceiver) (seg : TCPSegment) (re : StreamReassembler) :
    (r.record seg re).reassembler = re := rfl

@[simp] theorem record_isn (r : TCPReceiver) (seg : TCPSegment) (re : StreamReassembler) :
    (r.record seg re).isn = some (r.isn.getD seg.header.seqno) := rfl

/-! ## Progress -/

/-- The position that the receiver acknowledges: 0 before the SYN, then one more than the bytes written,
and one more for the end. -/
def acknowledged (r : TCPReceiver) : Nat :=
  if r.isn.isSome then 1 + r.streamOut.bytesWritten + (if r.streamOut.inputEnded then 1 else 0) else 0

theorem ackno_acknowledged {r : TCPReceiver} {isn : WrappingInt32} (h : r.isn = some isn) :
    r.ackno = some (wrap r.acknowledged isn) ∧ 1 ≤ r.acknowledged := by
  rw [acknowledged, if_pos (by simp [h])]
  exact ⟨ackno_eq h, by omega⟩

/-- `r'` is `r` some time later. -/
structure Later (r r' : TCPReceiver) : Prop where
  written : r.streamOut.bytesWritten ≤ r'.streamOut.bytesWritten
  ended : r.streamOut.inputEnded = true → r'.streamOut.inputEnded = true
  isn : r.isn.isSome = true → r'.isn = r.isn

theorem Later.refl (r : TCPReceiver) : Later r r := ⟨Nat.le_refl _, id, fun _ => rfl⟩

theorem Later.segmentReceived {r r' : TCPReceiver} {seg : TCPSegment} (h : r.segmentReceived seg = .ok r') :
    Later r r' :=
  ⟨(segmentReceived_grown h).1.written, (segmentReceived_grown h).1.ended, (segmentReceived_grown h).2⟩

theorem Later.acknowledged_le {r r' : TCPReceiver} (h : Later r r') : r.acknowledged ≤ r'.acknowledged := by
  have hw := h.written
  unfold acknowledged
  by_cases hisn : r.isn.isSome = true
  · rw [if_pos hisn, h.isn hisn, if_pos hisn]
    by_cases hend : r.streamOut.inputEnded = true
    · rw [if_pos hend, if_pos (h.ended hend)]
      omega
    · rw [if_neg hend]
      omega
  · rw [if_neg hisn]
    exact Nat.zero_le _

end TCPReceiver

end Sponge
