/-
# `Sponge.ReceiverSyn` — a SYN that carries payload.

The receiver accepts a SYN with payload and pushes that payload at index 0, while every other segment's
byte `k` has index `k + 1`.  `_top_pointer` is moved past the SYN only when the payload is empty.  So the
receiver that got the payload inside the SYN ends up one index behind the receiver that got it in the
next segment, with the same bytes in its output: its next expected index belongs to the last byte it
already has.

The shift is invisible exactly when nothing can be written any more.  With an empty payload the two
receivers agree; with a payload that fills the capacity every later segment is dropped by both; in all
other cases one honest segment tells them apart.
-/
import Sponge.ReceiverStream

namespace Sponge

open Sponge.Lib

namespace TCPReceiver

open ObservedReassembler (slice slice_length endsAt_placed)
open StreamReassembler (Honest)

/-- The segments, one after the other. -/
def receiveAll (r : TCPReceiver) (segs : List TCPSegment) : Except Exception TCPReceiver :=
  segs.foldlM segmentReceived r

/-- The output bytes, `ackno()`, `unassembled_bytes()` and `input_ended()`. -/
def observables (r : TCPReceiver) : Bytes × Option WrappingInt32 × Nat × Bool :=
  (r.streamOut.peeked r.streamOut.bufferSize, r.ackno, r.unassembledBytes, r.streamOut.inputEnded)

/-- The SYN at `isn` with payload `p`. -/
def synSegment (isn : WrappingInt32) (p : Bytes) (fin : Bool) : TCPSegment :=
  { header := { seqno := isn, syn := true, fin := fin }, payload := p }

/-- The payload `p` in the segment behind the SYN. -/
def firstSegment (isn : WrappingInt32) (p : Bytes) (fin : Bool) : TCPSegment :=
  { header := { seqno := isn.plus 1, fin := fin }, payload := p }

/-- A segment without SYN cut from the stream `S`, byte `k` at sequence number `isn + 1 + k`. -/
def CutFrom (S : Bytes) (isn : WrappingInt32) (seg : TCPSegment) : Prop :=
  ∃ k n, k + n ≤ S.length ∧ seg.payload = slice S k (k + n) ∧ seg.header.seqno = wrap (k + 1) isn ∧
    seg.header.syn = false ∧ (seg.header.fin = true → k + n = S.length)

theorem receiveAll_cons {r r' : TCPReceiver} {seg : TCPSegment} (h : r.segmentReceived seg = .ok r')
    (segs : List TCPSegment) : r.receiveAll (seg :: segs) = r'.receiveAll segs := by
  rw [receiveAll, List.foldlM_cons, h]
  rfl

/-! ## Only the reassembler and the ISN are observed -/

theorem observables_congr {r r' : TCPReceiver}
    (hout : r.reassembler.output = r'.reassembler.output)
    (hlist : r.reassembler.bufferList = r'.reassembler.bufferList) (hisn : r.isn = r'.isn) :
    observables r = observables r' := by
  obtain ⟨⟨_, out, _, list⟩, _, isn, _⟩ := r
  obtain ⟨⟨_, out', _, list'⟩, _, isn', _⟩ := r'
  obtain rfl : out = out' := hout
  obtain rfl : list = list' := hlist
  obtain rfl : isn = isn' := hisn
  rfl

theorem receiveAll_congr {r r' : TCPReceiver} (hre : r.reassembler = r'.reassembler)
    (hisn : r.isn = r'.isn) (segs : List TCPSegment) :
    (r.receiveAll segs).map observables = (r'.receiveAll segs).map observables := by
  induction segs generalizing r r' with
  | nil => exact congrArg Except.ok (observables_congr (by rw [hre]) (by rw [hre]) hisn)
  | cons seg segs ih =>
    rw [receiveAll, receiveAll, List.foldlM_cons, List.foldlM_cons, segmentReceived_eq,
      segmentReceived_eq, hisn, hre]
    by_cases hdrop : r'.isn = none ∧ seg.header.syn = false
    · rw [if_pos hdrop, if_pos hdrop]
      exact ih hre hisn
    · rw [if_neg hdrop, if_neg hdrop]
      cases pushBackWrapString seg (r'.isn.getD seg.header.seqno) seg.payload r'.reassembler
        seg.header.fin with
      | error e => rfl
      | ok re => exact ih rfl (by simp only [record_isn, hisn])

/-- A receiver without room does not change under segments without SYN. -/
theorem receiveAll_full {r : TCPReceiver} {isn : WrappingInt32} (hisn : r.isn = some isn)
    (hfull : r.reassembler.currentCapactiy = 0) {segs : List TCPSegment}
    (hsegs : ∀ seg ∈ segs, seg.header.syn = false) :
    (r.receiveAll segs).map observables = .ok (observables r) := by
  induction segs generalizing r with
  | nil => rfl
  | cons seg segs ih =>
    have hindex : unwrap seg.header.seqno isn r.reassembler.topPointer + 1
        < 2 ^ 64 + r.reassembler.topPointer := by
      have h1 := unwrap_lt seg.header.seqno isn r.reassembler.topPointer
      by_cases hz : r.reassembler.topPointer = 0
      · have h2 := minus_lt seg.header.seqno isn
        rw [hz, unwrap_of_lt _ _ (by omega)]
        omega
      · omega
    have hstep : r.segmentReceived seg = .ok (r.record seg r.reassembler) :=
      segmentReceived_of_push_known seg hisn (hsegs seg (by simp)) rfl
        (StreamReassembler.pushSubstring_full hfull hindex _)
    have hkept : (r.record seg r.reassembler).isn = some isn := by
      rw [record_isn, hisn, Option.getD_some]
    have hrest := ih hkept hfull fun g hg => hsegs g (by simp [hg])
    rw [receiveAll_cons hstep]
    exact hrest.trans (congrArg Except.ok (observables_congr rfl rfl (hkept.trans hisn.symm)))

/-! ## The two ways to open the stream -/

/-- What the first payload leaves when it is pushed at index `top` of a new reassembler. -/
def opened (capacity top : Nat) (p : Bytes) (fin : Bool) : StreamReassembler :=
  if capacity = 0 then { StreamReassembler.new capacity with topPointer := top }
  else { StreamReassembler.new capacity with
    topPointer := top + (p.take capacity).length
    output := if fin && decide (p.length ≤ capacity)
      then ((ByteStream.new capacity).write (p.take capacity)).2.endInput
      else ((ByteStream.new capacity).write (p.take capacity)).2 }

theorem pushSubstring_opened (capacity top : Nat) {p : Bytes} (hlt : top + p.length < 2 ^ 64)
    (fin : Bool) :
    { StreamReassembler.new capacity with topPointer := top }.pushSubstring p top fin
      = .ok (opened capacity top p fin) := by
  have hroom : ({ StreamReassembler.new capacity with topPointer := top } :
      StreamReassembler).currentCapactiy = capacity :=
    (StreamReassembler.Ordered.new capacity).currentCapactiy
  have h := StreamReassembler.pushSubstring_top
    (r := { StreamReassembler.new capacity with topPointer := top }) rfl rfl p hlt fin
  rw [hroom] at h
  exact h

/-- The payload inside the SYN is pushed at index 0. -/
theorem segmentReceived_synSegment (capacity : Nat) (isn : WrappingInt32) {p : Bytes} (hne : p ≠ [])
    (hp : p.length < 2 ^ 63) (fin : Bool) :
    (new capacity).segmentReceived (synSegment isn p fin)
      = .ok ((new capacity).record (synSegment isn p fin) (opened capacity 0 p fin)) := by
  have hlen : (p.length == 0) = false := by simpa using hne
  have hpush := pushSubstring_opened capacity 0 (p := p) (by omega) fin
  rw [segmentReceived_eq, if_neg (by simp [synSegment]), pushBackWrapString]
  simp only [synSegment, hlen, Bool.and_false, Bool.false_eq_true, if_false]
  rw [show unwrap isn ((new capacity).isn.getD isn) (new capacity).reassembler.topPointer = 0 from
    unwrap_self isn]
  exact congrArg (Except.map _) hpush

/-- Behind a bare SYN the payload is pushed at index 1. -/
theorem receiveAll_syn_first (capacity : Nat) (isn : WrappingInt32) {p : Bytes}
    (hp : p.length < 2 ^ 63) (fin : Bool) (segs : List TCPSegment) :
    ∃ r : TCPReceiver,
      (new capacity).receiveAll (synSegment isn [] false :: firstSegment isn p fin :: segs)
        = r.receiveAll segs ∧
      r.isn = some isn ∧ r.reassembler = opened capacity 1 p fin := by
  have hsyn := segmentReceived_first_syn (r := new capacity) (synSegment isn [] false) rfl rfl rfl rfl
  have hindex : unwrap (isn.plus 1) isn 1 = 1 := by
    have h1 := wrap_plus 0 isn 1
    rw [wrap_zero] at h1
    rw [h1]
    exact unwrap_wrap isn (by decide) (by decide) (by decide) (by decide)
  have hfirst := segmentReceived_of_push_known
    (r := (new capacity).record (synSegment isn [] false)
      { StreamReassembler.new capacity with topPointer := 1 })
    (firstSegment isn p fin) rfl rfl hindex
    (pushSubstring_opened capacity 1 (p := p) (by omega) fin)
  exact ⟨_, (receiveAll_cons hsyn _).trans (receiveAll_cons hfirst segs), rfl, record_reassembler _ _ _⟩

/-- What `opened` holds: the payload as far as it fits. -/
theorem opened_output (capacity top : Nat) (p : Bytes) (fin : Bool) :
    (opened capacity top p fin).output.WF ∧
    (opened capacity top p fin).output.contents = p.take capacity ∧
    (opened capacity top p fin).output.capacity = capacity := by
  by_cases hz : capacity = 0
  · rw [opened, if_pos hz, hz]
    exact ⟨ByteStream.WF.new 0, rfl, rfl⟩
  · rw [opened, if_neg hz]
    obtain ⟨h1, h2, _, _, h5, _⟩ := StreamReassembler.output_assembled (ByteStream.WF.new capacity)
      (p.take capacity)
      (by rw [ByteStream.contents_new, List.length_nil, List.length_take]; exact Nat.min_le_left _ _)
      (fin && decide (p.length ≤ capacity))
    exact ⟨h1, h2, h5⟩

theorem opened_currentCapactiy (capacity top : Nat) (p : Bytes) (fin : Bool) :
    (opened capacity top p fin).currentCapactiy = capacity - min capacity p.length := by
  obtain ⟨h1, h2, _⟩ := opened_output capacity top p fin
  have hcap : (opened capacity top p fin).capacity = capacity := by
    rw [opened]
    split <;> rfl
  rw [StreamReassembler.currentCapactiy, h1.bufferSize, h2, hcap, List.length_take,
    sub64_of_le (Nat.min_le_left _ _)]

/-- The two receivers agree when the payload is empty. -/
theorem syn_payload_nil (isn : WrappingInt32) (capacity : Nat) (fin : Bool) (segs : List TCPSegment) :
    ((new capacity).receiveAll (synSegment isn [] fin :: segs)).map observables
      = ((new capacity).receiveAll
          (synSegment isn [] false :: firstSegment isn [] fin :: segs)).map observables := by
  obtain ⟨r, heq, hisn, hre⟩ := receiveAll_syn_first capacity isn (p := []) (by decide) fin segs
  have hsyn := segmentReceived_first_syn (r := new capacity) (synSegment isn [] fin) rfl rfl rfl rfl
  rw [heq, receiveAll_cons hsyn]
  refine receiveAll_congr ?_ hisn.symm segs
  rw [hre, record_reassembler, opened]
  cases capacity with
  | zero => simp [synSegment, StreamReassembler.new]
  | succ n => simp [synSegment, ByteStream.write]

/-- The two receivers agree when the payload fills the capacity: nothing more is taken in. -/
theorem syn_payload_full (isn : WrappingInt32) {capacity : Nat} {p : Bytes} (hne : p ≠ [])
    (hp : p.length < 2 ^ 63) (hfull : capacity ≤ p.length) (fin : Bool) {segs : List TCPSegment}
    (hsegs : ∀ seg ∈ segs, seg.header.syn = false) :
    ((new capacity).receiveAll (synSegment isn p fin :: segs)).map observables
      = ((new capacity).receiveAll
          (synSegment isn [] false :: firstSegment isn p fin :: segs)).map observables := by
  obtain ⟨r, heq, hisn, hre⟩ := receiveAll_syn_first capacity isn hp fin segs
  have hroom : ∀ top, (opened capacity top p fin).currentCapactiy = 0 := by
    intro top
    rw [opened_currentCapactiy]
    omega
  rw [heq, receiveAll_full hisn (by rw [hre]; exact hroom 1) hsegs,
    receiveAll_cons (segmentReceived_synSegment capacity isn hne hp fin)]
  -- the two states differ in `_top_pointer` and in the recorded FIN, which nothing shows
  refine (receiveAll_full rfl (hroom 0) hsegs).trans (congrArg Except.ok ?_)
  refine observables_congr ?_ ?_ hisn.symm
  · rw [hre, record_reassembler, opened, opened]
    split <;> rfl
  · rw [hre, record_reassembler, opened, opened]
    split <;> rfl

/-- The last byte of `p`, sent again behind the SYN. -/
def lastByte (isn : WrappingInt32) (p : Bytes) : TCPSegment :=
  { header := { seqno := wrap p.length isn }, payload := p.drop (p.length - 1) }

/-- With room left and a payload in the SYN, the receiver writes the repeated last byte once more. -/
theorem syn_payload_repeats (isn : WrappingInt32) {capacity : Nat} {p : Bytes} (hne : p ≠ [])
    (hp : p.length < 2 ^ 63) (hroom : p.length < capacity) (fin : Bool) :
    ∃ r : TCPReceiver, (new capacity).receiveAll [synSegment isn p fin, lastByte isn p] = .ok r ∧
      r.streamOut.peeked r.streamOut.bufferSize = p ++ p.drop (p.length - 1) := by
  have hlen : 0 < p.length := List.length_pos_iff.mpr hne
  obtain ⟨h1, h2, h3⟩ := opened_output capacity 0 p fin
  have hcur := opened_currentCapactiy capacity 0 p fin
  have hall : p.take capacity = p := List.take_of_length_le (by omega)
  rw [hall] at h2
  have htop : (opened capacity 0 p fin).topPointer = p.length := by
    rw [opened, if_neg (by omega), hall, Nat.zero_add]
  have hlist : (opened capacity 0 p fin).bufferList = [] := by
    rw [opened]
    split <;> rfl
  have hcap : (opened capacity 0 p fin).output.capacity = (opened capacity 0 p fin).capacity := by
    rw [h3, opened]
    split <;> rfl
  have hbyte : (p.drop (p.length - 1)).length = 1 := by
    rw [List.length_drop]
    omega
  have hkept : (p.drop (p.length - 1)).take (opened capacity 0 p fin).currentCapactiy
      = p.drop (p.length - 1) := List.take_of_length_le (by omega)
  have hpush := StreamReassembler.pushSubstring_top hlist hcap (p.drop (p.length - 1))
    (by omega) false
  rw [if_neg (by omega), hkept, Bool.false_and, htop] at hpush
  have hindex : unwrap (wrap p.length isn) isn (opened capacity 0 p fin).topPointer = p.length := by
    rw [htop]
    exact unwrap_wrap isn (by omega) (by omega) (by omega) (by omega)
  have hstep := segmentReceived_of_push_known
    (r := (new capacity).record (synSegment isn p fin) (opened capacity 0 p fin))
    (lastByte isn p) rfl rfl hindex hpush
  obtain ⟨h4, h5, _⟩ := h1.write_all (p.drop (p.length - 1)) (by rw [h2, h3]; omega)
  rw [h2] at h5
  exact ⟨_, (receiveAll_cons (segmentReceived_synSegment capacity isn hne hp fin) _).trans
    (receiveAll_cons hstep []), h4.peeked_bufferSize.trans h5⟩

/-- Behind a bare SYN the repeated last byte is recognised: the output stays a prefix of `p`. -/
theorem syn_first_keeps (isn : WrappingInt32) {capacity : Nat} {p : Bytes} (hne : p ≠ [])
    (hp : p.length < 2 ^ 63) (hroom : p.length < capacity) (fin : Bool) :
    ∃ r : TCPReceiver, (new capacity).receiveAll
        [synSegment isn [] false, firstSegment isn p fin, lastByte isn p] = .ok r ∧
      (r.streamOut.peeked r.streamOut.bufferSize).length ≤ p.length := by
  have hlen : 0 < p.length := List.length_pos_iff.mpr hne
  obtain ⟨r, heq, hisn, hre⟩ := receiveAll_syn_first capacity isn hp fin [lastByte isn p]
  have hwhole : Agrees (placed 1 p) 1 p := by simpa using agrees_slice 1 p 0 p.length
  obtain ⟨re, hpush, hhonest⟩ := (honest_behind_syn (placed 1 p) (some (1 + p.length)) capacity).push
    (endsAt_placed 1 p) hwhole (fun (_ : fin = true) => rfl) (by omega) (by simp)
  obtain rfl : opened capacity 1 p fin = re :=
    Except.ok.inj ((pushSubstring_opened capacity 1 (by omega) fin).symm.trans hpush)
  have htop : (opened capacity 1 p fin).topPointer = 1 + p.length := by
    rw [opened, if_neg (by omega), List.take_of_length_le (by omega)]
  rw [← hre] at hhonest htop
  have hagrees : Agrees (placed 1 p) p.length (p.drop (p.length - 1)) := by
    have h := agrees_slice 1 p (p.length - 1) 1
    rwa [show 1 + (p.length - 1) = p.length by omega,
      List.take_of_length_le (by rw [List.length_drop]; omega)] at h
  obtain ⟨re, hstep, hhonest', _⟩ := segmentReceived_honest (lastByte isn p) hhonest
    (endsAt_placed 1 p) hisn rfl
    (by rw [htop]; exact unwrap_wrap isn (by omega) (by omega) (by omega) (by omega)) hagrees
    (fun h => absurd h (by simp [lastByte]))
    (by simp only [lastByte, List.length_drop]; omega) (by omega)
  refine ⟨_, heq.trans (receiveAll_cons hstep []), ?_⟩
  rw [streamOut, record_reassembler, hhonest'.ordered.out.peeked_bufferSize]
  exact hhonest'.written.eq_take.2

theorem lastByte_cutFrom (isn : WrappingInt32) {p : Bytes} (hne : p ≠ []) :
    CutFrom p isn (lastByte isn p) := by
  have hlen : 0 < p.length := List.length_pos_iff.mpr hne
  refine ⟨p.length - 1, 1, by omega, ?_, ?_, rfl, fun h => absurd h (by simp [lastByte])⟩
  · rw [slice, lastByte, List.take_of_length_le (by rw [List.length_drop]; omega)]
  · rw [lastByte, show p.length - 1 + 1 = p.length by omega]

/-- **When a SYN with payload is a bare SYN followed by the payload.** For every ISN, capacity, payload
and FIN flag, the two receivers show the same under every later sequence of segments cut from a stream
that starts with the payload, iff the payload is empty or leaves no room for anything after it. -/
theorem syn_payload_equivalent_iff (isn : WrappingInt32) (capacity : Nat) {p : Bytes}
    (hp : p.length < 2 ^ 63) (fin : Bool) :
    (∀ (S : Bytes) (segs : List TCPSegment), p <+: S → (fin = true → S = p) →
      (∀ seg ∈ segs, CutFrom S isn seg) →
      ((new capacity).receiveAll (synSegment isn p fin :: segs)).map observables
        = ((new capacity).receiveAll
            (synSegment isn [] false :: firstSegment isn p fin :: segs)).map observables) ↔
    p = [] ∨ capacity ≤ p.length := by
  constructor
  · intro hall
    by_contra hnot
    rw [not_or] at hnot
    obtain ⟨hne, hroom⟩ := hnot
    rw [Nat.not_le] at hroom
    obtain ⟨r, hr, hout⟩ := syn_payload_repeats isn hne hp hroom fin
    obtain ⟨r', hr', hout'⟩ := syn_first_keeps isn hne hp hroom fin
    have heq := hall p [lastByte isn p] (List.prefix_refl p) (fun _ => rfl)
      (by intro seg hseg; rw [List.mem_singleton.mp hseg]; exact lastByte_cutFrom isn hne)
    rw [hr, hr'] at heq
    have hobs : observables r = observables r' := Except.ok.inj heq
    have hlen := congrArg (fun x => x.1.length) hobs
    have hpos : 0 < p.length := List.length_pos_iff.mpr hne
    simp only [observables, hout, List.length_append, List.length_drop] at hlen
    omega
  · intro hcond S segs _ _ hsegs
    by_cases hnil : p = []
    · subst hnil
      exact syn_payload_nil isn capacity fin segs
    · refine syn_payload_full isn hnil hp (hcond.resolve_left hnil) fin fun seg hseg => ?_
      obtain ⟨_, _, _, _, _, hsyn, _⟩ := hsegs seg hseg
      exact hsyn

/-- A payload of four bytes in a window of four: both ways drop the next segment. -/
theorem syn_payload_equivalent_four :
    ((new 4).receiveAll [synSegment ⟨9⟩ [1, 2, 3, 4] false, ⟨{ seqno := ⟨14⟩ }, [5]⟩]).map observables
      = ((new 4).receiveAll [synSegment ⟨9⟩ [] false, firstSegment ⟨9⟩ [1, 2, 3, 4] false,
          ⟨{ seqno := ⟨14⟩ }, [5]⟩]).map observables := by
  refine (syn_payload_equivalent_iff ⟨9⟩ 4 (p := [1, 2, 3, 4]) (by decide) false).mpr (Or.inr (by decide))
    [1, 2, 3, 4, 5] _ ⟨[5], rfl⟩ (by decide) ?_
  intro seg hseg
  rw [List.mem_singleton.mp hseg]
  exact ⟨4, 1, by decide, rfl, rfl, rfl, by decide⟩

/-- **A SYN with payload stalls the stream**: `ab` inside the SYN, then `cd` behind it.  With a bare SYN all
four bytes are delivered; with the payload in the SYN `cd` waits for ever behind an index that does not
exist. -/
theorem syn_payload_stalls :
    (∀ seg ∈ [(⟨{ seqno := ⟨12⟩ }, [99, 100]⟩ : TCPSegment)], CutFrom [97, 98, 99, 100] ⟨9⟩ seg) ∧
    ((new 100).receiveAll [synSegment ⟨9⟩ [97, 98] false, ⟨{ seqno := ⟨12⟩ }, [99, 100]⟩]).map observables
      = .ok ([97, 98], some ⟨12⟩, 2, false) ∧
    ((new 100).receiveAll [synSegment ⟨9⟩ [] false, firstSegment ⟨9⟩ [97, 98] false,
      ⟨{ seqno := ⟨12⟩ }, [99, 100]⟩]).map observables = .ok ([97, 98, 99, 100], some ⟨14⟩, 0, false) := by
  refine ⟨?_, rfl, rfl⟩
  intro seg hseg
  rw [List.mem_singleton.mp hseg]
  exact ⟨2, 2, by decide, rfl, rfl, rfl, by decide⟩

end TCPReceiver

end Sponge
