/-
# `Sponge.ReceiverEnd` — the end of the inbound stream is final.

Once the inbound stream has ended, no segment should add a byte to it or move the acknowledgment number.
Nothing in the code remembers where the stream ended: `push_substring` looks at `_top_pointer` alone, and
`ByteStream::write` takes bytes after `end_input` as before.  So a segment that covers the byte at
`_top_pointer` is written behind the end (`byte_behind_end`), and a SYN without payload, which sets
`_top_pointer` to its own index plus one, moves the place where that happens.

What was stored beyond the end is harmless: a fragment without a hole before it was merged before the end was
reached, so everything left starts strictly beyond `_top_pointer` (`Closed`), and nothing but the missing byte
can bring it there.
-/
import Sponge.ReceiverStream

namespace Sponge

open Sponge.Lib

namespace StreamReassembler

open BufferStringList

variable {base : Nat} {r r' : StreamReassembler} {data : Bytes} {index : Nat} {eof : Bool}

/-- In order, and nothing near the end of the index space. -/
structure Confined (base : Nat) (r : StreamReassembler) : Prop where
  ordered : Ordered base r
  top : r.topPointer + 1 < 2 ^ 64
  stored : ∀ n, Stores r.bufferList n → n + 2 < 2 ^ 64

/-- Whatever is stored starts strictly beyond `_top_pointer`. -/
structure Closed (r : StreamReassembler) : Prop where
  sorted : Sorted r.bufferList
  beyond : ∀ b ∈ r.bufferList, r.topPointer < b.first
  top : r.topPointer + 1 < 2 ^ 64

/-- **A push before the end** returns, in order again; and if it brings the end, everything left starts beyond
it. -/
theorem Confined.push (h : Confined base r) (hlt : index + data.length + 1 < 2 ^ 64)
    (hopen : r.output.isInputEnd = false) (eof : Bool) :
    ∃ r', r.pushSubstring data index eof = .ok r' ∧ Confined base r' ∧
      (r'.output.isInputEnd = true → Closed r') := by
  rcases h.ordered.push_cases eof hlt h.top with
    ⟨-, heq⟩ | ⟨-, list, -, heq, hsorted, hne, habove, hwin, hst, -⟩
  · exact ⟨r, heq, h, fun hend => absurd (hopen.symm.trans hend) (by decide)⟩
  · have hlist : ∀ n, Stores list n → n + 2 < 2 ^ 64 := by
      intro n hn
      rcases (hst n).mp hn with hold | hnew
      · exact h.stored n hold
      · have hcut := r.cut_length_le data index
        have htop := h.top
        omega
    obtain ⟨htop, hstored⟩ := h.ordered.settle_confined hsorted habove hwin hne h.top hlist
    have hordered := h.ordered.settle hsorted habove hwin hne
    refine ⟨_, heq, ⟨hordered, htop, hstored⟩, fun hend => ⟨hordered.sorted, ?_, htop⟩⟩
    -- the output can only have ended by a front that was popped whole
    rcases settle_cases h.ordered hsorted habove hwin hne with
      ⟨front, rest, rfl, -, -, -, hsame⟩ | ⟨front, rest, rfl, hfront, hmoved, hleft, -⟩ |
      ⟨front, rfl, -, -, -, -, hsame⟩
    · rw [hsame, hopen] at hend
      exact absurd hend (by decide)
    · obtain ⟨hfits, hgap, -⟩ := sorted_cons.mp hsorted
      have hsecond := hfits.second_eq
      rw [hleft, hmoved.top]
      intro b hb
      have := hgap b hb
      omega
    · rw [hsame, hopen] at hend
      exact absurd hend (by decide)

/-- An ended output is not changed by an empty write, nor by ending it again. -/
theorem rewrite_ended {o : ByteStream} (h : o.isInputEnd = true) (eof : Bool) :
    (if eof then (o.write []).2.endInput else (o.write []).2) = o := by
  have hend : o.endInput = o := by
    rw [ByteStream.endInput, ← h]
  cases eof with
  | true => exact hend
  | false => rfl

/-- An empty fragment at `_top_pointer`, with nothing stored before or at it, leaves everything as it is. -/
theorem Closed.push_empty (h : Closed r) (hend : r.output.isInputEnd = true) (eof : Bool) :
    (pushBack r.bufferList [] r.topPointer eof).map r.settle = .ok r := by
  have hend64 : r.topPointer + ([] : Bytes).length < 2 ^ 64 := Nat.lt_of_succ_lt h.top
  obtain ⟨L, M, R, hsplit, hL, hM, -, heq⟩ := pushBack_eq h.sorted hend64 eof
  have hnil : L = [] ∧ M = [] := by
    refine ⟨List.eq_nil_iff_forall_not_mem.mpr fun b hb => ?_,
      List.eq_nil_iff_forall_not_mem.mpr fun b hb => ?_⟩
    · have hmem : b ∈ r.bufferList := by rw [hsplit]; simp [hb]
      have hbeyond := h.beyond b hmem
      have hsecond := (h.sorted.fits b hmem).second_eq
      have hbefore := hL b hb
      omega
    · have hmem : b ∈ r.bufferList := by rw [hsplit]; simp [hb]
      have hbeyond := h.beyond b hmem
      have hreach := (hM b hb).2
      rw [List.length_nil] at hreach
      omega
  rw [hnil.1, hnil.2, List.nil_append, List.nil_append] at hsplit
  rw [hnil.1, hnil.2, List.nil_append, ← hsplit, merged] at heq
  rw [heq, Except.map, settle_eq_assemble rfl, assemble]
  -- the empty front is popped whole, and written to a stream that has ended
  have hpop : popUpBufferString (BufferString.make r.topPointer [] eof :: r.bufferList)
      r.output.remainingCapacity = (BufferString.make r.topPointer [] eof, r.bufferList) := by
    have hfits : r.output.remainingCapacity ≥ (BufferString.make r.topPointer [] eof).size := Nat.zero_le _
    rw [popUpBufferString, if_pos hfits]
  have hnext : add64 r.topPointer (BufferString.make r.topPointer [] eof).size = r.topPointer :=
    add64_of_lt hend64
  simp only [hpop, hnext, BufferString.make_eof, BufferString.make_target, rewrite_ended hend]

/-- **A push after the end** that does not bring the byte at `_top_pointer` returns, and changes nothing but
what is stored. -/
theorem Closed.push (h : Closed r) (hend : r.output.isInputEnd = true)
    (hlt : index + data.length + 1 < 2 ^ 64)
    (hmiss : ¬ (index ≤ r.topPointer ∧ r.topPointer < index + data.length)) (eof : Bool) :
    ∃ r', r.pushSubstring data index eof = .ok r' ∧ Closed r' ∧ r'.output = r.output ∧
      r'.topPointer = r.topPointer := by
  have htop := h.top
  have hcut := r.cut_length_le data index
  rw [pushSubstring_eq hlt htop]
  by_cases hdropped : r.Dropped data.length index
  · exact ⟨r, if_pos hdropped, h, rfl, rfl⟩
  · rw [if_neg hdropped]
    by_cases hbeyond : r.topPointer < index
    · rw [Nat.max_eq_left (Nat.le_of_lt hbeyond)]
      have hend64 : index + (r.cut data index).length < 2 ^ 64 := by omega
      obtain ⟨list, hpush, hsorted, -, hreach, hfirst, -⟩ :=
        pushBack_union h.sorted hend64 (r.cutEof data index eof)
      have hbeyond' : ∀ b ∈ list, r.topPointer < b.first := by
        intro b hb
        rcases hfirst b hb with heq | ⟨c, hc, heq⟩
        · omega
        · have := h.beyond c hc
          omega
      have hne : list ≠ [] := by
        rintro rfl
        have := (hreach index).mpr (Or.inr ⟨Nat.le_refl _, Nat.le_add_right _ _⟩)
        simp [Reaches] at this
      -- the front does not start at `_top_pointer`, so nothing is assembled
      obtain ⟨front, rest, rfl⟩ := List.exists_cons_of_ne_nil hne
      have hfront := hbeyond' front List.mem_cons_self
      rw [hpush, Except.map, settle, if_pos (by simp only [topIndex]; omega)]
      exact ⟨_, rfl, ⟨hsorted, hbeyond', htop⟩, rfl, rfl⟩
    · -- the fragment ends at or before `_top_pointer`: nothing of it is left
      have hempty : r.cut data index = [] := List.length_eq_zero_iff.mp (by omega)
      rw [Nat.max_eq_right (Nat.not_lt.mp hbeyond), hempty, h.push_empty hend]
      exact ⟨r, rfl, h, rfl, rfl⟩

end StreamReassembler

/-! ## Runs of the receiver -/

namespace TCPReceiver

open StreamReassembler (Confined Closed)

/-- A segment, or a read from `stream_out()`. -/
inductive Call where
  | segmentReceived (seg : TCPSegment)
  | read (len : Nat)

/-- A read of more than there is throws, but has emptied the stream. -/
def step (r : TCPReceiver) : Call → Except Exception TCPReceiver
  | .segmentReceived seg => r.segmentReceived seg
  | .read len => .ok { r with reassembler := { r.reassembler with output := (r.streamOut.read len).1 } }

def Start (r : TCPReceiver) : Prop := ∃ capacity, r = new capacity

/-- The index at which the payload of a segment is pushed. -/
def indexOf (r : TCPReceiver) (seg : TCPSegment) : Nat :=
  unwrap seg.header.seqno (r.isn.getD seg.header.seqno) r.reassembler.topPointer

/-- The segments that respect the end.  Each lies inside the index space.  A SYN without payload that is not the
first one does not move `_top_pointer` before the end, except over an empty list, and does not move it forward
after the end.  After the end no payload covers the byte at `_top_pointer`. -/
def respectsEnd (r : TCPReceiver) : Call → Prop
  | .segmentReceived seg => r.isn ≠ none ∨ seg.header.syn = true →
      r.indexOf seg + seg.lengthInSequenceSpace + 1 < 2 ^ 64 ∧
      (r.isn ≠ none → seg.header.syn = true → seg.payload = [] →
        if r.streamOut.inputEnded then r.indexOf seg < r.reassembler.topPointer
        else r.indexOf seg + 1 = r.reassembler.topPointer ∨
          (r.indexOf seg = r.reassembler.topPointer ∧ r.reassembler.bufferList = [])) ∧
      (r.streamOut.inputEnded = true → ¬ (r.indexOf seg ≤ r.reassembler.topPointer ∧
        r.reassembler.topPointer < r.indexOf seg + seg.payload.length))
  | .read _ => True

instance (r : TCPReceiver) : DecidablePred (respectsEnd r)
  | .segmentReceived _ => by
    unfold respectsEnd
    infer_instance
  | .read _ => isTrue trivial

/-- The invariant: before the SYN nothing is there, before the end all is in order, after it all is closed. -/
structure Inv (r : TCPReceiver) : Prop where
  fresh : r.isn = none → r.reassembler.topPointer = 0 ∧ r.reassembler.bufferList = [] ∧
    r.streamOut.isInputEnd = false
  before : r.streamOut.isInputEnd = false → ∃ base, Confined base r.reassembler
  after : r.streamOut.isInputEnd = true → Closed r.reassembler

theorem Start.inv {r : TCPReceiver} (h : Start r) : Inv r := by
  obtain ⟨capacity, rfl⟩ := h
  refine ⟨fun _ => ⟨rfl, rfl, rfl⟩, fun _ => ⟨0, StreamReassembler.Ordered.new capacity, ?_, ?_⟩, ?_⟩
  · simp [new, StreamReassembler.new]
  · simp [new, StreamReassembler.new, BufferStringList.Stores]
  · simp [new, StreamReassembler.new, streamOut, ByteStream.new]

variable {r r' : TCPReceiver} {seg : TCPSegment} {re re' : StreamReassembler}

/-- A bare SYN that finds `_top_pointer` at its own index and nothing stored: the stream starts behind it. -/
theorem bare_syn_at_top {base : Nat} (h : Confined base re) (hl : re.bufferList = [])
    (hlt : re.topPointer + 2 < 2 ^ 64) (eof : Bool) :
    ∃ re', re.pushSubstring [] re.topPointer eof = .ok re' ∧ re'.bufferList = [] ∧
      (re'.output.isInputEnd = false →
        Confined (base + 1) { re' with topPointer := add64 re.topPointer 1 }) := by
  have hnext : add64 re.topPointer 1 = re.topPointer + 1 := add64_of_lt (by omega)
  have hbehind : Confined (base + 1) { re with topPointer := add64 re.topPointer 1 } := by
    have htop := h.ordered.top
    rw [hnext]
    refine ⟨⟨h.ordered.out, h.ordered.cap, ?_, ?_, ?_, Or.inl ?_⟩, hlt, ?_⟩
    · show re.topPointer + 1 = base + 1 + re.output.bytesWirtten
      omega
    all_goals simp [hl, BufferStringList.Sorted.nil, BufferStringList.Stores]
  refine ⟨_, StreamReassembler.pushSubstring_top hl h.ordered.cap [] (by rw [List.length_nil]; omega) eof,
    ?_, ?_⟩
  · split <;> exact hl
  · split
    · exact fun _ => hbehind
    · rw [List.take_nil]
      split
      · exact fun hopen => absurd hopen (by simp [ByteStream.endInput])
      · exact fun _ => hbehind

/-- A segment taken in before the end, at the index it has. -/
theorem pushBackWrapString_before {base : Nat} {isn : WrappingInt32} (h : Confined base re)
    (hopen : re.output.isInputEnd = false)
    (hlt : unwrap seg.header.seqno isn re.topPointer + seg.lengthInSequenceSpace + 1 < 2 ^ 64)
    (hbare : seg.header.syn = true → seg.payload = [] →
      unwrap seg.header.seqno isn re.topPointer + 1 = re.topPointer ∨
        (unwrap seg.header.seqno isn re.topPointer = re.topPointer ∧ re.bufferList = [])) :
    ∃ re', pushBackWrapString seg isn seg.payload re seg.header.fin = .ok re' ∧
      (re'.output.isInputEnd = false → ∃ base, Confined base re') ∧
      (re'.output.isInputEnd = true → Closed re') := by
  unfold pushBackWrapString
  generalize unwrap seg.header.seqno isn re.topPointer = index at hlt hbare
  rw [TCPSegment.lengthInSequenceSpace] at hlt
  by_cases hb : (seg.header.syn && seg.payload.length == 0) = true
  · obtain ⟨hsyn, hlen⟩ := Bool.and_eq_true_iff.mp hb
    have hnil : seg.payload = [] := List.length_eq_zero_iff.mp (beq_iff_eq.mp hlen)
    rw [if_pos hsyn] at hlt
    rw [if_pos hb, hnil]
    rcases hbare hsyn hnil with hbelow | ⟨rfl, hl⟩
    · -- it lies below `_top_pointer`, which is set to what it was
      have hdropped : re.Dropped ([] : Bytes).length index := Or.inl (by rw [List.length_nil]; omega)
      have hsame : ({ re with topPointer := add64 index 1 } : StreamReassembler) = re := by
        rw [add64_of_lt (by omega), hbelow]
      rw [StreamReassembler.pushSubstring_eq (by rw [List.length_nil]; omega) h.top, if_pos hdropped,
        Except.map, hsame]
      exact ⟨re, rfl, fun _ => ⟨base, h⟩, fun hend => absurd (hopen.symm.trans hend) (by decide)⟩
    · obtain ⟨re', hpush, hl', hbehind⟩ := bare_syn_at_top h hl (by omega) seg.header.fin
      rw [hpush]
      refine ⟨_, rfl, fun hend => ⟨_, hbehind hend⟩, fun _ => ⟨?_, ?_, ?_⟩⟩
      · show BufferStringList.Sorted re'.bufferList
        rw [hl']
        exact BufferStringList.Sorted.nil
      · show ∀ b ∈ re'.bufferList, _
        rw [hl']
        simp
      · show add64 re.topPointer 1 + 1 < 2 ^ 64
        rw [add64_of_lt (by omega)]
        omega
  · rw [if_neg hb]
    have hpayload : index + seg.payload.length + 1 < 2 ^ 64 := by omega
    obtain ⟨re', hpush, hconf, hclosed⟩ := h.push hpayload hopen seg.header.fin
    exact ⟨re', hpush, fun _ => ⟨base, hconf⟩, hclosed⟩

/-- A segment taken in after the end, at the index it has. -/
theorem pushBackWrapString_after {isn : WrappingInt32} (h : Closed re) (hend : re.output.isInputEnd = true)
    (hlt : unwrap seg.header.seqno isn re.topPointer + seg.lengthInSequenceSpace + 1 < 2 ^ 64)
    (hbare : seg.header.syn = true → seg.payload = [] →
      unwrap seg.header.seqno isn re.topPointer < re.topPointer)
    (hmiss : ¬ (unwrap seg.header.seqno isn re.topPointer ≤ re.topPointer ∧
      re.topPointer < unwrap seg.header.seqno isn re.topPointer + seg.payload.length)) :
    ∃ re', pushBackWrapString seg isn seg.payload re seg.header.fin = .ok re' ∧
      Closed re' ∧ re'.output = re.output := by
  unfold pushBackWrapString
  generalize unwrap seg.header.seqno isn re.topPointer = index at hlt hbare hmiss
  rw [TCPSegment.lengthInSequenceSpace] at hlt
  obtain ⟨re', hpush, hclosed, hout, htop⟩ := h.push hend (by omega) hmiss seg.header.fin
  simp only [hpush]
  by_cases hb : (seg.header.syn && seg.payload.length == 0) = true
  · obtain ⟨hsyn, hlen⟩ := Bool.and_eq_true_iff.mp hb
    have hbelow := hbare hsyn (List.length_eq_zero_iff.mp (beq_iff_eq.mp hlen))
    have hlast := h.top
    have hnext : add64 index 1 = index + 1 := add64_of_lt (by omega)
    rw [if_pos hb]
    refine ⟨_, rfl, ⟨hclosed.sorted, fun b hb => ?_, ?_⟩, hout⟩
    · show add64 index 1 < b.first
      have := hclosed.beyond b hb
      omega
    · show add64 index 1 + 1 < 2 ^ 64
      omega
  · rw [if_neg hb]
    exact ⟨re', rfl, hclosed, hout⟩

/-- **A segment that respects the end** is taken in and keeps the invariant, and after the end it changes
nothing that can be observed. -/
theorem Inv.segment (h : Inv r) (hok : r.respectsEnd (.segmentReceived seg)) :
    ∃ r', r.segmentReceived seg = .ok r' ∧ Inv r' ∧
      (r.streamOut.isInputEnd = true → r'.streamOut = r.streamOut ∧ r'.isn = r.isn) := by
  rw [segmentReceived_eq]
  by_cases hdrop : r.isn = none ∧ seg.header.syn = false
  · exact ⟨r, if_pos hdrop, h, fun _ => ⟨rfl, rfl⟩⟩
  · have htaken : r.isn ≠ none ∨ seg.header.syn = true := by
      rw [not_and, Bool.not_eq_false] at hdrop
      exact or_iff_not_imp_left.mpr fun hnone => hdrop (not_not.mp hnone)
    obtain ⟨hlt, hbare, hmiss⟩ := hok htaken
    rw [if_neg hdrop]
    cases hend : r.streamOut.isInputEnd with
    | false =>
      obtain ⟨base, hconf⟩ := h.before hend
      obtain ⟨re, hpush, hbefore, hafter⟩ := pushBackWrapString_before hconf hend hlt fun hsyn hnil => by
        by_cases hnone : r.isn = none
        · -- the first SYN: a new reassembler, and index 0
          refine Or.inr ⟨?_, (h.fresh hnone).2.1⟩
          rw [hnone, Option.getD_none, (h.fresh hnone).1, unwrap_self]
        · have := hbare hnone hsyn hnil
          rwa [ByteStream.inputEnded, hend, if_neg (by decide)] at this
      rw [hpush]
      exact ⟨_, rfl, ⟨fun hnone => absurd hnone (by simp), hbefore, hafter⟩,
        fun hend' => absurd hend' (by decide)⟩
    | true =>
      have hknown : r.isn ≠ none := by
        intro hnone
        rw [(h.fresh hnone).2.2] at hend
        exact absurd hend (by decide)
      obtain ⟨re, hpush, hclosed, hout⟩ :=
        pushBackWrapString_after (h.after hend) hend hlt (fun hsyn hnil => by
          have := hbare hknown hsyn hnil
          rwa [ByteStream.inputEnded, hend, if_pos rfl] at this) (hmiss hend)
      rw [hpush]
      refine ⟨_, rfl, ⟨fun hnone => absurd hnone (by simp), fun hopen => ?_, fun _ => hclosed⟩,
        fun _ => ⟨hout, ?_⟩⟩
      · change re.output.isInputEnd = false at hopen
        rw [hout] at hopen
        exact absurd (hend.symm.trans hopen) (by decide)
      · obtain ⟨isn, hisn⟩ := Option.ne_none_iff_exists'.mp hknown
        rw [record_isn, hisn, Option.getD_some]

/-- A read leaves everything but the unread bytes. -/
theorem Inv.read (h : Inv r) (len : Nat) :
    Inv { r with reassembler := { r.reassembler with output := (r.streamOut.read len).1 } } := by
  have hsame := r.streamOut.read_isInputEnd len
  refine ⟨fun hisn => ?_, fun hopen => ?_, fun hend => ?_⟩
  · obtain ⟨htop, hlist, hopen⟩ := h.fresh hisn
    exact ⟨htop, hlist, hsame.trans hopen⟩
  · obtain ⟨base, hconf⟩ := h.before (hsame.symm.trans hopen)
    exact ⟨base, hconf.ordered.read len, hconf.top, hconf.stored⟩
  · obtain ⟨hsorted, hbeyond, htop⟩ := h.after (hsame.symm.trans hend)
    exact ⟨hsorted, hbeyond, htop⟩

theorem Inv.step {call : Call} (h : Inv r) (hok : r.respectsEnd call) (hs : r.step call = .ok r') : Inv r' := by
  cases call with
  | segmentReceived seg =>
    obtain ⟨r'', heq, hinv, -⟩ := h.segment hok
    obtain rfl := Except.ok.inj (heq.symm.trans hs)
    exact hinv
  | read len =>
    obtain rfl := Except.ok.inj hs
    exact h.read len

/-- What the end fixes. -/
structure SameEnd (r r' : TCPReceiver) : Prop where
  ended : r'.streamOut.inputEnded = true
  written : r'.streamOut.bytesWritten = r.streamOut.bytesWritten
  isn : r'.isn = r.isn
  eof : r.streamOut.eof = true → r'.streamOut.eof = true

theorem SameEnd.ackno (h : SameEnd r r') (hend : r.streamOut.inputEnded = true) : r'.ackno = r.ackno := by
  rw [TCPReceiver.ackno, TCPReceiver.ackno, h.written, h.isn, h.ended, hend]

/-- One call after the end. -/
theorem SameEnd.step {r₀ : TCPReceiver} {call : Call} (h : SameEnd r₀ r) (hinv : Inv r)
    (hok : r.respectsEnd call) (hs : r.step call = .ok r') : SameEnd r₀ r' := by
  cases call with
  | segmentReceived seg =>
    obtain ⟨r'', heq, -, hfixed⟩ := hinv.segment hok
    obtain rfl := Except.ok.inj (heq.symm.trans hs)
    obtain ⟨hout, hisn⟩ := hfixed h.ended
    refine ⟨?_, ?_, hisn.trans h.isn, ?_⟩
    · rw [hout, h.ended]
    · rw [hout, h.written]
    · rw [hout]
      exact h.eof
  | read len =>
    obtain rfl := Except.ok.inj hs
    exact ⟨(r.streamOut.read_isInputEnd len).trans h.ended, (r.streamOut.read_bytesWirtten len).trans h.written,
      h.isn, fun heof => ByteStream.eof_read (h.eof heof) len⟩

/-- **The end of the inbound stream is final.**  Take any run whose segments respect the end, and a state `r`
in it whose stream has ended.  However the run continues, the stream stays ended, with the same number of bytes
written and the same acknowledgment number, and once at eof it stays there; and no further segment throws. -/
theorem end_is_final (hr : Reach Start step respectsEnd r) (hend : r.streamOut.inputEnded = true)
    (hr' : Reach (· = r) step respectsEnd r') :
    r'.streamOut.inputEnded = true ∧ r'.streamOut.bytesWritten = r.streamOut.bytesWritten ∧
    r'.ackno = r.ackno ∧ (r.streamOut.eof = true → r'.streamOut.eof = true) ∧
    ∀ seg, r'.respectsEnd (.segmentReceived seg) → ∃ r'', r'.segmentReceived seg = .ok r'' := by
  have hinv : Inv r := Reach.invariant (fun _ h => h.inv) (fun _ _ _ hi hok hs => hi.step hok hs) hr
  obtain ⟨hinv', hsame⟩ : Inv r' ∧ SameEnd r r' := by
    refine Reach.invariant (P := fun r' => Inv r' ∧ SameEnd r r') ?_ ?_ hr'
    · rintro _ rfl
      exact ⟨hinv, hend, rfl, rfl, id⟩
    · rintro _ _ _ ⟨hi, hsame⟩ hok hs
      exact ⟨hi.step hok hs, hsame.step hi hok hs⟩
  refine ⟨hsame.ended, hsame.written, hsame.ackno hend, hsame.eof, fun seg hok => ?_⟩
  obtain ⟨r'', heq, -⟩ := hinv'.segment hok
  exact ⟨r'', heq⟩

/-- A receiver that has read one byte and the end. -/
def readToEnd : TCPReceiver :=
  { reassembler :=
      { topPointer := 2
        output := { capacity := 8, bytesRead := 1, bytesWirtten := 1, isInputEnd := true }
        capacity := 8 }
    capacity := 8
    isn := some ⟨0⟩
    fsn := some ⟨1⟩ }

/-- Afterwards the FIN again, and two bytes beyond the end: they are stored, and nothing moves. -/
theorem end_is_final_read : ∃ r : TCPReceiver, Reach (· = readToEnd) step respectsEnd r ∧
    r.unassembledBytes = 2 ∧ r.streamOut.bytesWritten = 1 ∧ r.ackno = some ⟨3⟩ ∧ r.streamOut.eof = true := by
  have hread : Reach Start step respectsEnd readToEnd :=
    Reach.of_exec (s := new 8)
      (l := [.segmentReceived { header := { seqno := ⟨0⟩, syn := true } },
        .segmentReceived { payload := [97], header := { seqno := ⟨1⟩, fin := true } }, .read 1])
      (.start ⟨8, rfl⟩) (by decide +kernel)
  obtain ⟨r, hr, htest⟩ : ∃ r, Reach (· = readToEnd) step respectsEnd r ∧
      (r.unassembledBytes == 2) = true :=
    Reach.exec_any _ (s := readToEnd)
      (l := [.segmentReceived { payload := [97], header := { seqno := ⟨1⟩, fin := true } },
        .segmentReceived { payload := [98, 99], header := { seqno := ⟨4⟩ } }])
      (.start rfl) (by decide +kernel)
  obtain ⟨-, hwritten, hackno, heof, -⟩ := end_is_final hread rfl hr
  exact ⟨r, hr, beq_iff_eq.mp htest, hwritten, hackno, heof rfl⟩

/-- **A byte behind the end**: after the SYN and the FIN the stream is at eof; a byte with the FIN's sequence
number is written, acknowledged, and there is something to read again. -/
theorem byte_behind_end : ∃ r r' : TCPReceiver, Reach Start step (fun _ _ => True) r ∧
    r.streamOut.inputEnded = true ∧ r.streamOut.eof = true ∧
    r.segmentReceived { payload := [97], header := { seqno := ⟨1⟩ } } = .ok r' ∧
    r'.streamOut.bytesWritten ≠ r.streamOut.bytesWritten ∧ r'.ackno ≠ r.ackno ∧ r'.streamOut.eof = false := by
  obtain ⟨r, hr, htest⟩ : ∃ r, Reach Start step (fun _ _ => True) r ∧
      (r.streamOut.inputEnded && r.streamOut.eof &&
        returns (r.segmentReceived { payload := [97], header := { seqno := ⟨1⟩ } }) fun r' =>
          decide (r'.streamOut.bytesWritten ≠ r.streamOut.bytesWritten) && decide (r'.ackno ≠ r.ackno) &&
            !r'.streamOut.eof) = true :=
    Reach.exec_any _ (s := new 8)
      (l := [.segmentReceived { header := { seqno := ⟨0⟩, syn := true } },
        .segmentReceived { header := { seqno := ⟨1⟩, fin := true } }])
      (.start ⟨8, rfl⟩) (by decide +kernel)
  simp only [Bool.and_eq_true] at htest
  obtain ⟨⟨hend, heof⟩, hreturns⟩ := htest
  obtain ⟨r', hr', htest'⟩ := returns_iff.mp hreturns
  simp only [Bool.and_eq_true, decide_eq_true_eq, Bool.not_eq_true'] at htest'
  obtain ⟨⟨hwritten, hackno⟩, heof'⟩ := htest'
  exact ⟨r, r', hr, hend, heof, hr', hwritten, hackno, heof'⟩

end TCPReceiver

end Sponge
