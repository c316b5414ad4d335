/-
# `Sponge.TcpSender` — the sending half of an endpoint.

Models `libsponge/tcp_sender.{hh,cc}`.  `fill_window` reads from the outgoing stream what the window has
room for and cuts it into segments in a do-while loop that reuses one segment object: only the FIN flag,
the payload and the sequence number change from piece to piece, so a SYN flag stays on every piece.
`ack_received` pops the acknowledged front of the retransmission queue, `tick` resends its front.

Each of the three gets one lemma that says everything it can do.  `Batch` describes the segments of one
`fill_window` by the loop's own recursion; `fillWindow_cases` says that a call does nothing, finds the
FIN already queued, or enqueues one batch; `ackReceived_cases` says that an accepted acknowledgment drops
a front part of the queue.
-/
import Sponge.TcpSegment
import Sponge.ByteStream
import Sponge.Lib.Spans
import Mathlib.Data.List.Basic

namespace Sponge

open Sponge.Lib
open TCPConfig (MAX_PAYLOAD_SIZE)

/-! ## The source functions -/

/-- `TCPSenderSegment`: a segment in the retransmission queue, with its timeout and the time it was last
sent. -/
structure TCPSenderSegment where
  seg : TCPSegment
  rto : Nat := 0
  time : Nat := 0
  deriving DecidableEq, Repr

/-- `TCPSender`. -/
structure TCPSender where
  isn : WrappingInt32
  segmentsOut : List TCPSegment := []
  initialRetransmissionTimeout : Nat
  stream : ByteStream
  isSynReceived : Bool := false
  isFinReceived : Bool := false
  lastTickTime : Nat := 0
  consecutiveRetrans : Nat := 0
  windowSize : Nat := 1
  isWindowZero : Bool := false
  bytedInFlight : Nat := 0
  segQueue : List TCPSenderSegment := []
  nextSeqno : Nat := 0
  deriving DecidableEq, Repr

namespace TCPSender

/-- `TCPSender(capacity, retx_timeout, fixed_isn)`; `random` is what the random device returns. -/
def new (capacity : Nat) (retxTimeout : UInt16) (fixedIsn : Option WrappingInt32)
    (random : WrappingInt32) : TCPSender :=
  { isn := fixedIsn.getD random
    initialRetransmissionTimeout := retxTimeout.toNat
    stream := ByteStream.new capacity }

def bytesInFlight (s : TCPSender) : Nat := s.bytedInFlight

def nextSeqnoAbsolute (s : TCPSender) : Nat := s.nextSeqno

/-- `next_seqno`, the relative one. -/
def nextSeqno32 (s : TCPSender) : WrappingInt32 := wrap s.nextSeqno s.isn

def consecutiveRetransmissions (s : TCPSender) : Nat := s.consecutiveRetrans

/-- The do-while loop of `fill_window`.  Every round takes at least one byte off `readableSize` or ends
the loop, so `readableSize + 1` rounds are enough. -/
def fillLoop (bufferStr : Bytes) (isFin : Bool) :
    Nat → TCPSegment → Nat → Nat → TCPSender → Except Exception TCPSender
  | 0, _, _, _, s => .ok s
  | fuel + 1, seg, index, readableSize, s =>
    let header :=
      if isFin && decide (readableSize ≤ MAX_PAYLOAD_SIZE) then { seg.header with fin := true }
      else if isFin && decide (readableSize > MAX_PAYLOAD_SIZE) then { seg.header with fin := false }
      else seg.header
    (substr bufferStr (index * MAX_PAYLOAD_SIZE) (min MAX_PAYLOAD_SIZE readableSize)).bind fun payload =>
      let seg : TCPSegment :=
        { header := { header with seqno := wrap s.nextSeqno s.isn }, payload := payload }
      let s := { s with
        nextSeqno := s.nextSeqno + seg.lengthInSequenceSpace
        bytedInFlight := s.bytedInFlight + seg.lengthInSequenceSpace
        segmentsOut := s.segmentsOut ++ [seg]
        segQueue := s.segQueue ++
          [{ seg := seg, rto := s.initialRetransmissionTimeout, time := s.lastTickTime }] }
      let readableSize := if readableSize > MAX_PAYLOAD_SIZE then readableSize - MAX_PAYLOAD_SIZE else 0
      if readableSize > 0 then fillLoop bufferStr isFin fuel seg (index + 1) readableSize s else .ok s

/-- The last queued segment carries the FIN. -/
def finQueued (s : TCPSender) : Bool :=
  match s.segQueue.getLast? with
  | some back => back.seg.header.fin
  | none => false

/-- `fill_window` from the read on, with `syn` the SYN flag of the new segment. -/
def fillFrom (s : TCPSender) (remainingSize : Nat) (syn : Bool) : Except Exception TCPSender :=
  let readableSize := min remainingSize s.stream.bufferSize
  match s.stream.read readableSize with
  | (_, .error e) => .error e
  | (stream, .ok bufferStr) =>
    let s := { s with stream := stream }
    -- the early return of a queued FIN comes after the read
    if s.stream.eof && !s.isFinReceived && s.finQueued then .ok s
    else
      let seg : TCPSegment := { header := {
        syn := syn
        fin := s.stream.eof && !s.isFinReceived && decide (remainingSize ≥ readableSize + 1) } }
      if readableSize = 0 && !(seg.header.syn || seg.header.fin) then .ok s
      else fillLoop bufferStr seg.header.fin (readableSize + 1) seg 0 readableSize s

/-- `TCPSender::fill_window`. -/
def fillWindow (s : TCPSender) : Except Exception TCPSender :=
  let remainingSize := if s.windowSize > s.bytedInFlight then s.windowSize - s.bytedInFlight else 0
  if remainingSize = 0 then .ok s
  else if !s.isSynReceived then
    match s.segQueue with
    | front :: _ =>
      if front.seg.header.syn then .ok s
      else .error (.runtimeError "When syn is not ready, the front should have syn tag")
    | [] => s.fillFrom remainingSize true
  else s.fillFrom remainingSize false

/-- The loop of `ack_received`: pop the queue while its front ends at or before `ackSeqno`. -/
def popAcked (ackSeqno : Nat) : List TCPSenderSegment → TCPSender → Bool → TCPSender × Bool
  | [], s, shouldRestart => (s, shouldRestart)
  | front :: rest, s, shouldRestart =>
    if add64 (unwrap front.seg.header.seqno s.isn s.nextSeqno) front.seg.lengthInSequenceSpace
        ≤ ackSeqno then
      popAcked ackSeqno rest { s with
        consecutiveRetrans := 0
        isSynReceived := s.isSynReceived || front.seg.header.syn
        isFinReceived := s.isFinReceived || front.seg.header.fin
        bytedInFlight := sub64 s.bytedInFlight front.seg.lengthInSequenceSpace
        segQueue := rest } true
    else (s, shouldRestart)

/-- `TCPSender::ack_received`. -/
def ackReceived (s : TCPSender) (ackno : WrappingInt32) (windowSize : UInt16) : TCPSender :=
  let ackSeqno := unwrap ackno s.isn s.nextSeqno
  if ackSeqno > s.nextSeqno then s
  else
    let s := { s with
      windowSize := if windowSize = 0 then 1 else windowSize.toNat
      isWindowZero := windowSize == 0 }
    let (s, shouldRestart) := popAcked ackSeqno s.segQueue s false
    match s.segQueue with
    | [] => s
    | front :: rest =>
      if shouldRestart then
        { s with segQueue :=
          { front with rto := s.initialRetransmissionTimeout, time := s.lastTickTime } :: rest }
      else s

/-- `TCPSender::tick`. -/
def tick (s : TCPSender) (msSinceLastTick : Nat) : TCPSender :=
  let s := { s with lastTickTime := s.lastTickTime + msSinceLastTick }
  match s.segQueue with
  | [] => s
  | senderSeg :: rest =>
    if senderSeg.time + senderSeg.rto ≤ s.lastTickTime then
      { s with
        segQueue := { senderSeg with
          rto := if !s.isWindowZero then senderSeg.rto * 2 else senderSeg.rto
          time := s.lastTickTime } :: rest
        consecutiveRetrans := s.consecutiveRetrans + 1
        segmentsOut := s.segmentsOut ++ [senderSeg.seg] }
    else s

/-- `TCPSender::send_empty_segment`. -/
def sendEmptySegment (s : TCPSender) : TCPSender :=
  { s with segmentsOut := s.segmentsOut ++ [{ header := { seqno := s.nextSeqno32 } }] }

/-! ## The segments of one `fill_window` -/

/-- The sequence space that segments occupy. -/
abbrev space (segs : List TCPSegment) : Nat := span TCPSegment.lengthInSequenceSpace segs

/-- A piece of the stream as the loop builds it. -/
def stamp (isn : WrappingInt32) (n : Nat) (syn fin : Bool) (payload : Bytes) : TCPSegment :=
  { header := { seqno := wrap n isn, syn := syn, fin := fin }, payload := payload }

@[simp] theorem stamp_length (isn : WrappingInt32) (n : Nat) (syn fin : Bool) (payload : Bytes) :
    (stamp isn n syn fin payload).lengthInSequenceSpace
      = payload.length + (if syn then 1 else 0) + (if fin then 1 else 0) := rfl

/-- The pieces that `data`, sent from position `n` on, is cut into: full payloads, then the rest, which
alone carries the FIN. -/
inductive Batch (isn : WrappingInt32) (syn fin : Bool) : Nat → Bytes → List TCPSegment → Prop
  | last {n : Nat} {data : Bytes} (h : data.length ≤ MAX_PAYLOAD_SIZE) :
      Batch isn syn fin n data [stamp isn n syn fin data]
  | more {n : Nat} {data : Bytes} {segs : List TCPSegment} (h : MAX_PAYLOAD_SIZE < data.length)
      (rest : Batch isn syn fin
        (n + (stamp isn n syn false (data.take MAX_PAYLOAD_SIZE)).lengthInSequenceSpace)
        (data.drop MAX_PAYLOAD_SIZE) segs) :
      Batch isn syn fin n data (stamp isn n syn false (data.take MAX_PAYLOAD_SIZE) :: segs)

/-- New segments go out and into the retransmission queue. -/
def enqueue (s : TCPSender) (segs : List TCPSegment) : TCPSender :=
  { s with
    nextSeqno := s.nextSeqno + space segs
    bytedInFlight := s.bytedInFlight + space segs
    segmentsOut := s.segmentsOut ++ segs
    segQueue := s.segQueue ++ segs.map fun seg =>
      { seg := seg, rto := s.initialRetransmissionTimeout, time := s.lastTickTime } }

theorem enqueue_enqueue (s : TCPSender) (segs segs' : List TCPSegment) :
    (s.enqueue segs).enqueue segs' = s.enqueue (segs ++ segs') := by
  simp [enqueue, Nat.add_assoc, List.append_assoc]

/-- **The loop of `fill_window`** enqueues the batch of what is left of `bufferStr`. -/
theorem fillLoop_eq (bufferStr : Bytes) (syn : Bool) {isFin f : Bool} {fuel : Nat} {q : WrappingInt32}
    {p : Bytes} (index : Nat) {readableSize : Nat} {s : TCPSender} (hf : f = true → isFin = true)
    (hread : (bufferStr.drop (index * MAX_PAYLOAD_SIZE)).length = readableSize)
    (hle : index * MAX_PAYLOAD_SIZE ≤ bufferStr.length) (hfuel : readableSize < fuel) :
    ∃ segs, Batch s.isn syn isFin s.nextSeqno (bufferStr.drop (index * MAX_PAYLOAD_SIZE)) segs ∧
      fillLoop bufferStr isFin fuel { header := { seqno := q, syn := syn, fin := f }, payload := p }
        index readableSize s = .ok (s.enqueue segs) := by
  induction fuel generalizing f q p index readableSize s with
  | zero => exact absurd hfuel (Nat.not_lt_zero _)
  | succ fuel ih =>
    have hsub : substr bufferStr (index * MAX_PAYLOAD_SIZE) (min MAX_PAYLOAD_SIZE readableSize)
        = .ok ((bufferStr.drop (index * MAX_PAYLOAD_SIZE)).take MAX_PAYLOAD_SIZE) := by
      rw [substr_of_le hle, ← hread, ← List.take_eq_take_min]
    generalize hdata : bufferStr.drop (index * MAX_PAYLOAD_SIZE) = data at hread hsub ⊢
    rw [fillLoop]
    by_cases hbig : MAX_PAYLOAD_SIZE < readableSize
    · -- a full payload: the FIN, if there is one, waits for the last piece
      have hfin : (if isFin && decide (readableSize ≤ MAX_PAYLOAD_SIZE)
            then ({ seqno := q, syn := syn, fin := true } : TCPHeader)
          else if isFin && decide (readableSize > MAX_PAYLOAD_SIZE) then
            { seqno := q, syn := syn, fin := false } else { seqno := q, syn := syn, fin := f })
          = { seqno := q, syn := syn, fin := false } := by
        rw [decide_eq_false (by omega), Bool.and_false, if_neg (by simp), decide_eq_true hbig,
          Bool.and_true]
        cases isFin with
        | true => rfl
        | false =>
          have hf' : f = false := by simpa using hf
          rw [hf']
          rfl
      simp only [hfin, hsub, Except.bind, if_pos hbig, if_pos (Nat.sub_pos_of_lt hbig)]
      have hnext : bufferStr.drop ((index + 1) * MAX_PAYLOAD_SIZE) = data.drop MAX_PAYLOAD_SIZE := by
        rw [← hdata, List.drop_drop, Nat.succ_mul]
      have hlen := congrArg List.length hdata
      rw [List.length_drop, hread] at hlen
      have hpos : 0 < MAX_PAYLOAD_SIZE := by decide
      obtain ⟨segs, hb, hl⟩ := ih (index + 1)
        (s := s.enqueue [stamp s.isn s.nextSeqno syn false (data.take MAX_PAYLOAD_SIZE)])
        (f := false) (q := wrap s.nextSeqno s.isn) (p := data.take MAX_PAYLOAD_SIZE)
        (by simp) (by rw [hnext, List.length_drop, hread]) (by rw [Nat.succ_mul]; omega) (by omega)
      rw [hnext] at hb
      refine ⟨_, .more (by omega) hb, ?_⟩
      rw [enqueue_enqueue] at hl
      exact hl
    · have hfin : (if isFin && decide (readableSize ≤ MAX_PAYLOAD_SIZE)
            then ({ seqno := q, syn := syn, fin := true } : TCPHeader)
          else if isFin && decide (readableSize > MAX_PAYLOAD_SIZE) then
            { seqno := q, syn := syn, fin := false } else { seqno := q, syn := syn, fin := f })
          = { seqno := q, syn := syn, fin := isFin } := by
        rw [decide_eq_true (by omega), decide_eq_false hbig, Bool.and_false, Bool.and_true]
        cases isFin with
        | true => rfl
        | false =>
          have hf' : f = false := by simpa using hf
          rw [hf']
          rfl
      have hall : data.take MAX_PAYLOAD_SIZE = data := List.take_of_length_le (by omega)
      rw [hall] at hsub
      simp only [hfin, hsub, Except.bind, if_neg hbig, Nat.lt_irrefl, if_false]
      exact ⟨_, .last (by omega), rfl⟩

/-! ## What a batch looks like -/

section Batch

variable {isn : WrappingInt32} {syn fin : Bool} {n : Nat} {data : Bytes} {segs : List TCPSegment}

theorem Batch.ne_nil (h : Batch isn syn fin n data segs) : segs ≠ [] := by
  cases h <;> simp

/-- The payloads are the data, in order. -/
theorem Batch.payload (h : Batch isn syn fin n data segs) :
    segs.flatMap TCPSegment.payload = data := by
  induction h with
  | last _ => simp [stamp]
  | more _ _ ih => rw [List.flatMap_cons, ih, stamp, List.take_append_drop]

/-- Each segment is numbered with its own position. -/
theorem Batch.tagged (h : Batch isn syn fin n data segs) :
    Tagged TCPSegment.lengthInSequenceSpace (fun seg => seg.header.seqno) (fun k => wrap k isn) n segs := by
  induction h with
  | last _ => exact ⟨rfl, trivial⟩
  | more _ _ ih => exact ⟨rfl, ih⟩

/-- Every segment is a stamped piece of at most `MAX_PAYLOAD_SIZE` bytes with the batch's SYN flag. -/
theorem Batch.stamped (h : Batch isn syn fin n data segs) :
    ∀ seg ∈ segs, ∃ k f p, seg = stamp isn k syn f p ∧ p.length ≤ MAX_PAYLOAD_SIZE := by
  induction h with
  | last hle =>
    intro seg hseg
    exact ⟨_, _, _, List.mem_singleton.mp hseg, hle⟩
  | more _ _ ih =>
    intro seg hseg
    rcases List.mem_cons.mp hseg with rfl | hseg
    · exact ⟨_, _, _, rfl, by rw [List.length_take]; omega⟩
    · exact ih seg hseg

/-- The FIN is on the last segment only, and there iff the batch has one. -/
theorem Batch.fin_last (h : Batch isn syn fin n data segs) :
    (∀ seg ∈ segs.dropLast, seg.header.fin = false) ∧
    ∃ back, segs.getLast? = some back ∧ back.header.fin = fin := by
  induction h with
  | last _ => exact ⟨by simp, _, rfl, rfl⟩
  | more _ rest ih =>
    obtain ⟨h1, back, h2, h3⟩ := ih
    obtain ⟨g, gs, rfl⟩ := List.exists_cons_of_ne_nil rest.ne_nil
    refine ⟨?_, back, by simpa [List.getLast?_cons] using h2, h3⟩
    intro seg hseg
    rw [List.dropLast_cons_of_ne_nil (by simp)] at hseg
    rcases List.mem_cons.mp hseg with rfl | hseg
    · rfl
    · exact h1 seg hseg

/-- If anything is to be sent, no segment is empty in sequence space. -/
theorem Batch.occupied (h : Batch isn syn fin n data segs)
    (hsome : 0 < data.length ∨ syn = true ∨ fin = true) :
    ∀ seg ∈ segs, 0 < seg.lengthInSequenceSpace := by
  have hpos : 0 < MAX_PAYLOAD_SIZE := by decide
  induction h with
  | last _ =>
    intro seg hseg
    rw [List.mem_singleton.mp hseg, stamp_length]
    rcases hsome with h | h | h
    · omega
    · rw [if_pos h]
      omega
    · rw [if_pos h]
      omega
  | more hbig _ ih =>
    intro seg hseg
    rcases List.mem_cons.mp hseg with rfl | hseg
    · rw [stamp_length, List.length_take]
      omega
    · refine ih (Or.inl ?_) seg hseg
      rw [List.length_drop]
      omega

/-- The number of pieces. -/
theorem Batch.length_le (h : Batch isn syn fin n data segs) : segs.length ≤ data.length + 1 := by
  have hpos : 0 < MAX_PAYLOAD_SIZE := by decide
  induction h with
  | last _ => simp
  | more hbig _ ih =>
    rw [List.length_drop] at ih
    rw [List.length_cons]
    omega

/-- The sequence space of a batch: the bytes, a SYN on every piece, and the FIN. -/
theorem Batch.space_eq (h : Batch isn syn fin n data segs) :
    space segs = data.length + (if syn then segs.length else 0) + (if fin then 1 else 0) := by
  induction h with
  | last _ => simp [span]
  | more hbig _ ih =>
    rw [space, List.length_drop] at ih
    rw [space, span_cons, ih, stamp_length, List.length_take, List.length_cons]
    simp only [Bool.false_eq_true, if_false]
    cases syn with
    | true =>
      simp only [if_true]
      omega
    | false =>
      simp only [Bool.false_eq_true, if_false]
      omega

end Batch

/-! ## `fill_window` -/

/-- The bytes that a `fill_window` reads. -/
def readable (s : TCPSender) : Nat := min (s.windowSize - s.bytedInFlight) s.stream.contents.length

/-- The FIN flag of the batch that a `fill_window` builds. -/
def finFlag (s : TCPSender) : Bool :=
  (s.stream.read s.readable).1.eof && !s.isFinReceived &&
    decide (s.windowSize - s.bytedInFlight ≥ s.readable + 1)

/-- `fill_window` finds nothing to send: no room in the window, the SYN still in flight, nothing to read and
no FIN due, or the FIN queued already. -/
def idle (s : TCPSender) : Prop :=
  s.windowSize ≤ s.bytedInFlight ∨
  (s.isSynReceived = false ∧ s.segQueue ≠ []) ∨
  (s.isSynReceived = true ∧ s.readable = 0 ∧ s.finFlag = false) ∨
  ((s.stream.read s.readable).1.eof = true ∧ s.isFinReceived = false ∧ s.finQueued = true)

instance (s : TCPSender) : Decidable s.idle := by
  unfold idle
  infer_instance

/-- `s'` is `s` after a `fill_window` that created the segments `segs`. -/
structure Filled (s : TCPSender) (segs : List TCPSegment) (s' : TCPSender) : Prop where
  room : s.bytedInFlight < s.windowSize
  /-- The window is far below what a string can hold. -/
  short : s.readable ≤ maxSize
  /-- A SYN is only built with nothing in flight. -/
  opening : s.isSynReceived = false → s.segQueue = []
  batch : Batch s.isn (!s.isSynReceived) s.finFlag s.nextSeqno (s.stream.contents.take s.readable) segs
  occupied : 0 < (s.stream.contents.take s.readable).length ∨ (!s.isSynReceived) = true ∨
    s.finFlag = true
  /-- A queued FIN ends the stream for good. -/
  open_ : (s.stream.read s.readable).1.eof = true → s.isFinReceived = false → s.finQueued = false
  result : s' = { s with stream := (s.stream.read s.readable).1 }.enqueue segs

/-- The bytes and the FIN of a batch fit the free window; the SYN is not counted. -/
theorem Filled.data_fits {s s' : TCPSender} {segs : List TCPSegment} (h : Filled s segs s') :
    (s.stream.contents.take s.readable).length + (if s.finFlag then 1 else 0)
      ≤ s.windowSize - s.bytedInFlight := by
  have hroom := h.room
  have hread : s.readable ≤ s.windowSize - s.bytedInFlight := Nat.min_le_left _ _
  rw [List.length_take]
  split
  · rename_i hfin
    simp only [finFlag, Bool.and_eq_true, decide_eq_true_eq] at hfin
    omega
  · omega

theorem Filled.space_eq {s s' : TCPSender} {segs : List TCPSegment} (h : Filled s segs s') :
    space segs = (s.stream.contents.take s.readable).length
      + (if s.isSynReceived then 0 else segs.length) + (if s.finFlag then 1 else 0) := by
  rw [h.batch.space_eq]
  cases s.isSynReceived <;> rfl

theorem Filled.not_idle {s s' : TCPSender} {segs : List TCPSegment} (h : Filled s segs s') : ¬ s.idle := by
  rintro (hfull | ⟨hsyn, hqueue⟩ | ⟨hsyn, hread, hfin⟩ | ⟨heof, hfin, hqueued⟩)
  · exact absurd h.room (Nat.not_lt.mpr hfull)
  · exact hqueue (h.opening hsyn)
  · have hoccupied := h.occupied
    rw [hread, hsyn, hfin] at hoccupied
    simp at hoccupied
  · rw [h.open_ heof hfin] at hqueued
    exact absurd hqueued (by decide)

theorem fillFrom_cases {s : TCPSender} (hwf : s.stream.WF) (hwin : s.windowSize ≤ 65535)
    (hroom : s.bytedInFlight < s.windowSize)
    (hopen : s.isSynReceived = false → s.segQueue = []) :
    ∃ s', s.fillFrom (s.windowSize - s.bytedInFlight) (!s.isSynReceived) = .ok s' ∧
      ((s.idle ∧ (s' = s ∨ (s.finQueued = true ∧ s' = { s with stream := (s.stream.read s.readable).1 }))) ∨
        ∃ segs, Filled s segs s') := by
  have hmin : min (s.windowSize - s.bytedInFlight) s.stream.bufferSize = s.readable := by
    rw [hwf.bufferSize, readable]
  have hle : s.readable ≤ s.stream.contents.length := Nat.min_le_right _ _
  have hshort : s.readable ≤ maxSize := by
    have hmost : s.readable ≤ s.windowSize - s.bytedInFlight := Nat.min_le_left _ _
    rw [maxSize]
    omega
  have hread := hwf.read_of_le hshort hle
  rw [fillFrom, hmin, hread]
  dsimp only
  by_cases hqueued : ((s.stream.read s.readable).1.eof && !s.isFinReceived && s.finQueued) = true
  · -- the FIN is already on its way
    refine ⟨_, if_pos hqueued, Or.inl ?_⟩
    simp only [Bool.and_eq_true, Bool.not_eq_true'] at hqueued
    exact ⟨Or.inr (Or.inr (Or.inr ⟨hqueued.1.1, hqueued.1.2, hqueued.2⟩)), Or.inr ⟨hqueued.2, rfl⟩⟩
  · rw [if_neg (by exact hqueued)]
    by_cases hnone : (decide (s.readable = 0) && !(!s.isSynReceived || s.finFlag)) = true
    · -- nothing to send: the read was empty
      have hidle : s.readable = 0 ∧ s.isSynReceived = true ∧ s.finFlag = false := by
        simpa using hnone
      refine ⟨{ s with stream := (s.stream.read s.readable).1 }, if_pos hnone, Or.inl ⟨?_, Or.inl ?_⟩⟩
      · exact Or.inr (Or.inr (Or.inl ⟨hidle.2.1, hidle.1, hidle.2.2⟩))
      · rw [hidle.1, ByteStream.read_zero]
    · rw [if_neg (by exact hnone)]
      have hlen : (s.stream.contents.take s.readable).length = s.readable := by
        rw [List.length_take]
        omega
      have hloop := fillLoop_eq (s.stream.contents.take s.readable) (!s.isSynReceived) 0
        (s := { s with stream := (s.stream.read s.readable).1 }) (q := ⟨0⟩) (p := [])
        (fun h : s.finFlag = true => h) hlen (Nat.zero_le _) (Nat.lt_succ_self _)
      obtain ⟨segs, hb, hl⟩ := hloop
      refine ⟨_, hl, Or.inr ⟨segs, hroom, hshort, hopen, hb, ?_, fun he hf => ?_, rfl⟩⟩
      · rw [hlen]
        by_contra hcon
        apply hnone
        simp only [not_or, Nat.not_lt, Nat.le_zero] at hcon
        rw [hcon.1, eq_false_of_ne_true hcon.2.1, eq_false_of_ne_true hcon.2.2]
        rfl
      · by_contra hcon
        apply hqueued
        rw [he, hf, eq_true_of_ne_false hcon]
        rfl

/-- **`fill_window`**, in states whose queue starts with the SYN until the SYN is acknowledged: it never
throws; it is idle and changes nothing, or at most reads on behind a FIN that is queued already; or it
creates one batch. -/
theorem fillWindow_cases {s : TCPSender} (hwf : s.stream.WF) (hwin : s.windowSize ≤ 65535)
    (hfront : s.isSynReceived = false → ∀ front rest, s.segQueue = front :: rest →
      front.seg.header.syn = true) :
    ∃ s', s.fillWindow = .ok s' ∧
      ((s.idle ∧ (s' = s ∨ (s.finQueued = true ∧ s' = { s with stream := (s.stream.read s.readable).1 }))) ∨
        ∃ segs, Filled s segs s') := by
  by_cases hroom : s.windowSize > s.bytedInFlight
  · by_cases hopen : s.isSynReceived = false → s.segQueue = []
    · have hfrom : s.fillWindow = s.fillFrom (s.windowSize - s.bytedInFlight) (!s.isSynReceived) := by
        rw [fillWindow, if_pos hroom, if_neg (Nat.sub_ne_zero_of_lt hroom)]
        cases hsyn : s.isSynReceived with
        | true => rfl
        | false => rw [hopen hsyn]; rfl
      rw [hfrom]
      exact fillFrom_cases hwf hwin hroom hopen
    · -- the SYN is in flight
      rw [Classical.not_imp] at hopen
      obtain ⟨front, rest, hq⟩ := List.exists_cons_of_ne_nil hopen.2
      refine ⟨s, ?_, Or.inl ⟨Or.inr (Or.inl hopen), Or.inl rfl⟩⟩
      rw [fillWindow, if_pos hroom, if_neg (Nat.sub_ne_zero_of_lt hroom), hopen.1, hq]
      exact if_pos (hfront hopen.1 front rest hq)
  · refine ⟨s, ?_, Or.inl ⟨Or.inl (Nat.le_of_not_lt hroom), Or.inl rfl⟩⟩
    rw [fillWindow, if_neg hroom]
    rfl

/-! ## `ack_received` and `tick` -/

/-- The segments in the retransmission queue. -/
def queued (s : TCPSender) : List TCPSegment := s.segQueue.map TCPSenderSegment.seg

/-- `s'` is `s` after the first `j` queued segments have been acknowledged. -/
structure Popped (s : TCPSender) (j : Nat) (s' : TCPSender) : Prop where
  le : j ≤ s.queued.length
  queue : s'.queued = s.queued.drop j
  syn : s'.isSynReceived = (s.isSynReceived || (s.queued.take j).any fun seg => seg.header.syn)
  fin : s'.isFinReceived = (s.isFinReceived || (s.queued.take j).any fun seg => seg.header.fin)
  inFlight : s.bytedInFlight = space s.queued → s'.bytedInFlight = space s'.queued
  isn : s'.isn = s.isn
  nextSeqno : s'.nextSeqno = s.nextSeqno
  stream : s'.stream = s.stream
  segmentsOut : s'.segmentsOut = s.segmentsOut

theorem Popped.refl (s : TCPSender) : Popped s 0 s :=
  ⟨Nat.zero_le _, rfl, by simp, by simp, fun h => h, rfl, rfl, rfl, rfl⟩

/-- What the loop of `ack_received` does with the timers when it pops `j` segments: the others keep theirs, and
the count of timeouts starts again if anything was popped. -/
structure Trimmed (s : TCPSender) (j : Nat) (s' : TCPSender) : Prop where
  segQueue : s'.segQueue = s.segQueue.drop j
  count : s'.consecutiveRetrans = if 0 < j then 0 else s.consecutiveRetrans
  windowSize : s'.windowSize = s.windowSize
  isWindowZero : s'.isWindowZero = s.isWindowZero
  time : s'.lastTickTime = s.lastTickTime
  initial : s'.initialRetransmissionTimeout = s.initialRetransmissionTimeout

theorem Trimmed.refl (s : TCPSender) : Trimmed s 0 s := ⟨rfl, rfl, rfl, rfl, rfl, rfl⟩

/-- Where the code takes a queued segment to end. -/
def endOf (s : TCPSender) (seg : TCPSegment) : Nat :=
  add64 (unwrap seg.header.seqno s.isn s.nextSeqno) seg.lengthInSequenceSpace

/-- **The loop of `ack_received`** pops the longest front part whose segments all end at or before the
acknowledgment, and its flag says whether anything was popped. -/
theorem popAcked_spec (ackSeqno : Nat) {queue : List TCPSenderSegment} {s : TCPSender}
    (hq : s.segQueue = queue) (shouldRestart : Bool) :
    ∃ j, Popped s j (popAcked ackSeqno queue s shouldRestart).1 ∧
      Trimmed s j (popAcked ackSeqno queue s shouldRestart).1 ∧
      (popAcked ackSeqno queue s shouldRestart).2 = (shouldRestart || decide (0 < j)) ∧
      (∀ seg ∈ s.queued.take j, s.endOf seg ≤ ackSeqno) ∧
      (∀ seg, s.queued[j]? = some seg → ackSeqno < s.endOf seg) := by
  induction queue generalizing s shouldRestart with
  | nil =>
    have hnil : s.queued = [] := by rw [queued, hq, List.map_nil]
    exact ⟨0, Popped.refl s, Trimmed.refl s, by simp [popAcked], by simp, by simp [hnil]⟩
  | cons front rest ih =>
    have hcons : s.queued = front.seg :: rest.map TCPSenderSegment.seg := by
      rw [queued, hq, List.map_cons]
    have hend : add64 (unwrap front.seg.header.seqno s.isn s.nextSeqno) front.seg.lengthInSequenceSpace
        = s.endOf front.seg := rfl
    rw [popAcked, hend]
    by_cases hle : s.endOf front.seg ≤ ackSeqno
    · rw [if_pos hle]
      obtain ⟨j, hp, ht, hflag, h1, h2⟩ := ih (s := { s with
        consecutiveRetrans := 0
        isSynReceived := s.isSynReceived || front.seg.header.syn
        isFinReceived := s.isFinReceived || front.seg.header.fin
        bytedInFlight := sub64 s.bytedInFlight front.seg.lengthInSequenceSpace
        segQueue := rest }) rfl true
      have hq' : ∀ t : TCPSender, t.segQueue = rest → t.queued = rest.map TCPSenderSegment.seg := by
        intro t ht
        rw [queued, ht]
      rw [hq' _ rfl] at h1 h2
      refine ⟨j + 1, ⟨?_, ?_, ?_, ?_, ?_, hp.isn, hp.nextSeqno, hp.stream, hp.segmentsOut⟩,
        ⟨?_, ?_, ht.windowSize, ht.isWindowZero, ht.time, ht.initial⟩, ?_, ?_, ?_⟩
      · have := hp.le
        rw [hq' _ rfl] at this
        rw [hcons, List.length_cons]
        omega
      · rw [hp.queue, hq' _ rfl, hcons, List.drop_succ_cons]
      · rw [hp.syn, hq' _ rfl, hcons, List.take_succ_cons, List.any_cons, Bool.or_assoc]
      · rw [hp.fin, hq' _ rfl, hcons, List.take_succ_cons, List.any_cons, Bool.or_assoc]
      · intro hflight
        refine hp.inFlight ?_
        rw [hq' _ rfl, hflight, hcons, space, span_cons, sub64_of_le (Nat.le_add_right _ _),
          Nat.add_sub_cancel_left]
      · rw [ht.segQueue, hq, List.drop_succ_cons]
      · rw [ht.count, if_pos (Nat.succ_pos j)]
        exact ite_self 0
      · rw [hflag, decide_eq_true (Nat.succ_pos j), Bool.or_true, Bool.true_or]
      · intro seg hseg
        rw [hcons, List.take_succ_cons] at hseg
        rcases List.mem_cons.mp hseg with rfl | hseg
        · exact hle
        · exact h1 seg hseg
      · intro seg hseg
        rw [hcons, List.getElem?_cons_succ] at hseg
        exact h2 seg hseg
    · rw [if_neg hle]
      refine ⟨0, Popped.refl s, Trimmed.refl s, by simp, by simp, ?_⟩
      intro seg hseg
      rw [hcons, List.getElem?_cons_zero, Option.some.injEq] at hseg
      rw [← hseg]
      omega

/-- **`ack_received`**: an acknowledgment beyond `_next_seqno` changes nothing; any other sets the window
and pops what it covers. -/
theorem ackReceived_cases (s : TCPSender) (ackno : WrappingInt32) (windowSize : UInt16) :
    (s.nextSeqno < unwrap ackno s.isn s.nextSeqno ∧ s.ackReceived ackno windowSize = s) ∨
    (unwrap ackno s.isn s.nextSeqno ≤ s.nextSeqno ∧ ∃ j, Popped s j (s.ackReceived ackno windowSize) ∧
      (s.ackReceived ackno windowSize).windowSize = (if windowSize = 0 then 1 else windowSize.toNat) ∧
      (∀ seg ∈ s.queued.take j, s.endOf seg ≤ unwrap ackno s.isn s.nextSeqno) ∧
      (∀ seg, s.queued[j]? = some seg → unwrap ackno s.isn s.nextSeqno < s.endOf seg)) := by
  by_cases hgt : unwrap ackno s.isn s.nextSeqno > s.nextSeqno
  · exact Or.inl ⟨hgt, by rw [ackReceived, if_pos hgt]⟩
  · refine Or.inr ⟨by omega, ?_⟩
    obtain ⟨j, hp, ht, -, h1, h2⟩ := popAcked_spec (unwrap ackno s.isn s.nextSeqno) (s := { s with
      windowSize := if windowSize = 0 then 1 else windowSize.toNat
      isWindowZero := windowSize == 0 }) rfl false
    refine ⟨j, ?_, ?_, h1, h2⟩
    all_goals
      rw [ackReceived, if_neg hgt]
      dsimp only
      generalize popAcked (unwrap ackno s.isn s.nextSeqno) s.segQueue { s with
        windowSize := if windowSize = 0 then 1 else windowSize.toNat
        isWindowZero := windowSize == 0 } false = res at hp ht
    -- restarting the timer of the new front does not touch its segment
    · have hp' : Popped s j res.1 :=
        ⟨hp.le, hp.queue, hp.syn, hp.fin, hp.inFlight, hp.isn, hp.nextSeqno, hp.stream, hp.segmentsOut⟩
      cases hq : res.1.segQueue with
      | nil => exact hp'
      | cons front rest =>
        dsimp only
        split
        · have hsame : ∀ t : TCPSenderSegment, t.seg = front.seg →
              ({ res.1 with segQueue := t :: rest } : TCPSender).queued = res.1.queued := by
            intro t ht
            rw [queued, queued, hq, List.map_cons, List.map_cons, ht]
          exact ⟨hp'.le, (hsame _ rfl).trans hp'.queue, hp'.syn, hp'.fin,
            fun h => (hp'.inFlight h).trans (congrArg space (hsame _ rfl).symm), hp'.isn, hp'.nextSeqno,
            hp'.stream, hp'.segmentsOut⟩
        · exact hp'
    · cases res.1.segQueue with
      | nil => exact ht.windowSize
      | cons front rest =>
        dsimp only
        split <;> exact ht.windowSize

/-- Whatever the acknowledgment, some front part of the queue goes, and nothing else but the window
changes. -/
theorem ackReceived_popped (s : TCPSender) (ackno : WrappingInt32) (windowSize : UInt16) :
    ∃ j, Popped s j (s.ackReceived ackno windowSize) := by
  rcases s.ackReceived_cases ackno windowSize with ⟨-, heq⟩ | ⟨-, j, hp, -, -, -⟩
  · exact ⟨0, by rw [heq]; exact Popped.refl s⟩
  · exact ⟨j, hp⟩

/-- `s'` differs from `s` at most in the timers and in a repeated front segment. -/
structure Ticked (s s' : TCPSender) : Prop where
  queue : s'.queued = s.queued
  isn : s'.isn = s.isn
  nextSeqno : s'.nextSeqno = s.nextSeqno
  stream : s'.stream = s.stream
  syn : s'.isSynReceived = s.isSynReceived
  fin : s'.isFinReceived = s.isFinReceived
  inFlight : s'.bytedInFlight = s.bytedInFlight
  window : s'.windowSize = s.windowSize
  segmentsOut : s'.segmentsOut = s.segmentsOut ∨
    ∃ seg ∈ s.queued, s'.segmentsOut = s.segmentsOut ++ [seg]

/-- **`tick`** resends at most the front of the queue. -/
theorem tick_ticked (s : TCPSender) (msSinceLastTick : Nat) : Ticked s (s.tick msSinceLastTick) := by
  rw [tick]
  cases hq : s.segQueue with
  | nil => exact ⟨by simp [queued, hq], rfl, rfl, rfl, rfl, rfl, rfl, rfl, Or.inl rfl⟩
  | cons senderSeg rest =>
    dsimp only
    split
    · exact ⟨by simp [queued, hq], rfl, rfl, rfl, rfl, rfl, rfl, rfl,
        Or.inr ⟨senderSeg.seg, by simp [queued, hq], rfl⟩⟩
    · exact ⟨by simp [queued, hq], rfl, rfl, rfl, rfl, rfl, rfl, rfl, Or.inl rfl⟩

/-- The retransmission timer of the oldest segment in flight has run out. -/
def timedOut (s : TCPSender) (msSinceLastTick : Nat) : Bool :=
  s.segQueue.head?.any fun front => decide (front.time + front.rto ≤ s.lastTickTime + msSinceLastTick)

/-- **`tick`** counts, and resends the front, exactly when the timer has run out. -/
theorem tick_timedOut (s : TCPSender) (ms : Nat) :
    (s.tick ms).consecutiveRetrans = s.consecutiveRetrans + (if s.timedOut ms then 1 else 0) ∧
    (s.tick ms).isWindowZero = s.isWindowZero ∧
    (s.tick ms).segmentsOut = s.segmentsOut ++ (if s.timedOut ms then s.queued.take 1 else []) := by
  cases hq : s.segQueue with
  | nil =>
    have hout : s.timedOut ms = false := by rw [timedOut, hq]; rfl
    rw [hout, tick, hq]
    exact ⟨rfl, rfl, (List.append_nil _).symm⟩
  | cons front rest =>
    have hout : s.timedOut ms = decide (front.time + front.rto ≤ s.lastTickTime + ms) := by
      rw [timedOut, hq]
      rfl
    rw [tick, queued, hq]
    dsimp only
    by_cases hdue : front.time + front.rto ≤ s.lastTickTime + ms
    · rw [if_pos hdue, hout.trans (decide_eq_true hdue)]
      exact ⟨rfl, rfl, rfl⟩
    · rw [if_neg hdue, hout.trans (decide_eq_false hdue)]
      exact ⟨rfl, rfl, (List.append_nil _).symm⟩

@[simp] theorem enqueue_queued (s : TCPSender) (segs : List TCPSegment) :
    (s.enqueue segs).queued = s.queued ++ segs := by
  simp [enqueue, queued, Function.comp_def]

/-- The last of the segments carries the FIN. -/
def endsInFin (segs : List TCPSegment) : Bool := segs.getLast?.any fun seg => seg.header.fin

theorem endsInFin_append {segs segs' : List TCPSegment} (h : segs' ≠ []) :
    endsInFin (segs ++ segs') = endsInFin segs' := by
  rw [endsInFin, List.getLast?_append_of_ne_nil _ h, endsInFin]

theorem exists_fin_of_endsInFin {segs : List TCPSegment} (h : endsInFin segs = true) :
    ∃ seg ∈ segs, seg.header.fin = true := by
  rw [endsInFin] at h
  cases hback : segs.getLast? with
  | none =>
    rw [hback] at h
    exact absurd h (by decide)
  | some back =>
    rw [hback] at h
    exact ⟨back, List.mem_of_getLast? hback, h⟩

theorem finQueued_eq (s : TCPSender) : s.finQueued = endsInFin s.queued := by
  rw [finQueued, endsInFin, queued, List.getLast?_map]
  cases s.segQueue.getLast? <;> rfl

end TCPSender

end Sponge
