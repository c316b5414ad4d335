/-
# `Sponge.SenderWire` — what the segments of a sender mean to a receiver.

A receiver sees a sender only through its segments.  For a sender whose window is still 1 when it opens
the connection, which is the case as long as it only hears acknowledgments of what it has sent, the opening
batch is one segment (`Wired`): a bare SYN, a SYN with the FIN of an empty stream, or a SYN with the first
byte.  From then on the sequence space runs one ahead of the stream: the segment after `q` bytes of
payload starts at position `q + 1`, and the FIN stands at position `|stream| + 1`.  Whatever else the
sender emits is blank.
-/
import Sponge.SenderQueue

namespace Sponge

open Sponge.Lib
open TCPConfig (MAX_PAYLOAD_SIZE)

/-- A segment without flags and payload: an acknowledgment, or an answer to a keep-alive. -/
structure Blank (seg : TCPSegment) : Prop where
  rst : seg.header.rst = false
  syn : seg.header.syn = false
  fin : seg.header.fin = false
  payload : seg.payload = []

namespace SenderRun

open TCPSender (Filled Popped Ticked)

/-- A sender as its peer sees it. -/
structure Wired (s : TCPSender) (accepted : Bytes) (created : List TCPSegment) : Prop
    extends Segmented s accepted created where
  /-- Every payload byte was read from the stream. -/
  read : s.stream.bytesRead = (payloads created).length
  /-- Only the first segment carries the SYN. -/
  lone : ∀ seg rest, created = seg :: rest → ∀ g ∈ rest, g.header.syn = false
  /-- The first segment carries at most one byte, and then no FIN. -/
  opening : ∀ seg rest, created = seg :: rest →
    seg.payload = [] ∨ (seg.payload.length = 1 ∧ seg.header.fin = false)
  unopened : created = [] → s.windowSize = 1
  /-- The connection has yet to stamp what the sender queues. -/
  plain : ∀ seg ∈ created, seg.header.rst = false ∧ seg.header.ack = false
  occupied : ∀ seg ∈ created, 0 < seg.lengthInSequenceSpace
  /-- Until the SYN is acknowledged nothing follows it. -/
  waiting : s.isSynReceived = false → created.length ≤ 1
  out : ∀ seg ∈ s.segmentsOut, seg ∈ created ∨ (Blank seg ∧ seg.header.ack = false)

variable {s s' : TCPSender} {accepted : Bytes} {created segs : List TCPSegment}

theorem Wired.new (capacity : Nat) (retxTimeout : UInt16) (fixedIsn : Option WrappingInt32)
    (random : WrappingInt32) : Wired (TCPSender.new capacity retxTimeout fixedIsn random) [] [] :=
  ⟨Segmented.new capacity retxTimeout fixedIsn random, rfl, by simp, by simp, fun _ => rfl, by simp,
    by simp, fun _ => Nat.zero_le _, by simp [TCPSender.new]⟩

/-- A call that leaves the stream's reader and the window alone. -/
theorem Wired.same {accepted' : Bytes} (h : Wired s accepted created) (hs : Segmented s' accepted' created)
    (hread : s'.stream.bytesRead = s.stream.bytesRead)
    (hwin : created = [] → s'.windowSize = s.windowSize)
    (hsyn : s'.isSynReceived = false → s.isSynReceived = false)
    (hout : ∀ seg ∈ s'.segmentsOut, seg ∈ created ∨ (Blank seg ∧ seg.header.ack = false)) :
    Wired s' accepted' created :=
  ⟨hs, hread.trans h.read, h.lone, h.opening, fun hnil => (hwin hnil).trans (h.unopened hnil), h.plain,
    h.occupied, fun hs => h.waiting (hsyn hs), hout⟩

/-- The sequence space sent is at most the stream, a SYN and a FIN. -/
theorem Wired.next_le (h : Wired s accepted created) : s.nextSeqno ≤ accepted.length + 2 := by
  have hlen := h.payload_length
  rw [h.next, space_eq_counts]
  have hfin : created.countP (fun seg => seg.header.fin) ≤ 1 := by
    rcases List.eq_nil_or_concat created with rfl | ⟨front, back, rfl⟩
    · simp
    · have hzero := h.countP_fin (k := front.length) (by simp)
      rw [List.concat_eq_append, List.take_left] at hzero
      rw [List.concat_eq_append, List.countP_append, hzero, List.countP_singleton]
      split <;> omega
  have hsyn : created.countP (fun seg => seg.header.syn) ≤ 1 := by
    by_cases hne : created = []
    · simp [hne]
    · have hone := h.countP_syn h.lone (k := created.length) (List.length_pos_of_ne_nil hne) hne
      rw [List.take_length] at hone
      omega
  omega

/-! ## The calls -/

/-- The opening batch of a window of 1 is a single segment. -/
theorem Wired.filled_opening (h : Wired s accepted []) (hf : Filled s segs s') :
    ∃ seg, segs = [seg] ∧ (seg.payload = [] ∨ (seg.payload.length = 1 ∧ seg.header.fin = false)) := by
  have hwin := h.unopened rfl
  have hroom := hf.room
  have hfits := hf.data_fits
  have hbatch := hf.batch
  generalize s.stream.contents.take s.readable = data at hfits hbatch
  have hone : data.length ≤ 1 := by omega
  cases hbatch with
  | last _ =>
    refine ⟨_, rfl, ?_⟩
    by_cases hz : data = []
    · exact Or.inl hz
    · have hpos := List.length_pos_of_ne_nil hz
      refine Or.inr ⟨(by omega : data.length = 1), ?_⟩
      show s.finFlag = false
      by_contra hfin
      rw [if_pos (eq_true_of_ne_false hfin)] at hfits
      omega
  | more hbig _ =>
    have hmax : 1 < MAX_PAYLOAD_SIZE := by decide
    omega

/-- A batch before the acknowledgment of the SYN is the first one. -/
theorem Wired.filled_first (h : Wired s accepted created) (hf : Filled s segs s')
    (hsyn : s.isSynReceived = false) : created = [] := by
  rw [← h.toKept.all_queued hsyn, TCPSender.queued, hf.opening hsyn, List.map_nil]

/-- After the opening, a batch carries no SYN. -/
theorem Wired.filled_later (h : Wired s accepted created) (hne : created ≠ []) (hf : Filled s segs s') :
    ∀ seg ∈ segs, seg.header.syn = false := by
  have hsyn : s.isSynReceived = true := by
    by_contra hcon
    exact hne (h.filled_first hf (eq_false_of_ne_true hcon))
  intro seg hseg
  obtain ⟨k, f, p, rfl, -⟩ := hf.batch.stamped seg hseg
  show (!s.isSynReceived) = false
  rw [hsyn]
  rfl

theorem Wired.filled (h : Wired s accepted created) (hf : Filled s segs s') :
    Wired s' accepted (created ++ segs) := by
  have hseg := h.toSegmented.filled hf
  have hread : s'.stream.bytesRead = s.stream.bytesRead
      + (s.stream.contents.take s.readable).length := by
    rw [← h.wf.peeked, ← s.stream.removed_of_le hf.short, hf.result]
    exact (h.wf.read s.readable).2.2
  refine ⟨hseg, ?_, ?_, ?_, fun hnil => ?_, ?_, ?_, fun hsyn => ?_, ?_⟩
  · have hdata : payloads segs = s.stream.contents.take s.readable := hf.batch.payload
    rw [hread, h.read, payloads_append, List.length_append, hdata]
  · -- the opening batch is alone, and a later one carries no SYN
    intro seg rest heq g hg
    cases created with
    | nil =>
      obtain ⟨g0, rfl, -⟩ := h.filled_opening hf
      obtain ⟨-, rfl⟩ := List.cons.inj heq
      exact absurd hg (by simp)
    | cons g0 old =>
      rw [List.cons_append] at heq
      obtain ⟨-, rfl⟩ := List.cons.inj heq
      rcases List.mem_append.mp hg with hg | hg
      · exact h.lone g0 old rfl g hg
      · exact h.filled_later (by simp) hf g hg
  · intro seg rest heq
    cases created with
    | nil =>
      obtain ⟨g0, rfl, hg0⟩ := h.filled_opening hf
      obtain ⟨rfl, -⟩ := List.cons.inj heq
      exact hg0
    | cons g0 old =>
      rw [List.cons_append] at heq
      obtain ⟨rfl, -⟩ := List.cons.inj heq
      exact h.opening g0 old rfl
  · exact absurd (List.append_eq_nil_iff.mp hnil).2 hf.batch.ne_nil
  · intro seg hseg
    rcases List.mem_append.mp hseg with hseg | hseg
    · exact h.plain seg hseg
    · obtain ⟨k, f, p, rfl, -⟩ := hf.batch.stamped seg hseg
      exact ⟨rfl, rfl⟩
  · intro seg hseg
    rcases List.mem_append.mp hseg with hseg | hseg
    · exact h.occupied seg hseg
    · exact hf.batch.occupied hf.occupied seg hseg
  · rw [hf.result] at hsyn
    obtain rfl := h.filled_first hf hsyn
    obtain ⟨g, rfl, -⟩ := h.filled_opening hf
    exact Nat.le_refl 1
  · intro seg hseg
    rw [hf.result] at hseg
    rcases List.mem_append.mp hseg with hseg | hseg
    · exact (h.out seg hseg).imp_left (List.mem_append_left _)
    · exact Or.inl (List.mem_append_right _ hseg)

theorem Wired.fillWindow (h : Wired s accepted created) (hs : s.fillWindow = .ok s') :
    Wired s' accepted (created ++ newSegments s s') := by
  rcases h.toSegmented.fillWindow_ok hs with ⟨hnil, rfl⟩ | hf
  · rwa [hnil, List.append_nil]
  · exact h.filled hf

/-- An acknowledgment of something that was sent. -/
theorem Wired.ackReceived (h : Wired s accepted created) (hne : created ≠ []) (ackno : WrappingInt32)
    (windowSize : UInt16) : Wired (s.ackReceived ackno windowSize) accepted created := by
  have hseg := h.toSegmented.ackReceived ackno windowSize
  obtain ⟨j, hp⟩ := s.ackReceived_popped ackno windowSize
  generalize s.ackReceived ackno windowSize = s' at hseg hp ⊢
  refine h.same hseg (by rw [hp.stream]) (fun hnil => absurd hnil hne) (fun hs => ?_) ?_
  · rw [hp.syn, Bool.or_eq_false_iff] at hs
    exact hs.1
  · rw [hp.segmentsOut]
    exact h.out

theorem Wired.ticked (h : Wired s accepted created) (ht : Ticked s s') : Wired s' accepted created := by
  refine h.same (h.toSegmented.ticked ht) (by rw [ht.stream]) (fun _ => ht.window)
    (fun hs => ht.syn.symm.trans hs) ?_
  rcases ht.segmentsOut with heq | ⟨g, hg, heq⟩
  · rw [heq]
    exact h.out
  · intro seg hseg
    rw [heq] at hseg
    rcases List.mem_append.mp hseg with hseg | hseg
    · exact h.out seg hseg
    · rw [List.mem_singleton.mp hseg]
      exact Or.inl (h.queue.subset hg)

theorem Wired.withSegmentsOut (h : Wired s accepted created) (out : List TCPSegment)
    (hout : ∀ seg ∈ out, seg ∈ created ∨ (Blank seg ∧ seg.header.ack = false)) :
    Wired { s with segmentsOut := out } accepted created :=
  h.same (h.toSegmented.same (h.toKept.same h.wf rfl rfl rfl rfl rfl rfl) rfl rfl rfl) rfl (fun _ => rfl)
    id hout

theorem Wired.sendEmptySegment (h : Wired s accepted created) :
    Wired s.sendEmptySegment accepted created := by
  refine h.withSegmentsOut _ fun seg hseg => ?_
  rcases List.mem_append.mp hseg with hseg | hseg
  · exact h.out seg hseg
  · rw [List.mem_singleton.mp hseg]
    exact Or.inr ⟨⟨rfl, rfl, rfl, rfl⟩, rfl⟩

/-- No acknowledgment leaves the sender itself. -/
theorem Wired.unstamped (h : Wired s accepted created) {seg : TCPSegment} (hseg : seg ∈ s.segmentsOut) :
    seg.header.ack = false := by
  rcases h.out seg hseg with hmem | hblank
  · exact (h.plain seg hmem).2
  · exact hblank.2

theorem Wired.drained (h : Wired s accepted created) :
    Wired { s with segmentsOut := [] } accepted created :=
  h.withSegmentsOut [] (by simp)

theorem Wired.write (h : Wired s accepted created) (hopen : s.stream.isInputEnd = false) (data : Bytes) :
    Wired { s with stream := (s.stream.write data).2 }
      (accepted ++ data.take (s.stream.write data).1) created :=
  h.same (h.toSegmented.write hopen data) (by simp) (fun _ => rfl) id h.out

theorem Wired.endInput (h : Wired s accepted created) :
    Wired { s with stream := s.stream.endInput } accepted created :=
  h.same h.toSegmented.endInput rfl (fun _ => rfl) id h.out

theorem Wired.setError (h : Wired s accepted created) :
    Wired { s with stream := s.stream.setError } accepted created :=
  h.same ⟨h.toKept.same h.wf.setError rfl rfl rfl rfl rfl rfl, h.payload, h.small, h.finLast, h.finDone,
    h.finFlag⟩ rfl (fun _ => rfl) id h.out

/-! ## What a call queues -/

/-- A segment that goes out when `created` is all the sender has created: one of these, the first only
while it is alone, or a blank one at the next position. -/
def Current (isn : WrappingInt32) (created : List TCPSegment) (seg : TCPSegment) : Prop :=
  (∃ k, created[k]? = some seg ∧ (k = 0 → created.length = 1)) ∨
  (Blank seg ∧ seg.header.seqno = wrap (TCPSender.space created) isn)

theorem Wired.fillWindow_current (h : Wired s accepted created) (hdrained : s.segmentsOut = [])
    (hs : s.fillWindow = .ok s') :
    ∀ seg ∈ s'.segmentsOut, Current s.isn (created ++ newSegments s s') seg := by
  rcases h.toSegmented.fillWindow_ok hs with ⟨-, rfl⟩ | hf
  · simp [hdrained]
  · generalize newSegments s s' = segs at hf
    rw [hf.result]
    intro seg hseg
    have hmem : seg ∈ segs := by simpa [TCPSender.enqueue, hdrained] using hseg
    obtain ⟨i, hi⟩ := List.mem_iff_getElem?.mp hmem
    -- the new segments stand behind the old ones
    refine Or.inl ⟨created.length + i, ?_, fun hz => ?_⟩
    · rw [List.getElem?_append_right (Nat.le_add_right _ _), Nat.add_sub_cancel_left, hi]
    · obtain rfl := List.eq_nil_of_length_eq_zero (by omega : created.length = 0)
      obtain ⟨g, rfl, -⟩ := h.filled_opening hf
      rfl

theorem Wired.fillWindow_occupied (h : Wired s accepted created) (hdrained : s.segmentsOut = [])
    (hs : s.fillWindow = .ok s') : ∀ seg ∈ s'.segmentsOut, 0 < seg.lengthInSequenceSpace := by
  rcases h.toSegmented.fillWindow_ok hs with ⟨-, rfl⟩ | hf
  · simp [hdrained]
  · generalize newSegments s s' = segs at hf
    rw [hf.result]
    intro seg hseg
    exact hf.batch.occupied hf.occupied seg (by simpa [TCPSender.enqueue, hdrained] using hseg)

/-- The first segment is resent only while it is alone. -/
theorem Wired.ticked_current (h : Wired s accepted created) (hdrained : s.segmentsOut = [])
    (ht : Ticked s s') : ∀ seg ∈ s'.segmentsOut, Current s.isn created seg := by
  rcases ht.segmentsOut with heq | ⟨g, hg, heq⟩
  · simp [heq, hdrained]
  · intro seg hseg
    obtain rfl : seg = g := by simpa [heq, hdrained] using hseg
    obtain ⟨i, hi⟩ := List.mem_iff_getElem?.mp hg
    rw [h.toKept.queued_getElem? i] at hi
    refine Or.inl ⟨_, hi, fun hz => ?_⟩
    -- nothing has left the queue, so the SYN is not acknowledged
    have hsyn : s.isSynReceived = false := by
      by_contra hcon
      have hlt := h.syn.mp (eq_true_of_ne_false hcon)
      have hsum := h.toKept.departed_add
      omega
    have hle := h.waiting hsyn
    have hpos := (List.getElem?_eq_some_iff.mp hi).1
    omega

theorem Wired.sendEmptySegment_current (h : Wired s accepted created)
    (hcur : ∀ seg ∈ s.segmentsOut, Current s.isn created seg) :
    ∀ seg ∈ s.sendEmptySegment.segmentsOut, Current s.isn created seg := by
  intro seg hseg
  rcases List.mem_append.mp hseg with hseg | hseg
  · exact hcur seg hseg
  · rw [List.mem_singleton.mp hseg]
    refine Or.inr ⟨⟨rfl, rfl, rfl, rfl⟩, ?_⟩
    rw [← h.next]
    rfl

/-! ## What a sender had sent earlier -/

/-- A sender that has created `segs`, has nothing left to send and has been acknowledged all of it. -/
def asOf (s : TCPSender) (segs : List TCPSegment) : TCPSender :=
  { s with
    segmentsOut := []
    stream := {
      capacity := 0
      bytesRead := (payloads segs).length
      bytesWirtten := (payloads segs).length
      isInputEnd := true }
    nextSeqno := TCPSender.space segs
    segQueue := []
    windowSize := 1
    bytedInFlight := 0
    isSynReceived := !segs.isEmpty
    isFinReceived := TCPSender.endsInFin segs }

theorem Kept.earlier (h : Kept s (segs ++ created)) : Kept (asOf s segs) segs where
  wf := ⟨by simp [asOf], by simp [asOf, ByteStream.contents], by simp [asOf, ByteStream.contents]⟩
  next := rfl
  tagged := (tagged_append.mp h.tagged).1
  queue := List.nil_suffix
  inFlight := rfl
  first := fun seg rest heq => h.first seg (rest ++ created) (by rw [heq, List.cons_append])
  syn := by cases segs <;> simp [asOf, TCPSender.queued]
  window := (by decide : 1 ≤ 65535)
  bounded := Nat.zero_le 131071

theorem Segmented.earlier (h : Segmented s accepted (segs ++ created)) :
    Segmented (asOf s segs) (payloads segs) segs := by
  refine ⟨h.toKept.earlier, List.append_nil _, fun seg hseg => h.small seg (List.mem_append_left _ hseg),
    fun seg hseg => h.finLast seg ?_, fun _ => rfl, ?_⟩
  · by_cases hnil : created = []
    · rw [hnil, List.append_nil]
      exact hseg
    · rw [List.dropLast_append_of_ne_nil hnil]
      exact List.mem_append_left _ (List.dropLast_subset _ hseg)
  · simp [asOf, TCPSender.queued]

/-- **What holds of the segments a sender has created holds of the first of them**, as those of a sender
whose whole stream they carry. -/
theorem Wired.earlier (h : Wired s accepted created) (hpre : segs <+: created) :
    Wired (asOf s segs) (payloads segs) segs := by
  obtain ⟨more, rfl⟩ := hpre
  have hmem : ∀ seg ∈ segs, seg ∈ segs ++ more := fun seg hseg => List.mem_append_left _ hseg
  refine ⟨h.toSegmented.earlier, rfl, ?_, ?_, fun _ => rfl, fun seg hseg => h.plain seg (hmem seg hseg),
    fun seg hseg => h.occupied seg (hmem seg hseg), ?_, by simp [asOf]⟩
  · intro seg rest heq g hg
    exact h.lone seg (rest ++ more) (by rw [heq, List.cons_append]) g (List.mem_append_left _ hg)
  · intro seg rest heq
    exact h.opening seg (rest ++ more) (by rw [heq, List.cons_append])
  · cases segs <;> simp [asOf]

end SenderRun

end Sponge
