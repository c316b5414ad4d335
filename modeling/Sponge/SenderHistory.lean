/-
# `Sponge.SenderHistory` — runs of the sender, with the segments it ever created.

The sender keeps the same facts several times over: the retransmission queue, the in-flight counter, the
next sequence number and the SYN and FIN flags.  They are tied together by one ghost: the list `created`
of all segments that `fill_window` ever built, in order.  The queue is always the end of that list, the
counters are its lengths, and the SYN flag says whether its first element has left the queue (`Kept`).

With the list in hand the three questions about a run are easy to state: what the payloads add up to,
where each queued segment lies in the 64-bit sequence space, and what an acknowledgment removes.
-/
import Sponge.TcpSender
import Sponge.Lib.Run

namespace Sponge

open Sponge.Lib
open TCPConfig (MAX_PAYLOAD_SIZE)

/-! ## Lengths -/

/-- The payload bytes of the segments. -/
abbrev payloads (segs : List TCPSegment) : Bytes := segs.flatMap TCPSegment.payload

theorem payloads_cons (seg : TCPSegment) (segs : List TCPSegment) :
    payloads (seg :: segs) = seg.payload ++ payloads segs := List.flatMap_cons

theorem payloads_append (segs segs' : List TCPSegment) :
    payloads (segs ++ segs') = payloads segs ++ payloads segs' := List.flatMap_append

/-- The sequence space of segments is their payload, their SYNs and their FINs. -/
theorem space_eq_counts (segs : List TCPSegment) :
    TCPSender.space segs = (payloads segs).length + segs.countP (fun seg => seg.header.syn)
      + segs.countP (fun seg => seg.header.fin) := by
  induction segs with
  | nil => rfl
  | cons seg rest ih =>
    have hcons : TCPSender.space (seg :: rest) = seg.lengthInSequenceSpace + TCPSender.space rest :=
      span_cons seg rest
    rw [hcons, ih, TCPSegment.lengthInSequenceSpace, payloads_cons, List.length_append,
      List.countP_cons, List.countP_cons]
    omega

/-- A sender in a run: the bytes its stream accepted, the segments `fill_window` created, and the highest
window edge that an accepted acknowledgment advertised (at first the SYN alone has room). -/
structure SenderRun where
  sender : TCPSender
  accepted : Bytes := []
  created : List TCPSegment := []
  edge : Nat := 1

/-- What the owner of a sender can do. -/
inductive SenderCall where
  | write (data : Bytes)
  | endInput
  | fillWindow
  | ackReceived (ackno : WrappingInt32) (windowSize : UInt16)
  | tick (msSinceLastTick : Nat)
  | sendEmptySegment
  /-- `segments_out().pop()`. -/
  | pop

namespace SenderRun

open TCPSender (Filled Popped Ticked)

/-- The segments that a call put into `segments_out`. -/
def newSegments (s s' : TCPSender) : List TCPSegment := s'.segmentsOut.drop s.segmentsOut.length

def step (h : SenderRun) : SenderCall → Except Exception SenderRun
  | .write data =>
    .ok { h with
      sender := { h.sender with stream := (h.sender.stream.write data).2 }
      accepted := h.accepted ++ data.take (h.sender.stream.write data).1 }
  | .endInput => .ok { h with sender := { h.sender with stream := h.sender.stream.endInput } }
  | .fillWindow =>
    h.sender.fillWindow.map fun s => { h with
      sender := s
      created := h.created ++ newSegments h.sender s }
  | .ackReceived ackno windowSize =>
    let ackSeqno := unwrap ackno h.sender.isn h.sender.nextSeqno
    .ok { h with
      sender := h.sender.ackReceived ackno windowSize
      edge := if ackSeqno ≤ h.sender.nextSeqno then max h.edge (ackSeqno + max 1 windowSize.toNat)
        else h.edge }
  | .tick msSinceLastTick => .ok { h with sender := h.sender.tick msSinceLastTick }
  | .sendEmptySegment => .ok { h with sender := h.sender.sendEmptySegment }
  | .pop => .ok { h with sender := { h.sender with segmentsOut := h.sender.segmentsOut.tail } }

/-- A run starts with a new sender. -/
def Start (h : SenderRun) : Prop :=
  ∃ capacity retxTimeout fixedIsn random,
    h = { sender := TCPSender.new capacity retxTimeout fixedIsn random }

/-! ## The queue is the end of what was created -/

/-- The sender's counters and flags, in terms of the segments it created. -/
structure Kept (s : TCPSender) (created : List TCPSegment) : Prop where
  wf : s.stream.WF
  next : s.nextSeqno = TCPSender.space created
  tagged : Tagged TCPSegment.lengthInSequenceSpace (fun seg => seg.header.seqno)
    (fun n => wrap n s.isn) 0 created
  queue : s.queued <:+ created
  inFlight : s.bytedInFlight = TCPSender.space s.queued
  first : ∀ seg rest, created = seg :: rest → seg.header.syn = true
  syn : s.isSynReceived = true ↔ s.queued.length < created.length
  window : s.windowSize ≤ 65535
  bounded : s.bytedInFlight ≤ 131071

theorem Kept.new (capacity : Nat) (retxTimeout : UInt16) (fixedIsn : Option WrappingInt32)
    (random : WrappingInt32) : Kept (TCPSender.new capacity retxTimeout fixedIsn random) [] where
  wf := ByteStream.WF.new capacity
  next := rfl
  tagged := trivial
  queue := List.suffix_refl _
  inFlight := rfl
  first := by simp
  syn := by simp [TCPSender.new, TCPSender.queued]
  window := by simp [TCPSender.new]
  bounded := by simp [TCPSender.new]

variable {s s' : TCPSender} {created segs : List TCPSegment}

/-- A call that touches neither the queue nor the counters keeps `Kept`. -/
theorem Kept.same (h : Kept s created) (hwf : s'.stream.WF) (hisn : s'.isn = s.isn)
    (hnext : s'.nextSeqno = s.nextSeqno) (hqueue : s'.queued = s.queued)
    (hflight : s'.bytedInFlight = s.bytedInFlight) (hsyn : s'.isSynReceived = s.isSynReceived)
    (hwin : s'.windowSize = s.windowSize) : Kept s' created where
  wf := hwf
  next := hnext.trans h.next
  tagged := by rw [hisn]; exact h.tagged
  queue := by rw [hqueue]; exact h.queue
  inFlight := by rw [hflight, hqueue]; exact h.inFlight
  first := h.first
  syn := by rw [hsyn, hqueue]; exact h.syn
  window := by rw [hwin]; exact h.window
  bounded := by rw [hflight]; exact h.bounded

/-- A created segment is numbered by the sequence space before it. -/
theorem Kept.seqno_eq (h : Kept s created) {k : Nat} {seg : TCPSegment} (hseg : created[k]? = some seg) :
    seg.header.seqno = wrap (TCPSender.space (created.take k)) s.isn := by
  have htag := h.tagged.getElem? hseg
  rwa [Nat.zero_add] at htag

/-- Until the SYN is acknowledged everything created is queued. -/
theorem Kept.all_queued (h : Kept s created) (hsyn : s.isSynReceived = false) : s.queued = created := by
  refine h.queue.eq_of_length_le ?_
  have hnot : ¬ s.queued.length < created.length := fun hlt => by
    rw [h.syn.mpr hlt] at hsyn
    exact absurd hsyn (by decide)
  omega

/-- What `fill_window` demands of the queue: until the SYN is acknowledged it starts with the SYN. -/
theorem Kept.front (h : Kept s created) : s.isSynReceived = false → ∀ front rest,
    s.segQueue = front :: rest → front.seg.header.syn = true := by
  intro hsyn front rest hq
  refine h.first front.seg (rest.map TCPSenderSegment.seg) ?_
  rw [← h.all_queued hsyn, TCPSender.queued, hq, List.map_cons]

/-- `fill_window` returns. -/
theorem Kept.fillWindow (h : Kept s created) :
    ∃ s', s.fillWindow = .ok s' ∧
      ((s.idle ∧ (s' = s ∨ (s.finQueued = true ∧ s' = { s with stream := (s.stream.read s.readable).1 }))) ∨
        ∃ segs, Filled s segs s') :=
  TCPSender.fillWindow_cases h.wf h.window h.front

/-- What `fill_window` has done, by the segments it created. -/
theorem Kept.fillWindow_ok (h : Kept s created) (hs : s.fillWindow = .ok s') :
    (newSegments s s' = [] ∧
      (s' = s ∨ (s.finQueued = true ∧ s' = { s with stream := (s.stream.read s.readable).1 }))) ∨
    Filled s (newSegments s s') s' := by
  obtain ⟨t, ht, hcases⟩ := h.fillWindow
  obtain rfl : t = s' := Except.ok.inj (ht.symm.trans hs)
  rcases hcases with ⟨-, rfl | ⟨hfin, rfl⟩⟩ | ⟨segs, hf⟩
  · exact Or.inl ⟨List.drop_length, Or.inl rfl⟩
  · exact Or.inl ⟨List.drop_length, Or.inr ⟨hfin, rfl⟩⟩
  · have hnew : newSegments s t = segs := by
      rw [hf.result]
      exact List.drop_left
    exact Or.inr (hnew.symm ▸ hf)

theorem Kept.filled (h : Kept s created) (hf : Filled s segs s') : Kept s' (created ++ segs) := by
  have hq : s'.queued = s.queued ++ segs := by
    rw [hf.result, TCPSender.enqueue_queued]
    rfl
  have hnil : s.isSynReceived = false → created = [] ∧ s.bytedInFlight = 0 := by
    intro hsyn
    have hempty : s.queued = [] := by rw [TCPSender.queued, hf.opening hsyn, List.map_nil]
    refine ⟨(h.all_queued hsyn).symm.trans hempty, ?_⟩
    rw [h.inFlight, hempty]
    rfl
  have hflight : s'.bytedInFlight = s.bytedInFlight + TCPSender.space segs := by rw [hf.result]; rfl
  refine ⟨?_, ?_, ?_, ?_, ?_, ?_, ?_, ?_, ?_⟩
  · rw [hf.result]
    exact (h.wf.read s.readable).1
  · rw [hf.result]
    show s.nextSeqno + TCPSender.space segs = _
    rw [h.next]
    exact (span_append _ _).symm
  · rw [hf.result]
    refine tagged_append.mpr ⟨h.tagged, ?_⟩
    have htag := hf.batch.tagged
    rw [h.next] at htag
    rwa [Nat.zero_add]
  · obtain ⟨front, hfront⟩ := h.queue
    exact ⟨front, by rw [hq, ← hfront, List.append_assoc]⟩
  · rw [hflight, hq, h.inFlight]
    exact (span_append _ _).symm
  · -- the first segment is an old one, or the batch opens the connection
    intro seg rest heq
    cases created with
    | cons g gs => exact h.first seg gs (by rw [List.cons_append] at heq; rw [(List.cons.inj heq).1])
    | nil =>
      obtain ⟨k, f, p, rfl, -⟩ := hf.batch.stamped seg (by rw [List.nil_append] at heq; simp [heq])
      show (!s.isSynReceived) = true
      have hlt : ¬ s.isSynReceived = true := fun hs => absurd (h.syn.mp hs) (Nat.not_lt_zero _)
      rw [eq_false_of_ne_true hlt]
      rfl
  · have hsyn : s'.isSynReceived = s.isSynReceived := by rw [hf.result]; rfl
    rw [hsyn, h.syn, hq, List.length_append, List.length_append]
    omega
  · rw [hf.result]
    exact h.window
  · -- the first batch counts a SYN on every piece
    have hroom := hf.room
    have hfits := hf.data_fits
    have hspace := hf.space_eq
    have hlen := hf.batch.length_le
    have hwin := h.window
    rw [hflight, hspace]
    cases hsyn : s.isSynReceived with
    | true => rw [if_pos rfl]; omega
    | false =>
      have hzero := (hnil hsyn).2
      rw [if_neg (by simp)]
      omega

theorem Kept.popped {j : Nat} (h : Kept s created) (hp : Popped s j s') (hwin : s'.windowSize ≤ 65535) :
    Kept s' created := by
  have hsplit : TCPSender.space (s.queued.take j) + TCPSender.space (s.queued.drop j)
      = TCPSender.space s.queued := span_take_drop _ _
  have hflight := hp.inFlight h.inFlight
  refine ⟨by rw [hp.stream]; exact h.wf, by rw [hp.nextSeqno]; exact h.next, by rw [hp.isn]; exact h.tagged,
    ?_, hflight, h.first, ?_, hwin, ?_⟩
  · rw [hp.queue]
    exact (List.drop_suffix j s.queued).trans h.queue
  · rw [hp.syn, hp.queue, List.length_drop, Bool.or_eq_true, h.syn]
    have hle := hp.le
    constructor
    · rintro (hlt | hany)
      · omega
      · have hlen := h.queue.length_le
        rcases Nat.eq_zero_or_pos j with rfl | hpos
        · exact absurd hany (by simp)
        · omega
    · intro hlt
      by_cases hsyn : s.queued.length < created.length
      · exact Or.inl hsyn
      · -- the SYN, first in the queue, is popped with the rest
        have hall := h.queue.eq_of_length_le (by omega)
        cases hq : s.queued with
        | nil =>
          have hzero : s.queued.length = 0 := by rw [hq]; rfl
          omega
        | cons seg rest =>
          obtain ⟨i, rfl⟩ : ∃ i, j = i + 1 := ⟨j - 1, by omega⟩
          refine Or.inr ?_
          rw [List.take_succ_cons, List.any_cons, h.first seg rest (hall ▸ hq), Bool.true_or]
  · have hb := h.bounded
    rw [hflight, hp.queue]
    rw [h.inFlight] at hb
    omega

theorem Kept.ackReceived (h : Kept s created) (ackno : WrappingInt32) (windowSize : UInt16) :
    Kept (s.ackReceived ackno windowSize) created := by
  rcases s.ackReceived_cases ackno windowSize with ⟨-, heq⟩ | ⟨-, j, hp, hw, -, -⟩
  · rw [heq]
    exact h
  · refine h.popped hp ?_
    rw [hw]
    have hlt := windowSize.toNat_lt
    split <;> omega

theorem Kept.ticked (h : Kept s created) (ht : Ticked s s') : Kept s' created :=
  h.same (by rw [ht.stream]; exact h.wf) ht.isn ht.nextSeqno ht.queue ht.inFlight ht.syn ht.window

theorem Kept.fillWindow_kept (h : Kept s created) (hs : s.fillWindow = .ok s') :
    Kept s' (created ++ newSegments s s') := by
  rcases h.fillWindow_ok hs with ⟨hnil, rfl | ⟨-, rfl⟩⟩ | hf
  · rwa [hnil, List.append_nil]
  · rw [hnil, List.append_nil]
    exact h.same (h.wf.read s.readable).1 rfl rfl rfl rfl rfl rfl
  · exact h.filled hf

/-- **One call keeps `Kept`.** -/
theorem Kept.step {h h' : SenderRun} {call : SenderCall} (hk : Kept h.sender h.created)
    (hs : h.step call = .ok h') : Kept h'.sender h'.created := by
  cases call with
  | write data =>
    obtain rfl := Except.ok.inj hs
    exact hk.same (hk.wf.write data).1 rfl rfl rfl rfl rfl rfl
  | endInput =>
    obtain rfl := Except.ok.inj hs
    exact hk.same hk.wf.endInput rfl rfl rfl rfl rfl rfl
  | fillWindow =>
    obtain ⟨s', hs', rfl⟩ := map_ok.mp hs
    exact hk.fillWindow_kept hs'
  | ackReceived ackno windowSize =>
    obtain rfl := Except.ok.inj hs
    exact hk.ackReceived ackno windowSize
  | tick ms =>
    obtain rfl := Except.ok.inj hs
    exact hk.ticked (h.sender.tick_ticked ms)
  | sendEmptySegment =>
    obtain rfl := Except.ok.inj hs
    exact hk.same hk.wf rfl rfl rfl rfl rfl rfl
  | pop =>
    obtain rfl := Except.ok.inj hs
    exact hk.same hk.wf rfl rfl rfl rfl rfl rfl

theorem Start.kept {h : SenderRun} (hstart : Start h) : Kept h.sender h.created := by
  obtain ⟨capacity, retxTimeout, fixedIsn, random, rfl⟩ := hstart
  exact Kept.new capacity retxTimeout fixedIsn random

/-! ## The payloads and the FIN -/

/-- Nothing of the accepted bytes is lost, repeated or reordered, and the FIN comes last. -/
structure Segmented (s : TCPSender) (accepted : Bytes) (created : List TCPSegment) : Prop
    extends Kept s created where
  payload : created.flatMap TCPSegment.payload ++ s.stream.contents = accepted
  small : ∀ seg ∈ created, seg.payload.length ≤ MAX_PAYLOAD_SIZE
  finLast : ∀ seg ∈ created.dropLast, seg.header.fin = false
  finDone : TCPSender.endsInFin created = true → s.stream.eof = true
  finFlag : s.isFinReceived = true ↔ s.queued = [] ∧ TCPSender.endsInFin created = true

variable {accepted : Bytes}

/-- A call that leaves the stream, the queue and the flags alone keeps `Segmented`. -/
theorem Segmented.same (h : Segmented s accepted created) (hk : Kept s' created)
    (hstream : s'.stream = s.stream) (hqueue : s'.queued = s.queued)
    (hfin : s'.isFinReceived = s.isFinReceived) : Segmented s' accepted created :=
  ⟨hk, by rw [hstream]; exact h.payload, h.small, h.finLast, by rw [hstream]; exact h.finDone,
    by rw [hfin, hqueue]; exact h.finFlag⟩

theorem Segmented.new (capacity : Nat) (retxTimeout : UInt16) (fixedIsn : Option WrappingInt32)
    (random : WrappingInt32) : Segmented (TCPSender.new capacity retxTimeout fixedIsn random) [] [] :=
  ⟨Kept.new capacity retxTimeout fixedIsn random, rfl, by simp, by simp, by simp [TCPSender.endsInFin],
    by simp [TCPSender.new, TCPSender.endsInFin]⟩

/-- At the end of the stream there is nothing to read. -/
theorem read_of_eof (h : s.stream.eof = true) : s.readable = 0 ∧ (s.stream.read s.readable).1 = s.stream := by
  have hz : s.readable = 0 := by
    rw [TCPSender.readable, ByteStream.contents_of_eof h]
    exact Nat.min_zero _
  exact ⟨hz, by rw [hz, ByteStream.read_zero]⟩

/-- **Nothing is created after the FIN.** -/
theorem Segmented.not_filled (h : Segmented s accepted created)
    (hfin : TCPSender.endsInFin created = true) : ¬ Filled s segs s' := by
  intro hf
  have heof := h.finDone hfin
  obtain ⟨hz, hread⟩ := read_of_eof heof
  cases hflag : s.isFinReceived with
  | true =>
    -- the FIN is acknowledged, so the SYN is too, and nothing is left to put in a segment
    have hq := (h.finFlag.mp hflag).1
    have hsyn : s.isSynReceived = true := by
      rw [h.syn, hq]
      cases created with
      | nil => exact absurd hfin (by simp [TCPSender.endsInFin])
      | cons _ _ => simp
    rcases hf.occupied with hlen | hs | hfl
    · rw [hz, List.take_zero] at hlen
      exact absurd hlen (by simp)
    · rw [hsyn] at hs
      exact absurd hs (by decide)
    · rw [TCPSender.finFlag, hflag] at hfl
      simp at hfl
  | false =>
    -- the FIN is still queued, and `fill_window` looks for it
    have hne : s.queued ≠ [] := fun hq => by
      rw [h.finFlag.mpr ⟨hq, hfin⟩] at hflag
      exact absurd hflag (by decide)
    have hopen := hf.open_ (by rw [hread]; exact heof) hflag
    obtain ⟨front, hfront⟩ := h.queue
    rw [TCPSender.finQueued_eq, ← TCPSender.endsInFin_append hne, hfront, hfin] at hopen
    exact absurd hopen (by decide)

theorem dropLast_fin_of_not_endsInFin (hlast : ∀ seg ∈ created.dropLast, seg.header.fin = false)
    (hend : TCPSender.endsInFin created = false) : ∀ seg ∈ created, seg.header.fin = false := by
  intro seg hseg
  cases hb : created.getLast? with
  | none =>
    rw [List.getLast?_eq_none_iff.mp hb] at hseg
    exact absurd hseg (by simp)
  | some back =>
    rw [← List.dropLast_append_getLast? back hb] at hseg
    rcases List.mem_append.mp hseg with h | h
    · exact hlast seg h
    · rw [List.mem_singleton.mp h]
      rwa [TCPSender.endsInFin, hb] at hend

theorem Segmented.filled (h : Segmented s accepted created) (hf : Filled s segs s') :
    Segmented s' accepted (created ++ segs) := by
  have hend : TCPSender.endsInFin created = false := by
    by_contra hcon
    exact h.not_filled (eq_true_of_ne_false hcon) hf
  have hne := hf.batch.ne_nil
  obtain ⟨hlast, back, hback, hbackFin⟩ := hf.batch.fin_last
  have hends : TCPSender.endsInFin (created ++ segs) = s.finFlag := by
    rw [TCPSender.endsInFin_append hne, TCPSender.endsInFin, hback]
    exact hbackFin
  have hstream : s'.stream = (s.stream.read s.readable).1 := by rw [hf.result]; rfl
  have hqueue : s'.queued = s.queued ++ segs := by
    rw [hf.result, TCPSender.enqueue_queued]
    rfl
  refine ⟨h.toKept.filled hf, ?_, ?_, ?_, ?_, ?_⟩
  · rw [List.flatMap_append, hf.batch.payload, hstream, h.wf.read_contents hf.short, List.append_assoc,
      List.take_append_drop]
    exact h.payload
  · intro seg hseg
    rcases List.mem_append.mp hseg with hseg | hseg
    · exact h.small seg hseg
    · obtain ⟨k, f, p, rfl, hp⟩ := hf.batch.stamped seg hseg
      exact hp
  · intro seg hseg
    rw [List.dropLast_append_of_ne_nil hne] at hseg
    rcases List.mem_append.mp hseg with hseg | hseg
    · exact dropLast_fin_of_not_endsInFin h.finLast hend seg hseg
    · exact hlast seg hseg
  · intro hfin
    rw [hends, TCPSender.finFlag, Bool.and_eq_true, Bool.and_eq_true] at hfin
    rw [hstream]
    exact hfin.1.1
  · have hflag : s'.isFinReceived = s.isFinReceived := by rw [hf.result]; rfl
    rw [hflag, h.finFlag, hend, hqueue]
    simp [hne]

theorem Segmented.popped {j : Nat} (h : Segmented s accepted created) (hp : Popped s j s')
    (hwin : s'.windowSize ≤ 65535) : Segmented s' accepted created := by
  refine ⟨h.toKept.popped hp hwin, by rw [hp.stream]; exact h.payload, h.small, h.finLast,
    by rw [hp.stream]; exact h.finDone, ?_⟩
  obtain ⟨front, hfront⟩ := h.queue
  rw [hp.fin, hp.queue, Bool.or_eq_true, h.finFlag]
  constructor
  · rintro (⟨hq, hfin⟩ | hany)
    · exact ⟨by rw [hq, List.drop_nil], hfin⟩
    · obtain ⟨seg, hseg, hsegFin⟩ := List.any_eq_true.mp hany
      -- a FIN among the popped segments is the last segment, so all of the queue is popped
      have hmem : seg ∈ created := hfront ▸ List.mem_append_right front (List.mem_of_mem_take hseg)
      have hends : TCPSender.endsInFin created = true := by
        by_contra hcon
        rw [dropLast_fin_of_not_endsInFin h.finLast (eq_false_of_ne_true hcon) seg hmem] at hsegFin
        exact absurd hsegFin (by decide)
      refine ⟨?_, hends⟩
      by_contra hcon
      have hdrop : seg ∈ created.dropLast := by
        rw [← hfront, ← List.take_append_drop j s.queued, ← List.append_assoc,
          List.dropLast_append_of_ne_nil hcon]
        exact List.mem_append_left _ (List.mem_append_right _ hseg)
      rw [h.finLast seg hdrop] at hsegFin
      exact absurd hsegFin (by decide)
  · rintro ⟨hdrop, hfin⟩
    by_cases hq : s.queued = []
    · exact Or.inl ⟨hq, hfin⟩
    · have hall : s.queued.take j = s.queued := by
        have hsplit := List.take_append_drop j s.queued
        rwa [hdrop, List.append_nil] at hsplit
      rw [← hfront, TCPSender.endsInFin_append hq, TCPSender.endsInFin] at hfin
      rw [hall]
      cases hback : s.queued.getLast? with
      | none => exact absurd (List.getLast?_eq_none_iff.mp hback) hq
      | some back =>
        rw [hback] at hfin
        exact Or.inr (List.any_eq_true.mpr ⟨back, List.mem_of_getLast? hback, hfin⟩)

theorem Segmented.ackReceived (h : Segmented s accepted created) (ackno : WrappingInt32)
    (windowSize : UInt16) : Segmented (s.ackReceived ackno windowSize) accepted created := by
  obtain ⟨j, hp⟩ := s.ackReceived_popped ackno windowSize
  exact h.popped hp (h.toKept.ackReceived ackno windowSize).window

theorem Segmented.ticked (h : Segmented s accepted created) (ht : Ticked s s') :
    Segmented s' accepted created :=
  h.same (h.toKept.ticked ht) ht.stream ht.queue ht.fin

/-- `fill_window` does nothing or creates one batch: with the FIN queued the stream is at its end, and
what it read was empty. -/
theorem Segmented.fillWindow_ok (h : Segmented s accepted created) (hs : s.fillWindow = .ok s') :
    (newSegments s s' = [] ∧ s' = s) ∨ Filled s (newSegments s s') s' := by
  rcases h.toKept.fillWindow_ok hs with ⟨hnil, rfl | ⟨hfin, heq⟩⟩ | hf
  · exact Or.inl ⟨hnil, rfl⟩
  · rw [TCPSender.finQueued_eq] at hfin
    have hne : s.queued ≠ [] := fun hq => by
      rw [hq] at hfin
      exact absurd hfin (by decide)
    obtain ⟨front, hfront⟩ := h.queue
    rw [← TCPSender.endsInFin_append hne, hfront] at hfin
    rw [(read_of_eof (h.finDone hfin)).2] at heq
    exact Or.inl ⟨hnil, heq⟩
  · exact Or.inr hf

theorem Segmented.fillWindow (h : Segmented s accepted created) (hs : s.fillWindow = .ok s') :
    Segmented s' accepted (created ++ newSegments s s') := by
  rcases h.fillWindow_ok hs with ⟨hnil, rfl⟩ | hf
  · rwa [hnil, List.append_nil]
  · exact h.filled hf

theorem Segmented.write (h : Segmented s accepted created) (hopen : s.stream.isInputEnd = false)
    (data : Bytes) : Segmented { s with stream := (s.stream.write data).2 }
      (accepted ++ data.take (s.stream.write data).1) created := by
  obtain ⟨hwf, -, hcont, -⟩ := h.wf.write data
  refine ⟨h.toKept.same hwf rfl rfl rfl rfl rfl rfl, ?_, h.small, h.finLast, fun hfin => ?_, h.finFlag⟩
  · rw [← h.payload, List.append_assoc]
    exact congrArg _ hcont
  · rw [ByteStream.inputEnded_of_eof (h.finDone hfin)] at hopen
    exact absurd hopen (by decide)

theorem Segmented.endInput (h : Segmented s accepted created) :
    Segmented { s with stream := s.stream.endInput } accepted created := by
  refine ⟨h.toKept.same h.wf.endInput rfl rfl rfl rfl rfl rfl, h.payload, h.small, h.finLast,
    fun hfin => ?_, h.finFlag⟩
  have heof := h.finDone hfin
  simp only [ByteStream.eof, Bool.and_eq_true] at heof
  simp only [ByteStream.eof, ByteStream.endInput, Bool.true_and]
  exact heof.2

/-- A segment with FIN is the last one created. -/
theorem Segmented.fin_is_last (h : Segmented s accepted created) {k : Nat} {seg : TCPSegment}
    (hseg : created[k]? = some seg) (hfin : seg.header.fin = true) :
    k + 1 = created.length ∧ TCPSender.endsInFin created = true := by
  have hlt := (List.getElem?_eq_some_iff.mp hseg).1
  have hlast : k + 1 = created.length := by
    by_contra hne
    have hmem : seg ∈ created.dropLast := by
      refine List.mem_of_getElem? (i := k) ?_
      rw [List.getElem?_dropLast, if_pos (by omega)]
      exact hseg
    rw [h.finLast seg hmem] at hfin
    exact absurd hfin (by decide)
  refine ⟨hlast, ?_⟩
  rw [TCPSender.endsInFin, List.getLast?_eq_getElem?, ← hlast, Nat.add_sub_cancel, hseg]
  exact hfin

/-! ## Positions -/

section Positions

variable {k : Nat} {seg : TCPSegment}

/-- Before the last segment there is no FIN. -/
theorem Segmented.countP_fin (h : Segmented s accepted created) (hk : k < created.length) :
    (created.take k).countP (fun seg => seg.header.fin) = 0 := by
  rw [List.countP_eq_zero]
  intro g hg
  rw [h.finLast g ?_]
  · simp
  · rw [List.dropLast_eq_take]
    exact List.take_subset_take_left _ (by omega) hg

theorem Segmented.payload_length (h : Segmented s accepted created) :
    (payloads created).length + s.stream.contents.length = accepted.length := by
  rw [← h.payload, List.length_append]

/-- The payload of a created segment is the slice of the accepted bytes after the earlier payloads. -/
theorem Segmented.slice (h : Segmented s accepted created) (hseg : created[k]? = some seg) :
    seg.payload = (accepted.drop (payloads (created.take k)).length).take seg.payload.length ∧
    (payloads (created.take k)).length + seg.payload.length ≤ accepted.length ∧
    (k + 1 = created.length → s.stream.contents = [] →
      (payloads (created.take k)).length + seg.payload.length = accepted.length) := by
  obtain ⟨hlt, hget⟩ := List.getElem?_eq_some_iff.mp hseg
  have hsplit : payloads created
      = payloads (created.take k) ++ (seg.payload ++ payloads (created.drop (k + 1))) := by
    rw [← hget, ← payloads_cons, ← List.drop_eq_getElem_cons hlt, ← payloads_append,
      List.take_append_drop]
  have hacc : payloads created ++ s.stream.contents = accepted := h.payload
  rw [hsplit, List.append_assoc, List.append_assoc] at hacc
  refine ⟨?_, ?_, fun hlast hnil => ?_⟩
  · rw [← hacc, List.drop_left, List.take_left]
  · rw [← hacc, List.length_append, List.length_append]
    omega
  · rw [← hacc, hnil, hlast, List.drop_length, List.length_append, List.length_append]
    simp [payloads]

-- the sequence space runs one ahead of the stream if no segment but the first carries the SYN
variable (hlone : ∀ seg rest, created = seg :: rest → ∀ g ∈ rest, g.header.syn = false)

include hlone

theorem Kept.countP_syn (h : Kept s created) (hk : 0 < k) (hne : created ≠ []) :
    (created.take k).countP (fun seg => seg.header.syn) = 1 := by
  obtain ⟨seg, rest, rfl⟩ := List.exists_cons_of_ne_nil hne
  obtain ⟨i, rfl⟩ : ∃ i, k = i + 1 := ⟨k - 1, by omega⟩
  have hzero : (rest.take i).countP (fun seg => seg.header.syn) = 0 := by
    rw [List.countP_eq_zero]
    intro g hg
    rw [hlone seg rest rfl g (List.mem_of_mem_take hg)]
    simp
  rw [List.take_succ_cons, List.countP_cons, hzero, if_pos (h.first seg rest rfl)]

theorem syn_later (hk : 0 < k) (hseg : created[k]? = some seg) : seg.header.syn = false := by
  obtain ⟨first, rest, rfl⟩ := List.exists_cons_of_ne_nil (List.ne_nil_of_mem (List.mem_of_getElem? hseg))
  obtain ⟨i, rfl⟩ : ∃ i, k = i + 1 := ⟨k - 1, by omega⟩
  exact hlone first rest rfl seg (List.mem_of_getElem? hseg)

/-- **The segment after `q` bytes of payload starts at position `q + 1`**, the first one at 0. -/
theorem Segmented.position (h : Segmented s accepted created) (hk : 0 < k) (hlt : k < created.length) :
    TCPSender.space (created.take k) = (payloads (created.take k)).length + 1 := by
  have hne : created ≠ [] := fun hnil => by rw [hnil] at hlt; exact absurd hlt (Nat.not_lt_zero _)
  rw [space_eq_counts, h.countP_syn hlone hk hne, h.countP_fin hlt]

end Positions

/-! ## Runs -/

/-- No write after the end of input. -/
def silentAfterEnd (h : SenderRun) : SenderCall → Prop
  | .write _ => h.sender.stream.isInputEnd = false
  | _ => True

instance (h : SenderRun) : DecidablePred (silentAfterEnd h)
  | .write _ => inferInstanceAs (Decidable (_ = false))
  | .endInput | .fillWindow | .ackReceived _ _ | .tick _ | .sendEmptySegment | .pop => isTrue trivial

/-- **One call keeps `Segmented`.** -/
theorem Segmented.step {h h' : SenderRun} {call : SenderCall}
    (hk : Segmented h.sender h.accepted h.created) (hok : silentAfterEnd h call)
    (hs : h.step call = .ok h') : Segmented h'.sender h'.accepted h'.created := by
  cases call with
  | write data =>
    obtain rfl := Except.ok.inj hs
    exact hk.write hok data
  | endInput =>
    obtain rfl := Except.ok.inj hs
    exact hk.endInput
  | fillWindow =>
    obtain ⟨s', hs', rfl⟩ := map_ok.mp hs
    exact hk.fillWindow hs'
  | ackReceived ackno windowSize =>
    obtain rfl := Except.ok.inj hs
    exact hk.ackReceived ackno windowSize
  | tick ms =>
    obtain rfl := Except.ok.inj hs
    exact hk.ticked (h.sender.tick_ticked ms)
  | sendEmptySegment =>
    have hkept := hk.toKept.step hs
    obtain rfl := Except.ok.inj hs
    exact hk.same hkept rfl rfl rfl
  | pop =>
    have hkept := hk.toKept.step hs
    obtain rfl := Except.ok.inj hs
    exact hk.same hkept rfl rfl rfl

theorem segmented_of_reach {h : SenderRun} (hr : Reach Start step silentAfterEnd h) :
    Segmented h.sender h.accepted h.created := by
  refine Reach.invariant (P := fun h : SenderRun => Segmented h.sender h.accepted h.created)
    (fun h0 hstart => ?_) (fun _ _ _ hk hok hs => hk.step hok hs) hr
  obtain ⟨capacity, retxTimeout, fixedIsn, random, rfl⟩ := hstart
  exact Segmented.new capacity retxTimeout fixedIsn random

/-- **Segmentation loses, repeats and reorders nothing.**  In every state of every run that writes
nothing after the end of input: the payloads created so far and the unsent bytes are the accepted bytes;
each created segment is numbered by the sequence space of those before it and carries at most
`MAX_PAYLOAD_SIZE` bytes; a FIN is on the last segment ever created, with the stream at its end. -/
theorem segmentation_faithful {h : SenderRun} (hr : Reach Start step silentAfterEnd h) :
    h.created.flatMap TCPSegment.payload
        ++ h.sender.stream.peeked h.sender.stream.bufferSize = h.accepted ∧
    h.sender.nextSeqnoAbsolute = TCPSender.space h.created ∧
    ∀ k seg, h.created[k]? = some seg →
      seg.header.seqno = wrap (TCPSender.space (h.created.take k)) h.sender.isn ∧
      seg.payload.length ≤ MAX_PAYLOAD_SIZE ∧
      (seg.header.fin = true → k + 1 = h.created.length ∧ h.sender.stream.inputEnded = true ∧
        h.sender.stream.bufferSize = 0) := by
  have hk := segmented_of_reach hr
  refine ⟨by rw [hk.wf.peeked_bufferSize]; exact hk.payload, hk.next, fun k seg hseg =>
    ⟨hk.seqno_eq hseg, ?_, ?_⟩⟩
  · exact hk.small seg (List.mem_of_getElem? hseg)
  · intro hfin
    obtain ⟨hlast, hends⟩ := hk.fin_is_last hseg hfin
    have heof := hk.finDone hends
    refine ⟨hlast, ByteStream.inputEnded_of_eof heof, ?_⟩
    rw [hk.wf.bufferSize, ByteStream.contents_of_eof heof]
    rfl

/-- Three bytes sent in windows of two, with the first data segment sent twice. -/
theorem segmentation_faithful_three : ∃ h : SenderRun,
    Reach Start step silentAfterEnd h ∧ h.created.length = 3 ∧
    h.created.flatMap TCPSegment.payload ++ h.sender.stream.peeked h.sender.stream.bufferSize
      = [1, 2, 3] := by
  have hr : Reach Start step silentAfterEnd _ := Reach.exec_get
    (s := { sender := TCPSender.new 4 1000 (some ⟨4294967295⟩) ⟨0⟩ })
    (l := [.fillWindow, .ackReceived ⟨0⟩ 2, .write [1, 2, 3], .fillWindow, .tick 1000,
      .ackReceived ⟨2⟩ 2, .endInput, .fillWindow, .fillWindow])
    (.start ⟨4, 1000, some ⟨4294967295⟩, ⟨0⟩, rfl⟩) (by decide +kernel)
  exact ⟨_, hr, by decide +kernel,
    (segmentation_faithful hr).1.trans (by decide +kernel)⟩

end SenderRun

end Sponge
