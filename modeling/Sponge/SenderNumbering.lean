/-
# `Sponge.SenderNumbering` — where the SYN, the stream bytes and the FIN are numbered.

A stream that is sent with one SYN in front and one FIN behind has byte `i` at absolute position `i + 1` and
the FIN at `bytes_written + 1`.  The counter `_next_seqno` only adds up the lengths of the segments, so this
holds exactly if the SYN is on the first segment and nowhere else.

The loop of `fill_window` reuses one segment object, and the SYN flag set before the loop stays on every piece.
The first `fill_window` normally has a window of one and builds one piece; but `ack_received` accepts the ISN
itself as an acknowledgment before anything was sent, and takes over its window.  With more than
`MAX_PAYLOAD_SIZE` bytes to send, the opening batch then has a SYN on each of its pieces, and every byte after
the first piece is shifted (`opening_repeats_syn`).
-/
import Sponge.SenderHistory

namespace Sponge

open Sponge.Lib
open TCPConfig (MAX_PAYLOAD_SIZE)

namespace TCPSender

/-- The sequence number that the SYN takes before the payload. -/
def synLength (seg : TCPSegment) : Nat := if seg.header.syn then 1 else 0

/-- What fits one payload is one piece. -/
theorem Batch.single {isn : WrappingInt32} {syn fin : Bool} {n : Nat} {data : Bytes} {segs : List TCPSegment}
    (h : Batch isn syn fin n data segs) (hle : data.length ≤ MAX_PAYLOAD_SIZE) :
    segs = [stamp isn n syn fin data] := by
  cases h with
  | last _ => rfl
  | more hbig _ => omega

end TCPSender

namespace SenderRun

open TCPSender (Filled synLength)

/-- No write after the end of input, and the batch that opens the connection is one piece. -/
def opensInOnePiece (h : SenderRun) : SenderCall → Prop
  | .write _ => h.sender.stream.isInputEnd = false
  | .fillWindow => h.sender.isSynReceived = false → h.sender.segQueue = [] →
      h.sender.readable ≤ MAX_PAYLOAD_SIZE
  | _ => True

instance (h : SenderRun) : DecidablePred (opensInOnePiece h)
  | .write _ => inferInstanceAs (Decidable (_ = false))
  | .fillWindow => inferInstanceAs (Decidable (_ = false → _ = [] → _ ≤ _))
  | .endInput | .ackReceived _ _ | .tick _ | .sendEmptySegment | .pop => isTrue trivial

theorem opensInOnePiece.silent {h : SenderRun} {call : SenderCall} (hok : opensInOnePiece h call) :
    silentAfterEnd h call := by
  cases call with
  | write data => exact hok
  | fillWindow | endInput | ackReceived _ _ | tick _ | sendEmptySegment | pop => trivial

/-- The invariant: nothing is lost, one SYN, and what goes out is a created segment or takes no sequence
numbers at all. -/
structure Numbered (h : SenderRun) : Prop where
  segmented : Segmented h.sender h.accepted h.created
  written : h.accepted.length = h.sender.stream.bytesWritten
  lone : ∀ seg rest, h.created = seg :: rest → ∀ g ∈ rest, g.header.syn = false
  out : ∀ seg ∈ h.sender.segmentsOut, seg ∈ h.created ∨ seg.lengthInSequenceSpace = 0

theorem Start.numbered {h : SenderRun} (hstart : Start h) : Numbered h := by
  obtain ⟨capacity, retxTimeout, fixedIsn, random, rfl⟩ := hstart
  exact ⟨Segmented.new capacity retxTimeout fixedIsn random, rfl, by simp, by simp [TCPSender.new]⟩

/-- The opening batch is a single piece, and every later one is without SYN. -/
theorem Numbered.filled {h : SenderRun} {s' : TCPSender} {segs : List TCPSegment} (hn : Numbered h)
    (hok : opensInOnePiece h .fillWindow) (hf : Filled h.sender segs s') :
    ∀ seg rest, h.created ++ segs = seg :: rest → ∀ g ∈ rest, g.header.syn = false := by
  have hk := hn.segmented.toKept
  intro seg rest heq g hg
  cases hc : h.created with
  | nil =>
    have hsyn : h.sender.isSynReceived = false := by
      by_contra hcon
      have hlt := hk.syn.mp (eq_true_of_ne_false hcon)
      rw [hc] at hlt
      exact absurd hlt (Nat.not_lt_zero _)
    have hle : (h.sender.stream.contents.take h.sender.readable).length ≤ MAX_PAYLOAD_SIZE := by
      have hread := hok hsyn (hf.opening hsyn)
      rw [List.length_take]
      omega
    rw [hc, hf.batch.single hle, List.nil_append] at heq
    rw [← (List.cons.inj heq).2] at hg
    exact absurd hg (by simp)
  | cons first others =>
    rw [hc, List.cons_append] at heq
    rw [← (List.cons.inj heq).2] at hg
    rcases List.mem_append.mp hg with hold | hnew
    · exact hn.lone first others hc g hold
    · -- something was created before, so either the SYN is acknowledged or nothing is built
      have hsyn : h.sender.isSynReceived = true := by
        by_contra hcon
        have hall := hk.all_queued (eq_false_of_ne_true hcon)
        rw [TCPSender.queued, hf.opening (eq_false_of_ne_true hcon), hc] at hall
        exact absurd hall (by simp)
      obtain ⟨k, f, p, rfl, -⟩ := hf.batch.stamped g hnew
      show (!h.sender.isSynReceived) = false
      rw [hsyn]
      rfl

theorem Numbered.fillWindow {h : SenderRun} {s' : TCPSender} (hn : Numbered h)
    (hok : opensInOnePiece h .fillWindow) (hs : h.sender.fillWindow = .ok s') :
    Numbered { h with sender := s', created := h.created ++ newSegments h.sender s' } := by
  have hseg := hn.segmented.fillWindow hs
  rcases hn.segmented.fillWindow_ok hs with ⟨hnil, rfl⟩ | hf
  · refine ⟨hseg, hn.written, ?_, ?_⟩
    · rw [hnil, List.append_nil]
      exact hn.lone
    · rw [hnil, List.append_nil]
      exact hn.out
  · refine ⟨hseg, ?_, hn.filled hok hf, fun seg hmem => ?_⟩
    · rw [hf.result]
      show _ = (h.sender.stream.read h.sender.readable).1.bytesWirtten
      rw [ByteStream.read_bytesWirtten]
      exact hn.written
    · have hout : s'.segmentsOut = h.sender.segmentsOut ++ newSegments h.sender s' := by
        conv_lhs => rw [hf.result]
        rfl
      rw [hout] at hmem
      rcases List.mem_append.mp hmem with hold | hnew
      · exact (hn.out seg hold).imp_left (List.mem_append_left _)
      · exact Or.inl (List.mem_append_right _ hnew)

/-- What is resent was created. -/
theorem Numbered.ticked {h : SenderRun} {s' : TCPSender} (hn : Numbered h) (ht : TCPSender.Ticked h.sender s') :
    Numbered { h with sender := s' } := by
  refine ⟨hn.segmented.ticked ht, by rw [ht.stream]; exact hn.written, hn.lone, fun seg hmem => ?_⟩
  rcases ht.segmentsOut with heq | ⟨front, hfront, heq⟩
  · rw [heq] at hmem
    exact hn.out seg hmem
  · rw [heq] at hmem
    rcases List.mem_append.mp hmem with hold | hnew
    · exact hn.out seg hold
    · rw [List.mem_singleton.mp hnew]
      exact Or.inl (hn.segmented.queue.mem hfront)

/-- **One call** keeps the numbering. -/
theorem Numbered.step {h h' : SenderRun} {call : SenderCall} (hn : Numbered h)
    (hok : opensInOnePiece h call) (hs : h.step call = .ok h') : Numbered h' := by
  have hseg := hn.segmented.step hok.silent hs
  cases call with
  | write data =>
    obtain rfl := Except.ok.inj hs
    obtain ⟨-, hlen, -, hbytes⟩ := hn.segmented.wf.write data
    refine ⟨hseg, ?_, hn.lone, hn.out⟩
    show (h.accepted ++ data.take (h.sender.stream.write data).1).length
      = (h.sender.stream.write data).2.bytesWirtten
    rw [hbytes, List.length_append, List.length_take, hn.written, ByteStream.bytesWritten]
    omega
  | fillWindow =>
    obtain ⟨s', hs', rfl⟩ := map_ok.mp hs
    exact hn.fillWindow hok hs'
  | ackReceived ackno windowSize =>
    obtain rfl := Except.ok.inj hs
    obtain ⟨j, hp⟩ := h.sender.ackReceived_popped ackno windowSize
    refine ⟨hseg, ?_, hn.lone, ?_⟩
    · rw [hp.stream]
      exact hn.written
    · rw [hp.segmentsOut]
      exact hn.out
  | tick ms =>
    obtain rfl := Except.ok.inj hs
    exact hn.ticked (h.sender.tick_ticked ms)
  | sendEmptySegment =>
    obtain rfl := Except.ok.inj hs
    refine ⟨hseg, hn.written, hn.lone, fun seg hmem => ?_⟩
    rcases List.mem_append.mp hmem with hold | hnew
    · exact hn.out seg hold
    · rw [List.mem_singleton.mp hnew]
      exact Or.inr rfl
  | endInput =>
    obtain rfl := Except.ok.inj hs
    exact ⟨hseg, hn.written, hn.lone, hn.out⟩
  | pop =>
    obtain rfl := Except.ok.inj hs
    exact ⟨hseg, hn.written, hn.lone, fun seg hmem => hn.out seg (List.mem_of_mem_tail hmem)⟩

section Positions

variable {h : SenderRun} {k : Nat} {seg : TCPSegment}

theorem Numbered.syn_iff (hn : Numbered h) (hseg : h.created[k]? = some seg) :
    seg.header.syn = true ↔ k = 0 := by
  constructor
  · intro hsyn
    by_contra hne
    rw [syn_later hn.lone (Nat.pos_of_ne_zero hne) hseg] at hsyn
    exact absurd hsyn (by decide)
  · rintro rfl
    obtain ⟨hlt, hget⟩ := List.getElem?_eq_some_iff.mp hseg
    refine hn.segmented.first seg (h.created.drop 1) ?_
    rw [← hget, ← List.drop_eq_getElem_cons hlt, List.drop_zero]

/-- **Where a segment's payload starts**: one behind the number of stream bytes before it. -/
theorem Numbered.payload_start (hn : Numbered h) (hseg : h.created[k]? = some seg) :
    TCPSender.space (h.created.take k) + synLength seg = (payloads (h.created.take k)).length + 1 := by
  have hsyn := hn.syn_iff hseg
  rcases Nat.eq_zero_or_pos k with rfl | hpos
  · rw [synLength, if_pos (hsyn.mpr rfl)]
    rfl
  · rw [synLength, if_neg (fun h => absurd (hsyn.mp h) (by omega)), Nat.add_zero]
    exact hn.segmented.position hn.lone hpos (List.getElem?_eq_some_iff.mp hseg).1

/-- The FIN is numbered behind the last stream byte. -/
theorem Numbered.fin_position (hn : Numbered h) (hseg : h.created[k]? = some seg)
    (hfin : seg.header.fin = true) :
    TCPSender.space (h.created.take k) + synLength seg + seg.payload.length
      = h.sender.stream.bytesWritten + 1 := by
  obtain ⟨hlast, hends⟩ := hn.segmented.fin_is_last hseg hfin
  have hall := (hn.segmented.slice hseg).2.2 hlast
    (ByteStream.contents_of_eof (hn.segmented.finDone hends))
  have hstart := hn.payload_start hseg
  have hwritten := hn.written
  omega

end Positions

/-- **Sequence numbering is unique and fixed**, in every state of every run whose calls are all
`opensInOnePiece`.  Segment `k` ever created is stamped with the sequence space of those before it; it carries
the SYN iff it is the first one, which starts at 0; each of its payload bytes has the position one behind its
index in the accepted stream; and a FIN has the position behind the last byte written.  What is in
`segments_out`, resent or not, is one of these segments or takes no sequence numbers. -/
theorem sequence_numbering {h : SenderRun} (hr : Reach Start step opensInOnePiece h) :
    (∀ k seg, h.created[k]? = some seg →
      seg.header.seqno = wrap (TCPSender.space (h.created.take k)) h.sender.isn ∧
      (seg.header.syn = true ↔ k = 0) ∧
      (∀ j b, seg.payload[j]? = some b → ∃ i, h.accepted[i]? = some b ∧
        TCPSender.space (h.created.take k) + synLength seg + j = i + 1) ∧
      (seg.header.fin = true →
        TCPSender.space (h.created.take k) + synLength seg + seg.payload.length
          = h.sender.stream.bytesWritten + 1)) ∧
    ∀ seg ∈ h.sender.segmentsOut, seg ∈ h.created ∨ seg.lengthInSequenceSpace = 0 := by
  have hn : Numbered h := Reach.invariant (fun _ hstart => hstart.numbered)
    (fun _ _ _ hn hok hs => hn.step hok hs) hr
  refine ⟨fun k seg hseg => ⟨hn.segmented.seqno_eq hseg, hn.syn_iff hseg, fun j b hb => ?_,
    hn.fin_position hseg⟩, hn.out⟩
  have hstart := hn.payload_start hseg
  obtain ⟨hj, -⟩ := List.getElem?_eq_some_iff.mp hb
  refine ⟨(payloads (h.created.take k)).length + j, ?_, by omega⟩
  rw [(hn.segmented.slice hseg).1, List.getElem?_take_of_lt hj, List.getElem?_drop] at hb
  exact hb

/-- A stream written before the handshake: two bytes go out with the SYN, the third one with the FIN. -/
theorem sequence_numbering_three : ∃ h : SenderRun, Reach Start step opensInOnePiece h ∧
    h.accepted = [5, 6, 7] ∧ ∃ seg, h.created[1]? = some seg ∧ seg.payload[0]? = some 7 ∧
    seg.header.fin = true ∧ TCPSender.space (h.created.take 1) + synLength seg + seg.payload.length = 4 := by
  have hr : Reach Start step opensInOnePiece _ := Reach.exec_get
    (s := { sender := TCPSender.new 8 1000 (some ⟨7⟩) ⟨0⟩ })
    (l := [.ackReceived ⟨7⟩ 2, .write [5, 6, 7], .fillWindow, .endInput, .ackReceived ⟨10⟩ 4, .fillWindow])
    (.start ⟨8, 1000, some ⟨7⟩, ⟨0⟩, rfl⟩) (by decide +kernel)
  have hseg := ((sequence_numbering hr).1 1 (TCPSender.stamp ⟨7⟩ 3 false true [7]) (by decide +kernel)).2.2.2 rfl
  exact ⟨_, hr, by decide +kernel, TCPSender.stamp ⟨7⟩ 3 false true [7], by decide +kernel, rfl, rfl,
    hseg.trans (by decide +kernel)⟩

/-- **The SYN is sent again**: the ISN is acknowledged with a window of 2000 before anything was sent, and the
1001 bytes written by then go out in two segments, both with SYN; stream byte 1000, alone in the second one, is
at position 1002. -/
theorem opening_repeats_syn : ∃ h : SenderRun, Reach Start step silentAfterEnd h ∧
    h.accepted.length = 1001 ∧ ∃ seg, h.created[1]? = some seg ∧ seg.header.syn = true ∧
    seg.payload.length = 1 ∧ TCPSender.space (h.created.take 1) + synLength seg = 1002 := by
  obtain ⟨h, hr, htest⟩ : ∃ h, Reach Start step silentAfterEnd h ∧ (decide (h.accepted.length = 1001)
      && h.created[1]?.any (fun seg => seg.header.syn && decide (seg.payload.length = 1)
        && decide (TCPSender.space (h.created.take 1) + synLength seg = 1002))) = true :=
    Reach.exec_any _ (s := { sender := TCPSender.new 2000 1000 (some ⟨7⟩) ⟨0⟩ })
      (l := [.write (List.replicate 1001 1), .ackReceived ⟨7⟩ 2000, .fillWindow])
      (.start ⟨2000, 1000, some ⟨7⟩, ⟨0⟩, rfl⟩) (by decide +kernel)
  rw [Bool.and_eq_true, decide_eq_true_eq] at htest
  obtain ⟨hlen, hany⟩ := htest
  cases hseg : h.created[1]? with
  | none =>
    rw [hseg] at hany
    exact absurd hany (by simp)
  | some seg =>
    rw [hseg] at hany
    simp only [Option.any_some, Bool.and_eq_true, decide_eq_true_eq] at hany
    exact ⟨h, hr, hlen, seg, hseg, hany.1.1, hany.1.2, hany.2⟩

end SenderRun

end Sponge
