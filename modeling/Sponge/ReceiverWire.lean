/-
# `Sponge.ReceiverWire` — a receiver that hears a wired sender.

The receiver pushes payload byte `k` of the sender's stream at index `k + 1`, except that the payload of
the SYN itself goes to index 0.  So for a sender that opens with a SYN and one byte the index space has a
hole at 1 that nothing ever fills (`wireMap` with `gap`): the receiver delivers that byte and then waits
for ever, which loses the connection but no safety.  For every other sender the map is the stream, placed
at 1.

`Heard` says that all the receiver has ever written or stored is a fragment of that map.  One segment of
the sender keeps it (`Heard.segment`), under one condition: a bare SYN that comes again resets
`_top_pointer` to 1, which is harmless only while nothing has been written.
-/
import Sponge.ReceiverStream
import Sponge.SenderWire

namespace Sponge

open Sponge.Lib
open BufferStringList (EndsAt)
open StreamReassembler (Honest)
open SenderRun (Wired)

/-! ## The index space of a sender -/

/-- The stream as the receiver indexes it; with `gap` the first byte sits on the SYN. -/
def wireMap (gap : Bool) (accepted : Bytes) (i : Nat) : Option UInt8 :=
  if i = 0 then if gap then accepted[0]? else none
  else if i = 1 ∧ gap = true then none
  else accepted[i - 1]?

/-- The index of the first byte. -/
def wireBase (gap : Bool) : Nat := if gap then 0 else 1

/-- The sender opened with a SYN that carries payload. -/
def gapOf : List TCPSegment → Bool
  | [] => false
  | seg :: _ => !seg.payload.isEmpty

/-- The index of the FIN, once it has been sent. -/
def finIndex (accepted : Bytes) (created : List TCPSegment) : Option Nat :=
  if TCPSender.endsInFin created then some (accepted.length + 1) else none

theorem wireMap_false (accepted : Bytes) : wireMap false accepted = placed 1 accepted := by
  funext i
  simp only [wireMap, placed, Bool.false_eq_true, if_false, and_false]
  split
  · rw [if_pos (by omega)]
  · rw [if_neg (by omega)]

/-- Away from the SYN and the gap the map is the stream, one further on. -/
theorem wireMap_succ {gap : Bool} (accepted : Bytes) {q : Nat} (hq : gap = true → 0 < q) :
    wireMap gap accepted (q + 1) = accepted[q]? := by
  rw [wireMap, if_neg (by omega), if_neg ?_, Nat.add_sub_cancel]
  rintro ⟨h0, hgap⟩
  have := hq hgap
  omega

theorem wireMap_mono (gap : Bool) {accepted accepted' : Bytes} (h : accepted <+: accepted') :
    ∀ i a, wireMap gap accepted i = some a → wireMap gap accepted' i = some a := by
  obtain ⟨more, rfl⟩ := h
  have hget : ∀ i a, accepted[i]? = some a → (accepted ++ more)[i]? = some a := fun i a hi => by
    rw [List.getElem?_append_left (List.getElem?_eq_some_iff.mp hi).1, hi]
  intro i a
  simp only [wireMap]
  split
  · split
    · exact hget 0 a
    · exact id
  · split
    · exact id
    · exact hget (i - 1) a

/-- What agrees with the map from its base on is a prefix of the stream. -/
theorem wireMap_eq_take {gap : Bool} {accepted data : Bytes}
    (h : Agrees (wireMap gap accepted) (wireBase gap) data) :
    data = accepted.take data.length ∧ data.length ≤ accepted.length := by
  cases gap with
  | false =>
    rw [wireMap_false] at h
    exact h.eq_take
  | true =>
    have hle : 0 + data.length ≤ 1 := h.end_le (e := 1) (by simp [wireMap]) (Nat.zero_le _)
    cases data with
    | nil => simp
    | cons x rest =>
      obtain rfl : rest = [] := List.eq_nil_of_length_eq_zero (by rw [List.length_cons] at hle; omega)
      have hx : accepted[0]? = some x := by simpa [wireMap, wireBase] using h 0 (by simp)
      cases accepted with
      | nil => simp at hx
      | cons y ys => simpa using hx.symm

theorem endsAt_wireMap (gap : Bool) (accepted : Bytes) (created : List TCPSegment) :
    EndsAt (wireMap gap accepted) (finIndex accepted created) := by
  intro e he n hn
  rw [finIndex] at he
  split at he
  · obtain rfl := Option.some.inj he
    rw [wireMap, if_neg (by omega)]
    split
    · rfl
    · exact List.getElem?_eq_none (by omega)
  · exact absurd he (by simp)

/-! ## What arrives -/

/-- `seg` is `g` as far as the receiver looks; acknowledgment and window are stamped on the way. -/
structure Copies (seg g : TCPSegment) : Prop where
  seqno : seg.header.seqno = g.header.seqno
  syn : seg.header.syn = g.header.syn
  fin : seg.header.fin = g.header.fin
  payload : seg.payload = g.payload

theorem Copies.length {seg g : TCPSegment} (h : Copies seg g) :
    seg.lengthInSequenceSpace = g.lengthInSequenceSpace := by
  rw [TCPSegment.lengthInSequenceSpace, h.payload, h.syn, h.fin, TCPSegment.lengthInSequenceSpace]

/-- A segment that comes from the sender: a copy of a created one, or a blank one. -/
def OnWire (created : List TCPSegment) (seg : TCPSegment) : Prop :=
  (∃ (k : Nat) (g : TCPSegment), created[k]? = some g ∧ Copies seg g) ∨ Blank seg

/-- The receiver knows the sender's ISN, and all it has is from the sender's stream. -/
structure Heard (isn : WrappingInt32) (accepted : Bytes) (created : List TCPSegment) (r : TCPReceiver)
    (consumed : Bytes) : Prop where
  isn : r.isn = some isn
  sent : created ≠ []
  honest : Honest (wireMap (gapOf created) accepted) (finIndex accepted created) (wireBase (gapOf created))
    consumed r.reassembler

variable {s s' : TCPSender} {accepted accepted' : Bytes} {created created' : List TCPSegment}
  {r : TCPReceiver} {consumed : Bytes} {seg : TCPSegment}

/-- A sent FIN is final: nothing more is created or accepted. -/
theorem fin_final (h : Wired s accepted created) (h' : Wired s' accepted' created')
    (hpre : created <+: created') (hfin : TCPSender.endsInFin created = true) :
    created' = created ∧ accepted' = accepted := by
  obtain ⟨more, rfl⟩ := hpre
  have hmore : more = [] := by
    by_contra hne
    -- the FIN would not be last
    cases hb : created.getLast? with
    | none =>
      rw [TCPSender.endsInFin, hb] at hfin
      exact absurd hfin (by simp)
    | some back =>
      rw [TCPSender.endsInFin, hb] at hfin
      have hmem : back ∈ (created ++ more).dropLast := by
        rw [List.dropLast_append_of_ne_nil hne]
        exact List.mem_append_left _ (List.mem_of_getLast? hb)
      rw [Option.any_some, h'.finLast back hmem] at hfin
      exact absurd hfin (by decide)
  subst hmore
  rw [List.append_nil] at h' ⊢
  refine ⟨rfl, ?_⟩
  rw [← h.payload, ← h'.payload, ByteStream.contents_of_eof (h.finDone hfin),
    ByteStream.contents_of_eof (h'.finDone hfin)]

theorem gapOf_prefix (hne : created ≠ []) (hpre : created <+: created') : gapOf created' = gapOf created := by
  obtain ⟨more, rfl⟩ := hpre
  obtain ⟨g, rest, rfl⟩ := List.exists_cons_of_ne_nil hne
  rfl

/-- The sender goes on, and what was heard stays right. -/
theorem Heard.mono {isn : WrappingInt32} (h : Heard isn accepted created r consumed)
    (hw : Wired s accepted created) (hw' : Wired s' accepted' created') (hpre : created <+: created')
    (hacc : accepted <+: accepted') : Heard isn accepted' created' r consumed := by
  have hgap := gapOf_prefix h.sent hpre
  refine ⟨h.isn, fun hnil => h.sent ?_, ?_⟩
  · rw [hnil] at hpre
    exact List.prefix_nil.mp hpre
  · rw [hgap]
    refine h.honest.mono (wireMap_mono _ hacc) fun e he => ?_
    rw [finIndex] at he
    split at he
    · rename_i hfin
      obtain ⟨rfl, rfl⟩ := fin_final hw hw' hpre hfin
      rw [finIndex, if_pos hfin]
      exact he
    · exact absurd he (by simp)

/-- The bytes written are a prefix of the stream. -/
theorem Heard.written {isn : WrappingInt32} (h : Heard isn accepted created r consumed) :
    consumed ++ r.streamOut.contents <+: accepted ∧ r.streamOut.bytesWritten ≤ accepted.length := by
  obtain ⟨htake, hle⟩ := wireMap_eq_take h.honest.written
  refine ⟨?_, ?_⟩
  · have hpre := List.take_prefix (consumed ++ r.reassembler.output.contents).length accepted
    rwa [← htake] at hpre
  · rw [h.honest.written_length] at hle
    exact hle

theorem Heard.top_le {isn : WrappingInt32} (h : Heard isn accepted created r consumed) :
    r.reassembler.topPointer ≤ accepted.length + 1 := by
  have hbase : wireBase (gapOf created) ≤ 1 := by
    rw [wireBase]
    split <;> omega
  have hle : r.reassembler.output.bytesWirtten ≤ accepted.length := h.written.2
  rw [h.honest.ordered.top]
  omega

/-! ## Bytes at their indices -/

/-- A created segment after the first starts one position after the bytes before it. -/
theorem unwrap_later (hw : Wired s accepted created) (hlen : accepted.length < 2 ^ 31) {k c : Nat}
    {g : TCPSegment} (hk : 0 < k) (hg : created[k]? = some g) (hc : c ≤ 2 ^ 31) :
    unwrap g.header.seqno s.isn c = (payloads (created.take k)).length + 1 := by
  have hlt := (List.getElem?_eq_some_iff.mp hg).1
  have hslice := (hw.slice hg).2.1
  rw [hw.seqno_eq hg, hw.position hw.lone hk hlt]
  exact unwrap_wrap_small s.isn (by omega) (by omega) hc

/-- Its payload agrees with the map there. -/
theorem agrees_later (hw : Wired s accepted created) {k : Nat} {g : TCPSegment} (hk : 0 < k)
    (hg : created[k]? = some g) :
    Agrees (wireMap (gapOf created) accepted) ((payloads (created.take k)).length + 1) g.payload := by
  have hslice := (hw.slice hg).1
  have hgap : gapOf created = true → 0 < (payloads (created.take k)).length := by
    intro hgap
    obtain ⟨first, rest, rfl⟩ : ∃ first rest, created = first :: rest :=
      List.exists_cons_of_ne_nil (List.ne_nil_of_mem (List.mem_of_getElem? hg))
    obtain ⟨i, rfl⟩ : ∃ i, k = i + 1 := ⟨k - 1, by omega⟩
    have hne : first.payload ≠ [] := by simpa [gapOf] using hgap
    rw [List.take_succ_cons, payloads_cons, List.length_append]
    have := List.length_pos_of_ne_nil hne
    omega
  generalize payloads (created.take k) = before at hslice hgap ⊢
  intro t ht
  rw [Nat.add_right_comm, wireMap_succ accepted (fun h => by have := hgap h; omega), hslice,
    List.getElem?_take_of_lt ht, List.getElem?_drop]

/-- Its FIN stands at the end index. -/
theorem finIndex_later (hw : Wired s accepted created) {k : Nat} {g : TCPSegment}
    (hg : created[k]? = some g) (hfin : g.header.fin = true) :
    finIndex accepted created = some ((payloads (created.take k)).length + 1 + g.payload.length) := by
  have hlt := (List.getElem?_eq_some_iff.mp hg).1
  have hlast : k + 1 = created.length := by
    by_contra hne
    have hmem : g ∈ created.dropLast := by
      refine List.mem_of_getElem? (i := k) ?_
      rw [List.getElem?_dropLast, if_pos (by omega)]
      exact hg
    rw [hw.finLast g hmem] at hfin
    exact absurd hfin (by decide)
  have hends : TCPSender.endsInFin created = true := by
    rw [TCPSender.endsInFin, List.getLast?_eq_getElem?, ← hlast, Nat.add_sub_cancel, hg]
    exact hfin
  have hall := (hw.slice hg).2.2 hlast (ByteStream.contents_of_eof (hw.finDone hends))
  rw [finIndex, if_pos hends, Option.some.injEq]
  omega

/-- The first segment is a bare SYN, or a SYN with the first byte of the stream and no FIN. -/
theorem opening_cases (hw : Wired s accepted created) {g : TCPSegment} (hg : created[0]? = some g) :
    g.header.syn = true ∧ g.header.seqno = s.isn ∧
    ((g.payload = [] ∧ gapOf created = false) ∨
      (g.payload ≠ [] ∧ g.header.fin = false ∧ gapOf created = true ∧ accepted[0]? = g.payload[0]? ∧
        g.payload.length = 1)) := by
  obtain ⟨first, rest, rfl⟩ : ∃ first rest, created = first :: rest :=
    List.exists_cons_of_ne_nil (List.ne_nil_of_mem (List.mem_of_getElem? hg))
  obtain rfl : first = g := by simpa using hg
  have hseq : first.header.seqno = wrap 0 s.isn := hw.seqno_eq (k := 0) hg
  rw [wrap_zero] at hseq
  refine ⟨hw.first first rest rfl, hseq, ?_⟩
  by_cases hnil : first.payload = []
  · exact Or.inl ⟨hnil, by simp [gapOf, hnil]⟩
  · obtain ⟨hone, hfin⟩ := (hw.opening first rest rfl).resolve_left hnil
    refine Or.inr ⟨hnil, hfin, by simp [gapOf, hnil], ?_, hone⟩
    have hslice := (hw.slice (k := 0) hg).1
    rw [List.take_zero, hone] at hslice
    rw [hslice, List.getElem?_take_of_lt (by omega), List.getElem?_drop]
    rfl

/-- The first byte, on the SYN. -/
theorem agrees_opening {g : TCPSegment} (hgap : gapOf created = true)
    (hfirst : accepted[0]? = g.payload[0]?) (hone : g.payload.length = 1) :
    Agrees (wireMap (gapOf created) accepted) 0 g.payload := by
  intro t ht
  obtain rfl : t = 0 := by omega
  rw [hgap, wireMap, if_pos rfl, if_pos rfl, hfirst]

/-! ## One segment -/

/-- A bare SYN that comes again before anything was written changes nothing but, perhaps, the FIN's
number. -/
theorem segmentReceived_repeated_syn {isn : WrappingInt32} (hisn : r.isn = some isn)
    (hsyn : seg.header.syn = true) (hseq : seg.header.seqno = isn) (hdata : seg.payload = [])
    (htop : r.reassembler.topPointer = 1) :
    r.segmentReceived seg = .ok (r.record seg r.reassembler) := by
  have hindex : unwrap isn isn 1 = 0 := by
    rw [unwrap_of_lt _ _ (by decide), WrappingInt32.minus, UInt32.sub_self]
    rfl
  have hpush : r.reassembler.pushSubstring [] 0 seg.header.fin = .ok r.reassembler := by
    rw [StreamReassembler.pushSubstring, htop, if_pos (by decide), if_pos (by decide)]
  have hsame : ({ r.reassembler with topPointer := add64 0 1 } : StreamReassembler) = r.reassembler := by
    rw [show add64 0 1 = r.reassembler.topPointer from htop.symm]
  rw [TCPReceiver.segmentReceived_eq, if_neg (by simp [hisn]), TCPReceiver.pushBackWrapString, hisn, hdata,
    Option.getD_some, hseq, htop, hindex, hsyn, hpush]
  show Except.ok (r.record seg { r.reassembler with topPointer := add64 0 1 }) = _
  rw [hsame]

/-- A segment whose payload and FIN fit the map at its index keeps what is heard right. -/
theorem Heard.pushed {isn : WrappingInt32} {index : Nat} (h : Heard isn accepted created r consumed)
    (hbare : seg.header.syn = false ∨ seg.payload ≠ [])
    (hindex : unwrap seg.header.seqno isn r.reassembler.topPointer = index)
    (hagree : Agrees (wireMap (gapOf created) accepted) index seg.payload)
    (hfin : seg.header.fin = true → finIndex accepted created = some (index + seg.payload.length))
    (hlt : index + seg.payload.length + 1 < 2 ^ 64) (hlen : accepted.length < 2 ^ 31) :
    ∃ r', r.segmentReceived seg = .ok r' ∧ Heard isn accepted created r' consumed := by
  have htop := h.top_le
  obtain ⟨re, hpush, hre⟩ := h.honest.push (endsAt_wireMap (gapOf created) accepted created) hagree hfin hlt
    (by omega)
  refine ⟨_, TCPReceiver.segmentReceived_of_push seg (by rw [h.isn, Option.getD_some])
    (Or.inl (by simp [h.isn])) hbare hindex hpush, ?_, h.sent, hre⟩
  rw [TCPReceiver.record_isn, h.isn, Option.getD_some]

/-- The first segment again.  Bare, it is harmless while nothing has been written. -/
theorem Heard.opening (h : Heard s.isn accepted created r consumed) (hw : Wired s accepted created)
    (hlen : accepted.length < 2 ^ 31) {g : TCPSegment} (hg : created[0]? = some g) (hcopy : Copies seg g)
    (hfresh : seg.header.syn = true → seg.payload = [] → r.streamOut.bytesWritten = 0) :
    ∃ r', r.segmentReceived seg = .ok r' ∧ Heard s.isn accepted created r' consumed := by
  obtain ⟨hsyn, hseq, ⟨hnil, hgap⟩ | ⟨hne, hfin, hgap, hfirst, hone⟩⟩ := opening_cases hw hg
  · have hz : r.reassembler.output.bytesWirtten = 0 :=
      hfresh (hcopy.syn.trans hsyn) (hcopy.payload.trans hnil)
    have htop : r.reassembler.topPointer = 1 := by
      rw [h.honest.ordered.top, hz, hgap]
      rfl
    refine ⟨_, segmentReceived_repeated_syn h.isn (hcopy.syn.trans hsyn) (hcopy.seqno.trans hseq)
      (hcopy.payload.trans hnil) htop, ?_, h.sent, h.honest⟩
    rw [TCPReceiver.record_isn, h.isn, Option.getD_some]
  · have htop : r.reassembler.topPointer ≤ 1 := by
      have hle := h.honest.written.end_le (e := 1) (by rw [hgap]; simp [wireMap])
        (by rw [hgap, wireBase]; simp)
      rw [h.honest.written_length] at hle
      rw [h.honest.ordered.top]
      exact hle
    have hindex : unwrap seg.header.seqno s.isn r.reassembler.topPointer = 0 := by
      rw [hcopy.seqno, hseq, unwrap_of_lt _ _ (by omega), WrappingInt32.minus, UInt32.sub_self]
      rfl
    refine h.pushed (Or.inr (by rw [hcopy.payload]; exact hne)) hindex ?_ ?_ ?_ hlen
    · rw [hcopy.payload]
      exact agrees_opening hgap hfirst hone
    · rw [hcopy.fin, hfin]
      simp
    · rw [hcopy.payload, hone]
      decide

/-- A segment after the first. -/
theorem Heard.later (h : Heard s.isn accepted created r consumed) (hw : Wired s accepted created)
    (hlen : accepted.length < 2 ^ 31) {k : Nat} {g : TCPSegment} (hk : 0 < k) (hg : created[k]? = some g)
    (hcopy : Copies seg g) :
    ∃ r', r.segmentReceived seg = .ok r' ∧ Heard s.isn accepted created r' consumed := by
  have htop := h.top_le
  have hglen := (hw.slice hg).2.1
  have hindex := unwrap_later hw hlen hk hg (c := r.reassembler.topPointer) (by omega)
  refine h.pushed (Or.inl ?_) ((congrArg (unwrap · s.isn _) hcopy.seqno).trans hindex) ?_ ?_ ?_ hlen
  · rw [hcopy.syn]
    exact SenderRun.syn_later hw.lone hk hg
  · rw [hcopy.payload]
    exact agrees_later hw hk hg
  · rw [hcopy.payload, hcopy.fin]
    exact finIndex_later hw hg
  · rw [hcopy.payload]
    omega

/-- **A segment of the sender keeps what is heard right.** -/
theorem Heard.segment (h : Heard s.isn accepted created r consumed) (hw : Wired s accepted created)
    (hlen : accepted.length < 2 ^ 31) (hwire : OnWire created seg)
    (hfresh : seg.header.syn = true → seg.payload = [] → r.streamOut.bytesWritten = 0) :
    ∃ r', r.segmentReceived seg = .ok r' ∧ Heard s.isn accepted created r' consumed := by
  rcases hwire with ⟨k, g, hg, hcopy⟩ | hblank
  · rcases Nat.eq_zero_or_pos k with rfl | hk
    · exact h.opening hw hlen hg hcopy hfresh
    · exact h.later hw hlen hk hg hcopy
  · -- nothing is pushed, wherever it is pushed
    have htop := h.top_le
    have hnear := unwrap_lt_of_small seg.header.seqno s.isn (c := r.reassembler.topPointer) (by omega)
    obtain ⟨index, hindex⟩ : ∃ i, unwrap seg.header.seqno s.isn r.reassembler.topPointer = i := ⟨_, rfl⟩
    rw [hindex] at hnear
    refine h.pushed (Or.inl hblank.syn) hindex ?_ ?_ ?_ hlen
    · rw [hblank.payload]
      exact Agrees.nil _ _
    · rw [hblank.fin]
      simp
    · rw [hblank.payload, List.length_nil]
      omega

/-- A bare SYN, perhaps with the FIN of an empty stream. -/
theorem heard_bare_syn {capacity : Nat} (hw : Wired s accepted created) (hisn : r.isn = none)
    (hre : r.reassembler = StreamReassembler.new capacity) {g : TCPSegment} (hg : created[0]? = some g)
    (hcopy : Copies seg g) (hsyn : g.header.syn = true) (hseq : g.header.seqno = s.isn) (hnil : g.payload = [])
    (hgap : gapOf created = false) :
    ∃ r', r.segmentReceived seg = .ok r' ∧ Heard s.isn accepted created r' [] := by
  have hne := List.ne_nil_of_mem (List.mem_of_getElem? hg)
  refine ⟨_, TCPReceiver.segmentReceived_first_syn seg hisn hre (hcopy.syn.trans hsyn)
    (hcopy.payload.trans hnil), ?_, hne, ?_⟩
  · rw [TCPReceiver.record_isn, hisn, Option.getD_none, hcopy.seqno, hseq]
  · rw [TCPReceiver.record_reassembler, hgap]
    have hopen := TCPReceiver.honest_behind_syn (wireMap false accepted) (finIndex accepted created)
      capacity
    split
    · rename_i hend
      rw [Bool.and_eq_true, hcopy.fin] at hend
      have hindex := finIndex_later hw hg hend.1
      rw [hnil, List.take_zero] at hindex
      exact hopen.endInput hindex
    · exact hopen

/-- A SYN with the first byte, which is pushed at index 0. -/
theorem heard_syn_byte {capacity : Nat} (hisn : r.isn = none)
    (hre : r.reassembler = StreamReassembler.new capacity) {g : TCPSegment} (hne : created ≠ [])
    (hcopy : Copies seg g) (hsyn : g.header.syn = true) (hseq : g.header.seqno = s.isn)
    (hfin : g.header.fin = false) (hgap : gapOf created = true) (hfirst : accepted[0]? = g.payload[0]?)
    (hone : g.payload.length = 1) :
    ∃ r', r.segmentReceived seg = .ok r' ∧ Heard s.isn accepted created r' [] := by
  have hindex : unwrap seg.header.seqno s.isn r.reassembler.topPointer = 0 := by
    rw [hcopy.seqno, hseq, hre]
    exact TCPReceiver.unwrap_self s.isn
  have hnofin : seg.header.fin = true → finIndex accepted created = some (0 + g.payload.length) := by
    rw [hcopy.fin, hfin]
    simp
  obtain ⟨re, hpush, hhonest⟩ := (Honest.new (wireMap (gapOf created) accepted)
    (finIndex accepted created) capacity).push (endsAt_wireMap (gapOf created) accepted created)
    (agrees_opening (g := g) hgap hfirst hone) hnofin (by omega) (by simp [StreamReassembler.new])
  rw [← hcopy.payload, ← hre] at hpush
  have hstart : r.isn.getD seg.header.seqno = s.isn := by
    rw [hisn, Option.getD_none, hcopy.seqno, hseq]
  have hdata : seg.payload ≠ [] := by
    rw [hcopy.payload, ← List.length_pos_iff, hone]
    exact Nat.one_pos
  refine ⟨_, TCPReceiver.segmentReceived_of_push seg hstart (Or.inr (hcopy.syn.trans hsyn)) (Or.inr hdata)
    hindex hpush, ?_, hne, ?_⟩
  · rw [TCPReceiver.record_isn, hstart]
  · rw [TCPReceiver.record_reassembler]
    rw [hgap] at hhonest ⊢
    exact hhonest

/-- **The first segment that is heard** is the SYN; anything before it is dropped. -/
theorem heard_first {capacity : Nat} (hw : Wired s accepted created)
    (hisn : r.isn = none) (hre : r.reassembler = StreamReassembler.new capacity)
    (hwire : OnWire created seg) :
    ∃ r', r.segmentReceived seg = .ok r' ∧ (r' = r ∨ Heard s.isn accepted created r' []) := by
  have hdropped : seg.header.syn = false → ∃ r', r.segmentReceived seg = .ok r' ∧
      (r' = r ∨ Heard s.isn accepted created r' []) := fun hsyn =>
    ⟨r, by rw [TCPReceiver.segmentReceived_eq, if_pos ⟨hisn, hsyn⟩], Or.inl rfl⟩
  rcases hwire with ⟨k, g, hg, hcopy⟩ | hblank
  · have hne := List.ne_nil_of_mem (List.mem_of_getElem? hg)
    rcases Nat.eq_zero_or_pos k with rfl | hk
    · have hheard : ∃ r', r.segmentReceived seg = .ok r' ∧ Heard s.isn accepted created r' [] := by
        obtain ⟨hsyn, hseq, ⟨hnil, hgap⟩ | ⟨-, hfin, hgap, hfirst, hone⟩⟩ := opening_cases hw hg
        · exact heard_bare_syn hw hisn hre hg hcopy hsyn hseq hnil hgap
        · exact heard_syn_byte hisn hre hne hcopy hsyn hseq hfin hgap hfirst hone
      obtain ⟨r', hr', hheard⟩ := hheard
      exact ⟨r', hr', Or.inr hheard⟩
    · refine hdropped ?_
      rw [hcopy.syn]
      exact SenderRun.syn_later hw.lone hk hg
  · exact hdropped hblank.syn

end Sponge
