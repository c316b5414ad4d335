/-
# `Sponge.ReceiverProgress` — a receiver that gets the segment it waits for.

Safety says that nothing wrong is ever written.  Here is what makes a receiver move on: a segment that starts at or
before the next position, when the output has been read and has room for it, is acknowledged to its end.

The bytes always are (`Honest.push_next`).  The FIN is not.  `push_back` forgets an end mark whose fragment lies inside
an element that is already stored, and one element can lie there: the rest of an element that was longer than the
output had room for, which starts at `_top_pointer`.  The push that loses the mark clears that rest away
(`Honest.push_end`), so the second copy of such a FIN is taken.
-/
import Sponge.FifoNetwork

namespace Sponge

open Sponge.Lib
open BufferStringList (EndsAt)
open SenderRun (Wired)
open TCPConfig (MAX_PAYLOAD_SIZE)

/-! ## The last fragment in the list -/

/-- A marked fragment that starts where the list starts and ends where it may end becomes its front, from there to the
end.  The mark is on it unless an element starts at the same place. -/
theorem BufferStringList.pushBack_last {list : BufferStringList} (h : Sorted list) {target : Bytes} {index : Nat}
    (hlt : index + target.length < 2 ^ 64) (habove : ∀ b ∈ list, index ≤ b.first)
    (hwithin : ∀ b ∈ list, b.first ≤ index + target.length → b.second ≤ index + target.length) :
    ∃ front rest, pushBack list target index true = .ok (front :: rest) ∧ front.first = index ∧
      front.second = index + target.length ∧ (∀ b ∈ rest, index + target.length < b.first) ∧
      ((∀ b ∈ list, index < b.first) → front.eof = true) := by
  obtain ⟨L, M, R, rfl, hL, hM, hR, heq⟩ := pushBack_eq h hlt true
  have hmem : ∀ b ∈ M, b ∈ L ++ M ++ R := fun b hb => by simp [hb]
  obtain rfl : L = [] := by
    rw [List.eq_nil_iff_forall_not_mem]
    intro b hb
    have hstart := habove b (by simp [hb])
    have hspan := (h.fits b (by simp [hb])).second_eq
    have hleft := hL b hb
    omega
  refine ⟨_, R, heq, ?_⟩
  -- the three shapes of the front: the fragment, an element that holds it, and what it is glued to
  rcases merged_cases true R.isEmpty (h.append.1).append.2 hM with ⟨-, hfront⟩ | ⟨head, rfl, hfst, hsnd, hfront⟩ |
    ⟨head, last, hhead, hlast, -, -, -, hfront⟩
  · rw [hfront]
    exact ⟨rfl, (fits_make hlt true).second_eq, hR, fun _ => rfl⟩
  · have hstart := habove head (hmem head List.mem_cons_self)
    have hend := hwithin head (hmem head List.mem_cons_self) (hM head List.mem_cons_self).2
    rw [hfront]
    refine ⟨by omega, by omega, hR, fun hclear => ?_⟩
    have hbehind := hclear head (hmem head List.mem_cons_self)
    omega
  · have hstart := habove head (hmem head hhead)
    have hend := hwithin last (hmem last hlast) (hM last hlast).2
    rw [hfront]
    refine ⟨?_, ?_, hR, fun _ => rfl⟩
    · show min head.first index = index
      omega
    · show max last.second (index + target.length) = index + target.length
      omega

/-! ## One push -/

namespace StreamReassembler

variable {f : Nat → Option UInt8} {fin : Option Nat} {base : Nat} {consumed : Bytes} {r r' : StreamReassembler}
  {data : Bytes} {index : Nat} {eof : Bool}

/-- Nothing is stored at `_top_pointer`. -/
def Clear (r : StreamReassembler) : Prop := ∀ b ∈ r.bufferList, r.topPointer < b.first

/-- **A fragment that starts at or before `_top_pointer`** and has room in the output is written to its end. -/
theorem Honest.push_next (h : Honest f fin base consumed r) (h' : Honest f fin base consumed r')
    (hlt : index + data.length + 1 < 2 ^ 64) (htop : r.topPointer + 1 < 2 ^ 64) (hstart : index ≤ r.topPointer)
    (hread : r.output.contents = []) (hsome : 0 < r.capacity) (hroom : data.length ≤ r.capacity)
    (hpush : r.pushSubstring data index eof = .ok r') : index + data.length ≤ r'.topPointer := by
  by_contra hshort
  obtain ⟨-, hfrag, hhead⟩ := h.ordered.push_retains hlt htop hpush
  obtain ⟨-, hgrown⟩ := pushSubstring_frame hpush
  have hcap := h.ordered.currentCapactiy
  have hedge := h.ordered.edge
  have hbefore := h.ordered.top
  have hafter := h'.ordered.top
  have hread' := hgrown.read
  have hwritten := hgrown.written
  rw [hread, List.length_nil, Nat.sub_zero] at hcap
  have hkept : ¬ r.Dropped data.length index := by
    unfold Dropped
    omega
  rcases hhead hkept with hfull | hmissing
  · -- a full output has taken as much as the fragment can hold
    have hbalance := h.ordered.out.balance
    have hbalance' := h'.ordered.out.balance
    rw [hread, List.length_nil] at hbalance
    omega
  · rcases hfrag r'.topPointer (by omega) (by omega) (by omega) (by omega) with hpast | hstored
    · exact absurd hpast (Nat.lt_irrefl _)
    · exact hmissing hstored

/-- **The last fragment**, with the end mark: when it has been pushed nothing is left at `_top_pointer`, and if nothing
was there before, the output has ended. -/
theorem Honest.push_end (h : Honest f (some (index + data.length)) base consumed r)
    (hend : EndsAt f (some (index + data.length))) (hlt : index + data.length + 1 < 2 ^ 64)
    (htop : r.topPointer + 1 < 2 ^ 64) (hbase : base ≤ index + data.length) (hstart : index ≤ r.topPointer)
    (hread : r.output.contents = []) (hsome : 0 < r.capacity) (hroom : data.length ≤ r.capacity)
    (hpush : r.pushSubstring data index true = .ok r') :
    Clear r' ∧ (Clear r → r'.output.isInputEnd = true) := by
  have hcap := h.ordered.currentCapactiy
  rw [hread, List.length_nil, Nat.sub_zero] at hcap
  have hnone : f (index + data.length) = none := hend _ rfl _ (Nat.le_refl _)
  have hpast : r.topPointer ≤ index + data.length := by
    have hle := h.written.end_le hnone hbase
    rw [h.written_length] at hle
    rw [h.ordered.top]
    exact hle
  rcases h.ordered.push_cases true hlt htop with ⟨hdropped, -⟩ | ⟨-, list, hpb, heq, hsorted, -⟩
  · unfold Dropped at hdropped
    omega
  obtain rfl : r.settle list = r' := Except.ok.inj (heq.symm.trans hpush)
  -- what is left of the fragment goes from `_top_pointer` to the end, with its mark
  have hcut : r.topPointer + (r.cut data index).length = index + data.length := by
    rw [cut, List.length_take, List.length_drop]
    omega
  have hmark : r.cutEof data index true = true := by
    rw [cutEof, Bool.true_and, decide_eq_true_eq]
    omega
  have hwithin : ∀ b ∈ r.bufferList, b.first ≤ r.topPointer + (r.cut data index).length →
      b.second ≤ r.topPointer + (r.cut data index).length := by
    intro b hb hfirst
    rw [(h.ordered.sorted.fits b hb).second_eq, hcut]
    exact (h.content.agrees b hb).end_le hnone (hcut ▸ hfirst)
  obtain ⟨front, rest, hpb', hfirst, hsecond, hrest, hmarked⟩ :=
    BufferStringList.pushBack_last h.ordered.sorted (by omega) h.ordered.above hwithin
  rw [Nat.max_eq_right hstart, hmark] at hpb
  obtain rfl : front :: rest = list := Except.ok.inj (hpb'.symm.trans hpb)
  have hfits := hsorted.fits front List.mem_cons_self
  have hlen := hfits.second_eq
  obtain ⟨hst, hleft, hended⟩ : Settled r front.target (r.settle (front :: rest)) ∧ _ :=
    settle_whole h.ordered hfits hfirst (by omega)
  refine ⟨?_, fun hclear => ?_⟩
  · unfold Clear
    rw [hleft, hst.top]
    intro b hb
    have hright := hrest b hb
    omega
  · rw [hended, hmarked hclear, Bool.or_true]

end StreamReassembler

/-! ## One segment -/

/-- The stream has not ended, all of it has been read, and there is room for a segment. -/
structure TCPReceiver.Waits (r : TCPReceiver) : Prop where
  goesOn : r.streamOut.inputEnded = false
  read : r.streamOut.contents = []
  room : MAX_PAYLOAD_SIZE ≤ r.reassembler.capacity

theorem TCPReceiver.acknowledged_of_open {r : TCPReceiver} {isn : WrappingInt32} (hisn : r.isn = some isn)
    (hopen : r.streamOut.inputEnded = false) : r.acknowledged = 1 + r.streamOut.bytesWritten := by
  rw [acknowledged, if_pos (by simp [hisn]), hopen]
  rfl

/-- The position after the first `k + 1` segments. -/
theorem space_take_succ {created : List TCPSegment} {k : Nat} {g : TCPSegment} (hg : created[k]? = some g)
    (hsyn : g.header.syn = false) : TCPSender.space (created.take (k + 1))
      = TCPSender.space (created.take k) + g.payload.length + (if g.header.fin then 1 else 0) := by
  rw [TCPSender.space, span_take_succ hg, TCPSegment.lengthInSequenceSpace, hsyn]
  exact (Nat.add_assoc _ _ _).symm

variable {s : TCPSender} {accepted consumed : Bytes} {created : List TCPSegment} {r r' : TCPReceiver} {k : Nat}
  {g seg : TCPSegment}

/-- **The next segment**, which starts at or before what is acknowledged: it is acknowledged to its end, or its FIN is
all that is missing and nothing is in the way of a second copy. -/
theorem Heard.takes (h : Heard s.isn accepted created r consumed) (hw : Wired s accepted created)
    (hlen : accepted.length < 2 ^ 31) (hgap : gapOf created = false) (hwaits : r.Waits) (hk : 0 < k)
    (hg : created[k]? = some g) (hcopy : Copies seg g)
    (hreach : TCPSender.space (created.take k) ≤ r.acknowledged) (hs : r.segmentReceived seg = .ok r') :
    (TCPSender.space (created.take (k + 1)) ≤ r'.acknowledged ∨ r'.reassembler.Clear) ∧
    (r.reassembler.Clear → TCPSender.space (created.take (k + 1)) ≤ r'.acknowledged) := by
  have hsyn := SenderRun.syn_later hw.lone hk hg
  have hpos := hw.position hw.lone hk (List.getElem?_eq_some_iff.mp hg).1
  have hslice := (hw.slice hg).2.1
  have hsmall := hw.small g (List.mem_of_getElem? hg)
  have hbound := h.top_le
  have hindex := unwrap_later hw hlen hk hg (c := r.reassembler.topPointer) (by omega)
  have hagree := agrees_later hw hk hg
  have hfin := finIndex_later hw hg
  rw [TCPReceiver.acknowledged_of_open h.isn hwaits.goesOn] at hreach
  rw [space_take_succ hg hsyn, hpos]
  rw [hpos] at hreach
  generalize (payloads (created.take k)).length = before at hreach hslice hindex hagree hfin ⊢
  rw [← hcopy.payload] at hagree hsmall hslice hfin ⊢
  rw [← hcopy.fin] at hfin ⊢
  rw [← hcopy.seqno] at hindex
  have hhonest := h.honest
  rw [hgap] at hhonest hagree
  have hends := endsAt_wireMap false accepted created
  obtain ⟨re, heq, hafter, hpush⟩ := TCPReceiver.segmentReceived_honest seg hhonest hends h.isn (hcopy.syn.trans hsyn)
    hindex hagree hfin (by omega) (by omega)
  obtain rfl : r.record seg re = r' := Except.ok.inj (heq.symm.trans hs)
  have hstart : before + 1 ≤ r.reassembler.topPointer := by
    rw [hhonest.ordered.top]
    exact hreach
  have hroom : seg.payload.length ≤ r.reassembler.capacity := Nat.le_trans hsmall hwaits.room
  have hsome : 0 < r.reassembler.capacity := Nat.lt_of_lt_of_le (by decide) hwaits.room
  have hreached := hhonest.push_next hafter (by omega) (by omega) hstart hwaits.read hsome hroom hpush
  have hack : (r.record seg re).acknowledged = re.topPointer + (if re.output.isInputEnd then 1 else 0) := by
    rw [hafter.ordered.top]
    rfl
  rw [hack]
  cases hlast : seg.header.fin with
  | false =>
    have hdone : before + 1 + seg.payload.length + (if false = true then 1 else 0)
        ≤ re.topPointer + (if re.output.isInputEnd then 1 else 0) := by
      rw [if_neg Bool.false_ne_true]
      omega
    exact ⟨Or.inl hdone, fun _ => hdone⟩
  | true =>
    rw [hfin hlast] at hhonest hends
    rw [hlast] at hpush
    have hbase : wireBase false ≤ before + 1 + seg.payload.length := by
      show 1 ≤ _
      omega
    obtain ⟨hclear, hended⟩ := hhonest.push_end hends (by omega) (by omega) hbase hstart hwaits.read hsome hroom hpush
    refine ⟨Or.inr hclear, fun hwas => ?_⟩
    rw [hended hwas, if_pos rfl]
    omega

/-- The sender opened with a SYN and nothing else. -/
def OpenedBare (created : List TCPSegment) : Prop :=
  ∀ g, created[0]? = some g → g.payload = [] ∧ g.header.fin = false

theorem OpenedBare.gapOf (h : OpenedBare created) : gapOf created = false := by
  cases created with
  | nil => rfl
  | cons g rest =>
    show (!g.payload.isEmpty) = false
    rw [(h g rfl).1]
    rfl

/-- A SYN makes the ISN known. -/
theorem TCPReceiver.acknowledged_syn (hsyn : seg.header.syn = true) (hs : r.segmentReceived seg = .ok r') :
    1 ≤ r'.acknowledged := by
  rw [segmentReceived_eq, if_neg (by simp [hsyn])] at hs
  obtain ⟨re, -, rfl⟩ := map_ok.mp hs
  show 1 ≤ 1 + _ + _
  omega

/-- **The segment that the receiver waits for**: the SYN, or a later one that starts at or before what is
acknowledged. -/
theorem Hears.takes {b : Endpoint} (h : Hears s.isn created b) (hw : Wired s accepted created)
    (hlen : accepted.length < 2 ^ 31) (hbare : OpenedBare created) (hwaits : b.conn.receiver.Waits)
    (hg : created[k]? = some g) (hcopy : Copies seg g)
    (hreach : TCPSender.space (created.take k) ≤ b.conn.receiver.acknowledged)
    (hs : b.conn.receiver.segmentReceived seg = .ok r') :
    1 ≤ r'.acknowledged ∧
    (TCPSender.space (created.take (k + 1)) ≤ r'.acknowledged ∨ r'.reassembler.Clear) ∧
    (b.conn.receiver.reassembler.Clear → TCPSender.space (created.take (k + 1)) ≤ r'.acknowledged) := by
  rcases Nat.eq_zero_or_pos k with rfl | hk
  · have hsyn := (opening_cases hw hg).1
    have hone : TCPSender.space (created.take 1) = 1 := by
      have hsucc : TCPSender.space (created.take (0 + 1)) = _ := span_take_succ hg
      rw [hsucc, TCPSegment.lengthInSequenceSpace, hsyn, (hbare g hg).1, (hbare g hg).2]
      rfl
    have hknown := TCPReceiver.acknowledged_syn (hcopy.syn.trans hsyn) hs
    have hdone : TCPSender.space (created.take 1) ≤ r'.acknowledged := by
      rw [hone]
      exact hknown
    exact ⟨hknown, Or.inl hdone, fun _ => hdone⟩
  · have hpos := hw.position hw.lone hk (List.getElem?_eq_some_iff.mp hg).1
    rcases h with hun | hheard
    · -- what comes after the SYN is not reached without it
      rw [TCPReceiver.acknowledged, hun.isn, hpos] at hreach
      exact absurd hreach (by simp)
    · have hlater := (TCPReceiver.Later.segmentReceived hs).acknowledged_le
      refine ⟨by omega, ?_⟩
      exact Heard.takes (s := SenderRun.asOf s created) hheard (hw.earlier List.prefix_rfl)
        (payloads_lt hw hlen List.prefix_rfl) hbare.gapOf hwaits hk hg hcopy hreach hs

end Sponge
