/-
# `Sponge.SenderSummary` — the state of a sender, as its counters tell it.

Models the sender's half of `TCPState::state_summary` (`tcp_helpers/tcp_state.{hh,cc}`).  The summary asks
neither the SYN nor the FIN flag: it compares `next_seqno_absolute()` with `bytes_in_flight()` and with
`bytes_written() + 2`.  The connection asks only the flags.  `stateSummary_eq` says that both see the same state.
It rests on the numbering of `Sponge.SenderNumbering`:

* something is acknowledged exactly if the first segment, the one with the SYN, has left the queue, and then
  less is in flight than was ever sent;
* one SYN and one FIN are numbered besides the stream bytes, so `bytes_written() + 2` is reached with the FIN
  and not before.

An acknowledgment that arrives before the SYN was sent can open the window early and have the SYN sent several
times (`opening_repeats_syn`), so the runs here acknowledge nothing before the SYN is out.
-/
import Sponge.SenderNumbering

namespace Sponge

open Sponge.Lib
open TCPConfig (MAX_PAYLOAD_SIZE)

/-- `TCPSenderStateSummary`. -/
inductive TCPSenderStateSummary where
  | error
  | closed
  | synSent
  | synAcked
  | finSent
  | finAcked
  deriving DecidableEq, Repr

namespace TCPSenderStateSummary

/-- The text by which the summaries are compared. -/
def text : TCPSenderStateSummary → String
  | error => "error (connection was reset)"
  | closed => "waiting for stream to begin (no SYN sent)"
  | synSent => "stream started but nothing acknowledged"
  | synAcked => "stream ongoing"
  | finSent => "stream finished (FIN sent) but not fully acknowledged"
  | finAcked => "stream finished and fully acknowledged"

/-- Summaries with the same text are the same. -/
theorem text_inj : ∀ {a b : TCPSenderStateSummary}, a.text = b.text → a = b := by
  intro a b h
  cases a <;> cases b <;> first | rfl | exact absurd h (by decide)

end TCPSenderStateSummary

/-- `TCPState::state_summary` of a sender. -/
def TCPState.stateSummary (sender : TCPSender) : TCPSenderStateSummary :=
  if sender.stream.error then .error
  else if sender.nextSeqnoAbsolute = 0 then .closed
  else if sender.nextSeqnoAbsolute = sender.bytesInFlight then .synSent
  else if !sender.stream.eof then .synAcked
  else if sender.nextSeqnoAbsolute < sender.stream.bytesWritten + 2 then .synAcked
  else if sender.bytesInFlight ≠ 0 then .finSent
  else .finAcked

namespace SenderRun

open TCPSender (space endsInFin)
open TCPState (stateSummary)

/-! ## The counters in terms of the segments -/

section Counters

variable {s : TCPSender} {accepted : Bytes} {created : List TCPSegment}

/-- A FIN among the created segments is on the last one. -/
theorem Segmented.exists_fin_iff (h : Segmented s accepted created) :
    (∃ seg ∈ created, seg.header.fin = true) ↔ endsInFin created = true := by
  constructor
  · rintro ⟨seg, hseg, hfin⟩
    obtain ⟨k, hk⟩ := List.mem_iff_getElem?.mp hseg
    exact (h.fin_is_last hk hfin).2
  · exact TCPSender.exists_fin_of_endsInFin

/-- At most one FIN is numbered. -/
theorem Segmented.count_fin (h : Segmented s accepted created) :
    created.countP (fun seg => seg.header.fin) = if endsInFin created then 1 else 0 := by
  cases hback : created.getLast? with
  | none =>
    rw [List.getLast?_eq_none_iff.mp hback]
    rfl
  | some back =>
    have hfront : created.dropLast.countP (fun seg => seg.header.fin) = 0 := by
      rw [List.countP_eq_zero]
      intro seg hseg
      rw [h.finLast seg hseg]
      exact Bool.false_ne_true
    have hends : endsInFin created = back.header.fin := by
      rw [endsInFin, hback]
      rfl
    rw [hends]
    conv_lhs => rw [← List.dropLast_append_getLast? back hback]
    rw [List.countP_append, hfront, List.countP_singleton, Nat.zero_add]

/-- Every segment with a SYN takes a sequence number. -/
theorem space_pos_of_syn {seg : TCPSegment} (rest : List TCPSegment) (h : seg.header.syn = true) :
    0 < space (seg :: rest) := by
  have hcons : space (seg :: rest) = seg.lengthInSequenceSpace + space rest := span_cons seg rest
  rw [hcons, TCPSegment.lengthInSequenceSpace, if_pos h]
  omega

theorem Kept.next_pos (h : Kept s created) (hne : created ≠ []) : 0 < s.nextSeqno := by
  obtain ⟨seg, rest, rfl⟩ := List.exists_cons_of_ne_nil hne
  rw [h.next]
  exact space_pos_of_syn rest (h.first seg rest rfl)

/-- With the SYN acknowledged, less is in flight than was sent. -/
theorem Kept.inFlight_lt (h : Kept s created) (hsyn : s.isSynReceived = true) :
    s.bytedInFlight < s.nextSeqno := by
  obtain ⟨front, hfront⟩ := h.queue
  have hlt := h.syn.mp hsyn
  cases front with
  | nil =>
    rw [← hfront] at hlt
    exact absurd hlt (Nat.lt_irrefl _)
  | cons seg rest =>
    have hsplit : space created = space (seg :: rest) + space s.queued := by
      rw [← hfront]
      exact span_append _ _
    have hpos := space_pos_of_syn rest (h.first seg (rest ++ s.queued) hfront.symm)
    rw [h.inFlight, h.next, hsplit]
    omega

/-- Until then everything is in flight. -/
theorem Kept.inFlight_eq (h : Kept s created) (hsyn : s.isSynReceived = false) :
    s.nextSeqno = s.bytedInFlight := by
  rw [h.next, h.inFlight, h.all_queued hsyn]

/-- With a FIN sent, nothing is in flight exactly if the queue is empty. -/
theorem Segmented.inFlight_zero_iff (h : Segmented s accepted created) (hends : endsInFin created = true) :
    s.bytedInFlight = 0 ↔ s.queued = [] := by
  rw [h.inFlight]
  constructor
  · intro hzero
    by_contra hne
    obtain ⟨front, hfront⟩ := h.queue
    rw [← hfront, TCPSender.endsInFin_append hne, endsInFin] at hends
    cases hback : s.queued.getLast? with
    | none => exact hne (List.getLast?_eq_none_iff.mp hback)
    | some back =>
      -- the FIN, last in the queue, takes a number
      rw [hback] at hends
      have hspace := space_eq_counts s.queued
      have hcount : 0 < s.queued.countP (fun seg => seg.header.fin) :=
        List.countP_pos_iff.mpr ⟨back, List.mem_of_getLast? hback, hends⟩
      omega
  · intro hq
    rw [hq]
    rfl

end Counters

/-- **What was numbered**: the SYN, the payloads, and the FIN if there is one. -/
theorem Numbered.next_eq {h : SenderRun} (hn : Numbered h) (hne : h.created ≠ []) :
    h.sender.nextSeqno = (payloads h.created).length + 1 + if endsInFin h.created then 1 else 0 := by
  have hsyn := hn.segmented.countP_syn hn.lone (List.length_pos_of_ne_nil hne) hne
  rw [List.take_length] at hsyn
  rw [hn.segmented.next, space_eq_counts, hsyn, hn.segmented.count_fin]

/-- The FIN is numbered behind everything written. -/
theorem Numbered.next_of_fin {h : SenderRun} (hn : Numbered h) (hends : endsInFin h.created = true) :
    h.sender.nextSeqno = h.sender.stream.bytesWritten + 2 := by
  have hne : h.created ≠ [] := fun hnil => by
    rw [hnil] at hends
    exact absurd hends (by simp [endsInFin])
  have hlen := hn.segmented.payload_length
  have hwritten := hn.written
  rw [ByteStream.contents_of_eof (hn.segmented.finDone hends), List.length_nil] at hlen
  rw [hn.next_eq hne, if_pos hends]
  omega

theorem Numbered.next_lt_of_not_fin {h : SenderRun} (hn : Numbered h) (hne : h.created ≠ [])
    (hends : endsInFin h.created = false) : h.sender.nextSeqno < h.sender.stream.bytesWritten + 2 := by
  have hlen := hn.segmented.payload_length
  have hwritten := hn.written
  rw [hn.next_eq hne, hends, if_neg Bool.false_ne_true]
  omega

/-- **The summary, from the flags**: the comparisons of counters ask whether anything was sent, whether the SYN
and the FIN are acknowledged, and whether a FIN was sent. -/
theorem Numbered.stateSummary_eq {h : SenderRun} (hn : Numbered h) (herror : h.sender.stream.error = false) :
    stateSummary h.sender =
      if h.created = [] then .closed
      else if h.sender.isSynReceived = false then .synSent
      else if h.sender.isFinReceived = true then .finAcked
      else if endsInFin h.created = true then .finSent
      else .synAcked := by
  have hk := hn.segmented.toKept
  rw [stateSummary, herror, if_neg Bool.false_ne_true, TCPSender.nextSeqnoAbsolute, TCPSender.bytesInFlight]
  by_cases hnil : h.created = []
  · have hzero : h.sender.nextSeqno = 0 := by
      rw [hk.next, hnil]
      rfl
    rw [if_pos hzero, if_pos hnil]
  · have hpos := hk.next_pos hnil
    rw [if_neg (by omega), if_neg hnil]
    cases hsyn : h.sender.isSynReceived with
    | false => rw [if_pos (hk.inFlight_eq hsyn), if_pos rfl]
    | true =>
      have hlt := hk.inFlight_lt hsyn
      rw [if_neg (by omega), if_neg (show ¬ true = false by decide)]
      cases hends : endsInFin h.created with
      | false =>
        -- no FIN: short of `bytes_written + 2`, whether or not the stream is at its end
        have hshort := hn.next_lt_of_not_fin hnil hends
        have hfin : h.sender.isFinReceived = false := by
          by_contra hcon
          rw [(hn.segmented.finFlag.mp (eq_true_of_ne_false hcon)).2] at hends
          exact absurd hends (by decide)
        rw [if_pos hshort, ite_self, hfin, if_neg Bool.false_ne_true, if_neg Bool.false_ne_true]
      | true =>
        have hall := hn.next_of_fin hends
        have hflag := hn.segmented.finFlag
        rw [hends, and_iff_left rfl, ← hn.segmented.inFlight_zero_iff hends] at hflag
        rw [hn.segmented.finDone hends, Bool.not_true, if_neg Bool.false_ne_true, if_neg (by omega), if_pos rfl]
        by_cases hzero : h.sender.bytedInFlight = 0
        · rw [if_neg (not_not.mpr hzero), if_pos (hflag.mpr hzero)]
        · rw [if_pos hzero, if_neg fun hfin => hzero (hflag.mp hfin)]

/-! ## Runs -/

/-- No write after the end of input, and no acknowledgment before a SYN was sent. -/
def ackedAfterSyn (h : SenderRun) : SenderCall → Prop
  | .write _ => h.sender.stream.isInputEnd = false
  | .ackReceived _ _ => ∃ seg ∈ h.created, seg.header.syn = true
  -- not a call of these runs: an empty segment is sent without a SYN
  | .sendEmptySegment => False
  | .endInput | .fillWindow | .tick _ | .pop => True

instance (h : SenderRun) : DecidablePred (ackedAfterSyn h)
  | .write _ => inferInstanceAs (Decidable (_ = false))
  | .ackReceived _ _ => inferInstanceAs (Decidable (∃ seg ∈ h.created, seg.header.syn = true))
  | .sendEmptySegment => isFalse id
  | .endInput | .fillWindow | .tick _ | .pop => isTrue trivial

/-- The numbering, and the window of one that the SYN goes out in. -/
structure Opening (h : SenderRun) : Prop where
  numbered : Numbered h
  narrow : h.created = [] → h.sender.windowSize = 1

theorem Start.opening {h : SenderRun} (hstart : Start h) : Opening h := by
  refine ⟨hstart.numbered, fun _ => ?_⟩
  obtain ⟨capacity, retxTimeout, fixedIsn, random, rfl⟩ := hstart
  rfl

/-- In a window of one the connection is opened with one segment. -/
theorem Opening.onePiece {h : SenderRun} {call : SenderCall} (ho : Opening h) (hok : ackedAfterSyn h call) :
    opensInOnePiece h call := by
  cases call with
  | write data => exact hok
  | fillWindow =>
    intro hsyn hempty
    have hnil : h.created = [] := by
      rw [← ho.numbered.segmented.all_queued hsyn, TCPSender.queued, hempty, List.map_nil]
    have hone := ho.narrow hnil
    have hmax : 1 ≤ MAX_PAYLOAD_SIZE := by decide
    rw [TCPSender.readable, hone]
    omega
  | endInput | ackReceived _ _ | tick _ | sendEmptySegment | pop => trivial

theorem Opening.step {h h' : SenderRun} {call : SenderCall} (ho : Opening h) (hok : ackedAfterSyn h call)
    (hs : h.step call = .ok h') : Opening h' := by
  refine ⟨ho.numbered.step (ho.onePiece hok) hs, ?_⟩
  cases call with
  | write data =>
    obtain rfl := Except.ok.inj hs
    exact ho.narrow
  | endInput =>
    obtain rfl := Except.ok.inj hs
    exact ho.narrow
  | fillWindow =>
    obtain ⟨s', hs', rfl⟩ := map_ok.mp hs
    intro hnil
    have hsame : s'.windowSize = h.sender.windowSize := by
      rcases ho.numbered.segmented.fillWindow_ok hs' with ⟨-, rfl⟩ | hf
      · rfl
      · rw [hf.result]
        rfl
    exact hsame.trans (ho.narrow (List.append_eq_nil_iff.mp hnil).1)
  | ackReceived ackno windowSize =>
    obtain rfl := Except.ok.inj hs
    intro hnil
    obtain ⟨seg, hseg, -⟩ := hok
    exact absurd hnil (List.ne_nil_of_mem hseg)
  | tick ms =>
    obtain rfl := Except.ok.inj hs
    intro hnil
    exact (h.sender.tick_ticked ms).window.trans (ho.narrow hnil)
  | sendEmptySegment => exact absurd hok id
  | pop =>
    obtain rfl := Except.ok.inj hs
    exact ho.narrow

/-- **The summary agrees with the flags**, in every state without stream error of every run that acknowledges
nothing before the SYN was sent and writes nothing after the end of input. -/
theorem summary_agrees_with_flags {h : SenderRun} (hr : Reach Start step ackedAfterSyn h)
    (herror : h.sender.stream.error = false) :
    (stateSummary h.sender = .closed ↔ h.created = []) ∧
    (stateSummary h.sender = .synSent ↔
      (∃ seg ∈ h.created, seg.header.syn = true) ∧ h.sender.isSynReceived = false) ∧
    (stateSummary h.sender = .finAcked ↔ h.sender.isFinReceived = true) ∧
    (stateSummary h.sender = .finSent ↔
      h.sender.isSynReceived = true ∧ (∃ seg ∈ h.created, seg.header.fin = true) ∧
      h.sender.isFinReceived = false) ∧
    (stateSummary h.sender = .synAcked ↔
      h.created ≠ [] ∧ h.sender.isSynReceived = true ∧ h.sender.isFinReceived = false ∧
      ¬ ∃ seg ∈ h.created, seg.header.fin = true) := by
  have hn : Numbered h := (Reach.invariant (P := Opening) (fun _ hstart => hstart.opening)
    (fun _ _ _ ho hok hs => ho.step hok hs) hr).numbered
  have hsynSent : (∃ seg ∈ h.created, seg.header.syn = true) ↔ h.created ≠ [] := by
    refine ⟨fun ⟨seg, hseg, _⟩ => List.ne_nil_of_mem hseg, fun hne => ?_⟩
    obtain ⟨seg, rest, hcons⟩ := List.exists_cons_of_ne_nil hne
    exact ⟨seg, by rw [hcons]; exact List.mem_cons_self, hn.segmented.first seg rest hcons⟩
  -- what is acknowledged was sent: the SYN, and before the FIN the SYN
  have hsyn : h.sender.isSynReceived = true → h.created ≠ [] := fun hsyn hnil => by
    have hlt := hn.segmented.syn.mp hsyn
    rw [hnil] at hlt
    exact absurd hlt (Nat.not_lt_zero _)
  have hfin : h.sender.isFinReceived = true → h.sender.isSynReceived = true := fun hfin => by
    obtain ⟨hq, hends⟩ := hn.segmented.finFlag.mp hfin
    rw [hn.segmented.syn, hq]
    refine List.length_pos_of_ne_nil fun hnil => ?_
    rw [hnil] at hends
    exact absurd hends (by simp [endsInFin])
  rw [hn.stateSummary_eq herror, hsynSent, hn.segmented.exists_fin_iff]
  by_cases hnil : h.created = []
  · have hsyn' : h.sender.isSynReceived = false := eq_false_of_ne_true fun hcon => hsyn hcon hnil
    have hfin' : h.sender.isFinReceived = false := eq_false_of_ne_true fun hcon => by
      rw [hfin hcon] at hsyn'
      exact absurd hsyn' (by decide)
    simp [hnil, hsyn', hfin']
  · cases hs : h.sender.isSynReceived <;> cases hf : h.sender.isFinReceived <;>
      cases hends : endsInFin h.created <;> simp_all

/-- A byte goes out with the SYN, is acknowledged with it, and the FIN is on its way. -/
theorem summary_agrees_with_flags_closing : ∃ h : SenderRun, Reach Start step ackedAfterSyn h ∧
    stateSummary h.sender = .finSent ∧ h.sender.isSynReceived = true ∧ h.sender.isFinReceived = false := by
  obtain ⟨h, hr, htest⟩ : ∃ h, Reach Start step ackedAfterSyn h ∧
      (decide (h.sender.stream.error = false) && decide (stateSummary h.sender = .finSent)) = true :=
    Reach.exec_any _ (s := { sender := TCPSender.new 8 1000 (some ⟨7⟩) ⟨0⟩ })
      (l := [.write [5], .fillWindow, .endInput, .ackReceived ⟨9⟩ 4, .fillWindow])
      (.start ⟨8, 1000, some ⟨7⟩, ⟨0⟩, rfl⟩) (by decide +kernel)
  rw [Bool.and_eq_true, decide_eq_true_eq, decide_eq_true_eq] at htest
  obtain ⟨hsyn, -, hfin⟩ := (summary_agrees_with_flags hr htest.1).2.2.2.1.mp htest.2
  exact ⟨h, hr, htest.2, hsyn, hfin⟩

end SenderRun

end Sponge
