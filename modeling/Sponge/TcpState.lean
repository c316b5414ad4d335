/-
# `Sponge.TcpState` — the official state of a connection.

Models what `Sponge.SenderSummary` leaves of `tcp_helpers/tcp_state.{hh,cc}`: the receiver's summary, `TCPState`
with its twelve official names, and `TCPConnection::state`.  The connection keeps no state of this kind.  The state
is put together, each time it is asked for, from the counters of the sender, the stream of the receiver and the two
flags of the connection, and nothing in the code says that it is a state machine.

It is one, for a connection that gets no write after the end of its input and no acknowledgment before its SYN:

* no call takes a connection back: each of the four parts only moves on (`state_moves_on`);
* a connection is over exactly if its state is CLOSED or RESET (`over_iff_closed_or_reset`);
* what one end says of its sender fits what the other end says of its receiver (`Network.halves_agree`).

Not every state has a name.  An acknowledgment of the SYN may arrive without the peer's own SYN, and a FIN that the
owner has not read up to leaves `_linger_after_streams_finish` set where CLOSE_WAIT has it cleared.
-/
import Sponge.ConnectionSilence
import Sponge.Network
import Sponge.SenderSummary

namespace Sponge

open Sponge.Lib
open SenderRun (Wired Numbered)

/-! ## The source functions -/

/-- `TCPReceiverStateSummary`. -/
inductive TCPReceiverStateSummary where
  | error
  | listen
  | synRecv
  | finRecv
  deriving DecidableEq, Repr

namespace TCPReceiverStateSummary

/-- The text by which the summaries are compared. -/
def text : TCPReceiverStateSummary → String
  | error => "error (connection was reset)"
  | listen => "waiting for SYN: ackno is empty"
  | synRecv => "SYN received (ackno exists), and input to stream hasn't ended"
  | finRecv => "input to stream has ended"

/-- Summaries with the same text are the same. -/
theorem text_inj : ∀ {a b : TCPReceiverStateSummary}, a.text = b.text → a = b := by
  intro a b h
  cases a <;> cases b <;> first | rfl | exact absurd h (by decide)

end TCPReceiverStateSummary

/-- `TCPState`, with the summaries in place of their texts. -/
structure TCPState where
  sender : TCPSenderStateSummary
  receiver : TCPReceiverStateSummary
  active : Bool := true
  lingerAfterStreamsFinish : Bool := true
  deriving Repr
namespace TCPState

/-- `TCPState::State`. -/
inductive State where
  | listen
  | synRcvd
  | synSent
  | established
  | closeWait
  | lastAck
  | finWait1
  | finWait2
  | closing
  | timeWait
  | closed
  | reset
  deriving DecidableEq, Repr

/-- `TCPState::TCPState(state)`. -/
def ofState : State → TCPState
  | .listen => { receiver := .listen, sender := .closed }
  | .synRcvd => { receiver := .synRecv, sender := .synSent }
  | .synSent => { receiver := .listen, sender := .synSent }
  | .established => { receiver := .synRecv, sender := .synAcked }
  | .closeWait => { receiver := .finRecv, sender := .synAcked, lingerAfterStreamsFinish := false }
  | .lastAck => { receiver := .finRecv, sender := .finSent, lingerAfterStreamsFinish := false }
  | .closing => { receiver := .finRecv, sender := .finSent }
  | .finWait1 => { receiver := .synRecv, sender := .finSent }
  | .finWait2 => { receiver := .synRecv, sender := .finAcked }
  | .timeWait => { receiver := .finRecv, sender := .finAcked }
  | .reset => { receiver := .error, sender := .error, lingerAfterStreamsFinish := false, active := false }
  | .closed => { receiver := .finRecv, sender := .finAcked, lingerAfterStreamsFinish := false, active := false }

/-- `TCPState::state_summary` of a receiver. -/
def receiverSummary (receiver : TCPReceiver) : TCPReceiverStateSummary :=
  if receiver.streamOut.error then .error
  else if receiver.ackno.isNone then .listen
  else if receiver.streamOut.inputEnded then .finRecv
  else .synRecv

/-- `TCPState::TCPState(sender, receiver, active, linger)`. -/
def of (sender : TCPSender) (receiver : TCPReceiver) (active linger : Bool) : TCPState :=
  { sender := stateSummary sender
    receiver := receiverSummary receiver
    active := active
    lingerAfterStreamsFinish := if active then linger else false }

/-- `TCPState::name`. -/
def name (s : TCPState) : String :=
  "sender=`" ++ s.sender.text ++ "`, receiver=`" ++ s.receiver.text ++ "`, active=" ++ toString s.active.toNat
    ++ ", linger_after_streams_finish=" ++ toString s.lingerAfterStreamsFinish.toNat

/-- `TCPState::operator==`. -/
def operatorEq (s other : TCPState) : Bool :=
  s.active == other.active && s.lingerAfterStreamsFinish == other.lingerAfterStreamsFinish
    && s.sender.text == other.sender.text && s.receiver.text == other.receiver.text

/-- No two summaries are taken for each other. -/
theorem operatorEq_iff {s other : TCPState} : s.operatorEq other = true ↔ s = other := by
  constructor
  · intro h
    simp only [operatorEq, Bool.and_eq_true, beq_iff_eq] at h
    obtain ⟨⟨⟨hactive, hlinger⟩, hsender⟩, hreceiver⟩ := h
    obtain ⟨sender, receiver, active, linger⟩ := s
    obtain rfl := TCPSenderStateSummary.text_inj hsender
    obtain rfl := TCPReceiverStateSummary.text_inj hreceiver
    obtain rfl : active = other.active := hactive
    obtain rfl : linger = other.lingerAfterStreamsFinish := hlinger
    rfl
  · rintro rfl
    simp [operatorEq]

instance : DecidableEq TCPState := fun s other =>
  decidable_of_iff (s.operatorEq other = true) operatorEq_iff

end TCPState

/-- `TCPConnection::state`. -/
def TCPConnection.state (c : TCPConnection) : TCPState :=
  TCPState.of c.sender c.receiver c.active c.lingerAfterStreamsFinish

/-! ## The parts of a state in order -/

/-- How far a sender has come. -/
def TCPSenderStateSummary.rank : TCPSenderStateSummary → Nat
  | closed => 0
  | synSent => 1
  | synAcked => 2
  | finSent => 3
  | finAcked => 4
  | error => 5

/-- How far a receiver has come. -/
def TCPReceiverStateSummary.rank : TCPReceiverStateSummary → Nat
  | listen => 0
  | synRecv => 1
  | finRecv => 2
  | error => 3

/-- `t` is `s` or a later state: neither half has gone back, and neither flag has been set again. -/
structure TCPState.Precedes (s t : TCPState) : Prop where
  sender : s.sender.rank ≤ t.sender.rank
  receiver : s.receiver.rank ≤ t.receiver.rank
  active : t.active = true → s.active = true
  linger : t.lingerAfterStreamsFinish = true → s.lingerAfterStreamsFinish = true

theorem TCPState.Precedes.refl (s : TCPState) : Precedes s s := ⟨Nat.le_refl _, Nat.le_refl _, id, id⟩

theorem TCPState.Precedes.trans {s t u : TCPState} (h : Precedes s t) (h' : Precedes t u) : Precedes s u :=
  ⟨Nat.le_trans h.sender h'.sender, Nat.le_trans h.receiver h'.receiver, fun hu => h.active (h'.active hu),
    fun hu => h.linger (h'.linger hu)⟩

/-! ## The sender -/

section Sender

variable {s s' : TCPSender} {accepted accepted' : Bytes} {created created' : List TCPSegment}

/-- A sender as its peer sees it is one whose segments are numbered as they should be. -/
theorem SenderRun.Wired.numbered (h : Wired s accepted created) :
    Numbered { sender := s, accepted := accepted, created := created } := by
  refine ⟨h.toSegmented, ?_, h.lone, ?_⟩
  · show accepted.length = s.stream.bytesWirtten
    have hread := h.read
    have hbalance := h.wf.balance
    have hsplit := h.payload_length
    omega
  · intro seg hseg
    rcases h.out seg hseg with hmem | hblank
    · exact Or.inl hmem
    · refine Or.inr ?_
      rw [TCPSegment.lengthInSequenceSpace, hblank.1.syn, hblank.1.fin, hblank.1.payload]
      rfl

/-- `s'` is `s` some time later: more may have been created, and nothing acknowledged is forgotten. -/
structure Onward (s : TCPSender) (created : List TCPSegment) (s' : TCPSender) (created' : List TCPSegment) :
    Prop where
  creates : created <+: created'
  syn : s.isSynReceived = true → s'.isSynReceived = true
  fin : s.isFinReceived = true → s'.isFinReceived = true

/-- Behind a FIN nothing is created. -/
theorem Onward.ends (h : Onward s created s' created') (hw' : Wired s' accepted' created')
    (hends : TCPSender.endsInFin created = true) : TCPSender.endsInFin created' = true := by
  obtain ⟨more, rfl⟩ := h.creates
  by_cases hmore : more = []
  · rw [hmore, List.append_nil]
    exact hends
  · -- the FIN would not be on the last segment
    obtain ⟨seg, hseg, hfin⟩ := TCPSender.exists_fin_of_endsInFin hends
    have hfront : seg ∈ (created ++ more).dropLast := by
      rw [List.dropLast_append_of_ne_nil hmore]
      exact List.mem_append_left _ hseg
    rw [hw'.finLast seg hfront] at hfin
    exact absurd hfin (by decide)

/-- The summary of a sender by what has happened: whether anything was sent, whether the SYN is acknowledged,
whether a FIN was sent, and whether the FIN is acknowledged. -/
def TCPSenderStateSummary.after (sent synAcked finSent finAcked : Bool) : TCPSenderStateSummary :=
  if !sent then .closed
  else if !synAcked then .synSent
  else if finAcked then .finAcked
  else if finSent then .finSent
  else .synAcked

theorem TCPSenderStateSummary.after_mono : ∀ a b c d a' b' c' d' : Bool, a ≤ a' → b ≤ b' → c ≤ c' → d ≤ d' →
    (after a b c d).rank ≤ (after a' b' c' d').rank := by
  decide

theorem summary_eq (h : Wired s accepted created) (herror : s.stream.error = false) :
    TCPState.stateSummary s = .after (!created.isEmpty) s.isSynReceived (TCPSender.endsInFin created)
      s.isFinReceived := by
  refine (h.numbered.stateSummary_eq herror).trans ?_
  unfold TCPSenderStateSummary.after
  cases created with
  | nil => rfl
  | cons seg rest =>
    show (if s.isSynReceived = false then _ else _) = if (!s.isSynReceived) = true then _ else _
    cases s.isSynReceived <;> rfl

theorem summary_of_error (herror : s.stream.error = true) : TCPState.stateSummary s = .error := by
  rw [TCPState.stateSummary, herror, if_pos rfl]

/-- **The sender only moves on.** -/
theorem Onward.rank_le (h : Onward s created s' created') (hw : Wired s accepted created)
    (hw' : Wired s' accepted' created') (herror : s.stream.error = true → s'.stream.error = true) :
    (TCPState.stateSummary s).rank ≤ (TCPState.stateSummary s').rank := by
  cases he' : s'.stream.error with
  | true =>
    rw [summary_of_error he']
    cases TCPState.stateSummary s <;> decide
  | false =>
    have he : s.stream.error = false := by
      apply eq_false_of_ne_true
      intro he
      rw [herror he] at he'
      exact absurd he' (by decide)
    rw [summary_eq hw he, summary_eq hw' he']
    apply TCPSenderStateSummary.after_mono
    · -- what was sent stays sent
      intro hsent
      cases created' with
      | nil =>
        rw [List.prefix_nil.mp h.creates] at hsent
        exact hsent
      | cons seg rest => rfl
    · exact h.syn
    · exact h.ends hw'
    · exact h.fin

end Sender

/-! ## The receiver -/

/-- The summary of a receiver by what has happened: a reset, a SYN, and the end of the stream. -/
def TCPReceiverStateSummary.after (reset syn ended : Bool) : TCPReceiverStateSummary :=
  if reset then .error
  else if !syn then .listen
  else if ended then .finRecv
  else .synRecv

theorem TCPReceiverStateSummary.after_mono : ∀ a b c a' b' c' : Bool, a ≤ a' → b ≤ b' → (b = true → c ≤ c') →
    (after a b c).rank ≤ (after a' b' c').rank := by
  decide

theorem receiverSummary_eq (r : TCPReceiver) : TCPState.receiverSummary r =
    .after r.streamOut.error r.isn.isSome r.streamOut.inputEnded := by
  unfold TCPState.receiverSummary TCPReceiverStateSummary.after TCPReceiver.ackno
  cases r.isn with
  | none => rfl
  | some isn => rfl

/-- **The receiver only moves on.** -/
theorem TCPReceiver.Later.rank_le {r r' : TCPReceiver} (h : r.Later r')
    (herror : r.streamOut.error = true → r'.streamOut.error = true) :
    (TCPState.receiverSummary r).rank ≤ (TCPState.receiverSummary r').rank := by
  rw [receiverSummary_eq, receiverSummary_eq]
  apply TCPReceiverStateSummary.after_mono
  · exact herror
  · intro hisn
    rw [h.isn hisn]
    exact hisn
  · intro _
    exact h.ended

/-! ## The connection -/

/-- `fill_window` creates segments; it acknowledges nothing and resets nothing. -/
theorem SenderRun.Wired.fillWindow_onward {s s' : TCPSender} {accepted : Bytes} {created : List TCPSegment}
    (h : Wired s accepted created) (hs : s.fillWindow = .ok s') :
    ∃ created', Wired s' accepted created' ∧ Onward s created s' created' ∧ s'.stream.error = s.stream.error := by
  refine ⟨_, h.fillWindow hs, ?_⟩
  rcases h.toSegmented.fillWindow_ok hs with ⟨-, rfl⟩ | hf
  · exact ⟨⟨List.prefix_append _ _, id, id⟩, rfl⟩
  · rw [hf.result]
    exact ⟨⟨List.prefix_append _ _, id, id⟩, ByteStream.read_error _ _⟩

/-- Until the SYN is sent, `fill_window` has something to do. -/
theorem SenderRun.Wired.not_idle {s : TCPSender} {accepted : Bytes} (h : Wired s accepted []) : ¬ s.idle := by
  have hqueued : s.queued = [] := List.suffix_nil.mp h.queue
  have hqueue : s.segQueue = [] := List.map_eq_nil_iff.mp hqueued
  have hflight : s.bytedInFlight = 0 := by
    rw [h.inFlight, hqueued]
    rfl
  have hsyn : s.isSynReceived = false := by
    apply eq_false_of_ne_true
    intro hsyn
    exact Nat.not_lt_zero _ (h.syn.mp hsyn)
  rintro (hfull | ⟨-, hne⟩ | ⟨hacked, -⟩ | ⟨-, -, hfin⟩)
  · rw [h.unopened rfl, hflight] at hfull
    exact absurd hfull (by decide)
  · exact hne hqueue
  · rw [hsyn] at hacked
    exact absurd hacked (by decide)
  · rw [TCPSender.finQueued_eq, hqueued] at hfin
    exact absurd hfin (by decide)

/-- The SYN goes out with the first `fill_window`. -/
theorem SenderRun.Wired.fillWindow_opens {s s' : TCPSender} {accepted : Bytes} {created : List TCPSegment}
    (h : Wired s accepted created) (hs : s.fillWindow = .ok s') : 0 < s'.nextSeqno := by
  apply (h.fillWindow hs).next_pos
  intro hnil
  obtain ⟨rfl, hnew⟩ := List.append_eq_nil_iff.mp hnil
  rcases h.toSegmented.fillWindow_ok hs with ⟨-, rfl⟩ | hf
  · obtain ⟨t, ht, ⟨hidle, -⟩ | ⟨segs, hf⟩⟩ := h.toKept.fillWindow
    · exact h.not_idle hidle
    · obtain rfl := Except.ok.inj (ht.symm.trans hs)
      have hgrown : t.segmentsOut = t.segmentsOut ++ segs := congrArg TCPSender.segmentsOut hf.result
      exact hf.batch.ne_nil (List.self_eq_append_right.mp hgrown)
  · rw [hnew] at hf
    exact hf.batch.ne_nil rfl

namespace TCPConnection

/-- No write after the end of the input, and no acknowledgment before the SYN. -/
def orderly (c : TCPConnection) : Call → Prop
  | .write _ => c.sender.stream.inputEnded = false
  | .segmentReceived seg => seg.header.ack = true → 0 < c.sender.nextSeqno
  | .connect | .endInputStream | .tick _ | .readInbound _ | .pop => True

instance (c : TCPConnection) : DecidablePred (orderly c)
  | .write _ => inferInstanceAs (Decidable (_ = false))
  | .segmentReceived _ => inferInstanceAs (Decidable (_ = true → _ < _))
  | .connect | .endInputStream | .tick _ | .readInbound _ | .pop => isTrue trivial

/-- What the parts of a connection have to do with each other. -/
structure Coherent (c : TCPConnection) (accepted : Bytes) (created : List TCPSegment) : Prop where
  wired : Wired c.sender accepted created
  senderError : c.sender.stream.error = c.isRst
  receiverError : c.receiver.streamOut.error = c.isRst
  heard : c.receiver.streamOut.inputEnded = true → c.receiver.isn.isSome = true
  /-- A SYN is answered by a SYN. -/
  answered : c.receiver.isn.isSome = true → 0 < c.sender.nextSeqno
  lingers : c.lingerAfterStreamsFinish = false → c.receiver.streamOut.inputEnded = true

/-- `c'` is `c` some time later. -/
structure MovedOn (c : TCPConnection) (created : List TCPSegment) (c' : TCPConnection)
    (created' : List TCPSegment) : Prop where
  onward : Onward c.sender created c'.sender created'
  later : c.receiver.Later c'.receiver
  rst : c.isRst = true → c'.isRst = true
  linger : c'.lingerAfterStreamsFinish = true → c.lingerAfterStreamsFinish = true

variable {c c' : TCPConnection} {accepted accepted' : Bytes} {created created' : List TCPSegment} {call : Call}

theorem Coherent.new (cfg : TCPConfig) (random : WrappingInt32) : Coherent (new cfg random) [] [] :=
  ⟨Wired.new _ _ _ _, rfl, rfl, fun h => absurd h Bool.false_ne_true, fun h => absurd h Bool.false_ne_true,
    fun h => absurd h.symm Bool.false_ne_true⟩

/-- The SYN is out exactly if something was created. -/
theorem Coherent.created_ne (h : Coherent c accepted created) : 0 < c.sender.nextSeqno ↔ created ≠ [] := by
  constructor
  · intro hpos hnil
    rw [h.wired.next, hnil] at hpos
    exact absurd hpos (Nat.lt_irrefl 0)
  · exact h.wired.next_pos

/-- The stream that `fill_window` finds in the owner's calls. -/
theorem Coherent.refilled (h : Coherent c accepted created) (hok : orderly c call) {stream : ByteStream}
    (href : c.refill call = some stream) :
    ∃ accepted', Wired { c.sender with stream := stream } accepted' created ∧
      stream.error = c.sender.stream.error := by
  cases call with
  | connect =>
    obtain rfl := Option.some.inj href
    exact ⟨accepted, h.wired, rfl⟩
  | write data =>
    obtain rfl := Option.some.inj href
    exact ⟨_, h.wired.write hok data, ByteStream.write_error _ _⟩
  | endInputStream =>
    obtain rfl := Option.some.inj href
    exact ⟨accepted, h.wired.endInput, rfl⟩
  | segmentReceived _ | tick _ | readInbound _ | pop => exact absurd href (by simp [refill])

/-- A call that is all `fill_window`. -/
theorem Coherent.filled (h : Coherent c accepted created) (hok : orderly c call) {stream : ByteStream}
    (href : c.refill call = some stream) {s' : TCPSender}
    (hf : ({ c.sender with stream := stream }).fillWindow = .ok s') :
    ∃ accepted' created', Coherent { c with sender := s' }.sendAckIfNeed accepted' created' ∧
      MovedOn c created { c with sender := s' }.sendAckIfNeed created' := by
  obtain ⟨accepted', hw, herror⟩ := h.refilled hok href
  obtain ⟨created', hw', honward, herror'⟩ := hw.fillWindow_onward hf
  have hopens := hw.fillWindow_opens hf
  refine ⟨accepted', created', ⟨hw'.drained, ?_, h.receiverError, h.heard, fun _ => hopens, h.lingers⟩,
    ⟨honward.creates, honward.syn, honward.fin⟩, TCPReceiver.Later.refl _, id, id⟩
  show s'.stream.error = c.isRst
  rw [herror', herror, h.senderError]

theorem Coherent.setRst (h : Coherent c accepted created) (time : Nat) :
    Coherent { c with lastReceivedTime := time }.setRst accepted created ∧
      MovedOn c created { c with lastReceivedTime := time }.setRst created :=
  ⟨⟨h.wired.setError, rfl, rfl, h.heard, h.answered, h.lingers⟩,
    ⟨List.prefix_rfl, id, id⟩, ⟨Nat.le_refl _, id, fun _ => rfl⟩, fun _ => rfl, id⟩

/-- The sender when it has been told what a segment acknowledges. -/
theorem Coherent.acked (h : Coherent c accepted created) {seg : TCPSegment}
    (hok : orderly c (.segmentReceived seg)) :
    Wired (c.acked seg) accepted created ∧ Onward c.sender created (c.acked seg) created ∧
      (c.acked seg).stream.error = c.isRst := by
  refine ⟨(acked_wired h.wired fun hack => h.created_ne.mp (hok hack)).1, ?_⟩
  obtain ⟨j, hp⟩ := c.acked_popped seg
  refine ⟨⟨List.prefix_rfl, ?_, ?_⟩, ?_⟩
  · intro hsyn
    rw [hp.syn, hsyn, Bool.true_or]
  · intro hfin
    rw [hp.fin, hfin, Bool.true_or]
  · rw [hp.stream, h.senderError]

/-- What the sender queues in answer. -/
theorem answers_onward {s s' : TCPSender} {seg : TCPSegment} (h : Wired s accepted created)
    (ha : Answers s seg s') :
    ∃ created', Wired s' accepted created' ∧ Onward s created s' created' ∧ s'.stream.error = s.stream.error := by
  apply ha.keeps (P := fun t => ∃ created', Wired t accepted created' ∧ Onward s created t created' ∧
    t.stream.error = s.stream.error)
  · exact ⟨created, h, ⟨List.prefix_rfl, id, id⟩, rfl⟩
  · intro t ht
    exact h.fillWindow_onward ht
  · rintro t ⟨created', hw, honward, herror⟩
    exact ⟨created', hw.sendEmptySegment, ⟨honward.creates, honward.syn, honward.fin⟩, herror⟩

/-- A SYN lets the sender fill the window. -/
theorem answer_syn {seg : TCPSegment} (hsyn : seg.header.syn = true) (h : c.answer seg = .ok c') :
    ∃ t, c.sender.fillWindow = .ok t ∧ c'.sender.nextSeqno = t.nextSeqno := by
  have hka : c.keepAlive seg = false := by
    unfold keepAlive
    split
    · have hlen : seg.lengthInSequenceSpace ≠ 0 := by
        rw [TCPSegment.lengthInSequenceSpace, if_pos hsyn]
        omega
      rw [decide_eq_false hlen, Bool.false_and]
    · rfl
  rw [answer, hka, if_neg (by decide), hsyn, Bool.or_true, if_pos rfl] at h
  obtain ⟨t, ht, rfl⟩ := map_ok.mp h
  refine ⟨t, ht, ?_⟩
  show (if _ then _ else _ : TCPSender).nextSeqno = t.nextSeqno
  split <;> rfl

/-- The end of the stream is found behind the SYN only. -/
theorem segmentReceived_heard {r r' : TCPReceiver} {seg : TCPSegment}
    (h : r.streamOut.inputEnded = true → r.isn.isSome = true) (hs : r.segmentReceived seg = .ok r') :
    (r'.streamOut.inputEnded = true → r'.isn.isSome = true) ∧
      (r'.isn.isSome = true → r.isn.isSome = true ∨ seg.header.syn = true) ∧
      r'.streamOut.error = r.streamOut.error := by
  have herror : r'.streamOut.error = r.streamOut.error :=
    (TCPReceiver.segmentReceived_keeps (P := fun o => o.error = r.streamOut.error)
      (fun o data ho => (ByteStream.write_error o data).trans ho) (fun _ ho => ho) rfl hs).2
  refine ⟨?_, ?_, herror⟩
  · rcases TCPReceiver.segmentReceived_ok hs with rfl | ⟨index, top, re, -, rfl⟩
    · exact h
    · intro _
      rfl
  · intro hsome
    rw [TCPReceiver.segmentReceived_eq] at hs
    split at hs
    · obtain rfl := Except.ok.inj hs
      exact Or.inl hsome
    · rename_i hdrop
      cases hisn : r.isn with
      | some isn => exact Or.inl rfl
      | none =>
        refine Or.inr ?_
        by_contra hsyn
        exact hdrop ⟨hisn, eq_false_of_ne_true hsyn⟩

/-- The flags when both halves have seen a segment. -/
theorem noted_linger (c : TCPConnection) (s : TCPSender) (r : TCPReceiver) :
    ((c.noted s r).lingerAfterStreamsFinish = true → c.lingerAfterStreamsFinish = true) ∧
    ((c.noted s r).lingerAfterStreamsFinish = false →
      c.lingerAfterStreamsFinish = false ∨ r.streamOut.eof = true) := by
  have heq : (c.noted s r).lingerAfterStreamsFinish =
      if s.isSynReceived && r.streamOut.eof && !(c.noted s r).sendFinFirst then false
      else c.lingerAfterStreamsFinish := rfl
  rw [heq]
  split
  · rename_i hdone
    simp only [Bool.and_eq_true] at hdone
    exact ⟨fun h => absurd h Bool.false_ne_true, fun _ => Or.inr hdone.1.2⟩
  · exact ⟨id, Or.inl⟩

/-- **A segment that arrives.** -/
theorem Coherent.segmentReceived (h : Coherent c accepted created) {seg : TCPSegment}
    (hok : orderly c (.segmentReceived seg)) (hs : c.segmentReceived seg = .ok c') :
    ∃ created', Coherent c' accepted created' ∧ MovedOn c created c' created' := by
  rcases c.segmentReceived_cases seg with ⟨-, heq⟩ | ⟨-, -, heq⟩ | ⟨-, -, -, heq⟩
  · obtain rfl := Except.ok.inj (heq.symm.trans hs)
    exact ⟨created, h.setRst 0⟩
  · obtain rfl := Except.ok.inj (heq.symm.trans hs)
    exact ⟨created, ⟨h.wired, h.senderError, h.receiverError, h.heard, h.answered, h.lingers⟩,
      ⟨List.prefix_rfl, id, id⟩, TCPReceiver.Later.refl _, id, id⟩
  · obtain ⟨r, hr, hans⟩ := bind_ok.mp (heq.symm.trans hs)
    obtain ⟨hw, honward, herror⟩ := h.acked hok
    generalize c.acked seg = s₁ at hans hw honward herror
    have hlater := TCPReceiver.Later.segmentReceived hr
    obtain ⟨hheard, hnew, hkept⟩ := segmentReceived_heard h.heard hr
    obtain ⟨hlinger, hcleared⟩ := c.noted_linger s₁ r
    have hsyn := fun (hfirst : seg.header.syn = true) => answer_syn hfirst hans
    obtain ⟨s', ha, rfl⟩ := answer_ok hans
    obtain ⟨created', hw', honward', herror'⟩ := answers_onward hw ha
    refine ⟨created', ⟨hw'.drained, ?_, hkept.trans h.receiverError, hheard, ?_, ?_⟩,
      ⟨honward.creates.trans honward'.creates, fun hs => honward'.syn (honward.syn hs),
        fun hs => honward'.fin (honward.fin hs)⟩, hlater, id, hlinger⟩
    · exact herror'.trans herror
    · -- the SYN is answered with the window filled; what follows it finds the SYN sent
      intro hsome
      rcases hnew hsome with hold | hfirst
      · apply hw'.next_pos
        intro hnil
        apply h.created_ne.mp (h.answered hold)
        exact List.prefix_nil.mp (hnil ▸ honward.creates.trans honward'.creates)
      · obtain ⟨t, ht, hnext⟩ := hsyn hfirst
        rw [hnext]
        exact hw.fillWindow_opens ht
    · intro hfalse
      rcases hcleared hfalse with hold | heof
      · exact hlater.ended (h.lingers hold)
      · exact ByteStream.inputEnded_of_eof heof

theorem Coherent.tick (h : Coherent c accepted created) (ms : Nat) :
    Coherent (c.tick ms) accepted created ∧ MovedOn c created (c.tick ms) created := by
  have hlinger := c.tick_linger ms
  unfold TCPConnection.tick at hlinger ⊢
  split at hlinger
  · rename_i hgiveUp
    rw [if_pos hgiveUp]
    exact ⟨⟨h.wired.drained.setError, rfl, rfl, h.heard, h.answered, h.lingers⟩,
      ⟨List.prefix_rfl, id, id⟩, ⟨Nat.le_refl _, id, fun _ => rfl⟩, fun _ => rfl, id⟩
  · rename_i hgoOn
    rw [if_neg hgoOn]
    have ht := c.sender.tick_ticked ms
    refine ⟨⟨(h.wired.ticked ht).drained, ?_, h.receiverError, h.heard, ?_, ?_⟩,
      ⟨List.prefix_rfl, ?_, ?_⟩, TCPReceiver.Later.refl _, id, hlinger.1⟩
    · show (c.sender.tick ms).stream.error = c.isRst
      rw [ht.stream, h.senderError]
    · show _ → 0 < (c.sender.tick ms).nextSeqno
      rw [ht.nextSeqno]
      exact h.answered
    · intro hfalse
      rcases hlinger.2 hfalse with hold | ⟨-, heof, -⟩
      · exact h.lingers hold
      · exact ByteStream.inputEnded_of_eof heof
    · intro hsyn
      exact ht.syn.trans hsyn
    · intro hfin
      exact ht.fin.trans hfin

/-- **One call.** -/
theorem Coherent.step (h : Coherent c accepted created) (hok : orderly c call) (hs : c.step call = .ok c') :
    ∃ accepted' created', Coherent c' accepted' created' ∧ MovedOn c created c' created' := by
  rcases step_cases hs with ⟨stream, s', href, hf, rfl⟩ | ⟨seg, rfl, hs⟩ | ⟨ms, rfl, rfl⟩ | ⟨len, rfl, rfl⟩ |
    ⟨rfl, rfl⟩
  · exact h.filled hok href hf
  · exact ⟨accepted, h.segmentReceived hok hs⟩
  · exact ⟨accepted, created, h.tick ms⟩
  · have hended : (c.readInbound len).receiver.streamOut.inputEnded = c.receiver.streamOut.inputEnded :=
      ByteStream.read_isInputEnd _ _
    refine ⟨accepted, created, ⟨h.wired, h.senderError, ?_, ?_, h.answered, ?_⟩, ⟨List.prefix_rfl, id, id⟩,
      c.readInbound_later len, id, id⟩
    · exact (ByteStream.read_error _ _).trans h.receiverError
    · rw [hended]
      exact h.heard
    · rw [hended]
      exact h.lingers
  · exact ⟨accepted, created, ⟨h.wired, h.senderError, h.receiverError, h.heard, h.answered, h.lingers⟩,
      ⟨List.prefix_rfl, id, id⟩, TCPReceiver.Later.refl _, id, id⟩

theorem coherent_of_reach (hr : Reach Start step orderly c) : ∃ accepted created, Coherent c accepted created := by
  refine Reach.invariant (P := fun c : TCPConnection => ∃ accepted created, Coherent c accepted created) ?_ ?_ hr
  · rintro c ⟨cfg, random, rfl⟩
    exact ⟨[], [], Coherent.new cfg random⟩
  · rintro c call c' ⟨accepted, created, h⟩ hok hs
    obtain ⟨accepted', created', h', -⟩ := h.step hok hs
    exact ⟨accepted', created', h'⟩

/-! ## The state only moves on -/

theorem MovedOn.precedes (hm : MovedOn c created c' created') (h : Coherent c accepted created)
    (h' : Coherent c' accepted' created') (hover : c.active = false → c'.active = false) :
    c.state.Precedes c'.state := by
  have hactive : c'.active = true → c.active = true := by
    intro hact
    by_contra hno
    rw [hover (eq_false_of_ne_true hno)] at hact
    exact absurd hact (by decide)
  refine ⟨hm.onward.rank_le h.wired h'.wired ?_, hm.later.rank_le ?_, hactive, ?_⟩
  · rw [h.senderError, h'.senderError]
    exact hm.rst
  · rw [h.receiverError, h'.receiverError]
    exact hm.rst
  · show (if c'.active then c'.lingerAfterStreamsFinish else false) = true →
      (if c.active then c.lingerAfterStreamsFinish else false) = true
    cases hact : c'.active with
    | false => exact fun hno => absurd hno Bool.false_ne_true
    | true =>
      rw [hactive hact]
      exact hm.linger

/-- **No call takes a connection back.**  From every state of every run, whatever calls follow, each half of the
official state is where it was or further on, and neither flag is set again. -/
theorem state_moves_on (hr : Reach Start step orderly c) (hafter : Reach (fun c₀ => c₀ = c) step orderly c') :
    c.state.Precedes c'.state := by
  have hinv : (∃ accepted created, Coherent c' accepted created) ∧ c.state.Precedes c'.state := by
    refine Reach.invariant (P := fun c' : TCPConnection =>
      (∃ accepted created, Coherent c' accepted created) ∧ c.state.Precedes c'.state) ?_ ?_ hafter
    · rintro c₀ rfl
      exact ⟨coherent_of_reach hr, .refl _⟩
    · rintro c₁ call c₂ ⟨⟨accepted, created, h₁⟩, hprec⟩ hok hs
      obtain ⟨accepted', created', h₂, hmoved⟩ := h₁.step hok hs
      refine ⟨⟨accepted', created', h₂⟩, hprec.trans (hmoved.precedes h₁ h₂ fun hover => ?_)⟩
      exact inactive_step ⟨_, h₁.wired.toKept⟩ hover hs
  exact hinv.2

/-- From the SYN that was sent to the FIN of the peer, with the own FIN on its way. -/
theorem state_moves_on_closing : ∃ c c' : TCPConnection, Reach Start step orderly c ∧
    Reach (fun c₀ => c₀ = c) step orderly c' ∧ c.state = TCPState.ofState .synSent ∧
    c'.state = TCPState.ofState .lastAck ∧ c.state.Precedes c'.state := by
  obtain ⟨c, hr, htest⟩ : ∃ c, Reach Start step orderly c ∧ (decide (c.state = TCPState.ofState .synSent)
      && (exec step orderly c [
          .segmentReceived { header :=
            { seqno := ⟨100⟩, ackno := ⟨1⟩, syn := true, ack := true, win := 100 } },
          .segmentReceived { header := { seqno := ⟨101⟩, ackno := ⟨1⟩, fin := true, ack := true, win := 100 } },
          .endInputStream]).any fun c' => decide (c'.state = TCPState.ofState .lastAck)) = true :=
    Reach.exec_any _ (s := new { recvCapacity := 8, sendCapacity := 8 } ⟨0⟩) (l := [.connect])
      (.start ⟨_, _, rfl⟩) (by decide +kernel)
  rw [Bool.and_eq_true, decide_eq_true_eq] at htest
  obtain ⟨c', hafter, hlast⟩ : ∃ c', Reach (fun c₀ => c₀ = c) step orderly c' ∧
      decide (c'.state = TCPState.ofState .lastAck) = true := Reach.exec_any _ (.start rfl) htest.2
  exact ⟨c, c', hr, hafter, htest.1, of_decide_eq_true hlast, state_moves_on hr hafter⟩

/-- **A connection is over exactly if it is closed or reset**, by its own account of its state. -/
theorem over_iff_closed_or_reset (hr : Reach Start step orderly c) :
    c.active = false ↔ c.state = TCPState.ofState .closed ∨ c.state = TCPState.ofState .reset := by
  obtain ⟨accepted, created, h⟩ := coherent_of_reach hr
  constructor
  · intro hover
    have hstate : c.state = ⟨TCPState.stateSummary c.sender, TCPState.receiverSummary c.receiver, false, false⟩ := by
      rw [state, TCPState.of, hover]
      rfl
    rw [hstate]
    by_cases hrst : c.isRst = true
    · refine Or.inr ?_
      rw [summary_of_error (h.senderError.trans hrst), receiverSummary_eq, h.receiverError, hrst]
      rfl
    · refine Or.inl ?_
      have hno : c.isRst = false := eq_false_of_ne_true hrst
      obtain ⟨hfin, heof, -⟩ := (ClosingRun.active_eq_false hno).mp hover
      -- the FIN is acknowledged, so it was sent, and the SYN before it
      obtain ⟨hq, hends⟩ := h.wired.finFlag.mp hfin
      have hne : created ≠ [] := by
        intro hnil
        rw [hnil] at hends
        exact absurd hends (by decide)
      have hsyn : c.sender.isSynReceived = true := by
        rw [h.wired.syn, hq]
        exact List.length_pos_of_ne_nil hne
      have hended : c.receiver.streamOut.inputEnded = true := ByteStream.inputEnded_of_eof heof
      rw [summary_eq h.wired (h.senderError.trans hno), receiverSummary_eq, h.receiverError, hno, hsyn, hfin,
        h.heard hended, hended, List.isEmpty_eq_false_iff.mpr hne]
      rfl
  · rintro (heq | heq)
    · exact congrArg TCPState.active heq
    · exact congrArg TCPState.active heq

/-- The peer has closed first, and the last acknowledgment has come. -/
theorem over_iff_closed_or_reset_passive : ∃ c : TCPConnection, Reach Start step orderly c ∧ c.active = false ∧
    c.isRst = false ∧ (c.state = TCPState.ofState .closed ∨ c.state = TCPState.ofState .reset) := by
  obtain ⟨c, hr, htest⟩ : ∃ c, Reach Start step orderly c ∧ (!c.active && !c.isRst) = true :=
    Reach.exec_any _ (s := new { recvCapacity := 8, sendCapacity := 8 } ⟨0⟩)
      (l := [.connect,
        .segmentReceived { header :=
          { seqno := ⟨100⟩, ackno := ⟨1⟩, syn := true, ack := true, win := 100 } },
        .segmentReceived { header := { seqno := ⟨101⟩, ackno := ⟨1⟩, fin := true, ack := true, win := 100 } },
        .endInputStream,
        .segmentReceived { header := { seqno := ⟨102⟩, ackno := ⟨2⟩, ack := true, win := 100 } }])
      (.start ⟨_, _, rfl⟩) (by decide +kernel)
  rw [Bool.and_eq_true, Bool.not_eq_true', Bool.not_eq_true'] at htest
  exact ⟨c, hr, htest.1, htest.2, (over_iff_closed_or_reset hr).mp htest.1⟩

end TCPConnection

/-! ## The two ends of a stream -/

/-- What the sender of a stream and its receiver can tell of it at the same time. -/
def TCPState.compatible : TCPSenderStateSummary → TCPReceiverStateSummary → Bool
  | .error, _ | _, .error => true
  | .closed, receiver => receiver = .listen
  | .synSent, _ => true
  | .synAcked, receiver => receiver = .synRecv
  | .finSent, receiver => receiver ≠ .listen
  | .finAcked, receiver => receiver = .finRecv

theorem TCPState.compatible_after : ∀ sent synAcked finSent finAcked syn ended : Bool,
    (syn = true → sent = true) → (synAcked = true → syn = true) → (ended = true → finSent = true) →
    (finAcked = true → ended = true) → (ended = true → syn = true) →
    compatible (.after sent synAcked finSent finAcked) (.after false syn ended) = true := by
  decide

variable {a b : Endpoint} {created : List TCPSegment}

/-- What the peer has of the stream was sent. -/
theorem Carries.syn_sent (h : Carries a created b) (hisn : b.conn.receiver.isn.isSome = true) : created ≠ [] := by
  rcases h.listens with hun | hheard
  · rw [hun.isn] at hisn
    exact absurd hisn (by decide)
  · exact hheard.sent

theorem Carries.fin_sent (h : Carries a created b) (hend : b.conn.receiver.streamOut.inputEnded = true) :
    b.conn.receiver.isn.isSome = true ∧ TCPSender.endsInFin created = true := by
  rcases h.listens with hun | hheard
  · have hopen : b.conn.receiver.streamOut.inputEnded = false := hun.received.2.2
    rw [hopen] at hend
    exact absurd hend (by decide)
  · refine ⟨by rw [hheard.isn]; rfl, ?_⟩
    have hfin := hheard.honest.ended hend
    unfold finIndex at hfin
    by_contra hno
    rw [if_neg hno] at hfin
    exact absurd hfin (by simp)

/-- With the SYN acknowledged, the peer has it. -/
theorem Carries.syn_received (h : Carries a created b) (hsyn : a.conn.sender.isSynReceived = true) :
    b.conn.receiver.isn.isSome = true := by
  have hlt := h.speaks.wired.toKept.inFlight_lt hsyn
  have hreached := h.reached
  unfold SenderRun.unacked TCPReceiver.acknowledged at hreached
  by_contra hno
  rw [if_neg hno] at hreached
  omega

/-- With the FIN acknowledged, the peer has everything. -/
theorem Carries.fin_received (h : Carries a created b) (hfin : a.conn.sender.isFinReceived = true) :
    b.conn.receiver.streamOut.inputEnded = true := by
  obtain ⟨hq, hends⟩ := h.speaks.wired.finFlag.mp hfin
  have hall : a.conn.sender.nextSeqno = a.conn.sender.stream.bytesWritten + 2 :=
    h.speaks.wired.numbered.next_of_fin hends
  have hlen : a.accepted.length = a.conn.sender.stream.bytesWritten := h.speaks.wired.numbered.written
  have hnone : a.conn.sender.bytedInFlight = 0 := by
    rw [h.speaks.wired.inFlight, hq]
    rfl
  have hreached := h.reached
  unfold SenderRun.unacked TCPReceiver.acknowledged at hreached
  rcases h.listens with hun | hheard
  · rw [hun.isn] at hreached
    have hzero : a.conn.sender.nextSeqno - a.conn.sender.bytedInFlight ≤ 0 := hreached
    omega
  · have hle := hheard.written.2
    by_contra hno
    rw [if_pos (by rw [hheard.isn]; rfl), if_neg hno] at hreached
    omega

/-- **The two ends of a stream agree.**  In every state of every run, what the sender's half of one connection says
of its stream and what the receiver's half of the other says of it are compatible: nothing is received before it is
sent, and nothing is acknowledged before it is received, the SYN and the FIN included. -/
theorem Network.halves_agree {w : Network}
    (hr : Reach Start step (fun w call => w.allowed call ∧ w.freshSyn call) w) (hshort : w.Short) (x : Side) :
    TCPState.compatible (w.endpoint x).conn.state.sender (w.endpoint x.peer).conn.state.receiver = true := by
  obtain ⟨created, h⟩ := inv_of_reach hr hshort x
  show TCPState.compatible (TCPState.stateSummary (w.endpoint x).conn.sender)
    (TCPState.receiverSummary (w.endpoint x.peer).conn.receiver) = true
  cases herror : (w.endpoint x).conn.sender.stream.error with
  | true =>
    rw [summary_of_error herror]
    rfl
  | false =>
    rw [summary_eq h.speaks.wired herror, receiverSummary_eq]
    cases herror' : (w.endpoint x.peer).conn.receiver.streamOut.error with
    | true =>
      show TCPState.compatible _ .error = true
      generalize TCPSenderStateSummary.after _ _ _ _ = summary
      cases summary <;> rfl
    | false =>
      apply TCPState.compatible_after
      · intro hisn
        rw [List.isEmpty_eq_false_iff.mpr (h.syn_sent hisn)]
        rfl
      · exact h.syn_received
      · exact fun hend => (h.fin_sent hend).2
      · exact h.fin_received
      · exact fun hend => (h.fin_sent hend).1

/-- A handshake, two bytes and the FIN, of which the sender has no acknowledgment yet. -/
theorem Network.halves_agree_fin : ∃ w : Network,
    Reach Start step (fun w call => w.allowed call ∧ w.freshSyn call) w ∧ w.Short ∧
    w.a.conn.state.sender = .finSent ∧ w.b.conn.state.receiver = .finRecv ∧
    TCPState.compatible w.a.conn.state.sender w.b.conn.state.receiver = true := by
  obtain ⟨w, hr, htest⟩ : ∃ w, Reach Start step (fun w call => w.allowed call ∧ w.freshSyn call) w ∧
      (decide w.Short && decide (w.a.conn.state.sender = .finSent)
        && decide (w.b.conn.state.receiver = .finRecv)) = true :=
    Reach.exec_any _ (s := small)
      (l := [(.A, .connect), (.B, .segmentReceived (opening [97, 98]).1),
        (.A, .segmentReceived (opening [97, 98]).2.1), (.A, .write [97, 98]),
        (.B, .segmentReceived (opening [97, 98]).2.2), (.A, .endInputStream),
        (.B, .segmentReceived { header :=
          { seqno := ⟨10⟩, ackno := ⟨0⟩, ack := true, fin := true, win := 8 } })])
      (.start ⟨_, _, _, _, rfl⟩) (by decide +kernel)
  simp only [Bool.and_eq_true, decide_eq_true_eq] at htest
  obtain ⟨⟨hshort, hfin⟩, hrecv⟩ := htest
  exact ⟨w, hr, hshort, hfin, hrecv, halves_agree hr hshort .A⟩

end Sponge
