/-
# `Sponge.Recovery` — whatever has been lost, the stream can still be delivered.

Safety says that nothing wrong arrives.  It does not say that anything arrives: a retransmission timer that never
fires, an acknowledgment that is not sent, a FIN that nobody asks for, and two connections wait for each other for
good.  Here is the other half for channels that keep the order.  From every state of every run the network can deliver
the whole stream with nothing but the clock of the sender and reads at the receiver (`delivers_everything`): the owner
of the sender need not call again, and whatever was on its way may be lost first.

One round of it is an exchange.  The timer of the oldest segment in flight runs out and it is sent again
(`tick_resends`), the receiver takes it and answers (`deliver_front`), and the answer acknowledges it (`deliver_ack`).
A FIN may need a second attempt, since the reassembler drops the end mark when the bytes before it are still in the
way.  Each round acknowledges one more segment, so the position that is not acknowledged yet is the measure, and
`Prompt` says that with nothing in flight nothing is left to send.
-/
import Sponge.Promptness
import Sponge.NetworkRuns
import Sponge.ConnectionAck
import Sponge.ZeroWindow

namespace Sponge

open Sponge.Lib
open SenderRun (Wired Kept unacked departed)
open TCPConfig (MAX_RETX_ATTEMPTS MAX_PAYLOAD_SIZE)

variable {s : TCPSender} {accepted : Bytes} {created : List TCPSegment} {front : TCPSegment}
  {rest : List TCPSegment}

/-! ## The oldest segment in flight -/

/-- Where the oldest segment in flight ends. -/
def TCPSender.firstEnd (s : TCPSender) : Nat := unacked s + space (s.queued.take 1)

theorem SenderRun.Kept.front_eq (h : Kept s created) (hq : s.queued = front :: rest) :
    created[departed s created]? = some front ∧
    s.firstEnd = TCPSender.space (created.take (departed s created + 1)) := by
  have hfront : created[departed s created]? = some front := by
    rw [← Nat.add_zero (departed s created), ← h.queued_getElem?, hq]
    rfl
  refine ⟨hfront, ?_⟩
  have hsucc : TCPSender.space (created.take (departed s created + 1)) = _ := span_take_succ hfront
  rw [TCPSender.firstEnd, h.unacked_eq, hsucc, hq]
  rfl

theorem SenderRun.Wired.space_take_le (h : Wired s accepted created) (n : Nat) :
    TCPSender.space (created.take n) ≤ s.nextSeqno := by
  rw [h.next]
  rcases Nat.le_total n created.length with hn | hn
  · have hmono : TCPSender.space (created.take n) ≤ TCPSender.space (created.take created.length) :=
      span_take_mono _ hn
    rwa [List.take_length] at hmono
  · rw [List.take_of_length_le hn]

theorem SenderRun.Wired.firstEnd_bounds (h : Wired s accepted created) (hq : s.queued = front :: rest) :
    unacked s < s.firstEnd ∧ s.firstEnd ≤ s.nextSeqno := by
  obtain ⟨hfront, hfirst⟩ := h.toKept.front_eq hq
  have hpos := h.occupied front (List.mem_of_getElem? hfront)
  have hsucc : TCPSender.space (created.take (departed s created + 1)) = _ := span_take_succ hfront
  constructor
  · rw [hfirst, hsucc, h.toKept.unacked_eq]
    exact Nat.lt_add_of_pos_right hpos
  · rw [hfirst]
    exact h.space_take_le _

/-- What the sender queues is no reset. -/
theorem SenderRun.Wired.out_rst (h : Wired s accepted created) {g : TCPSegment} (hg : g ∈ s.segmentsOut) :
    g.header.rst = false := by
  rcases h.out g hg with hmem | ⟨hblank, -⟩
  · exact (h.plain g hmem).1
  · exact hblank.rst

/-- An acknowledgment of the oldest segment is taken, and the count starts again. -/
theorem SenderRun.Wired.front_acknowledged (h : Wired s accepted created) (h64 : s.nextSeqno < 2 ^ 64)
    (hq : s.queued = front :: rest) (ackno : WrappingInt32) (windowSize : UInt16) {v : Nat}
    (hv : unwrap ackno s.isn s.nextSeqno = v) (hle : v ≤ s.nextSeqno) (hend : s.firstEnd ≤ v) :
    s.firstEnd ≤ unacked (s.ackReceived ackno windowSize) ∧
      (s.ackReceived ackno windowSize).consecutiveRetrans = 0 := by
  have hk := h.toKept
  obtain ⟨hfront, hfirst⟩ := hk.front_eq hq
  have hlt := (List.getElem?_eq_some_iff.mp hfront).1
  have hsome : created ≠ [] := List.ne_nil_of_mem (List.mem_of_getElem? hfront)
  constructor
  · obtain ⟨-, hremoved⟩ := hk.ackReceived_removes h64 ackno windowSize (by rw [hv]; exact hle)
    have hdep := (hremoved _ (Nat.le_refl _) hlt).mpr (by rw [← hfirst, hv]; exact hend)
    have hk' := (h.ackReceived hsome ackno windowSize).toKept
    generalize s.ackReceived ackno windowSize = s' at hdep hk' ⊢
    rw [hk'.unacked_eq, hfirst]
    exact span_take_mono _ hdep
  · rw [(TCPSender.ackReceived_accepted windowSize hv hle).2]
    have hcovered : s.covered v = true := by
      rw [TCPSender.covered, hq, List.head?_cons, Option.any_some,
        hk.endOf_eq h64 (Nat.le_refl _) hfront, ← hfirst]
      exact decide_eq_true hend
    rw [hcovered, if_pos rfl]

namespace TCPConnection

variable {c c' : TCPConnection} {seg : TCPSegment}

/-- **The timer of the oldest segment runs out**, and the segment is sent again. -/
theorem tick_resends (hretx : c.sender.consecutiveRetransmissions < MAX_RETX_ATTEMPTS)
    (hdrained : c.sender.segmentsOut = []) (hq : c.sender.queued = front :: rest) :
    ∃ ms, (c.tick ms).segmentsOut = c.segmentsOut ++ [c.stampAck front] ∧
      (c.tick ms).receiver = c.receiver ∧ (c.tick ms).isRst = c.isRst ∧
      (c.tick ms).sender.consecutiveRetrans = c.sender.consecutiveRetrans + 1 ∧
      TCPSender.Ticked c.sender { (c.tick ms).sender with segmentsOut := (c.sender.tick ms).segmentsOut } := by
  cases hqueue : c.sender.segQueue with
  | nil =>
    rw [TCPSender.queued, hqueue] at hq
    exact absurd hq (by simp)
  | cons first others =>
    refine ⟨first.time + first.rto, ?_⟩
    have hdue : c.sender.timedOut (first.time + first.rto) = true := by
      rw [TCPSender.timedOut, hqueue]
      exact decide_eq_true (Nat.le_add_left _ _)
    obtain ⟨hcount, -, hout⟩ := c.sender.tick_timedOut (first.time + first.rto)
    have hticked := c.sender.tick_ticked (first.time + first.rto)
    rw [hdue, if_pos rfl] at hcount hout
    rw [hdrained, hq] at hout
    rw [tick, if_neg (Nat.not_le.mpr hretx)]
    generalize c.sender.tick (first.time + first.rto) = s' at hcount hout hticked ⊢
    refine ⟨?_, rfl, rfl, hcount, hticked⟩
    show c.segmentsOut ++ s'.segmentsOut.map _ = _
    rw [hout]
    rfl

/-- A connection one of whose streams has not ended takes every segment. -/
theorem attentive (hrst : c.isRst = false) (hopen : (c.sender.isFinReceived && c.receiver.streamOut.eof) = false)
    (seg : TCPSegment) : c.active = true ∧ c.ignored seg = false := by
  rw [active, ignored, hrst, hopen]
  exact ⟨rfl, rfl⟩

/-- The exit that notes the segment and answers it. -/
theorem segmentReceived_noted (hact : c.active = true) (hign : c.ignored seg = false) (hrst : seg.header.rst = false)
    (hs : c.segmentReceived seg = .ok c') :
    ∃ r s', c.receiver.segmentReceived seg = .ok r ∧ Answers (c.acked seg) seg s' ∧
      c' = { c.noted (c.acked seg) r with sender := s' }.sendAckIfNeed := by
  rcases c.segmentReceived_cases seg with ⟨hno, -⟩ | ⟨-, hno | hno, -⟩ | ⟨-, -, -, heq⟩
  · exact absurd (hrst.symm.trans hno) (by decide)
  · exact absurd (hact.symm.trans hno) (by decide)
  · exact absurd (hign.symm.trans hno) (by decide)
  · obtain ⟨r, hr, hans⟩ := bind_ok.mp (heq.symm.trans hs)
    obtain ⟨s', ha, heq'⟩ := answer_ok hans
    exact ⟨r, s', hr, ha, heq'⟩

theorem stampAck_rst (c : TCPConnection) (seg : TCPSegment) : (c.stampAck seg).header.rst = seg.header.rst := by
  unfold stampAck
  cases c.receiver.ackno <;> rfl

theorem stampAck_of_receiver (h : c'.receiver = c.receiver) (seg : TCPSegment) :
    c'.stampAck seg = c.stampAck seg := by
  unfold stampAck
  rw [h]

/-- The count is not touched by the answer. -/
theorem Answers.consecutiveRetrans {s s' : TCPSender} (ha : Answers s seg s') (hw : Wired s accepted created) :
    s'.consecutiveRetrans = s.consecutiveRetrans := by
  refine ha.keeps (P := fun t => t.consecutiveRetrans = s.consecutiveRetrans) rfl ?_ fun _ ht => ht
  intro t ht
  rcases hw.toSegmented.fillWindow_ok ht with ⟨-, rfl⟩ | hf
  · rfl
  · rw [hf.result]
    rfl

/-- No call changes the capacity of the reassembler. -/
theorem step_capacity {call : Call} (hs : c.step call = .ok c') :
    c'.receiver.reassembler.capacity = c.receiver.reassembler.capacity := by
  rcases step_cases hs with ⟨stream, s, -, -, rfl⟩ | ⟨seg, -, hs⟩ | ⟨ms, -, rfl⟩ | ⟨len, -, rfl⟩ | ⟨-, rfl⟩
  · rfl
  · rcases c.segmentReceived_cases seg with ⟨-, heq⟩ | ⟨-, -, heq⟩ | ⟨-, -, -, heq⟩
    · obtain rfl := Except.ok.inj (heq.symm.trans hs)
      rfl
    · obtain rfl := Except.ok.inj (heq.symm.trans hs)
      rfl
    · obtain ⟨r, hr, hans⟩ := bind_ok.mp (heq.symm.trans hs)
      obtain ⟨s', -, rfl⟩ := answer_ok hans
      exact (TCPReceiver.segmentReceived_keeps (P := fun _ => True) (fun _ _ h => h) (fun _ h => h) trivial hr).1
  · rw [tick]
    split
    · rfl
    · rfl
  · rfl
  · rfl

end TCPConnection

/-! ## Moves -/

namespace FifoNetwork

/-- What the network looks like from `x`: the two endpoints, what is on its way from `x` and what is on its way to
it. -/
structure Shows (w : FifoNetwork) (x : Side) (a b : Endpoint) (out back : List TCPSegment) : Prop where
  near : w.net.endpoint x = a
  far : w.net.endpoint x.peer = b
  out : w.channel x = out
  back : w.channel x.peer = back

/-- Time passes for `x`, and its peer reads.  No owner does anything else. -/
def unattended (x : Side) (_ : FifoNetwork) : Call → Prop
  | .own z (.tick _) => z = x
  | .own z (.readInbound _) => z = x.peer
  | .own _ _ => False
  | .deliver _ => True
  | .lose _ => True

theorem unattended_ok {x : Side} {w : FifoNetwork} {call : Call} (h : unattended x w call) :
    w.allowed call ∧ w.prudent call := by
  cases call with
  | own z own => cases own <;> first | exact ⟨trivial, trivial⟩ | exact h.elim
  | deliver z => exact ⟨trivial, trivial⟩
  | lose z => exact ⟨trivial, trivial⟩

variable {w w' : FifoNetwork} {x z : Side} {a b : Endpoint} {out back : List TCPSegment} {seg : TCPSegment}

theorem Shows.symm (h : Shows w x a b out back) : Shows w x.peer b a back out := by
  refine ⟨h.far, ?_, h.back, ?_⟩
  · rw [Side.peer_peer]
    exact h.near
  · rw [Side.peer_peer]
    exact h.out

theorem Shows.own (h : Shows w x a b out back) (hwithin : w.gone x ≤ a.conn.segmentsOut.length)
    {own : TCPConnection.Call} {e : Endpoint} (he : a.step own = .ok e) {new : List TCPSegment}
    (hnew : e.conn.segmentsOut = a.conn.segmentsOut ++ new) :
    ∃ w', w.step (.own x own) = .ok w' ∧ Shows w' x e b (out ++ new) back := by
  obtain ⟨rfl, rfl, rfl, rfl⟩ := h
  refine ⟨{ w with net := w.net.update x e }, map_ok.mpr ⟨_, map_ok.mpr ⟨e, he, rfl⟩, rfl⟩, ?_, ?_, ?_, ?_⟩
  · exact Network.endpoint_update _ _ _
  · exact Network.endpoint_update_peer _ _ _
  · rw [channel, gone_withNet, Network.endpoint_update, hnew, List.drop_append_of_le_length hwithin, channel]
  · rw [channel, gone_withNet, Network.endpoint_update_peer, channel]

theorem Shows.deliver (h : Shows w x a b (seg :: out) back) (hwithin : w.gone x.peer ≤ b.conn.segmentsOut.length)
    {c : TCPConnection} (hc : b.conn.segmentReceived seg = .ok c) {new : List TCPSegment}
    (hnew : c.segmentsOut = b.conn.segmentsOut ++ new) :
    ∃ w', w.step (.deliver x) = .ok w' ∧ Shows w' x a { b with conn := c } out (back ++ new) := by
  obtain ⟨rfl, rfl, hout, rfl⟩ := h
  refine ⟨{ w.leave x with net := w.net.update x.peer { w.net.endpoint x.peer with conn := c } }, ?_, ?_, ?_, ?_, ?_⟩
  · rw [step, hout]
    exact map_ok.mpr ⟨_, map_ok.mpr ⟨_, map_ok.mpr ⟨c, hc, rfl⟩, rfl⟩, rfl⟩
  · have hsame := w.net.endpoint_update_peer x.peer { w.net.endpoint x.peer with conn := c }
    rwa [Side.peer_peer] at hsame
  · exact Network.endpoint_update _ _ _
  · have hsame := w.net.endpoint_update_peer x.peer { w.net.endpoint x.peer with conn := c }
    rw [Side.peer_peer] at hsame
    rw [channel, gone_withNet, gone_leave, hsame, ← List.tail_drop, ← channel, hout, List.tail_cons]
  · rw [channel, gone_withNet, gone_leave_peer, Network.endpoint_update, hnew,
      List.drop_append_of_le_length hwithin, channel]

theorem Shows.lose (h : Shows w x a b (seg :: out) back) :
    ∃ w', w.step (.lose x) = .ok w' ∧ Shows w' x a b out back := by
  obtain ⟨rfl, rfl, hout, rfl⟩ := h
  refine ⟨w.leave x, ?_, ?_, ?_, ?_, ?_⟩
  · rw [step, hout]
  · rw [leave_net]
  · rw [leave_net]
  · rw [channel, leave_net, gone_leave, ← List.tail_drop, ← channel, hout, List.tail_cons]
  · rw [channel, leave_net, gone_leave_peer, channel]

/-- All that is on its way from `x` is lost. -/
theorem Shows.drain (h : Shows w x a b out back) : ∃ w', Leads step (unattended z) w w' ∧ Shows w' x a b [] back := by
  induction out generalizing w with
  | nil => exact ⟨w, .refl w, h⟩
  | cons seg out ih =>
    obtain ⟨w₁, hs, h₁⟩ := h.lose
    obtain ⟨w₂, hl, h₂⟩ := ih h₁
    exact ⟨w₂, (Leads.single trivial hs).trans hl, h₂⟩

/-- All that is on its way is lost. -/
theorem Shows.flush (h : Shows w x a b out back) : ∃ w', Leads step (unattended z) w w' ∧ Shows w' x a b [] [] := by
  obtain ⟨w₁, hl₁, h₁⟩ := h.drain (z := z)
  obtain ⟨w₂, hl₂, h₂⟩ := h₁.symm.drain (z := z)
  have h₂' := h₂.symm
  rw [Side.peer_peer] at h₂'
  exact ⟨w₂, hl₁.trans hl₂, h₂'⟩

/-! ## Runs in which the owners are prudent -/

/-- A state of such a run, with streams that are not too long. -/
structure Runs (w : FifoNetwork) : Prop where
  reach : Reach Start step (fun w call => w.allowed call ∧ w.prudent call) w
  short : w.net.Short

theorem Runs.carries (h : Runs w) (x : Side) :
    ∃ created, Carries (w.net.endpoint x) created (w.net.endpoint x.peer) :=
  carries_of_reach (h.reach.mono fun _ _ hok => hok.1) h.short x

/-- What an unattended run does not change of an endpoint. -/
structure Untouched (e e' : Endpoint) : Prop where
  accepted : e'.accepted = e.accepted
  ended : e'.conn.sender.stream.inputEnded = e.conn.sender.stream.inputEnded
  capacity : e'.conn.receiver.reassembler.capacity = e.conn.receiver.reassembler.capacity

theorem Untouched.step {e e' : Endpoint} {call : TCPConnection.Call} (ht : TCPConnection.Tracked e.conn.sender)
    (hwrite : ∀ data, call ≠ .write data) (hend : call ≠ .endInputStream) (hs : e.step call = .ok e') :
    Untouched e e' := by
  have hconn := Endpoint.step_conn hs
  exact ⟨Endpoint.step_accepted hs hwrite, TCPConnection.step_inputEnded ht hconn hend,
    TCPConnection.step_capacity hconn⟩

theorem Untouched.refl (e : Endpoint) : Untouched e e := ⟨rfl, rfl, rfl⟩

theorem Untouched.trans {e e' e'' : Endpoint} (h : Untouched e e') (h' : Untouched e' e'') : Untouched e e'' :=
  ⟨h'.accepted.trans h.accepted, h'.ended.trans h.ended, h'.capacity.trans h.capacity⟩

theorem Untouched.update {net : Network} {e : Endpoint} (h : Untouched (net.endpoint x) e) (z : Side) :
    Untouched (net.endpoint z) ((net.update x e).endpoint z) := by
  rcases x.eq_or_peer z with rfl | rfl
  · rw [Network.endpoint_update]
    exact h
  · rw [Network.endpoint_update_peer]
    exact .refl _

theorem Runs.untouched (h : Runs w) {call : Call} (hok : unattended x w call) (hs : w.step call = .ok w') (z : Side) :
    Untouched (w.net.endpoint z) (w'.net.endpoint z) := by
  have htracked : ∀ y, TCPConnection.Tracked (w.net.endpoint y).conn.sender := by
    intro y
    obtain ⟨created, hy⟩ := h.carries y
    exact ⟨created, hy.speaks.wired.toKept⟩
  rcases step_cases hs with rfl | ⟨y, rfl⟩ | ⟨y, own, e, rfl, he, rfl⟩ | ⟨y, seg, rest, e, -, he, rfl⟩
  · exact .refl _
  · rw [leave_net]
    exact .refl _
  · refine Untouched.update (.step (htracked y) ?_ ?_ he) z
    · rintro data rfl
      exact hok
    · rintro rfl
      exact hok
  · exact Untouched.update (.step (htracked y.peer) (by simp) (by simp) he) z

/-- **An unattended run** goes on from a state of a run, and leaves what the owners have done. -/
theorem Runs.leads (h : Runs w) (hl : Leads step (unattended x) w w') :
    Runs w' ∧ ∀ z, Untouched (w.net.endpoint z) (w'.net.endpoint z) := by
  induction hl with
  | start heq =>
    subst heq
    exact ⟨h, fun z => .refl _⟩
  | step _ hok hs ih =>
    obtain ⟨hruns, hsame⟩ := ih
    have hsame' := hruns.untouched hok hs
    refine ⟨⟨hruns.reach.step (unattended_ok hok) hs, fun z => ?_⟩, fun z => (hsame z).trans (hsame' z)⟩
    rw [(hsame' z).accepted]
    exact hruns.short z

/-! ## One exchange -/

/-- `ans` acknowledges to the sender `s` what the receiver `r` has reached. -/
structure Acknowledges (ans : TCPSegment) (s : TCPSender) (r : TCPReceiver) : Prop where
  rst : ans.header.rst = false
  ack : ans.header.ack = true
  ackno : ans.header.ackno = wrap r.acknowledged s.isn

/-- What an endpoint with a known ISN sends acknowledges what its receiver has reached. -/
theorem Acknowledges.stampAck {c : TCPConnection} {g : TCPSegment} (hrst : g.header.rst = false)
    (hisn : c.receiver.isn = some s.isn) : Acknowledges (c.stampAck g) s c.receiver := by
  obtain ⟨hack, hackno⟩ := TCPConnection.stampAck_ackno (c := c) (by rw [hisn]; rfl) g
  rw [(TCPReceiver.ackno_acknowledged hisn).1] at hackno
  exact ⟨(c.stampAck_rst g).trans hrst, hack, Option.some.inj hackno⟩

/-- A receiver that acknowledges something has heard of this sender. -/
theorem Runs.known (h : Runs w) (hpos : 1 ≤ (w.net.endpoint x.peer).conn.receiver.acknowledged) :
    (w.net.endpoint x.peer).conn.receiver.isn = some (w.net.endpoint x).conn.sender.isn := by
  obtain ⟨created, hx⟩ := h.carries x
  rcases hx.listens with hun | hheard
  · rw [TCPReceiver.acknowledged, hun.isn] at hpos
    exact absurd hpos (by simp)
  · exact hheard.isn

/-- **A segment arrives** at a connection that is not over.  It is noted, and what the sender answers leaves. -/
theorem Runs.deliver (h : Runs w) (hshow : Shows w x a b (seg :: out) back) (hplain : seg.header.rst = false)
    (hrst : b.conn.isRst = false)
    (hopen : (b.conn.sender.isFinReceived && b.conn.receiver.streamOut.eof) = false) :
    ∃ w' c r s', w.step (.deliver x) = .ok w' ∧
      Shows w' x a { b with conn := c } out (back ++ s'.segmentsOut.map c.stampAck) ∧
      b.conn.receiver.segmentReceived seg = .ok r ∧ TCPConnection.Answers (b.conn.acked seg) seg s' ∧
      c.isRst = false ∧ c.receiver = r ∧ c.sender = { s' with segmentsOut := [] } := by
  have hshow' := hshow
  obtain ⟨rfl, rfl, hout, -⟩ := hshow
  obtain ⟨_, hy⟩ := ready_of_reach h.reach h.short x.peer
  obtain ⟨hact, hign⟩ := TCPConnection.attentive hrst hopen seg
  obtain ⟨c, hc⟩ := delivery_returns (h.reach.mono fun _ _ hok => hok.1) h.short hout
  obtain ⟨r, s', hr, ha, hc'⟩ := TCPConnection.segmentReceived_noted hact hign hplain hc
  generalize (w.net.endpoint x.peer).conn.acked seg = s₁ at hc' ha ⊢
  have hnew : c.segmentsOut = (w.net.endpoint x.peer).conn.segmentsOut ++ s'.segmentsOut.map c.stampAck := by
    rw [hc']
    rfl
  obtain ⟨w', hs, hafter⟩ := hshow'.deliver hy.within hc hnew
  refine ⟨w', c, r, s', hs, hafter, hr, ha, ?_⟩
  rw [hc']
  exact ⟨hrst, rfl, rfl⟩

/-- **The oldest segment in flight arrives**, and the receiver, which has room for it, answers.  The answer
acknowledges the segment, or the FIN is missing and nothing is in the way of a second attempt. -/
theorem Runs.deliver_front (h : Runs w) (hshow : Shows w x a b [a.conn.stampAck front] [])
    (hq : a.conn.sender.queued = front :: rest) (hrst : b.conn.isRst = false) (hwaits : b.conn.receiver.Waits) :
    ∃ w' b' ans more, w.step (.deliver x) = .ok w' ∧ Shows w' x a b' [] (ans :: more) ∧ b'.conn.isRst = false ∧
      Acknowledges ans a.conn.sender b'.conn.receiver ∧
      (a.conn.sender.firstEnd ≤ b'.conn.receiver.acknowledged ∨ b'.conn.receiver.reassembler.Clear) ∧
      (b.conn.receiver.reassembler.Clear → a.conn.sender.firstEnd ≤ b'.conn.receiver.acknowledged) := by
  have hshow' := hshow
  obtain ⟨rfl, rfl, hout, -⟩ := hshow
  obtain ⟨created, hx⟩ := ready_of_reach h.reach h.short x
  obtain ⟨created', hy⟩ := ready_of_reach h.reach h.short x.peer
  obtain ⟨_, hcarries⟩ := h.carries x
  have hw := hx.orderly.speaks.wired
  obtain ⟨hfront, hfirst⟩ := hw.toKept.front_eq hq
  have hcopy := Copies.stampAck (w.net.endpoint x).conn front
  have hplain : ((w.net.endpoint x).conn.stampAck front).header.rst = false :=
    (TCPConnection.stampAck_rst _ _).trans (hw.plain front (List.mem_of_getElem? hfront)).1
  have hlen : 0 < ((w.net.endpoint x).conn.stampAck front).lengthInSequenceSpace := by
    rw [hcopy.length]
    exact hw.occupied front (List.mem_of_getElem? hfront)
  -- the receiver is active, since its stream has not ended
  have heof : ((w.net.endpoint x.peer).conn.sender.isFinReceived
      && (w.net.endpoint x.peer).conn.receiver.streamOut.eof) = false := by
    have hopen : (w.net.endpoint x.peer).conn.receiver.streamOut.isInputEnd = false := hwaits.goesOn
    rw [ByteStream.eof, hopen, Bool.false_and, Bool.and_false]
  obtain ⟨w', c, r, s', hs, hafter, hr, ha, halive, rfl, -⟩ := h.deliver hshow' hplain hrst heof
  -- what it acknowledges
  obtain ⟨n, hreads, hears⟩ := hx.orderly.heard
  have hpart : created.take n <+: created := List.take_prefix n created
  have hears' := hears.mono hw hpart List.prefix_rfl
  have hreach : TCPSender.space (created.take (departed (w.net.endpoint x).conn.sender created))
      ≤ (w.net.endpoint x.peer).conn.receiver.acknowledged := by
    rw [← hw.toKept.unacked_eq]
    exact hcarries.reached
  obtain ⟨hpos, htaken, hclear⟩ := hears'.takes hw (h.short x) hx.opens.bare hwaits hfront hcopy hreach hr
  rw [← hfirst] at htaken hclear
  -- and what it sends
  have hrecv := hy.orderly
  rw [Side.peer_peer] at hrecv
  obtain ⟨hwy, houty⟩ := acked_wired hrecv.speaks.wired
    (hrecv.acknowledgment hx.orderly.speaks (mem_of_channel hout))
  obtain ⟨after, hw', -⟩ := answers_wired hwy (houty.trans hrecv.speaks.drained) ha
  have hsome : s'.segmentsOut ≠ [] := by
    rcases ha with ⟨hzero, -⟩ | ⟨t, -, -, hsome⟩
    · exact absurd hzero (Nat.pos_iff_ne_zero.mp hlen)
    · exact hsome hlen
  obtain ⟨g, gs, hgs⟩ := List.exists_cons_of_ne_nil hsome
  have hgrst : g.header.rst = false := hw'.out_rst (by rw [hgs]; exact List.mem_cons_self)
  rw [hgs] at hafter
  have hknown := (h.leads (x := x) (Leads.single (a := .deliver x) trivial hs)).1.known (x := x)
  rw [hafter.near, hafter.far] at hknown
  exact ⟨w', _, _, _, hs, hafter, halive, Acknowledges.stampAck hgrst (hknown hpos), htaken, hclear⟩

/-- What has been acknowledged has been sent. -/
theorem Ready.acknowledged_le (h : Ready w x created) :
    (w.net.endpoint x.peer).conn.receiver.acknowledged ≤ (w.net.endpoint x).conn.sender.nextSeqno := by
  have hw := h.orderly.speaks.wired
  obtain ⟨n, -, hun | hheard⟩ := h.orderly.heard
  · rw [TCPReceiver.acknowledged, hun.isn]
    exact Nat.zero_le _
  · have hpart : created.take n <+: created := List.take_prefix n created
    have hle := hheard.acknowledged_le_space (hw.earlier hpart)
    exact Nat.le_trans hle (hw.space_take_le n)

/-- **The answer arrives** and acknowledges the oldest segment in flight. -/
theorem Runs.deliver_ack {ans : TCPSegment} {more : List TCPSegment} (h : Runs w)
    (hshow : Shows w x a b out (ans :: more)) (hrst : a.conn.isRst = false)
    (hq : a.conn.sender.queued = front :: rest) (hans : Acknowledges ans a.conn.sender b.conn.receiver)
    (hend : a.conn.sender.firstEnd ≤ b.conn.receiver.acknowledged) :
    ∃ w' a' out', w.step (.deliver x.peer) = .ok w' ∧ Shows w' x a' b out' more ∧ a'.conn.isRst = false ∧
      unacked a.conn.sender < unacked a'.conn.sender ∧ a'.conn.sender.consecutiveRetrans = 0 := by
  have hshow' := hshow.symm
  obtain ⟨rfl, rfl, -, -⟩ := hshow
  obtain ⟨created, hx⟩ := ready_of_reach h.reach h.short x
  have hspeaks := hx.orderly.speaks
  have hw := hspeaks.wired
  have hsome : created ≠ [] := List.ne_nil_of_mem (List.mem_of_getElem? (hw.toKept.front_eq hq).1)
  -- the sender is active, since something is in flight
  have hfin : ((w.net.endpoint x).conn.sender.isFinReceived
      && (w.net.endpoint x).conn.receiver.streamOut.eof) = false := by
    have hnot : (w.net.endpoint x).conn.sender.isFinReceived = false := by
      by_contra hcon
      rw [(hw.finFlag.mp (eq_true_of_ne_false hcon)).1] at hq
      exact absurd hq (by simp)
    rw [hnot, Bool.false_and]
  obtain ⟨w', c, r, s', hs, hafter, -, ha, halive, -, hsender⟩ := h.deliver hshow' hans.rst hrst hfin
  have hafter' := hafter.symm
  rw [Side.peer_peer] at hafter'
  -- the acknowledgment is read as it was meant
  have hle := hx.acknowledged_le
  have hnext := hw.next_le
  have hshort := h.short x
  have hflight := hw.bounded
  have hunwrap : unwrap ans.header.ackno (w.net.endpoint x).conn.sender.isn (w.net.endpoint x).conn.sender.nextSeqno
      = (w.net.endpoint x.peer).conn.receiver.acknowledged := by
    unfold TCPSender.firstEnd unacked at hend
    rw [hans.ackno]
    exact unwrap_wrap _ (by omega) (by omega) (by omega) (by omega)
  obtain ⟨hmoved, hcount⟩ := hw.front_acknowledged (by omega) hq ans.header.ackno ans.header.win hunwrap hle hend
  have hacked : (w.net.endpoint x).conn.acked ans
      = (w.net.endpoint x).conn.sender.ackReceived ans.header.ackno ans.header.win := by
    rw [TCPConnection.acked, if_pos hans.ack]
  rw [← hacked] at hmoved hcount
  -- the answer to it leaves the position and the count
  obtain ⟨hwx, houtx⟩ := acked_wired hw fun _ => hsome
  obtain ⟨after, hw', -, hsteady, -⟩ := answers_wired hwx (houtx.trans hspeaks.drained) ha
  have hcount' := ha.consecutiveRetrans hwx
  refine ⟨w', _, _, hs, hafter', halive, ?_, ?_⟩
  · show _ < unacked c.sender
    rw [hsender]
    calc unacked (w.net.endpoint x).conn.sender
        < (w.net.endpoint x).conn.sender.firstEnd := (hw.firstEnd_bounds hq).1
      _ ≤ unacked ((w.net.endpoint x).conn.acked ans) := hmoved
      _ = unacked s' := hsteady.2.symm
  · show c.sender.consecutiveRetrans = 0
    rw [hsender]
    exact hcount'.trans hcount

/-- The inbound stream is in order, whatever has been heard. -/
theorem Runs.inbound_wf (h : Runs w) (x : Side) : (w.net.endpoint x.peer).conn.inboundStream.WF := by
  obtain ⟨created, hx⟩ := h.carries x
  rcases hx.listens with hun | hheard
  · obtain ⟨capacity, error, hre, -⟩ := hun.reassembler
    have hout : (w.net.endpoint x.peer).conn.inboundStream = { capacity := capacity, error := error } :=
      congrArg StreamReassembler.output hre
    rw [hout]
    have hnew := ByteStream.WF.new capacity
    exact ⟨hnew.valid, hnew.fits, hnew.balance⟩
  · exact hheard.honest.ordered.out

/-- No more waits to be read than a string can hold. -/
theorem Runs.inbound_short (h : Runs w) (x : Side) :
    (w.net.endpoint x.peer).conn.inboundStream.contents.length ≤ maxSize := by
  obtain ⟨created, hx⟩ := h.carries x
  have hpre : (w.net.endpoint x.peer).consumed ++ (w.net.endpoint x.peer).conn.inboundStream.contents
      <+: (w.net.endpoint x).accepted := hx.delivered
  have hlen := hpre.length_le
  have hshort := h.short x
  rw [List.length_append] at hlen
  rw [maxSize]
  omega

/-- The oldest segment in flight has been sent again and has arrived, and the answer `ans` is on its way. -/
structure Attempted (w : FifoNetwork) (x : Side) (a : Endpoint) (w' : FifoNetwork) (a' b' : Endpoint)
    (ans : TCPSegment) (more : List TCPSegment) : Prop where
  leads : Leads step (unattended x) w w'
  shows : Shows w' x a' b' [] (ans :: more)
  near : a'.conn.isRst = false
  far : b'.conn.isRst = false
  queued : a'.conn.sender.queued = a.conn.sender.queued
  position : unacked a'.conn.sender = unacked a.conn.sender
  answer : Acknowledges ans a'.conn.sender b'.conn.receiver

/-- An attempt after another. -/
theorem Attempted.trans {w'' : FifoNetwork} {a' b' a'' b'' : Endpoint} {ans ans' : TCPSegment}
    {more more' : List TCPSegment} (h : Attempted w x a w' a' b' ans more)
    (h' : Attempted w' x a' w'' a'' b'' ans' more') : Attempted w x a w'' a'' b'' ans' more' where
  leads := h.leads.trans h'.leads
  shows := h'.shows
  near := h'.near
  far := h'.far
  queued := h'.queued.trans h.queued
  position := h'.position.trans h.position
  answer := h'.answer

/-- **One attempt**: what is on its way is lost, the receiver reads, the timer of the oldest segment runs out, and the
segment arrives. -/
theorem Runs.attempt (h : Runs w) (hshow : Shows w x a b out back) (hrst : a.conn.isRst = false)
    (hrst' : b.conn.isRst = false) (hretx : a.conn.sender.consecutiveRetransmissions < MAX_RETX_ATTEMPTS)
    (hq : a.conn.sender.queued = front :: rest) (hopen : b.conn.inboundStream.inputEnded = false)
    (hroom : MAX_PAYLOAD_SIZE ≤ b.conn.receiver.reassembler.capacity) :
    ∃ w' a' b' ans more, Attempted w x a w' a' b' ans more ∧
      a'.conn.sender.consecutiveRetrans = a.conn.sender.consecutiveRetrans + 1 ∧
      (a'.conn.sender.firstEnd ≤ b'.conn.receiver.acknowledged ∨ b'.conn.receiver.reassembler.Clear) ∧
      (b.conn.receiver.reassembler.Clear → a'.conn.sender.firstEnd ≤ b'.conn.receiver.acknowledged) := by
  obtain ⟨w₁, hl₁, h₁⟩ := hshow.flush (z := x)
  have hruns₁ := (h.leads hl₁).1
  obtain ⟨_, hy₁⟩ := ready_of_reach hruns₁.reach hruns₁.short x.peer
  have hwf := hruns₁.inbound_wf x
  have hless := hruns₁.inbound_short x
  have hwithin₁ := hy₁.within
  rw [h₁.far] at hwf hless hwithin₁
  -- the receiver reads all there is
  have hread : b.step (.readInbound b.conn.inboundStream.contents.length) = .ok { b with
      conn := b.conn.readInbound b.conn.inboundStream.contents.length
      consumed := b.consumed ++ b.conn.inboundStream.removed b.conn.inboundStream.contents.length } := rfl
  obtain ⟨w₂, hs₂, h₂⟩ := h₁.symm.own hwithin₁ hread (List.append_nil _).symm
  have h₂' := h₂.symm
  rw [Side.peer_peer] at h₂'
  have hl₂ := hl₁.trans (Leads.single (a := .own x.peer (.readInbound _)) rfl hs₂)
  have hruns₂ := (h.leads hl₂).1
  obtain ⟨_, hx₂⟩ := ready_of_reach hruns₂.reach hruns₂.short x
  have hwithin₂ := hx₂.within
  have hdrained := hx₂.orderly.speaks.drained
  rw [h₂'.near] at hwithin₂ hdrained
  have hwaits : (b.conn.readInbound b.conn.inboundStream.contents.length).receiver.Waits := by
    refine ⟨?_, ?_, hroom⟩
    · exact (ByteStream.read_isInputEnd _ _).trans hopen
    · exact (hwf.read_contents hless).trans List.drop_length
  -- the timer runs out
  obtain ⟨ms, hout, hrec, hsame, hcount, hticked⟩ := TCPConnection.tick_resends hretx hdrained hq
  have htick : a.step (.tick ms) = .ok { a with conn := a.conn.tick ms } := rfl
  obtain ⟨w₃, hs₃, h₃⟩ := h₂'.own hwithin₂ htick hout
  have hl₃ := hl₂.trans (Leads.single (a := .own x (.tick ms)) rfl hs₃)
  have hruns₃ := (h.leads hl₃).1
  -- and the segment arrives
  have hsent : a.conn.stampAck front = (a.conn.tick ms).stampAck front :=
    (TCPConnection.stampAck_of_receiver hrec front).symm
  rw [List.nil_append, hsent] at h₃
  obtain ⟨w', b', ans, more, hs, hafter, halive, hans, htaken, hclear⟩ :=
    hruns₃.deliver_front (a := { a with conn := a.conn.tick ms }) h₃ (hticked.queue.trans hq) hrst' hwaits
  exact ⟨w', _, b', ans, more,
    { leads := hl₃.trans (Leads.single (a := .deliver x) trivial hs)
      shows := hafter
      near := hsame.trans hrst
      far := halive
      queued := hticked.queue
      position := (Steady.ticked hticked).2
      answer := hans }, hcount, htaken, hclear⟩

/-- Once the inbound stream has ended everything is acknowledged. -/
theorem Runs.ended_reached (h : Runs w) (hend : (w.net.endpoint x.peer).conn.inboundStream.inputEnded = true) :
    (w.net.endpoint x).conn.sender.nextSeqno ≤ (w.net.endpoint x.peer).conn.receiver.acknowledged := by
  obtain ⟨created, hx⟩ := h.carries x
  have hall := (hx.ended hend).2
  have hnext := hx.speaks.wired.next_le
  rcases hx.listens with hun | hheard
  · rw [hun.received.2.2] at hend
    exact absurd hend (by decide)
  · have hcount : (w.net.endpoint x.peer).received.length
        = (w.net.endpoint x.peer).conn.receiver.streamOut.bytesWritten := hheard.honest.written_length
    have hended : (w.net.endpoint x.peer).conn.receiver.streamOut.inputEnded = true := hend
    rw [TCPReceiver.acknowledged, if_pos (by rw [hheard.isn]; rfl), if_pos hended, ← hcount, hall]
    omega

/-- **The oldest segment in flight is taken** after at most two attempts. -/
theorem Runs.taken (h : Runs w) (hshow : Shows w x a b out back) (hrst : a.conn.isRst = false)
    (hrst' : b.conn.isRst = false) (hretx : a.conn.sender.consecutiveRetransmissions + 2 ≤ MAX_RETX_ATTEMPTS)
    (hq : a.conn.sender.queued = front :: rest) (hopen : b.conn.inboundStream.inputEnded = false)
    (hroom : MAX_PAYLOAD_SIZE ≤ b.conn.receiver.reassembler.capacity) :
    ∃ w' a' b' ans more, Attempted w x a w' a' b' ans more ∧
      a'.conn.sender.firstEnd ≤ b'.conn.receiver.acknowledged := by
  unfold TCPSender.consecutiveRetransmissions at hretx
  obtain ⟨w₁, a₁, b₁, ans, more, h₁, hcount, hend | hclear, -⟩ :=
    h.attempt hshow hrst hrst' (by unfold TCPSender.consecutiveRetransmissions; omega) hq hopen hroom
  · exact ⟨w₁, a₁, b₁, ans, more, h₁, hend⟩
  obtain ⟨hruns, huntouched⟩ := h.leads h₁.leads
  by_cases hended : b₁.conn.inboundStream.inputEnded = true
  · -- the stream has ended with the first one
    obtain ⟨created, hx⟩ := ready_of_reach hruns.reach hruns.short x
    have hw := hx.orderly.speaks.wired
    have hreached := hruns.ended_reached (x := x) (by rw [h₁.shows.far]; exact hended)
    rw [h₁.shows.near] at hw hreached
    rw [h₁.shows.far] at hreached
    exact ⟨w₁, a₁, b₁, ans, more, h₁,
      Nat.le_trans (hw.firstEnd_bounds (h₁.queued.trans hq)).2 hreached⟩
  · have hroom₁ : MAX_PAYLOAD_SIZE ≤ b₁.conn.receiver.reassembler.capacity := by
      have hcap := (huntouched x.peer).capacity
      rw [hshow.far, h₁.shows.far] at hcap
      rw [hcap]
      exact hroom
    obtain ⟨w₂, a₂, b₂, ans', more', h₂, -, -, hagain⟩ :=
      hruns.attempt h₁.shows h₁.near h₁.far (by unfold TCPSender.consecutiveRetransmissions; omega)
        (h₁.queued.trans hq) (eq_false_of_ne_true hended) hroom₁
    exact ⟨w₂, a₂, b₂, ans', more', h₁.trans h₂, hagain hclear⟩

/-- **One round**: the oldest segment in flight is acknowledged. -/
theorem Runs.round (h : Runs w) (hshow : Shows w x a b out back) (hrst : a.conn.isRst = false)
    (hrst' : b.conn.isRst = false) (hretx : a.conn.sender.consecutiveRetransmissions + 2 ≤ MAX_RETX_ATTEMPTS)
    (hq : a.conn.sender.queued = front :: rest) (hopen : b.conn.inboundStream.inputEnded = false)
    (hroom : MAX_PAYLOAD_SIZE ≤ b.conn.receiver.reassembler.capacity) :
    ∃ w' a' b' out' back', Leads step (unattended x) w w' ∧ Shows w' x a' b' out' back' ∧ a'.conn.isRst = false ∧
      b'.conn.isRst = false ∧ unacked a.conn.sender < unacked a'.conn.sender ∧
      a'.conn.sender.consecutiveRetrans = 0 := by
  obtain ⟨w₁, a₁, b₁, ans, more, h₁, hend⟩ := h.taken hshow hrst hrst' hretx hq hopen hroom
  obtain ⟨w', a', out', hs, hafter, halive, hmoved, hcount⟩ :=
    (h.leads h₁.leads).1.deliver_ack h₁.shows h₁.near (h₁.queued.trans hq) h₁.answer hend
  rw [h₁.position] at hmoved
  exact ⟨w', a', b₁, out', more, h₁.leads.trans (Leads.single (a := .deliver x.peer) trivial hs), hafter, halive,
    h₁.far, hmoved, hcount⟩

/-! ## Round after round -/

/-- The peer of `x` has all that `x` has accepted, and the end of it if there is one. -/
def Delivered (w : FifoNetwork) (x : Side) : Prop :=
  (w.net.endpoint x.peer).received = (w.net.endpoint x).accepted ∧
  ((w.net.endpoint x).conn.sender.stream.inputEnded = true →
    (w.net.endpoint x.peer).conn.inboundStream.inputEnded = true)

/-- With nothing in flight there is nothing left to deliver. -/
theorem Runs.delivered_of_idle (h : Runs w) (hopened : (w.net.endpoint x).conn.sender.nextSeqno ≠ 0)
    (hidle : (w.net.endpoint x).conn.sender.queued = []) : Delivered w x := by
  obtain ⟨created, hx⟩ := ready_of_reach h.reach h.short x
  obtain ⟨_, hcarries⟩ := h.carries x
  have hw := hx.orderly.speaks.wired
  obtain ⟨hempty, hfin⟩ := hx.prompt.spent hopened hidle
  by_cases hended : (w.net.endpoint x.peer).conn.inboundStream.inputEnded = true
  · exact ⟨(hcarries.ended hended).2, fun _ => hended⟩
  -- all that has been created is acknowledged, and all that was accepted has been created
  have hsome := (TCPSender.opened_iff hw).mp hopened
  have hcreated : (payloads created).length = (w.net.endpoint x).accepted.length := by
    have hpayload := hw.payload
    rw [hempty, List.append_nil] at hpayload
    exact congrArg List.length hpayload
  have hspace := space_eq_counts created
  have hsyn := hw.countP_syn hw.lone (k := created.length) (List.length_pos_of_ne_nil hsome) hsome
  rw [List.take_length] at hsyn
  have hreached := hcarries.reached
  have hnext : unacked (w.net.endpoint x).conn.sender = TCPSender.space created := by
    have hflight : (w.net.endpoint x).conn.sender.bytedInFlight = 0 := by
      rw [hw.inFlight, hidle]
      rfl
    rw [unacked, hflight, Nat.sub_zero, hw.next]
  rw [hnext] at hreached
  have hknown := h.known (x := x) (by omega)
  rw [TCPReceiver.acknowledged_of_open hknown (eq_false_of_ne_true hended)] at hreached
  have hcount : (w.net.endpoint x.peer).received.length
      = (w.net.endpoint x.peer).conn.receiver.streamOut.bytesWritten := by
    rcases hcarries.listens with hun | hheard
    · rw [hun.isn] at hknown
      exact absurd hknown (by simp)
    · exact hheard.honest.written_length
  have hle := hcarries.delivered.length_le
  refine ⟨hcarries.delivered.eq_of_length (by omega), fun hinput => ?_⟩
  -- a FIN that is acknowledged has ended the stream
  have hlast := (hw.finFlag.mp (hfin hinput)).2
  have hpos : 0 < created.countP (fun seg => seg.header.fin) :=
    List.countP_pos_iff.mpr (TCPSender.exists_fin_of_endsInFin hlast)
  omega

/-- Both connections are up, the sender has not given up yet, and the receiver can hold a segment. -/
structure Recoverable (w : FifoNetwork) (x : Side) : Prop where
  runs : Runs w
  opened : (w.net.endpoint x).conn.sender.nextSeqno ≠ 0
  near : (w.net.endpoint x).conn.isRst = false
  far : (w.net.endpoint x.peer).conn.isRst = false
  patient : (w.net.endpoint x).conn.sender.consecutiveRetransmissions + 2 ≤ MAX_RETX_ATTEMPTS
  room : MAX_PAYLOAD_SIZE ≤ (w.net.endpoint x.peer).conn.receiver.reassembler.capacity

/-- How much of the stream, its SYN and its FIN is not acknowledged yet. -/
def missing (x : Side) (w : FifoNetwork) : Nat :=
  (w.net.endpoint x).accepted.length + 2 - unacked (w.net.endpoint x).conn.sender

/-- **Something is in flight or everything is delivered**, and what is in flight can be acknowledged. -/
theorem Recoverable.progress (h : Recoverable w x) :
    Delivered w x ∨ ∃ w', Leads step (unattended x) w w' ∧ Recoverable w' x ∧ missing x w' < missing x w := by
  cases hq : (w.net.endpoint x).conn.sender.queued with
  | nil => exact Or.inl (h.runs.delivered_of_idle h.opened hq)
  | cons front rest =>
    by_cases hended : (w.net.endpoint x.peer).conn.inboundStream.inputEnded = true
    · obtain ⟨_, hcarries⟩ := h.runs.carries x
      exact Or.inl ⟨(hcarries.ended hended).2, fun _ => hended⟩
    · right
      obtain ⟨w', a', b', out', back', hl, hshow, hnear, hfar, hmoved, hcount⟩ :=
        h.runs.round ⟨rfl, rfl, rfl, rfl⟩ h.near h.far h.patient hq (eq_false_of_ne_true hended) h.room
      obtain ⟨hruns, huntouched⟩ := h.runs.leads hl
      obtain ⟨_, hcarries⟩ := hruns.carries x
      have hnext := hcarries.speaks.wired.next_le
      have hsame := (huntouched x).accepted
      have hcap := (huntouched x.peer).capacity
      rw [← hshow.near] at hnear hmoved hcount
      rw [← hshow.far] at hfar
      have hle : unacked (w'.net.endpoint x).conn.sender ≤ (w'.net.endpoint x).conn.sender.nextSeqno := Nat.sub_le _ _
      refine ⟨w', hl, ⟨hruns, by omega, hnear, hfar, ?_, ?_⟩, ?_⟩
      · show (w'.net.endpoint x).conn.sender.consecutiveRetrans + 2 ≤ MAX_RETX_ATTEMPTS
        rw [hcount]
        decide
      · rw [hcap]
        exact h.room
      · unfold missing
        rw [hsame] at hnext ⊢
        omega

/-- **Whatever has been lost, the stream can still be delivered.**  In every state of every run over channels that
keep the order, if the owners opened the connection first and wrote only while there was room, if neither connection
has been reset, and if the sender has two attempts left: there is a way on, with nothing but the clock of the sender,
reads at the receiver and the channels, after which the receiver has all that the sender has accepted so far, and the
end of the stream if the sender has ended it. -/
theorem delivers_everything {w : FifoNetwork}
    (hr : Reach Start step (fun w call => w.allowed call ∧ w.prudent call) w) (hshort : w.net.Short) (x : Side)
    (hopened : (w.net.endpoint x).conn.sender.nextSeqnoAbsolute ≠ 0)
    (hnear : (w.net.endpoint x).conn.isRst = false) (hfar : (w.net.endpoint x.peer).conn.isRst = false)
    (hpatient : (w.net.endpoint x).conn.sender.consecutiveRetransmissions + 2 ≤ MAX_RETX_ATTEMPTS)
    (hroom : MAX_PAYLOAD_SIZE ≤ (w.net.endpoint x.peer).conn.receiver.reassembler.capacity) :
    ∃ w', Leads step (unattended x) w w' ∧ (w'.net.endpoint x.peer).received = (w.net.endpoint x).accepted ∧
      ((w.net.endpoint x).conn.sender.stream.inputEnded = true →
        (w'.net.endpoint x.peer).conn.inboundStream.inputEnded = true) := by
  have hstart : Recoverable w x := ⟨⟨hr, hshort⟩, hopened, hnear, hfar, hpatient, hroom⟩
  obtain ⟨w', hl, -, hall, hend⟩ :=
    Leads.of_rank (P := fun w => Recoverable w x) (missing x) (fun _ h => h.progress) hstart
  have hsame := (hstart.runs.leads hl).2 x
  rw [hsame.accepted] at hall
  rw [hsame.ended] at hend
  exact ⟨w', hl, hall, hend⟩

/-- Two bytes and the FIN are accepted, and all that carried them has been lost. -/
theorem delivers_everything_lost : ∃ w w' : FifoNetwork,
    Reach Start step (fun w call => w.allowed call ∧ w.prudent call) w ∧ w.net.a.accepted = [97, 98] ∧
    w.net.b.received = [] ∧ w.channel .A = [] ∧ Leads step (unattended .A) w w' ∧ w'.net.b.received = [97, 98] ∧
    w'.net.b.conn.inboundStream.inputEnded = true := by
  obtain ⟨w, hr, htest⟩ : ∃ w, Reach Start step (fun w call => w.allowed call ∧ w.prudent call) w ∧
      (decide w.net.Short && decide (w.net.a.conn.sender.nextSeqnoAbsolute ≠ 0) && !w.net.a.conn.isRst
        && !w.net.b.conn.isRst && decide (w.net.a.conn.sender.consecutiveRetransmissions + 2 ≤ MAX_RETX_ATTEMPTS)
        && decide (MAX_PAYLOAD_SIZE ≤ w.net.b.conn.receiver.reassembler.capacity)
        && decide (w.net.a.accepted = [97, 98]) && decide (w.net.b.received = []) && (w.channel .A).isEmpty
        && w.net.a.conn.sender.stream.inputEnded) = true :=
    Reach.exec_any _ (s := { net :=
        ⟨{ conn := .new { recvCapacity := 8, sendCapacity := 8, fixedIsn := some ⟨7⟩ } ⟨0⟩ },
          { conn := .new { recvCapacity := 1000, sendCapacity := 8, fixedIsn := some ⟨4294967295⟩ } ⟨0⟩ }⟩ })
      (l := [.own .A .connect, .deliver .A, .deliver .B, .own .A (.write [97, 98]), .own .A .endInputStream,
        .lose .A, .lose .A, .lose .A])
      (.start ⟨⟨_, _, _, _, rfl⟩, rfl, rfl⟩) (by decide +kernel)
  simp only [Bool.and_eq_true, Bool.not_eq_true', decide_eq_true_eq, List.isEmpty_iff] at htest
  obtain ⟨⟨⟨⟨⟨⟨⟨⟨⟨hshort, hopened⟩, hnear⟩, hfar⟩, hpatient⟩, hroom⟩, haccepted⟩, hreceived⟩, hlost⟩, hended⟩ := htest
  obtain ⟨w', hl, hall, hend⟩ := delivers_everything hr hshort .A hopened hnear hfar hpatient hroom
  exact ⟨w, w', hr, haccepted, hreceived, hlost, hl, hall.trans haccepted, hend hended⟩

end FifoNetwork

end Sponge
