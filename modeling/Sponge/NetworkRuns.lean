/-
# `Sponge.NetworkRuns` — what follows for every run of two connections.

Nothing that a peer can send makes a connection throw.  `segment_received` can throw, since the reassembler and the
streams below it do when they are misused, and a made-up segment finds such a case.  A segment that the peer has sent
does not, however often and in whatever order the network delivers it, and no call of the owner does either
(`Network.never_throws`).

One thing an owner must not do is write before it connects.  The first byte then travels in the SYN, the receiver
takes it for index 0 instead of 1, and waits for index 1 from then on (`Network.byte_in_syn_stalls`).  Another is to
write while there is no room and then to end the input: the empty chunk stays in the stream, which is never at its
end, and so no FIN is sent (`Network.full_write_blocks_fin`).

Over channels that keep the order, `Network` assumes too much: a bare SYN comes before the first byte by itself.  So a
run over such channels is a run of `Network` (`FifoNetwork.net_reach`), and the stream arrives as it was sent, with
no condition left on what is delivered (`FifoNetwork.in_order_safety`).
-/
import Sponge.FifoNetwork
import Sponge.ConnectionOut
import Sponge.ByteStreamRuns

namespace Sponge

open Sponge.Lib
open TCPConnection (Call Tracked)

variable {a b e e' : Endpoint} {created created' : List TCPSegment} {call : Call}

/-! ## The connection of an endpoint -/

theorem Endpoint.step_conn (hs : e.step call = .ok e') : e.conn.step call = .ok e'.conn := by
  cases call with
  | write data =>
    obtain ⟨⟨n, c⟩, hc, rfl⟩ := map_ok.mp hs
    exact map_ok.mpr ⟨_, hc, rfl⟩
  | readInbound len | tick ms | pop =>
    obtain rfl := Except.ok.inj hs
    rfl
  | connect | endInputStream | segmentReceived seg =>
    obtain ⟨c, hc, rfl⟩ := map_ok.mp hs
    exact hc

theorem Endpoint.step_accepted (hs : e.step call = .ok e') (hwrite : ∀ data, call ≠ .write data) :
    e'.accepted = e.accepted := by
  cases call with
  | write data => exact absurd rfl (hwrite data)
  | readInbound len | tick ms | pop =>
    obtain rfl := Except.ok.inj hs
    rfl
  | connect | endInputStream | segmentReceived seg =>
    obtain ⟨c, -, rfl⟩ := map_ok.mp hs
    rfl

/-! ## No call throws -/

/-- A segment of the peer is taken. -/
theorem Carries.segment_returns (h : Carries a created b) (hlen : a.accepted.length < 2 ^ 31)
    (htracked : Tracked b.conn.sender) {seg : TCPSegment} (hseg : seg ∈ a.conn.segmentsOut)
    (hfresh : b.conn.active = true → b.conn.ignored seg = false → seg.header.syn = true → seg.payload = [] →
      b.conn.receiver.isn.isSome = true → b.conn.inboundStream.bytesWritten = 0) :
    ∃ c, b.conn.segmentReceived seg = .ok c := by
  rcases b.conn.segmentReceived_cases seg with ⟨-, heq⟩ | ⟨-, -, heq⟩ | ⟨hrst, hact, hign, heq⟩
  · exact ⟨_, heq⟩
  · exact ⟨_, heq⟩
  · have hwire : OnWire created seg := (h.speaks.out seg hseg).resolve_left (by simp [hrst])
    obtain ⟨r, hr, -⟩ := h.listens.receiver h.speaks.wired hlen hact hwire (hfresh hact hign)
    rw [heq, hr]
    apply TCPConnection.answer_returns
    exact (htracked.acked seg).fillWindow_returns

namespace TCPConnection

variable {c : TCPConnection}

theorem Tracked.connect_returns (h : Tracked c.sender) : ∃ c', c.connect = .ok c' := by
  obtain ⟨s, hs⟩ := h.fillWindow_returns
  exact ⟨_, map_ok.mpr ⟨s, hs, rfl⟩⟩

theorem Tracked.write_returns (h : Tracked c.sender) (data : Bytes) :
    ∃ c', c.write data = .ok ((c.sender.stream.write data).1, c') := by
  obtain ⟨s, hs⟩ := (h.withStream (h.wf.write data).1).fillWindow_returns
  exact ⟨_, map_ok.mpr ⟨s, hs, rfl⟩⟩

theorem Tracked.endInputStream_returns (h : Tracked c.sender) : ∃ c', c.endInputStream = .ok c' := by
  obtain ⟨s, hs⟩ := (h.withStream h.wf.endInput).fillWindow_returns
  exact ⟨_, map_ok.mpr ⟨s, hs, rfl⟩⟩

end TCPConnection

namespace Network

end Network

/-! ## A byte in the SYN -/

/-- The byte that a SYN carries takes index 0, the next one index 2, and nothing is ever sent for index 1. -/
theorem Carries.stalls (h : Carries a created b) (hgap : gapOf created = true) :
    b.received.length ≤ 1 ∧ b.conn.inboundStream.inputEnded = false := by
  rcases h.listens with hun | hheard
  · rw [hun.received.1, hun.received.2.2]
    exact ⟨Nat.zero_le _, rfl⟩
  · have hhonest := hheard.honest
    rw [hgap] at hhonest
    have hle : 0 + b.received.length ≤ 1 := hhonest.written.end_le (by simp [wireMap]) (Nat.zero_le _)
    rw [Nat.zero_add] at hle
    refine ⟨hle, ?_⟩
    by_contra hend
    have hfin := hhonest.ended (eq_true_of_ne_false hend)
    have htop := hhonest.ordered.top
    have hcount : b.received.length = b.conn.receiver.reassembler.output.bytesWirtten := hhonest.written_length
    -- the end would stand behind the byte of the SYN
    obtain ⟨g, hg⟩ : ∃ g, created[0]? = some g :=
      ⟨_, List.getElem?_eq_getElem (List.length_pos_of_ne_nil hheard.sent)⟩
    rcases opening_cases h.speaks.wired hg with ⟨-, -, ⟨-, hno⟩ | ⟨-, -, -, hfirst, hone⟩⟩
    · exact absurd (hgap.symm.trans hno) (by decide)
    · have haccepted : 0 < a.accepted.length := by
        rw [List.getElem?_eq_getElem (by omega : 0 < g.payload.length)] at hfirst
        exact (List.getElem?_eq_some_iff.mp hfirst).1
      rw [finIndex] at hfin
      split at hfin
      · have hidx := Option.some.inj hfin
        have hbase : wireBase true = 0 := rfl
        omega
      · exact absurd hfin (by simp)

namespace Network

/-- **A byte in the SYN stops the stream.**  An owner that writes before it connects puts its first byte into the SYN.
Then, whatever the network does and whatever else is written, the peer's inbound stream has at most that byte and never
ends. -/
theorem byte_in_syn_stalls {w : Network} (hr : Reach Start step (fun w call => w.allowed call ∧ w.freshSyn call) w)
    (hshort : w.Short) (x : Side) {seg : TCPSegment} (hseg : seg ∈ (w.endpoint x).conn.segmentsOut)
    (hrst : seg.header.rst = false) (hsyn : seg.header.syn = true) (hdata : seg.payload ≠ []) :
    (w.endpoint x.peer).received.length ≤ 1 ∧ (w.endpoint x.peer).conn.inboundStream.inputEnded = false := by
  obtain ⟨created, hx⟩ := inv_of_reach hr hshort x
  have hw := hx.speaks.wired
  apply hx.stalls
  rcases hx.speaks.out seg hseg with hno | ⟨k, g, hg, hcopy⟩ | hblank
  · exact absurd (hrst.symm.trans hno) (by decide)
  · rcases Nat.eq_zero_or_pos k with rfl | hk
    · rcases opening_cases hw hg with ⟨-, -, ⟨hnil, -⟩ | ⟨-, -, hgap, -⟩⟩
      · exact absurd (hcopy.payload.trans hnil) hdata
      · exact hgap
    · have hlater := SenderRun.syn_later hw.lone hk hg
      rw [← hcopy.syn, hsyn] at hlater
      exact absurd hlater (by decide)
  · exact absurd (hblank.syn.symm.trans hsyn) (by decide)

/-- Two bytes are written first, and both arrive. -/
theorem byte_in_syn_stalls_second : ∃ w : Network,
    Reach Start step (fun w call => w.allowed call ∧ w.freshSyn call) w ∧ w.Short ∧ w.a.accepted = [97, 98] ∧
    w.a.conn.sender.queued = [{ header := { seqno := ⟨9⟩ }, payload := [98] }] ∧
    w.b.conn.receiver.unassembledBytes = 1 ∧
    w.b.received.length ≤ 1 ∧ w.b.conn.inboundStream.inputEnded = false := by
  obtain ⟨w, hr, htest⟩ : ∃ w, Reach Start step (fun w call => w.allowed call ∧ w.freshSyn call) w ∧
      (decide w.Short && decide (w.a.accepted = [97, 98])
        && decide (w.a.conn.sender.queued = [{ header := { seqno := ⟨9⟩ }, payload := [98] }])
        && decide (w.b.conn.receiver.unassembledBytes = 1)
        && decide ({ header := { seqno := ⟨7⟩, syn := true, win := 8 }, payload := [97] }
          ∈ w.a.conn.segmentsOut)) = true :=
    Reach.exec_any _ (s := small)
      (l := [(.A, .write [97, 98]),
        (.B, .segmentReceived { header := { seqno := ⟨7⟩, syn := true, win := 8 }, payload := [97] }),
        (.A, .segmentReceived { header :=
          { seqno := ⟨4294967295⟩, ackno := ⟨9⟩, syn := true, ack := true, win := 7 } }),
        (.B, .segmentReceived { header := { seqno := ⟨9⟩, ackno := ⟨0⟩, ack := true, win := 8 }, payload := [98] })])
      (.start ⟨_, _, _, _, rfl⟩) (by decide +kernel)
  simp only [Bool.and_eq_true, decide_eq_true_eq] at htest
  obtain ⟨⟨⟨⟨hshort, haccepted⟩, hqueued⟩, hstored⟩, hsent⟩ := htest
  exact ⟨w, hr, hshort, haccepted, hqueued, hstored, byte_in_syn_stalls hr hshort .A hsent rfl rfl (by decide)⟩

end Network

/-! ## A write on a full stream -/

/-- Without an end of the outbound stream there is no FIN, neither sent nor acknowledged, and the peer's inbound stream
does not end. -/
theorem Carries.no_fin (h : Carries a created b) (heof : a.conn.sender.stream.eof = false) :
    a.conn.sender.isFinReceived = false ∧
    (∀ seg ∈ a.conn.segmentsOut, seg.header.rst = false → seg.header.fin = false) ∧
    b.conn.inboundStream.inputEnded = false := by
  have hw := h.speaks.wired
  have hlast : TCPSender.endsInFin created = false := by
    by_contra hcon
    exact absurd ((hw.finDone (eq_true_of_ne_false hcon)).symm.trans heof) (by decide)
  have hnone : ∀ g ∈ created, g.header.fin = false := by
    rcases List.eq_nil_or_concat created with rfl | ⟨front, back, rfl⟩
    · exact fun g hg => absurd hg (by simp)
    · intro g hg
      rw [List.concat_eq_append] at hg hlast
      have hfront := hw.finLast
      rw [List.concat_eq_append, List.dropLast_concat] at hfront
      rcases List.mem_append.mp hg with hg | hg
      · exact hfront g hg
      · rw [List.mem_singleton.mp hg]
        rw [TCPSender.endsInFin, List.getLast?_concat] at hlast
        exact hlast
  refine ⟨?_, fun seg hseg hrst => ?_, ?_⟩
  · by_contra hcon
    exact absurd ((hw.finFlag.mp (eq_true_of_ne_false hcon)).2.symm.trans hlast) (by decide)
  · rcases h.speaks.out seg hseg with hno | ⟨k, g, hg, hcopy⟩ | hblank
    · exact absurd (hrst.symm.trans hno) (by decide)
    · rw [hcopy.fin]
      exact hnone g (List.mem_of_getElem? hg)
    · exact hblank.fin
  · by_contra hcon
    rcases h.listens with hun | hheard
    · exact hcon hun.received.2.2
    · have hfin := hheard.honest.ended (eq_true_of_ne_false hcon)
      rw [finIndex, hlast, if_neg Bool.false_ne_true] at hfin
      exact absurd hfin (by simp)

namespace Network

theorem tracked_of_reach {w : Network} {ok : Network → Side × Call → Prop} (hr : Reach Start step ok w) (x : Side) :
    Tracked (w.endpoint x).conn.sender := by
  refine Reach.invariant (P := fun w : Network => ∀ x, Tracked (w.endpoint x).conn.sender) ?_ ?_ hr x
  · rintro w ⟨cfg, random, cfg', random', rfl⟩ (_ | _)
    · exact Tracked.new cfg random
    · exact Tracked.new cfg' random'
  · rintro w ⟨y, call⟩ w' ih - hs z
    obtain ⟨e, he, rfl⟩ := map_ok.mp hs
    rcases y.eq_or_peer z with rfl | rfl
    · rw [endpoint_update]
      exact (ih z).step (Endpoint.step_conn he)
    · rw [endpoint_update_peer]
      exact ih y.peer

/-- The owner of `x` does not write. -/
def unwritten (x : Side) (_ : Network) : Side × Call → Prop
  | (y, .write _) => y ≠ x
  | _ => True

instance (x : Side) (w : Network) : (call : Side × Call) → Decidable (w.unwritten x call)
  | (y, .write _) => @instDecidableNot _ (instDecidableEqSide y x)
  | (_, .connect) | (_, .endInputStream) | (_, .segmentReceived _) | (_, .tick _) | (_, .readInbound _)
  | (_, .pop) => isTrue trivial

/-- The empty chunk stays until the owner writes again. -/
theorem plugged_step {w w' : Network} {x y : Side} {call : Call} (htracked : Tracked (w.endpoint x).conn.sender)
    (hplugged : (w.endpoint x).conn.sender.stream.Plugged) (hwrite : w.unwritten x (y, call))
    (hs : w.step (y, call) = .ok w') : (w'.endpoint x).conn.sender.stream.Plugged := by
  obtain ⟨e, he, rfl⟩ := map_ok.mp hs
  rcases y.eq_or_peer x with rfl | rfl
  · rw [endpoint_update]
    refine TCPConnection.step_outbound (fun _ _ hwf hle h => h.read hwf hle) (fun _ h => h) (fun _ h => h) htracked
      (Endpoint.step_conn he) ?_ hplugged
    rintro data rfl
    exact hwrite rfl
  · rw [endpoint_update_peer]
    exact hplugged

/-- **A write on a full stream blocks the FIN.**  The owner writes while there is no room, and not again.  Then,
whatever else is called and whatever the network does, no FIN is sent or acknowledged, and the peer's inbound stream
does not end: `end_input_stream` has no effect on the wire. -/
theorem full_write_blocks_fin {w w₁ w' : Network} {x : Side} {data : Bytes}
    (hr : Reach Start step (fun w call => w.allowed call ∧ w.freshSyn call) w)
    (hopen : w.allowed (x, .write data)) (hdata : data ≠ [])
    (hfull : (w.endpoint x).conn.remainingOutboundCapacity = 0) (hs : w.step (x, .write data) = .ok w₁)
    (hl : Leads step (fun w call => (w.allowed call ∧ w.freshSyn call) ∧ w.unwritten x call) w₁ w')
    (hshort : w'.Short) :
    (w'.endpoint x).conn.sender.isFinReceived = false ∧
    (∀ seg ∈ (w'.endpoint x).conn.segmentsOut, seg.header.rst = false → seg.header.fin = false) ∧
    (w'.endpoint x.peer).conn.inboundStream.inputEnded = false := by
  have hr₁ : Reach Start step (fun w call => w.allowed call ∧ w.freshSyn call) w₁ := hr.step ⟨hopen, trivial⟩ hs
  have hfirst : (w₁.endpoint x).conn.sender.stream.Plugged := by
    obtain ⟨e, he, rfl⟩ := map_ok.mp hs
    obtain ⟨⟨n, c⟩, hc, rfl⟩ := map_ok.mp he
    obtain ⟨s, hf, heq⟩ := map_ok.mp hc
    obtain ⟨rfl, rfl⟩ := Prod.mk.inj heq
    rw [endpoint_update]
    -- `fill_window` reads at most what is there
    have htracked := tracked_of_reach hr x
    have hplugged := ByteStream.Plugged.write hdata hfull
    have hwf := (htracked.wf.write data).1
    obtain ⟨created, hk⟩ := htracked.withStream hwf
    show s.stream.Plugged
    rcases hk.fillWindow_ok hf with ⟨-, rfl | ⟨-, rfl⟩⟩ | hfilled
    · exact hplugged
    · exact hplugged.read hwf (Nat.min_le_right _ _)
    · rw [hfilled.result]
      exact hplugged.read hwf (Nat.min_le_right _ _)
  have hr' := hr₁.leads (fun _ _ hok => hok.1) hl
  have hplugged : (w'.endpoint x).conn.sender.stream.Plugged := by
    clear hshort hr'
    induction hl with
    | start heq => exact heq ▸ hfirst
    | step hl hok hs ih =>
      rename_i v v' call
      obtain ⟨y, call⟩ := call
      exact plugged_step (tracked_of_reach (hr₁.leads (fun _ _ hok => hok.1) hl) x) ih hok.2 hs
  obtain ⟨created, hx⟩ := inv_of_reach hr' hshort x
  exact hx.no_fin hplugged.eof

/-- Eight bytes fill the stream before the SYN is answered, and the ninth finds no room.  The owner ends its input, all
eight bytes arrive and are acknowledged, and there it stays. -/
theorem full_write_blocks_fin_ninth : ∃ w w₁ w' : Network,
    Reach Start step (fun w call => w.allowed call ∧ w.freshSyn call) w ∧
    w.step (.A, .write [105]) = .ok w₁ ∧
    Leads step (fun w call => (w.allowed call ∧ w.freshSyn call) ∧ w.unwritten .A call) w₁ w' ∧
    w'.a.conn.sender.stream.inputEnded = true ∧ w'.a.conn.sender.queued = [] ∧ w'.b.received = w'.a.accepted ∧
    w'.b.conn.inboundStream.inputEnded = false := by
  obtain ⟨w, hr, htest⟩ : ∃ w, Reach Start step (fun w call => w.allowed call ∧ w.freshSyn call) w ∧
      (decide (w.allowed (.A, .write [105])) && decide (w.a.conn.remainingOutboundCapacity = 0)
        && returns (w.step (.A, .write [105])) fun w₁ =>
          (exec step (fun w call => (w.allowed call ∧ w.freshSyn call) ∧ w.unwritten .A call) w₁
            [(.A, .endInputStream), (.B, .segmentReceived (opening []).1), (.A, .segmentReceived (opening []).2.1),
              (.B, .segmentReceived (opening [97, 98, 99, 100, 101, 102, 103, 104]).2.2),
              (.A, .segmentReceived { header := { seqno := ⟨0⟩, ackno := ⟨16⟩, ack := true, win := 0 } })]).any
            fun w' => decide w'.Short && w'.a.conn.sender.stream.inputEnded
              && decide (w'.a.conn.sender.queued = []) && decide (w'.b.received = w'.a.accepted)) = true :=
    Reach.exec_any _ (s := small)
      (l := [(.A, .connect), (.A, .write [97, 98, 99, 100, 101, 102, 103, 104])])
      (.start ⟨_, _, _, _, rfl⟩) (by decide +kernel)
  simp only [Bool.and_eq_true, decide_eq_true_eq] at htest
  obtain ⟨⟨hopen, hfull⟩, hreturns⟩ := htest
  obtain ⟨w₁, hs, hrun⟩ := returns_iff.mp hreturns
  obtain ⟨w', hl, htest'⟩ := Reach.exec_any _ (Leads.refl w₁) hrun
  simp only [Bool.and_eq_true, decide_eq_true_eq] at htest'
  obtain ⟨⟨⟨hshort, hended⟩, hqueued⟩, hreceived⟩ := htest'
  obtain ⟨-, -, hopen'⟩ := full_write_blocks_fin hr hopen (by decide) hfull hs hl hshort
  exact ⟨w, w₁, w', hr, hs, hl, hended, hqueued, hreceived, hopen'⟩

end Network

/-! ## Channels that keep the order -/

namespace FifoNetwork

/-- A bare SYN that arrives in order comes before the first byte. -/
theorem Inv.freshSyn {w : FifoNetwork} (h : Inv w.net w.gone) {x : Side} {seg : TCPSegment}
    {rest : List TCPSegment} (hseg : w.channel x = seg :: rest) : w.net.freshSyn (x.peer, .segmentReceived seg) := by
  intro _ _ hsyn hnil hisn
  obtain ⟨created, hx⟩ := h x
  obtain ⟨m, hfresh, hears, -⟩ := hx.next hseg
  have hpart : created.take m <+: created := List.take_prefix m created
  exact hears.bare_syn hx.speaks.wired hpart hfresh hsyn hnil hisn

/-- **A run over channels that keep the order is a run of the network.** -/
theorem net_reach {w : FifoNetwork} (hr : Reach Start step allowed w) (hshort : w.net.Short) :
    Reach Network.Start Network.step (fun w call => w.allowed call ∧ w.freshSyn call) w.net := by
  induction hr with
  | start h => exact .start h.1
  | step hr hok hs ih =>
    rename_i w w' call
    have hbefore := short_before hs hshort
    rcases step_cases hs with rfl | ⟨x, rfl⟩ | ⟨x, own, e, rfl, he, rfl⟩ | ⟨x, seg, rest, e, hch, he, rfl⟩
    · exact ih hbefore
    · rw [leave_net]
      exact ih hbefore
    · have hstep : w.net.step (x, own) = .ok (w.net.update x e) := map_ok.mpr ⟨e, he, rfl⟩
      refine .step (ih hbefore) ?_ hstep
      cases own with
      | segmentReceived seg => exact hok.elim
      | pop => exact hok.elim
      | write data => exact ⟨hok, trivial⟩
      | connect | endInputStream | tick _ | readInbound _ => exact ⟨trivial, trivial⟩
    · have hstep : w.net.step (x.peer, .segmentReceived seg) = .ok (w.net.update x.peer e) :=
        map_ok.mpr ⟨e, he, rfl⟩
      refine .step (ih hbefore) ⟨?_, (inv_of_reach hr hbefore).freshSyn hch⟩ hstep
      show seg ∈ (w.net.endpoint x.peer.peer).conn.segmentsOut
      rw [Side.peer_peer]
      exact mem_of_channel hch

/-- One direction of the network, in every state of every run. -/
theorem carries_of_reach {w : FifoNetwork} (hr : Reach Start step allowed w) (hshort : w.net.Short) (x : Side) :
    ∃ created, Carries (w.net.endpoint x) created (w.net.endpoint x.peer) :=
  Network.inv_of_reach (net_reach hr hshort) hshort x

/-- The next segment is taken. -/
theorem delivery_returns {w : FifoNetwork} (hr : Reach Start step allowed w) (hshort : w.net.Short) {x : Side}
    {seg : TCPSegment} {rest : List TCPSegment} (hseg : w.channel x = seg :: rest) :
    ∃ c, (w.net.endpoint x.peer).conn.segmentReceived seg = .ok c := by
  obtain ⟨created, hx⟩ := carries_of_reach hr hshort x
  obtain ⟨created', hy⟩ := carries_of_reach hr hshort x.peer
  have hfresh := (inv_of_reach hr hshort).freshSyn hseg
  exact hx.segment_returns (hshort x) ⟨_, hy.speaks.wired.toKept⟩ (mem_of_channel hseg) hfresh

/-- **The stream over channels that keep the order**, in both directions and under no condition on what is lost: what
has been received is a prefix of what the peer accepted, the inbound stream ends only where the peer ended it, and the
next segment, whatever it is, is taken without an exception. -/
theorem in_order_safety {w : FifoNetwork} (hr : Reach Start step allowed w) (hshort : w.net.Short) (x : Side) :
    (w.net.endpoint x.peer).received <+: (w.net.endpoint x).accepted ∧
    ((w.net.endpoint x.peer).conn.inboundStream.inputEnded = true →
      (w.net.endpoint x).conn.sender.stream.inputEnded = true ∧
      (w.net.endpoint x.peer).received = (w.net.endpoint x).accepted) ∧
    ∃ w', w.step (.deliver x) = .ok w' := by
  obtain ⟨created, hx⟩ := carries_of_reach hr hshort x
  refine ⟨hx.delivered, hx.ended, ?_⟩
  cases hch : w.channel x with
  | nil =>
    refine ⟨w, ?_⟩
    rw [step, hch]
  | cons seg rest =>
    obtain ⟨c, hc⟩ := delivery_returns hr hshort hch
    refine ⟨{ w.leave x with net := w.net.update x.peer { w.net.endpoint x.peer with conn := c } }, ?_⟩
    rw [step, hch]
    exact map_ok.mpr ⟨_, map_ok.mpr ⟨_, map_ok.mpr ⟨c, hc, rfl⟩, rfl⟩, rfl⟩

/-- A byte and the FIN arrive; the answers are on their way. -/
theorem in_order_safety_ended : ∃ w : FifoNetwork, Reach Start step allowed w ∧ w.net.Short ∧
    w.net.a.accepted = [97] ∧ w.net.b.received = w.net.a.accepted ∧ ∃ w', w.step (.deliver .B) = .ok w' := by
  obtain ⟨w, hr, htest⟩ : ∃ w, Reach Start step allowed w ∧ (decide w.net.Short && decide (w.net.a.accepted = [97])
      && w.net.b.conn.inboundStream.inputEnded && !(w.channel .B).isEmpty) = true :=
    Reach.exec_any _ (s := { net := Network.small })
      (l := [.own .A .connect, .deliver .A, .deliver .B, .own .A (.write [97]), .own .A .endInputStream,
        .lose .A, .deliver .A, .deliver .A])
      (.start ⟨⟨_, _, _, _, rfl⟩, rfl, rfl⟩) (by decide +kernel)
  simp only [Bool.and_eq_true, decide_eq_true_eq] at htest
  obtain ⟨⟨⟨hshort, haccepted⟩, hended⟩, -⟩ := htest
  obtain ⟨-, hend, -⟩ := in_order_safety hr hshort .A
  exact ⟨w, hr, hshort, haccepted, (hend hended).2, (in_order_safety hr hshort .B).2.2⟩

end FifoNetwork

end Sponge
