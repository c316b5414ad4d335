/-
# `Sponge.SocketMirror` — two sockets as two endpoints.

A socket is far from the endpoints of `Sponge.FifoNetwork`.  Its segments are taken out of `segments_out()`, serialized,
filtered and parsed again; its owner's bytes pass through a pipe and a buffer on their way in and out; and its callbacks
run on what was true when `poll` was called.  `Between` says how two sockets are two endpoints all the same: those of
the connections with the segments that have been given to the adapters put back (`endpoint`), and with what is on the
link standing for some of the segments on their way.

Each rule of the loop is a call of the endpoint, or several, or none; a datagram that the adapter does not return is a
segment that is lost on the way.  With what a socket keeps by itself (`Sane`) this makes the rules sound
(`sound_good`), and what they throw comes from a system call (`KernelError`).  And when the thread has finished by
itself, the owner has been told of the end (`Ended`).

One condition is needed on the kernel: a pair that is hung up is reported as readable when it is polled for that.  The
loop cancels a rule whose descriptor is hung up and not ready, and the cancel function of rule 2 ends the outbound
stream, whatever is left in the pipe.
-/
import Sponge.Lib.Lossy
import Sponge.AdapterWire
import Sponge.ByteStreamRuns
import Sponge.NetworkRuns
import Sponge.SpongeSocket

namespace Sponge

open Sponge.Lib
open List (SublistForall₂)
open TCPConnection (Tracked)

/-! ## Losing segments -/

/-- Any number of segments can be lost. -/
theorem FifoNetwork.loses {F : FifoNetwork} (hr : Reach Start step allowed F) {x : Side}
    {skipped rest : List TCPSegment} (h : F.channel x = skipped ++ rest) :
    ∃ F', Reach Start step allowed F' ∧ F'.net = F.net ∧ F'.gone x = F.gone x + skipped.length ∧
      F'.gone x.peer = F.gone x.peer := by
  induction skipped generalizing F with
  | nil => exact ⟨F, hr, rfl, rfl, rfl⟩
  | cons seg skipped ih =>
    have hs : F.step (.lose x) = .ok (F.leave x) := by
      rw [step, h]
      rfl
    have hch : (F.leave x).channel x = skipped ++ rest := by
      have htail : (F.channel x).tail = skipped ++ rest := by
        rw [h]
        rfl
      rw [channel, leave_net, gone_leave, ← List.tail_drop]
      exact htail
    have hok : F.allowed (.lose x) := trivial
    obtain ⟨F', hr', hnet, hx, hpeer⟩ := ih (.step hr hok hs) hch
    refine ⟨F', hr', hnet.trans (F.leave_net x), ?_, hpeer.trans (F.gone_leave_peer x)⟩
    rw [hx, gone_leave, List.length_cons]
    omega

/-! ## A socket as an endpoint -/

namespace TCPSpongeSocket

variable {A : Type} [FdAdapter A] {s s' p : TCPSpongeSocket A} {call : TCPConnection.Call}
  {handed mine theirs : List TCPSegment}

/-- The socket as an endpoint from which nobody takes segments; `handed` are those it has given to its adapter. -/
def endpoint (s : TCPSpongeSocket A) (handed : List TCPSegment) : Endpoint :=
  { conn := s.tcp.queued handed
    accepted := s.written.take s.taken
    consumed := s.delivered }

/-- A call of the connection that has to do neither with the owner's bytes nor with `segments_out()`. -/
def Plain : TCPConnection.Call → Prop
  | .connect | .endInputStream | .segmentReceived _ | .tick _ => True
  | .write _ | .readInbound _ | .pop => False

theorem endpoint_step (hs : s.tcp.step call = .ok s'.tcp) (hplain : Plain call)
    (haccepted : s'.written.take s'.taken = s.written.take s.taken) (hdelivered : s'.delivered = s.delivered)
    (handed : List TCPSegment) : (s.endpoint handed).step call = .ok (s'.endpoint handed) := by
  have hpop : call ≠ .pop := by
    rintro rfl
    exact hplain
  have hmap : (s.endpoint handed).step call
      = ((s.tcp.queued handed).step call).map fun conn => { s.endpoint handed with conn := conn } := by
    cases call with
    | connect | endInputStream | segmentReceived _ | tick _ => rfl
    | write _ | readInbound _ | pop => exact hplain.elim
  rw [hmap, TCPConnection.step_queued hs hpop handed]
  refine congrArg Except.ok ?_
  rw [endpoint, endpoint, haccepted, hdelivered]

/-- The owner's bytes go into the connection. -/
theorem endpoint_write {data : Bytes} (hs : s.tcp.write data = .ok (data.length, s'.tcp))
    (haccepted : s'.written.take s'.taken = s.written.take s.taken ++ data) (hdelivered : s'.delivered = s.delivered)
    (handed : List TCPSegment) : (s.endpoint handed).step (.write data) = .ok (s'.endpoint handed) := by
  refine map_ok.mpr ⟨_, TCPConnection.write_queued hs handed, ?_⟩
  dsimp only
  rw [List.take_length, endpoint, endpoint, haccepted, hdelivered]

/-- Bytes go to the owner. -/
theorem endpoint_read {n : Nat} (hs : s'.tcp = s.tcp.readInbound n)
    (haccepted : s'.written.take s'.taken = s.written.take s.taken)
    (hdelivered : s'.delivered = s.delivered ++ s.tcp.inboundStream.removed n)
    (handed : List TCPSegment) : (s.endpoint handed).step (.readInbound n) = .ok (s'.endpoint handed) := by
  refine congrArg Except.ok ?_
  rw [endpoint, endpoint, hs, haccepted, hdelivered]
  rfl

/-! ## Two sockets as a network of endpoints -/

/-- The sockets `s` at `x` and `p` at its peer are the endpoints of `F`, of whose segments `mine` and `theirs` have been
given to the adapters; and what is on the link stands for some of the segments on their way. -/
structure Between (x : Side) (s p : TCPSpongeSocket A) (gone : Side → Nat) (F : FifoNetwork)
    (mine theirs : List TCPSegment) : Prop where
  reach : Reach FifoNetwork.Start FifoNetwork.step FifoNetwork.allowed F
  here : F.net.endpoint x = s.endpoint mine
  there : F.net.endpoint x.peer = p.endpoint theirs
  leftHere : F.gone x ≤ mine.length
  leftThere : F.gone x.peer ≤ theirs.length
  sentHere : gone x ≤ (FdAdapter.sent s.datagramAdapter).length
  sentThere : gone x.peer ≤ (FdAdapter.sent p.datagramAdapter).length
  out : SublistForall₂ (FdAdapter.Encodes A) (p.incoming ++ (FdAdapter.sent s.datagramAdapter).drop (gone x))
    (mine.drop (F.gone x))
  into : SublistForall₂ (FdAdapter.Encodes A) (s.incoming ++ (FdAdapter.sent p.datagramAdapter).drop (gone x.peer))
    (theirs.drop (F.gone x.peer))

variable {x : Side} {gone gone' : Side → Nat} {F : FifoNetwork}

theorem Between.swap (h : Between x s p gone F mine theirs) : Between x.peer p s gone F theirs mine := by
  refine ⟨h.reach, h.there, ?_, h.leftThere, ?_, h.sentThere, ?_, h.into, ?_⟩
  all_goals rw [Side.peer_peer]
  · exact h.here
  · exact h.leftHere
  · exact h.sentHere
  · exact h.out

/-- **A call of the connection here**: the endpoint makes it too. -/
theorem Between.own (h : Between x s p gone F mine theirs) (hok : F.allowed (.own x call))
    (hs : (s.endpoint mine).step call = .ok (s'.endpoint mine)) (hincoming : s'.incoming = s.incoming)
    (hsent : FdAdapter.sent s'.datagramAdapter = FdAdapter.sent s.datagramAdapter) :
    ∃ F', Between x s' p gone F' mine theirs := by
  have hstep : F.step (.own x call) = .ok { F with net := F.net.update x (s'.endpoint mine) } := by
    refine map_ok.mpr ⟨_, map_ok.mpr ⟨_, ?_, rfl⟩, rfl⟩
    rw [h.here]
    exact hs
  refine ⟨{ F with net := F.net.update x (s'.endpoint mine) }, .step h.reach hok hstep, ?_, ?_, h.leftHere, h.leftThere,
    hsent ▸ h.sentHere, h.sentThere, ?_, ?_⟩
  · exact Network.endpoint_update _ _ _
  · exact (Network.endpoint_update_peer _ _ _).trans h.there
  · rw [hsent]
    exact h.out
  · rw [hincoming]
    exact h.into

/-- Nothing that the endpoints can see has changed. -/
theorem Between.same (h : Between x s p gone F mine theirs) (hendpoint : s'.endpoint mine = s.endpoint mine)
    (hincoming : s'.incoming = s.incoming)
    (hsent : FdAdapter.sent s'.datagramAdapter = FdAdapter.sent s.datagramAdapter) :
    Between x s' p gone F mine theirs := by
  refine ⟨h.reach, hendpoint ▸ h.here, h.there, h.leftHere, h.leftThere, hsent ▸ h.sentHere, h.sentThere, ?_, ?_⟩
  · rw [hsent]
    exact h.out
  · rw [hincoming]
    exact h.into

/-- The endpoint here keeps in its channel what it has not given to the adapter. -/
theorem Between.channel_there (h : Between x s p gone F mine theirs) :
    F.channel x.peer = theirs.drop (F.gone x.peer) ++ p.tcp.segmentsOut := by
  rw [FifoNetwork.channel, h.there]
  exact List.drop_append_of_le_length h.leftThere

/-- **The next datagram**: the network loses what is before the segment in it, and has that segment next. -/
theorem Between.next (h : Between x s p gone F mine theirs) {datagram : FdAdapter.Datagram A}
    {rest : List (FdAdapter.Datagram A)} (hincoming : s.incoming = datagram :: rest) :
    ∃ F' seg, FdAdapter.Encodes A datagram seg ∧ Between x s p gone F' mine theirs ∧
      (∃ later, F'.channel x.peer = seg :: later) ∧ F'.gone x.peer + 1 ≤ theirs.length ∧
      SublistForall₂ (FdAdapter.Encodes A) (rest ++ (FdAdapter.sent p.datagramAdapter).drop (gone x.peer))
        (theirs.drop (F'.gone x.peer + 1)) := by
  have hinto := h.into
  rw [hincoming] at hinto
  obtain ⟨skipped, seg, after, hsplit, hencodes, hafter⟩ := sublistForall₂_cons hinto
  have hch : F.channel x.peer = skipped ++ (seg :: after ++ p.tcp.segmentsOut) := by
    rw [h.channel_there, hsplit, List.append_assoc]
  obtain ⟨F', hr', hnet, hgone, hother⟩ := FifoNetwork.loses h.reach hch
  rw [Side.peer_peer] at hother
  have hdrop : theirs.drop (F'.gone x.peer) = seg :: after := by
    rw [hgone, ← List.drop_drop, hsplit, List.drop_left]
  have hlen := congrArg List.length hdrop
  rw [List.length_drop, List.length_cons] at hlen
  have hlater : theirs.drop (F'.gone x.peer + 1) = after := by
    rw [← List.tail_drop, hdrop]
    rfl
  have hbetween : Between x s p gone F' mine theirs := by
    refine ⟨hr', hnet ▸ h.here, hnet ▸ h.there, hother ▸ h.leftHere, by omega, h.sentHere, h.sentThere, ?_, ?_⟩
    · rw [hother]
      exact h.out
    · rw [hdrop, hincoming]
      exact hafter.cons hencodes
  refine ⟨F', seg, hencodes, hbetween, ⟨after ++ p.tcp.segmentsOut, ?_⟩, by omega, ?_⟩
  · rw [hbetween.channel_there, hdrop]
    rfl
  · rw [hlater]
    exact hafter

/-- The segment that was next has left the channel, and the datagram has been read. -/
theorem Between.read (h : Between x s p gone F mine theirs) {F' : FifoNetwork}
    (hr : Reach FifoNetwork.Start FifoNetwork.step FifoNetwork.allowed F')
    (hhere : F'.net.endpoint x = s'.endpoint mine) (hthere : F'.net.endpoint x.peer = F.net.endpoint x.peer)
    (hgone : F'.gone = (F.leave x.peer).gone) (hlen : F.gone x.peer + 1 ≤ theirs.length)
    (hinto : SublistForall₂ (FdAdapter.Encodes A)
      (s'.incoming ++ (FdAdapter.sent p.datagramAdapter).drop (gone x.peer)) (theirs.drop (F.gone x.peer + 1)))
    (hsent : FdAdapter.sent s'.datagramAdapter = FdAdapter.sent s.datagramAdapter) :
    Between x s' p gone F' mine theirs := by
  have hx : F'.gone x = F.gone x := by
    have hother := F.gone_leave_peer x.peer
    rw [Side.peer_peer] at hother
    rw [hgone, hother]
  have hpeer : F'.gone x.peer = F.gone x.peer + 1 := by rw [hgone, FifoNetwork.gone_leave]
  refine ⟨hr, hhere, hthere.trans h.there, hx ▸ h.leftHere, hpeer ▸ hlen, hsent ▸ h.sentHere, h.sentThere, ?_, ?_⟩
  · rw [hsent, hx]
    exact h.out
  · rw [hpeer]
    exact hinto

/-- **The loop of rule 4** writes compact segments without an exception, and what it puts out stands for them. -/
theorem sendLoop_sends [Conveys A] {segs : List TCPSegment} (hsegs : ∀ seg ∈ segs, seg.Compact) (a : A) :
    ∃ a' datagrams, sendLoop segs a = .ok a' ∧ FdAdapter.sent a' = FdAdapter.sent a ++ datagrams ∧
      SublistForall₂ (FdAdapter.Encodes A) datagrams segs := by
  induction segs generalizing a with
  | nil => exact ⟨a, [], rfl, (List.append_nil _).symm, .nil⟩
  | cons seg segs ih =>
    obtain ⟨hseg, hrest⟩ := List.forall_mem_cons.mp hsegs
    obtain ⟨a₁, seg', hwrite, hsent⟩ := Conveys.write a hseg
    obtain ⟨a', datagrams, hloop, hmore, hencode⟩ := ih hrest a₁
    have hsends : sendLoop (seg :: segs) a = .ok a' := by
      rw [sendLoop, hwrite]
      exact hloop
    rcases hsent with hnone | ⟨datagram, hone, hencodes⟩
    · exact ⟨a', datagrams, hsends, hnone ▸ hmore, hencode.cons_right⟩
    · refine ⟨a', datagram :: datagrams, hsends, ?_, hencode.cons hencodes⟩
      rw [hmore, hone, List.append_assoc]
      rfl

/-- **Segments are given to the adapter.** -/
theorem Between.send (h : Between x s p gone F mine theirs) {a' : A} {datagrams : List (FdAdapter.Datagram A)}
    (hsent : FdAdapter.sent a' = FdAdapter.sent s.datagramAdapter ++ datagrams)
    (hencode : SublistForall₂ (FdAdapter.Encodes A) datagrams s.tcp.segmentsOut) :
    Between x { s with datagramAdapter := a', tcp := { s.tcp with segmentsOut := [] } } p gone F
      (mine ++ s.tcp.segmentsOut) theirs := by
  refine ⟨h.reach, h.here.trans ?_, h.there, ?_, h.leftThere, ?_, h.sentThere, ?_, h.into⟩
  · show _ = ({ conn := TCPConnection.queued _ _, accepted := _, consumed := _ } : Endpoint)
    rw [TCPConnection.queued, List.append_nil]
    rfl
  · rw [List.length_append]
    exact Nat.le_add_right_of_le h.leftHere
  · show gone x ≤ (FdAdapter.sent a').length
    rw [hsent, List.length_append]
    exact Nat.le_add_right_of_le h.sentHere
  · show SublistForall₂ _ (p.incoming ++ (FdAdapter.sent a').drop (gone x)) _
    rw [hsent, List.drop_append_of_le_length h.sentHere, List.drop_append_of_le_length h.leftHere, ← List.append_assoc]
    exact sublistForall₂_append h.out hencode

/-! ## What a socket keeps -/

/-- Its connection is in order. -/
structure InOrder (c : TCPConnection) : Prop where
  tracked : Tracked c.sender
  compact : c.Compact
  inbound : c.inboundStream.WF
  reset : c.isRst = true → c.inboundStream.error = true

theorem InOrder.step {c c' : TCPConnection} (h : InOrder c) (hs : c.step call = .ok c') : InOrder c' :=
  ⟨h.tracked.step hs, h.compact.step h.tracked hs, TCPConnection.step_inbound_wf hs h.inbound,
    TCPConnection.step_reset hs h.reset⟩

/-- A connection that is over without a reset has reached the end of its inbound stream. -/
theorem InOrder.eof_of_inactive {c : TCPConnection} (h : InOrder c) (hover : c.active = false)
    (herror : c.inboundStream.error = false) : c.inboundStream.eof = true := by
  have hrst : ¬ c.isRst = true := fun hreset => absurd (herror.symm.trans (h.reset hreset)) Bool.false_ne_true
  rw [TCPConnection.active, if_neg hrst, Bool.not_eq_false', Bool.and_eq_true, Bool.and_eq_true] at hover
  exact hover.1.2

/-- The owner has been given everything, or the connection was reset. -/
def Over (inbound : ByteStream) : Prop := inbound.error = true ∨ (inbound.inputEnded = true ∧ inbound.contents = [])

theorem Over.step {c c' : TCPConnection} (h : Over c.inboundStream) (hs : c.step call = .ok c')
    (hseg : ∀ seg, call ≠ .segmentReceived seg) (hread : ∀ len, call ≠ .readInbound len) :
    Over c'.inboundStream := by
  rcases TCPConnection.step_inbound_same hs hseg hread with heq | heq
  · rw [heq]
    exact h
  · refine Or.inl ?_
    rw [heq]
    rfl

theorem Over.read {o : ByteStream} (h : Over o) (hwf : o.WF) (n : Nat) : Over (o.read n).1 := by
  rcases h with herror | ⟨hended, hnone⟩
  · exact Or.inl ((o.read_error n).trans herror)
  · refine Or.inr ⟨(o.read_isInputEnd n).trans hended, ?_⟩
    have hall := (hwf.read n).2.1
    rw [hnone] at hall
    exact (List.append_eq_nil_iff.mp hall.symm).2

/-- The outbound stream is ended by the owner only, when everything has been taken; and the owner is told of an end
that has been reached. -/
structure Sane (s : TCPSpongeSocket A) : Prop where
  conn : InOrder s.tcp
  pair : s.threadData.closed = false
  short : s.written.length < 2 ^ 31
  taken : s.taken ≤ s.written.length
  ended : s.tcp.sender.stream.inputEnded = true → s.outboundShutdown = true
  shut : s.outboundShutdown = true ∨ s.threadData.eof = true → s.outgoing = [] ∧ s.ownerDone = true
  told : s.inboundShutdown = true → Over s.tcp.inboundStream

/-- The state of the two sockets, seen from `x`. -/
structure Good (x : Side) (s p : TCPSpongeSocket A) (gone : Side → Nat) : Prop where
  between : ∃ F mine theirs, Between x s p gone F mine theirs
  here : Sane s
  there : Sane p

theorem Good.swap (h : Good x s p gone) : Good x.peer p s gone := by
  obtain ⟨F, mine, theirs, hb⟩ := h.between
  exact ⟨⟨F, theirs, mine, hb.swap⟩, h.there, h.here⟩

theorem Between.short (h : Between x s p gone F mine theirs) (hs : s.written.length < 2 ^ 31)
    (hp : p.written.length < 2 ^ 31) : F.net.Short := by
  intro y
  rcases x.eq_or_peer y with rfl | rfl
  · rw [h.here]
    exact Nat.lt_of_le_of_lt (List.length_take_le' _ _) hs
  · rw [h.there]
    exact Nat.lt_of_le_of_lt (List.length_take_le' _ _) hp

/-- The stream from the peer. -/
theorem Between.carries (h : Between x s p gone F mine theirs) (hs : s.written.length < 2 ^ 31)
    (hp : p.written.length < 2 ^ 31) : ∃ created, Carries (p.endpoint theirs) created (s.endpoint mine) := by
  obtain ⟨created, hc⟩ := FifoNetwork.carries_of_reach h.reach (h.short hs hp) x.peer
  rw [Side.peer_peer, h.here, h.there] at hc
  exact ⟨created, hc⟩

/-- What is over stays over: nothing can come behind the end of the peer's stream. -/
theorem Between.over (h : Between x s p gone F mine theirs) {F' : FifoNetwork} {mine' theirs' : List TCPSegment}
    (h' : Between x s' p gone' F' mine' theirs') (hs : s.written.length < 2 ^ 31) (hs' : s'.written.length < 2 ^ 31)
    (hp : p.written.length < 2 ^ 31) (hdelivered : s'.delivered = s.delivered)
    (hstep : s.tcp.step call = .ok s'.tcp) (hover : Over s.tcp.inboundStream) : Over s'.tcp.inboundStream := by
  rcases hover with herror | ⟨hended, hnone⟩
  · exact Or.inl (TCPConnection.step_inbound_error hstep herror)
  · refine Or.inr ⟨TCPConnection.step_inbound_ended hstep hended, ?_⟩
    obtain ⟨created, hc⟩ := h.carries hs hp
    obtain ⟨created', hc'⟩ := h'.carries hs' hp
    have hall : s.delivered ++ s.tcp.inboundStream.contents = p.written.take p.taken := (hc.ended hended).2
    have hpre : s'.delivered ++ s'.tcp.inboundStream.contents <+: p.written.take p.taken := hc'.delivered
    rw [hnone, List.append_nil] at hall
    rw [← hall, hdelivered] at hpre
    have hlen := hpre.length_le
    rw [List.length_append] at hlen
    exact List.eq_nil_of_length_eq_zero (by omega)

/-! ## What the rules do -/

/-- What a system call throws at the thread. -/
inductive KernelError (A : Type) [FdAdapter A] : Exception → Prop
  | poll : KernelError A EventLoop.pollError
  | device : KernelError A (.runtimeError (FdAdapter.attempt A ++ ": " ++ unavailable))
  | read (what : String) : KernelError A (.runtimeError ("read: " ++ what))
  | writev (what : String) : KernelError A (.runtimeError ("writev: " ++ what))
  | tookNothing : KernelError A (.runtimeError "write returned 0 given non-empty input buffer")
  | tookMore : KernelError A (.runtimeError "write wrote more than length of input buffer")

/-- A call that does not end the stream, and what else a rule of the device changes. -/
theorem Sane.device (h : Sane s) {adapter : A} {incoming : List (FdAdapter.Datagram A)} {reads : Nat} {eof acked : Bool}
    (hs' : s' = { s with
      tcp := s'.tcp
      datagramAdapter := adapter
      incoming := incoming
      deviceReads := reads
      deviceEof := eof
      fullyAcked := acked })
    (hconn : InOrder s'.tcp) (hended : s'.tcp.sender.stream.inputEnded = s.tcp.sender.stream.inputEnded)
    (htold : Over s.tcp.inboundStream → Over s'.tcp.inboundStream) : Sane s' := by
  refine ⟨hconn, ?_, ?_, ?_, ?_, ?_, ?_⟩
  · rw [hs']
    exact h.pair
  · rw [hs']
    exact h.short
  · rw [hs']
    exact h.taken
  · rw [hended, hs']
    exact h.ended
  · rw [hs']
    exact h.shut
  · intro hflag
    rw [hs'] at hflag
    exact htold (h.told hflag)

/-- The segment that is next is taken. -/
theorem Between.segment_returns (h : Between x s p gone F mine theirs) (hs : s.written.length < 2 ^ 31)
    (hp : p.written.length < 2 ^ 31) {seg : TCPSegment} {later : List TCPSegment}
    (hch : F.channel x.peer = seg :: later) : ∃ c, s.tcp.segmentReceived seg = .ok c := by
  obtain ⟨c, hc⟩ := FifoNetwork.delivery_returns h.reach (h.short hs hp) hch
  rw [Side.peer_peer, h.here] at hc
  obtain ⟨c', hc', -⟩ := map_ok.mp ((TCPConnection.segmentReceived_queued _ _ _).symm.trans hc)
  exact ⟨c', hc'⟩

/-- When the adapter returns no segment the network has lost it, and otherwise delivers it. -/
theorem Good.datagram_taken (h : Good x s p gone) (hs : s.readDatagram = .ok s') : Good x s' p gone := by
  obtain ⟨F, mine, theirs, hb⟩ := h.between
  obtain ⟨datagram, rest, result, adapter, hincoming, hread, htcp, acked, heq⟩ := readDatagram_ok hs
  obtain ⟨F', seg, hencodes, hb', ⟨later, hch⟩, hlen, hinto⟩ := hb.next hincoming
  obtain ⟨adapter', result', hread', hsent, halike⟩ := hencodes s.datagramAdapter
  obtain ⟨rfl, hresult⟩ := Prod.mk.inj (hread'.symm.trans hread)
  obtain rfl := Except.ok.inj hresult
  have hdevice : FdAdapter.sent s'.datagramAdapter = FdAdapter.sent s.datagramAdapter := by
    rw [heq]
    exact hsent
  have hleft : s'.incoming = rest := by rw [heq]
  have haccepted : s'.written.take s'.taken = s.written.take s.taken := by rw [heq]
  have hdelivered : s'.delivered = s.delivered := by rw [heq]
  have hshort : s'.written.length < 2 ^ 31 := by
    rw [heq]
    exact h.here.short
  rw [← hleft] at hinto
  cases result' with
  | none =>
    have hsame : s'.tcp = s.tcp := htcp
    have hlose : F'.step (.lose x.peer) = .ok (F'.leave x.peer) := by rw [FifoNetwork.step, hch]
    have hok : F'.allowed (.lose x.peer) := trivial
    refine ⟨⟨F'.leave x.peer, mine, theirs, hb'.read (.step hb'.reach hok hlose) ?_ ?_ rfl hlen hinto hdevice⟩,
      h.here.device heq (hsame ▸ h.here.conn) (by rw [hsame]) (by rw [hsame]; exact id), h.there⟩
    · rw [FifoNetwork.leave_net, hb'.here, endpoint, endpoint, hsame, haccepted, hdelivered]
    · rw [FifoNetwork.leave_net]
  | some seg' =>
    have hgot : s.tcp.segmentReceived seg' = .ok s'.tcp := htcp
    rw [TCPConnection.segmentReceived_alike (halike seg' rfl)] at hgot
    have hstep : s.tcp.step (.segmentReceived seg) = .ok s'.tcp := hgot
    have hdeliver : F'.step (.deliver x.peer)
        = .ok { F'.leave x.peer with net := F'.net.update x (s'.endpoint mine) } := by
      rw [FifoNetwork.step, hch]
      dsimp only
      rw [Side.peer_peer]
      refine map_ok.mpr ⟨_, map_ok.mpr ⟨_, ?_, rfl⟩, rfl⟩
      rw [hb'.here]
      exact endpoint_step hstep trivial haccepted hdelivered mine
    have hok : F'.allowed (.deliver x.peer) := trivial
    have hafter := hb'.read (.step hb'.reach hok hdeliver) (Network.endpoint_update _ _ _)
      (Network.endpoint_update_peer _ _ _) rfl hlen hinto hdevice
    refine ⟨⟨_, mine, theirs, hafter⟩, h.here.device heq (h.here.conn.step hstep) ?_ ?_, h.there⟩
    · exact TCPConnection.step_inputEnded h.here.conn.tracked hstep (by simp)
    · exact hb'.over hafter h.here.short hshort h.there.short hdelivered hstep

/-- Only the device throws. -/
theorem Good.datagram_thrown (h : Good x s p gone) {e : Exception} (he : s.readDatagram = .error e) :
    KernelError A e := by
  obtain ⟨F, mine, theirs, hb⟩ := h.between
  unfold TCPSpongeSocket.readDatagram at he
  cases hincoming : s.incoming with
  | nil =>
    rw [hincoming] at he
    obtain rfl := Except.error.inj he
    exact .device
  | cons datagram rest =>
    obtain ⟨F', seg, hencodes, hb', ⟨later, hch⟩, -⟩ := hb.next hincoming
    obtain ⟨adapter, result, hread, -, halike⟩ := hencodes s.datagramAdapter
    rw [hincoming] at he
    dsimp only at he
    rw [hread] at he
    cases result with
    | none => exact absurd he (by simp [Except.bind, Except.map])
    | some seg' =>
      obtain ⟨c, hc⟩ := hb'.segment_returns h.here.short h.there.short hch
      rw [← TCPConnection.segmentReceived_alike (halike seg' rfl)] at hc
      change (s.tcp.segmentReceived seg').map _ = _ at he
      rw [hc] at he
      exact absurd he (by simp [Except.map])

/-- **Rule 1.** -/
theorem Good.readDatagram (h : Good x s p gone) :
    Ends s.readDatagram (fun s' => Good x s' p gone) (KernelError A) :=
  Ends.intro (fun _ => h.datagram_taken) fun _ => h.datagram_thrown

/-- **The end of the outbound stream.** -/
theorem Good.endOutbound (h : Good x s p gone) (hdone : s.outgoing = [] ∧ s.ownerDone = true) :
    Ends s.endOutbound (fun s' => Good x s' p gone) (KernelError A) := by
  obtain ⟨F, mine, theirs, hb⟩ := h.between
  obtain ⟨tcp, htcp⟩ := h.here.conn.tracked.endInputStream_returns
  unfold TCPSpongeSocket.endOutbound
  rw [htcp]
  have hstep : s.tcp.step .endInputStream = .ok tcp := htcp
  have hok : F.allowed (.own x .endInputStream) := trivial
  have hendpoint : (s.endpoint mine).step .endInputStream
      = .ok (({ s with tcp := tcp, outboundShutdown := true } : TCPSpongeSocket A).endpoint mine) := by
    have hplain : Plain .endInputStream := trivial
    apply endpoint_step hstep hplain
    · rfl
    · rfl
  obtain ⟨F', hb'⟩ := hb.own hok hendpoint rfl rfl
  exact ⟨⟨F', mine, theirs, hb'⟩, ⟨h.here.conn.step hstep, h.here.pair, h.here.short, h.here.taken, fun _ => rfl,
    fun _ => hdone, fun hflag => (h.here.told hflag).step hstep (by simp) (by simp)⟩, h.there⟩

/-- **What a read of the pipe gets**: the next bytes, or none at the end. -/
theorem pipe_ok {t : Turn} {size : Nat} {data : Bytes} (h : s.pipe t size = .ok data) :
    data = s.outgoing.take data.length ∧ data.length ≤ size ∧
      (0 < size → data = [] → s.outgoing = [] ∧ s.ownerDone = true) := by
  unfold pipe at h
  split at h
  · exact absurd h (by simp)
  rename_i n _
  split at h
  · rename_i hnone
    split at h
    · rename_i hdone
      obtain rfl := Except.ok.inj h
      exact ⟨rfl, Nat.zero_le _, fun _ _ => ⟨List.isEmpty_iff.mp hnone, hdone⟩⟩
    · exact absurd h (by simp)
  · rename_i hsome
    obtain rfl := Except.ok.inj h
    refine ⟨?_, ?_, fun hsize hnil => ?_⟩
    · rw [List.length_take, ← List.take_eq_take_min]
    · rw [List.length_take]
      omega
    · rcases List.take_eq_nil_iff.mp hnil with hzero | hnil
      · omega
      · exact absurd (List.isEmpty_iff.mpr hnil) hsome

/-- **What was read is accepted**, all of it. -/
theorem Good.accept (h : Good x s p gone) (hopen : s.outboundShutdown = false) {data : Bytes} {threadData : FDWrapper}
    {tcp : TCPConnection} (hnext : data = s.outgoing.take data.length)
    (hwrite : s.tcp.write data = .ok (data.length, tcp)) (hclosed : threadData.closed = s.threadData.closed)
    (hover : threadData.eof = true → s.written.drop (s.taken + data.length) = [] ∧ s.ownerDone = true) :
    Good x { s with threadData := threadData, taken := s.taken + data.length, tcp := tcp } p gone := by
  obtain ⟨F, mine, theirs, hb⟩ := h.between
  have hstep : s.tcp.step (.write data) = .ok tcp := map_ok.mpr ⟨_, hwrite, rfl⟩
  have hinput : s.tcp.sender.stream.inputEnded = false := by
    by_contra hended
    rw [h.here.ended (eq_true_of_ne_false hended)] at hopen
    exact absurd hopen (by decide)
  have hlen : data.length ≤ s.outgoing.length := by
    rw [hnext, List.length_take]
    exact Nat.min_le_right _ _
  have haccepted : s.written.take (s.taken + data.length) = s.written.take s.taken ++ data := by
    rw [List.take_add, ← outgoing, ← hnext]
  have hok : F.allowed (.own x (.write data)) := by
    show (F.net.endpoint x).conn.sender.stream.inputEnded = false
    rw [hb.here]
    exact hinput
  have hendpoint : (s.endpoint mine).step (.write data) = .ok (({ s with
      threadData := threadData, taken := s.taken + data.length, tcp := tcp } : TCPSpongeSocket A).endpoint mine) := by
    apply endpoint_write hwrite haccepted
    rfl
  obtain ⟨F', hb'⟩ := hb.own hok hendpoint rfl rfl
  refine ⟨⟨F', mine, theirs, hb'⟩, ⟨h.here.conn.step hstep, hclosed.trans h.here.pair, h.here.short, ?_, ?_, ?_, ?_⟩,
    h.there⟩
  · have hleft : s.outgoing.length = s.written.length - s.taken := List.length_drop
    have htaken := h.here.taken
    show s.taken + data.length ≤ s.written.length
    omega
  · intro hended
    rw [TCPConnection.step_inputEnded h.here.conn.tracked hstep (by simp), hinput] at hended
    exact absurd hended (by decide)
  · rintro (hshut | hfinished)
    · exact absurd (hopen.symm.trans hshut) (by decide)
    · exact hover hfinished
  · exact fun hflag => (h.here.told hflag).step hstep (by simp) (by simp)

/-- **Rule 2.**  Everything that is read is accepted, and the outbound stream ends with the pipe. -/
theorem Good.readOwner (h : Good x s p gone) (hopen : s.outboundShutdown = false) (t : Turn) :
    Ends (s.readOwner t) (fun s' => Good x s' p gone) (KernelError A) := by
  have hwf := h.here.conn.tracked.wf
  unfold TCPSpongeSocket.readOwner
  refine Ends.bind (p := fun r => FileDescriptor.read s.threadData s.tcp.remainingOutboundCapacity
    (s.pipe t (min FileDescriptor.BUFFER_SIZE s.tcp.remainingOutboundCapacity)) = .ok r) ?_ ?_
  · refine Ends.intro (fun r hr => hr) fun e he => ?_
    rcases FileDescriptor.read_error he with ⟨what, -, rfl⟩ | ⟨bytes, hbytes, hlong, -⟩
    · exact .read what
    · have hle := (pipe_ok hbytes).2.1
      omega
  rintro ⟨data, threadData⟩ hread
  obtain ⟨hdata, hlimit, hclosed, -, -, heof⟩ := FileDescriptor.read_ok hread
  obtain ⟨hnext, -, hend⟩ := pipe_ok hdata
  -- the connection has room for what was read
  have hroom : (s.tcp.sender.stream.write data).1 = data.length := by
    have hcapacity : s.tcp.remainingOutboundCapacity = _ := hwf.remainingCapacity
    have hamount := (hwf.write data).2.1
    omega
  obtain ⟨tcp, hwrite⟩ := h.here.conn.tracked.write_returns data
  rw [hroom] at hwrite
  have hover : threadData.eof = true → s.written.drop (s.taken + data.length) = [] ∧ s.ownerDone = true := by
    intro hfinished
    have hnone : s.outgoing = [] ∧ s.ownerDone = true := by
      rcases heof.mp hfinished with hbefore | ⟨hpos, hnil⟩
      · exact h.here.shut (Or.inr hbefore)
      · exact hend (Nat.lt_min.mpr ⟨by decide, hpos⟩) hnil
    refine ⟨?_, hnone.2⟩
    rw [← List.drop_drop, ← outgoing, hnone.1, List.drop_nil]
  have hgood := h.accept hopen hnext hwrite hclosed hover
  dsimp only
  rw [hwrite]
  show Ends (if data.length ≠ data.length then _ else _) _ _
  rw [if_neg (not_not.mpr rfl)]
  apply Ends.ite
  · exact fun hfinished => hgood.endOutbound (hover hfinished)
  · exact fun _ => hgood

/-- What rule 3 writes is the next part of the inbound stream. -/
theorem written_next (hwf : s.tcp.inboundStream.WF) {t : Turn} {threadData : FDWrapper} {sent : Bytes} {n : Nat}
    (hwrite : FileDescriptor.write s.threadData
      [s.tcp.inboundStream.peeked (min 65536 s.tcp.inboundStream.bufferSize)] false (fun _ _ => t.writev)
      = (threadData, sent, .ok n)) :
    n ≤ s.tcp.inboundStream.contents.length ∧ n ≤ maxSize ∧ sent = s.tcp.inboundStream.removed n ∧
      threadData.closed = s.threadData.closed ∧ threadData.eof = s.threadData.eof := by
  obtain ⟨hpre, heof, hclosed, -, hreturn⟩ := FileDescriptor.write_spec hwrite
  obtain ⟨rfl, -, -⟩ := hreturn n rfl
  rw [List.flatten_singleton, hwf.peeked] at hpre
  have hwhole : sent <+: s.tcp.inboundStream.contents := hpre.trans <| List.take_prefix _ _
  have hshort : sent.length ≤ maxSize := by
    have hpiece := hpre.length_le
    rw [List.length_take, maxSize] at *
    omega
  refine ⟨hwhole.length_le, hshort, ?_, hclosed, heof⟩
  rw [ByteStream.removed_of_le _ hshort, hwf.peeked]
  exact List.prefix_iff_eq_take.mp hwhole

/-- What the kernel takes leaves the inbound stream. -/
theorem Good.bytes_written (h : Good x s p gone) {t : Turn} (hs : s.writeOwner t = .ok s') : Good x s' p gone := by
  obtain ⟨F, mine, theirs, hb⟩ := h.between
  have hwf := h.here.conn.inbound
  obtain ⟨threadData, sent, n, inbound, hwrite, hpop, heq⟩ := writeOwner_ok hs
  obtain ⟨hle, hshort, hsent, hclosed, heof⟩ := written_next hwf hwrite
  rw [ByteStream.popOutput_eq hwf.valid, if_pos hle] at hpop
  have hread : (s.tcp.inboundStream.read n).1 = inbound := by
    rw [ByteStream.read_eq hwf.valid hshort]
    exact (Prod.mk.inj hpop).1
  subst hread
  have hstep : s.tcp.step (.readInbound n) = .ok s'.tcp := by
    rw [heq]
    rfl
  have hok : F.allowed (.own x (.readInbound n)) := trivial
  have hendpoint : (s.endpoint mine).step (.readInbound n) = .ok (s'.endpoint mine) := by
    apply endpoint_read
    · exact (Except.ok.inj hstep).symm
    · rw [heq]
    · rw [heq, ← hsent]
  obtain ⟨F', hb'⟩ := hb.own hok hendpoint (by rw [heq]) (by rw [heq])
  refine ⟨⟨F', mine, theirs, hb'⟩, ⟨h.here.conn.step hstep, ?_, ?_, ?_, ?_, ?_, ?_⟩, h.there⟩
  all_goals rw [heq]
  · exact hclosed.trans h.here.pair
  · exact h.here.short
  · exact h.here.taken
  · exact h.here.ended
  · show s.outboundShutdown = true ∨ threadData.eof = true → _
    rw [heof]
    exact h.here.shut
  · intro hflag
    rw [Bool.or_eq_true, Bool.or_eq_true] at hflag
    rcases hflag with hbefore | hend | herror
    · exact (h.here.told hbefore).read hwf n
    · exact Or.inr ⟨ByteStream.inputEnded_of_eof hend, ByteStream.contents_of_eof hend⟩
    · exact Or.inl herror

/-- Only the kernel throws. -/
theorem Good.bytes_thrown (h : Good x s p gone) {t : Turn} {e : Exception} (he : s.writeOwner t = .error e) :
    KernelError A e := by
  have hwf := h.here.conn.inbound
  unfold TCPSpongeSocket.writeOwner at he
  dsimp only at he
  rw [s.tcp.inboundStream.peekOutput_min (by decide)] at he
  dsimp only [Except.bind] at he
  generalize hwrite : FileDescriptor.write s.threadData
    [s.tcp.inboundStream.peeked (min 65536 s.tcp.inboundStream.bufferSize)] false (fun _ _ => t.writev)
    = answer at he
  obtain ⟨threadData, sent, result⟩ := answer
  cases result with
  | error e' =>
    obtain rfl : e' = e := Except.error.inj he
    rcases FileDescriptor.writeLoop_error _ _ _ _ _ (congrArg (·.2.2) hwrite) with ⟨what, rfl⟩ | rfl | rfl
    · exact .writev what
    · exact .tookNothing
    · exact .tookMore
  | ok n =>
    obtain ⟨hle, -⟩ := written_next hwf hwrite
    dsimp only at he
    rw [ByteStream.popOutput_eq hwf.valid, if_pos hle] at he
    dsimp only at he
    split at he
    · exact absurd he (by simp)
    · exact absurd he (by simp)

/-- **Rule 3.** -/
theorem Good.writeOwner (h : Good x s p gone) (t : Turn) :
    Ends (s.writeOwner t) (fun s' => Good x s' p gone) (KernelError A) :=
  Ends.intro (fun _ => h.bytes_written) fun _ => h.bytes_thrown

/-- **Rule 4.** -/
theorem Good.sendDatagrams [Conveys A] (h : Good x s p gone) :
    Ends s.sendDatagrams (fun s' => Good x s' p gone) (KernelError A) := by
  obtain ⟨F, mine, theirs, hb⟩ := h.between
  obtain ⟨adapter, datagrams, hloop, hsent, hencode⟩ := sendLoop_sends h.here.conn.compact.out s.datagramAdapter
  unfold TCPSpongeSocket.sendDatagrams
  rw [hloop]
  refine ⟨⟨F, _, theirs, hb.send hsent hencode⟩, ⟨⟨h.here.conn.tracked, ?_, h.here.conn.inbound, h.here.conn.reset⟩,
    h.here.pair, h.here.short, h.here.taken, h.here.ended, h.here.shut, h.here.told⟩, h.there⟩
  exact ⟨List.forall_mem_nil _, h.here.conn.compact.sender⟩

/-- **Time goes by.** -/
theorem Good.tick [Conveys A] (h : Good x s p gone) (ms : Nat) : Good x { s with
    tcp := s.tcp.tick ms
    datagramAdapter := FdAdapter.tick s.datagramAdapter ms } p gone := by
  obtain ⟨F, mine, theirs, hb⟩ := h.between
  have hstep : s.tcp.step (.tick ms) = .ok (s.tcp.tick ms) := rfl
  have hok : F.allowed (.own x (.tick ms)) := trivial
  have hendpoint : (s.endpoint mine).step (.tick ms) = .ok (({ s with
      tcp := s.tcp.tick ms
      datagramAdapter := FdAdapter.tick s.datagramAdapter ms } : TCPSpongeSocket A).endpoint mine) := by
    have hplain : Plain (.tick ms) := trivial
    apply endpoint_step hstep hplain
    · rfl
    · rfl
  obtain ⟨F', hb'⟩ := hb.own hok hendpoint rfl (Conveys.tick s.datagramAdapter ms)
  refine ⟨⟨F', mine, theirs, hb'⟩, h.here.device rfl (h.here.conn.step hstep) ?_ ?_, h.there⟩
  · exact TCPConnection.step_inputEnded h.here.conn.tracked hstep (by simp)
  · exact fun hover => hover.step hstep (by simp) (by simp)

/-! ## A turn of the loop -/

/-- What rule 2 knows from the moment when it said that it is interested. -/
def Reading (rule : Rule (TCPSpongeSocket A × Turn) Fd) (interested : Bool) (s : TCPSpongeSocket A × Turn) : Prop :=
  interested = true → rule.fd = .threadData → rule.direction = .pollIn → s.1.outboundShutdown = false

theorem Reading.of_pollOut {rule : Rule (TCPSpongeSocket A × Turn) Fd} (h : rule.direction = .pollOut)
    (interested : Bool) (s : TCPSpongeSocket A × Turn) : Reading rule interested s := by
  intro _ _ hin
  rw [h] at hin
  exact absurd hin (by decide)

theorem Reading.of_device {rule : Rule (TCPSpongeSocket A × Turn) Fd} (h : rule.fd = .datagramAdapter)
    (interested : Bool) (s : TCPSpongeSocket A × Turn) : Reading rule interested s := by
  intro _ hpair _
  rw [h] at hpair
  exact absurd hpair (by decide)

/-- What a rule notes: that, and its want of interest. -/
structure Noted (rule : Rule (TCPSpongeSocket A × Turn) Fd) (interested : Bool) (s : TCPSpongeSocket A × Turn) :
    Prop where
  reading : Reading rule interested s
  idle : Idle rule interested s

/-- A rule that writes, and is cancelled silently, disturbs no rule before it. -/
theorem apart_pollOut {P : TCPSpongeSocket A × Turn → Prop} {r r' : Rule (TCPSpongeSocket A × Turn) Fd}
    (hout : r'.direction = .pollOut) (hcancel : r'.cancel = .ok) :
    EventLoop.Apart P (fun _ _ _ => True) Noted r r' := by
  refine ⟨fun _ s' _ _ => ⟨.of_pollOut hout _ s', .of_true _ s'⟩, ?_, fun _ _ _ _ h => h, fun _ _ _ _ h => h⟩
  intro s s' b _ hc hnoted
  rw [hcancel] at hc
  obtain rfl := Except.ok.inj hc
  exact hnoted

/-- Rule 1 leaves the outbound stream to rule 2. -/
theorem apart_reading {P : TCPSpongeSocket A × Turn → Prop} (hP : ∀ s, P s → Tracked s.1.tcp.sender) :
    EventLoop.Apart P (fun _ _ _ => True) Noted (rule1 (A := A)) rule2 := by
  refine ⟨?_, fun s s' b h hc hnoted => ⟨.of_device rfl b s', hnoted.idle.rule1_of_cancel (hP s h) hc⟩,
    fun _ _ _ _ h => h, fun _ _ _ _ h => h⟩
  rintro s s' ⟨-, -, ⟨-, hs⟩ | hs⟩ hnoted
  · refine ⟨fun _ hfd hin => ?_, .of_true _ s'⟩
    obtain ⟨s₁, hread, rfl⟩ := map_ok.mp hs
    obtain ⟨_, _, _, _, -, -, -, _, heq⟩ := readDatagram_ok hread
    have hsame : s₁.outboundShutdown = s.1.outboundShutdown := by rw [heq]
    exact hsame.trans (hnoted.reading rfl hfd hin)
  · obtain rfl : s = s' := Except.ok.inj hs
    exact hnoted

/-- **The rules of a socket whose peer is a socket are sound**, and what they throw comes from a system call. -/
theorem sound_good [Conveys A] : EventLoop.Sound fds (fun s => Good x s.1 p gone) (fun _ _ _ => True) Noted
    (fun rule => ¬ readsOwner rule = true) (KernelError A) (rules (A := A)) := by
  have hcallback : ∀ rule ∈ rules (A := A), ∀ s, Good x s.1 p gone → Reading rule true s →
      Ends (rule.callback s) (fun s' => Good x s'.1 p gone) (KernelError A) := by
    apply forall_rules
    · exact fun s hgood _ => hgood.readDatagram.map fun _ h => h
    · exact fun s hgood hreading => (hgood.readOwner (hreading rfl rfl rfl) s.2).map fun _ h => h
    · exact fun s hgood _ => (hgood.writeOwner s.2).map fun _ h => h
    · exact fun s hgood _ => hgood.sendDatagrams.map fun _ h => h
  have hreading : ∀ rule ∈ rules (A := A), ∀ s, Reading rule (rule.interest s) s := by
    apply forall_rules
    · exact fun s => .of_device rfl _ s
    · intro s hinterested _ _
      have hopen : (s.1.tcp.active && !s.1.outboundShutdown && decide (s.1.tcp.remainingOutboundCapacity > 0)) = true :=
        hinterested
      simp only [Bool.and_eq_true, Bool.not_eq_true'] at hopen
      exact hopen.1.2
    · exact fun s => .of_pollOut rfl _ s
    · exact fun s => .of_pollOut rfl _ s
  refine ⟨fun rule hrule s _ _ _ => ⟨hreading rule hrule s, fun hidle => hidle⟩, ?_, ?_, ?_⟩
  · intro rule hrule s hgood _ hnoted
    have hends := hcallback rule hrule s hgood hnoted.reading
    exact Ends.intro (fun s' hs => ⟨hends.ok hs, trivial, served rule hrule s s' hs⟩) fun e he => hends.error he
  · apply forall_rules
    · exact fun s hgood _ _ => ⟨hgood, trivial⟩
    · intro s hgood _ hgone
      have hdone : s.1.outgoing = [] ∧ s.1.ownerDone = true := by
        rcases hgone with (⟨-, heof⟩ | hclosed) | hother
        · exact hgood.here.shut (Or.inr heof)
        · exact absurd (hgood.here.pair.symm.trans hclosed) (by decide)
        · exact absurd rfl hother
      exact (hgood.endOutbound hdone).map fun _ h => ⟨h, trivial⟩
    · exact fun s hgood _ _ => ⟨hgood, trivial⟩
    · exact fun s hgood _ _ => ⟨hgood, trivial⟩
  · simp only [rules, List.pairwise_cons, List.mem_cons, List.not_mem_nil, or_false, forall_eq_or_imp, forall_eq,
      List.Pairwise.nil, and_true]
    have htracked : ∀ s : TCPSpongeSocket A × Turn, Good x s.1 p gone → Tracked s.1.tcp.sender :=
      fun _ hgood => hgood.here.conn.tracked
    exact ⟨⟨apart_reading htracked, apart_pollOut rfl rfl, apart_pollOut rfl rfl⟩,
      ⟨apart_pollOut rfl rfl, apart_pollOut rfl rfl⟩, apart_pollOut rfl rfl, fun _ hnone => hnone.elim⟩

/-! ## The end of the thread -/

/-- The owner's end is shut down when the thread has finished.  If the thread was not stopped, and has lost neither the
rule that reads the device nor the one that writes to the owner, then the owner has been told of the end before, unless
the connection was reset. -/
structure Ended (w : Running A) : Prop where
  phase : w.socket.mainShutdown = true → w.phase = .finished
  told : w.socket.mainShutdown = true → w.stopped = false → rule1 ∈ w.rules → rule3 ∈ w.rules →
    w.socket.tcp.inboundStream.error = false → w.socket.inboundShutdown = true

theorem Ended.of_running {w : Running A} (h : w.socket.mainShutdown = false) : Ended w :=
  ⟨fun hshut => absurd (h.symm.trans hshut) Bool.false_ne_true,
    fun hshut => absurd (h.symm.trans hshut) Bool.false_ne_true⟩

/-- When the two rules have no interest, the owner has been told. -/
theorem told_of_idle {t : Turn} (hconn : InOrder s.tcp) (h1 : rule1.interest (s, t) = false)
    (h3 : rule3.interest (s, t) = false) (herror : s.tcp.inboundStream.error = false) : s.inboundShutdown = true := by
  have heof := hconn.eof_of_inactive h1 herror
  have hshut := (Bool.or_eq_false_iff.mp h3).2
  rw [heof, Bool.true_or, Bool.true_and] at hshut
  simpa using hshut

/-- The rules leave the owner's end alone. -/
theorem rules_mainShutdown : ∀ rule ∈ rules (A := A), ∀ s s', rule.callback s = .ok s' ∨ rule.cancel s = .ok s' →
    s'.1.mainShutdown = s.1.mainShutdown := by
  apply forall_rules
  · rintro s s' (hs | hs)
    · obtain ⟨s₁, hread, rfl⟩ := map_ok.mp hs
      obtain ⟨_, _, _, _, -, -, -, _, heq⟩ := readDatagram_ok hread
      rw [heq]
    · obtain rfl := Except.ok.inj hs
      rfl
  · rintro s s' (hs | hs)
    · obtain ⟨s₁, hread, rfl⟩ := map_ok.mp hs
      obtain ⟨_, _, _, -, -, -, heq⟩ := readOwner_ok hread
      rw [heq]
    · obtain ⟨s₁, hend, rfl⟩ := map_ok.mp hs
      rw [(endOutbound_ok hend).2]
  · rintro s s' (hs | hs)
    · obtain ⟨s₁, hwrite, rfl⟩ := map_ok.mp hs
      obtain ⟨_, _, _, _, -, -, rfl⟩ := writeOwner_ok hwrite
      rfl
    · obtain rfl := Except.ok.inj hs
      rfl
  · rintro s s' (hs | hs)
    · obtain ⟨s₁, hsend, rfl⟩ := map_ok.mp hs
      obtain ⟨_, -, rfl⟩ := sendDatagrams_ok hsend
      rfl
    · obtain rfl := Except.ok.inj hs
      rfl

theorem Good.leave {w : Running A} (h : Good x w.socket p gone) (stopped : Bool) :
    Good x (leave w stopped).socket p gone ∧ (leave w stopped).rules = w.rules := by
  unfold TCPSpongeSocket.leave
  cases w.phase with
  | connecting | listening | finished => exact ⟨h, rfl⟩
  | main =>
    obtain ⟨⟨F, mine, theirs, hb⟩, hs, hp⟩ := h
    exact ⟨⟨⟨F, mine, theirs, hb.same rfl rfl rfl⟩,
      ⟨hs.conn, hs.pair, hs.short, hs.taken, hs.ended, hs.shut, hs.told⟩, hp⟩, rfl⟩

theorem Ended.leave {w : Running A} (h : Ended w) {stopped : Bool}
    (hdone : w.phase = .main → stopped = false → rule1 ∈ w.rules → rule3 ∈ w.rules →
      w.socket.tcp.inboundStream.error = false → w.socket.inboundShutdown = true) : Ended (leave w stopped) := by
  have hopen : w.phase ≠ .finished → w.socket.mainShutdown = false := fun hphase =>
    eq_false_of_ne_true fun hshut => hphase (h.phase hshut)
  unfold TCPSpongeSocket.leave
  cases hphase : w.phase with
  | connecting | listening => exact .of_running (hopen (by rw [hphase]; decide))
  | main => exact ⟨fun _ => rfl, fun _ => hdone hphase⟩
  | finished => exact h

/-- Rule 2 is not cancelled for a hangup: a pair that is hung up and polled for reading is reported as readable. -/
def hupReadable (w : Running A) (turn : Turn) : Bool := (hungUp w turn).all fun rule => !readsOwner rule

/-- **One turn.** -/
theorem Good.turn [Conveys A] {w : Running A} (h : Good x w.socket p gone) (hrules : w.rules.Sublist rules)
    (hended : Ended w) {t : Turn} (hpoll : hupReadable w t = true) :
    Ends (TCPSpongeSocket.turn w t) (fun w' => Good x w'.socket p gone ∧ w'.rules.Sublist rules ∧ Ended w')
      (KernelError A) := by
  have hhup : ∀ rule ∈ EventLoop.hungUp fds w.rules t.poll (w.socket, t), ¬ readsOwner rule = true := by
    intro rule hrule
    simpa using List.all_eq_true.mp hpoll rule hrule
  have hsound : EventLoop.Sound fds (fun s => Good x s.1 p gone) (fun _ _ _ => True) Noted
      (fun rule => ¬ readsOwner rule = true) (KernelError A) w.rules := sound_good.sublist hrules
  have hends := EventLoop.waitNextEvent_ends hsound (s := (w.socket, t)) h (fun _ _ => trivial) hhup
  unfold TCPSpongeSocket.turn
  apply Ends.ite
  · intro hcondition
    have hopen : w.socket.mainShutdown = false := by
      refine eq_false_of_ne_true fun hshut => ?_
      rw [hended.phase hshut] at hcondition
      exact absurd hcondition Bool.false_ne_true
    refine (hends.mono (fun _ h => h) ?_).map ?_
    · rintro e (hthrown | rfl)
      · exact hthrown
      · exact .poll
    · rintro ⟨result, rules', socket, t'⟩ ⟨⟨hgood, hsub, -, -, hkeeps⟩, hexit⟩
      have hstill : socket.mainShutdown = false := by
        refine hkeeps (fun s => s.1.mainShutdown = false) (fun rule hrule s s' hdoes hs => ?_) hopen
        refine (rules_mainShutdown rule (hrules.subset hrule) s s' ?_).trans hs
        exact hdoes.ran.imp_left And.right
      dsimp only
      split
      · rename_i hover
        have hleave := Good.leave (w := { w with rules := rules', socket := socket }) hgood
          (decide (t.poll = .interrupted) || t.abort)
        refine ⟨hleave.1, by rw [hleave.2]; exact hsub.trans hrules, Ended.leave (.of_running hstill) ?_⟩
        intro _ hstopped h1 h3 herror
        rw [Bool.or_eq_false_iff, decide_eq_false_iff_not] at hstopped
        have hout : result = .exit := hover.resolve_right (by rw [hstopped.2]; decide)
        have hidle := hexit hout hstopped.1
        exact told_of_idle hgood.here.conn ((hidle rule1 h1).idle rfl) ((hidle rule3 h3).idle rfl) herror
      · split
        · exact ⟨hgood.tick t.elapsed, hsub.trans hrules, .of_running hstill⟩
        · exact ⟨hgood, hsub.trans hrules, .of_running hstill⟩
  · intro hcondition
    have hleave := h.leave false
    refine ⟨hleave.1, by rw [hleave.2]; exact hrules, hended.leave fun hmain => absurd ?_ hcondition⟩
    rw [hmain]
    rfl

/-! ## The owners and the link -/

theorem Good.ownerWrites (h : Good x s p gone) (hopen : s.ownerDone = false) {data : Bytes}
    (hlen : s.written.length + data.length < 2 ^ 31) : Good x { s with written := s.written ++ data } p gone := by
  obtain ⟨F, mine, theirs, hb⟩ := h.between
  have haccepted : (s.written ++ data).take s.taken = s.written.take s.taken :=
    List.take_append_of_le_length h.here.taken
  refine ⟨⟨F, mine, theirs, hb.same ?_ rfl rfl⟩, ⟨h.here.conn, h.here.pair, ?_, ?_, h.here.ended, ?_, h.here.told⟩,
    h.there⟩
  · rw [endpoint, endpoint, haccepted]
  · show (s.written ++ data).length < 2 ^ 31
    rw [List.length_append]
    exact hlen
  · show s.taken ≤ (s.written ++ data).length
    rw [List.length_append]
    exact Nat.le_add_right_of_le h.here.taken
  · intro hshut
    exact absurd (hopen.symm.trans (h.here.shut hshut).2) (by decide)

theorem Good.ownerShutsDown (h : Good x s p gone) : Good x { s with ownerDone := true } p gone := by
  obtain ⟨F, mine, theirs, hb⟩ := h.between
  exact ⟨⟨F, mine, theirs, hb.same rfl rfl rfl⟩, ⟨h.here.conn, h.here.pair, h.here.short, h.here.taken, h.here.ended,
    fun hshut => ⟨(h.here.shut hshut).1, rfl⟩, h.here.told⟩, h.there⟩

/-- The oldest datagram from the peer has left the link, and this is what there is to read. -/
theorem Good.arrives (h : Good x s p gone) {datagram : FdAdapter.Datagram A} {rest : List (FdAdapter.Datagram A)}
    (hch : (FdAdapter.sent p.datagramAdapter).drop (gone x.peer) = datagram :: rest) (hhere : gone' x = gone x)
    (hthere : gone' x.peer = gone x.peer + 1) {incoming : List (FdAdapter.Datagram A)}
    (hsub : (incoming ++ rest).Sublist (s.incoming ++ datagram :: rest)) :
    Good x { s with incoming := incoming } p gone' := by
  obtain ⟨F, mine, theirs, hb⟩ := h.between
  have hlen := congrArg List.length hch
  rw [List.length_drop, List.length_cons] at hlen
  have hrest : (FdAdapter.sent p.datagramAdapter).drop (gone' x.peer) = rest := by
    rw [hthere, ← List.tail_drop, hch]
    rfl
  refine ⟨⟨F, mine, theirs, hb.reach, hb.here, hb.there, hb.leftHere, hb.leftThere, hhere ▸ hb.sentHere, ?_, ?_, ?_⟩,
    ⟨h.here.conn, h.here.pair, h.here.short, h.here.taken, h.here.ended, h.here.shut, h.here.told⟩, h.there⟩
  · rw [hthere]
    omega
  · rw [hhere]
    exact hb.out
  · rw [hrest]
    have hinto := hb.into
    rw [hch] at hinto
    exact sublistForall₂_of_sublist hsub hinto

/-! ## The start -/

/-- A socket with a new connection. -/
def fresh (config : TCPConfig) (random : WrappingInt32) (adapter : A) : TCPSpongeSocket A :=
  { tcp := TCPConnection.new config random, datagramAdapter := adapter }

theorem Sane.fresh (config : TCPConfig) (random : WrappingInt32) (adapter : A) : Sane (fresh config random adapter) :=
  ⟨⟨TCPConnection.Tracked.new _ _, TCPConnection.Compact.new _ _, ByteStream.WF.new _,
    fun h => absurd h Bool.false_ne_true⟩, rfl, Nat.two_pow_pos 31, Nat.le_refl _,
    fun h => absurd h Bool.false_ne_true, fun h => absurd h (by simp [TCPSpongeSocket.fresh]),
    fun h => absurd h Bool.false_ne_true⟩

theorem Good.fresh (config config' : TCPConfig) (random random' : WrappingInt32) {adapter adapter' : A}
    (hsent : FdAdapter.sent adapter = []) (hsent' : FdAdapter.sent adapter' = []) :
    Good .A (fresh config random adapter) (fresh config' random' adapter') fun _ => 0 := by
  refine ⟨⟨{ net := ⟨{ conn := .new config random }, { conn := .new config' random' }⟩ }, [], [], ?_⟩,
    .fresh _ _ _, .fresh _ _ _⟩
  refine ⟨.start ⟨⟨_, _, _, _, rfl⟩, rfl, rfl⟩, rfl, rfl, Nat.le_refl _, Nat.le_refl _, Nat.zero_le _, Nat.zero_le _,
    ?_, ?_⟩
  · show SublistForall₂ _ ([] ++ (FdAdapter.sent adapter).drop 0) _
    rw [hsent]
    exact .nil
  · show SublistForall₂ _ ([] ++ (FdAdapter.sent adapter').drop 0) _
    rw [hsent']
    exact .nil

/-- The socket listens, or its connection has been told to connect. -/
theorem Good.started {w : Running A} (hstart : Start w) : ∃ config random,
    w.rules = rules ∧ w.socket.mainShutdown = false ∧ ∀ {x : Side} {p : TCPSpongeSocket A} {gone : Side → Nat},
      Good x (TCPSpongeSocket.fresh config random w.socket.datagramAdapter) p gone → Good x w.socket p gone := by
  obtain ⟨config, random, adapter, hconnect | rfl⟩ := hstart
  · obtain ⟨tcp, htcp, hreturns⟩ := connect_returns config random adapter
    obtain rfl := Except.ok.inj (hreturns.symm.trans hconnect)
    refine ⟨config, random, rfl, rfl, fun {x p gone} h => ?_⟩
    obtain ⟨F, mine, theirs, hb⟩ := h.between
    have hstep : (TCPConnection.new config random).step .connect = .ok tcp := htcp
    have hok : F.allowed (.own x .connect) := trivial
    have hendpoint : ((TCPSpongeSocket.fresh config random adapter).endpoint mine).step .connect
        = .ok (({ tcp := tcp, datagramAdapter := adapter } : TCPSpongeSocket A).endpoint mine) := by
      have hplain : Plain .connect := trivial
      apply endpoint_step hstep hplain
      · rfl
      · rfl
    obtain ⟨F', hb'⟩ := hb.own hok hendpoint rfl rfl
    refine ⟨⟨F', mine, theirs, hb'⟩, h.here.device rfl (h.here.conn.step hstep) ?_ ?_, h.there⟩
    · exact TCPConnection.step_inputEnded h.here.conn.tracked hstep (by simp)
    · exact fun hover => hover.step hstep (by simp) (by simp)
  · exact ⟨config, random, rfl, rfl, fun h => h⟩

end TCPSpongeSocket

end Sponge
