/-
# `Sponge.CopyNetwork` — from the input of one program to the output of the other.

The programs `tcp_udp`, `tcp_ipv4` and `tcp_ip_ethernet` connect a `TCPSpongeSocket` and then run
`bidirectional_stream_copy` on it.  Two of them make a system of four threads: on each host the program copies between
its input, its output and its end of the pair of connected sockets, and the thread of the socket moves the bytes
between the pair and the link.  The pair is the one of `Sponge.SpongeSocket`: what the program writes to it is what the
thread finds written, and what the program reads from it is what the thread has delivered.  A turn of a loop is one
step, and the turns of the four loops and the losses of the link follow one another in any order.

What has come out of one program is a prefix of what has gone into the other; and when the output is closed after the
end of the socket has been read, the connection has not been reset and the thread not been stopped, it is everything
(`input_to_output`).
-/
import Sponge.SocketNetwork
import Sponge.StreamCopyRuns

namespace Sponge

open Sponge.Lib
open TCPSpongeSocket (rule1 rule3)

/-! ## The network -/

/-- Two sockets, with the programs that own them. -/
structure CopyNetwork (A : Type) [FdAdapter A] where
  net : SocketNetwork A
  a : StreamCopy.Running := {}
  b : StreamCopy.Running := {}

namespace CopyNetwork

variable {A : Type} [FdAdapter A]

inductive Call where
  /-- A turn of the program at `x`; `read` is how many bytes after the first one a read of the socket gets. -/
  | copy (x : Side) (turn : CopyTurn) (read : Except String Nat)
  /-- A turn of the thread at `x`. -/
  | thread (x : Side) (turn : Turn)
  | deliver (x : Side)
  | lose (x : Side)

def program (w : CopyNetwork A) : Side → StreamCopy.Running
  | .A => w.a
  | .B => w.b

def update (w : CopyNetwork A) (x : Side) (p : StreamCopy.Running) : CopyNetwork A :=
  match x with
  | .A => { w with a := p }
  | .B => { w with b := p }

/-- What a read of at most `size` bytes gets from the thread: something, if there is something. -/
def pair (w : CopyNetwork A) (x : Side) (read : Except String Nat) (size : Nat) : Except String Bytes :=
  match read with
  | .error what => .error what
  | .ok n =>
    let left := (w.net.side x).socket.delivered.drop (w.program x).copy.fromSocket.length
    if left.isEmpty then
      if (w.net.side x).socket.inboundShutdown || (w.net.side x).socket.mainShutdown then .ok []
      else .error TCPSpongeSocket.unavailable
    else .ok (left.take (min size (n + 1)))

/-- The turn, with the socket read from the pair. -/
def joined (w : CopyNetwork A) (x : Side) (turn : CopyTurn) (read : Except String Nat) : CopyTurn :=
  { turn with readSocket := fun n size =>
      if n = (w.program x).copy.socket.readCount then w.pair x read size
      else .error TCPSpongeSocket.unavailable }

/-- What the program has written to the socket reaches the pair, and so does its shutdown. -/
def hand (w : CopyNetwork A) (x : Side) (p : StreamCopy.Running) : Except Exception (SocketNetwork A) :=
  let data := p.copy.toSocket.drop (w.program x).copy.toSocket.length
  (if data.isEmpty then .ok w.net else w.net.step (.own x (.ownerWrites data))).bind fun net =>
    if p.copy.outboundShutdown then net.step (.own x .ownerShutsDown) else .ok net

def step (w : CopyNetwork A) : Call → Except Exception (CopyNetwork A)
  | .copy x turn read => (StreamCopy.turn (w.program x) (w.joined x turn read)).bind fun p =>
      (w.hand x p).map fun net => { w with net := net }.update x p
  | .thread x turn => (w.net.step (.own x (.turn turn))).map fun net => { w with net := net }
  | .deliver x => (w.net.step (.deliver x)).map fun net => { w with net := net }
  | .lose x => (w.net.step (.lose x)).map fun net => { w with net := net }

def Start (w : CopyNetwork A) : Prop := SocketNetwork.Start w.net ∧ ∀ x, StreamCopy.Start (w.program x)

/-- A program reads less than `2^31` bytes from its input in all, and a pair that is hung up is readable for the
thread. -/
def allowed (w : CopyNetwork A) : Call → Prop
  | .copy x turn read => (StreamCopy.turn (w.program x) (w.joined x turn read)).toOption.all
      (fun p => decide (p.copy.fromInput.length < 2 ^ 31)) = true
  | .thread x turn => TCPSpongeSocket.hupReadable (w.net.side x) turn = true
  | .deliver _ | .lose _ => True

instance (w : CopyNetwork A) : DecidablePred (allowed w)
  | .copy _ _ _ | .thread _ _ => inferInstanceAs (Decidable (_ = true))
  | .deliver _ | .lose _ => isTrue trivial

/-! ## A program and its socket -/

/-- The two ends of the pair: what the program has written is what the thread finds, and what it has read is what the
thread has delivered. -/
structure Joined (c : StreamCopy) (s : TCPSpongeSocket A) : Prop where
  written : s.written = c.toSocket
  done : s.ownerDone = c.outboundShutdown
  received : c.fromSocket <+: s.delivered
  ended : c.socket.eof = true → (s.inboundShutdown = true ∨ s.mainShutdown = true) ∧
    (s.tcp.inboundStream.error = false → c.fromSocket = s.delivered)

section Thread

variable {s s' : TCPSpongeSocket A}

/-- What a thread leaves as it is, and what is for good. -/
structure Onward (s s' : TCPSpongeSocket A) : Prop where
  written : s'.written = s.written
  done : s'.ownerDone = s.ownerDone
  delivered : s.delivered <+: s'.delivered
  told : s.inboundShutdown = true → s'.inboundShutdown = true
  reset : s.tcp.inboundStream.error = true → s'.tcp.inboundStream.error = true

theorem Onward.refl (s : TCPSpongeSocket A) : Onward s s := ⟨rfl, rfl, List.prefix_rfl, id, id⟩

theorem Onward.trans {s'' : TCPSpongeSocket A} (h : Onward s s') (h' : Onward s' s'') : Onward s s'' :=
  ⟨h'.written.trans h.written, h'.done.trans h.done, h.delivered.trans h'.delivered, h'.told ∘ h.told,
    h'.reset ∘ h.reset⟩

/-- A call of the connection does not take back a reset. -/
theorem calls_error {c c' : TCPConnection} (h : TCPSpongeSocket.Calls c c') (herror : c.inboundStream.error = true) :
    c'.inboundStream.error = true := by
  obtain ⟨call, hs⟩ := h
  exact TCPConnection.step_inbound_error hs herror

theorem endOutbound_onward (h : s.endOutbound = .ok s') : Onward s s' := by
  obtain ⟨hend, heq⟩ := TCPSpongeSocket.endOutbound_ok h
  have herror := calls_error ⟨.endInputStream, hend⟩
  rw [heq]
  exact ⟨rfl, rfl, List.prefix_rfl, id, herror⟩

theorem readDatagram_onward (h : s.readDatagram = .ok s') : Onward s s' := by
  obtain ⟨datagram, rest, result, adapter, -, -, htcp, acked, heq⟩ := TCPSpongeSocket.readDatagram_ok h
  have herror : s.tcp.inboundStream.error = true → s'.tcp.inboundStream.error = true := by
    cases result with
    | some seg => exact calls_error ⟨.segmentReceived seg, htcp⟩
    | none => exact fun he => htcp.symm ▸ he
  rw [heq]
  exact ⟨rfl, rfl, List.prefix_rfl, id, herror⟩

theorem readOwner_onward {t : Turn} (h : s.readOwner t = .ok s') : Onward s s' := by
  obtain ⟨data, threadData, tcp, -, hwrite, hend, heq⟩ := TCPSpongeSocket.readOwner_ok h
  have hwritten := calls_error ⟨.write data, map_ok.mpr ⟨_, hwrite, rfl⟩⟩
  have herror : s.tcp.inboundStream.error = true → s'.tcp.inboundStream.error = true := by
    intro he
    split at hend
    · exact calls_error ⟨.endInputStream, hend⟩ (hwritten he)
    · exact hend.symm ▸ hwritten he
  rw [heq]
  exact ⟨rfl, rfl, List.prefix_rfl, id, herror⟩

theorem popOutput_error (stream : ByteStream) (n : Nat) : (stream.popOutput n).1.error = stream.error := by
  unfold ByteStream.popOutput
  split <;> rfl

theorem writeOwner_onward {t : Turn} (h : s.writeOwner t = .ok s') : Onward s s' := by
  obtain ⟨threadData, taken, n, inbound, -, hpop, rfl⟩ := TCPSpongeSocket.writeOwner_ok h
  refine ⟨rfl, rfl, List.prefix_append _ _, fun htold => ?_, fun he => ?_⟩
  · show (s.inboundShutdown || _) = true
    rw [htold]
    rfl
  · have hsame : (s.tcp.inboundStream.popOutput n).1.error = s.tcp.inboundStream.error := popOutput_error _ n
    rw [hpop] at hsame
    exact hsame.trans he

theorem sendDatagrams_onward (h : s.sendDatagrams = .ok s') : Onward s s' := by
  obtain ⟨adapter, -, rfl⟩ := TCPSpongeSocket.sendDatagrams_ok h
  exact ⟨rfl, rfl, List.prefix_rfl, id, id⟩

theorem leave_onward (w : TCPSpongeSocket.Running A) (stopped : Bool) :
    Onward w.socket (TCPSpongeSocket.leave w stopped).socket := by
  unfold TCPSpongeSocket.leave
  cases w.phase with
  | connecting | listening | finished => exact .refl _
  | main => exact ⟨rfl, rfl, List.prefix_rfl, id, id⟩

/-- **A turn of the thread.** -/
theorem turn_onward {w w' : TCPSpongeSocket.Running A} (hrules : w.rules.Sublist TCPSpongeSocket.rules) {t : Turn}
    (h : TCPSpongeSocket.turn w t = .ok w') : Onward w.socket w'.socket := by
  have hkeeps : ∀ rule ∈ TCPSpongeSocket.rules (A := A), ∀ s s' : TCPSpongeSocket A × Turn,
      rule.callback s = .ok s' ∨ rule.cancel s = .ok s' → Onward w.socket s.1 → Onward w.socket s'.1 := by
    apply TCPSpongeSocket.forall_rules
    · rintro s s' (hs | hs) ho
      · obtain ⟨s₁, hread, rfl⟩ := map_ok.mp hs
        exact ho.trans (readDatagram_onward hread)
      · obtain rfl := Except.ok.inj hs
        exact ho
    · rintro s s' (hs | hs) ho
      · obtain ⟨s₁, hread, rfl⟩ := map_ok.mp hs
        exact ho.trans (readOwner_onward hread)
      · obtain ⟨s₁, hend, rfl⟩ := map_ok.mp hs
        exact ho.trans (endOutbound_onward hend)
    · rintro s s' (hs | hs) ho
      · obtain ⟨s₁, hwrite, rfl⟩ := map_ok.mp hs
        exact ho.trans (writeOwner_onward hwrite)
      · obtain rfl := Except.ok.inj hs
        exact ho
    · rintro s s' (hs | hs) ho
      · obtain ⟨s₁, hsend, rfl⟩ := map_ok.mp hs
        exact ho.trans (sendDatagrams_onward hsend)
      · obtain rfl := Except.ok.inj hs
        exact ho
  unfold TCPSpongeSocket.turn at h
  split at h
  · obtain ⟨⟨result, rules', socket, t'⟩, hwait, rfl⟩ := map_ok.mp h
    have hon : Onward w.socket socket := EventLoop.waitNextEvent_keeps (R := fun s => Onward w.socket s.1)
      (fun rule hrule => hkeeps rule (hrules.subset hrule)) hwait (.refl _)
    dsimp only
    split
    · exact hon.trans (leave_onward { w with rules := rules', socket := socket } _)
    · split
      · exact ⟨hon.written, hon.done, hon.delivered, hon.told,
          fun he => calls_error ⟨.tick t.elapsed, rfl⟩ (hon.reset he)⟩
      · exact hon
  · obtain rfl := Except.ok.inj h
    exact leave_onward w false

end Thread

/-! ## Every run -/

section Runs

variable {w w' : CopyNetwork A} {x : Side}

@[simp] theorem program_update (w : CopyNetwork A) (x : Side) (p : StreamCopy.Running) :
    (w.update x p).program x = p := by cases x <;> rfl

@[simp] theorem program_update_peer (w : CopyNetwork A) (x : Side) (p : StreamCopy.Running) :
    (w.update x p).program x.peer = w.program x.peer := by cases x <;> rfl

@[simp] theorem net_update (w : CopyNetwork A) (x : Side) (p : StreamCopy.Running) : (w.update x p).net = w.net := by
  cases x <;> rfl

structure Inv (w : CopyNetwork A) : Prop where
  net : Reach SocketNetwork.Start SocketNetwork.step SocketNetwork.allowed w.net
  program : ∀ x, StreamCopy.Working (w.program x)
  short : ∀ x, (w.program x).copy.fromInput.length < 2 ^ 31
  pairs : ∀ x, Joined (w.program x).copy (w.net.side x).socket

theorem Start.inv (h : Start w) : Inv w := by
  obtain ⟨hnet, hprograms⟩ := h
  refine ⟨.start hnet, fun x => .start (hprograms x), fun x => ?_, fun x => ?_⟩
  · rw [hprograms x]
    exact Nat.two_pow_pos 31
  · rw [hprograms x]
    obtain ⟨config, random, adapter, hconnect | hlisten⟩ := (hnet.1 x).1
    · obtain ⟨tcp, htcp, hreturns⟩ := TCPSpongeSocket.connect_returns config random adapter
      rw [← Except.ok.inj (hreturns.symm.trans hconnect)]
      exact ⟨rfl, rfl, List.prefix_rfl, fun heof => absurd heof Bool.false_ne_true⟩
    · rw [hlisten]
      exact ⟨rfl, rfl, List.prefix_rfl, fun heof => absurd heof Bool.false_ne_true⟩

/-- What the program has written since it last did is written to the pair. -/
theorem Inv.hand_data (h : Inv w) {p : StreamCopy.Running}
    (hlen : p.copy.toSocket.length < 2 ^ 31) {data : Bytes}
    (hdata : (w.program x).copy.toSocket ++ data = p.copy.toSocket) {net : SocketNetwork A}
    (hnet : (if data.isEmpty then .ok w.net else w.net.step (.own x (.ownerWrites data))) = .ok net) :
    Reach SocketNetwork.Start SocketNetwork.step SocketNetwork.allowed net ∧
      net.side x.peer = w.net.side x.peer ∧
      (net.side x).socket = { (w.net.side x).socket with written := p.copy.toSocket } := by
  have hpair := h.pairs x
  split at hnet
  · rename_i hnone
    obtain rfl := Except.ok.inj hnet
    rw [List.isEmpty_iff.mp hnone, List.append_nil] at hdata
    refine ⟨h.net, rfl, ?_⟩
    rw [← hdata, ← hpair.written]
  · have hok : w.net.allowed (.own x (.ownerWrites data)) := by
      show (w.net.side x).socket.written.length + data.length < 2 ^ 31
      rw [hpair.written, ← List.length_append, hdata]
      exact hlen
    have hreach := Reach.step h.net hok hnet
    obtain ⟨r, hwrites, rfl⟩ := map_ok.mp hnet
    rw [TCPSpongeSocket.step] at hwrites
    split at hwrites
    · exact absurd hwrites (by simp [systemCall])
    · obtain rfl := Except.ok.inj hwrites
      refine ⟨hreach, SocketNetwork.side_update_peer _ _ _, ?_⟩
      rw [SocketNetwork.side_update]
      show { (w.net.side x).socket with written := (w.net.side x).socket.written ++ data } = _
      rw [hpair.written, hdata]

/-- **The pair takes what the program writes.**  These are calls that an owner makes. -/
theorem Inv.hand (h : Inv w) {t : CopyTurn} {p : StreamCopy.Running} (hturn : StreamCopy.turn (w.program x) t = .ok p)
    (hshort : p.copy.fromInput.length < 2 ^ 31) {net : SocketNetwork A} (hhand : w.hand x p = .ok net) :
    Reach SocketNetwork.Start SocketNetwork.step SocketNetwork.allowed net ∧
      net.side x.peer = w.net.side x.peer ∧ (net.side x).socket = { (w.net.side x).socket with
        written := p.copy.toSocket
        ownerDone := p.copy.outboundShutdown } := by
  have hbefore := h.program x
  obtain ⟨data, hdata⟩ := hbefore.sends hturn
  have hafter := (hbefore.turn t).ok hturn |>.1
  have hlen : p.copy.toSocket.length < 2 ^ 31 := by
    have horder := congrArg List.length hafter.inv.outward.order
    rw [List.length_append] at horder
    omega
  have hdrop : p.copy.toSocket.drop (w.program x).copy.toSocket.length = data := by
    rw [← hdata, List.drop_left]
  rw [CopyNetwork.hand, hdrop] at hhand
  -- the data first
  obtain ⟨net₁, hnet₁, hrest⟩ := bind_ok.mp hhand
  obtain ⟨hreach₁, hpeer₁, hside₁⟩ := h.hand_data hlen hdata hnet₁
  cases hshut : p.copy.outboundShutdown with
  | true =>
    rw [hshut, if_pos rfl] at hrest
    have hok : net₁.allowed (.own x .ownerShutsDown) := trivial
    have hreach := Reach.step hreach₁ hok hrest
    obtain rfl := Except.ok.inj hrest
    refine ⟨hreach, ?_, ?_⟩
    · rw [SocketNetwork.side_update_peer]
      exact hpeer₁
    · rw [SocketNetwork.side_update]
      show { (net₁.side x).socket with ownerDone := true } = _
      rw [hside₁]
  | false =>
    rw [hshut, if_neg Bool.false_ne_true] at hrest
    obtain rfl := Except.ok.inj hrest
    refine ⟨hreach₁, hpeer₁, ?_⟩
    have hopen : (w.net.side x).socket.ownerDone = false := by
      rw [(h.pairs x).done]
      by_contra hbefore'
      have hstill := ((hbefore.onward hturn).1 (eq_true_of_ne_false hbefore')).1
      exact absurd (hshut.symm.trans hstill) Bool.false_ne_true
    rw [hside₁, ← hopen]

/-- What a read of the pair gets is what comes next, and nothing only at the end. -/
theorem pair_ok {read : Except String Nat} {size : Nat} {data : Bytes} (h : w.pair x read size = .ok data) :
    data <+: (w.net.side x).socket.delivered.drop (w.program x).copy.fromSocket.length ∧
    (0 < size → data = [] →
      ((w.net.side x).socket.inboundShutdown = true ∨ (w.net.side x).socket.mainShutdown = true) ∧
      (w.net.side x).socket.delivered.length ≤ (w.program x).copy.fromSocket.length) := by
  unfold pair at h
  split at h
  · exact absurd h (by simp)
  rename_i n
  dsimp only at h
  split at h
  · rename_i hnone
    split at h
    · rename_i htold
      obtain rfl := Except.ok.inj h
      rw [List.isEmpty_iff, List.drop_eq_nil_iff] at hnone
      exact ⟨List.nil_prefix, fun _ _ => ⟨(Bool.or_eq_true _ _).mp htold, hnone⟩⟩
    · exact absurd h (by simp)
  · rename_i hsome
    obtain rfl := Except.ok.inj h
    refine ⟨List.take_prefix _ _, fun hsize hnone => absurd ?_ hsome⟩
    rw [List.isEmpty_iff]
    exact (List.take_eq_nil_iff.mp hnone).resolve_left (by omega)

/-- **The program reads what the thread has delivered.** -/
theorem Inv.received (h : Inv w) {t : CopyTurn} {read : Except String Nat} {p : StreamCopy.Running}
    (hturn : StreamCopy.turn (w.program x) (w.joined x t read) = .ok p) :
    p.copy.fromSocket <+: (w.net.side x).socket.delivered ∧
    (p.copy.socket.eof = true →
      ((w.net.side x).socket.inboundShutdown = true ∨ (w.net.side x).socket.mainShutdown = true) ∧
      ((w.net.side x).socket.tcp.inboundStream.error = false →
        p.copy.fromSocket = (w.net.side x).socket.delivered)) := by
  have hpair := h.pairs x
  have hsource : ∀ n size data, (w.joined x t read).readSocket n size = .ok data →
      n = (w.program x).copy.socket.readCount := by
    intro n size data hanswer
    by_contra hlater
    change (if n = _ then _ else _) = _ at hanswer
    rw [if_neg hlater] at hanswer
    exact absurd hanswer (by simp)
  rcases (h.program x).receives hturn hsource with ⟨-, hfrom, heof⟩ | ⟨-, size, data, hanswer, hfrom, heof⟩
  · rw [hfrom, heof]
    exact ⟨hpair.received, hpair.ended⟩
  · change (if _ then _ else _) = _ at hanswer
    rw [if_pos rfl] at hanswer
    obtain ⟨hnext, hend⟩ := pair_ok hanswer
    have hpre : p.copy.fromSocket <+: (w.net.side x).socket.delivered := by
      rw [hfrom]
      obtain ⟨rest, hrest⟩ := hpair.received
      rw [← hrest, List.drop_left] at hnext
      rw [← hrest]
      exact (List.prefix_append_right_inj _).mpr hnext
    refine ⟨hpre, fun hover => ?_⟩
    have hwhole : ((w.net.side x).socket.inboundShutdown = true ∨ (w.net.side x).socket.mainShutdown = true) ∧
        ((w.net.side x).socket.tcp.inboundStream.error = false →
          (w.program x).copy.fromSocket = (w.net.side x).socket.delivered) := by
      rcases heof hover with hbefore | ⟨hsize, hnone⟩
      · exact hpair.ended hbefore
      · obtain ⟨htold, hall⟩ := hend hsize hnone
        exact ⟨htold, fun _ => hpair.received.eq_of_length_le hall⟩
    refine ⟨hwhole.1, fun herror => hpre.eq_of_length_le ?_⟩
    rw [hfrom, List.length_append, hwhole.2 herror]
    exact Nat.le_add_right _ _

/-- **A turn of a program.** -/
theorem Inv.copy (h : Inv w) {t : CopyTurn} {read : Except String Nat} (hok : w.allowed (.copy x t read))
    (hs : w.step (.copy x t read) = .ok w') : Inv w' := by
  obtain ⟨p, hturn, hs⟩ := bind_ok.mp hs
  obtain ⟨net, hhand, rfl⟩ := map_ok.mp hs
  have hshort : p.copy.fromInput.length < 2 ^ 31 := by
    rw [allowed, hturn] at hok
    exact of_decide_eq_true hok
  obtain ⟨hreach, hpeer, hside⟩ := h.hand hturn hshort hhand
  obtain ⟨hreceived, hended⟩ := h.received hturn
  have hworking := ((h.program x).turn (w.joined x t read)).ok hturn |>.1
  refine ⟨by rw [net_update]; exact hreach, fun y => ?_, fun y => ?_, fun y => ?_⟩
  all_goals rcases x.eq_or_peer y with rfl | rfl
  · rw [program_update]
    exact hworking
  · rw [program_update_peer]
    exact h.program _
  · rw [program_update]
    exact hshort
  · rw [program_update_peer]
    exact h.short _
  · rw [program_update, net_update]
    show Joined p.copy (net.side _).socket
    rw [hside]
    exact ⟨rfl, rfl, hreceived, hended⟩
  · rw [program_update_peer, net_update]
    show Joined (w.program x.peer).copy (net.side x.peer).socket
    rw [hpeer]
    exact h.pairs _

/-- A datagram that arrives or is lost concerns neither end of a pair. -/
theorem link_joined {call : SocketNetwork.Call (FdAdapter.Datagram A)} {net : SocketNetwork A}
    (hcall : call = .deliver x ∨ call = .lose x) (hs : w.net.step call = .ok net) (y : Side) {c : StreamCopy}
    (h : Joined c (w.net.side y).socket) : Joined c (net.side y).socket := by
  rcases hcall with rfl | rfl
  · rw [SocketNetwork.step] at hs
    split at hs
    · obtain rfl := Except.ok.inj hs
      exact h
    · obtain rfl := Except.ok.inj hs
      rcases x.peer.eq_or_peer y with rfl | rfl
      · rw [SocketNetwork.side_update]
        exact ⟨h.written, h.done, h.received, h.ended⟩
      · rw [SocketNetwork.side_update_peer, SocketNetwork.side_leave]
        exact h
  · rw [SocketNetwork.step] at hs
    split at hs
    · obtain rfl := Except.ok.inj hs
      exact h
    · obtain rfl := Except.ok.inj hs
      rw [SocketNetwork.side_leave]
      exact h

variable [Conveys A]

/-- **A turn of a thread.**  Once the program has read the end, the thread delivers nothing more, unless the connection
is reset. -/
theorem Inv.thread (h : Inv w) {t : Turn} (hok : w.allowed (.thread x t)) (hs : w.step (.thread x t) = .ok w') :
    Inv w' := by
  obtain ⟨net, hnet, rfl⟩ := map_ok.mp hs
  have hok' : w.net.allowed (.own x (.turn t)) := hok
  have hreach : Reach SocketNetwork.Start SocketNetwork.step SocketNetwork.allowed net := .step h.net hok' hnet
  refine ⟨hreach, h.program, h.short, fun y => ?_⟩
  show Joined (w.program y).copy (net.side y).socket
  obtain ⟨r, hturn, rfl⟩ := map_ok.mp hnet
  have hkept := (SocketNetwork.inv_of_reach h.net).kept x
  have hon := turn_onward hkept.rules hturn
  have hpair := h.pairs y
  rcases x.eq_or_peer y with rfl | rfl
  · by_cases hshut : (w.net.side y).socket.mainShutdown = true
    · -- the thread has finished, and does nothing
      obtain rfl := Except.ok.inj ((TCPSpongeSocket.turn_finished (hkept.ended.phase hshut) t).symm.trans hturn)
      rw [SocketNetwork.side_update]
      exact hpair
    have hpeer : ((w.net.update y r).side y.peer).socket = (w.net.side y.peer).socket := by
      rw [SocketNetwork.side_update_peer]
    have hbefore := (SocketNetwork.inv_of_reach h.net).told y.peer
    have hafter := (SocketNetwork.inv_of_reach hreach).told y.peer
    rw [Side.peer_peer] at hbefore hafter
    rw [hpeer] at hafter
    rw [SocketNetwork.side_update] at hafter ⊢
    refine ⟨hon.written.trans hpair.written, hon.done.trans hpair.done, hpair.received.trans hon.delivered,
      fun heof => ?_⟩
    obtain ⟨hend, hwhole⟩ := hpair.ended heof
    have htold := hend.resolve_right hshut
    refine ⟨Or.inl (hon.told htold), fun herror => ?_⟩
    have herror' : (w.net.side y).socket.tcp.inboundStream.error = false := by
      by_contra hreset
      exact absurd (herror.symm.trans (hon.reset (eq_true_of_ne_false hreset))) Bool.false_ne_true
    rw [hwhole herror', (hbefore htold herror').1]
    exact ((hafter (hon.told htold) herror).1).symm
  · rw [SocketNetwork.side_update_peer]
    exact hpair

theorem Inv.step (h : Inv w) {call : Call} (hok : w.allowed call) (hs : w.step call = .ok w') : Inv w' := by
  cases call with
  | copy x t read => exact h.copy hok hs
  | thread x t => exact h.thread hok hs
  | deliver x =>
    obtain ⟨net, hnet, rfl⟩ := map_ok.mp hs
    have hok' : w.net.allowed (.deliver x) := trivial
    exact ⟨.step h.net hok' hnet, h.program, h.short, fun y => link_joined (Or.inl rfl) hnet y (h.pairs y)⟩
  | lose x =>
    obtain ⟨net, hnet, rfl⟩ := map_ok.mp hs
    have hok' : w.net.allowed (.lose x) := trivial
    exact ⟨.step h.net hok' hnet, h.program, h.short, fun y => link_joined (Or.inr rfl) hnet y (h.pairs y)⟩

/-- **From input to output.**  In every run of two programs over two sockets, whatever the link loses, whatever the
kernels do and however the turns of the four loops follow one another: what has come out of a program is a prefix of
what has gone into the other.  And when a program has closed its output after it has read the end of the socket, and the
connection has not been reset, everything that went into the other has come out, and the other has shut down: the end
is that of the inbound stream, or the thread was not stopped and has lost neither the rule that reads the device nor
the one that writes to the program. -/
theorem input_to_output (hr : Reach Start step allowed w) (x : Side) :
    (w.program x.peer).copy.toOutput <+: (w.program x).copy.fromInput ∧
    ((w.program x.peer).copy.closes = 1 → (w.program x.peer).copy.socket.eof = true →
      (w.net.side x.peer).socket.inboundShutdown = true ∨
        ((w.net.side x.peer).stopped = false ∧ rule1 ∈ (w.net.side x.peer).rules ∧
          rule3 ∈ (w.net.side x.peer).rules) →
      (w.net.side x.peer).socket.tcp.inboundStream.error = false →
      (w.program x.peer).copy.toOutput = (w.program x).copy.fromInput ∧ (w.program x).copy.shutdowns = 1) := by
  have h : Inv w := Reach.invariant (fun _ h => h.inv) (fun _ _ _ h hok hs => h.step hok hs) hr
  have hsockets := SocketNetwork.inv_of_reach h.net
  have hhere := (h.program x).inv
  have hthere := (h.program x.peer).inv
  refine ⟨?_, fun hcloses heof hreason herror => ?_⟩
  · -- output, socket, pair, link, pair, socket, input
    have hout : (w.program x.peer).copy.toOutput <+: (w.program x.peer).copy.fromSocket :=
      hthere.inward.order ▸ List.prefix_append _ _
    have hread := (h.pairs x.peer).received
    have hlink := hsockets.given x
    have hin : (w.program x).copy.toSocket <+: (w.program x).copy.fromInput :=
      hhere.outward.order ▸ List.prefix_append _ _
    rw [(h.pairs x).written] at hlink
    exact ((hout.trans hread).trans hlink).trans hin
  · have hclosed : (w.program x.peer).copy.inboundShutdown = true := by
      rw [hthere.closes] at hcloses
      exact Bool.toNat_eq_one.mp hcloses
    obtain ⟨hend, hwhole⟩ := (h.pairs x.peer).ended heof
    have htold : (w.net.side x.peer).socket.inboundShutdown = true := by
      rcases hend with htold | hshut
      · exact htold
      · rcases hreason with htold | ⟨hstopped, h1, h3⟩
        · exact htold
        · exact (hsockets.kept x.peer).ended.told hshut hstopped h1 h3 herror
    obtain ⟨hall, hdone⟩ := hsockets.told x htold herror
    rw [(h.pairs x).done] at hdone
    refine ⟨?_, by rw [hhere.shutdowns, hdone]; rfl⟩
    have hout := hthere.inward.order
    have hin := hhere.outward.order
    rw [(hthere.inward.complete hclosed).1, List.append_nil] at hout
    rw [(hhere.outward.complete hdone).1, List.append_nil] at hin
    rw [← hout, hwhole herror, hall, (h.pairs x).written, ← hin]

theorem overUdp_start : Start { net := SocketNetwork.overUdp } := by
  refine ⟨SocketNetwork.overUdp_start, fun x => ?_⟩
  cases x <;> rfl

open SocketNetwork (readable writable)

/-- The handshake; a byte of the input, which ends, at the client; and then what the threads and the link do to bring
both to the output of the server: the byte has come out, and the output is closed. -/
theorem input_to_output_byte : ∃ w : CopyNetwork TCPOverUDPSocketAdapter, Reach Start step allowed w ∧
    w.b.copy.closes = 1 ∧ w.b.copy.toOutput = [97] ∧ w.a.copy.shutdowns = 1 := by
  obtain ⟨w, hr, htest⟩ : ∃ w : CopyNetwork TCPOverUDPSocketAdapter, Reach Start step allowed w ∧
      (decide (w.b.copy.closes = 1) && w.b.copy.socket.eof && w.net.b.socket.inboundShutdown
        && !w.net.b.socket.tcp.inboundStream.error && decide (w.a.copy.fromInput = [97])) = true :=
    Reach.exec_any _ (s := { net := SocketNetwork.overUdp })
      (l := [.thread .A writable, .deliver .A, .thread .B (readable 0), .thread .B writable, .deliver .B,
        .thread .A (readable 0),
        .copy .A { poll := .ready [{ pollIn := true }], readInput := fun _ _ => .ok [97] } (.ok 0),
        .copy .A { poll := .ready [{ pollHup := true }, { pollOut := true }], writeSocket := .ok 1 } (.ok 0),
        .thread .A (readable 0), .thread .A (readable 1), .thread .A (readable 1), .thread .A writable,
        .deliver .A, .deliver .A, .deliver .A, .thread .B (readable 0), .thread .B (readable 0),
        .thread .B (readable 0), .thread .B (readable 0), .thread .B writable,
        .copy .B { poll := .ready [{}, {}, { pollIn := true }] } (.ok 0),
        .copy .B { poll := .ready [{}, {}, { pollIn := true }, { pollOut := true }], writeOutput := .ok 1 } (.ok 0)])
      (.start overUdp_start) (by decide +kernel)
  simp only [Bool.and_eq_true, Bool.not_eq_true', decide_eq_true_eq] at htest
  obtain ⟨⟨⟨⟨hcloses, heof⟩, htold⟩, herror⟩, hinput⟩ := htest
  obtain ⟨hall, hshut⟩ := (input_to_output hr .A).2 hcloses heof (Or.inl htold) herror
  exact ⟨w, hr, hcloses, hall.trans hinput, hshut⟩

end Runs

end CopyNetwork

end Sponge
