/-
# `Sponge.SocketNetwork` — two sockets and their owners.

Two `TCPSpongeSocket`s over a link that loses datagrams but keeps their order.  Each runs its loop at its own pace, with
a kernel of its own, and each owner writes when it likes.  Every run of them is a run of the two connections of
`Sponge.FifoNetwork` (`sockets_refine`), so the owners get what they should: what one has been given is a prefix of what
the other has written, and when it is told of the end without an error, it has been given everything and the other has
finished (`owner_to_owner`).  The shutdown at the end of `_tcp_main` tells it so too, if nothing has stopped the thread
before its time; an owner whose thread was interrupted finds an end that is none (`interrupt_cuts_short`).  And the
threads have nothing to fear: what they throw comes from a system call (`only_kernel_throws`).
-/
import Sponge.SocketMirror

namespace Sponge

open Sponge.Lib
open TCPSpongeSocket (Ended Good KernelError rule1 rule3)

/-! ## The network -/

/-- Two sockets, and how much of what each has sent has left the link, delivered or lost. -/
structure SocketNetwork (A : Type) [FdAdapter A] where
  a : TCPSpongeSocket.Running A
  b : TCPSpongeSocket.Running A
  goneA : Nat := 0
  goneB : Nat := 0

namespace SocketNetwork

variable {A : Type} [FdAdapter A]

inductive Call (D : Type) where
  /-- A turn of the loop of `x`, or what its owner does. -/
  | own (x : Side) (call : TCPSpongeSocket.Call D)
  /-- The oldest datagram on its way from `x` arrives. -/
  | deliver (x : Side)
  /-- The oldest datagram on its way from `x` is lost. -/
  | lose (x : Side)

def side (w : SocketNetwork A) : Side → TCPSpongeSocket.Running A
  | .A => w.a
  | .B => w.b

def update (w : SocketNetwork A) (x : Side) (r : TCPSpongeSocket.Running A) : SocketNetwork A :=
  match x with
  | .A => { w with a := r }
  | .B => { w with b := r }

def gone (w : SocketNetwork A) : Side → Nat
  | .A => w.goneA
  | .B => w.goneB

def leave (w : SocketNetwork A) : Side → SocketNetwork A
  | .A => { w with goneA := w.goneA + 1 }
  | .B => { w with goneB := w.goneB + 1 }

/-- The datagrams on their way from `x`, the oldest first. -/
def channel (w : SocketNetwork A) (x : Side) : List (FdAdapter.Datagram A) :=
  (FdAdapter.sent (w.side x).socket.datagramAdapter).drop (w.gone x)

def step (w : SocketNetwork A) : Call (FdAdapter.Datagram A) → Except Exception (SocketNetwork A)
  | .own x call => (TCPSpongeSocket.step (w.side x) call).map (w.update x)
  | .deliver x => match w.channel x with
    | [] => .ok w
    | datagram :: _ => (TCPSpongeSocket.step (w.side x.peer) (.arrives datagram)).map ((w.leave x).update x.peer)
  | .lose x => match w.channel x with
    | [] => .ok w
    | _ :: _ => .ok (w.leave x)

/-- Each socket connects or listens, with an adapter that has sent nothing. -/
def Start (w : SocketNetwork A) : Prop :=
  (∀ x, TCPSpongeSocket.Start (w.side x) ∧ FdAdapter.sent (w.side x).socket.datagramAdapter = []) ∧
    w.goneA = 0 ∧ w.goneB = 0

/-- An owner writes less than `2^31` bytes in all; datagrams arrive over the link only; and a pair that is hung up is
readable. -/
def allowed (w : SocketNetwork A) : Call (FdAdapter.Datagram A) → Prop
  | .own x (.ownerWrites data) => (w.side x).socket.written.length + data.length < 2 ^ 31
  | .own _ (.arrives _) => False
  | .own x (.turn turn) => TCPSpongeSocket.hupReadable (w.side x) turn = true
  | _ => True

instance (w : SocketNetwork A) : DecidablePred (allowed w)
  | .own _ (.ownerWrites _) => inferInstanceAs (Decidable (_ < _))
  | .own _ (.arrives _) => inferInstanceAs (Decidable False)
  | .own _ (.turn _) => inferInstanceAs (Decidable (_ = true))
  | .own _ .ownerShutsDown | .deliver _ | .lose _ => isTrue trivial

variable {w w' : SocketNetwork A} {x : Side}

@[simp] theorem side_update (w : SocketNetwork A) (x : Side) (r : TCPSpongeSocket.Running A) :
    (w.update x r).side x = r := by cases x <;> rfl

@[simp] theorem side_update_peer (w : SocketNetwork A) (x : Side) (r : TCPSpongeSocket.Running A) :
    (w.update x r).side x.peer = w.side x.peer := by cases x <;> rfl

@[simp] theorem gone_update (w : SocketNetwork A) (x : Side) (r : TCPSpongeSocket.Running A) :
    (w.update x r).gone = w.gone := by
  funext y
  cases x <;> cases y <;> rfl

@[simp] theorem side_leave (w : SocketNetwork A) (x : Side) : (w.leave x).side = w.side := by
  funext y
  cases x <;> cases y <;> rfl

theorem gone_leave (w : SocketNetwork A) (x : Side) : (w.leave x).gone x = w.gone x + 1 := by cases x <;> rfl

theorem gone_leave_peer (w : SocketNetwork A) (x : Side) : (w.leave x).gone x.peer = w.gone x.peer := by
  cases x <;> rfl

/-! ## Every run -/

/-- What a socket keeps in its loop: no rule is added, and the end of the thread is noted. -/
structure Kept (r : TCPSpongeSocket.Running A) : Prop where
  rules : r.rules.Sublist TCPSpongeSocket.rules
  ended : Ended r

/-- The two sockets mirror two endpoints. -/
structure Inv (w : SocketNetwork A) : Prop where
  good : ∀ x, Good x (w.side x).socket (w.side x.peer).socket w.gone
  kept : ∀ x, Kept (w.side x)

/-- It is enough to look from one side. -/
theorem Inv.of_side (hgood : Good x (w.side x).socket (w.side x.peer).socket w.gone)
    (hkept : ∀ x, Kept (w.side x)) : Inv w := by
  refine ⟨fun y => ?_, hkept⟩
  rcases x.eq_or_peer y with rfl | rfl
  · exact hgood
  · have hswap := hgood.swap
    rw [Side.peer_peer]
    exact hswap

theorem Start.inv (h : Start w) : Inv w := by
  obtain ⟨hstart, hA, hB⟩ := h
  have hgone : w.gone = fun _ => 0 := by
    funext y
    cases y
    · exact hA
    · exact hB
  obtain ⟨config, random, hrules, hopen, hgood⟩ := Good.started (hstart .A).1
  obtain ⟨config', random', hrules', hopen', hgood'⟩ := Good.started (hstart .B).1
  have hfresh := Good.fresh config config' random random' (hstart .A).2 (hstart .B).2
  refine Inv.of_side (x := .A) ?_ ?_
  · rw [hgone]
    exact (hgood' (hgood hfresh).swap).swap
  · intro y
    cases y with
    | A => exact ⟨hrules ▸ List.Sublist.refl _, .of_running hopen⟩
    | B => exact ⟨hrules' ▸ List.Sublist.refl _, .of_running hopen'⟩

/-- A datagram leaves the link; `incoming` is what there is to read then. -/
theorem Inv.leaves (h : Inv w) {datagram : FdAdapter.Datagram A} {rest : List (FdAdapter.Datagram A)}
    (hch : w.channel x = datagram :: rest) {incoming : List (FdAdapter.Datagram A)}
    (hsub : (incoming ++ rest).Sublist ((w.side x.peer).socket.incoming ++ datagram :: rest)) :
    Inv ((w.leave x).update x.peer { w.side x.peer with
      socket := { (w.side x.peer).socket with incoming := incoming } }) := by
  have hgood := h.good x.peer
  rw [Side.peer_peer] at hgood
  have hafter := hgood.arrives (by rw [Side.peer_peer]; exact hch) (w.gone_leave_peer x)
    (by rw [Side.peer_peer]; exact w.gone_leave x) hsub
  refine Inv.of_side (x := x.peer) ?_ fun y => ?_
  · rw [side_update, side_update_peer, gone_update, side_leave, Side.peer_peer]
    exact hafter
  · rcases x.peer.eq_or_peer y with rfl | rfl
    · rw [side_update]
      exact ⟨(h.kept x.peer).rules, (h.kept x.peer).ended.phase, (h.kept x.peer).ended.told⟩
    · rw [side_update_peer, side_leave]
      exact h.kept _

variable [Conveys A]

/-- **One step keeps the mirror**, and what it throws comes from a system call. -/
theorem Inv.step (h : Inv w) {call : Call (FdAdapter.Datagram A)} (hok : w.allowed call) :
    Ends (w.step call) Inv (KernelError A) := by
  have hown : ∀ {x : Side} {r : TCPSpongeSocket.Running A}, Good x r.socket (w.side x.peer).socket w.gone →
      Kept r → Inv (w.update x r) := by
    intro x r hgood hkept
    refine Inv.of_side (x := x) ?_ fun y => ?_
    · rw [side_update, side_update_peer, gone_update]
      exact hgood
    · rcases x.eq_or_peer y with rfl | rfl
      · rw [side_update]
        exact hkept
      · rw [side_update_peer]
        exact h.kept _
  cases call with
  | own x call =>
    obtain ⟨hrules, hended⟩ := h.kept x
    cases call with
    | ownerWrites data =>
      rw [SocketNetwork.step, TCPSpongeSocket.step]
      by_cases hshut : ((w.side x).socket.ownerDone || (w.side x).socket.mainShutdown) = true
      · rw [if_pos hshut]
        exact .writev TCPSpongeSocket.brokenPipe
      · rw [if_neg hshut]
        have hopen := (Bool.or_eq_false_iff.mp (eq_false_of_ne_true hshut)).1
        exact hown ((h.good x).ownerWrites hopen hok) ⟨hrules, hended.phase, hended.told⟩
    | ownerShutsDown => exact hown (h.good x).ownerShutsDown ⟨hrules, hended.phase, hended.told⟩
    | arrives datagram => exact hok.elim
    | turn t => exact ((h.good x).turn hrules hended hok).map fun r hr => hown hr.1 ⟨hr.2.1, hr.2.2⟩
  | deliver x =>
    cases hch : w.channel x with
    | nil =>
      rw [SocketNetwork.step, hch]
      exact h
    | cons datagram rest =>
      rw [SocketNetwork.step, hch]
      refine h.leaves hch ?_
      rw [List.append_assoc]
      exact List.Sublist.refl _
  | lose x =>
    cases hch : w.channel x with
    | nil =>
      rw [SocketNetwork.step, hch]
      exact h
    | cons datagram rest =>
      rw [SocketNetwork.step, hch]
      have hinv := h.leaves hch ((List.sublist_cons_self datagram rest).append_left (w.side x.peer).socket.incoming)
      -- nothing arrives
      have hsame : (w.leave x).update x.peer (w.side x.peer) = w.leave x := by cases x <;> rfl
      rw [← hsame]
      exact hinv

theorem inv_of_reach (hr : Reach Start step allowed w) : Inv w :=
  Reach.invariant (fun _ h => h.inv) (fun _ _ _ h hok hs => (h.step hok).ok hs) hr

omit [Conveys A] in
/-- What an owner has been given is a prefix of what the other one has written. -/
theorem Inv.given (h : Inv w) (x : Side) : (w.side x.peer).socket.delivered <+: (w.side x).socket.written := by
  have hgood := h.good x.peer
  rw [Side.peer_peer] at hgood
  obtain ⟨F, mine, theirs, hb⟩ := hgood.between
  obtain ⟨created, hc⟩ := hb.carries hgood.here.short hgood.there.short
  have hpre : (w.side x.peer).socket.delivered ++ (w.side x.peer).socket.tcp.inboundStream.contents
      <+: (w.side x).socket.written.take (w.side x).socket.taken := hc.delivered
  exact ((List.prefix_append _ _).trans hpre).trans <| List.take_prefix _ _

omit [Conveys A] in
/-- An owner that has been told of the end, without an error, has been given everything. -/
theorem Inv.told (h : Inv w) (x : Side) (htold : (w.side x.peer).socket.inboundShutdown = true)
    (herror : (w.side x.peer).socket.tcp.inboundStream.error = false) :
    (w.side x.peer).socket.delivered = (w.side x).socket.written ∧ (w.side x).socket.ownerDone = true := by
  have hgood := h.good x.peer
  rw [Side.peer_peer] at hgood
  obtain ⟨F, mine, theirs, hb⟩ := hgood.between
  obtain ⟨created, hc⟩ := hb.carries hgood.here.short hgood.there.short
  rcases hgood.here.told htold with hreset | ⟨hended, hnone⟩
  · exact absurd (herror.symm.trans hreset) (by decide)
  · obtain ⟨hinput, hall⟩ := hc.ended hended
    obtain ⟨hempty, hdone⟩ := hgood.there.shut (Or.inl (hgood.there.ended hinput))
    have hreceived : (w.side x.peer).socket.delivered ++ (w.side x.peer).socket.tcp.inboundStream.contents
        = (w.side x).socket.written.take (w.side x).socket.taken := hall
    have hwhole : (w.side x).socket.written.take (w.side x).socket.taken = (w.side x).socket.written := by
      apply List.take_of_length_le
      exact List.drop_eq_nil_iff.mp hempty
    rw [hnone, List.append_nil, hwhole] at hreceived
    exact ⟨hreceived, hdone⟩

/-! ## A client and a server -/

/-- A client that connects and a server that listens, each with its adapter. -/
def between (client server : A) : SocketNetwork A where
  a :=
    { socket :=
        { tcp := (TCPConnection.new {} ⟨0⟩).connect.toOption.getD (.new {} ⟨0⟩)
          datagramAdapter := client }
      phase := .connecting }
  b := TCPSpongeSocket.listenAndAccept {} ⟨9⟩ server

omit [Conveys A] in
theorem between_start {client server : A} (hclient : FdAdapter.sent client = [])
    (hserver : FdAdapter.sent server = []) : Start (between client server) := by
  refine ⟨fun x => ?_, rfl, rfl⟩
  cases x with
  | A =>
    obtain ⟨tcp, htcp, hconnect⟩ := TCPSpongeSocket.connect_returns {} ⟨0⟩ client
    refine ⟨⟨_, _, _, Or.inl (hconnect.trans ?_)⟩, hclient⟩
    show _ = Except.ok (between client server).a
    rw [between, htcp]
    rfl
  | B => exact ⟨⟨_, _, _, Or.inr rfl⟩, hserver⟩

/-- A client at port 1 connects to a server that listens at port 2, over UDP. -/
def overUdp : SocketNetwork TCPOverUDPSocketAdapter :=
  between { config := { destination := { port := 2 } }, address := { port := 1 } }
    { listening := true, address := { port := 2 } }

theorem overUdp_start : Start overUdp := between_start rfl rfl

/-- The same, but the client loses the first segment that it sends. -/
def overLossyUdp : SocketNetwork (LossyFdAdapter TCPOverUDPSocketAdapter) :=
  between { adapter := overUdp.a.socket.datagramAdapter, lossRateUp := 1, rand := fun n => if n = 0 then 0 else 1 }
    { adapter := overUdp.b.socket.datagramAdapter, rand := fun _ => 0 }

theorem overLossyUdp_start : Start overLossyUdp := between_start rfl rfl

/-- The same over TUN devices. -/
def overTun : SocketNetwork TCPOverIPv4OverTunFdAdapter :=
  between { base := { config :=
      { source := { ipv4Numeric := 1, port := 1 }, destination := { ipv4Numeric := 2, port := 2 } } } }
    { base := { config := { source := { port := 2 } }, listening := true } }

theorem overTun_start : Start overTun := between_start rfl rfl

/-- A turn in which the descriptor of the `i`-th rule is readable. -/
def readable (i : Nat) : Turn := { poll := .ready (List.replicate i {} ++ [{ pollIn := true }]) }

/-- A turn in which everything can be written to; the pair takes one byte. -/
def writable : Turn := { poll := .ready (List.replicate 4 { pollOut := true }), writev := .ok 1 }

def reads {D : Type} (x : Side) (i : Nat) : Call D := .own x (.turn (readable i))

def writes {D : Type} (x : Side) : Call D := .own x (.turn writable)

/-- A signal comes while the loop of `x` waits. -/
def interrupts {D : Type} (x : Side) : Call D := .own x (.turn { poll := .interrupted })

/-- The handshake, one byte, and the end. -/
def oneByte {D : Type} : List (Call D) :=
  [writes .A, .deliver .A, reads .B 0, writes .B, .deliver .B, reads .A 0, .own .A (.ownerWrites [97]),
    .own .A .ownerShutsDown, reads .A 0, reads .A 1, reads .A 1, writes .A, .deliver .A, .deliver .A, .deliver .A,
    reads .B 0, reads .B 0, reads .B 0, reads .B 0, writes .B]

/-! ## The owners and the threads -/

/-- **Two sockets are two connections.**  For every run of two sockets there is one of two connections over channels
that lose segments but keep their order, with the same connections, but that nothing is taken out of
`segments_out()`: what has been given to the adapters is still there.  What the connections have accepted is what the
threads have taken from their owners, and what has been read from them is what the owners have been given.  And the
datagrams on their way, on the link and at its end, stand for some of the segments on their way, in order. -/
theorem sockets_refine (hr : Reach Start step allowed w) :
    ∃ F : FifoNetwork, Reach FifoNetwork.Start FifoNetwork.step FifoNetwork.allowed F ∧ F.net.Short ∧
      ∀ x, ∃ handed : List TCPSegment,
        (F.net.endpoint x).conn = { (w.side x).socket.tcp with
          segmentsOut := handed ++ (w.side x).socket.tcp.segmentsOut } ∧
        (F.net.endpoint x).accepted = (w.side x).socket.written.take (w.side x).socket.taken ∧
        (F.net.endpoint x).consumed = (w.side x).socket.delivered ∧
        List.SublistForall₂ (FdAdapter.Encodes A) ((w.side x.peer).socket.incoming ++ w.channel x)
          (handed.drop (F.gone x)) := by
  have hgood := (inv_of_reach hr).good .A
  obtain ⟨F, mine, theirs, hb⟩ := hgood.between
  refine ⟨F, hb.reach, hb.short hgood.here.short hgood.there.short, fun x => ?_⟩
  cases x with
  | A => exact ⟨mine, by rw [hb.here]; rfl, by rw [hb.here]; rfl, by rw [hb.here]; rfl, hb.out⟩
  | B =>
    have hthere : F.net.endpoint .B = (w.side .B).socket.endpoint theirs := hb.there
    exact ⟨theirs, by rw [hthere]; rfl, by rw [hthere]; rfl, by rw [hthere]; rfl, hb.into⟩

/-- The SYN is lost and sent again; then the server gives its owner the byte, and so does its connection. -/
theorem sockets_refine_byte : ∃ (w : SocketNetwork (LossyFdAdapter TCPOverUDPSocketAdapter)) (F : FifoNetwork),
    Reach Start step allowed w ∧ w.b.socket.delivered = [97] ∧
    Reach FifoNetwork.Start FifoNetwork.step FifoNetwork.allowed F ∧ F.net.b.consumed = [97] := by
  obtain ⟨w, hr, htest⟩ : ∃ w : SocketNetwork (LossyFdAdapter TCPOverUDPSocketAdapter),
      Reach Start step allowed w ∧ decide (w.b.socket.delivered = [97]) = true :=
    Reach.exec_any _ (s := overLossyUdp) (l := .own .A (.turn { writable with elapsed := 1000 }) :: oneByte)
      (.start overLossyUdp_start) (by decide +kernel)
  obtain ⟨F, hF, -, hsides⟩ := sockets_refine hr
  obtain ⟨-, -, -, hconsumed, -⟩ := hsides .B
  have hgiven : w.b.socket.delivered = [97] := of_decide_eq_true htest
  exact ⟨w, F, hr, hgiven, hF, hconsumed.trans hgiven⟩

/-- **From owner to owner.**  In every run of two sockets, whatever the link loses, whatever the kernels do and however
the turns of the two loops follow one another, what an owner has been given is a prefix of what the other one has
written.  And when it finds the end and the stream has no error, it has been given everything, and the other one has
shut down: the end is that of the inbound stream, or the thread has finished and was not stopped, and has lost neither
the rule that reads the device nor the one that writes to the owner. -/
theorem owner_to_owner (hr : Reach Start step allowed w) (x : Side) :
    (w.side x.peer).socket.delivered <+: (w.side x).socket.written ∧
    ((w.side x.peer).socket.inboundShutdown = true ∨
        ((w.side x.peer).socket.mainShutdown = true ∧ (w.side x.peer).stopped = false ∧
          rule1 ∈ (w.side x.peer).rules ∧ rule3 ∈ (w.side x.peer).rules) →
      (w.side x.peer).socket.tcp.inboundStream.error = false →
      (w.side x.peer).socket.delivered = (w.side x).socket.written ∧ (w.side x).socket.ownerDone = true) := by
  have h := inv_of_reach hr
  refine ⟨h.given x, fun hend herror => ?_⟩
  rcases hend with htold | ⟨hshut, hstopped, h1, h3⟩
  · exact h.told x htold herror
  · exact h.told x ((h.kept x.peer).ended.told hshut hstopped h1 h3 herror) herror

/-- The byte has arrived, and the end. -/
theorem owner_to_owner_byte : ∃ w : SocketNetwork TCPOverIPv4OverTunFdAdapter, Reach Start step allowed w ∧
    w.b.socket.inboundShutdown = true ∧ w.b.socket.delivered = [97] ∧ w.a.socket.ownerDone = true := by
  obtain ⟨w, hr, htest⟩ : ∃ w : SocketNetwork TCPOverIPv4OverTunFdAdapter, Reach Start step allowed w ∧
      (w.b.socket.inboundShutdown && !w.b.socket.tcp.inboundStream.error
        && decide (w.a.socket.written = [97])) = true :=
    Reach.exec_any _ (s := overTun) (l := oneByte) (.start overTun_start) (by decide +kernel)
  simp only [Bool.and_eq_true, Bool.not_eq_true', decide_eq_true_eq] at htest
  obtain ⟨⟨htold, herror⟩, hwritten⟩ := htest
  obtain ⟨hall, hdone⟩ := (owner_to_owner hr .A).2 (Or.inl htold) herror
  exact ⟨w, hr, htold, hall.trans hwritten, hdone⟩

/-- **A signal cuts the stream short**: the byte is still on its way when the loop of the server is interrupted, and its
owner finds the end of a stream without an error. -/
theorem interrupt_cuts_short : ∃ w : SocketNetwork TCPOverUDPSocketAdapter, Reach Start step allowed w ∧
    w.b.socket.mainShutdown = true ∧ w.b.socket.tcp.inboundStream.error = false ∧ w.b.socket.delivered = [] ∧
    w.a.socket.written = [97] := by
  obtain ⟨w, hr, htest⟩ : ∃ w : SocketNetwork TCPOverUDPSocketAdapter, Reach Start step allowed w ∧
      (w.b.socket.mainShutdown && !w.b.socket.tcp.inboundStream.error && decide (w.b.socket.delivered = [])
        && decide (w.a.socket.written = [97])) = true :=
    Reach.exec_any _ (s := overUdp)
      (l := [writes .A, .deliver .A, reads .B 0, writes .B, .deliver .B, reads .A 0, .own .A (.ownerWrites [97]),
        reads .A 0, reads .A 1, writes .A, .deliver .A, reads .B 0, interrupts .B, interrupts .B])
      (.start overUdp_start) (by decide +kernel)
  simp only [Bool.and_eq_true, Bool.not_eq_true', decide_eq_true_eq] at htest
  obtain ⟨⟨⟨hshut, herror⟩, hnone⟩, hwritten⟩ := htest
  exact ⟨w, hr, hshut, herror, hnone, hwritten⟩

end SocketNetwork

end Sponge
