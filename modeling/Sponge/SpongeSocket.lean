/-
# `Sponge.SpongeSocket` — the thread that runs a connection.

Models `TCPSpongeSocket` of `tcp_helpers/tcp_sponge_socket.{hh,cc}`, over any adapter: the four rules of
`_initialize_TCP`, the loop `_tcp_loop`, and its three uses in `connect`, `listen_and_accept` and `_tcp_main`.

The owner of the socket is at the other end of a pair of connected sockets.  Of this pair the model has what the owner
has written, how much of it the thread has read, and what the thread has written.  The kernel's part in one turn of
the loop is a `Turn`: what `poll` reports, how much a read and a write of the pair get, and how much time goes by.
A read of a device with nothing to read fails, as that of a non-blocking one does.  The texts for debugging are left
out, and of the destructor the flag that it sets.

When the loop of `_tcp_main` is over, however it ended, the owner's end of the pair is shut down in both directions: the
owner finds the end behind what it has been given, and can write no more.  The connection is destroyed then, and nothing
looks at it; the model leaves it as the loop has left it.

The loop ends for one of four reasons: a signal, the flag, an exception, or want of interest.  In the last case the
thread has done its work (`finishes_clean`), whatever segments have arrived: the connection is over, everything it
had to send has been given to the adapter, and everything it has received to the owner.  The rules of the device and
the writing rule of the pair must not have been cancelled, for the end of the device or for a hangup.
-/
import Sponge.EventLoop
import Sponge.FdAdapter
import Sponge.TcpState

namespace Sponge

open Sponge.Lib

/-! ## The source functions -/

/-- `TCPSpongeSocket`, with the other ends of its two descriptors. -/
structure TCPSpongeSocket (A : Type) [FdAdapter A] where
  tcp : TCPConnection
  datagramAdapter : A
  threadData : FDWrapper := {}
  inboundShutdown : Bool := false
  outboundShutdown : Bool := false
  fullyAcked : Bool := false
  /-- The device of the adapter: what can be read from it, how often it has been read, whether to its end. -/
  incoming : List (FdAdapter.Datagram A) := []
  deviceReads : Nat := 0
  deviceEof : Bool := false
  /-- What the owner has written, and how much of it the thread has read. -/
  written : Bytes := []
  taken : Nat := 0
  ownerDone : Bool := false
  /-- What the thread has written for the owner. -/
  delivered : Bytes := []
  /-- `_tcp_main` has shut down the owner's end in both directions. -/
  mainShutdown : Bool := false

/-- What the kernel does in one turn of the loop, and the flag `_abort` at its end.  `read` is how many bytes after
the first one a read of the pair gets. -/
structure Turn where
  poll : PollResult
  read : Except String Nat := .ok 0
  writev : Except String Nat := .ok 0
  elapsed : Nat := 0
  abort : Bool := false

namespace TCPSpongeSocket

variable {A : Type} [FdAdapter A]

inductive Fd where
  | datagramAdapter
  | threadData
  deriving DecidableEq, Repr

def fds (s : TCPSpongeSocket A × Turn) : Fd → FDWrapper
  | .datagramAdapter =>
    { eof := s.1.deviceEof
      readCount := s.1.deviceReads
      writeCount := (FdAdapter.sent s.1.datagramAdapter).length }
  | .threadData => s.1.threadData

/-- `EAGAIN`. -/
def unavailable : String := "Resource temporarily unavailable"

/-- What the owner has written and the thread has not read. -/
def outgoing (s : TCPSpongeSocket A) : Bytes := s.written.drop s.taken

/-- What a read of at most `size` bytes gets from the owner: something, if there is something. -/
def pipe (s : TCPSpongeSocket A) (turn : Turn) (size : Nat) : Except String Bytes :=
  match turn.read with
  | .error what => .error what
  | .ok n =>
    if s.outgoing.isEmpty then if s.ownerDone then .ok [] else .error unavailable
    else .ok (s.outgoing.take (min size (n + 1)))

/-- The callback of rule 1: read from filtered packet stream and dump into `TCPConnection`. -/
def readDatagram (s : TCPSpongeSocket A) : Except Exception (TCPSpongeSocket A) :=
  match s.incoming with
  | [] => systemCall (FdAdapter.attempt A) (.error unavailable)
  | datagram :: rest =>
    let (adapter, result) := FdAdapter.read s.datagramAdapter datagram
    let s := { s with
      datagramAdapter := adapter
      incoming := rest
      deviceReads := s.deviceReads + 1
      deviceEof := s.deviceEof || FdAdapter.atEof datagram }
    result.bind fun seg =>
      (match seg with
        | some seg => s.tcp.segmentReceived seg
        | none => .ok s.tcp).map fun tcp =>
          { s with
            tcp := tcp
            fullyAcked := if s.threadData.eof && decide (tcp.bytesInFlight = 0) && !s.fullyAcked then true
              else s.fullyAcked }

/-- The end of the outbound stream: the cancel function of rule 2. -/
def endOutbound (s : TCPSpongeSocket A) : Except Exception (TCPSpongeSocket A) :=
  s.tcp.endInputStream.map fun tcp => { s with tcp := tcp, outboundShutdown := true }

/-- The callback of rule 2: read from pipe into outbound buffer. -/
def readOwner (s : TCPSpongeSocket A) (turn : Turn) : Except Exception (TCPSpongeSocket A) :=
  let limit := s.tcp.remainingOutboundCapacity
  (FileDescriptor.read s.threadData limit (s.pipe turn (min FileDescriptor.BUFFER_SIZE limit))).bind
    fun (data, threadData) =>
      let s := { s with threadData := threadData, taken := s.taken + data.length }
      (s.tcp.write data).bind fun (amountWritten, tcp) =>
        if amountWritten ≠ data.length then
          .error (.runtimeError "TCPConnection::write() accepted less than advertised length")
        else if threadData.eof then { s with tcp := tcp }.endOutbound
        else .ok { s with tcp := tcp }

/-- A connection whose `inbound_stream()` has been changed. -/
def withInbound (tcp : TCPConnection) (inbound : ByteStream) : TCPConnection :=
  { tcp with receiver := { tcp.receiver with reassembler := { tcp.receiver.reassembler with output := inbound } } }

/-- The callback of rule 3: read from inbound buffer into pipe. -/
def writeOwner (s : TCPSpongeSocket A) (turn : Turn) : Except Exception (TCPSpongeSocket A) :=
  let inbound := s.tcp.inboundStream
  let amountToWrite := min 65536 inbound.bufferSize
  (inbound.peekOutput amountToWrite).bind fun buffer =>
    let (threadData, taken, result) := FileDescriptor.write s.threadData [buffer] false fun _ _ => turn.writev
    let s := { s with threadData := threadData, delivered := s.delivered ++ taken }
    result.bind fun bytesWritten =>
      match inbound.popOutput bytesWritten with
      | (_, .error e) => .error e
      | (inbound, .ok ()) =>
        let s := { s with tcp := withInbound s.tcp inbound }
        -- `shutdown(SHUT_WR)` counts as a write
        if inbound.eof || inbound.error then
          .ok { s with
            threadData := { s.threadData with writeCount := s.threadData.writeCount + 1 }
            inboundShutdown := true }
        else .ok s

/-- The loop of rule 4. -/
def sendLoop : List TCPSegment → A → Except Exception A
  | [], adapter => .ok adapter
  | front :: rest, adapter =>
    match FdAdapter.write adapter front with
    | (_, .error e) => .error e
    | (adapter, .ok _) => sendLoop rest adapter

/-- The callback of rule 4: read outbound segments from `TCPConnection` and send as datagrams. -/
def sendDatagrams (s : TCPSpongeSocket A) : Except Exception (TCPSpongeSocket A) :=
  (sendLoop s.tcp.segmentsOut s.datagramAdapter).map fun adapter =>
    { s with datagramAdapter := adapter, tcp := { s.tcp with segmentsOut := [] } }

def rule1 : Rule (TCPSpongeSocket A × Turn) Fd where
  fd := .datagramAdapter
  direction := .pollIn
  callback := fun (s, turn) => s.readDatagram.map (·, turn)
  interest := fun (s, _) => s.tcp.active

def rule2 : Rule (TCPSpongeSocket A × Turn) Fd where
  fd := .threadData
  direction := .pollIn
  callback := fun (s, turn) => (s.readOwner turn).map (·, turn)
  interest := fun (s, _) => s.tcp.active && !s.outboundShutdown && decide (s.tcp.remainingOutboundCapacity > 0)
  cancel := fun (s, turn) => s.endOutbound.map (·, turn)

def rule3 : Rule (TCPSpongeSocket A × Turn) Fd where
  fd := .threadData
  direction := .pollOut
  callback := fun (s, turn) => (s.writeOwner turn).map (·, turn)
  interest := fun (s, _) => !s.tcp.inboundStream.bufferEmpty
    || ((s.tcp.inboundStream.eof || s.tcp.inboundStream.error) && !s.inboundShutdown)

def rule4 : Rule (TCPSpongeSocket A × Turn) Fd where
  fd := .datagramAdapter
  direction := .pollOut
  callback := fun (s, turn) => s.sendDatagrams.map (·, turn)
  interest := fun (s, _) => !s.tcp.segmentsOut.isEmpty

/-- The rules of `_initialize_TCP`. -/
def rules : List (Rule (TCPSpongeSocket A × Turn) Fd) := [rule1, rule2, rule3, rule4]

/-- Which loop the socket is in. -/
inductive Phase where
  | connecting
  | listening
  | main
  | finished
  deriving DecidableEq, Repr

namespace Phase

/-- The condition of the loop. -/
def condition (phase : Phase) (tcp : TCPConnection) : Bool :=
  match phase with
  | connecting => decide (tcp.state = TCPState.ofState .synSent)
  | listening => decide (tcp.state = TCPState.ofState .listen) || decide (tcp.state = TCPState.ofState .synRcvd)
    || decide (tcp.state = TCPState.ofState .synSent)
  | main => true
  | finished => false

end Phase

/-- A socket with its event loop; `stopped` says that a signal or the flag has ended the loop of `_tcp_main`. -/
structure Running (A : Type) [FdAdapter A] where
  socket : TCPSpongeSocket A
  rules : List (Rule (TCPSpongeSocket A × Turn) Fd) := rules
  phase : Phase
  stopped : Bool := false

/-- `TCPSpongeSocket::connect` up to its loop; `random` is the ISN that the random device would give. -/
def connect (config : TCPConfig) (random : WrappingInt32) (adapter : A) : Except Exception (Running A) :=
  (TCPConnection.new config random).connect.bind fun tcp =>
    if tcp.state ≠ TCPState.ofState .synSent then
      .error (.runtimeError ("After TCPConnection::connect(), state was " ++ tcp.state.name ++ " but expected "
        ++ (TCPState.ofState .synSent).name))
    else .ok { socket := { tcp := tcp, datagramAdapter := adapter }, phase := .connecting }

/-- `TCPSpongeSocket::listen_and_accept` up to its loop; the adapter listens. -/
def listenAndAccept (config : TCPConfig) (random : WrappingInt32) (adapter : A) : Running A :=
  { socket := { tcp := TCPConnection.new config random, datagramAdapter := adapter }, phase := .listening }

/-- What comes after a loop: however it ended, `connect` and `listen_and_accept` start the thread, and `_tcp_main` shuts
down the owner's end. -/
def leave (w : Running A) (stopped : Bool) : Running A :=
  match w.phase with
  | .connecting | .listening => { w with phase := .main }
  | .main => { w with phase := .finished, stopped := stopped, socket := { w.socket with mainShutdown := true } }
  | .finished => w

/-- One turn of `_tcp_loop`, or the step to what comes after it. -/
def turn (w : Running A) (turn : Turn) : Except Exception (Running A) :=
  if w.phase.condition w.socket.tcp then
    (EventLoop.waitNextEvent fds w.rules turn.poll (w.socket, turn)).map fun (result, rules, socket, _) =>
      let w := { w with rules := rules, socket := socket }
      if result = .exit ∨ turn.abort = true then leave w (decide (turn.poll = .interrupted) || turn.abort)
      else if socket.tcp.active then
        { w with socket := { socket with
          tcp := socket.tcp.tick turn.elapsed
          datagramAdapter := FdAdapter.tick socket.datagramAdapter turn.elapsed } }
      else w
  else .ok (leave w false)

/-- After the thread has finished there are no more turns. -/
theorem turn_finished {w : Running A} (h : w.phase = .finished) (t : Turn) : turn w t = .ok w := by
  unfold turn leave
  rw [h]
  rfl

/-! ## The calls of a run -/

inductive Call (D : Type) where
  | ownerWrites (data : Bytes)
  | ownerShutsDown
  | arrives (datagram : D)
  | turn (turn : Turn)

/-- `EPIPE`. -/
def brokenPipe : String := "Broken pipe"

/-- A write to an end that has been shut down fails. -/
def step (w : Running A) : Call (FdAdapter.Datagram A) → Except Exception (Running A)
  | .ownerWrites data =>
    if w.socket.ownerDone || w.socket.mainShutdown then systemCall "writev" (.error brokenPipe)
    else .ok { w with socket := { w.socket with written := w.socket.written ++ data } }
  | .ownerShutsDown => .ok { w with socket := { w.socket with ownerDone := true } }
  | .arrives datagram => .ok { w with socket := { w.socket with incoming := w.socket.incoming ++ [datagram] } }
  | .turn t => turn w t

def Start (w : Running A) : Prop :=
  ∃ config random adapter, connect config random adapter = .ok w ∨ w = listenAndAccept config random adapter

/-- **`connect` returns**: the state of the connection is SYN_SENT, so the check of it passes. -/
theorem connect_returns (config : TCPConfig) (random : WrappingInt32) (adapter : A) :
    ∃ tcp, (TCPConnection.new config random).connect = .ok tcp ∧ connect config random adapter
      = .ok { socket := { tcp := tcp, datagramAdapter := adapter }, phase := .connecting } := by
  have hnew := TCPConnection.Coherent.new config random
  have htracked : TCPConnection.Tracked (TCPConnection.new config random).sender := TCPConnection.Tracked.new _ _
  obtain ⟨sender, hfill⟩ := htracked.fillWindow_returns
  obtain ⟨hfin, hsyn⟩ := htracked.fillWindow_flags hfill
  have hok : (TCPConnection.new config random).orderly .connect := trivial
  obtain ⟨accepted, created, hcoherent, -⟩ := hnew.filled hok rfl hfill
  have hopens : 0 < sender.nextSeqno := hnew.wired.fillWindow_opens hfill
  have hsent : created ≠ [] := hcoherent.created_ne.mp hopens
  have hconnect : (TCPConnection.new config random).connect
      = .ok { TCPConnection.new config random with sender := sender }.sendAckIfNeed := by
    rw [TCPConnection.connect, hfill]
    rfl
  have hstate : ({ TCPConnection.new config random with sender := sender }.sendAckIfNeed).state
      = TCPState.ofState .synSent := by
    have hsummary : TCPState.stateSummary sender = .synSent := by
      refine (summary_eq hcoherent.wired hcoherent.senderError).trans ?_
      show TCPSenderStateSummary.after (!created.isEmpty) sender.isSynReceived _ sender.isFinReceived = _
      rw [hsyn, List.isEmpty_eq_false_iff.mpr hsent]
      rfl
    have hactive : ({ TCPConnection.new config random with sender := sender }.sendAckIfNeed).active = true := by
      show (!(sender.isFinReceived && _ && _)) = true
      rw [hfin]
      rfl
    rw [TCPConnection.state, TCPState.of, hactive]
    exact congrArg (fun summary => TCPState.mk summary .listen true true) hsummary
  refine ⟨_, hconnect, ?_⟩
  rw [connect, hconnect]
  exact if_neg (not_not.mpr hstate)

/-! ## What the calls do to the connection -/

section Callbacks

open TCPConnection (Tracked)

variable {s s' : TCPSpongeSocket A} {t : Turn}

/-- A connection call, whichever it is. -/
def Calls (c c' : TCPConnection) : Prop := ∃ call, c.step call = .ok c'

theorem Calls.tracked {c c' : TCPConnection} (h : Calls c c') (ht : Tracked c.sender) : Tracked c'.sender := by
  obtain ⟨call, hs⟩ := h
  exact ht.step hs

/-- **Rule 1** reads the device once, and the connection gets a segment or nothing. -/
theorem readDatagram_ok (h : s.readDatagram = .ok s') :
    ∃ datagram rest result adapter, s.incoming = datagram :: rest ∧
      FdAdapter.read s.datagramAdapter datagram = (adapter, .ok result) ∧
      (match result with
        | some seg => s.tcp.segmentReceived seg = .ok s'.tcp
        | none => s'.tcp = s.tcp) ∧
      ∃ fullyAcked, s' = { s with
        tcp := s'.tcp
        datagramAdapter := adapter
        incoming := rest
        deviceReads := s.deviceReads + 1
        deviceEof := s.deviceEof || FdAdapter.atEof datagram
        fullyAcked := fullyAcked } := by
  unfold readDatagram at h
  split at h
  · exact absurd h (by simp [systemCall])
  · rename_i datagram rest hincoming
    generalize hread : FdAdapter.read s.datagramAdapter datagram = answer at h
    obtain ⟨adapter, result⟩ := answer
    obtain ⟨seg, rfl, hseg⟩ := bind_ok.mp h
    obtain ⟨tcp, htcp, rfl⟩ := map_ok.mp hseg
    refine ⟨datagram, rest, seg, adapter, hincoming, hread, ?_, _, rfl⟩
    cases seg with
    | some seg => exact htcp
    | none => exact (Except.ok.inj htcp).symm

theorem endOutbound_ok (h : s.endOutbound = .ok s') :
    s.tcp.endInputStream = .ok s'.tcp ∧ s' = { s with tcp := s'.tcp, outboundShutdown := true } := by
  obtain ⟨tcp, htcp, rfl⟩ := map_ok.mp h
  exact ⟨htcp, rfl⟩

/-- **Rule 2** reads the pipe once.  What it gets is written to the connection, all of it; and at the end of the pipe
the outbound stream ends. -/
theorem readOwner_ok (h : s.readOwner t = .ok s') :
    ∃ data threadData tcp,
      FileDescriptor.read s.threadData s.tcp.remainingOutboundCapacity
        (s.pipe t (min FileDescriptor.BUFFER_SIZE s.tcp.remainingOutboundCapacity)) = .ok (data, threadData) ∧
      s.tcp.write data = .ok (data.length, tcp) ∧
      (if threadData.eof then tcp.endInputStream = .ok s'.tcp else s'.tcp = tcp) ∧
      s' = { s with
        tcp := s'.tcp
        threadData := threadData
        taken := s.taken + data.length
        outboundShutdown := s.outboundShutdown || threadData.eof } := by
  unfold readOwner at h
  obtain ⟨⟨data, threadData⟩, hread, hrest⟩ := bind_ok.mp h
  obtain ⟨⟨amount, tcp⟩, hwrite, hrest⟩ := bind_ok.mp hrest
  dsimp only at hrest
  split at hrest
  · exact absurd hrest (by simp)
  rename_i hall
  obtain rfl : amount = data.length := not_not.mp hall
  refine ⟨data, threadData, tcp, hread, hwrite, ?_⟩
  cases heof : threadData.eof with
  | true =>
    rw [heof, if_pos rfl] at hrest
    obtain ⟨hend, heq⟩ := endOutbound_ok hrest
    rw [if_pos rfl, Bool.or_true]
    exact ⟨hend, heq⟩
  | false =>
    rw [heof, if_neg (by decide)] at hrest
    obtain rfl := Except.ok.inj hrest
    rw [if_neg (by decide), Bool.or_false]
    exact ⟨rfl, rfl⟩

/-- **Rule 3** writes to the pipe, and takes from the inbound stream what was written. -/
theorem writeOwner_ok (h : s.writeOwner t = .ok s') :
    ∃ threadData taken n inbound,
      FileDescriptor.write s.threadData
        [s.tcp.inboundStream.peeked (min 65536 s.tcp.inboundStream.bufferSize)] false (fun _ _ => t.writev)
        = (threadData, taken, .ok n) ∧
      s.tcp.inboundStream.popOutput n = (inbound, .ok ()) ∧
      s' = { s with
        tcp := withInbound s.tcp inbound
        threadData := { threadData with
          writeCount := threadData.writeCount + (if inbound.eof || inbound.error then 1 else 0) }
        delivered := s.delivered ++ taken
        inboundShutdown := s.inboundShutdown || (inbound.eof || inbound.error) } := by
  unfold writeOwner at h
  dsimp only at h
  rw [s.tcp.inboundStream.peekOutput_min (by decide)] at h
  dsimp only [Except.bind] at h
  generalize hwrite : FileDescriptor.write s.threadData
    [s.tcp.inboundStream.peeked (min 65536 s.tcp.inboundStream.bufferSize)] false (fun _ _ => t.writev)
    = answer at h
  obtain ⟨threadData, taken, result⟩ := answer
  obtain ⟨n, rfl, hpop⟩ := bind_ok.mp h
  generalize hpopped : s.tcp.inboundStream.popOutput n = popped at hpop
  obtain ⟨inbound, result⟩ := popped
  cases result with
  | error e => exact absurd hpop (by simp)
  | ok u =>
    refine ⟨threadData, taken, n, inbound, rfl, hpopped, ?_⟩
    dsimp only at hpop
    cases hover : inbound.eof || inbound.error with
    | true =>
      rw [hover, if_pos rfl] at hpop
      obtain rfl := Except.ok.inj hpop
      rw [if_pos rfl, Bool.or_true]
    | false =>
      rw [hover, if_neg (by decide)] at hpop
      obtain rfl := Except.ok.inj hpop
      rw [if_neg (by decide), Bool.or_false]
      rfl

/-- **Rule 4** empties `segments_out()`. -/
theorem sendDatagrams_ok (h : s.sendDatagrams = .ok s') :
    ∃ adapter, sendLoop s.tcp.segmentsOut s.datagramAdapter = .ok adapter ∧
      s' = { s with datagramAdapter := adapter, tcp := { s.tcp with segmentsOut := [] } } := by
  obtain ⟨adapter, hsend, rfl⟩ := map_ok.mp h
  exact ⟨adapter, hsend, rfl⟩

/-- The end of the outbound stream does not end the connection. -/
theorem endInputStream_active {c c' : TCPConnection} (ht : Tracked c.sender) (h : c.endInputStream = .ok c') :
    c'.active = c.active := by
  obtain ⟨sender, hfill, rfl⟩ := map_ok.mp h
  have hfin : sender.isFinReceived = c.sender.isFinReceived :=
    ((ht.withStream ht.wf.endInput).fillWindow_flags hfill).1
  show (if c.isRst then false else !(sender.isFinReceived && c.receiver.streamOut.eof
    && !c.lingerAfterStreamsFinish)) = _
  rw [hfin]
  rfl

end Callbacks

/-! ## The end of the loop -/

section Finish

open TCPConnection (Tracked)

variable {s s' : TCPSpongeSocket A} {t : Turn}

/-- Neither descriptor is closed, and the device has not ended. -/
structure Open (s : TCPSpongeSocket A) : Prop where
  tracked : Tracked s.tcp.sender
  pair : s.threadData.closed = false
  device : s.deviceEof = false
  incoming : ∀ datagram ∈ s.incoming, FdAdapter.atEof datagram = false

theorem Open.readDatagram (h : Open s) (hs : s.readDatagram = .ok s') : Open s' := by
  obtain ⟨datagram, rest, result, adapter, hincoming, -, htcp, _, heq⟩ := readDatagram_ok hs
  have hmem := h.incoming
  rw [hincoming] at hmem
  obtain ⟨hfirst, hlater⟩ := List.forall_mem_cons.mp hmem
  refine ⟨?_, ?_, ?_, ?_⟩
  · show Tracked s'.tcp.sender
    cases result with
    | some seg => exact Calls.tracked ⟨.segmentReceived seg, htcp⟩ h.tracked
    | none => exact htcp ▸ h.tracked
  all_goals rw [heq]
  · exact h.pair
  · show (s.deviceEof || FdAdapter.atEof datagram) = false
    rw [h.device, hfirst]
    rfl
  · exact hlater

theorem Open.endOutbound (h : Open s) (hs : s.endOutbound = .ok s') : Open s' := by
  obtain ⟨hend, heq⟩ := endOutbound_ok hs
  have htracked : Tracked s'.tcp.sender := Calls.tracked ⟨.endInputStream, hend⟩ h.tracked
  refine ⟨htracked, ?_, ?_, ?_⟩
  all_goals rw [heq]
  · exact h.pair
  · exact h.device
  · exact h.incoming

theorem Open.readOwner (h : Open s) (hs : s.readOwner t = .ok s') : Open s' := by
  obtain ⟨data, threadData, tcp, hread, hwrite, hend, heq⟩ := readOwner_ok hs
  have hwritten : Tracked tcp.sender := Calls.tracked ⟨.write data, map_ok.mpr ⟨_, hwrite, rfl⟩⟩ h.tracked
  have htracked : Tracked s'.tcp.sender := by
    split at hend
    · exact Calls.tracked ⟨.endInputStream, hend⟩ hwritten
    · exact hend ▸ hwritten
  refine ⟨htracked, ?_, ?_, ?_⟩
  all_goals rw [heq]
  · exact (FileDescriptor.read_ok hread).2.2.1.trans h.pair
  · exact h.device
  · exact h.incoming

theorem Open.writeOwner (h : Open s) (hs : s.writeOwner t = .ok s') : Open s' := by
  obtain ⟨threadData, taken, n, inbound, hwrite, -, rfl⟩ := writeOwner_ok hs
  exact ⟨h.tracked, (FileDescriptor.write_spec hwrite).2.2.1.trans h.pair, h.device, h.incoming⟩

theorem Open.sendDatagrams (h : Open s) (hs : s.sendDatagrams = .ok s') : Open s' := by
  obtain ⟨adapter, -, rfl⟩ := sendDatagrams_ok hs
  exact ⟨h.tracked, h.pair, h.device, h.incoming⟩

/-- What a rule notes: that it has no interest. -/
def Idle (rule : Rule (TCPSpongeSocket A × Turn) Fd) (interested : Bool) (s : TCPSpongeSocket A × Turn) : Prop :=
  interested = false → rule.interest s = false

theorem Idle.of_true (rule : Rule (TCPSpongeSocket A × Turn) Fd) (s : TCPSpongeSocket A × Turn) :
    Idle rule true s := fun h => absurd h.symm Bool.false_ne_true

/-- The rule that reads from the owner, rule 2. -/
def readsOwner (rule : Rule (TCPSpongeSocket A × Turn) Fd) : Bool :=
  decide (rule.fd = .threadData) && decide (rule.direction = .pollIn)

/-- Only rule 2 is ever cancelled. -/
def Lasting (rule : Rule (TCPSpongeSocket A × Turn) Fd) (live : Bool) (_ : TCPSpongeSocket A × Turn) : Prop :=
  live = false → readsOwner rule = true

/-- A rule with the default cancel function leaves every note alone. -/
theorem apart_of_ok {r r' : Rule (TCPSpongeSocket A × Turn) Fd} (h : r'.cancel = .ok) :
    EventLoop.Apart (fun s => Open s.1) Lasting Idle r r' := by
  refine ⟨fun _ s' _ _ => Idle.of_true r' s', ?_, fun _ _ _ _ h => h, fun _ _ _ _ h => h⟩
  intro s s' b _ hc hidle
  rw [h] at hc
  obtain rfl := Except.ok.inj hc
  exact hidle

/-- The end of the outbound stream makes rule 1 neither more nor less interested. -/
theorem Idle.rule1_of_cancel {s s' : TCPSpongeSocket A × Turn} {b : Bool} (ht : Tracked s.1.tcp.sender)
    (hc : rule2.cancel s = .ok s') (hidle : Idle rule1 b s) : Idle rule1 b s' := by
  intro hb
  obtain ⟨s₁, hend, rfl⟩ := map_ok.mp hc
  have hactive := endInputStream_active ht (endOutbound_ok hend).1
  show s₁.tcp.active = false
  rw [hactive]
  exact hidle hb

theorem apart_rule1_rule2 : EventLoop.Apart (fun s => Open s.1) Lasting Idle (rule1 (A := A)) rule2 :=
  ⟨fun _ s' _ _ => Idle.of_true _ s', fun _ _ _ hopen hc hidle => hidle.rule1_of_cancel hopen.tracked hc,
    fun _ _ _ _ h => h, fun _ _ _ _ h => h⟩

theorem forall_rules {p : Rule (TCPSpongeSocket A × Turn) Fd → Prop} (h1 : p rule1) (h2 : p rule2) (h3 : p rule3)
    (h4 : p rule4) : ∀ rule ∈ rules, p rule := by
  intro rule hrule
  simp only [rules, List.mem_cons, List.not_mem_nil, or_false] at hrule
  rcases hrule with rfl | rfl | rfl | rfl
  · exact h1
  · exact h2
  · exact h3
  · exact h4

/-- **Every callback uses its descriptor**, or its rule loses interest: no turn ends in a busy wait. -/
theorem served : ∀ rule ∈ rules (A := A), ∀ s s', rule.callback s = .ok s' →
    EventLoop.serviceCount fds rule s = EventLoop.serviceCount fds rule s' → rule.interest s' = false := by
  apply forall_rules
  · intro s s' hs hcount
    obtain ⟨s₁, hread, rfl⟩ := map_ok.mp hs
    obtain ⟨_, _, _, _, -, -, -, _, heq⟩ := readDatagram_ok hread
    have hmore : s₁.deviceReads = s.1.deviceReads + 1 := by rw [heq]
    have hsame : s.1.deviceReads = s₁.deviceReads := hcount
    omega
  · intro s s' hs hcount
    obtain ⟨s₁, hread, rfl⟩ := map_ok.mp hs
    obtain ⟨_, threadData, _, hdata, -, -, heq⟩ := readOwner_ok hread
    have hmore : s₁.threadData.readCount = s.1.threadData.readCount + 1 := by
      rw [heq]
      exact (FileDescriptor.read_ok hdata).2.2.2.1
    have hsame : s.1.threadData.readCount = s₁.threadData.readCount := hcount
    omega
  · intro s s' hs hcount
    obtain ⟨s₁, hwrite, rfl⟩ := map_ok.mp hs
    obtain ⟨threadData, _, n, inbound, hdata, -, rfl⟩ := writeOwner_ok hwrite
    have hmore := ((FileDescriptor.write_spec hdata).2.2.2.2 n rfl).2.1
    have hsame : s.1.threadData.writeCount
      = threadData.writeCount + (if inbound.eof || inbound.error then 1 else 0) := hcount
    omega
  · intro s s' hs _
    obtain ⟨s₁, hsend, rfl⟩ := map_ok.mp hs
    obtain ⟨adapter, -, rfl⟩ := sendDatagrams_ok hsend
    rfl

/-- The rules of the device and the writing rule of the pair are not over. -/
theorem not_over {s : TCPSpongeSocket A × Turn} (h : Open s.1) :
    ∀ rule ∈ [rule1, rule3, rule4], ¬ EventLoop.Over fds rule s := by
  have hdevice := h.device
  have hpair := h.pair
  simp only [List.mem_cons, List.not_mem_nil, or_false, forall_eq_or_imp, forall_eq]
  refine ⟨?_, ?_, ?_⟩
  · rintro (⟨-, heof⟩ | hclosed)
    · exact absurd (hdevice.symm.trans heof) Bool.false_ne_true
    · exact absurd hclosed Bool.false_ne_true
  · rintro (⟨hin, -⟩ | hclosed)
    · exact absurd hin (by simp [rule3])
    · exact absurd (hpair.symm.trans hclosed) Bool.false_ne_true
  · rintro (⟨hin, -⟩ | hclosed)
    · exact absurd hin (by simp [rule4])
    · exact absurd hclosed Bool.false_ne_true

theorem not_readsOwner : ∀ rule ∈ [rule1 (A := A), rule3, rule4], ¬ readsOwner rule = true := by
  simp [readsOwner, rule1, rule3, rule4]

/-- **The rules of the socket are sound**, whatever arrives and whatever the kernel does. -/
theorem sound_open : EventLoop.Sound fds (fun s => Open s.1) Lasting Idle (fun rule => readsOwner rule = true)
    (fun _ => True) (rules (A := A)) := by
  have hcallback : ∀ rule ∈ rules (A := A), ∀ s s', Open s.1 → rule.callback s = .ok s' → Open s'.1 := by
    apply forall_rules
    · intro s s' hopen hs
      obtain ⟨s₁, hread, rfl⟩ := map_ok.mp hs
      exact hopen.readDatagram hread
    · intro s s' hopen hs
      obtain ⟨s₁, hread, rfl⟩ := map_ok.mp hs
      exact hopen.readOwner hread
    · intro s s' hopen hs
      obtain ⟨s₁, hwrite, rfl⟩ := map_ok.mp hs
      exact hopen.writeOwner hwrite
    · intro s s' hopen hs
      obtain ⟨s₁, hsend, rfl⟩ := map_ok.mp hs
      exact hopen.sendDatagrams hsend
  refine ⟨fun rule _ s _ _ _ hb => hb, ?_, ?_, ?_⟩
  · intro rule hrule s hopen hlive _
    exact Ends.intro (fun s' hs => ⟨hcallback rule hrule s s' hopen hs, hlive, served rule hrule s s' hs⟩)
      fun _ _ => trivial
  · have hlasts : ∀ rule ∈ [rule1 (A := A), rule3, rule4], ∀ s, Open s.1 →
        ¬ (EventLoop.Over fds rule s ∨ readsOwner rule = true) :=
      fun rule hrule s hopen => not_or.mpr ⟨not_over hopen rule hrule, not_readsOwner rule hrule⟩
    apply forall_rules
    · exact fun s hopen _ hgone => absurd hgone (hlasts rule1 (by simp) s hopen)
    · intro s hopen _ _
      refine Ends.intro (fun s' hs => ?_) fun _ _ => trivial
      obtain ⟨s₁, hend, rfl⟩ := map_ok.mp hs
      exact ⟨hopen.endOutbound hend, fun _ => rfl⟩
    · exact fun s hopen _ hgone => absurd hgone (hlasts rule3 (by simp) s hopen)
    · exact fun s hopen _ hgone => absurd hgone (hlasts rule4 (by simp) s hopen)
  · have h3 : ∀ r, EventLoop.Apart (fun s => Open s.1) Lasting Idle r (rule3 (A := A)) := fun r => apart_of_ok rfl
    have h4 : ∀ r, EventLoop.Apart (fun s => Open s.1) Lasting Idle r (rule4 (A := A)) := fun r => apart_of_ok rfl
    simp only [rules, List.pairwise_cons, List.mem_cons, List.not_mem_nil, or_false, forall_eq_or_imp, forall_eq,
      List.Pairwise.nil, and_true]
    exact ⟨⟨apart_rule1_rule2, h3 _, h4 _⟩, ⟨h3 _, h4 _⟩, h4 _, fun _ hnone => hnone.elim⟩

/-- The thread has nothing left to do. -/
structure Done (s : TCPSpongeSocket A) : Prop where
  inactive : s.tcp.active = false
  sent : s.tcp.segmentsOut = []
  delivered : s.tcp.inboundStream.bufferEmpty = true
  shutdown : s.tcp.inboundStream.eof = true ∨ s.tcp.inboundStream.error = true → s.inboundShutdown = true

/-- What holds in every run that nothing disturbs: only rule 2 may be gone, and the thread stops when it is done. -/
structure Working (w : Running A) : Prop where
  opened : Open w.socket
  known : w.rules.Sublist rules
  kept : ∀ rule ∈ [rule1, rule3, rule4], rule ∈ w.rules
  done : w.phase = .finished → Done w.socket

/-- The rules that a turn cancels for a hangup. -/
def hungUp (w : Running A) (turn : Turn) : List (Rule (TCPSpongeSocket A × Turn) Fd) :=
  EventLoop.hungUp fds w.rules turn.poll (w.socket, turn)

/-- The datagram does not end the device; the loop is neither aborted nor interrupted, and no rule but rule 2 is
cancelled for a hangup. -/
def undisturbed (w : Running A) : Call (FdAdapter.Datagram A) → Prop
  | .ownerWrites _ | .ownerShutsDown => True
  | .arrives datagram => FdAdapter.atEof datagram = false
  | .turn turn => turn.abort = false ∧ turn.poll ≠ .interrupted ∧ (hungUp w turn).all readsOwner = true

instance (w : Running A) : DecidablePred (undisturbed w)
  | .ownerWrites _ | .ownerShutsDown => isTrue trivial
  | .arrives _ => inferInstanceAs (Decidable (_ = false))
  | .turn _ => inferInstanceAs (Decidable (_ ∧ _))

variable {w w' : Running A}

theorem Start.working (h : Start w) : Working w := by
  have hnew : ∀ config random, Tracked (TCPConnection.new config random).sender := Tracked.new
  have hkept : ∀ rule ∈ [rule1, rule3, rule4], rule ∈ rules (A := A) := by
    intro rule hrule
    simp only [rules, List.mem_cons, List.not_mem_nil, or_false] at hrule ⊢
    exact hrule.imp_right fun hrest => Or.inr hrest
  obtain ⟨config, random, adapter, hconnect | rfl⟩ := h
  · obtain ⟨tcp, htcp, hreturns⟩ := connect_returns config random adapter
    obtain rfl := Except.ok.inj (hreturns.symm.trans hconnect)
    have htracked : Tracked tcp.sender := Calls.tracked ⟨.connect, htcp⟩ (hnew config random)
    exact ⟨⟨htracked, rfl, rfl, by simp⟩, List.Sublist.refl _, hkept, by simp⟩
  · exact ⟨⟨hnew config random, rfl, rfl, by simp [listenAndAccept]⟩, List.Sublist.refl _, hkept,
      by simp [listenAndAccept]⟩

/-- When the three rules have no interest, the thread is done. -/
theorem Done.of_idle (h : ∀ rule ∈ [rule1, rule3, rule4], rule.interest (s, t) = false) : Done s := by
  simp only [List.mem_cons, List.not_mem_nil, or_false, forall_eq_or_imp, forall_eq] at h
  obtain ⟨hactive, hinbound, hsegments⟩ := h
  obtain ⟨hread, hshut⟩ := Bool.or_eq_false_iff.mp hinbound
  refine ⟨hactive, ?_, by simpa using hread, fun hover => ?_⟩
  · have hempty : (!s.tcp.segmentsOut.isEmpty) = false := hsegments
    simpa using hempty
  · rw [Bool.or_eq_true_iff.mpr hover, Bool.true_and] at hshut
    simpa using hshut

theorem Open.same (h : Open s) (htcp : s'.tcp = s.tcp) (hpair : s'.threadData = s.threadData)
    (hdevice : s'.deviceEof = s.deviceEof)
    (hincoming : ∀ datagram ∈ s'.incoming, datagram ∈ s.incoming ∨ FdAdapter.atEof datagram = false) : Open s' :=
  ⟨htcp ▸ h.tracked, hpair ▸ h.pair, hdevice ▸ h.device, fun d hd => (hincoming d hd).elim (h.incoming d) id⟩

theorem Done.same (h : Done s) (htcp : s'.tcp = s.tcp) (hshut : s'.inboundShutdown = s.inboundShutdown) : Done s' := by
  obtain ⟨hover, hsent, hdelivered, hshutdown⟩ := h
  rw [← htcp] at hover hsent hdelivered hshutdown
  rw [← hshut] at hshutdown
  exact ⟨hover, hsent, hdelivered, hshutdown⟩

theorem Working.leave (h : Working w) (hdone : w.phase = .main → Done w.socket) (stopped : Bool) :
    Working (leave w stopped) := by
  unfold TCPSpongeSocket.leave
  cases hphase : w.phase with
  | connecting | listening => exact ⟨h.opened, h.known, h.kept, by simp⟩
  | main => exact ⟨h.opened.same rfl rfl rfl fun _ => Or.inl, h.known, h.kept, fun _ => (hdone hphase).same rfl rfl⟩
  | finished => exact h

/-- **One turn.** -/
theorem Working.turn (h : Working w) (hquiet : undisturbed w (.turn t))
    (hs : TCPSpongeSocket.turn w t = .ok w') : Working w' := by
  obtain ⟨habort, hpoll, hhup⟩ := hquiet
  unfold TCPSpongeSocket.turn at hs
  split at hs
  · rename_i hcondition
    have hphase : w.phase ≠ .finished := by
      intro hfinished
      rw [hfinished] at hcondition
      exact absurd hcondition Bool.false_ne_true
    obtain ⟨⟨result, rules', socket, t'⟩, hwait, rfl⟩ := map_ok.mp hs
    have hlive : ∀ rule ∈ w.rules, Lasting rule true (w.socket, t) := fun _ _ hdead =>
      absurd hdead.symm Bool.false_ne_true
    have hends := EventLoop.waitNextEvent_ends (sound_open.sublist h.known) (s := (w.socket, t)) h.opened hlive
      (List.all_eq_true.mp hhup)
    obtain ⟨⟨hopen, hsub, -, hgone, -⟩, hexit⟩ := hends.ok hwait
    have hrules : ∀ rule ∈ [rule1, rule3, rule4], rule ∈ rules' := by
      intro rule hrule
      rcases hgone rule (h.kept rule hrule) with hleft | hcancelled
      · exact hleft
      · exact absurd (hcancelled rfl) (not_readsOwner rule hrule)
    have hworking : Working { w with rules := rules', socket := socket } :=
      ⟨hopen, hsub.trans h.known, hrules, fun hfinished => absurd hfinished hphase⟩
    dsimp only
    split
    · rename_i hover
      refine hworking.leave (fun _ => ?_) _
      have hout : result = .exit := hover.resolve_right (by rw [habort]; decide)
      exact Done.of_idle fun rule hrule => hexit hout hpoll rule (hrules rule hrule) rfl
    · split
      · have htracked : Tracked (socket.tcp.tick t.elapsed).sender := Calls.tracked ⟨.tick t.elapsed, rfl⟩ hopen.tracked
        exact ⟨⟨htracked, hopen.pair, hopen.device, hopen.incoming⟩, hsub.trans h.known, hrules,
          fun hfinished => absurd hfinished hphase⟩
      · exact hworking
  · rename_i hcondition
    obtain rfl := Except.ok.inj hs
    refine h.leave (fun hmain => absurd ?_ hcondition) false
    rw [hmain]
    rfl

theorem Working.step {call : Call (FdAdapter.Datagram A)} (h : Working w) (hquiet : undisturbed w call)
    (hs : step w call = .ok w') : Working w' := by
  cases call with
  | ownerWrites data =>
    rw [TCPSpongeSocket.step] at hs
    split at hs
    · exact absurd hs (by simp [systemCall])
    · obtain rfl := Except.ok.inj hs
      exact ⟨h.opened.same rfl rfl rfl fun _ => Or.inl, h.known, h.kept, fun hfin => (h.done hfin).same rfl rfl⟩
  | ownerShutsDown =>
    obtain rfl := Except.ok.inj hs
    exact ⟨h.opened.same rfl rfl rfl fun _ => Or.inl, h.known, h.kept, fun hfin => (h.done hfin).same rfl rfl⟩
  | arrives datagram =>
    obtain rfl := Except.ok.inj hs
    refine ⟨h.opened.same rfl rfl rfl fun d hd => ?_, h.known, h.kept, fun hfin => (h.done hfin).same rfl rfl⟩
    rcases List.mem_append.mp hd with hd | hd
    · exact Or.inl hd
    · rw [List.mem_singleton.mp hd]
      exact Or.inr hquiet
  | turn t => exact h.turn hquiet hs

/-- **The thread stops only when it is done.**  Take any adapter and any run, with whatever datagrams arriving and
whatever the kernel does, in which the loop is not interrupted or aborted, the device does not end and no rule but rule
2 is cancelled for a hangup.  When the thread has finished, the connection is over, all its segments have been given to
the adapter, all it has received has been written to the owner, and the owner has been told of the end. -/
theorem finishes_clean (hr : Reach Start step undisturbed w) (hfinished : w.phase = .finished) :
    w.socket.tcp.active = false ∧ w.socket.tcp.segmentsOut = [] ∧ w.socket.tcp.inboundStream.bufferEmpty = true ∧
    (w.socket.tcp.inboundStream.eof = true ∨ w.socket.tcp.inboundStream.error = true →
      w.socket.inboundShutdown = true) := by
  have hworking : Working w :=
    Reach.invariant (fun _ h => h.working) (fun _ _ _ h hquiet hs => h.step hquiet hs) hr
  have hdone := hworking.done hfinished
  exact ⟨hdone.inactive, hdone.sent, hdone.delivered, hdone.shutdown⟩

/-- The peer resets the connection that it has opened, and the owner is told. -/
theorem finishes_clean_reset : ∃ w : Running TCPOverUDPSocketAdapter, Reach Start step undisturbed w ∧
    w.phase = .finished ∧ w.socket.tcp.active = false ∧ w.socket.tcp.segmentsOut = [] ∧
    w.socket.tcp.inboundStream.bufferEmpty = true ∧ w.socket.inboundShutdown = true := by
  let syn : UDPDatagram := ⟨{ port := 9 }, {}, [0, 9, 0, 0, 0, 0, 0, 0, 0, 0, 0, 0, 80, 2, 0, 0, 175, 244, 0, 0]⟩
  let rst : UDPDatagram := ⟨{ port := 9 }, {}, [0, 9, 0, 0, 0, 0, 0, 0, 0, 0, 0, 0, 80, 4, 0, 0, 175, 242, 0, 0]⟩
  obtain ⟨w, hr, htest⟩ : ∃ w : Running TCPOverUDPSocketAdapter, Reach Start step undisturbed w ∧
      (decide (w.phase = .finished) && w.socket.tcp.inboundStream.error) = true :=
    Reach.exec_any _ (s := listenAndAccept {} ⟨0⟩ { listening := true })
      (l := [.arrives syn, .turn { poll := .ready [{ pollIn := true }, {}, {}, {}] },
        .turn { poll := .ready [{}, {}, {}, { pollOut := true }] }, .arrives rst,
        .turn { poll := .ready [{ pollIn := true }, {}, {}, {}] }, .turn { poll := .timeout },
        .turn { poll := .ready [{}, {}, { pollOut := true }, {}] }, .turn { poll := .timeout }])
      (.start ⟨_, _, _, Or.inr rfl⟩) (by decide +kernel)
  rw [Bool.and_eq_true, decide_eq_true_eq] at htest
  obtain ⟨hfinished, herror⟩ := htest
  obtain ⟨hover, hsent, hdelivered, hshutdown⟩ := finishes_clean hr hfinished
  exact ⟨w, hr, hfinished, hover, hsent, hdelivered, hshutdown (Or.inr herror)⟩

end Finish

end TCPSpongeSocket

end Sponge
